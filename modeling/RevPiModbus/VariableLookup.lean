import RevPiModbus.VariablePosition

/-!
# The lookup of a variable

`get_variable_parameters` searches the sections `inp` and `out` of a device for a name, and takes
its two offsets from what it finds. `json_object_is_type` returns 0 or 1, so the comparisons of its
result with a negative number guard nothing.

* `NamedEntry`, `HasEntry`: an entry with the name, and offsets that are JSON strings of integers;
* `StopsAt`: the entry at which the search of a section stops is one;
* `LookupCorrect`: the lookup finds exactly such entries, takes both offsets from one of them, and
  uses no `NULL`;
* `SearchSafe`: a search meets no `NULL`; `relativeOffsetsLoop_cases`: then it returns;
* `hasEntry_iff`: the search of a section stops at an entry or before it;
* `LookupClean`: what the arrays at which the two searches stop have to be like;
* `lookupCorrect_iff`: the lookup is correct exactly then.
-/

namespace RevPiModbus

/-- The array has the string as name, and at the positions of the offsets JSON strings that convert
to these integers without `ERANGE`. -/
def NamedEntry (name : List Char) (items : List Json) (byte bit : ℤ) : Prop :=
  items[variableNameArrayPosition]? = some (.string name) ∧ ∃ byteText bitText,
    items[relativeProcessImageVariableByteOffsetArrayPosition]? = some (.string byteText) ∧
    items[relativeProcessImageVariableBitOffsetArrayPosition]? = some (.string bitText) ∧
    (strtoumax byteText).2 = false ∧ CString.integer byteText = byte ∧
    (strtoumax bitText).2 = false ∧ CString.integer bitText = bit

/-- Some entry has the name and these offsets. -/
def HasEntry (entries : List (List Char × Json)) (name : List Char) (byte bit : ℤ) : Prop :=
  ∃ key items, (key, .array items) ∈ entries ∧ NamedEntry name items byte bit

/-- The array at which the search of a section stops, the first with the text `name`, is an entry
with the name and these offsets. -/
def StopsAt (platform : Platform) (name : List Char) (entries : List (List Char × Json))
    (byte bit : ℤ) : Prop :=
  ∃ items, sectionVariable platform name entries = some items ∧ NamedEntry name items byte bit

/-- The lookup in a device whose offset is the integer `n`, with the entries `inputs` and
`outputs`, whatever the variables for the results contain before: it returns; it succeeds exactly
if there is an entry; and then the results are the numbers of an entry at which one of the two
searches stopped. -/
def LookupCorrect (platform : Platform) (device : Json) (name : List Char) (n : ℤ)
    (inputs outputs : List (List Char × Json)) : Prop :=
  ∀ offsets, ∃ code offsets',
    getVariableParameters platform device (some name) offsets = .ok (code, offsets') ∧
    (code = 0 ↔ ∃ byte bit, HasEntry (inputs ++ outputs) name byte bit) ∧
    (code = 0 → ∃ entries ∈ [inputs, outputs], ∃ byte bit, StopsAt platform name entries byte bit ∧
      (offsets'.byteOffset.toNat : ℤ) = n + byte ∧ (offsets'.bitOffset.toNat : ℤ) = bit)

/-! ## The search in a section -/

section Search

variable {platform : Platform} {name : List Char} {items : List Json}
  {entries : List (List Char × Json)} {offsets offsets' : VariableOffsets} {code : ℤ}

/-- The offsets of the array are read without a `NULL`: the byte offset, and the bit offset if the
byte offset converts. -/
def ReadSafe (platform : Platform) (items : List Json) : Prop :=
  (platform.getString
    (arrayListGetIdx items relativeProcessImageVariableByteOffsetArrayPosition)).isSome ∧
  ((arrayByteOffset platform items).isSome → (platform.getString
    (arrayListGetIdx items relativeProcessImageVariableBitOffsetArrayPosition)).isSome)

/-- A search meets no `NULL`: not as the name of an array up to the first match, and not as an
offset of that. -/
def SearchSafe (platform : Platform) (name : List Char) : List (List Char × Json) → Prop
  | [] => True
  | (_, value) :: entries =>
    match value.getArray with
    | none => SearchSafe platform name entries
    | some items =>
      match platform.getString (arrayListGetIdx items variableNameArrayPosition) with
      | none => False
      | some text => if text = name then ReadSafe platform items
        else SearchSafe platform name entries

/-- The offsets are read, with the code 0 if both convert, or a `NULL` is used. -/
theorem readOffsets_cases (offsets : VariableOffsets) :
    (ReadSafe platform items ∧ ∃ code offsets',
      readOffsets platform items offsets = .ok (code, offsets') ∧
      ((arrayBitOffset platform items).isSome → code = 0)) ∨
    (¬ ReadSafe platform items ∧ readOffsets platform items offsets = .error .nullPointer) := by
  unfold readOffsets ReadSafe arrayBitOffset arrayByteOffset arrayInteger
  cases platform.getString
      (arrayListGetIdx items relativeProcessImageVariableByteOffsetArrayPosition) with
  | none => simp [deref]
  | some byteText =>
    simp only [deref_some, ok_bind, Option.bind_some, Option.isSome_some, true_and]
    by_cases hbyte : (strtoumax byteText).2 = true
    · simp [hbyte]
    · simp only [hbyte, Bool.false_eq_true, if_false, Option.bind_some, Option.isSome_some,
        forall_const]
      cases platform.getString
          (arrayListGetIdx items relativeProcessImageVariableBitOffsetArrayPosition) with
      | none => simp [deref]
      | some bitText =>
        by_cases hbit : (strtoumax bitText).2 = true
        · simp [hbit]
        · simp [hbit]

variable (platform name) in
/-- **A search returns**, with the code 0 if the offsets of the first match convert, or it uses a
`NULL`. -/
theorem relativeOffsetsLoop_cases (entries : List (List Char × Json)) (offsets : VariableOffsets) :
    (SearchSafe platform name entries ∧ ∃ code offsets',
      relativeOffsetsLoop platform (some name) entries offsets = .ok (code, offsets') ∧
      (((sectionVariable platform name entries).bind (arrayBitOffset platform)).isSome →
        code = 0)) ∨
    (¬ SearchSafe platform name entries ∧
      relativeOffsetsLoop platform (some name) entries offsets = .error .nullPointer) := by
  induction entries with
  | nil => simp [relativeOffsetsLoop, sectionVariable, SearchSafe]
  | cons entry entries ih =>
    obtain ⟨key, value⟩ := entry
    unfold relativeOffsetsLoop sectionVariable SearchSafe
    cases value.getArray with
    | none => exact ih
    | some items =>
      cases hname : platform.getString (arrayListGetIdx items variableNameArrayPosition) with
      | none => simp [hname, deref]
      | some text =>
        simp only [hname, deref_some, ok_bind, Option.some.injEq]
        by_cases heq : text = name
        · simp only [if_pos heq, Option.bind_some]
          exact readOffsets_cases offsets
        · simp only [if_neg heq]
          exact ih

/-- The text that has been found is the name. -/
theorem getString_of_sectionVariable (h : sectionVariable platform name entries = some items) :
    platform.getString (arrayListGetIdx items variableNameArrayPosition) = some name := by
  induction entries with
  | nil => cases h
  | cons entry entries ih =>
    obtain ⟨key, value⟩ := entry
    unfold sectionVariable at h
    cases harray : value.getArray with
    | none =>
      rw [harray] at h
      exact ih h
    | some items' =>
      simp only [harray] at h
      split_ifs at h with hname
      · cases h
        exact hname
      · exact ih h

/-- The element of an array at a position that it has. -/
theorem arrayListGetIdx_of {i : ℕ} {json : Json} (h : items[i]? = some json) :
    arrayListGetIdx items i = json := by
  rw [arrayListGetIdx, List.getD_eq_getElem?_getD, h, Option.getD_some]

/-- A JSON string at a position is what is converted there. -/
theorem arrayInteger_of_string {i : ℕ} {text : List Char} (h : items[i]? = some (.string text)) :
    arrayInteger platform items i =
      if (strtoumax text).2 then none else some (CString.integer text) := by
  rw [arrayInteger, arrayListGetIdx_of h]
  rfl

/-- The array has JSON strings as name and as offsets. -/
def StringEntry (items : List Json) : Prop :=
  ∃ nameText byteText bitText,
    items[variableNameArrayPosition]? = some (.string nameText) ∧
    items[relativeProcessImageVariableByteOffsetArrayPosition]? = some (.string byteText) ∧
    items[relativeProcessImageVariableBitOffsetArrayPosition]? = some (.string bitText)

/-- The search of a section stops at an array with JSON strings as name and as offsets. -/
def StopsAtStrings (platform : Platform) (name : List Char) (entries : List (List Char × Json)) :
    Prop :=
  ∃ items, sectionVariable platform name entries = some items ∧ StringEntry items

/-- The offsets of an entry are read. -/
theorem NamedEntry.read {byte bit : ℤ} (h : NamedEntry name items byte bit) :
    arrayByteOffset platform items = some byte ∧ arrayBitOffset platform items = some bit := by
  obtain ⟨-, byteText, bitText, hbyteText, hbitText, hbyteRange, rfl, hbitRange, rfl⟩ := h
  have hbyte : arrayByteOffset platform items = some (CString.integer byteText) := by
    rw [arrayByteOffset, arrayInteger_of_string hbyteText, hbyteRange]
    rfl
  refine ⟨hbyte, ?_⟩
  rw [arrayBitOffset, hbyte, Option.bind_some, arrayInteger_of_string hbitText, hbitRange]
  rfl

/-- What the search of a section reads where it stops. -/
def sectionRead (platform : Platform) (name : List Char) (entries : List (List Char × Json)) :
    OffsetsRead :=
  offsetsRead platform (sectionVariable platform name entries)

/-- A search stops at an entry exactly if it stops at strings and both offsets are read there. -/
theorem stopsAt_iff {byte bit : ℤ} :
    StopsAt platform name entries byte bit ↔
      StopsAtStrings platform name entries ∧
        sectionRead platform name entries = .both byte bit := by
  rw [sectionRead, offsetsRead_eq_both_iff]
  constructor
  · rintro ⟨items, hitems, hentry⟩
    have hread : arrayByteOffset platform items = some byte ∧
        arrayBitOffset platform items = some bit := hentry.read
    rw [hitems, Option.bind_some, Option.bind_some]
    obtain ⟨hname, byteText, bitText, hbyteText, hbitText, -⟩ := hentry
    exact ⟨⟨items, hitems, name, byteText, bitText, hname, hbyteText, hbitText⟩, hread⟩
  · rintro ⟨⟨items, hitems, nameText, byteText, bitText, hname, hbyteText, hbitText⟩, hbyte, hbit⟩
    rw [hitems, Option.bind_some] at hbyte hbit
    have hbyteRead := hbyte
    rw [arrayByteOffset, arrayInteger_of_string hbyteText] at hbyteRead
    rw [arrayBitOffset, hbyte, Option.bind_some, arrayInteger_of_string hbitText] at hbit
    split_ifs at hbyteRead hbit with hbyteRange hbitRange
    have hsame := getString_of_sectionVariable hitems
    rw [arrayListGetIdx_of hname] at hsame
    cases hsame
    exact ⟨items, hitems, hname, byteText, bitText, hbyteText, hbitText,
      Bool.not_eq_true _ ▸ hbyteRange, Option.some.inj hbyteRead,
      Bool.not_eq_true _ ▸ hbitRange, Option.some.inj hbit⟩

/-- The entries behind the array at which a search stops. -/
def behindMatch (platform : Platform) (name : List Char) :
    List (List Char × Json) → List (List Char × Json)
  | [] => []
  | (_, value) :: entries =>
    match value.getArray with
    | none => behindMatch platform name entries
    | some items =>
      if platform.getString (arrayListGetIdx items variableNameArrayPosition) = some name then
        entries
      else
        behindMatch platform name entries

theorem hasEntry_cons {key : List Char} {value : Json} {byte bit : ℤ} :
    HasEntry ((key, value) :: entries) name byte bit ↔
      (∃ items, value = .array items ∧ NamedEntry name items byte bit) ∨
        HasEntry entries name byte bit := by
  unfold HasEntry
  constructor
  · rintro ⟨key', items, hmem, hentry⟩
    rcases List.mem_cons.mp hmem with heq | hmem
    · cases heq
      exact .inl ⟨items, rfl, hentry⟩
    · exact .inr ⟨key', items, hmem, hentry⟩
  · rintro (⟨items, rfl, hentry⟩ | ⟨key', items, hmem, hentry⟩)
    · exact ⟨key, items, List.mem_cons_self, hentry⟩
    · exact ⟨key', items, List.mem_cons_of_mem _ hmem, hentry⟩

theorem hasEntry_append {entries' : List (List Char × Json)} {byte bit : ℤ} :
    HasEntry (entries ++ entries') name byte bit ↔
      HasEntry entries name byte bit ∨ HasEntry entries' name byte bit := by
  induction entries with
  | nil => simp [HasEntry]
  | cons entry entries ih =>
    rw [List.cons_append, hasEntry_cons, hasEntry_cons, ih, or_assoc]

/-- **Where the entries of a section are**: a search stops at an entry, or it stops before it. -/
theorem hasEntry_iff {byte bit : ℤ} :
    HasEntry entries name byte bit ↔ StopsAt platform name entries byte bit ∨
      HasEntry (behindMatch platform name entries) name byte bit := by
  induction entries with
  | nil => simp [HasEntry, StopsAt, sectionVariable, behindMatch]
  | cons entry entries ih =>
    obtain ⟨key, value⟩ := entry
    rw [hasEntry_cons]
    unfold StopsAt sectionVariable behindMatch
    cases value with
    | array items =>
      simp only [Json.getArray, Json.array.injEq, exists_eq_left']
      split_ifs with hname
      · simp only [Option.some.injEq, exists_eq_left']
      · -- an entry has the name, and this array does not
        rw [ih]
        refine or_iff_right fun hentry => hname ?_
        rw [arrayListGetIdx_of hentry.1]
        rfl
    | _ =>
      simp only [Json.getArray, reduceCtorEq, false_and, exists_false, false_or]
      exact ih

end Search

/-! ## The lookup -/

section Lookup

variable {platform : Platform} {device : Json} {name : List Char} {n : ℤ}
  {inputs outputs : List (List Char × Json)}

theorem deviceRead_eq {key : List Char} {entries : List (List Char × Json)}
    (h : device.objectGetEx key = some (.object entries)) :
    deviceRead platform device name key = sectionRead platform name entries := by
  unfold deviceRead deviceVariable
  rw [h]
  rfl

variable (name) in
/-- What the lookup returns where the offset of the device could be read: 0 exactly if both offsets
have been read in one of the sections; or it uses a `NULL`. -/
theorem getVariableParameters_cases
    (hdevice : 0 ≤ getProcessImageDeviceOffset platform device)
    (hinput : device.objectGetEx "inp".toList = some (.object inputs))
    (houtput : device.objectGetEx "out".toList = some (.object outputs))
    (offsets : VariableOffsets) :
    (SearchSafe platform name inputs ∧ SearchSafe platform name outputs ∧ ∃ code offsets',
      getVariableParameters platform device (some name) offsets = .ok (code, offsets') ∧
      (code = 0 ↔
        ((sectionRead platform name outputs).kept (sectionRead platform name inputs)).isSome)) ∨
    (¬ (SearchSafe platform name inputs ∧ SearchSafe platform name outputs) ∧
      getVariableParameters platform device (some name) offsets = .error .nullPointer) := by
  unfold getVariableParameters getVariableRelativeOffsets
  simp only [if_neg (not_lt.2 hdevice), hinput, houtput, Json.objectForeach, ok_bind]
  rcases relativeOffsetsLoop_cases platform name inputs offsets with
    ⟨hinputSafe, rc1, offsets1, h1, hzero1⟩ | ⟨hinputSafe, h1⟩
  · rw [h1, ok_bind]
    rcases relativeOffsetsLoop_cases platform name outputs offsets1 with
      ⟨houtputSafe, rc2, offsets2, h2, hzero2⟩ | ⟨houtputSafe, h2⟩
    · have hread1 := relativeOffsetsLoop_readFrom h1
      have hread2 := relativeOffsetsLoop_readFrom h2
      have hle1 := hread1.nonpos
      have hle2 := hread2.nonpos
      have hbit : ((sectionRead platform name outputs).kept
          (sectionRead platform name inputs)).isSome ↔ rc1 = 0 ∨ rc2 = 0 := by
        rw [kept_isSome, sectionRead, sectionRead, offsetsRead_bitOffset, offsetsRead_bitOffset,
          Option.isSome_or, Bool.or_eq_true]
        constructor
        · rintro (h | h)
          · exact Or.inr (hzero2 h)
          · exact Or.inl (hzero1 h)
        · rintro (h | h)
          · exact Or.inr (hread1.read h)
          · exact Or.inl (hread2.read h)
      refine Or.inl ⟨hinputSafe, houtputSafe, ?_⟩
      rw [h2, ok_bind, hbit]
      by_cases hfails : rc1 < 0 ∧ rc2 < 0
      · rw [if_pos hfails]
        refine ⟨_, _, rfl, iff_of_false (ParsingError.code_neg _).ne ?_⟩
        omega
      · rw [if_neg hfails]
        refine ⟨_, _, rfl, iff_of_true rfl ?_⟩
        omega
    · rw [h2]
      exact Or.inr ⟨fun h => houtputSafe h.2, rfl⟩
  · rw [h1]
    exact Or.inr ⟨fun h => hinputSafe h.1, rfl⟩

variable (name) in
/-- The lookup returns exactly if no search meets a `NULL`. -/
theorem getVariableParameters_returns_iff
    (hdevice : 0 ≤ getProcessImageDeviceOffset platform device)
    (hinput : device.objectGetEx "inp".toList = some (.object inputs))
    (houtput : device.objectGetEx "out".toList = some (.object outputs))
    (offsets : VariableOffsets) :
    (∃ code offsets', getVariableParameters platform device (some name) offsets =
        .ok (code, offsets')) ↔
      SearchSafe platform name inputs ∧ SearchSafe platform name outputs := by
  rcases getVariableParameters_cases name hdevice hinput houtput offsets with
    ⟨hinputSafe, houtputSafe, code, offsets', hok, -⟩ | ⟨hfaults, herror⟩
  · exact iff_of_true ⟨code, offsets', hok⟩ ⟨hinputSafe, houtputSafe⟩
  · refine iff_of_false ?_ hfaults
    rintro ⟨code, offsets', hok⟩
    rw [hok] at herror
    cases herror

/-- A lookup that returns has succeeded exactly if it has read both offsets in a section. -/
theorem getVariableParameters_eq_zero_iff
    (hdevice : 0 ≤ getProcessImageDeviceOffset platform device)
    (hinput : device.objectGetEx "inp".toList = some (.object inputs))
    (houtput : device.objectGetEx "out".toList = some (.object outputs))
    {offsets offsets' : VariableOffsets} {code : ℤ}
    (h : getVariableParameters platform device (some name) offsets = .ok (code, offsets')) :
    code = 0 ↔
      ((sectionRead platform name outputs).kept (sectionRead platform name inputs)).isSome := by
  rcases getVariableParameters_cases name hdevice hinput houtput offsets with
    ⟨-, -, code', offsets'', hok, hcode⟩ | ⟨-, herror⟩
  · rw [h] at hok
    cases hok
    exact hcode
  · rw [h] at herror
    cases herror

/-! ### The condition -/

/-- In a device whose offset is `n`, and was read as `offset`, the position of an entry is an
unsigned number of 32 bits, and the one that is stored for the offsets that the lookup has kept.
Where these are those of the entry, this only means that `n` has been read right, but for multiples
of 2 ^ 32. -/
def Stores (offset n byte bit keptByte keptBit : ℤ) : Prop :=
  (0 ≤ n + byte ∧ n + byte < 2 ^ 32) ∧ (0 ≤ bit ∧ bit < 2 ^ 32) ∧
    (n + byte) % 2 ^ 32 = (offset + keptByte) % 2 ^ 32 ∧ bit % 2 ^ 32 = keptBit % 2 ^ 32

instance (offset n byte bit keptByte keptBit : ℤ) :
    Decidable (Stores offset n byte bit keptByte keptBit) :=
  inferInstanceAs (Decidable (_ ∧ _ ∧ _ ∧ _))

theorem stores_iff {offset byte bit keptByte keptBit : ℤ} :
    Stores offset n byte bit keptByte keptBit ↔
      (offset + keptByte) % 2 ^ 32 = n + byte ∧ keptBit % 2 ^ 32 = bit := by
  unfold Stores
  omega

/-- The condition on the arrays at which the two searches stop. If both offsets are read in both,
one of the two has the numbers that are stored, which are those in "out"; if in one, that one has;
and if "out" has given its byte offset alone, that has to agree. What counts has strings. If both
offsets are read in neither, no entry stands behind the arrays. -/
def StopsClean (platform : Platform) (name : List Char) (offset n : ℤ)
    (inputs outputs : List (List Char × Json)) : Prop :=
  match sectionRead platform name outputs, sectionRead platform name inputs with
  | .both outByte outBit, .both inpByte inpBit =>
    (StopsAtStrings platform name outputs ∧ Stores offset n outByte outBit outByte outBit) ∨
      (StopsAtStrings platform name inputs ∧ Stores offset n inpByte inpBit outByte outBit)
  | .both byte bit, _ => StopsAtStrings platform name outputs ∧ Stores offset n byte bit byte bit
  | .byteOnly kept, .both byte bit =>
    StopsAtStrings platform name inputs ∧ Stores offset n byte bit kept bit
  | .nothing, .both byte bit =>
    StopsAtStrings platform name inputs ∧ Stores offset n byte bit byte bit
  | _, _ => ∀ entries ∈ [inputs, outputs],
    ¬ ∃ byte bit, HasEntry (behindMatch platform name entries) name byte bit

/-- The condition. Where the offset of the device cannot be read, there is no entry. Else no search
meets a `NULL`, and the arrays at which the searches stop are clean. -/
def LookupClean (platform : Platform) (device : Json) (name : List Char) (n : ℤ)
    (inputs outputs : List (List Char × Json)) : Prop :=
  if getProcessImageDeviceOffset platform device < 0 then
    ¬ ∃ byte bit, HasEntry (inputs ++ outputs) name byte bit
  else
    SearchSafe platform name inputs ∧ SearchSafe platform name outputs ∧
      StopsClean platform name (getProcessImageDeviceOffset platform device) n inputs outputs

/-- The entry at which a search stops has the offsets that it reads. -/
theorem exists_stopsAt_iff {entries : List (List Char × Json)} {p : ℤ → ℤ → Prop} :
    (∃ byte bit, StopsAt platform name entries byte bit ∧ p byte bit) ↔
      StopsAtStrings platform name entries ∧
        ∃ byte bit, sectionRead platform name entries = .both byte bit ∧ p byte bit := by
  simp only [stopsAt_iff, and_assoc, exists_and_left]

/-- The entries of both sections. -/
theorem hasEntry_sections {byte bit : ℤ} :
    HasEntry (inputs ++ outputs) name byte bit ↔ ∃ entries ∈ [inputs, outputs],
      StopsAt platform name entries byte bit ∨
        HasEntry (behindMatch platform name entries) name byte bit := by
  simp only [List.mem_cons, List.not_mem_nil, or_false, exists_eq_or_imp, exists_eq_left,
    ← hasEntry_iff, hasEntry_append]

/-- Nothing is kept: the lookup fails, as it should if there is no entry. -/
theorem stopsClean_of_kept_eq_none {offset : ℤ}
    (h : (sectionRead platform name outputs).kept (sectionRead platform name inputs) = none) :
    StopsClean platform name offset n inputs outputs ↔
      ¬ ∃ byte bit, HasEntry (inputs ++ outputs) name byte bit := by
  have hnone : ∀ entries ∈ [inputs, outputs], ∀ byte bit,
      ¬ StopsAt platform name entries byte bit := by
    intro entries hentries byte bit hstops
    have hread := (stopsAt_iff.mp hstops).2
    have hbits := congrArg Option.isSome h
    rw [kept_isSome] at hbits
    rw [List.mem_pair] at hentries
    obtain rfl | rfl := hentries <;> simp [hread, OffsetsRead.bitOffset] at hbits
  have hbehind : StopsClean platform name offset n inputs outputs ↔
      ∀ entries ∈ [inputs, outputs],
        ¬ ∃ byte bit, HasEntry (behindMatch platform name entries) name byte bit := by
    unfold StopsClean
    revert h
    cases sectionRead platform name outputs <;> cases sectionRead platform name inputs <;>
      simp [OffsetsRead.kept]
  rw [hbehind]
  constructor
  · rintro hclean ⟨byte, bit, hentry⟩
    obtain ⟨entries, hentries, hstops | hlater⟩ := hasEntry_sections.mp hentry
    · exact hnone entries hentries byte bit hstops
    · exact hclean entries hentries ⟨byte, bit, hlater⟩
  · rintro hclean entries hentries ⟨byte, bit, hlater⟩
    exact hclean ⟨byte, bit, hasEntry_sections.mpr ⟨entries, hentries, Or.inr hlater⟩⟩

/-- Some offsets are kept: the lookup succeeds, and they should be those of one entry. -/
theorem stopsClean_of_kept_eq_some {offset keptByte keptBit : ℤ}
    (h : (sectionRead platform name outputs).kept (sectionRead platform name inputs) =
      some (keptByte, keptBit)) :
    StopsClean platform name offset n inputs outputs ↔
      ∃ entries ∈ [inputs, outputs], ∃ byte bit, StopsAt platform name entries byte bit ∧
        Stores offset n byte bit keptByte keptBit := by
  simp only [List.mem_cons, List.not_mem_nil, or_false, exists_eq_or_imp, exists_eq_left,
    exists_stopsAt_iff]
  unfold StopsClean
  revert h
  cases sectionRead platform name outputs with
  | both outByte outBit =>
    rintro ⟨⟩
    cases sectionRead platform name inputs <;> simp [or_comm]
  | byteOnly outByte =>
    cases sectionRead platform name inputs with
    | both inpByte inpBit =>
      rintro ⟨⟩
      simp
    | _ => rintro ⟨⟩
  | nothing =>
    cases sectionRead platform name inputs with
    | both inpByte inpBit =>
      rintro ⟨⟩
      simp
    | _ => rintro ⟨⟩

/-- Without an offset of the device the lookup fails, as it should if there is no entry. -/
theorem lookupCorrect_iff_of_neg (hdevice : getProcessImageDeviceOffset platform device < 0) :
    LookupCorrect platform device name n inputs outputs ↔
      ¬ ∃ byte bit, HasEntry (inputs ++ outputs) name byte bit := by
  -- the code is the negative number that stands for the offset
  have hlookup : ∀ offsets, getVariableParameters platform device (some name) offsets =
      .ok (getProcessImageDeviceOffset platform device, offsets) := by
    intro offsets
    unfold getVariableParameters
    simp only [if_pos hdevice]
  constructor
  · intro h
    obtain ⟨code, offsets', hok, hfound, -⟩ := h ⟨0, 0⟩
    rw [hlookup] at hok
    cases hok
    exact fun hentry => hdevice.ne (hfound.2 hentry)
  · intro h offsets
    exact ⟨_, _, hlookup offsets, iff_of_false hdevice.ne h, fun hzero => absurd hzero hdevice.ne⟩

/-- A lookup that has nothing to keep fails. -/
theorem lookupCorrect_iff_of_kept_eq_none
    (hdevice : 0 ≤ getProcessImageDeviceOffset platform device)
    (hinput : device.objectGetEx "inp".toList = some (.object inputs))
    (houtput : device.objectGetEx "out".toList = some (.object outputs))
    (hkept : (sectionRead platform name outputs).kept (sectionRead platform name inputs) = none) :
    LookupCorrect platform device name n inputs outputs ↔
      (SearchSafe platform name inputs ∧ SearchSafe platform name outputs) ∧
        ¬ ∃ byte bit, HasEntry (inputs ++ outputs) name byte bit := by
  have hreturns := getVariableParameters_returns_iff name hdevice hinput houtput
  have hfails : ∀ {offsets code offsets'}, getVariableParameters platform device (some name)
      offsets = .ok (code, offsets') → code ≠ 0 := by
    intro offsets code offsets' hok hzero
    have hsome := (getVariableParameters_eq_zero_iff hdevice hinput houtput hok).mp hzero
    rw [hkept] at hsome
    cases hsome
  constructor
  · intro h
    obtain ⟨code, offsets', hok, hfound, -⟩ := h ⟨0, 0⟩
    exact ⟨(hreturns ⟨0, 0⟩).mp ⟨code, offsets', hok⟩, fun hentry => hfails hok (hfound.2 hentry)⟩
  · rintro ⟨hsafe, hnone⟩ offsets
    obtain ⟨code, offsets', hok⟩ := (hreturns offsets).mpr hsafe
    exact ⟨code, offsets', hok, iff_of_false (hfails hok) hnone,
      fun hzero => absurd hzero (hfails hok)⟩

/-- A lookup that keeps offsets succeeds, and has stored their numbers. -/
theorem lookupCorrect_iff_of_kept_eq_some {keptByte keptBit : ℤ}
    (hdevice : 0 ≤ getProcessImageDeviceOffset platform device)
    (hinput : device.objectGetEx "inp".toList = some (.object inputs))
    (houtput : device.objectGetEx "out".toList = some (.object outputs))
    (hkept : (sectionRead platform name outputs).kept (sectionRead platform name inputs) =
      some (keptByte, keptBit)) :
    LookupCorrect platform device name n inputs outputs ↔
      (SearchSafe platform name inputs ∧ SearchSafe platform name outputs) ∧
        ∃ entries ∈ [inputs, outputs], ∃ byte bit, StopsAt platform name entries byte bit ∧
          Stores (getProcessImageDeviceOffset platform device) n byte bit keptByte keptBit := by
  have hreturns := getVariableParameters_returns_iff name hdevice hinput houtput
  have hsucceeds : ∀ {offsets code offsets'}, getVariableParameters platform device (some name)
      offsets = .ok (code, offsets') → code = 0 := by
    intro offsets code offsets' hok
    refine (getVariableParameters_eq_zero_iff hdevice hinput houtput hok).mpr ?_
    rw [hkept]
    rfl
  have hstored : ∀ {offsets offsets'}, getVariableParameters platform device (some name) offsets =
      .ok (0, offsets') → ∀ byte bit,
        ((offsets'.byteOffset.toNat : ℤ) = n + byte ∧ (offsets'.bitOffset.toNat : ℤ) = bit ↔
          Stores (getProcessImageDeviceOffset platform device) n byte bit keptByte keptBit) := by
    intro offsets offsets' hok byte bit
    obtain ⟨byte', bit', hkept', rfl⟩ := getVariableParameters_kept hok
    rw [deviceRead_eq hinput, deviceRead_eq houtput, hkept] at hkept'
    cases hkept'
    rw [toNat_ofInt, toNat_ofInt, stores_iff]
  constructor
  · intro h
    obtain ⟨code, offsets', hok, -, hsame⟩ := h ⟨0, 0⟩
    obtain rfl := hsucceeds hok
    obtain ⟨entries, hentries, byte, bit, hstops, hnumbers⟩ := hsame rfl
    exact ⟨(hreturns ⟨0, 0⟩).mp ⟨0, offsets', hok⟩, entries, hentries, byte, bit, hstops,
      (hstored hok byte bit).mp hnumbers⟩
  · rintro ⟨hsafe, entries, hentries, byte, bit, hstops, hstores⟩ offsets
    obtain ⟨code, offsets', hok⟩ := (hreturns offsets).mpr hsafe
    obtain rfl := hsucceeds hok
    have hentry := hasEntry_sections.mpr ⟨entries, hentries, Or.inl hstops⟩
    exact ⟨0, offsets', hok, iff_of_true rfl ⟨byte, bit, hentry⟩, fun _ =>
      ⟨entries, hentries, byte, bit, hstops, (hstored hok byte bit).mpr hstores⟩⟩

/-- **When the lookup of a variable is correct.** -/
theorem lookupCorrect_iff (hinput : device.objectGetEx "inp".toList = some (.object inputs))
    (houtput : device.objectGetEx "out".toList = some (.object outputs)) :
    LookupCorrect platform device name n inputs outputs ↔
      LookupClean platform device name n inputs outputs := by
  unfold LookupClean
  split_ifs with hdevice
  · exact lookupCorrect_iff_of_neg hdevice
  rw [not_lt] at hdevice
  rw [← and_assoc]
  cases hkept : (sectionRead platform name outputs).kept (sectionRead platform name inputs) with
  | none =>
    rw [stopsClean_of_kept_eq_none hkept]
    exact lookupCorrect_iff_of_kept_eq_none hdevice hinput houtput hkept
  | some kept =>
    rw [stopsClean_of_kept_eq_some hkept]
    exact lookupCorrect_iff_of_kept_eq_some hdevice hinput houtput hkept

end Lookup

/-- A device at offset 11 with the given inputs. -/
def lookupDevice (inputs : List (List Char × Json)) : Json :=
  .object [("offset".toList, .int 11), ("inp".toList, .object inputs), ("out".toList, .object [])]

/-- The input at byte 2, bit 3. -/
def lookupInput : List Char × Json :=
  ("0".toList, .array [.string "Input_1".toList, .string "0".toList, .string "16".toList,
    .string "2".toList, .boolean true, .string "0001".toList, .string "".toList,
    .string "3".toList])

/-- The condition holds of it, and with it the lookup is correct. -/
theorem lookupCorrect_iff_input :
    LookupClean examplePlatform (lookupDevice [lookupInput]) "Input_1".toList 11 [lookupInput] [] ∧
      LookupCorrect examplePlatform (lookupDevice [lookupInput]) "Input_1".toList 11
        [lookupInput] [] := by
  have hclean : LookupClean examplePlatform (lookupDevice [lookupInput]) "Input_1".toList 11
      [lookupInput] [] := by
    have hoffset :
        ¬ getProcessImageDeviceOffset examplePlatform (lookupDevice [lookupInput]) < 0 := by
      decide
    rw [LookupClean, if_neg hoffset]
    exact ⟨⟨rfl, fun _ => rfl⟩, trivial, ⟨_, rfl, _, _, _, rfl, rfl, rfl⟩, by decide⟩
  exact ⟨hclean, (lookupCorrect_iff rfl rfl).mpr hclean⟩

/-- An empty array in front of the input: its name is `NULL`. -/
theorem not_lookupCorrect_emptyArray :
    ¬ LookupCorrect examplePlatform (lookupDevice [("1".toList, .array []), lookupInput])
      "Input_1".toList 11 [("1".toList, .array []), lookupInput] [] := by
  intro h
  obtain ⟨code, offsets', hok, -⟩ := h ⟨0, 0⟩
  have hfault : getVariableParameters examplePlatform
      (lookupDevice [("1".toList, .array []), lookupInput]) (some "Input_1".toList) ⟨0, 0⟩ =
        .error .nullPointer := rfl
  rw [hfault] at hok
  cases hok

end RevPiModbus
