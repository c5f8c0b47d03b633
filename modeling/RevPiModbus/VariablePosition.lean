import RevPiModbus.ActionList

/-!
# The position of a variable

A variable stands at the offset of its device plus its own relative byte offset, and at its bit
offset within that byte. All three are texts or JSON numbers that `get_variable_parameters` reads
into 32 bits. Here they are integers, and the lookup agrees with them modulo `2 ^ 32`.

The lookup stores the byte offset of an array before it looks at the bit offset, so what it leaves
may come from two arrays. The position of a variable is that of one array.

* `sectionVariable`: the array of a variable;
* `OffsetsRead`: how far its offsets can be read;
* `variablePosition`: the position of a variable;
* `variableByteOffset`, `variableBitOffset`: the offsets that the lookup stores last;
* `getVariableParameters_offsets`, `resolveVariable_offsets`: what a lookup that succeeds leaves.
-/

namespace RevPiModbus

variable {platform : Platform} {device : Json} {name : List Char} {inputData : List Json}
  {entries : List (List Char × Json)} {offsets offsets' : VariableOffsets} {code : ℤ}

/-- The integer at a position of the array of a variable, unless its conversion overflows. -/
def arrayInteger (platform : Platform) (inputData : List Json) (position : ℕ) : Option ℤ :=
  (platform.getString (arrayListGetIdx inputData position)).bind fun text =>
    if (strtoumax text).2 then none else some (CString.integer text)

/-- The relative byte offset in the array of a variable. -/
def arrayByteOffset (platform : Platform) (inputData : List Json) : Option ℤ :=
  arrayInteger platform inputData relativeProcessImageVariableByteOffsetArrayPosition

/-- The bit offset in the array of a variable, which is read after its byte offset. -/
def arrayBitOffset (platform : Platform) (inputData : List Json) : Option ℤ :=
  (arrayByteOffset platform inputData).bind fun _ =>
    arrayInteger platform inputData relativeProcessImageVariableBitOffsetArrayPosition

/-- The array of the first variable of that name in a section. -/
def sectionVariable (platform : Platform) (name : List Char) :
    List (List Char × Json) → Option (List Json)
  | [] => none
  | (_, value) :: entries =>
    match value.getArray with
    | none => sectionVariable platform name entries
    | some inputData =>
      if platform.getString (arrayListGetIdx inputData variableNameArrayPosition) = some name then
        some inputData
      else
        sectionVariable platform name entries

/-- The array of a variable in the section of a device with that key. -/
def deviceVariable (platform : Platform) (device : Json) (name key : List Char) :
    Option (List Json) :=
  match device.objectGetEx key with
  | some (.object entries) => sectionVariable platform name entries
  | _ => none

/-! ### The position -/

/-- How far the offsets of an array are read: not at all, the byte offset alone, or both. -/
inductive OffsetsRead
  | nothing
  | byteOnly (byte : ℤ)
  | both (byte bit : ℤ)

/-- What is read of an array, if there is one. -/
def offsetsRead (platform : Platform) (array : Option (List Json)) : OffsetsRead :=
  match array.bind (arrayByteOffset platform), array.bind (arrayBitOffset platform) with
  | none, _ => .nothing
  | some byte, none => .byteOnly byte
  | some byte, some bit => .both byte bit

/-- Both offsets of one array: of that in "out", which is searched last, if both are read there,
else of that in "inp". -/
def OffsetsRead.position : OffsetsRead → OffsetsRead → Option (ℤ × ℤ)
  | .both byte bit, _ => some (byte, bit)
  | _, .both byte bit => some (byte, bit)
  | _, _ => none

/-- The offsets of a variable in the section of a device with that key. -/
def deviceRead (platform : Platform) (device : Json) (name key : List Char) : OffsetsRead :=
  offsetsRead platform (deviceVariable platform device name key)

/-- The byte and the bit of a variable: the offset of the device plus the relative byte offset, and
the bit offset, of one array with its name. -/
def variablePosition (platform : Platform) (device : Json) (name : List Char) : Option (ℤ × ℤ) :=
  ((deviceRead platform device name "out".toList).position
    (deviceRead platform device name "inp".toList)).map fun (byte, bit) =>
      (getProcessImageDeviceOffset platform device + byte, bit)

/-! ### What the lookup stores -/

/-- An offset as the lookup stores it last: from the section "out" if it is read there, else from
"inp". -/
def deviceOffset (platform : Platform) (device : Json) (name : List Char)
    (offset : List Json → Option ℤ) : Option ℤ :=
  ((deviceVariable platform device name "out".toList).bind offset).or
    ((deviceVariable platform device name "inp".toList).bind offset)

/-- The offset of the device plus the relative byte offset that the lookup stores last, whether or
not the bit offset of that array can be read. -/
def variableByteOffset (platform : Platform) (device : Json) (name : List Char) : Option ℤ :=
  (deviceOffset platform device name (arrayByteOffset platform)).map
    (getProcessImageDeviceOffset platform device + ·)

/-- The bit offset that the lookup stores last. -/
def variableBitOffset (platform : Platform) (device : Json) (name : List Char) : Option ℤ :=
  deviceOffset platform device name (arrayBitOffset platform)

/-- The byte offset, if it is read. -/
def OffsetsRead.byteOffset : OffsetsRead → Option ℤ
  | .nothing => none
  | .byteOnly byte => some byte
  | .both byte _ => some byte

/-- The bit offset, if it is read. -/
def OffsetsRead.bitOffset : OffsetsRead → Option ℤ
  | .nothing => none
  | .byteOnly _ => none
  | .both _ bit => some bit

theorem offsetsRead_byteOffset (array : Option (List Json)) :
    (offsetsRead platform array).byteOffset = array.bind (arrayByteOffset platform) := by
  unfold offsetsRead
  cases array.bind (arrayByteOffset platform) <;>
    cases array.bind (arrayBitOffset platform) <;> rfl

/-- Without a byte offset there is no bit offset. -/
theorem arrayBitOffset_of_none {array : Option (List Json)}
    (h : array.bind (arrayByteOffset platform) = none) :
    array.bind (arrayBitOffset platform) = none := by
  cases array with
  | none => rfl
  | some inputData =>
    rw [Option.bind_some] at h ⊢
    unfold arrayBitOffset
    rw [h]
    rfl

theorem offsetsRead_bitOffset (array : Option (List Json)) :
    (offsetsRead platform array).bitOffset = array.bind (arrayBitOffset platform) := by
  unfold offsetsRead
  cases hbyte : array.bind (arrayByteOffset platform) with
  | none => rw [arrayBitOffset_of_none hbyte]; rfl
  | some byte => cases array.bind (arrayBitOffset platform) <;> rfl

/-- Both offsets are read of an array exactly if both can be converted. -/
theorem offsetsRead_eq_both_iff {array : Option (List Json)} {byte bit : ℤ} :
    offsetsRead platform array = .both byte bit ↔
      array.bind (arrayByteOffset platform) = some byte ∧
        array.bind (arrayBitOffset platform) = some bit := by
  rw [← offsetsRead_byteOffset, ← offsetsRead_bitOffset]
  cases offsetsRead platform array <;> simp [OffsetsRead.byteOffset, OffsetsRead.bitOffset]

theorem deviceOffset_byte (platform : Platform) (device : Json) (name : List Char) :
    deviceOffset platform device name (arrayByteOffset platform) =
      (deviceRead platform device name "out".toList).byteOffset.or
        (deviceRead platform device name "inp".toList).byteOffset := by
  unfold deviceOffset deviceRead
  rw [offsetsRead_byteOffset, offsetsRead_byteOffset]

theorem deviceOffset_bit (platform : Platform) (device : Json) (name : List Char) :
    deviceOffset platform device name (arrayBitOffset platform) =
      (deviceRead platform device name "out".toList).bitOffset.or
        (deviceRead platform device name "inp".toList).bitOffset := by
  unfold deviceOffset deviceRead
  rw [offsetsRead_bitOffset, offsetsRead_bitOffset]

/-- An offset that is stored if there is one. -/
def storeOffset (offset : Option ℤ) (before : UInt32) : UInt32 :=
  (offset.map UInt32.ofInt).getD before

@[simp] theorem storeOffset_none (before : UInt32) : storeOffset none before = before := rfl

@[simp] theorem storeOffset_some (z : ℤ) (before : UInt32) :
    storeOffset (some z) before = UInt32.ofInt z := rfl

theorem storeOffset_or (a b : Option ℤ) (before : UInt32) :
    storeOffset (a.or b) before = storeOffset a (storeOffset b before) := by
  cases a <;> rfl

/-- The number that is stored is the integer modulo `2 ^ 32`. -/
theorem toNat_ofInt (z : ℤ) : ((UInt32.ofInt z).toNat : ℤ) = z % 2 ^ 32 := by
  unfold UInt32.ofInt
  rw [UInt32.toNat_ofNat']
  have hnonneg : 0 ≤ z % 2 ^ 32 := Int.emod_nonneg z (by norm_num)
  have hlt : z % 2 ^ 32 < 2 ^ 32 := Int.emod_lt_of_pos z (by norm_num)
  omega

/-- A conversion of at least 32 bits, stored in 32 bits. -/
theorem ofNat_strtounsigned {bits : ℕ} {text : List Char} (hbits : 32 ≤ bits)
    (h : (CString.strtounsigned bits text).2 = false) :
    UInt32.ofNat (CString.strtounsigned bits text).1 = UInt32.ofInt (CString.integer text) := by
  have hmod : ((CString.strtounsigned bits text).1 : ℤ) % 2 ^ 32 =
      CString.integer text % 2 ^ 32 := by
    rw [CString.strtounsigned_eq h, Int.emod_emod_of_dvd _ (pow_dvd_pow 2 hbits)]
  have hstored := toNat_ofInt (CString.integer text)
  apply UInt32.toNat_inj.mp
  rw [UInt32.toNat_ofNat']
  omega

theorem ofNat_strtoumax {text : List Char} (h : (strtoumax text).2 = false) :
    UInt32.ofNat (strtoumax text).1 = UInt32.ofInt (CString.integer text) :=
  ofNat_strtounsigned (by norm_num) h

/-! ### What a search leaves in the offsets -/

/-- `offsets'` are the offsets of the array, as far as they could be read, or else those from
before. The code is 0 only if both could be read. -/
structure ReadFrom (platform : Platform) (array : Option (List Json))
    (offsets offsets' : VariableOffsets) (code : ℤ) : Prop where
  nonpos : code ≤ 0
  byte : offsets'.byteOffset =
    storeOffset (array.bind (arrayByteOffset platform)) offsets.byteOffset
  bit : offsets'.bitOffset = storeOffset (array.bind (arrayBitOffset platform)) offsets.bitOffset
  read : code = 0 → (array.bind (arrayBitOffset platform)).isSome

theorem readFrom_none (error : ParsingError) (offsets : VariableOffsets) :
    ReadFrom platform none offsets offsets error.code :=
  ⟨error.code_neg.le, rfl, rfl, fun h => absurd h error.code_neg.ne⟩

theorem readOffsets_readFrom
    (h : readOffsets platform inputData offsets = .ok (code, offsets')) :
    ReadFrom platform (some inputData) offsets offsets' code := by
  unfold readOffsets at h
  obtain ⟨byteText, htext, h⟩ := bind_eq_ok.mp h
  rw [deref_eq_ok] at htext
  by_cases hrange : (strtoumax byteText).2 = true
  · -- the byte offset overflows, and the bit offset is not read
    have hbyte : arrayByteOffset platform inputData = none := by
      unfold arrayByteOffset arrayInteger
      rw [htext, Option.bind_some, if_pos hrange]
    have hbit : arrayBitOffset platform inputData = none := by
      unfold arrayBitOffset
      rw [hbyte]
      rfl
    dsimp only at h
    rw [if_pos hrange] at h
    cases h
    refine ⟨(ParsingError.code_neg _).le, ?_, ?_, fun h => absurd h (ParsingError.code_neg _).ne⟩
    · rw [Option.bind_some, hbyte, storeOffset_none]
    · rw [Option.bind_some, hbit, storeOffset_none]
  · have hbyte : arrayByteOffset platform inputData = some (CString.integer byteText) := by
      unfold arrayByteOffset arrayInteger
      rw [htext, Option.bind_some, if_neg hrange]
    have hnumber := ofNat_strtoumax (Bool.not_eq_true _ ▸ hrange)
    dsimp only at h
    rw [if_neg hrange] at h
    obtain ⟨bitText, hbitText, h⟩ := bind_eq_ok.mp h
    rw [deref_eq_ok] at hbitText
    have hbit : arrayBitOffset platform inputData =
        if (strtoumax bitText).2 then none else some (CString.integer bitText) := by
      unfold arrayBitOffset arrayInteger
      rw [hbyte, Option.bind_some, hbitText, Option.bind_some]
    by_cases hbitRange : (strtoumax bitText).2 = true
    · -- the byte offset has been stored already, and stays
      rw [if_pos hbitRange] at h hbit
      cases h
      refine ⟨(ParsingError.code_neg _).le, ?_, ?_, fun h => absurd h (ParsingError.code_neg _).ne⟩
      · rw [Option.bind_some, hbyte, storeOffset_some, ← hnumber]
      · rw [Option.bind_some, hbit, storeOffset_none]
    · have hbitNumber := ofNat_strtoumax (Bool.not_eq_true _ ▸ hbitRange)
      rw [if_neg hbitRange] at h hbit
      cases h
      refine ⟨le_rfl, ?_, ?_, fun _ => ?_⟩
      · rw [Option.bind_some, hbyte, storeOffset_some, ← hnumber]
      · rw [Option.bind_some, hbit, storeOffset_some, ← hbitNumber]
      · rw [Option.bind_some, hbit]
        rfl

theorem relativeOffsetsLoop_readFrom
    (h : relativeOffsetsLoop platform (some name) entries offsets = .ok (code, offsets')) :
    ReadFrom platform (sectionVariable platform name entries) offsets offsets' code := by
  induction entries with
  | nil =>
    cases h
    exact readFrom_none _ _
  | cons entry entries ih =>
    obtain ⟨key, value⟩ := entry
    unfold relativeOffsetsLoop at h
    unfold sectionVariable
    cases harray : value.getArray with
    | none =>
      rw [harray] at h
      exact ih h
    | some inputData =>
      rw [harray] at h
      obtain ⟨variableName, hname, h⟩ := bind_eq_ok.mp h
      rw [deref_eq_ok] at hname
      simp only [deref_some, ok_bind] at h
      simp only [hname, Option.some.injEq]
      by_cases heq : variableName = name
      · rw [if_pos heq] at h ⊢
        exact readOffsets_readFrom h
      · rw [if_neg heq] at h ⊢
        exact ih h

theorem getVariableRelativeOffsets_readFrom {key : List Char} {inOutSection : Json}
    (hsection : device.objectGetEx key = some inOutSection)
    (h : getVariableRelativeOffsets platform inOutSection (some name) offsets =
      .ok (code, offsets')) :
    ReadFrom platform (deviceVariable platform device name key) offsets offsets' code := by
  unfold getVariableRelativeOffsets at h
  obtain ⟨entries, hentries, h⟩ := bind_eq_ok.mp h
  unfold deviceVariable
  rw [hsection]
  cases inOutSection with
  | object entries' =>
    cases hentries
    exact relativeOffsetsLoop_readFrom h
  | _ => cases hentries

/-- Where the bit offset could be read, so could the byte offset. -/
theorem exists_arrayByteOffset {array : Option (List Json)}
    (h : (array.bind (arrayBitOffset platform)).isSome) :
    (array.bind (arrayByteOffset platform)).isSome := by
  by_contra hbyte
  rw [arrayBitOffset_of_none (Option.not_isSome_iff_eq_none.mp hbyte)] at h
  cases h

/-- The two searches of a lookup, one after the other. -/
theorem deviceOffset_of_readFrom {code' : ℤ} {offsets'' : VariableOffsets}
    (hinput : ReadFrom platform (deviceVariable platform device name "inp".toList) offsets offsets'
      code)
    (houtput : ReadFrom platform (deviceVariable platform device name "out".toList) offsets'
      offsets'' code')
    (hfound : ¬ (code < 0 ∧ code' < 0)) :
    ∃ byte bit, deviceOffset platform device name (arrayByteOffset platform) = some byte ∧
      deviceOffset platform device name (arrayBitOffset platform) = some bit ∧
      offsets'' = ⟨UInt32.ofInt byte, UInt32.ofInt bit⟩ := by
  have hsome : (deviceOffset platform device name (arrayByteOffset platform)).isSome ∧
      (deviceOffset platform device name (arrayBitOffset platform)).isSome := by
    unfold deviceOffset
    rw [Option.isSome_or, Option.isSome_or, Bool.or_eq_true, Bool.or_eq_true]
    by_cases hzero : code = 0
    · have hbit := hinput.read hzero
      exact ⟨.inr (exists_arrayByteOffset hbit), .inr hbit⟩
    · -- one of the two codes is not negative, and no code is positive
      have hle := hinput.nonpos
      have hle' := houtput.nonpos
      have hbit := houtput.read (by omega)
      exact ⟨.inl (exists_arrayByteOffset hbit), .inl hbit⟩
  obtain ⟨byte, hbyte⟩ := Option.isSome_iff_exists.mp hsome.1
  obtain ⟨bit, hbit⟩ := Option.isSome_iff_exists.mp hsome.2
  refine ⟨byte, bit, hbyte, hbit, ?_⟩
  have hbyteStored : offsets''.byteOffset =
      storeOffset (deviceOffset platform device name (arrayByteOffset platform))
        offsets.byteOffset := by
    unfold deviceOffset
    rw [storeOffset_or, ← hinput.byte, ← houtput.byte]
  have hbitStored : offsets''.bitOffset =
      storeOffset (deviceOffset platform device name (arrayBitOffset platform))
        offsets.bitOffset := by
    unfold deviceOffset
    rw [storeOffset_or, ← hinput.bit, ← houtput.bit]
  rw [hbyte, storeOffset_some] at hbyteStored
  rw [hbit, storeOffset_some] at hbitStored
  cases offsets''
  rw [← hbyteStored, ← hbitStored]

theorem ofNat_toNat {z : ℤ} (h : 0 ≤ z) : UInt32.ofNat z.toNat = UInt32.ofInt z := by
  apply UInt32.toNat_inj.mp
  have hmod := toNat_ofInt z
  rw [UInt32.toNat_ofNat']
  omega

/-- **A lookup that succeeds** leaves the offsets that it has stored last, as far as 32 bits go. -/
theorem getVariableParameters_offsets
    (h : getVariableParameters platform device (some name) offsets = .ok (0, offsets')) :
    ∃ byte bit, variableByteOffset platform device name = some byte ∧
      variableBitOffset platform device name = some bit ∧
      offsets' = ⟨UInt32.ofInt byte, UInt32.ofInt bit⟩ := by
  unfold getVariableParameters at h
  dsimp only at h
  split_ifs at h with hdevice
  · have hzero := congrArg Prod.fst (Except.ok.inj h)
    exact absurd hzero hdevice.ne
  rw [not_lt] at hdevice
  cases hinput : device.objectGetEx "inp".toList with
  | none =>
    rw [hinput] at h
    cases h
  | some input =>
    rw [hinput] at h
    obtain ⟨⟨rc1, offsets1⟩, h1, h⟩ := bind_eq_ok.mp h
    cases houtput : device.objectGetEx "out".toList with
    | none =>
      rw [houtput] at h
      cases h
    | some output =>
      rw [houtput] at h
      obtain ⟨⟨rc2, offsets2⟩, h2, h⟩ := bind_eq_ok.mp h
      dsimp only at h
      split_ifs at h with hfails
      · cases h
      obtain ⟨byte, bit, hbyte, hbit, rfl⟩ :=
        deviceOffset_of_readFrom (getVariableRelativeOffsets_readFrom hinput h1)
          (getVariableRelativeOffsets_readFrom houtput h2) hfails
      cases h
      refine ⟨_, bit, congrArg (Option.map _) hbyte, hbit, ?_⟩
      rw [ofNat_toNat hdevice, ← UInt32.ofInt_add, add_comm]

/-- The relative offsets that the lookup keeps: the bit offset of the array that is the position,
and the byte offset that was stored last. -/
def OffsetsRead.kept : OffsetsRead → OffsetsRead → Option (ℤ × ℤ)
  | .both byte bit, _ => some (byte, bit)
  | .byteOnly byte, .both _ bit => some (byte, bit)
  | .nothing, .both byte bit => some (byte, bit)
  | _, _ => none

theorem kept_eq_some {out inp : OffsetsRead} {byte bit : ℤ}
    (hbyte : out.byteOffset.or inp.byteOffset = some byte)
    (hbit : out.bitOffset.or inp.bitOffset = some bit) : out.kept inp = some (byte, bit) := by
  cases out <;> cases inp <;> cases hbyte <;> cases hbit <;> rfl

theorem kept_isSome (out inp : OffsetsRead) :
    (out.kept inp).isSome = (out.bitOffset.or inp.bitOffset).isSome := by
  cases out <;> cases inp <;> rfl

/-- **A lookup that succeeds** by what it has read in the two sections. -/
theorem getVariableParameters_kept
    (h : getVariableParameters platform device (some name) offsets = .ok (0, offsets')) :
    ∃ byte bit, (deviceRead platform device name "out".toList).kept
        (deviceRead platform device name "inp".toList) = some (byte, bit) ∧
      offsets' = ⟨UInt32.ofInt (getProcessImageDeviceOffset platform device + byte),
        UInt32.ofInt bit⟩ := by
  obtain ⟨position, bit, hposition, hbit, rfl⟩ := getVariableParameters_offsets h
  obtain ⟨byte, hbyte, rfl⟩ := Option.map_eq_some_iff.mp hposition
  rw [deviceOffset_byte] at hbyte
  unfold variableBitOffset at hbit
  rw [deviceOffset_bit] at hbit
  exact ⟨byte, bit, kept_eq_some hbyte hbit, rfl⟩

/-- A variable that is resolved has been found by a lookup. -/
theorem getVariableParameters_of_resolveVariable
    (h : resolveVariable platform device name = some offsets) :
    getVariableParameters platform device (some name) ⟨0, 0⟩ = .ok (0, offsets) := by
  unfold resolveVariable at h
  cases hlookup : getVariableParameters platform device (some name) ⟨0, 0⟩ with
  | error fault =>
    rw [hlookup] at h
    cases h
  | ok outcome =>
    obtain ⟨code, offsets'⟩ := outcome
    rw [hlookup] at h
    unfold found at h
    dsimp only at h
    split_ifs at h with hzero
    cases h
    subst hzero
    rfl

/-- The offsets of a variable that is resolved. -/
theorem resolveVariable_offsets (h : resolveVariable platform device name = some offsets) :
    ∃ byte bit, variableByteOffset platform device name = some byte ∧
      variableBitOffset platform device name = some bit ∧
      offsets = ⟨UInt32.ofInt byte, UInt32.ofInt bit⟩ :=
  getVariableParameters_offsets (getVariableParameters_of_resolveVariable h)

/-- A lookup from any offsets resolves the variable, or says that there is none. -/
theorem resolveVariable_of_ok
    (h : getVariableParameters platform device (some name) offsets = .ok (code, offsets')) :
    resolveVariable platform device name = if code = 0 then some offsets' else none := by
  have hfound := getVariableParameters_found platform device (some name) ⟨0, 0⟩ offsets
  rw [h] at hfound
  unfold resolveVariable
  cases hzero : getVariableParameters platform device (some name) ⟨0, 0⟩ with
  | error fault =>
    rw [hzero] at hfound
    cases hfound
  | ok outcome =>
    rw [hzero] at hfound
    exact Except.ok.inj hfound

/-! ### Lookups without a name -/

theorem relativeOffsetsLoop_none
    (h : relativeOffsetsLoop platform none entries offsets = .ok (code, offsets')) : code < 0 := by
  induction entries with
  | nil =>
    cases h
    exact ParsingError.code_neg _
  | cons entry entries ih =>
    obtain ⟨key, value⟩ := entry
    unfold relativeOffsetsLoop at h
    split at h
    · exact ih h
    · obtain ⟨variableName, -, h⟩ := bind_eq_ok.mp h
      cases h

/-- Without a name there is nothing to be found. -/
theorem getVariableParameters_none
    (h : getVariableParameters platform device none offsets = .ok (code, offsets')) : code ≠ 0 := by
  have hsearch : ∀ {inOutSection : Json} {offsets offsets' : VariableOffsets} {code : ℤ},
      getVariableRelativeOffsets platform inOutSection none offsets = .ok (code, offsets') →
      code < 0 := by
    intro inOutSection offsets offsets' code h
    unfold getVariableRelativeOffsets at h
    obtain ⟨entries, -, h⟩ := bind_eq_ok.mp h
    exact relativeOffsetsLoop_none h
  unfold getVariableParameters at h
  dsimp only at h
  split_ifs at h with hdevice
  · cases h
    exact hdevice.ne
  · split at h
    · cases h
      exact (ParsingError.code_neg _).ne
    · obtain ⟨⟨rc1, offsets1⟩, h1, h⟩ := bind_eq_ok.mp h
      split at h
      · cases h
        exact (ParsingError.code_neg _).ne
      · obtain ⟨⟨rc2, offsets2⟩, h2, h⟩ := bind_eq_ok.mp h
        dsimp only at h
        rw [if_pos ⟨hsearch h1, hsearch h2⟩] at h
        cases h
        exact (ParsingError.code_neg _).ne

end RevPiModbus
