import RevPiModbus.PiConfigDevices

/-!
# The span of a section in the process image

`get_device_process_image_parameter` runs over the variables of a section with a minimum of their
offsets that starts at `UINT32_MAX`, and a maximum that starts at 0 and also selects the variable
whose length is added in the end.

* `SectionVariable`, `WellFormedSection`: the variables that the entries of a section describe;
* `processImageLoop_eq`: what the loop leaves;
* `SpanExact`: the result is the span of the variables, for every order of the entries;
* `spanExact_iff`: the sections for which it is.
-/

namespace RevPiModbus

/-- A variable of a section: its byte offset, and its length in bits. -/
structure SectionVariable where
  offset : ℕ
  bits : ℕ
  deriving DecidableEq, Repr

namespace SectionVariable

/-- The first byte behind the variable. -/
def stop (v : SectionVariable) : ℕ := v.offset + v.bits / 8

/-- The two variables have no byte in common. -/
def Disjoint (v w : SectionVariable) : Prop := v.stop ≤ w.offset ∨ w.stop ≤ v.offset

theorem Disjoint.symm {v w : SectionVariable} (h : v.Disjoint w) : w.Disjoint v := Or.symm h

instance : Std.Symm Disjoint := ⟨fun _ _ => Disjoint.symm⟩

instance (v w : SectionVariable) : Decidable (v.Disjoint w) := inferInstanceAs (Decidable (_ ∨ _))

end SectionVariable

/-- The entry has the length and the offset of the variable as decimal numbers at their
positions. -/
def Describes (entry : List Char × Json) (v : SectionVariable) : Prop :=
  ∃ items offsetText bitsText, entry.2 = .array items ∧
    items[relativeProcessImageVariableByteOffsetArrayPosition]? = some (.string offsetText) ∧
    items[processImageVariableBitLengthArrayPosition]? = some (.string bitsText) ∧
    CString.decimal offsetText = some v.offset ∧ CString.decimal bitsText = some v.bits

/-- The entries of a section describe variables of whole bytes, which are disjoint and end within
32 bits. -/
structure WellFormedSection (entries : List (List Char × Json))
    (vars : List SectionVariable) : Prop where
  describes : List.Forall₂ Describes entries vars
  nonempty : vars ≠ []
  wholeBytes : ∀ v ∈ vars, 0 < v.bits ∧ 8 ∣ v.bits
  disjoint : vars.Pairwise SectionVariable.Disjoint
  fits : ∀ v ∈ vars, v.stop < 2 ^ 32

/-- The function returns the span of the variables. -/
def SpanOf (entries : List (List Char × Json)) (vars : List SectionVariable)
    (start length : UInt32) : Prop :=
  getDeviceProcessImageParameter (.object entries) = .ok (start, length) ∧
    IsLeast {o | ∃ v ∈ vars, v.offset = o} start.toNat ∧
    IsGreatest {e | ∃ v ∈ vars, v.stop = e} (start.toNat + length.toNat)

/-- Whatever the order of the entries, the function returns one and the same span, which is that of
the variables. -/
def SpanExact (entries : List (List Char × Json)) (vars : List SectionVariable) : Prop :=
  ∃ start length, ∀ entries', entries'.Perm entries → SpanOf entries' vars start length

/-! ## The loop -/

section Loop

variable {entries : List (List Char × Json)} {vars : List SectionVariable}

/-- One entry, whose offset fits. -/
theorem processImageLoop_cons {key : List Char} {value : Json} {v : SectionVariable}
    (h : Describes (key, value) v) (hfits : v.offset < 2 ^ 32)
    (entries : List (List Char × Json)) (startAddress size : UInt32) (highestSize : Json) :
    ∃ text, CString.decimal text = some v.bits ∧
      processImageLoop ((key, value) :: entries) startAddress size highestSize =
        processImageLoop entries
          (if startAddress > UInt32.ofNat v.offset then UInt32.ofNat v.offset else startAddress)
          (if size < UInt32.ofNat v.offset then UInt32.ofNat v.offset else size)
          (if size < UInt32.ofNat v.offset then .string text else highestSize) := by
  obtain ⟨items, offsetText, bitsText, rfl, hoffset, hbits, hoffsetText, hbitsText⟩ := h
  have hread : strtoumax offsetText = (v.offset, false) := by
    unfold strtoumax
    rw [CString.strtounsigned_of_decimal hoffsetText, if_pos (by omega)]
  refine ⟨bitsText, hbitsText, ?_⟩
  rw [processImageLoop]
  simp only [Json.getArray, arrayListGetIdx, List.getD_eq_getElem?_getD, hoffset, hbits,
    Option.getD_some, hread, Bool.false_eq_true, if_false]
  split_ifs <;> rfl

/-- What the loop leaves: a lower bound of the offsets that is one of them unless it is the start
value, and an upper bound that is the offset of the selected variable unless none is selected. -/
structure LoopResult (vars : List SectionVariable) (startAddress size : UInt32)
    (highestSize : Json) (startAddress' size' : UInt32) (highestSize' : Json) : Prop where
  lower : startAddress'.toNat ≤ startAddress.toNat ∧ ∀ v ∈ vars, startAddress'.toNat ≤ v.offset
  start : startAddress' = startAddress ∨ ∃ v ∈ vars, startAddress'.toNat = v.offset
  upper : size.toNat ≤ size'.toNat ∧ ∀ v ∈ vars, v.offset ≤ size'.toNat
  selected : (size' = size ∧ highestSize' = highestSize) ∨
    ∃ v ∈ vars, ∃ text, CString.decimal text = some v.bits ∧ highestSize' = .string text ∧
      size'.toNat = v.offset ∧ size.toNat < v.offset

/-- The result of the loop over one more entry. -/
theorem LoopResult.cons {v : SectionVariable} {startAddress size startAddress' size' : UInt32}
    {highestSize highestSize' : Json} {text : List Char} (hfits : v.offset < 2 ^ 32)
    (htext : CString.decimal text = some v.bits)
    (hresult : LoopResult vars
      (if startAddress > UInt32.ofNat v.offset then UInt32.ofNat v.offset else startAddress)
      (if size < UInt32.ofNat v.offset then UInt32.ofNat v.offset else size)
      (if size < UInt32.ofNat v.offset then .string text else highestSize)
      startAddress' size' highestSize') :
    LoopResult (v :: vars) startAddress size highestSize startAddress' size' highestSize' := by
  have hoffset : (UInt32.ofNat v.offset).toNat = v.offset := by
    rw [UInt32.toNat_ofNat', Nat.mod_eq_of_lt hfits]
  obtain ⟨hlower, hstart, hupper, hselected⟩ := hresult
  simp only [gt_iff_lt, UInt32.lt_iff_toNat_lt, hoffset] at hlower hstart hupper hselected
  constructor
  · rw [List.forall_mem_cons]
    split_ifs at hlower with hlt
    · rw [hoffset] at hlower
      exact ⟨by omega, hlower⟩
    · exact ⟨hlower.1, by omega, hlower.2⟩
  · rcases hstart with hstart | ⟨w, hw, hstart⟩
    · split_ifs at hstart with hlt
      · exact Or.inr ⟨v, by simp, by rw [hstart, hoffset]⟩
      · exact Or.inl hstart
    · exact Or.inr ⟨w, by simp [hw], hstart⟩
  · rw [List.forall_mem_cons]
    split_ifs at hupper with hlt
    · rw [hoffset] at hupper
      exact ⟨by omega, hupper⟩
    · exact ⟨hupper.1, by omega, hupper.2⟩
  · rcases hselected with ⟨hsize, hhighest⟩ | ⟨w, hw, text', htext', hhighest, hsize, hlt⟩
    · split_ifs at hsize hhighest with hlt
      · exact Or.inr ⟨v, by simp, text, htext, hhighest, by rw [hsize, hoffset], hlt⟩
      · exact Or.inl ⟨hsize, hhighest⟩
    · refine Or.inr ⟨w, by simp [hw], text', htext', hhighest, hsize, ?_⟩
      split_ifs at hlt with hlt'
      · rw [hoffset] at hlt
        omega
      · exact hlt

/-- **The loop over a section.** -/
theorem processImageLoop_eq (h : List.Forall₂ Describes entries vars)
    (hfits : ∀ v ∈ vars, v.offset < 2 ^ 32) (startAddress size : UInt32)
    (highestSize : Json) :
    ∃ startAddress' size' highestSize',
      processImageLoop entries startAddress size highestSize =
        .ok (startAddress', size', highestSize') ∧
      LoopResult vars startAddress size highestSize startAddress' size' highestSize' := by
  induction h generalizing startAddress size highestSize with
  | nil => exact ⟨_, _, _, rfl, ⟨le_rfl, by simp⟩, Or.inl rfl, ⟨le_rfl, by simp⟩, Or.inl ⟨rfl, rfl⟩⟩
  | @cons entry v entries vars hentry _ ih =>
    obtain ⟨key, value⟩ := entry
    have hv : v.offset < 2 ^ 32 := hfits v (by simp)
    obtain ⟨text, htext, hcons⟩ :=
      processImageLoop_cons hentry hv entries startAddress size highestSize
    obtain ⟨_, _, _, hloop, hresult⟩ := ih (fun w hw => hfits w (by simp [hw])) _ _ _
    exact ⟨_, _, _, hcons.trans hloop, hresult.cons hv htext⟩

end Loop

/-! ## The span -/

section Span

variable {entries entries' : List (List Char × Json)} {vars vars' : List SectionVariable}
  {start length start' length' : UInt32}

/-- The variables have the bytes of their length: their stops lie behind their offsets. -/
theorem WellFormedSection.offset_lt_stop (h : WellFormedSection entries vars)
    {v : SectionVariable} (hv : v ∈ vars) : v.offset < v.stop := by
  obtain ⟨hpos, hdvd⟩ := h.wholeBytes v hv
  unfold SectionVariable.stop
  omega

/-- The variable with the highest offset has the highest stop. -/
theorem WellFormedSection.stop_le (h : WellFormedSection entries vars) {v w : SectionVariable}
    (hv : v ∈ vars) (hw : w ∈ vars) (hmax : ∀ u ∈ vars, u.offset ≤ v.offset) :
    w.stop ≤ v.stop := by
  rcases eq_or_ne v w with rfl | hne
  · exact le_rfl
  · have hv' := h.offset_lt_stop hv
    have hw' := hmax w hw
    rcases h.disjoint.forall hv hw hne with hvw | hwv
    · omega
    · omega

theorem SpanOf.unique (h : SpanOf entries vars start length)
    (h' : SpanOf entries' vars' start' length') (hvars : ∀ v, v ∈ vars ↔ v ∈ vars') :
    start = start' ∧ length = length' := by
  obtain ⟨-, hleast, hgreatest⟩ := h
  obtain ⟨-, hleast', hgreatest'⟩ := h'
  simp only [hvars] at hleast hgreatest
  have hstart := hleast.unique hleast'
  have hstop := hgreatest.unique hgreatest'
  exact ⟨UInt32.toNat_inj.1 hstart, UInt32.toNat_inj.1 (by omega)⟩

/-- The entries in another order describe the same variables in another order. -/
theorem WellFormedSection.perm (h : WellFormedSection entries vars)
    (hperm : entries'.Perm entries) :
    ∃ vars', WellFormedSection entries' vars' ∧ vars'.Perm vars := by
  obtain ⟨vars', hdescribes, hvars⟩ := List.perm_comp_forall₂ hperm h.describes
  refine ⟨vars', ⟨hdescribes, ?_, ?_, ?_, ?_⟩, hvars⟩
  · exact fun hnil => h.nonempty (List.perm_nil.1 (hnil ▸ hvars.symm))
  · exact fun v hv => h.wholeBytes v (hvars.mem_iff.1 hv)
  · exact (hvars.pairwise_iff SectionVariable.Disjoint.symm).2 h.disjoint
  · exact fun v hv => h.fits v (hvars.mem_iff.1 hv)

/-- The condition: not all variables are at offset 0, and the length of the last variable is a
number of 32 bits. -/
def SpanRead (vars : List SectionVariable) : Prop :=
  (∃ v ∈ vars, 0 < v.offset) ∧
    ∀ v ∈ vars, (∀ w ∈ vars, w.offset ≤ v.offset) → v.bits < 2 ^ 32

/-- If all variables are at offset 0, none of them is selected. -/
theorem getDeviceProcessImageParameter_of_zero (h : WellFormedSection entries vars)
    (hzero : ∀ v ∈ vars, v.offset = 0) :
    getDeviceProcessImageParameter (.object entries) =
      .error .offsetPositionParameterWrongType := by
  obtain ⟨start, size, highestSize, hloop, hresult⟩ := processImageLoop_eq h.describes
    (fun v hv => by rw [hzero v hv]; norm_num) 0xFFFFFFFF 0 .null
  unfold getDeviceProcessImageParameter
  simp only [hloop, ok_bind]
  rcases hresult.selected with ⟨-, rfl⟩ | ⟨v, hv, -, -, -, -, hlt⟩
  · rfl
  · rw [hzero v hv] at hlt
    simp at hlt

/-- If some variable is not at offset 0, the last variable is selected, and its length counts as
its low 32 bits. -/
theorem getDeviceProcessImageParameter_of_pos (h : WellFormedSection entries vars)
    (hpos : ∃ v ∈ vars, 0 < v.offset) :
    ∃ start length, ∃ last ∈ vars, (∀ w ∈ vars, w.offset ≤ last.offset) ∧
      getDeviceProcessImageParameter (.object entries) = .ok (start, length) ∧
      IsLeast {o | ∃ v ∈ vars, v.offset = o} start.toNat ∧
      start.toNat + length.toNat = last.offset + last.bits % 2 ^ 32 / 8 := by
  have hoffset : ∀ v ∈ vars, v.offset < 2 ^ 32 - 1 := fun v hv => by
    have := h.offset_lt_stop hv
    have := h.fits v hv
    omega
  obtain ⟨start, size, highestSize, hloop, hresult⟩ := processImageLoop_eq h.describes
    (fun v hv => by have := hoffset v hv; omega) 0xFFFFFFFF 0 .null
  obtain ⟨hlower, hstart, hupper, hselected⟩ := hresult
  have hsize : ¬ size = 0 := by
    rintro rfl
    obtain ⟨v, hv, hlt⟩ := hpos
    have := hupper.2 v hv
    simp at this
    omega
  rcases hselected with ⟨hzero, -⟩ | ⟨last, hlast, text, htext, rfl, hlastOffset, -⟩
  · exact absurd hzero hsize
  have hmax : ∀ w ∈ vars, w.offset ≤ last.offset := fun w hw => hlastOffset ▸ hupper.2 w hw
  have hfits := h.fits last hlast
  have hread : strtoumax text = (last.bits, false) := by
    unfold SectionVariable.stop at hfits
    unfold strtoumax
    rw [CString.strtounsigned_of_decimal htext, if_pos (by omega)]
  refine ⟨start, size + UInt32.ofNat last.bits / 8 - start, last, hlast, hmax, ?_, ?_, ?_⟩
  · unfold getDeviceProcessImageParameter
    simp only [hloop, ok_bind, hread, Bool.false_eq_true, if_false, except_pure]
  · constructor
    · rcases hstart with rfl | ⟨v, hv, hv'⟩
      · have h1 := hlower.2 last hlast
        have h2 := hoffset last hlast
        simp only [UInt32.toNat_ofNat] at h1
        omega
      · exact ⟨v, hv, hv'.symm⟩
    · rintro o ⟨v, hv, rfl⟩
      exact hlower.2 v hv
  · have hlow := hlower.2 last hlast
    have hlength : (size + UInt32.ofNat last.bits / 8 - start).toNat =
        last.offset + last.bits % 2 ^ 32 / 8 - start.toNat := by
      have height : (8 : UInt32).toNat = 8 := rfl
      have hstartLt := start.toNat_lt
      unfold SectionVariable.stop at hfits
      rw [UInt32.toNat_sub, UInt32.toNat_add, UInt32.toNat_div, UInt32.toNat_ofNat', hlastOffset,
        height]
      omega
    omega

/-- The last variable has the greatest stop. -/
theorem WellFormedSection.isGreatest_stop (h : WellFormedSection entries vars)
    {last : SectionVariable} (hlast : last ∈ vars) (hmax : ∀ w ∈ vars, w.offset ≤ last.offset) :
    IsGreatest {e | ∃ v ∈ vars, v.stop = e} last.stop := by
  refine ⟨⟨last, hlast, rfl⟩, ?_⟩
  rintro e ⟨v, hv, rfl⟩
  exact h.stop_le hlast hv hmax

/-- One order of the entries. -/
theorem spanOf_of_read (h : WellFormedSection entries vars) (hread : SpanRead vars) :
    ∃ start length, SpanOf entries vars start length := by
  obtain ⟨hpos, hbits⟩ := hread
  obtain ⟨start, length, last, hlast, hmax, hparameter, hleast, hsum⟩ :=
    getDeviceProcessImageParameter_of_pos h hpos
  refine ⟨start, length, hparameter, hleast, ?_⟩
  rw [hsum, Nat.mod_eq_of_lt (hbits last hlast hmax)]
  exact h.isGreatest_stop hlast hmax

theorem SpanOf.read (h : WellFormedSection entries vars)
    (hspan : SpanOf entries vars start length) : SpanRead vars := by
  obtain ⟨hok, -, hgreatest⟩ := hspan
  have hpos : ∃ v ∈ vars, 0 < v.offset := by
    by_contra hzero
    push Not at hzero
    rw [getDeviceProcessImageParameter_of_zero h fun v hv => Nat.le_zero.1 (hzero v hv)] at hok
    cases hok
  refine ⟨hpos, fun v hv hmax => ?_⟩
  obtain ⟨start', length', last, hlast, hmax', hparameter, -, hsum⟩ :=
    getDeviceProcessImageParameter_of_pos h hpos
  rw [hparameter] at hok
  cases hok
  -- the variable at the highest offset is the last one
  have hstop := hgreatest.unique (h.isGreatest_stop hlast hmax')
  have hsame : v.stop = last.stop :=
    (h.isGreatest_stop hv hmax).unique (h.isGreatest_stop hlast hmax')
  have hoffset : v.offset = last.offset := le_antisymm (hmax' v hv) (hmax last hlast)
  have hdvd := (h.wholeBytes v hv).2
  have hdvd' := (h.wholeBytes last hlast).2
  unfold SectionVariable.stop at hstop hsame
  omega

/-- **The sections whose span is computed.** For a well-formed section the function returns the
span of the variables, the same for every order of the entries, if and only if some variable is not
at offset 0, and the length of the last variable is below 2³² bits. -/
theorem spanExact_iff (h : WellFormedSection entries vars) :
    SpanExact entries vars ↔ SpanRead vars := by
  constructor
  · rintro ⟨start, length, hspan⟩
    exact (hspan entries (List.Perm.refl entries)).read h
  · intro hread
    obtain ⟨start, length, hspan⟩ := spanOf_of_read h hread
    refine ⟨start, length, fun entries' hperm => ?_⟩
    obtain ⟨vars', h', hvars⟩ := h.perm hperm
    have hread' : SpanRead vars' := by
      simpa only [SpanRead, hvars.mem_iff] using hread
    obtain ⟨start', length', hspan'⟩ := spanOf_of_read h' hread'
    obtain ⟨rfl, rfl⟩ := hspan'.unique hspan fun v => hvars.mem_iff
    exact ⟨hspan'.1, hspan.2.1, hspan.2.2⟩

end Span

/-- The entry of a variable. -/
def variableEntry (key offset bits : List Char) : List Char × Json :=
  (key, .array [.string key, .string "0".toList, .string bits, .string offset])

/-- A section of two variables. -/
theorem wellFormedSection_two :
    WellFormedSection [variableEntry "1".toList "4".toList "32".toList,
      variableEntry "0".toList "0".toList "16".toList] [⟨4, 32⟩, ⟨0, 16⟩] where
  describes := .cons ⟨_, _, _, rfl, rfl, rfl, by decide, by decide⟩
    (.cons ⟨_, _, _, rfl, rfl, rfl, by decide, by decide⟩ .nil)
  nonempty := by decide
  wholeBytes := by decide
  disjoint := by decide
  fits := by decide

theorem spanExact_iff_two :
    SpanExact [variableEntry "1".toList "4".toList "32".toList,
      variableEntry "0".toList "0".toList "16".toList] [⟨4, 32⟩, ⟨0, 16⟩] ↔
      SpanRead [⟨4, 32⟩, ⟨0, 16⟩] :=
  spanExact_iff wellFormedSection_two

/-- The section of one variable at offset 0 is rejected. -/
theorem not_spanExact_zero :
    WellFormedSection [variableEntry "0".toList "0".toList "16".toList] [⟨0, 16⟩] ∧
      ¬ SpanExact [variableEntry "0".toList "0".toList "16".toList] [⟨0, 16⟩] := by
  have h : WellFormedSection [variableEntry "0".toList "0".toList "16".toList] [⟨0, 16⟩] :=
    ⟨.cons ⟨_, _, _, rfl, rfl, rfl, by decide, by decide⟩ .nil, by decide, by decide, by decide,
      by decide⟩
  refine ⟨h, ?_⟩
  rintro ⟨start, length, hspan⟩
  have hread := (hspan _ (List.Perm.refl _)).read h
  exact absurd hread.1 (by decide)

end RevPiModbus
