import RevPiModbus.PiConfigParser

/-!
# The list of actions is what `extend.data` describes

The parser searches all of `extend.data` again for each parameter of an action, by prefix, and its
identifier outlives the iteration that has set it if the action is skipped.

* `found`, `resolveVariable`: the outcome of a lookup, which does not depend on the offsets before;
* `firstEntry`, `buildAction`, `describedActions`: the action of an identifier and the list of all
  actions, said without the loop;
* `ActionLoop.Valid`, `actionLoop_eq`: an identifier that is left over is that of an action that is
  skipped again, so the loop collects the actions of the keys one by one;
* `actionList_eq_describedActions`: the list.
-/

namespace RevPiModbus

open Collect

variable {platform : Platform} {device : Json} {actions entries : ActionData}
  {name identifier : Option (List Char)} {offsets offsets' : VariableOffsets}

/-! ### A lookup does not depend on the offsets before it -/

/-- The offsets that a lookup has found. -/
def found (outcome : ℤ × VariableOffsets) : Option VariableOffsets :=
  if outcome.1 = 0 then some outcome.2 else none

theorem readOffsets_found (inputData : List Json) (offsets offsets' : VariableOffsets) :
    (readOffsets platform inputData offsets).map found =
      (readOffsets platform inputData offsets').map found := by
  unfold readOffsets
  cases deref (platform.getString
    (arrayListGetIdx inputData relativeProcessImageVariableByteOffsetArrayPosition)) with
  | error fault => rfl
  | ok byteText =>
    simp only [ok_bind]
    split_ifs
    · rfl
    · cases deref (platform.getString
        (arrayListGetIdx inputData relativeProcessImageVariableBitOffsetArrayPosition)) with
      | error fault => rfl
      | ok bitText =>
        simp only [ok_bind]
        split_ifs <;> rfl

/-- A section is searched in the same way whatever the offsets are. -/
theorem relativeOffsetsLoop_found (platform : Platform) (name : Option (List Char))
    (entries : ActionData) (offsets offsets' : VariableOffsets) :
    (relativeOffsetsLoop platform name entries offsets).map found =
      (relativeOffsetsLoop platform name entries offsets').map found := by
  induction entries with
  | nil => rfl
  | cons entry entries ih =>
    obtain ⟨key, value⟩ := entry
    unfold relativeOffsetsLoop
    cases value.getArray with
    | none => exact ih
    | some inputData =>
      dsimp only
      cases deref (platform.getString (arrayListGetIdx inputData variableNameArrayPosition)) with
      | error fault => rfl
      | ok variableName =>
        cases deref name with
        | error fault => rfl
        | ok parameterName =>
          simp only [ok_bind]
          split_ifs
          · exact readOffsets_found inputData offsets offsets'
          · exact ih

theorem readOffsets_nonpos {inputData : List Json} {outcome : ℤ × VariableOffsets}
    (h : readOffsets platform inputData offsets = .ok outcome) : outcome.1 ≤ 0 := by
  obtain ⟨byteText, -, h⟩ := bind_eq_ok.mp h
  dsimp only at h
  split_ifs at h
  · cases h
    exact (ParsingError.code_neg _).le
  · obtain ⟨bitText, -, h⟩ := bind_eq_ok.mp h
    split_ifs at h <;> cases h
    · exact (ParsingError.code_neg _).le
    · exact le_rfl

/-- No code of a search is positive. -/
theorem relativeOffsetsLoop_nonpos {outcome : ℤ × VariableOffsets}
    (h : relativeOffsetsLoop platform name entries offsets = .ok outcome) : outcome.1 ≤ 0 := by
  induction entries with
  | nil =>
    cases h
    exact (ParsingError.code_neg _).le
  | cons entry entries ih =>
    obtain ⟨key, value⟩ := entry
    unfold relativeOffsetsLoop at h
    split at h
    · exact ih h
    · obtain ⟨variableName, -, h⟩ := bind_eq_ok.mp h
      obtain ⟨parameterName, -, h⟩ := bind_eq_ok.mp h
      split_ifs at h
      · exact readOffsets_nonpos h
      · exact ih h

/-- Two searches of a section that start from different offsets stop in the same way, or fail both,
or find the same. -/
theorem getVariableRelativeOffsets_cases (platform : Platform) (inOutSection : Json)
    (name : Option (List Char)) (offsets offsets' : VariableOffsets) :
    (∃ fault, getVariableRelativeOffsets platform inOutSection name offsets = .error fault ∧
      getVariableRelativeOffsets platform inOutSection name offsets' = .error fault) ∨
    (∃ code left code' left', code < 0 ∧ code' < 0 ∧
      getVariableRelativeOffsets platform inOutSection name offsets = .ok (code, left) ∧
      getVariableRelativeOffsets platform inOutSection name offsets' = .ok (code', left')) ∨
    (∃ outcome, getVariableRelativeOffsets platform inOutSection name offsets = .ok (0, outcome) ∧
      getVariableRelativeOffsets platform inOutSection name offsets' = .ok (0, outcome)) := by
  unfold getVariableRelativeOffsets
  cases inOutSection.objectForeach with
  | error fault => exact .inl ⟨fault, rfl, rfl⟩
  | ok entries =>
    simp only [ok_bind]
    have hfound := relativeOffsetsLoop_found platform name entries offsets offsets'
    cases h : relativeOffsetsLoop platform name entries offsets with
    | error fault =>
      cases h' : relativeOffsetsLoop platform name entries offsets' with
      | error fault' =>
        rw [h, h'] at hfound
        cases hfound
        exact .inl ⟨fault, rfl, rfl⟩
      | ok outcome' =>
        rw [h, h'] at hfound
        cases hfound
    | ok outcome =>
      cases h' : relativeOffsetsLoop platform name entries offsets' with
      | error fault' =>
        rw [h, h'] at hfound
        cases hfound
      | ok outcome' =>
        rw [h, h'] at hfound
        obtain ⟨code, left⟩ := outcome
        obtain ⟨code', left'⟩ := outcome'
        have hcode : code ≤ 0 := relativeOffsetsLoop_nonpos h
        have hcode' : code' ≤ 0 := relativeOffsetsLoop_nonpos h'
        have heq : found (code, left) = found (code', left') := Except.ok.inj hfound
        unfold found at heq
        dsimp only at heq
        split_ifs at heq with h0 h0'
        · cases heq
          subst h0 h0'
          exact .inr (.inr ⟨left, rfl, rfl⟩)
        · exact .inr (.inl ⟨code, left, code', left', by omega, by omega, rfl, rfl⟩)

/-- Neither does the whole lookup depend on them. -/
theorem getVariableParameters_found (platform : Platform) (device : Json)
    (name : Option (List Char)) (offsets offsets' : VariableOffsets) :
    (getVariableParameters platform device name offsets).map found =
      (getVariableParameters platform device name offsets').map found := by
  unfold getVariableParameters
  dsimp only
  split_ifs with hoffset
  · simp only [Except.map, found, hoffset.ne, if_false]
  · cases device.objectGetEx "inp".toList with
    | none => rfl
    | some input =>
      dsimp only
      obtain ⟨fault, h, h'⟩ | ⟨rc1, left, rc1', left', hrc1, hrc1', h, h'⟩ | ⟨left, h, h'⟩ :=
        getVariableRelativeOffsets_cases platform input name offsets offsets'
      · rw [h, h']
      · rw [h, h']
        cases device.objectGetEx "out".toList with
        | none => rfl
        | some output =>
          -- the section "inp" has failed, so "out" decides
          obtain ⟨fault, h, h'⟩ | ⟨rc2, last, rc2', last', hrc2, hrc2', h, h'⟩ | ⟨last, h, h'⟩ :=
            getVariableRelativeOffsets_cases platform output name left left'
          · simp only [ok_bind, h, h']
            rfl
          · simp only [ok_bind, h, h', hrc1, hrc1', hrc2, hrc2', and_self, if_true]
            rfl
          · simp only [ok_bind, h, h', lt_irrefl, and_false, if_false]
      · rw [h, h']

/-! ### The action of an identifier -/

/-- The text of the first entry whose key starts with `key ++ identifier`; there is none if the
value of that entry is null. -/
def firstEntry (platform : Platform) (actions : ActionData) (identifier key : List Char) :
    Option (List Char) :=
  (actions.find? fun entry => key ++ identifier <+: entry.1).bind fun entry =>
    platform.getString entry.2

/-- The number that is stored for a text. -/
def Platform.number (platform : Platform) (text : List Char) : UInt32 :=
  UInt32.ofNat (platform.strtoul text).1

/-- What `get_variable_parameters` finds for a name. -/
def resolveVariable (platform : Platform) (device : Json) (name : List Char) :
    Option VariableOffsets :=
  match getVariableParameters platform device (some name) ⟨0, 0⟩ with
  | .ok outcome => found outcome
  | .error _ => none

/-- The action that the texts of the nine parameters describe, if they are all there and the three
variables are found. -/
def buildAction (platform : Platform) (device : Json) (parameter : List Char → Option (List Char)) :
    Option TModbusAction := do
  let actionID ← (parameter modbusMasterActionIdKey).map platform.number
  let slaveAddress ← (parameter modbusMasterSlaveAddressKey).map platform.number
  let functionCode ← (parameter modbusMasterFunctonCodeKey).map platform.number
  let registerAddress ← (parameter modbusMasterRegisterAddressKey).map platform.number
  let quantity ← (parameter modbusMasterQuantityOfRegistersKey).map platform.number
  let interval ← (parameter modbusMasterActionIntervalKey).map platform.number
  let data ← (parameter modbusMasterProcessImageVariableNameKey).bind
    (resolveVariable platform device)
  let status ← (parameter modbusMasterActionStatusByte).bind (resolveVariable platform device)
  let reset ← (parameter modbusMasterActionStatusReset).bind (resolveVariable platform device)
  let startBit := data.bitOffset.toUInt8
  let isCoil := (EModbusFunction.ofCode functionCode.toNat).isCoilFunction
  return {
    i16uActionID := actionID.toUInt16
    i8uSlaveAddress := slaveAddress.toUInt8
    eFunctionCode := .ofCode functionCode.toNat
    i32uStartRegister := registerAddress
    i16uRegisterCount := quantity.toUInt16
    i32uIntervalUs := interval * 1000
    i32uStartByteProcessData :=
      if isCoil then data.byteOffset + (startBit / 8).toUInt32 else data.byteOffset
    i8uStartBitProcessData := if isCoil then startBit % 8 else startBit
    i32uStatusByteProcessImageOffset := status.byteOffset
    i32uResetStatusProcessImageByteOffset := reset.byteOffset
    i8uResetStatusProcessImageBitOffset := reset.bitOffset.toUInt8 }

/-- The object `extend.data` of a device. -/
def extendData (device : Json) : Option Json := do
  let configExtend ← device.objectGetEx "extend".toList
  configExtend.objectGetEx "data".toList

/-- The six numeric parameters. -/
def numericFields : List NumericField :=
  [actionIdField, slaveAddressField, functionCodeField, registerAddressField,
    quantityOfRegistersField, actionIntervalField]

/-- The text of a number is converted without overflow, and the assertion about it holds. -/
def NumericField.Accepts (field : NumericField) (platform : Platform) (text : List Char) : Prop :=
  (platform.strtoul text).2 = false ∧ field.inRange (platform.number text) = true

instance (field : NumericField) (text : List Char) : Decidable (field.Accepts platform text) :=
  inferInstanceAs (Decidable (_ ∧ _))

/-- Every numeric parameter in `extend.data` is accepted, whether an action uses it or not. -/
def NumbersInRange (platform : Platform) (actions : ActionData) : Prop :=
  ∀ entry ∈ actions, ∀ field ∈ numericFields, field.key <+: entry.1 →
    ∀ text ∈ platform.getString entry.2, field.Accepts platform text

instance : Decidable (NumbersInRange platform actions) :=
  inferInstanceAs (Decidable (∀ entry ∈ actions, ∀ field ∈ numericFields, _ → _))

/-- No lookup of a variable uses a null pointer. -/
def LookupsReturn (platform : Platform) (device : Json) : Prop :=
  ∀ name, ∃ outcome, getVariableParameters platform device (some name) ⟨0, 0⟩ = .ok outcome

/-- The entries of a variable that a lookup reads are there. -/
def wellFormedVariable (value : Json) : Bool :=
  match value.getArray with
  | none => true
  | some inputData =>
    [variableNameArrayPosition, relativeProcessImageVariableByteOffsetArrayPosition,
      relativeProcessImageVariableBitOffsetArrayPosition].all
        fun i => !(arrayListGetIdx inputData i).isNull

/-- A section that is an object of such variables. -/
def wellFormedSection : Json → Bool
  | .object entries => entries.all fun entry => wellFormedVariable entry.2
  | _ => false

theorem deref_getString (platform : Platform) {json : Json} (h : !json.isNull) :
    ∃ text, deref (platform.getString json) = .ok text := by
  cases json with
  | null => cases h
  | _ => exact ⟨_, rfl⟩

theorem relativeOffsetsLoop_returns (h : entries.all fun entry => wellFormedVariable entry.2)
    (text : List Char) (offsets : VariableOffsets) :
    ∃ outcome, relativeOffsetsLoop platform (some text) entries offsets = .ok outcome := by
  induction entries with
  | nil => exact ⟨_, rfl⟩
  | cons entry entries ih =>
    obtain ⟨key, value⟩ := entry
    rw [List.all_cons, Bool.and_eq_true] at h
    obtain ⟨hvalue, hentries⟩ := h
    unfold relativeOffsetsLoop
    unfold wellFormedVariable at hvalue
    cases harray : value.getArray with
    | none => exact ih hentries
    | some inputData =>
      simp only [harray, List.all_cons, List.all_nil, Bool.and_true, Bool.and_eq_true] at hvalue
      obtain ⟨hname, hbyte, hbit⟩ := hvalue
      obtain ⟨variableName, hname⟩ := deref_getString platform hname
      obtain ⟨byteText, hbyte⟩ := deref_getString platform hbyte
      obtain ⟨bitText, hbit⟩ := deref_getString platform hbit
      simp only [hname, deref_some, ok_bind]
      split_ifs
      · unfold readOffsets
        simp only [hbyte, hbit, ok_bind]
        split_ifs <;> exact ⟨_, rfl⟩
      · exact ih hentries

/-- No lookup stops the process where the sections are objects of variables with all their
entries. -/
theorem lookupsReturn_of_wellFormed
    (h : ∀ key ∈ ["inp".toList, "out".toList], ∀ inOutSection,
      device.objectGetEx key = some inOutSection → wellFormedSection inOutSection = true) :
    LookupsReturn platform device := by
  have hsection : ∀ key ∈ ["inp".toList, "out".toList], ∀ inOutSection,
      device.objectGetEx key = some inOutSection → ∀ text offsets, ∃ outcome,
        getVariableRelativeOffsets platform inOutSection (some text) offsets = .ok outcome := by
    intro key hkey inOutSection hget text offsets
    have hwell := h key hkey inOutSection hget
    cases inOutSection with
    | object entries => exact relativeOffsetsLoop_returns hwell text offsets
    | _ => cases hwell
  intro name
  unfold getVariableParameters
  dsimp only
  split_ifs
  · exact ⟨_, rfl⟩
  · cases hinput : device.objectGetEx "inp".toList with
    | none => exact ⟨_, rfl⟩
    | some input =>
      obtain ⟨⟨rc1, offsets⟩, hinput⟩ := hsection _ (by simp) input hinput name ⟨0, 0⟩
      simp only [hinput, ok_bind]
      cases houtput : device.objectGetEx "out".toList with
      | none => exact ⟨_, rfl⟩
      | some output =>
        obtain ⟨⟨rc2, offsets⟩, houtput⟩ := hsection _ (by simp) output houtput name offsets
        simp only [houtput, ok_bind]
        split_ifs <;> exact ⟨_, rfl⟩

theorem getModbusActionMatchingNameStringValue_eq (key id : List Char) :
    getModbusActionMatchingNameStringValue platform actions key (some id) =
      firstEntry platform actions id key := rfl

theorem actionParameter_eq (key id : List Char) :
    actionParameter platform actions key (some id) =
      orNext (firstEntry platform actions id key) := by
  unfold actionParameter
  rw [getModbusActionMatchingNameStringValue_eq]
  cases firstEntry platform actions id key <;> rfl

/-- A text that is found belongs to an entry of its prefix. -/
theorem mem_of_firstEntry {id key text : List Char}
    (h : firstEntry platform actions id key = some text) :
    ∃ entry ∈ actions, key <+: entry.1 ∧ platform.getString entry.2 = some text := by
  obtain ⟨entry, hentry, htext⟩ := Option.bind_eq_some_iff.mp h
  have hinitial := List.find?_some hentry
  exact ⟨entry, List.mem_of_find?_eq_some hentry,
    (List.prefix_append key id).trans (by simpa using hinitial), htext⟩

/-- A numeric parameter is its text, converted, unless it ends the parse. -/
theorem numericParameter_leavesOr (field : NumericField) (id : List Char) :
    LeavesOr (numericParameter platform actions field (some id))
      ((firstEntry platform actions id field.key).map platform.number) := by
  unfold numericParameter
  rw [actionParameter_eq]
  cases firstEntry platform actions id field.key with
  | none => exact .inr rfl
  | some text =>
    simp only [orNext, ok_bind]
    split_ifs
    · exact .inl ⟨_, rfl⟩
    · unfold cAssert
      split_ifs
      · exact .inr rfl
      · exact .inl ⟨_, rfl⟩

/-- Where all numbers are in range, no numeric parameter ends the parse. -/
theorem numericParameter_stays (hnumbers : NumbersInRange platform actions) {field : NumericField}
    (hfield : field ∈ numericFields) (id : List Char) :
    Stays (numericParameter platform actions field (some id)) := by
  unfold numericParameter
  rw [actionParameter_eq]
  cases h : firstEntry platform actions id field.key with
  | none => exact stays_orNext none
  | some text =>
    obtain ⟨entry, hentry, hkey, htext⟩ := mem_of_firstEntry h
    obtain ⟨hrange, haccepted⟩ := hnumbers entry hentry field hfield hkey text htext
    have hassert := cAssert_of haccepted
    unfold Platform.number at hassert
    simp only [orNext, ok_bind, hrange, Bool.false_eq_true, if_false, hassert]
    exact stays_orNext (some (platform.number text))

/-- A variable is its name, resolved, unless the lookup stops the process. -/
theorem variableParameter_leavesOr (key id : List Char) (offsets : VariableOffsets) :
    LeavesOr (variableParameter platform device actions key (some id) offsets)
      ((firstEntry platform actions id key).bind (resolveVariable platform device)) := by
  unfold variableParameter
  rw [actionParameter_eq]
  cases firstEntry platform actions id key with
  | none => exact .inr rfl
  | some name =>
    have hfound := getVariableParameters_found platform device (some name) offsets ⟨0, 0⟩
    simp only [orNext, ok_bind, Option.bind_some, resolveVariable]
    cases h : getVariableParameters platform device (some name) offsets with
    | error fault => exact .inl ⟨_, rfl⟩
    | ok outcome =>
      cases h' : getVariableParameters platform device (some name) ⟨0, 0⟩ with
      | error fault =>
        rw [h, h'] at hfound
        cases hfound
      | ok outcome' =>
        rw [h, h'] at hfound
        have heq : found outcome = found outcome' := Except.ok.inj hfound
        dsimp only
        rw [← heq]
        unfold found
        right
        by_cases hzero : outcome.1 = 0 <;>
          simp [hzero, orSkip, orFault, Except.mapError, orNext]

/-- Where no lookup stops the process, no variable ends the parse. -/
theorem variableParameter_stays (hlookups : LookupsReturn platform device) (actions : ActionData)
    (key id : List Char) (offsets : VariableOffsets) :
    Stays (variableParameter platform device actions key (some id) offsets) := by
  unfold variableParameter
  rw [actionParameter_eq]
  cases firstEntry platform actions id key with
  | none => exact stays_orNext none
  | some name =>
    obtain ⟨outcome, houtcome⟩ := hlookups name
    have hfound := getVariableParameters_found platform device (some name) offsets ⟨0, 0⟩
    rw [houtcome] at hfound
    cases h : getVariableParameters platform device (some name) offsets with
    | error fault =>
      rw [h] at hfound
      cases hfound
    | ok outcome' =>
      simp only [orNext, ok_bind, h, orFault, orSkip, Except.mapError]
      split_ifs
      · exact stays_orNext none
      · exact stays_orNext (some outcome'.2)

theorem withProcessData_eq (action : TModbusAction) (offsets : VariableOffsets) :
    action.withProcessData offsets = { action with
      i32uStartByteProcessData :=
        if action.eFunctionCode.isCoilFunction then
          offsets.byteOffset + (offsets.bitOffset.toUInt8 / 8).toUInt32
        else offsets.byteOffset
      i8uStartBitProcessData :=
        if action.eFunctionCode.isCoilFunction then offsets.bitOffset.toUInt8 % 8
        else offsets.bitOffset.toUInt8 } := by
  unfold TModbusAction.withProcessData
  dsimp only
  split_ifs <;> rfl

/-- The body of the loop builds the action that its identifier describes, unless it ends the
parse. -/
theorem parseAction_leavesOr (platform : Platform) (device : Json) (actions : ActionData)
    (id : List Char) :
    LeavesOr (parseAction platform device actions (some id))
      (buildAction platform device (firstEntry platform actions id)) := by
  unfold parseAction buildAction
  refine (numericParameter_leavesOr actionIdField id).bind fun actionID => ?_
  refine (numericParameter_leavesOr slaveAddressField id).bind fun slaveAddress => ?_
  refine (numericParameter_leavesOr functionCodeField id).bind fun functionCode => ?_
  refine (numericParameter_leavesOr registerAddressField id).bind fun registerAddress => ?_
  refine (numericParameter_leavesOr quantityOfRegistersField id).bind fun quantity => ?_
  refine (numericParameter_leavesOr actionIntervalField id).bind fun interval => ?_
  refine (variableParameter_leavesOr _ id _).bind fun data => ?_
  refine (variableParameter_leavesOr _ id _).bind fun status => ?_
  refine (variableParameter_leavesOr _ id _).bind fun reset => ?_
  rw [withProcessData_eq]
  exact .inr rfl

/-- The body of the loop does not end the parse where all numbers are in range and all lookups
return. -/
theorem parseAction_stays (hnumbers : NumbersInRange platform actions)
    (hlookups : LookupsReturn platform device) (id : List Char) :
    Stays (parseAction platform device actions (some id)) := by
  have hnumeric := fun field (hfield : field ∈ numericFields) =>
    numericParameter_stays hnumbers hfield id
  simp only [numericFields, List.forall_mem_cons] at hnumeric
  obtain ⟨hid, haddress, hcode, hregister, hquantity, hinterval, -⟩ := hnumeric
  have hvariable := variableParameter_stays hlookups actions
  unfold parseAction
  refine hid.bind fun actionID => haddress.bind fun slaveAddress =>
    hcode.bind fun functionCode => ?_
  refine hregister.bind fun registerAddress => hquantity.bind fun quantity => ?_
  refine hinterval.bind fun interval => (hvariable _ id _).bind fun data => ?_
  refine (hvariable _ id _).bind fun status => (hvariable _ id _).bind fun reset => ?_
  exact stays_orNext (some _)

/-! ### The loop over the keys -/

/-- The identifier of a key is the leftmost match of `_([^_]+)_`. -/
theorem regexec_eq_some_iff {key id : List Char} :
    regexec key = some id ↔
      ∃ front, CString.DelimitedAt '_' key front id ∧
        ∀ front' id', CString.DelimitedAt '_' key front' id' → front.length ≤ front'.length :=
  CString.delimited_eq_some_iff

/-- The action of one key, on its own. -/
def keyAction (platform : Platform) (device : Json) (actions : ActionData)
    (entry : List Char × Json) : Except (Exit Failure) TModbusAction :=
  if modbusMasterActionIdKey <+: entry.1 then
    parseAction platform device actions (regexec entry.1)
  else
    .error .next

/-- Without an identifier there is no action. -/
theorem parseAction_none (platform : Platform) (device : Json) (actions : ActionData) :
    parseAction platform device actions none = .error .next := rfl

/-- An identifier that is left over is that of an action that has been skipped, and would be skipped
again; the counter counts the list. -/
structure ActionLoop.Valid (platform : Platform) (device : Json) (actions : ActionData)
    (s : ActionLoop) : Prop where
  skipped : parseAction platform device actions s.actionParametersIdentifier = .error .next
  count : s.i32ActionCount = s.actionListHead.length

theorem actionLoop_cons {s : ActionLoop} (hs : s.Valid platform device actions)
    (key : List Char) (value : Json) (entries : ActionData) :
    (∃ action, keyAction platform device actions (key, value) = .ok action ∧
      ∃ s', s'.Valid platform device actions ∧ s'.actionListHead = action :: s.actionListHead ∧
        actionLoop platform device actions ((key, value) :: entries) s =
          actionLoop platform device actions entries s') ∨
    (keyAction platform device actions (key, value) = .error .next ∧
      ∃ s', s'.Valid platform device actions ∧ s'.actionListHead = s.actionListHead ∧
        actionLoop platform device actions ((key, value) :: entries) s =
          actionLoop platform device actions entries s') ∨
    (∃ failure, keyAction platform device actions (key, value) = .error (.leave failure) ∧
      actionLoop platform device actions ((key, value) :: entries) s = .error failure) := by
  unfold keyAction
  rw [actionLoop]
  dsimp only
  split_ifs with hkey
  · cases hid : regexec key with
    | none =>
      -- the identifier of an earlier, skipped action is used again
      refine .inr (.inl ⟨parseAction_none .., s, hs, rfl, ?_⟩)
      dsimp only
      rw [hs.skipped]
    | some id =>
      dsimp only
      rcases haction : parseAction platform device actions (some id) with (_ | failure) | action
      · exact .inr (.inl ⟨rfl, { s with actionParametersIdentifier := some id },
          ⟨haction, hs.count⟩, rfl, rfl⟩)
      · exact .inr (.inr ⟨failure, rfl, rfl⟩)
      · refine .inl ⟨action, rfl, _, ⟨parseAction_none .., ?_⟩, rfl, rfl⟩
        simp only [hs.count, List.length_cons, Nat.cast_succ]
  · exact .inr (.inl ⟨rfl, s, hs, rfl, rfl⟩)

/-- **The loop collects the actions of the keys one by one**, whatever identifier it starts with. -/
theorem actionLoop_eq {s : ActionLoop} (hs : s.Valid platform device actions)
    (entries : ActionData) :
    (actionLoop platform device actions entries s).map
        (fun s => (s.i32ActionCount, s.actionListHead)) =
      match collect (keyAction platform device actions) entries s.actionListHead with
      | (list, none) => .ok ((list.length : ℤ), list)
      | (_, some failure) => .error failure := by
  induction entries generalizing s with
  | nil =>
    show Except.ok (s.i32ActionCount, s.actionListHead) = _
    rw [hs.count]
    rfl
  | cons entry entries ih =>
    obtain ⟨key, value⟩ := entry
    obtain ⟨action, hkey, s', hs', hlist, hloop⟩ | ⟨hkey, s', hs', hlist, hloop⟩ |
      ⟨failure, hkey, hloop⟩ := actionLoop_cons hs key value entries
    · rw [hloop, ih hs', hlist, collect, hkey]
    · rw [hloop, ih hs', hlist, collect, hkey]
    · rw [hloop, collect, hkey]
      rfl

/-- The list of actions of a device with `extend.data`. -/
theorem parseModbusMasterActionList_eq (hdata : extendData device = some (.object actions)) :
    parseModbusMasterActionList platform device =
      match collect (keyAction platform device actions) actions [] with
      | (list, none) => .ok ((list.length : ℤ), list)
      | (_, some failure) => .error failure := by
  obtain ⟨configExtend, hextend, hobject⟩ := Option.bind_eq_some_iff.mp hdata
  have hnull : ¬ device.isNull := by
    cases device <;> first | exact Bool.false_ne_true | cases hextend
  have hloop := actionLoop_eq
    (s := { actionParametersIdentifier := none, actionListHead := [], i32ActionCount := 0 })
    ⟨parseAction_none platform device actions, rfl⟩ actions
  rw [← hloop]
  unfold parseModbusMasterActionList
  have hassert : orFault (cAssert ¬ device.isNull) = .ok () := by
    rw [cAssert_of hnull]
    rfl
  have hactions := orFault_objectForeach_eq_ok.mpr (rfl : Json.object actions = .object actions)
  rw [hassert, orError_requireSection_eq_ok.mpr hextend, ok_bind, ok_bind,
    orError_requireSection_eq_ok.mpr hobject, ok_bind, hactions, ok_bind]
  cases actionLoop platform device actions actions _ <;> rfl

/-- A list is only returned for a device whose `extend.data` is an object. -/
theorem extendData_of_ok {result : ℤ × List TModbusAction}
    (h : parseModbusMasterActionList platform device = .ok result) :
    ∃ actions, extendData device = some (.object actions) := by
  obtain ⟨-, -, h⟩ := bind_eq_ok.mp h
  obtain ⟨configExtend, hextend, h⟩ := bind_eq_ok.mp h
  obtain ⟨modbusActions, hdata, h⟩ := bind_eq_ok.mp h
  obtain ⟨actions, hactions, -⟩ := bind_eq_ok.mp h
  rw [orError_requireSection_eq_ok] at hextend hdata
  rw [orFault_objectForeach_eq_ok] at hactions
  subst hactions
  exact ⟨actions, Option.bind_eq_some_iff.mpr ⟨configExtend, hextend, hdata⟩⟩

/-- **Every list that the parser returns** is made of the actions of the keys, none of which ends
the parse. -/
theorem parseModbusMasterActionList_eq_ok {count : ℤ} {list : List TModbusAction} :
    parseModbusMasterActionList platform device = .ok (count, list) ↔
      ∃ actions, extendData device = some (.object actions) ∧
        (∀ key ∈ actions, exit (keyAction platform device actions) key = none) ∧
        list = (actions.filterMap (entry (keyAction platform device actions))).reverse ∧
        count = list.length := by
  constructor
  · intro h
    obtain ⟨actions, hdata⟩ := extendData_of_ok h
    rw [parseModbusMasterActionList_eq hdata] at h
    obtain hstays | ⟨front, key, rest, failure, hactions, hfront, hkey⟩ :=
      stays_or_leaves (keyAction platform device actions) actions
    · rw [collect_of_stays hstays] at h
      cases h
      exact ⟨actions, hdata, hstays, rfl, rfl⟩
    · have hleave := collect_of_leaves hfront hkey rest
      rw [← hactions] at hleave
      rw [hleave] at h
      cases h
  · rintro ⟨actions, hdata, hstays, rfl, rfl⟩
    rw [parseModbusMasterActionList_eq hdata, collect_of_stays hstays]

/-- The list of all actions that `extend.data` describes, the last one first: `parameter` says what
the text of a parameter is for an identifier. -/
def describedActions (platform : Platform) (device : Json) (actions : ActionData)
    (parameter : List Char → List Char → Option (List Char)) : List TModbusAction :=
  ((actions.filter fun entry => modbusMasterActionIdKey <+: entry.1).filterMap fun entry =>
    (regexec entry.1).bind fun id => buildAction platform device (parameter id)).reverse

/-- What a key describes. -/
theorem keyAction_leavesOr (key : List Char × Json) :
    LeavesOr (keyAction platform device actions key)
      (if modbusMasterActionIdKey <+: key.1 then
        (regexec key.1).bind fun id => buildAction platform device (firstEntry platform actions id)
      else none) := by
  unfold keyAction
  split_ifs
  · cases regexec key.1 with
    | none => exact .inr rfl
    | some id => exact parseAction_leavesOr platform device actions id
  · exact .inr rfl

/-- The keys describe the list as long as none of them ends the parse. -/
theorem filterMap_keyAction_eq
    (hstays : ∀ key ∈ actions, exit (keyAction platform device actions) key = none) :
    (actions.filterMap (entry (keyAction platform device actions))).reverse =
      describedActions platform device actions (firstEntry platform actions) := by
  unfold describedActions
  rw [List.filterMap_filter, List.reverse_inj]
  refine List.filterMap_congr fun key hkey => ?_
  rw [entry_of_leavesOr (keyAction_leavesOr key) (hstays key hkey)]
  simp only [decide_eq_true_eq]

/-- **Every list that the parser returns** is the described one. -/
theorem describedActions_of_ok {count : ℤ} {list : List TModbusAction}
    (h : parseModbusMasterActionList platform device = .ok (count, list)) :
    ∃ actions, extendData device = some (.object actions) ∧
      list = describedActions platform device actions (firstEntry platform actions) ∧
      count = list.length := by
  obtain ⟨actions, hdata, hstays, rfl, rfl⟩ := parseModbusMasterActionList_eq_ok.mp h
  exact ⟨actions, hdata, filterMap_keyAction_eq hstays, rfl⟩

/-- **The list of actions** is what `extend.data` describes, and its length is returned. -/
theorem actionList_eq_describedActions (platform : Platform) (device : Json) (actions : ActionData)
    (hdata : extendData device = some (.object actions))
    (hnumbers : NumbersInRange platform actions)
    (hlookups : LookupsReturn platform device) :
    parseModbusMasterActionList platform device =
      .ok (((describedActions platform device actions (firstEntry platform actions)).length : ℤ),
        describedActions platform device actions (firstEntry platform actions)) := by
  have hstays : ∀ key ∈ actions, exit (keyAction platform device actions) key = none := by
    intro key _
    rw [exit_eq_none_iff]
    unfold keyAction
    split_ifs
    · cases regexec key.1 with
      | none => exact stays_orNext none
      | some id => exact parseAction_stays hnumbers hlookups id
    · exact stays_orNext none
  rw [parseModbusMasterActionList_eq_ok]
  exact ⟨actions, hdata, hstays, (filterMap_keyAction_eq hstays).symm, rfl⟩

/-! ### Examples -/

/-- json-c on the values of the examples, with 64-bit `unsigned long` and unsigned `char`. -/
def examplePlatform : Platform where
  jsonTokenerParse _ := .null
  jsonObjectToJsonString
    | .int n => (toString n).toList
    | _ => []
  jsonObjectGetInt
    | .int n => (n, false)
    | _ => (0, false)
  ulongBits := 64
  charMax := 255
  le_ulongBits := by decide

/-- The array of a variable `v`. -/
def exampleVariable : Json :=
  .array [.string ['v'], .string ['0'], .string ['8'], .string ['4'], .boolean true,
    .string "0000".toList, .string [], .string ['0']]

/-- A device with the given inputs and actions. -/
def exampleDevice (input : Json) (actions : ActionData) : Json :=
  .object [
    ("offset".toList, .int 11),
    ("inp".toList, input),
    ("out".toList, .object []),
    ("extend".toList, .object [("data".toList, .object actions)])]

/-- The parameters of one action, which has its slave address in two entries. -/
def exampleActions (slaveAddress slaveAddress' : Json) (functionCode quantity : List Char) :
    ActionData :=
  [("ActionId_1_".toList, .string ['1']),
    ("SlaveAddress_1_a".toList, slaveAddress),
    ("SlaveAddress_1_b".toList, slaveAddress'),
    ("FunctionCode_1_".toList, .string functionCode),
    ("RegisterAddress_1_".toList, .string ['1']),
    ("QuantityOfRegisters_1_".toList, .string quantity),
    ("ActionInterval_1_".toList, .string "500".toList),
    ("DeviceValue_1_".toList, .string ['v']),
    ("ModbusActionStatus_1_".toList, .string ['v']),
    ("ActionStatusReset_1_".toList, .string ['v'])]

theorem exampleDevice_lookupsReturn (actions : ActionData) :
    LookupsReturn examplePlatform
      (exampleDevice (.object [(['0'], exampleVariable)]) actions) := by
  apply lookupsReturn_of_wellFormed
  intro key hkey inOutSection hget
  rw [List.mem_pair] at hkey
  obtain rfl | rfl := hkey <;> cases hget <;> rfl

/-- The parameters of two actions; those of the second one stand between and behind the others. -/
def interleavedActions : ActionData :=
  [("SlaveAddress_2_".toList, .string ['6']),
    ("ActionId_2_".toList, .string ['2'])] ++
  exampleActions (.string ['5']) .null ['3'] ['2'] ++
  [("FunctionCode_2_".toList, .string ['4']),
    ("RegisterAddress_2_".toList, .string ['7']),
    ("QuantityOfRegisters_2_".toList, .string ['8']),
    ("ActionInterval_2_".toList, .string "250".toList),
    ("DeviceValue_2_".toList, .string ['v']),
    ("ModbusActionStatus_2_".toList, .string ['v']),
    ("ActionStatusReset_2_".toList, .string ['v'])]

/-- A device with two actions that have all their parameters: each gets its own. -/
theorem actionList_eq_describedActions_interleaved :
    let device := exampleDevice (.object [(['0'], exampleVariable)]) interleavedActions
    let described := describedActions examplePlatform device interleavedActions
      (firstEntry examplePlatform interleavedActions)
    parseModbusMasterActionList examplePlatform device = .ok ((described.length : ℤ), described) ∧
      described = [⟨1, 5, .readHoldingRegisters, 1, 2, 500000, 15, 0, 15, 15, 0⟩,
        ⟨2, 6, .readInputRegisters, 7, 8, 250000, 15, 0, 15, 15, 0⟩] :=
  ⟨actionList_eq_describedActions _ _ _ rfl (by decide +kernel) (exampleDevice_lookupsReturn _),
    by decide +kernel⟩

/-- The text of the first entry that has one, of those whose keys start with `key ++ identifier`. -/
def firstText (platform : Platform) (actions : ActionData) (identifier key : List Char) :
    Option (List Char) :=
  actions.findSome? fun entry =>
    if key ++ identifier <+: entry.1 then platform.getString entry.2 else none

/-- An entry that is null hides a later one with a text: the action is skipped. Inputs that are not
an object stop the process. -/
theorem actionList_ne_firstText :
    (let actions := exampleActions .null (.string ['5']) ['3'] ['2']
      let device := exampleDevice (.object [(['0'], exampleVariable)]) actions
      extendData device = some (.object actions) ∧ NumbersInRange examplePlatform actions ∧
        LookupsReturn examplePlatform device ∧
        (describedActions examplePlatform device actions
          (firstText examplePlatform actions)).length = 1 ∧
        parseModbusMasterActionList examplePlatform device = .ok (0, [])) ∧
    (let actions := exampleActions (.string ['5']) .null ['3'] ['2']
      let device := exampleDevice (.array []) actions
      extendData device = some (.object actions) ∧ NumbersInRange examplePlatform actions ∧
        parseModbusMasterActionList examplePlatform device = .error (.fault .nullPointer)) := by
  refine ⟨⟨rfl, ?_, exampleDevice_lookupsReturn _, ?_, ?_⟩, rfl, ?_, ?_⟩ <;> decide +kernel

end RevPiModbus
