import RevPiModbus.PiConfigDevices
import RevPiModbus.ActionList

/-!
# Devices that affect other devices

The loops of `parse_modbus_master_config_data` and `parse_modbus_slaves_config_data` skip most of
the devices that they cannot use. A few they answer by returning, and on some the process stops.

* `masterEntry`, `slaveEntry`: the entry of a device on its own;
* `endsSlaveParse`, `endsMasterParse`: the devices at which a loop returns;
* `Crashes`: the devices at which the process stops other than by an assertion; no slave does;
* `parseDevices_eq_iff`: when a list has the entries of all devices;
* `configLists_eq_iff`: the two lists.
-/

namespace RevPiModbus

open Collect

variable {platform : Platform} {device : Json}

/-- The entry of a device in the list of masters. -/
def masterEntry (platform : Platform) : Json → Option TModbusMasterConfiguration :=
  entry (parseModbusMasterDevice platform)

/-- The entry of a device in the list of slaves. -/
def slaveEntry (platform : Platform) : Json → Option TModbusSlaveConfiguration :=
  entry (parseModbusSlaveDevice platform)

/-- The device has no product type, or one that is no string. -/
def lacksProductType (device : Json) : Bool :=
  match device.objectGetEx "productType".toList with
  | some (.string _) => false
  | _ => true

/-- The devices at which `parse_modbus_slaves_config_data` returns. -/
def endsSlaveParse (device : Json) : Bool := lacksProductType device

/-- The product type is that of a master, or a prefix of one. -/
def isMasterDevice (device : Json) : Bool :=
  match device.objectGetEx "productType".toList with
  | some (.string productType) =>
    productType <+: modbusMasterTcpPiProductType ∨ productType <+: modbusMasterRtuPiProductType
  | _ => false

/-- There is no `extend.deviceMisc`. -/
def lacksDeviceMisc (device : Json) : Bool :=
  ((device.objectGetEx "extend".toList).bind fun configExtend =>
    configExtend.objectGetEx "deviceMisc".toList).isNone

/-- The devices at which `parse_modbus_master_config_data` returns: those without product type, and
masters whose connection and actions are fine but which have no `extend.deviceMisc`. -/
def endsMasterParse (platform : Platform) (device : Json) : Bool :=
  lacksProductType device ||
    (isMasterDevice device && (parseDeviceModbusConfiguration platform device).isOk &&
      (parseModbusMasterActionList platform device).isOk && lacksDeviceMisc device)

/-- The process stops at this device, not by an assertion. -/
def Crashes {β : Type} (parseDevice : Json → Except (Exit Failure) β) (device : Json) : Prop :=
  ∃ fault, fault ≠ .assertFailed ∧ exit parseDevice device = some (.fault fault)

/-! ### The loop -/

section Loop

variable {β : Type} {parseDevice : Json → Except (Exit Failure) β} {devices : List Json}
  {ends : Json → Bool}

/-- **A list of devices is complete** exactly when no device that stops the process is reached, and
no device that ends the loop stands before one with an entry. -/
theorem parseDevices_eq_iff
    (hends : ∀ device, ends device = true ↔ ∃ ret, exit parseDevice device = some (.code ret))
    (hassert : parseDevices parseDevice (.ok devices) ≠ .error .assertFailed) :
    (∃ ret, parseDevices parseDevice (.ok devices) =
      .ok (ret, (devices.filterMap (entry parseDevice)).reverse)) ↔
      (∀ device ∈ devices.takeWhile (!ends ·), ¬ Crashes parseDevice device) ∧
      NothingLost (ends · = true) (entry parseDevice) devices := by
  have hstay : ∀ device, exit parseDevice device = none → ¬ ends device = true := by
    intro device hexit hdevice
    obtain ⟨ret, hret⟩ := (hends device).mp hdevice
    rw [hexit] at hret
    cases hret
  obtain h | ⟨front, device, rest, reason, rfl, hfront, hdevice⟩ :=
    stays_or_leaves parseDevice devices
  · have hlist : parseDevices parseDevice (.ok devices) =
        .ok (0, (devices.filterMap (entry parseDevice)).reverse) := by
      rw [parseDevices, collect_of_stays h]
    refine iff_of_true ⟨0, hlist⟩ ⟨?_, nothingLost_of_forall fun x hx => hstay x (h x hx)⟩
    rintro x hx ⟨fault, -, hfault⟩
    rw [h x (List.takeWhile_sublist _ |>.subset hx)] at hfault
    cases hfault
  · have hnot : ∀ x ∈ front, ¬ ends x = true := fun x hx => hstay x (hfront x hx)
    have htake : ∀ x ∈ front, (!ends x) = true := fun x hx => by simpa using hnot x hx
    have hcollect := collect_of_leaves hfront hdevice rest
    cases reason with
    | code ret =>
      -- the loop returns here, so the devices behind must have no entries
      have hdeviceEnds : ends device = true := (hends device).mpr ⟨ret, hdevice⟩
      have hlist : parseDevices parseDevice (.ok (front ++ device :: rest)) =
          .ok (ret, (front.filterMap (entry parseDevice)).reverse) := by
        rw [parseDevices, hcollect]
      have hreached : (front ++ device :: rest).takeWhile (!ends ·) = front := by
        rw [List.takeWhile_append_of_pos htake,
          List.takeWhile_cons_of_neg (by simp [hdeviceEnds]), List.append_nil]
      rw [hlist, hreached, nothingLost_append_iff hnot hdeviceEnds,
        ← filterMap_eq_append_iff (entry_of_exit hdevice) front rest]
      constructor
      · rintro ⟨ret', heq⟩
        refine ⟨?_, (Prod.mk.inj (Except.ok.inj heq)).2⟩
        rintro x hx ⟨fault, -, hfault⟩
        rw [hfront x hx] at hfault
        cases hfault
      · rintro ⟨-, heq⟩
        exact ⟨ret, by rw [heq]⟩
    | fault fault =>
      have hlist : parseDevices parseDevice (.ok (front ++ device :: rest)) = .error fault := by
        rw [parseDevices, hcollect]
      rw [hlist] at hassert
      have hcrash : Crashes parseDevice device := ⟨fault, fun h => hassert (by rw [h]), hdevice⟩
      refine iff_of_false (by simp [hlist]) fun hcond => ?_
      refine hcond.1 device ?_ hcrash
      have hgoesOn : (!ends device) = true := by
        rw [Bool.not_eq_true', ← Bool.not_eq_true, hends, hdevice]
        simp
      rw [List.takeWhile_append_of_pos htake, List.takeWhile_cons, hgoesOn]
      simp

end Loop

/-! ### Where the loops return -/

theorem getDeviceProductType_cases (device : Json) :
    (lacksProductType device = true ∧
      getDeviceProductType device = .error .productTypeSectionEmpty) ∨
    (lacksProductType device = false ∧ ∃ productType,
      device.objectGetEx "productType".toList = some (.string productType) ∧
      getDeviceProductType device = .ok productType) := by
  unfold lacksProductType getDeviceProductType
  cases device.objectGetEx "productType".toList with
  | none => exact .inl ⟨rfl, rfl⟩
  | some json =>
    cases json with
    | string productType => exact .inr ⟨rfl, productType, rfl, rfl⟩
    | _ => exact .inl ⟨rfl, rfl⟩

/-- `continue` is no `return`. -/
theorem orSkip_ne_leave_code {α : Type} {x : Except Failure α} {ret : ℤ} :
    orSkip x ≠ .error (.leave (.code ret)) := by
  rcases x with (_ | _) | a <;> simp [orSkip, Except.mapError]

theorem orError_ne_fault {α : Type} {x : Except ParsingError α} {fault : Fault} :
    orError x ≠ .error (.fault fault) := by
  rcases x with _ | a <;> simp [orError, Except.mapError]

/-- The loop over the slaves returns at the devices of `endsSlaveParse`. -/
theorem endsSlaveParse_iff :
    endsSlaveParse device = true ↔
      ∃ ret, exit (parseModbusSlaveDevice platform) device = some (.code ret) := by
  simp only [exit_eq_some]
  unfold endsSlaveParse parseModbusSlaveDevice
  obtain ⟨hlacks, hproduct⟩ | ⟨hlacks, productType, -, hproduct⟩ :=
    getDeviceProductType_cases device
  · rw [hlacks, hproduct]
    exact iff_of_true rfl ⟨_, rfl⟩
  · rw [hlacks, hproduct]
    refine iff_of_false Bool.false_ne_true ?_
    rintro ⟨ret, h⟩
    simp only [orError, orLeave, Except.mapError, ok_bind] at h
    split_ifs at h
    · rw [bind_eq_error] at h
      obtain h | ⟨config, -, h⟩ := h
      · exact orSkip_ne_leave_code h
      · exact orSkip_ne_leave_code h
    · cases h

/-- A call that only stops the process returns no code. -/
theorem orLeave_orFault_ne_code {α : Type} {x : Except Fault α} {ret : ℤ} :
    orLeave (orFault x) ≠ .error (.leave (.code ret)) := by
  cases x <;> simp [orLeave, orFault, Except.mapError]

/-- The loop over the masters returns at the devices of `endsMasterParse`. -/
theorem endsMasterParse_iff :
    endsMasterParse platform device = true ↔
      ∃ ret, exit (parseModbusMasterDevice platform) device = some (.code ret) := by
  simp only [exit_eq_some]
  unfold endsMasterParse parseModbusMasterDevice
  obtain ⟨hlacks, hproduct⟩ | ⟨hlacks, productType, hget, hproduct⟩ :=
    getDeviceProductType_cases device
  · rw [hlacks, hproduct]
    exact iff_of_true rfl ⟨_, rfl⟩
  have hmaster : isMasterDevice device = decide (productType <+: modbusMasterTcpPiProductType ∨
      productType <+: modbusMasterRtuPiProductType) := by
    unfold isMasterDevice
    rw [hget]
  rw [hlacks, hproduct, hmaster]
  simp only [orError, orLeave, Except.mapError, ok_bind, Bool.false_or]
  split_ifs with htype
  swap
  · simp [htype]
  cases parseDeviceModbusConfiguration platform device with
  | error error => simp [orSkip, Except.mapError, Except.isOk, Except.toBool]
  | ok config =>
    cases hactions : parseModbusMasterActionList platform device with
    | error failure => cases failure <;> simp [orSkip, Except.mapError, Except.isOk, Except.toBool]
    | ok result =>
      obtain ⟨actions, hdata⟩ := extendData_of_ok hactions
      obtain ⟨configExtend, hextend, -⟩ := Option.bind_eq_some_iff.mp hdata
      have hmisc : lacksDeviceMisc device =
          (configExtend.objectGetEx "deviceMisc".toList).isNone := by
        unfold lacksDeviceMisc
        rw [hextend]
        rfl
      rw [hmisc]
      simp only [orSkip, Except.mapError, ok_bind, requireSection, hextend]
      cases configExtend.objectGetEx "deviceMisc".toList with
      | none => exact iff_of_true (by simp [htype, Except.isOk, Except.toBool]) ⟨_, rfl⟩
      | some masterStatus =>
        refine iff_of_false (by simp) ?_
        rintro ⟨ret, h⟩
        simp only [ok_bind, bind_eq_error] at h
        obtain h | ⟨entries, -, h | ⟨config', -, h⟩⟩ := h
        · exact orLeave_orFault_ne_code h
        · exact orLeave_orFault_ne_code h
        · cases h

/-! ### No slave crashes -/

theorem orSkip_eq_leave_fault {α : Type} {x : Except Failure α} {fault : Fault} :
    orSkip x = .error (.leave (.fault fault)) ↔ x = .error (.fault fault) := by
  rcases x with (_ | _) | a <;> simp [orSkip, Except.mapError]

theorem processImageWindow_fault {inOutSection : Json} {fault : Fault}
    (h : processImageWindow inOutSection = .error (.fault fault)) : fault = .assertFailed := by
  unfold processImageWindow at h
  dsimp only at h
  rw [bind_eq_error] at h
  obtain h | ⟨-, -, h⟩ := h
  · unfold orFault cAssert at h
    split_ifs at h
    · cases h
    · cases h
      rfl
  · cases h

/-- A slave uses no null pointer: a device without assertion failure is skipped or has an entry. -/
theorem parseModbusSlaveDevice_not_crashes :
    ¬ Crashes (parseModbusSlaveDevice platform) device := by
  rintro ⟨fault, hfault, h⟩
  rw [exit_eq_some] at h
  unfold parseModbusSlaveDevice at h
  obtain ⟨-, hproduct⟩ | ⟨-, productType, -, hproduct⟩ := getDeviceProductType_cases device
  · rw [hproduct] at h
    cases h
  · rw [hproduct] at h
    simp only [orError, orLeave, Except.mapError, ok_bind] at h
    split_ifs at h
    · rw [bind_eq_error] at h
      obtain h | ⟨config, -, h⟩ := h
      · exact orError_ne_fault (orSkip_eq_leave_fault.mp h)
      · rw [orSkip_eq_leave_fault] at h
        unfold parseModbusSlaveDeviceProcessImageConfig at h
        dsimp only at h
        split_ifs at h
        · cases h
        · simp only [bind_eq_error] at h
          obtain h | ⟨input, -, h | ⟨window, -, h | ⟨output, -, h | ⟨window', -, h⟩⟩⟩⟩ := h
          · exact orError_ne_fault h
          · exact hfault (processImageWindow_fault h)
          · exact orError_ne_fault h
          · exact hfault (processImageWindow_fault h)
          · cases h
    · cases h

/-! ### The two lists -/

/-- **The lists of masters and of slaves.** A list has the entries of all devices, each read on its
own, exactly when no device that ends the loop stands before one with an entry and, for masters, no
device that stops the process is reached. -/
theorem configLists_eq_iff (platform : Platform) (piConfigData : List Char) (devices : List Json)
    (hdevices : getJsonDevicesArray platform piConfigData = .ok devices) :
    (parseModbusMasterConfigData platform piConfigData ≠ .error .assertFailed →
      ((∃ ret, parseModbusMasterConfigData platform piConfigData =
          .ok (ret, (devices.filterMap (masterEntry platform)).reverse)) ↔
        (∀ device ∈ devices.takeWhile (!endsMasterParse platform ·),
          ¬ Crashes (parseModbusMasterDevice platform) device) ∧
        NothingLost (endsMasterParse platform · = true) (masterEntry platform) devices)) ∧
    (parseModbusSlavesConfigData platform piConfigData ≠ .error .assertFailed →
      ((∃ ret, parseModbusSlavesConfigData platform piConfigData =
          .ok (ret, (devices.filterMap (slaveEntry platform)).reverse)) ↔
        NothingLost (endsSlaveParse · = true) (slaveEntry platform) devices)) := by
  unfold parseModbusMasterConfigData parseModbusSlavesConfigData masterEntry slaveEntry
  rw [hdevices]
  constructor
  · exact parseDevices_eq_iff fun _ => endsMasterParse_iff
  · intro hassert
    rw [parseDevices_eq_iff (fun _ => endsSlaveParse_iff) hassert]
    exact and_iff_right fun _ _ => parseModbusSlaveDevice_not_crashes

/-- A TCP slave. -/
def exampleSlave : Json :=
  .object [
    ("productType".toList, .string "24577".toList),
    ("mem".toList, .object [
      (['0'], .array [.string "port".toList, .string "502".toList]),
      (['1'], .array [.string "max".toList, .string "10".toList])]),
    ("offset".toList, .int 0),
    ("inp".toList, .object [
      (['0'], .array [.string ['v'], .string ['0'], .string "16".toList, .string ['2']])]),
    ("out".toList, .object [
      (['0'], .array [.string ['w'], .string ['0'], .string "16".toList, .string ['4']])])]

/-- The text of `exampleSlave`. -/
def exampleSlaveText : List Char :=
  ("\x7b\"productType\":\"24577\",\"mem\":\x7b\"0\":[\"port\",\"502\"]," ++
    "\"1\":[\"max\",\"10\"]\x7d," ++
    "\"offset\":0,\"inp\":\x7b\"0\":[\"v\",\"0\",\"16\",\"2\"]\x7d," ++
    "\"out\":\x7b\"0\":[\"w\",\"0\",\"16\",\"4\"]\x7d\x7d").toList

/-- The text of a configuration with the given devices. -/
def exampleConfigText (devices : List Char) : List Char :=
  "\x7b\"Devices\":[".toList ++ devices ++ "]\x7d".toList

/-- The text with the slave only. -/
def slaveText : List Char := exampleConfigText exampleSlaveText

/-- A slave without parameters, which is skipped. -/
def incompleteSlave : Json :=
  .object [("productType".toList, .string "24577".toList), ("mem".toList, .object [])]

/-- The text with an incomplete slave before the slave, and an empty device behind it. -/
def threeDevicesText : List Char :=
  exampleConfigText ("\x7b\"productType\":\"24577\",\"mem\":\x7b\x7d\x7d,".toList ++
    exampleSlaveText ++
    ",\x7b\x7d".toList)

/-- The text with an empty device before the slave. -/
def emptyAndSlaveText : List Char := exampleConfigText ("\x7b\x7d,".toList ++ exampleSlaveText)

/-- json-c on the three texts. -/
def configPlatform : Platform :=
  { examplePlatform with
    jsonTokenerParse := fun text =>
      if text = slaveText then
        .object [("Devices".toList, .array [exampleSlave])]
      else if text = emptyAndSlaveText then
        .object [("Devices".toList, .array [.object [], exampleSlave])]
      else if text = threeDevicesText then
        .object [("Devices".toList, .array [incompleteSlave, exampleSlave, .object []])]
      else .null }

theorem getJsonDevicesArray_slaveText :
    getJsonDevicesArray configPlatform slaveText = .ok [exampleSlave] := by
  unfold getJsonDevicesArray configPlatform
  simp only [if_true]
  rfl

theorem getJsonDevicesArray_emptyAndSlaveText :
    getJsonDevicesArray configPlatform emptyAndSlaveText = .ok [.object [], exampleSlave] := by
  have hne : emptyAndSlaveText ≠ slaveText := by decide +kernel
  unfold getJsonDevicesArray configPlatform
  simp only [hne, if_false, if_true]
  rfl

theorem getJsonDevicesArray_threeDevicesText :
    getJsonDevicesArray configPlatform threeDevicesText =
      .ok [incompleteSlave, exampleSlave, .object []] := by
  have hne : threeDevicesText ≠ slaveText := by decide +kernel
  have hne' : threeDevicesText ≠ emptyAndSlaveText := by decide +kernel
  unfold getJsonDevicesArray configPlatform
  simp only [hne, hne', if_false, if_true]
  rfl

/-- The incomplete slave is skipped, and the empty device ends both loops behind the slave: no list
loses anything, and the list of slaves has one entry. -/
theorem configLists_eq_threeDevices :
    (∃ ret, parseModbusMasterConfigData configPlatform threeDevicesText =
      .ok (ret, ([incompleteSlave, exampleSlave, .object []].filterMap
        (masterEntry configPlatform)).reverse)) ∧
    (∃ ret, parseModbusSlavesConfigData configPlatform threeDevicesText =
      .ok (ret, ([incompleteSlave, exampleSlave, .object []].filterMap
        (slaveEntry configPlatform)).reverse)) ∧
    (([incompleteSlave, exampleSlave, .object []].filterMap
      (slaveEntry configPlatform)).length = 1) := by
  obtain ⟨hmasters, hslaves⟩ := configLists_eq_iff configPlatform threeDevicesText
    [incompleteSlave, exampleSlave, .object []] getJsonDevicesArray_threeDevicesText
  have hmastersAssert : parseModbusMasterConfigData configPlatform threeDevicesText ≠
      .error .assertFailed := by
    rw [parseModbusMasterConfigData, getJsonDevicesArray_threeDevicesText]
    decide +kernel
  have hslavesAssert : parseModbusSlavesConfigData configPlatform threeDevicesText ≠
      .error .assertFailed := by
    rw [parseModbusSlavesConfigData, getJsonDevicesArray_threeDevicesText]
    decide +kernel
  -- only the last device ends a loop
  have hbehind : ∀ {ends : Json → Prop} {β : Type} {entry : Json → Option β},
      ¬ ends incompleteSlave → ¬ ends exampleSlave →
      NothingLost ends entry [incompleteSlave, exampleSlave, .object []] := by
    intro ends β entry hincomplete hslave
    unfold NothingLost
    simp [hincomplete, hslave]
  refine ⟨(hmasters hmastersAssert).mpr ⟨?_, hbehind (by decide) (by decide)⟩,
    (hslaves hslavesAssert).mpr (hbehind (by decide) (by decide)), by decide +kernel⟩
  rintro device hdevice ⟨fault, -, hfault⟩
  have hmem := (List.takeWhile_sublist _).subset hdevice
  simp only [List.mem_cons, List.not_mem_nil, or_false] at hmem
  obtain rfl | rfl | rfl := hmem <;> cases hfault

/-- With an empty device before it, the slave is lost: its entry does not depend on it alone. -/
theorem configLists_not_independent :
    ¬ ∃ parseDevice : Json → Option TModbusSlaveConfiguration, ∀ piConfigData devices,
      getJsonDevicesArray configPlatform piConfigData = .ok devices →
      parseModbusSlavesConfigData configPlatform piConfigData ≠ .error .assertFailed →
      ∃ ret, parseModbusSlavesConfigData configPlatform piConfigData =
        .ok (ret, (devices.filterMap parseDevice).reverse) := by
  rintro ⟨parseDevice, h⟩
  have hone : (parseModbusSlavesConfigData configPlatform slaveText).map
      (fun result => result.2.length) = .ok 1 := by
    rw [parseModbusSlavesConfigData, getJsonDevicesArray_slaveText]
    decide +kernel
  have hzero : (parseModbusSlavesConfigData configPlatform emptyAndSlaveText).map
      (fun result => result.2.length) = .ok 0 := by
    rw [parseModbusSlavesConfigData, getJsonDevicesArray_emptyAndSlaveText]
    decide +kernel
  obtain ⟨ret, halone⟩ := h slaveText _ getJsonDevicesArray_slaveText
    fun herror => by rw [herror] at hone; cases hone
  obtain ⟨ret', hlost⟩ := h emptyAndSlaveText _ getJsonDevicesArray_emptyAndSlaveText
    fun herror => by rw [herror] at hzero; cases hzero
  rw [halone] at hone
  rw [hlost] at hzero
  have hnil := List.length_eq_zero_iff.mp (Except.ok.inj hzero)
  rw [List.reverse_eq_nil_iff, List.filterMap_eq_nil_iff] at hnil
  have hnone : parseDevice exampleSlave = none := hnil exampleSlave (by simp)
  rw [List.filterMap_cons_none hnone] at hone
  cases hone

end RevPiModbus
