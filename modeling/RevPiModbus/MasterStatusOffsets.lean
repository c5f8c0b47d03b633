import RevPiModbus.DeviceList
import RevPiModbus.VariablePosition

/-!
# Where a master reports its status

The status byte of a master and the byte of its reset bit belong to the variables that entries of
`extend.deviceMisc` name. A lookup that fails is only printed: the offset keeps its value, which is
0 at first, and the master is inserted into the list all the same.

* `statusVariable`, `statusPosition`: the variable that the entries with a key name, and where it
  stands;
* `deviceMiscLoop_eq`: what the loop over `extend.deviceMisc` leaves in the configuration;
* `ReportsAsGiven`: the master reports to the variables that it has been given;
* `mastersReportAsGiven_iff`: when all masters of a list do.
-/

namespace RevPiModbus

open Collect

variable {platform : Platform} {device : Json} {name : List Char}
  {entries : List (List Char × Json)} {offsets offsets' : VariableOffsets}

/-! ### The loop over `extend.deviceMisc` -/

/-- The variable that an entry names, if the key is the one that is looked for and the variable can
be resolved. -/
def namedVariable (platform : Platform) (device : Json) (key : List Char)
    (entry : List Char × Json) : Option (List Char) :=
  if key <+: entry.1 then
    (platform.getString entry.2).filter fun name => (resolveVariable platform device name).isSome
  else none

/-- The variable that the entries with a key name. If there are several, the last one counts. -/
def statusVariable (platform : Platform) (device : Json) (key : List Char)
    (entries : List (List Char × Json)) : Option (List Char) :=
  (entries.filterMap (namedVariable platform device key)).getLast?

/-- Its position. -/
def statusPosition (platform : Platform) (device : Json) (key : List Char)
    (entries : List (List Char × Json)) : Option ℤ :=
  (statusVariable platform device key entries).bind (variableByteOffset platform device)

theorem exists_variableByteOffset {key : List Char}
    (h : statusVariable platform device key entries = some name) :
    ∃ position, variableByteOffset platform device name = some position := by
  have hmem := List.mem_of_getLast? h
  obtain ⟨entry, -, hentry⟩ := List.mem_filterMap.mp hmem
  unfold namedVariable at hentry
  split_ifs at hentry
  obtain ⟨offsets, hresolves⟩ := Option.isSome_iff_exists.mp (Option.filter_eq_some_iff.mp hentry).2
  obtain ⟨byte, -, hbyte, -⟩ := resolveVariable_offsets hresolves
  exact ⟨byte, hbyte⟩

/-- A later entry counts more. -/
theorem statusPosition_cons (key : List Char) (entry : List Char × Json) :
    statusPosition platform device key (entry :: entries) =
      (statusPosition platform device key entries).or
        ((namedVariable platform device key entry).bind (variableByteOffset platform device)) := by
  have hcons : statusVariable platform device key (entry :: entries) =
      (statusVariable platform device key entries).or
        (namedVariable platform device key entry) := by
    unfold statusVariable
    cases hentry : namedVariable platform device key entry with
    | none => rw [List.filterMap_cons_none hentry, Option.or_none]
    | some name =>
      rw [List.filterMap_cons_some hentry, List.getLast?_cons]
      cases (entries.filterMap (namedVariable platform device key)).getLast? <;> rfl
  unfold statusPosition
  rw [hcons]
  cases hstatus : statusVariable platform device key entries with
  | none => rfl
  | some name =>
    obtain ⟨position, hposition⟩ := exists_variableByteOffset hstatus
    simp [hposition]

/-- One entry of the key sets the offset if its variable is found. -/
theorem entry_byteOffset {key k : List Char} {value : Json} {success : ℤ} (hkey : key <+: k)
    (h : getVariableParameters platform device (platform.getString value) offsets =
      .ok (success, offsets')) (before : UInt32) :
    storeOffset ((namedVariable platform device key (k, value)).bind
      (variableByteOffset platform device)) before =
        if success = 0 then offsets'.byteOffset else before := by
  unfold namedVariable
  rw [if_pos hkey]
  cases hname : platform.getString value with
  | none =>
    rw [hname] at h
    rw [if_neg (getVariableParameters_none h)]
    rfl
  | some name =>
    rw [hname] at h
    have hresolve := resolveVariable_of_ok h
    by_cases hsuccess : success = 0
    · subst hsuccess
      obtain ⟨byte, bit, hbyte, -, rfl⟩ := getVariableParameters_offsets h
      have hsome : (resolveVariable platform device name).isSome = true := by
        rw [hresolve]
        rfl
      simp only [Option.filter, hsome, if_true, Option.bind_some, hbyte, storeOffset_some]
    · have hnone : resolveVariable platform device name = none := by
        rw [hresolve, if_neg hsuccess]
      simp only [Option.filter, hnone, Option.isSome_none, Bool.false_eq_true, if_false,
        Option.bind_none, storeOffset_none, hsuccess]

theorem namedVariable_of_not_isPrefix {key k : List Char} {value : Json} (h : ¬ key <+: k) :
    namedVariable platform device key (k, value) = none := if_neg h

/-- No key is one of both kinds. -/
theorem not_isPrefix_status_of_reset {k : List Char} (h : modbusMasterMasterStatusByte <+: k) :
    ¬ modbusMasterMasterStatusResetByte <+: k := by
  intro h'
  have hinitial := List.prefix_or_prefix_of_prefix h h'
  exact absurd hinitial (by decide)

/-- What the loop leaves in the two offsets. -/
theorem deviceMiscLoop_eq {config config' : TModbusDeviceConfiguration}
    (h : deviceMiscLoop platform device entries offsets config = .ok config') :
    config'.i32uDeviceStatusByteProcessImageOffset = storeOffset
      (statusPosition platform device modbusMasterMasterStatusByte entries)
      config.i32uDeviceStatusByteProcessImageOffset ∧
    config'.i32uDeviceStatusResetByteProcessImageByteOffset = storeOffset
      (statusPosition platform device modbusMasterMasterStatusResetByte entries)
      config.i32uDeviceStatusResetByteProcessImageByteOffset := by
  induction entries generalizing offsets config with
  | nil =>
    cases h
    exact ⟨rfl, rfl⟩
  | cons entry entries ih =>
    obtain ⟨key, value⟩ := entry
    rw [statusPosition_cons, statusPosition_cons, storeOffset_or, storeOffset_or]
    unfold deviceMiscLoop at h
    by_cases hstatus : modbusMasterMasterStatusByte <+: key
    · rw [if_pos hstatus] at h
      obtain ⟨⟨success, offsets1⟩, hlookup, h⟩ := bind_eq_ok.mp h
      rw [entry_byteOffset hstatus hlookup,
        namedVariable_of_not_isPrefix (not_isPrefix_status_of_reset hstatus)]
      dsimp only at h
      -- a lookup that fails is printed, and the loop goes on as after one that succeeds
      split_ifs at h ⊢
      · exact ih h
      · exact ih h
    · rw [if_neg hstatus] at h
      rw [namedVariable_of_not_isPrefix hstatus]
      by_cases hreset : modbusMasterMasterStatusResetByte <+: key
      · rw [if_pos hreset] at h
        obtain ⟨⟨success, offsets1⟩, hlookup, h⟩ := bind_eq_ok.mp h
        rw [entry_byteOffset hreset hlookup]
        dsimp only at h
        split_ifs at h ⊢
        · exact ih h
        · exact ih h
      · rw [if_neg hreset] at h
        rw [namedVariable_of_not_isPrefix hreset]
        exact ih h

/-! ### The masters in the list -/

/-- The entries of `extend.deviceMisc`. -/
def deviceMisc (device : Json) : List (List Char × Json) :=
  match (device.objectGetEx "extend".toList).bind (·.objectGetEx "deviceMisc".toList) with
  | some (.object entries) => entries
  | _ => []

/-- The two offsets of a master are those of the variables that its own entries name. -/
structure ReportsAsGiven (platform : Platform) (device : Json)
    (config : TModbusMasterConfiguration) : Prop where
  status : statusPosition platform device modbusMasterMasterStatusByte (deviceMisc device) =
    some (config.tModbusDeviceConfig.i32uDeviceStatusByteProcessImageOffset.toNat : ℤ)
  reset : statusPosition platform device modbusMasterMasterStatusResetByte (deviceMisc device) =
    some (config.tModbusDeviceConfig.i32uDeviceStatusResetByteProcessImageByteOffset.toNat : ℤ)

/-- `extend.deviceMisc` names a variable of the device for the key, and its position fits. -/
def HasStatusOffset (platform : Platform) (device : Json) (key : List Char) : Prop :=
  ∃ position ∈ statusPosition platform device key (deviceMisc device),
    0 ≤ position ∧ position < 2 ^ 32

/-- The devices at which the loop of `parse_modbus_master_config_data` does not end. -/
def reachedDevices (platform : Platform) (piConfigData : List Char) : List Json :=
  match getJsonDevicesArray platform piConfigData with
  | .ok devices =>
    devices.takeWhile fun device => (exit (parseModbusMasterDevice platform) device).isNone
  | .error _ => []

/-- The list of masters has the entries of the devices that are reached. -/
theorem masters_eq {piConfigData : List Char} {ret : ℤ} {list : List TModbusMasterConfiguration}
    (h : parseModbusMasterConfigData platform piConfigData = .ok (ret, list)) :
    list = ((reachedDevices platform piConfigData).filterMap (masterEntry platform)).reverse := by
  unfold parseModbusMasterConfigData at h
  unfold reachedDevices
  cases hdevices : getJsonDevicesArray platform piConfigData with
  | error error =>
    rw [hdevices] at h
    cases h
    rfl
  | ok devices =>
    rw [hdevices] at h
    unfold parseDevices at h
    dsimp only at h ⊢
    obtain hstays | ⟨front, device, rest, reason, rfl, hfront, hdevice⟩ :=
      stays_or_leaves (parseModbusMasterDevice platform) devices
    · have hall : ∀ x ∈ devices, (exit (parseModbusMasterDevice platform) x).isNone = true :=
        fun x hx => by rw [hstays x hx, Option.isNone_none]
      rw [collect_of_stays hstays] at h
      cases h
      rw [List.takeWhile_eq_self_iff.mpr hall]
      rfl
    · have hall : ∀ x ∈ front, (exit (parseModbusMasterDevice platform) x).isNone = true :=
        fun x hx => by rw [hfront x hx, Option.isNone_none]
      rw [collect_of_leaves hfront hdevice] at h
      rw [List.takeWhile_append_of_pos hall, List.takeWhile_cons_of_neg (by simp [hdevice]),
        List.append_nil]
      cases reason with
      | code ret' =>
        cases h
        rfl
      | fault fault => cases h

theorem parseDeviceModbusConfiguration_offsets {config : TModbusDeviceConfiguration}
    (h : parseDeviceModbusConfiguration platform device = .ok config) :
    config.i32uDeviceStatusByteProcessImageOffset = 0 ∧
      config.i32uDeviceStatusResetByteProcessImageByteOffset = 0 := by
  unfold parseDeviceModbusConfiguration at h
  split at h
  · cases h
  · obtain ⟨parameters, -, h⟩ := bind_eq_ok.mp h
    obtain ⟨uProt, -, h⟩ := bind_eq_ok.mp h
    cases h
    exact ⟨rfl, rfl⟩
  · cases h

/-- The offsets of a master are those of its variables, or 0. -/
theorem masterEntry_offsets {config : TModbusMasterConfiguration}
    (h : masterEntry platform device = some config) :
    config.tModbusDeviceConfig.i32uDeviceStatusByteProcessImageOffset = storeOffset
      (statusPosition platform device modbusMasterMasterStatusByte (deviceMisc device)) 0 ∧
    config.tModbusDeviceConfig.i32uDeviceStatusResetByteProcessImageByteOffset = storeOffset
      (statusPosition platform device modbusMasterMasterStatusResetByte (deviceMisc device)) 0 := by
  unfold masterEntry at h
  rw [entry_eq_some] at h
  unfold parseModbusMasterDevice at h
  obtain ⟨productType, -, h⟩ := bind_eq_ok.mp h
  split_ifs at h
  obtain ⟨config0, hconfig, h⟩ := bind_eq_ok.mp h
  obtain ⟨⟨count, actions⟩, -, h⟩ := bind_eq_ok.mp h
  obtain ⟨configExtend, hextend, h⟩ := bind_eq_ok.mp h
  obtain ⟨masterStatus, hstatus, h⟩ := bind_eq_ok.mp h
  obtain ⟨entries, hentries, h⟩ := bind_eq_ok.mp h
  obtain ⟨config1, hloop, h⟩ := bind_eq_ok.mp h
  cases h
  -- the entries that the loop goes through are those of `extend.deviceMisc`
  have hextend := orError_requireSection_eq_ok.mp (mapError_eq_ok.mp hextend)
  have hstatus := orError_requireSection_eq_ok.mp (mapError_eq_ok.mp hstatus)
  obtain rfl := orFault_objectForeach_eq_ok.mp (mapError_eq_ok.mp hentries)
  have hmisc : deviceMisc device = entries := by
    unfold deviceMisc
    rw [hextend, Option.bind_some, hstatus]
  have hloop := mapError_eq_ok.mp (mapError_eq_ok.mp hloop)
  obtain ⟨hzero, hzero'⟩ :=
    parseDeviceModbusConfiguration_offsets (mapError_eq_ok.mp (mapError_eq_ok.mp hconfig))
  have hoffsets := deviceMiscLoop_eq hloop
  rwa [hzero, hzero', ← hmisc] at hoffsets

/-- An offset is right if there is one to be stored and it fits. -/
theorem eq_some_storeOffset_iff (offset : Option ℤ) :
    offset = some ((storeOffset offset 0).toNat : ℤ) ↔
      ∃ position ∈ offset, 0 ≤ position ∧ position < 2 ^ 32 := by
  cases offset with
  | none => simp
  | some position =>
    rw [storeOffset_some, toNat_ofInt, Option.some.injEq]
    constructor
    · intro h
      refine ⟨position, rfl, ?_⟩
      omega
    · rintro ⟨z, hz, hnonneg, hlt⟩
      cases hz
      omega

/-- A master that is in the list reports as given exactly when both positions are there. -/
theorem reportsAsGiven_iff {config : TModbusMasterConfiguration}
    (h : masterEntry platform device = some config) :
    ReportsAsGiven platform device config ↔
      HasStatusOffset platform device modbusMasterMasterStatusByte ∧
        HasStatusOffset platform device modbusMasterMasterStatusResetByte := by
  obtain ⟨hstatus, hreset⟩ := masterEntry_offsets h
  unfold HasStatusOffset
  rw [← eq_some_storeOffset_iff, ← eq_some_storeOffset_iff, ← hstatus, ← hreset]
  exact ⟨fun hgiven => ⟨hgiven.status, hgiven.reset⟩, fun hboth => ⟨hboth.1, hboth.2⟩⟩

/-- **The masters report to the bytes that they have been given** exactly when, for each of the two
keys, every one of them has an entry that names a variable of its own, and the position of that
variable fits 32 bits. Nothing of this is asked before a master is inserted. -/
theorem mastersReportAsGiven_iff (platform : Platform) (piConfigData : List Char) (ret : ℤ)
    (list : List TModbusMasterConfiguration)
    (h : parseModbusMasterConfigData platform piConfigData = .ok (ret, list)) :
    list = ((reachedDevices platform piConfigData).filterMap (masterEntry platform)).reverse ∧
    ((∀ device ∈ reachedDevices platform piConfigData, ∀ config,
        masterEntry platform device = some config → ReportsAsGiven platform device config) ↔
      ∀ device ∈ reachedDevices platform piConfigData, (masterEntry platform device).isSome →
        HasStatusOffset platform device modbusMasterMasterStatusByte ∧
          HasStatusOffset platform device modbusMasterMasterStatusResetByte) := by
  refine ⟨masters_eq h, ?_, ?_⟩
  · intro hall device hdevice hsome
    obtain ⟨config, hconfig⟩ := Option.isSome_iff_exists.mp hsome
    exact (reportsAsGiven_iff hconfig).mp (hall device hdevice config hconfig)
  · intro hall device hdevice config hconfig
    exact (reportsAsGiven_iff hconfig).mpr (hall device hdevice (by rw [hconfig]; rfl))

/-- A TCP master with two variables for its status, and the variable that `extend.deviceMisc` names
for the status byte. -/
def statusMaster (statusName : List Char) : Json :=
  .object [
    ("productType".toList, .string "24579".toList),
    ("mem".toList, .object [
      (['0'], .array [.string "ip".toList, .string "10.0.0.2".toList]),
      (['1'], .array [.string "port".toList, .string "502".toList])]),
    ("offset".toList, .int 11),
    ("inp".toList, .object [
      (['0'], .array [.string ['s'], .string ['0'], .string ['8'], .string ['2'], .boolean true,
        .string "0000".toList, .string [], .string ['0']])]),
    ("out".toList, .object [
      (['0'], .array [.string ['r'], .string ['0'], .string ['8'], .string ['3'], .boolean true,
        .string "0001".toList, .string [], .string ['0']])]),
    ("extend".toList, .object [
      ("data".toList, .object []),
      ("deviceMisc".toList, .object [
        ("ModbusMasterStatus".toList, .string statusName),
        ("MasterStatusReset".toList, .string ['r'])])])]

/-- The text of a configuration with one such master. -/
def statusMasterText (statusName : List Char) : List Char :=
  exampleConfigText (
    "\x7b\"productType\":\"24579\",\"mem\":\x7b\"0\":[\"ip\",\"10.0.0.2\"],".toList ++
    "\"1\":[\"port\",\"502\"]\x7d,\"offset\":11,".toList ++
    "\"inp\":\x7b\"0\":[\"s\",\"0\",\"8\",\"2\",true,\"0000\",\"\",\"0\"]\x7d,".toList ++
    "\"out\":\x7b\"0\":[\"r\",\"0\",\"8\",\"3\",true,\"0001\",\"\",\"0\"]\x7d,".toList ++
    "\"extend\":\x7b\"data\":\x7b\x7d,\"deviceMisc\":\x7b\"ModbusMasterStatus\":\"".toList ++
    statusName ++ "\",\"MasterStatusReset\":\"r\"\x7d\x7d\x7d".toList)

/-- json-c on these texts, for two names. -/
def statusPlatform : Platform :=
  { examplePlatform with
    jsonTokenerParse := fun text =>
      if text = statusMasterText ['s'] then
        .object [("Devices".toList, .array [statusMaster ['s']])]
      else if text = statusMasterText ['t'] then
        .object [("Devices".toList, .array [statusMaster ['t']])]
      else .null }

/-- The entry of the master, if its status variable is found at the given offset. -/
def statusMasterConfig (status : UInt32) : TModbusMasterConfiguration where
  tModbusDeviceConfig :=
    { uProt := .tTcpConfig
        { szTcpIpAddress := "10.0.0.2".toList, i32uPort := 502, maxModbusConnections := 0 }
      i32uDeviceStatusByteProcessImageOffset := status
      i32uDeviceStatusResetByteProcessImageByteOffset := 14 }
  i32ActionCount := 0
  mbActionListHead := []

section StatusMaster

variable {statusName : List Char}

theorem getJsonDevicesArray_statusMaster (hname : statusName = ['s'] ∨ statusName = ['t']) :
    getJsonDevicesArray statusPlatform (statusMasterText statusName) =
      .ok [statusMaster statusName] := by
  have hne : statusMasterText ['t'] ≠ statusMasterText ['s'] := by decide +kernel
  unfold getJsonDevicesArray statusPlatform
  obtain rfl | rfl := hname
  · simp only [if_true]
    rfl
  · simp only [hne, if_false, if_true]
    rfl

theorem reachedDevices_statusMaster (hname : statusName = ['s'] ∨ statusName = ['t']) :
    reachedDevices statusPlatform (statusMasterText statusName) = [statusMaster statusName] := by
  have hstays :
      (exit (parseModbusMasterDevice statusPlatform) (statusMaster statusName)).isNone := by
    obtain rfl | rfl := hname <;> decide +kernel
  unfold reachedDevices
  rw [getJsonDevicesArray_statusMaster hname]
  exact List.takeWhile_cons_of_pos hstays

end StatusMaster

/-- With both names right, the master reports to the bytes 11 + 2 and 11 + 3. -/
theorem mastersReportAsGiven_named :
    [statusMasterConfig 13] = ((reachedDevices statusPlatform (statusMasterText ['s'])).filterMap
        (masterEntry statusPlatform)).reverse ∧
      ∀ device ∈ reachedDevices statusPlatform (statusMasterText ['s']), ∀ config,
        masterEntry statusPlatform device = some config →
        ReportsAsGiven statusPlatform device config := by
  have hmasters : parseModbusMasterConfigData statusPlatform (statusMasterText ['s']) =
      .ok (0, [statusMasterConfig 13]) := by
    rw [parseModbusMasterConfigData, getJsonDevicesArray_statusMaster (.inl rfl)]
    decide +kernel
  obtain ⟨hlist, hiff⟩ := mastersReportAsGiven_iff statusPlatform (statusMasterText ['s']) 0
    [statusMasterConfig 13] hmasters
  refine ⟨hlist, hiff.mpr ?_⟩
  intro device hdevice _
  rw [reachedDevices_statusMaster (.inl rfl), List.mem_singleton] at hdevice
  subst hdevice
  exact ⟨⟨13, by decide +kernel, by norm_num, by norm_num⟩,
    ⟨14, by decide +kernel, by norm_num, by norm_num⟩⟩

/-- With a name that no variable has, the master is in the list and reports to byte 0. -/
theorem not_mastersReportAsGiven_unresolved :
    parseModbusMasterConfigData statusPlatform (statusMasterText ['t']) =
        .ok (0, [statusMasterConfig 0]) ∧
      ¬ ∀ device ∈ reachedDevices statusPlatform (statusMasterText ['t']), ∀ config,
        masterEntry statusPlatform device = some config →
        ReportsAsGiven statusPlatform device config := by
  constructor
  · rw [parseModbusMasterConfigData, getJsonDevicesArray_statusMaster (.inr rfl)]
    decide +kernel
  intro hall
  rw [reachedDevices_statusMaster (.inr rfl)] at hall
  have hgiven := hall _ (List.mem_singleton_self _) (statusMasterConfig 0) (by decide +kernel)
  have hnone : statusPosition statusPlatform (statusMaster ['t']) modbusMasterMasterStatusByte
      (deviceMisc (statusMaster ['t'])) = none := by decide +kernel
  have hstatus := hgiven.status
  rw [hnone] at hstatus
  cases hstatus

end RevPiModbus
