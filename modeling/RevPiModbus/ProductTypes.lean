import RevPiModbus.DeviceList

/-!
# The selection of devices by their product type

Three functions look at the product type of a device: the two loops over the devices, and
`parse_device_modbus_configuration`. Each compares it with the four product types up to the length
of the string of the device, so that a prefix of a product type counts as that product type.

* `TakenByMaster`, `TakenBySlave`, `TakesTcpMaster`, `TakesTcpSlave`, `TakesRtu`: what the functions
  do with a product type;
* `SelectedExactly`: the selection is exact and disjoint, and each daemon reads its devices in its
  own role;
* `selectedExactly_iff`: the product types for which that is so.
-/

namespace RevPiModbus

open Collect

variable {platform : Platform} {device : Json} {productType : List Char}

/-- The product types of the devices for Modbus. -/
def modbusProductTypes : List (List Char) :=
  [modbusMasterTcpPiProductType, modbusSlaveTcpPiProductType, modbusSlaveRtuPiProductType,
    modbusMasterRtuPiProductType]

/-- `parse_modbus_master_config_data` does not pass over every device of this product type. -/
def TakenByMaster (productType : List Char) : Prop :=
  ∃ platform device, Json.objectGetEx device "productType".toList = some (.string productType) ∧
    parseModbusMasterDevice platform device ≠ .error .next

/-- `parse_modbus_slaves_config_data` does not pass over every device of this product type. -/
def TakenBySlave (productType : List Char) : Prop :=
  ∃ platform device, Json.objectGetEx device "productType".toList = some (.string productType) ∧
    parseModbusSlaveDevice platform device ≠ .error .next

/-- The connection is read by the branch for TCP masters. -/
def TakesTcpMaster (productType : List Char) : Prop :=
  ∀ platform parameters, uProtConfig platform productType parameters =
    UProt.tTcpConfig <$> tcpMasterConfig parameters

/-- The connection is read by the branch for TCP slaves. -/
def TakesTcpSlave (productType : List Char) : Prop :=
  ∀ platform parameters, uProtConfig platform productType parameters =
    UProt.tTcpConfig <$> tcpSlaveConfig parameters

/-- The connection is read by the branch for RTU. -/
def TakesRtu (productType : List Char) : Prop :=
  ∀ platform parameters, uProtConfig platform productType parameters =
    UProt.tRtuConfig <$> rtuConfig platform productType parameters

/-- The branch for RTU reads the address of a slave. -/
def ReadsModbusAddress (productType : List Char) : Prop :=
  ∀ platform parameters, rtuModbusAddress platform productType parameters =
    numberParameter parameters "5".toList .rtuModbusAddressNotFound .rtuModbusAddressSize
      fun address => address.toNat ≤ platform.charMax

/-- The branch for RTU sets no address. -/
def SetsNoModbusAddress (productType : List Char) : Prop :=
  ∀ platform parameters, rtuModbusAddress platform productType parameters = .ok 0

/-- The devices of a product type are taken only if it is exactly that of the daemon or branch, by
no more than one daemon, and in the role of that daemon. -/
structure SelectedExactly (productType : List Char) : Prop where
  master : TakenByMaster productType →
    productType = modbusMasterTcpPiProductType ∨ productType = modbusMasterRtuPiProductType
  slave : TakenBySlave productType →
    productType = modbusSlaveTcpPiProductType ∨ productType = modbusSlaveRtuPiProductType
  tcpMaster : TakesTcpMaster productType → productType = modbusMasterTcpPiProductType
  tcpSlave : TakesTcpSlave productType → productType = modbusSlaveTcpPiProductType
  rtu : TakesRtu productType →
    productType = modbusSlaveRtuPiProductType ∨ productType = modbusMasterRtuPiProductType
  disjoint : ¬ (TakenByMaster productType ∧ TakenBySlave productType)
  masterRole : TakenByMaster productType → TakesTcpMaster productType ∨
    TakesRtu productType ∧ SetsNoModbusAddress productType
  slaveRole : TakenBySlave productType → TakesTcpSlave productType ∨
    TakesRtu productType ∧ ReadsModbusAddress productType

/-! ### What the functions do with a product type -/

theorem getDeviceProductType_of
    (h : device.objectGetEx "productType".toList = some (.string productType)) :
    getDeviceProductType device = .ok productType := by
  unfold getDeviceProductType
  rw [h]

/-- The loop over the masters passes over a device that it does not select. -/
theorem TakenByMaster.isPrefix (h : TakenByMaster productType) :
    productType <+: modbusMasterTcpPiProductType ∨
      productType <+: modbusMasterRtuPiProductType := by
  obtain ⟨platform, device, hdevice, hnext⟩ := h
  by_contra hinitial
  apply hnext
  unfold parseModbusMasterDevice
  rw [getDeviceProductType_of hdevice]
  simp only [orLeave, orError, Except.mapError, ok_bind, hinitial, if_false]

/-- The loop over the slaves passes over a device that it does not select. -/
theorem TakenBySlave.isPrefix (h : TakenBySlave productType) :
    productType <+: modbusSlaveTcpPiProductType ∨ productType <+: modbusSlaveRtuPiProductType := by
  obtain ⟨platform, device, hdevice, hnext⟩ := h
  by_contra hinitial
  apply hnext
  unfold parseModbusSlaveDevice
  rw [getDeviceProductType_of hdevice]
  simp only [orLeave, orError, Except.mapError, ok_bind, hinitial, if_false]

theorem takesTcpMaster_of (h : productType <+: modbusMasterTcpPiProductType) :
    TakesTcpMaster productType := fun _ _ => if_pos h

theorem takesTcpSlave_of (hmaster : ¬ productType <+: modbusMasterTcpPiProductType)
    (h : productType <+: modbusSlaveTcpPiProductType) : TakesTcpSlave productType := by
  intro platform parameters
  unfold uProtConfig
  rw [if_neg hmaster, if_pos h]

theorem takesRtu_of (hmaster : ¬ productType <+: modbusMasterTcpPiProductType)
    (hslave : ¬ productType <+: modbusSlaveTcpPiProductType)
    (h : productType <+: modbusSlaveRtuPiProductType ∨
      productType <+: modbusMasterRtuPiProductType) : TakesRtu productType := by
  intro platform parameters
  unfold uProtConfig
  rw [if_neg hmaster, if_neg hslave, if_pos h]

/-- The error of a device without any parameters tells the branch. -/
theorem uProtConfig_empty (platform : Platform) (productType : List Char) :
    uProtConfig platform productType (.object []) = .error (
      if productType <+: modbusMasterTcpPiProductType then .tcpAddressNotFound
      else if productType <+: modbusSlaveTcpPiProductType then .tcpPortNotFound
      else if productType <+: modbusSlaveRtuPiProductType ∨
        productType <+: modbusMasterRtuPiProductType then .rtuDevicePathNotFound
      else .unknownModbusDevice) := by
  unfold uProtConfig
  split_ifs <;> rfl

theorem TakesTcpMaster.isPrefix (h : TakesTcpMaster productType) :
    productType <+: modbusMasterTcpPiProductType := by
  by_contra hinitial
  have hempty := (uProtConfig_empty examplePlatform productType).symm.trans (h _ _)
  rw [if_neg hinitial] at hempty
  split_ifs at hempty <;> cases hempty

theorem TakesTcpSlave.isPrefix (h : TakesTcpSlave productType) :
    productType <+: modbusSlaveTcpPiProductType := by
  by_contra hinitial
  have hempty := (uProtConfig_empty examplePlatform productType).symm.trans (h _ _)
  rw [if_neg hinitial] at hempty
  split_ifs at hempty <;> cases hempty

theorem TakesRtu.isPrefix (h : TakesRtu productType) :
    productType <+: modbusSlaveRtuPiProductType ∨ productType <+: modbusMasterRtuPiProductType := by
  by_contra hinitial
  have hempty := (uProtConfig_empty examplePlatform productType).symm.trans (h _ _)
  rw [if_neg hinitial] at hempty
  split_ifs at hempty <;> cases hempty

/-! ### The exact product types -/

/-- No product type is a prefix of another. -/
theorem eq_of_isPrefix_modbusProductTypes :
    ∀ s ∈ modbusProductTypes, ∀ t ∈ modbusProductTypes, s <+: t → s = t := by
  decide

/-- A prefix of a product type is taken for that product type by one of the branches. -/
theorem SelectedExactly.eq_of_isPrefix (h : SelectedExactly productType) {t : List Char}
    (ht : t ∈ modbusProductTypes) (hinitial : productType <+: t) : productType = t := by
  -- the cases are those of the branches, in their order
  have hmem : productType ∈ modbusProductTypes := by
    by_cases hmaster : productType <+: modbusMasterTcpPiProductType
    · rw [h.tcpMaster (takesTcpMaster_of hmaster)]
      decide
    by_cases hslave : productType <+: modbusSlaveTcpPiProductType
    · rw [h.tcpSlave (takesTcpSlave_of hmaster hslave)]
      decide
    have hrtu : productType <+: modbusSlaveRtuPiProductType ∨
        productType <+: modbusMasterRtuPiProductType := by
      simp only [modbusProductTypes, List.mem_cons, List.not_mem_nil, or_false] at ht
      obtain rfl | rfl | rfl | rfl := ht
      · exact absurd hinitial hmaster
      · exact absurd hinitial hslave
      · exact .inl hinitial
      · exact .inr hinitial
    obtain rfl | rfl := h.rtu (takesRtu_of hmaster hslave hrtu) <;> decide
  exact eq_of_isPrefix_modbusProductTypes _ hmem _ ht hinitial

/-- Where prefixes of product types are product types, the comparisons are exact. -/
theorem selectedExactly_of
    (hexact : ∀ t ∈ modbusProductTypes, productType <+: t → productType = t) :
    SelectedExactly productType := by
  have htcpMaster := hexact modbusMasterTcpPiProductType (by decide)
  have htcpSlave := hexact modbusSlaveTcpPiProductType (by decide)
  have hrtuSlave := hexact modbusSlaveRtuPiProductType (by decide)
  have hrtuMaster := hexact modbusMasterRtuPiProductType (by decide)
  refine ⟨fun h => h.isPrefix.imp htcpMaster hrtuMaster,
    fun h => h.isPrefix.imp htcpSlave hrtuSlave, fun h => htcpMaster h.isPrefix,
    fun h => htcpSlave h.isPrefix, fun h => h.isPrefix.imp hrtuSlave hrtuMaster, ?_, fun h => ?_,
    fun h => ?_⟩
  · rintro ⟨hmaster, hslave⟩
    obtain rfl | rfl := hmaster.isPrefix.imp htcpMaster hrtuMaster <;>
      exact absurd hslave.isPrefix (by decide)
  · obtain rfl | rfl := h.isPrefix.imp htcpMaster hrtuMaster
    · exact .inl (takesTcpMaster_of (by decide))
    · refine .inr ⟨takesRtu_of (by decide) (by decide) (by decide), fun _ _ => ?_⟩
      unfold rtuModbusAddress
      exact if_neg (by decide)
  · -- the role of an RTU device is the address that is read for it
    obtain rfl | rfl := h.isPrefix.imp htcpSlave hrtuSlave
    · exact .inl (takesTcpSlave_of (by decide) (by decide))
    · refine .inr ⟨takesRtu_of (by decide) (by decide) (by decide), fun _ _ => ?_⟩
      unfold rtuModbusAddress
      exact if_pos (by decide)

/-- **The selection of devices.** It is exact and disjoint, and agrees with the branch by which the
connection is read, for exactly the product types that are no proper prefix of one of the four
product types for Modbus. -/
theorem selectedExactly_iff (productType : List Char) :
    SelectedExactly productType ↔
      ∀ t ∈ modbusProductTypes, productType <+: t → productType = t :=
  ⟨fun h _ ht hinitial => h.eq_of_isPrefix ht hinitial, selectedExactly_of⟩

/-- A device whose product type has lost its last digit. -/
def shortenedDevice : Json :=
  .object [
    ("productType".toList, .string "2457".toList),
    ("mem".toList, .object [
      (['0'], .array [.string "ip".toList, .string "10.0.0.2".toList]),
      (['1'], .array [.string "port".toList, .string "502".toList])]),
    ("offset".toList, .int 0),
    ("inp".toList, .object [
      (['0'], .array [.string ['v'], .string ['0'], .string "16".toList, .string ['2']])]),
    ("out".toList, .object [
      (['0'], .array [.string ['w'], .string ['0'], .string "16".toList, .string ['4']])]),
    ("extend".toList, .object [
      ("data".toList, .object []), ("deviceMisc".toList, .object [])])]

/-- The device is in the list of the masters and, as a TCP master, in that of the slaves. -/
theorem not_selectedExactly_shortened :
    ¬ SelectedExactly "2457".toList ∧ (masterEntry examplePlatform shortenedDevice).isSome ∧
      (slaveEntry examplePlatform shortenedDevice).map
        (fun config => config.tModbusDeviceConfig.uProt) = some (.tTcpConfig
          { szTcpIpAddress := "10.0.0.2".toList, i32uPort := 502, maxModbusConnections := 0 }) := by
  refine ⟨fun h => ?_, by decide +kernel, by decide +kernel⟩
  exact absurd (h.eq_of_isPrefix (t := modbusMasterTcpPiProductType) (by decide) (by decide))
    (by decide)

end RevPiModbus
