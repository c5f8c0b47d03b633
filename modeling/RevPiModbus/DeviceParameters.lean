import RevPiModbus.PiConfigDevices
import RevPiModbus.ActionList

/-!
# The parameters of a connection

`parse_device_modbus_configuration` reads up to six strings of a device. A number goes through
`strtoumax`, which takes any string for a number, and is cut to 32 bits before its range is
checked.

* `Configured value`: the parameters are there, valid, and stored, where `value` says what a text
  stands for;
* `readValue`: what a text stands for in the code; `CString.decimal`: what it denotes;
* `parseDeviceModbusConfiguration_eq_ok`: the function accepts what is `Configured readValue`;
* `AcceptedExactly`, `acceptedExactly_iff`: when that is what the texts denote.
-/

namespace RevPiModbus

variable {value value' : List Char → Option ℕ} {platform : Platform} {productType : List Char}
  {parameters : Json} {key : List Char}

/-! ## The parameters -/

/-- The parameter is an array with this string at position 1. -/
def StringAt (parameters : Json) (key text : List Char) : Prop :=
  ∃ items, parameters.objectGetEx key = some (.array items) ∧ items[1]? = some (.string text)

/-- The parameter is there, and stands for a number between `low` and `high`. -/
def NumberAt (value : List Char → Option ℕ) (parameters : Json) (key : List Char)
    (low high n : ℕ) : Prop :=
  ∃ text, StringAt parameters key text ∧ value text = some n ∧ low ≤ n ∧ n ≤ high

/-- The parameters of a TCP master. -/
def TcpMasterConfigured (value : List Char → Option ℕ) (parameters : Json) (c : TTcpConfig) :
    Prop :=
  StringAt parameters "0".toList c.szTcpIpAddress ∧ c.szTcpIpAddress.length < inetAddrstrlen ∧
  NumberAt value parameters "1".toList 0 65535 c.i32uPort.toNat ∧ c.maxModbusConnections = 0

/-- The parameters of a TCP slave. -/
def TcpSlaveConfigured (value : List Char → Option ℕ) (parameters : Json) (c : TTcpConfig) :
    Prop :=
  c.szTcpIpAddress = "0.0.0.0".toList ∧
  NumberAt value parameters "0".toList 0 65535 c.i32uPort.toNat ∧
  NumberAt value parameters "1".toList 0 65535 c.maxModbusConnections.toNat

/-- The parities as they are written, and as libmodbus takes them. -/
def parities : List (List Char × Char) :=
  [("0".toList, 'N'), ("1".toList, 'E'), ("2".toList, 'O')]

/-- The parameters of an RTU device; only a slave has an address. -/
def RtuConfigured (value : List Char → Option ℕ) (platform : Platform) (productType : List Char)
    (parameters : Json) (c : TRtuConfig) : Prop :=
  StringAt parameters "0".toList c.sz8DeviceFilePath ∧ c.sz8DeviceFilePath.length < pathMax ∧
  NumberAt value parameters "1".toList 0 (2 ^ 32 - 1) c.i32uBaud.toNat ∧
  (∃ text, StringAt parameters "2".toList text ∧ (text, c.cParity) ∈ parities) ∧
  NumberAt value parameters "3".toList 5 8 c.i8uDatabits.toNat ∧
  NumberAt value parameters "4".toList 1 2 c.i8uStopbits.toNat ∧
  if productType = modbusSlaveRtuPiProductType then
    NumberAt value parameters "5".toList 0 platform.charMax c.u8DeviceModbusAddress.toNat
  else
    c.u8DeviceModbusAddress = 0

/-- Every parameter that the product type requires is there and valid, and `uProt` holds what the
parameters stand for. -/
def Configured (value : List Char → Option ℕ) (platform : Platform) (productType : List Char)
    (parameters : Json) : UProt → Prop
  | .tTcpConfig c =>
    (productType = modbusMasterTcpPiProductType ∧ TcpMasterConfigured value parameters c) ∨
      (productType = modbusSlaveTcpPiProductType ∧ TcpSlaveConfigured value parameters c)
  | .tRtuConfig c =>
    (productType = modbusSlaveRtuPiProductType ∨ productType = modbusMasterRtuPiProductType) ∧
      RtuConfigured value platform productType parameters c

/-- The keys of the parameters that are numbers. -/
def numericKeys (productType : List Char) : List (List Char) :=
  if productType = modbusMasterTcpPiProductType then ["1".toList]
  else if productType = modbusSlaveTcpPiProductType then ["0".toList, "1".toList]
  else if productType = modbusSlaveRtuPiProductType then
    ["1".toList, "3".toList, "4".toList, "5".toList]
  else ["1".toList, "3".toList, "4".toList]

/-- The number that the code takes a text for: without `ERANGE`, the low 32 bits of the
conversion. -/
def readValue (text : List Char) : Option ℕ :=
  if (strtoumax text).2 then none else some ((strtoumax text).1 % 2 ^ 32)

/-- The text is a decimal number of 32 bits. -/
def PlainNumber (text : List Char) : Prop := ∃ n, CString.decimal text = some n ∧ n < 2 ^ 32

/-- `parse_device_modbus_configuration` accepts exactly the devices whose parameters denote valid
values, and stores these. -/
def AcceptedExactly (platform : Platform) (device : Json) (productType : List Char) : Prop :=
  ∀ config, parseDeviceModbusConfiguration platform device = .ok config ↔
    Configured CString.decimal platform productType
      ((device.objectGetEx "mem".toList).getD .null) config.uProt ∧
    config.i32uDeviceStatusByteProcessImageOffset = 0 ∧
    config.i32uDeviceStatusResetByteProcessImageByteOffset = 0

/-! ## The code -/

theorem getDeviceStringParameter_eq_some {text : List Char} :
    getDeviceStringParameter parameters key = some text ↔ StringAt parameters key text := by
  unfold getDeviceStringParameter StringAt
  cases hentry : parameters.objectGetEx key with
  | none => simp
  | some entry =>
    cases entry with
    | array items =>
      simp only [Option.bind_eq_bind, Option.bind_some, Json.getArray, arrayListGetIdx,
        modbusSlaveParameterArrayPosition, Option.some.injEq, Json.array.injEq, exists_eq_left',
        List.getD_eq_getElem?_getD]
      cases hitem : items[1]? with
      | none => simp
      | some item => cases item <;> simp
    | _ => simp [Json.getArray]

theorem stringParameter_eq_ok {notFound : ParsingError} {text : List Char} :
    stringParameter parameters key notFound = .ok text ↔ StringAt parameters key text := by
  rw [← getDeviceStringParameter_eq_some]
  unfold stringParameter
  cases getDeviceStringParameter parameters key <;> simp

/-- A number is accepted if its range check passes on the low 32 bits of the conversion. -/
theorem numberParameter_eq_ok {notFound wrongFormat : ParsingError} {valid : UInt32 → Prop}
    [DecidablePred valid] {low high : ℕ}
    (hvalid : ∀ n, valid n ↔ low ≤ n.toNat ∧ n.toNat ≤ high) {n : UInt32} :
    numberParameter parameters key notFound wrongFormat valid = .ok n ↔
      NumberAt readValue parameters key low high n.toNat := by
  have hread : ∀ text, readValue text = some n.toNat ↔
      (strtoumax text).2 = false ∧ UInt32.ofNat (strtoumax text).1 = n := by
    intro text
    unfold readValue
    rw [← UInt32.toNat_inj, UInt32.toNat_ofNat']
    split_ifs with hrange <;> simp [hrange]
  unfold numberParameter NumberAt
  constructor
  · intro h
    obtain ⟨text, htext, h⟩ := bind_eq_ok.1 h
    simp only at h
    split_ifs at h with hbad
    cases h
    push Not at hbad
    refine ⟨text, stringParameter_eq_ok.1 htext, (hread text).2 ⟨by simpa using hbad.1, rfl⟩, ?_⟩
    exact (hvalid _).1 hbad.2
  · rintro ⟨text, htext, hvalue, hrange⟩
    obtain ⟨hflag, rfl⟩ := (hread text).1 hvalue
    rw [stringParameter_eq_ok.2 htext, ok_bind]
    simp only [hflag, Bool.false_eq_true, (hvalid _).2 hrange, not_true, or_self, if_false,
      except_pure]

theorem rtuParity_eq_ok {c : Char} :
    rtuParity parameters = .ok c ↔
      ∃ text, StringAt parameters "2".toList text ∧ (text, c) ∈ parities := by
  unfold rtuParity
  constructor
  · intro h
    obtain ⟨text, htext, h⟩ := bind_eq_ok.1 h
    refine ⟨text, stringParameter_eq_ok.1 htext, ?_⟩
    split_ifs at h with hlong
    rcases text with _ | ⟨x, _ | ⟨y, text⟩⟩
    · cases h
    · simp only [List.head?_cons] at h
      split at h <;> cases h <;> simp_all [parities]
    · simp at hlong
  · rintro ⟨text, htext, hmem⟩
    rw [stringParameter_eq_ok.2 htext, ok_bind]
    simp only [parities, List.mem_cons, List.not_mem_nil, or_false, Prod.mk.injEq] at hmem
    rcases hmem with ⟨rfl, rfl⟩ | ⟨rfl, rfl⟩ | ⟨rfl, rfl⟩ <;> rfl

/-- A number that is stored in a byte. -/
theorem numberParameter_toUInt8 {notFound wrongFormat : ParsingError} {valid : UInt32 → Prop}
    [DecidablePred valid] {low high : ℕ}
    (hvalid : ∀ n, valid n ↔ low ≤ n.toNat ∧ n.toNat ≤ high) (hhigh : high ≤ 255) {n : UInt8} :
    (∃ x, numberParameter parameters key notFound wrongFormat valid = .ok x ∧ x.toUInt8 = n) ↔
      NumberAt readValue parameters key low high n.toNat := by
  constructor
  · rintro ⟨x, hx, rfl⟩
    have hnumber := (numberParameter_eq_ok hvalid).1 hx
    obtain ⟨-, -, -, -, hle⟩ := id hnumber
    rwa [UInt32.toNat_toUInt8, Nat.mod_eq_of_lt (by omega)]
  · intro h
    refine ⟨n.toUInt32, (numberParameter_eq_ok hvalid).2 ?_, by simp⟩
    rwa [UInt8.toNat_toUInt32]

theorem tcpPort_eq_ok {port : UInt32} :
    tcpPort parameters key = .ok port ↔ NumberAt readValue parameters key 0 65535 port.toNat :=
  numberParameter_eq_ok fun n => by simp [UInt32.le_iff_toNat_le]

theorem tcpMasterConfig_eq_ok {c : TTcpConfig} :
    tcpMasterConfig parameters = .ok c ↔ TcpMasterConfigured readValue parameters c := by
  unfold tcpMasterConfig TcpMasterConfigured
  constructor
  · intro h
    obtain ⟨address, haddress, h⟩ := bind_eq_ok.1 h
    split_ifs at h with hlong
    obtain ⟨port, hport, h⟩ := bind_eq_ok.1 h
    cases h
    exact ⟨stringParameter_eq_ok.1 haddress, lt_of_not_ge hlong, tcpPort_eq_ok.1 hport, rfl⟩
  · rintro ⟨haddress, hlength, hport, hconnections⟩
    rw [stringParameter_eq_ok.2 haddress, ok_bind, if_neg (by omega), tcpPort_eq_ok.2 hport,
      ok_bind, ← hconnections]
    rfl

theorem tcpSlaveConfig_eq_ok {c : TTcpConfig} :
    tcpSlaveConfig parameters = .ok c ↔ TcpSlaveConfigured readValue parameters c := by
  have hvalid : ∀ n : UInt32, n ≤ 0xFFFF ↔ 0 ≤ n.toNat ∧ n.toNat ≤ 65535 := fun n => by
    simp [UInt32.le_iff_toNat_le]
  unfold tcpSlaveConfig TcpSlaveConfigured
  constructor
  · intro h
    obtain ⟨port, hport, h⟩ := bind_eq_ok.1 h
    obtain ⟨connections, hconnections, h⟩ := bind_eq_ok.1 h
    cases h
    exact ⟨rfl, tcpPort_eq_ok.1 hport, (numberParameter_eq_ok hvalid).1 hconnections⟩
  · rintro ⟨haddress, hport, hconnections⟩
    rw [tcpPort_eq_ok.2 hport, ok_bind, (numberParameter_eq_ok hvalid).2 hconnections, ok_bind,
      ← haddress]
    rfl

/-- The address of an RTU device, as it is stored in a byte. -/
theorem rtuModbusAddress_toUInt8 (hchar : platform.charMax ≤ 255)
    (htype : productType = modbusSlaveRtuPiProductType ∨
      productType = modbusMasterRtuPiProductType) {n : UInt8} :
    (∃ x, rtuModbusAddress platform productType parameters = .ok x ∧ x.toUInt8 = n) ↔
      if productType = modbusSlaveRtuPiProductType then
        NumberAt readValue parameters "5".toList 0 platform.charMax n.toNat
      else n = 0 := by
  unfold rtuModbusAddress
  rcases htype with rfl | rfl
  · rw [if_pos (List.prefix_refl _), if_pos rfl]
    exact numberParameter_toUInt8 (fun n => by simp) hchar
  · rw [if_neg (by decide), if_neg (by decide)]
    simp [eq_comm]

theorem rtuConfig_eq_ok (hchar : platform.charMax ≤ 255)
    (htype : productType = modbusSlaveRtuPiProductType ∨
      productType = modbusMasterRtuPiProductType) {c : TRtuConfig} :
    rtuConfig platform productType parameters = .ok c ↔
      RtuConfigured readValue platform productType parameters c := by
  have hbaud : ∀ n : UInt32, True ↔ 0 ≤ n.toNat ∧ n.toNat ≤ 2 ^ 32 - 1 := fun n =>
    iff_of_true trivial ⟨Nat.zero_le _, Nat.le_pred_of_lt n.toNat_lt⟩
  have hdatabits : ∀ n : UInt32, (5 ≤ n ∧ n ≤ 8) ↔ 5 ≤ n.toNat ∧ n.toNat ≤ 8 := fun n => by
    simp [UInt32.le_iff_toNat_le]
  have hstopbits : ∀ n : UInt32, (1 ≤ n ∧ n ≤ 2) ↔ 1 ≤ n.toNat ∧ n.toNat ≤ 2 := fun n => by
    simp [UInt32.le_iff_toNat_le]
  unfold rtuConfig RtuConfigured
  constructor
  · intro h
    obtain ⟨path, hpath, h⟩ := bind_eq_ok.1 h
    split_ifs at h with hlong
    obtain ⟨baudrate, hbaudrate, h⟩ := bind_eq_ok.1 h
    obtain ⟨parity, hparity, h⟩ := bind_eq_ok.1 h
    obtain ⟨databits, hdata, h⟩ := bind_eq_ok.1 h
    obtain ⟨stopbits, hstop, h⟩ := bind_eq_ok.1 h
    obtain ⟨address, haddress, h⟩ := bind_eq_ok.1 h
    cases h
    exact ⟨stringParameter_eq_ok.1 hpath, lt_of_not_ge hlong,
      (numberParameter_eq_ok hbaud).1 hbaudrate,
      rtuParity_eq_ok.1 hparity,
      (numberParameter_toUInt8 hdatabits (by norm_num)).1 ⟨databits, hdata, rfl⟩,
      (numberParameter_toUInt8 hstopbits (by norm_num)).1 ⟨stopbits, hstop, rfl⟩,
      (rtuModbusAddress_toUInt8 hchar htype).1 ⟨address, haddress, rfl⟩⟩
  · rintro ⟨hpath, hlength, hbaudrate, hparity, hdata, hstop, haddress⟩
    obtain ⟨databits, hdata, hdatabyte⟩ :=
      (numberParameter_toUInt8 hdatabits (by norm_num)).2 hdata
    obtain ⟨stopbits, hstop, hstopbyte⟩ :=
      (numberParameter_toUInt8 hstopbits (by norm_num)).2 hstop
    obtain ⟨address, haddress, haddressbyte⟩ := (rtuModbusAddress_toUInt8 hchar htype).2 haddress
    rw [stringParameter_eq_ok.2 hpath, ok_bind, if_neg (by omega),
      (numberParameter_eq_ok hbaud).2 hbaudrate, ok_bind, rtuParity_eq_ok.2 hparity, ok_bind,
      hdata, ok_bind, hstop, ok_bind, haddress, ok_bind, hdatabyte, hstopbyte, haddressbyte]
    rfl

theorem map_eq_ok {α β ε : Type} {f : α → β} {x : Except ε α} {b : β} :
    f <$> x = .ok b ↔ ∃ a, x = .ok a ∧ f a = b := by
  cases x <;> simp [Functor.map, Except.map]

/-- The product type is exactly one of those for Modbus. -/
def IsModbusProductType (productType : List Char) : Prop :=
  productType = modbusMasterTcpPiProductType ∨ productType = modbusSlaveTcpPiProductType ∨
    productType = modbusSlaveRtuPiProductType ∨ productType = modbusMasterRtuPiProductType

theorem uProtConfig_eq_ok (hchar : platform.charMax ≤ 255)
    (htype : IsModbusProductType productType) {uProt : UProt} :
    uProtConfig platform productType parameters = .ok uProt ↔
      Configured readValue platform productType parameters uProt := by
  have hne : modbusMasterTcpPiProductType ≠ modbusSlaveTcpPiProductType ∧
      modbusMasterTcpPiProductType ≠ modbusSlaveRtuPiProductType ∧
      modbusMasterTcpPiProductType ≠ modbusMasterRtuPiProductType ∧
      modbusSlaveTcpPiProductType ≠ modbusSlaveRtuPiProductType ∧
      modbusSlaveTcpPiProductType ≠ modbusMasterRtuPiProductType := by decide
  obtain ⟨h1, h2, h3, h4, h5⟩ := hne
  unfold uProtConfig
  rcases htype with rfl | rfl | htype
  · rw [if_pos (List.prefix_refl _), map_eq_ok]
    cases uProt <;> simp [Configured, tcpMasterConfig_eq_ok, h1, h2, h3]
  · rw [if_neg (by decide), if_pos (List.prefix_refl _), map_eq_ok]
    cases uProt <;> simp [Configured, tcpSlaveConfig_eq_ok, h1.symm, h4, h5]
  · have hrtu : productType <+: modbusSlaveRtuPiProductType ∨
        productType <+: modbusMasterRtuPiProductType := by
      rcases htype with rfl | rfl
      · exact Or.inl (List.prefix_refl _)
      · exact Or.inr (List.prefix_refl _)
    have hmaster : ¬ productType <+: modbusMasterTcpPiProductType := by
      rcases htype with rfl | rfl <;> decide
    have hslave : ¬ productType <+: modbusSlaveTcpPiProductType := by
      rcases htype with rfl | rfl <;> decide
    rw [if_neg hmaster, if_neg hslave, if_pos hrtu, map_eq_ok]
    cases uProt with
    | tTcpConfig c =>
      rcases htype with rfl | rfl <;>
        simp [Configured, h2.symm, h3.symm, h4.symm, h5.symm]
    | tRtuConfig c => simp [Configured, rtuConfig_eq_ok hchar htype, htype]

/-- Without parameters nothing is configured. -/
theorem not_configured_null (uProt : UProt) :
    ¬ Configured value platform productType .null uProt := by
  have hnone : ∀ key text, ¬ StringAt .null key text := by
    rintro key text ⟨items, h, -⟩
    cases h
  cases uProt with
  | tTcpConfig c =>
    rintro (⟨-, h, -⟩ | ⟨-, -, ⟨text, h, -⟩, -⟩)
    · exact hnone _ _ h
    · exact hnone _ _ h
  | tRtuConfig c => exact fun h => hnone _ _ h.2.1

/-- **What `parse_device_modbus_configuration` accepts**: the devices whose parameters are there
and valid as the code reads them. -/
theorem parseDeviceModbusConfiguration_eq_ok {device : Json} (hchar : platform.charMax ≤ 255)
    (hdevice : device.objectGetEx "productType".toList = some (.string productType))
    (htype : IsModbusProductType productType) {config : TModbusDeviceConfiguration} :
    parseDeviceModbusConfiguration platform device = .ok config ↔
      Configured readValue platform productType
        ((device.objectGetEx "mem".toList).getD .null) config.uProt ∧
      config.i32uDeviceStatusByteProcessImageOffset = 0 ∧
      config.i32uDeviceStatusResetByteProcessImageByteOffset = 0 := by
  unfold parseDeviceModbusConfiguration requireSection
  rw [hdevice]
  cases device.objectGetEx "mem".toList with
  | none =>
    refine iff_of_false (fun h => ?_) fun h => not_configured_null _ h.1
    cases h
  | some parameters =>
    simp only [ok_bind, Option.getD_some, ← uProtConfig_eq_ok hchar htype]
    constructor
    · intro h
      obtain ⟨uProt, huProt, h⟩ := bind_eq_ok.1 h
      cases h
      exact ⟨huProt, rfl, rfl⟩
    · obtain ⟨uProt, status, reset⟩ := config
      rintro ⟨huProt, rfl, rfl⟩
      rw [huProt, ok_bind]
      rfl

/-! ## What the texts denote -/

theorem StringAt.unique {text text' : List Char} (h : StringAt parameters key text)
    (h' : StringAt parameters key text') : text = text' := by
  rw [← getDeviceStringParameter_eq_some] at h h'
  exact Option.some.inj (h.symm.trans h')

/-- Another reading of the text that agrees on the numbers of 32 bits. -/
theorem NumberAt.imp {low high n : ℕ} (hhigh : high < 2 ^ 32)
    (h : ∀ text n, StringAt parameters key text → n < 2 ^ 32 → value text = some n →
      value' text = some n) (hnumber : NumberAt value parameters key low high n) :
    NumberAt value' parameters key low high n := by
  obtain ⟨text, htext, hvalue, hlow, hle⟩ := hnumber
  exact ⟨text, htext, h text n htext (by omega) hvalue, hlow, hle⟩

theorem Configured.imp (hchar : platform.charMax ≤ 255) {uProt : UProt}
    (h : ∀ key ∈ numericKeys productType, ∀ text n, StringAt parameters key text → n < 2 ^ 32 →
      value text = some n → value' text = some n)
    (hconfigured : Configured value platform productType parameters uProt) :
    Configured value' platform productType parameters uProt := by
  cases uProt with
  | tTcpConfig c =>
    rcases hconfigured with ⟨rfl, haddress, hlength, hport, hconnections⟩ |
      ⟨rfl, haddress, hport, hconnections⟩
    · exact Or.inl ⟨rfl, haddress, hlength, hport.imp (by norm_num) (h _ (by decide)),
        hconnections⟩
    · exact Or.inr ⟨rfl, haddress, hport.imp (by norm_num) (h _ (by decide)),
        hconnections.imp (by norm_num) (h _ (by decide))⟩
  | tRtuConfig c =>
    obtain ⟨htype, hpath, hlength, hbaud, hparity, hdata, hstop, haddress⟩ := hconfigured
    have hkeys : "1".toList ∈ numericKeys productType ∧ "3".toList ∈ numericKeys productType ∧
        "4".toList ∈ numericKeys productType := by
      rcases htype with rfl | rfl <;> decide
    refine ⟨htype, hpath, hlength, hbaud.imp (by norm_num) (h _ hkeys.1), hparity,
      hdata.imp (by norm_num) (h _ hkeys.2.1), hstop.imp (by norm_num) (h _ hkeys.2.2), ?_⟩
    split_ifs at haddress ⊢ with hslave
    · exact haddress.imp (by omega) (h _ (by rw [hslave]; decide))
    · exact haddress

/-- Each numeric parameter of a configured device has a value of 32 bits. -/
theorem Configured.numeric (hchar : platform.charMax ≤ 255) {uProt : UProt}
    (hconfigured : Configured value platform productType parameters uProt) :
    ∀ key ∈ numericKeys productType, ∃ text n, StringAt parameters key text ∧
      value text = some n ∧ n < 2 ^ 32 := by
  have hnumber : ∀ {key low high n}, NumberAt value parameters key low high n → high < 2 ^ 32 →
      ∃ text n, StringAt parameters key text ∧ value text = some n ∧ n < 2 ^ 32 := by
    rintro key low high n ⟨text, htext, hvalue, -, hle⟩ hhigh
    exact ⟨text, n, htext, hvalue, by omega⟩
  intro key hkey
  cases uProt with
  | tTcpConfig c =>
    rcases hconfigured with ⟨rfl, -, -, hport, -⟩ | ⟨rfl, -, hport, hconnections⟩
    · obtain rfl : key = "1".toList := by simpa [numericKeys] using hkey
      exact hnumber hport (by norm_num)
    · have hkey' : key = "0".toList ∨ key = "1".toList := by
        rw [show numericKeys modbusSlaveTcpPiProductType = ["0".toList, "1".toList] by decide]
          at hkey
        simpa using hkey
      rcases hkey' with rfl | rfl
      · exact hnumber hport (by norm_num)
      · exact hnumber hconnections (by norm_num)
  | tRtuConfig c =>
    obtain ⟨htype, -, -, hbaud, -, hdata, hstop, haddress⟩ := hconfigured
    have hkey' : key = "1".toList ∨ key = "3".toList ∨ key = "4".toList ∨
        key = "5".toList ∧ productType = modbusSlaveRtuPiProductType := by
      rcases htype with rfl | rfl
      · rw [show numericKeys modbusSlaveRtuPiProductType =
          ["1".toList, "3".toList, "4".toList, "5".toList] by decide] at hkey
        simpa using hkey
      · rw [show numericKeys modbusMasterRtuPiProductType =
          ["1".toList, "3".toList, "4".toList] by decide] at hkey
        have hkey : key = "1".toList ∨ key = "3".toList ∨ key = "4".toList := by simpa using hkey
        tauto
    rcases hkey' with rfl | rfl | rfl | ⟨rfl, rfl⟩
    · exact hnumber hbaud (by norm_num)
    · exact hnumber hdata (by norm_num)
    · exact hnumber hstop (by norm_num)
    · rw [if_pos rfl] at haddress
      exact hnumber haddress (by omega)

/-- A plain number is read as what it denotes. -/
theorem readValue_of_decimal {text : List Char} {n : ℕ} (h : CString.decimal text = some n)
    (hn : n < 2 ^ 32) : readValue text = some n := by
  have hconversion := CString.strtounsigned_of_decimal h 64
  rw [if_pos (by omega)] at hconversion
  unfold readValue strtoumax
  rw [hconversion]
  simp only [Bool.false_eq_true, if_false, Option.some.injEq]
  exact Nat.mod_eq_of_lt hn

/-- **When the parameters are accepted exactly as they are valid.** Unless every parameter passes
its check as the code reads it, the device is rejected; if they do, each numeric text has to be a
plain decimal number of 32 bits. -/
theorem acceptedExactly_iff {device : Json} (hchar : platform.charMax ≤ 255)
    (hdevice : device.objectGetEx "productType".toList = some (.string productType))
    (htype : IsModbusProductType productType) :
    AcceptedExactly platform device productType ↔
      ((∃ uProt, Configured readValue platform productType
          ((device.objectGetEx "mem".toList).getD .null) uProt) →
        ∀ key ∈ numericKeys productType, ∀ text,
          StringAt ((device.objectGetEx "mem".toList).getD .null) key text → PlainNumber text) := by
  unfold AcceptedExactly
  simp only [parseDeviceModbusConfiguration_eq_ok hchar hdevice htype]
  generalize (device.objectGetEx "mem".toList).getD .null = parameters
  constructor
  · rintro h ⟨uProt, huProt⟩ key hkey text htext
    have hdenoted := ((h ⟨uProt, 0, 0⟩).1 ⟨huProt, rfl, rfl⟩).1
    obtain ⟨text', n, htext', hvalue, hn⟩ := hdenoted.numeric hchar key hkey
    exact htext.unique htext' ▸ ⟨n, hvalue, hn⟩
  · intro h config
    refine and_congr_left fun _ => ⟨fun hread => ?_, fun hdenoted => ?_⟩
    · refine hread.imp hchar fun key hkey text n htext _ hvalue => ?_
      obtain ⟨m, hm, hlt⟩ := h ⟨_, hread⟩ key hkey text htext
      rw [readValue_of_decimal hm hlt] at hvalue
      rwa [← Option.some.inj hvalue]
    · exact hdenoted.imp hchar fun key _ text n _ hn hvalue => readValue_of_decimal hvalue hn

/-- A TCP master with the given text as port. -/
def tcpMasterDevice (port : List Char) : Json :=
  .object [("productType".toList, .string modbusMasterTcpPiProductType),
    ("mem".toList, .object [
      ("0".toList, .array [.string "ip address".toList, .string "192.168.0.2".toList]),
      ("1".toList, .array [.string "tcp port".toList, .string port])])]

/-- The port 502 passes its check and is a plain number, and the master is accepted as it is. -/
theorem acceptedExactly_iff_tcpMaster :
    let device := tcpMasterDevice "502".toList
    let parameters := (device.objectGetEx "mem".toList).getD .null
    (∃ uProt, Configured readValue examplePlatform modbusMasterTcpPiProductType parameters uProt) ∧
    (∀ key ∈ numericKeys modbusMasterTcpPiProductType, ∀ text,
      StringAt parameters key text → PlainNumber text) ∧
    AcceptedExactly examplePlatform device modbusMasterTcpPiProductType := by
  intro device parameters
  have hport : StringAt parameters "1".toList "502".toList := ⟨_, rfl, rfl⟩
  have hplain : ∀ key ∈ numericKeys modbusMasterTcpPiProductType, ∀ text,
      StringAt parameters key text → PlainNumber text := by
    intro key hkey text htext
    obtain rfl : key = "1".toList := List.mem_singleton.mp hkey
    rw [htext.unique hport]
    exact ⟨502, by decide +kernel, by norm_num⟩
  refine ⟨⟨.tTcpConfig ⟨"192.168.0.2".toList, 502, 0⟩,
      Or.inl ⟨rfl, ⟨_, rfl, rfl⟩, by decide, ?_, rfl⟩⟩,
    hplain, (acceptedExactly_iff (by decide) rfl (Or.inl rfl)).mpr fun _ => hplain⟩
  exact ⟨_, hport, by decide +kernel, by decide, by decide⟩

/-- The port 2³² is taken for the port 0. -/
theorem not_acceptedExactly_tcpMaster :
    ¬ AcceptedExactly examplePlatform (tcpMasterDevice "4294967296".toList)
      modbusMasterTcpPiProductType := by
  intro h
  have haccepted : parseDeviceModbusConfiguration examplePlatform
      (tcpMasterDevice "4294967296".toList) =
        .ok ⟨.tTcpConfig ⟨"192.168.0.2".toList, 0, 0⟩, 0, 0⟩ := by rfl
  rcases ((h _).1 haccepted).1 with ⟨-, -, -, ⟨text, htext, hvalue, -⟩, -⟩ | ⟨htype, -⟩
  · have hport : StringAt (((tcpMasterDevice "4294967296".toList).objectGetEx
        "mem".toList).getD .null) "1".toList "4294967296".toList := ⟨_, rfl, rfl⟩
    rw [htext.unique hport] at hvalue
    exact absurd hvalue (by decide +kernel)
  · exact absurd htype (by decide)

end RevPiModbus
