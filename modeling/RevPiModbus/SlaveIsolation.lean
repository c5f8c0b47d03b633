import RevPiModbus.LoopProgress
import RevPiModbus.MasterIsolation
import RevPiModbus.SlaveDataFlow
import RevPiModbus.SlaveProgram

/-!
# Several slaves on one process image

All slaves of the configuration copy their data from and to the same process image, and a call of
one of them may come between any two calls of another. If no slave writes to what another one reads
or writes, the slaves do not notice one another; they may read the same bytes.

* `SlaveWrites`, `SlaveFootprint`: the bits that a slave writes, and those that it reads or writes;
* `ModbusMapping.Sized`: the sizes of the tables, which a request leaves alone;
* `processModbusRequestProgram_within`: a request keeps to the footprint;
* `SlaveSurroundings`, `slavesSystem`: the slaves on one process image, call by call;
* `slaveStep`, `slaves_isolated`: each slave does what it does alone.
-/

namespace RevPiModbus

open ByteImage Interleaving Transition

/-! ## Footprints -/

/-- The bits that a slave writes: its coils and its holding registers. -/
def SlaveWrites (config : TModbusSlaveConfiguration) (k : ℕ) : Prop :=
  (config.tProcessImageConfig.u32CoilsInputOffset.toNat ≤ k / 8 ∧
    k / 8 < config.tProcessImageConfig.u32CoilsInputOffset.toNat +
      config.tModbusDataConfig.u16Coils.toNat / 8) ∨
  (config.tProcessImageConfig.u32HoldingRegistersInputOffset.toNat ≤ k / 8 ∧
    k / 8 < config.tProcessImageConfig.u32HoldingRegistersInputOffset.toNat +
      2 * config.tModbusDataConfig.u16HoldingRegisters.toNat)

/-- The bits that a slave reads: its discrete inputs and its input registers. -/
def SlaveReads (config : TModbusSlaveConfiguration) (k : ℕ) : Prop :=
  (config.tProcessImageConfig.u32DiscreteInputsOffset.toNat ≤ k / 8 ∧
    k / 8 < config.tProcessImageConfig.u32DiscreteInputsOffset.toNat +
      config.tModbusDataConfig.u16DiscreteInputs.toNat / 8) ∨
  (config.tProcessImageConfig.u32InputRegistersOffset.toNat ≤ k / 8 ∧
    k / 8 < config.tProcessImageConfig.u32InputRegistersOffset.toNat +
      2 * config.tModbusDataConfig.u16InputRegisters.toNat)

/-- The bits that belong to a slave. -/
def SlaveFootprint (config : TModbusSlaveConfiguration) (k : ℕ) : Prop :=
  SlaveReads config k ∨ SlaveWrites config k

/-- The calls that a slave makes. -/
def SlaveCall.Inside (config : TModbusSlaveConfiguration) : SlaveCall → Prop
  | .piControlRead a n => ∀ k, a.toNat ≤ k / 8 ∧ k / 8 < a.toNat + n → SlaveReads config k
  | .piControlWrite a data =>
    ∀ k, a.toNat ≤ k / 8 ∧ k / 8 < a.toNat + data.length → SlaveWrites config k
  | .modbusReceive | .sendResponse _ _ _ => True

/-- The tables have the sizes of the configuration. -/
structure ModbusMapping.Sized (m : ModbusMapping) (config : TModbusSlaveDataSizeConfig) : Prop where
  tabBits : m.tabBits.length = config.u16Coils.toNat
  tabInputBits : m.tabInputBits.length = config.u16DiscreteInputs.toNat
  tabInputRegisters : m.tabInputRegisters.length = config.u16InputRegisters.toNat
  tabRegisters : m.tabRegisters.length = config.u16HoldingRegisters.toNat

instance (m : ModbusMapping) (config : TModbusSlaveDataSizeConfig) : Decidable (m.Sized config) :=
  decidable_of_iff (m.tabBits.length = config.u16Coils.toNat ∧
      m.tabInputBits.length = config.u16DiscreteInputs.toNat ∧
      m.tabInputRegisters.length = config.u16InputRegisters.toNat ∧
      m.tabRegisters.length = config.u16HoldingRegisters.toNat)
    ⟨fun h => ⟨h.1, h.2.1, h.2.2.1, h.2.2.2⟩,
      fun h => ⟨h.tabBits, h.tabInputBits, h.tabInputRegisters, h.tabRegisters⟩⟩

/-- libmodbus keeps the sizes of the tables. -/
def SlaveHost.KeepsSizes {σ : Type} (host : SlaveHost σ) (config : TModbusSlaveDataSizeConfig) :
    Prop :=
  ∀ req len m, m.Sized config → (host.applyRequest req len m).Sized config

theorem modbusMappingNew_sized (config : TModbusSlaveDataSizeConfig) :
    (modbusMappingNew config).Sized config := by
  constructor <;> exact List.length_replicate

section Within

variable {σ : Type} {host : SlaveHost σ} {config : TModbusSlaveConfiguration} {m : ModbusMapping}

theorem ModbusMapping.Sized.inputBits (h : m.Sized config.tModbusDataConfig)
    {bytes data : List UInt8}
    (hbytes : overwrite m.tabInputBits data = .ok bytes) :
    ({ m with tabInputBits := bytes } : ModbusMapping).Sized config.tModbusDataConfig :=
  ⟨h.tabBits, (overwrite_length hbytes).trans h.tabInputBits, h.tabInputRegisters, h.tabRegisters⟩

theorem ModbusMapping.Sized.inputRegisters (h : m.Sized config.tModbusDataConfig)
    {bytes data : List UInt8}
    (hbytes : overwrite (registerBytes m.tabInputRegisters) data = .ok bytes) :
    ({ m with tabInputRegisters := bytesRegisters bytes } : ModbusMapping).Sized
      config.tModbusDataConfig := by
  have hlength := overwrite_length hbytes
  rw [registerBytes_length] at hlength
  exact ⟨h.tabBits, h.tabInputBits, (bytesRegisters_length hlength).trans h.tabInputRegisters,
    h.tabRegisters⟩

/-- The holding registers are written to their window. -/
theorem writeHoldingRegistersProgram_within (h : m.Sized config.tModbusDataConfig)
    (successful : ℤ) :
    (writeHoldingRegistersProgram m config.tProcessImageConfig successful).Within
      (SlaveCall.Inside config) := by
  unfold writeHoldingRegistersProgram
  split_ifs
  · refine .ask fun k hk => .inr ?_
    rw [registerBytes_length, h.tabRegisters] at hk
    exact hk
  · trivial

theorem writeModbusDataProgram_within (h : m.Sized config.tModbusDataConfig) :
    (writeModbusDataProgram m config.tProcessImageConfig).Within (SlaveCall.Inside config) := by
  unfold writeModbusDataProgram
  split_ifs
  · refine .ofExcept fun data hdata => .bind (.ask fun k hk => .inl ?_) fun successful => ?_
    · have hlength : data.length = m.tabBits.length / 8 := by
        unfold bufferFront at hdata
        split_ifs at hdata with hle
        cases hdata
        exact List.length_take_of_le hle
      rw [hlength, h.tabBits] at hk
      exact hk
    · split_ifs
      · trivial
      · exact writeHoldingRegistersProgram_within h successful
  · exact writeHoldingRegistersProgram_within h 0

theorem readInputRegistersProgram_within (h : m.Sized config.tModbusDataConfig) (successful : ℤ) :
    (readInputRegistersProgram m config.tProcessImageConfig successful).Within
      (SlaveCall.Inside config) := by
  unfold readInputRegistersProgram
  split_ifs
  · refine .bind (.ask fun k hk => .inr ?_) fun r => .ofExcept fun bytes _ => trivial
    rw [h.tabInputRegisters] at hk
    exact hk
  · trivial

theorem readModbusDataProgram_within (h : m.Sized config.tModbusDataConfig) :
    (readModbusDataProgram m config.tProcessImageConfig).Within (SlaveCall.Inside config) := by
  unfold readModbusDataProgram
  split_ifs
  · refine .bind (.ask fun k hk => .inl ?_) fun r => .ofExcept fun bytes hbytes => ?_
    · rw [h.tabInputBits] at hk
      exact hk
    · dsimp only
      split_ifs
      · trivial
      · exact readInputRegistersProgram_within (h.inputBits hbytes) _
  · exact readInputRegistersProgram_within h 0

theorem readInputRegistersProgram_sized (h : m.Sized config.tModbusDataConfig)
    (offsets : TProcessImageConfiguration) (successful : ℤ) :
    (readInputRegistersProgram m offsets successful).Yields
      fun r => r.2.Sized config.tModbusDataConfig := by
  unfold readInputRegistersProgram
  split_ifs
  · exact (Program.yields_true _).bind fun r _ =>
      .ofExcept fun bytes hbytes => h.inputRegisters hbytes
  · exact h

theorem readModbusDataProgram_sized (h : m.Sized config.tModbusDataConfig)
    (offsets : TProcessImageConfiguration) :
    (readModbusDataProgram m offsets).Yields fun r => r.2.Sized config.tModbusDataConfig := by
  unfold readModbusDataProgram
  split_ifs
  · refine (Program.yields_true _).bind fun r _ => .ofExcept fun bytes hbytes => ?_
    dsimp only
    split_ifs
    · exact h.inputBits hbytes
    · exact readInputRegistersProgram_sized (h.inputBits hbytes) offsets _
  · exact readInputRegistersProgram_sized h offsets 0

variable (hsizes : host.KeepsSizes config.tModbusDataConfig)

include hsizes in
theorem answerRequestProgram_within (h : m.Sized config.tModbusDataConfig) (req : ModbusRequest)
    (len : ℤ) :
    (answerRequestProgram host config req len m).Within (SlaveCall.Inside config) := by
  unfold answerRequestProgram
  refine .bind (.ask trivial) fun ret => ?_
  split_ifs
  · trivial
  · exact (writeModbusDataProgram_within (hsizes req len m h)).bind fun _ => trivial
  · trivial

include hsizes in
theorem answerRequestProgram_sized (h : m.Sized config.tModbusDataConfig) (req : ModbusRequest)
    (len : ℤ) :
    (answerRequestProgram host config req len m).Yields
      fun r => r.2.Sized config.tModbusDataConfig := by
  have happly := hsizes req len m h
  unfold answerRequestProgram
  refine (Program.yields_true _).bind fun ret _ => ?_
  split_ifs
  · exact happly
  · exact (Program.yields_true _).bind fun _ _ => happly
  · exact happly

include hsizes in
/-- **A request keeps to the footprint of its slave.** -/
theorem processModbusRequestProgram_within (h : m.Sized config.tModbusDataConfig) :
    (processModbusRequestProgram host config m).Within (SlaveCall.Inside config) := by
  unfold processModbusRequestProgram
  refine .bind (.ask trivial) fun r => ?_
  obtain ⟨len, req⟩ := r
  dsimp only
  split_ifs
  · exact (readModbusDataProgram_within h).bind_of_yields (readModbusDataProgram_sized h _)
      fun r hr => answerRequestProgram_within hsizes hr req len
  · exact answerRequestProgram_within hsizes h req len
  · trivial
  · trivial

include hsizes in
/-- A request keeps the sizes of the tables. -/
theorem processModbusRequestProgram_sized (h : m.Sized config.tModbusDataConfig) :
    (processModbusRequestProgram host config m).Yields
      fun r => r.2.Sized config.tModbusDataConfig := by
  unfold processModbusRequestProgram
  refine (Program.yields_true _).bind fun r _ => ?_
  obtain ⟨len, req⟩ := r
  dsimp only
  split_ifs
  · exact (readModbusDataProgram_sized h _).bind
      fun r hr => answerRequestProgram_sized hsizes hr req len
  · exact answerRequestProgram_sized hsizes h req len
  · exact h
  · exact h

end Within

/-! ## The slaves on one process image -/

/-- What a slave has for itself: libmodbus and its connections, and the calls of piControl that fail
for it. -/
structure SlaveSurroundings (δ : Type) where
  headerLength : Fin modbusTcpMaxAduLength
  modbusReceive : δ → (ℤ × ModbusRequest) × δ
  applyRequest : ModbusRequest → ℤ → ModbusMapping → ModbusMapping
  sendResponse : ModbusRequest → ℤ → ModbusMapping → δ → ℤ × δ
  /-- The error of the next call, if it fails. -/
  piControl : δ → Option ℕ × δ

variable {δ : Type}

/-- The calls of piControl. A slave makes no requests. -/
def SlaveSurroundings.toSurroundings (w : SlaveSurroundings δ) : Surroundings δ where
  modbus _ d := ({ len := -1, errno := 0, data := [] }, d)
  piControl := w.piControl

/-- The process image together with the surroundings of one slave. -/
def SlaveSurroundings.toSlaveHost (w : SlaveSurroundings δ) : SlaveHost (Image × δ) where
  toHost := w.toSurroundings.toHost
  headerLength := w.headerLength
  modbusReceive s :=
    let (request, d) := w.modbusReceive s.2
    (request, (s.1, d))
  applyRequest := w.applyRequest
  sendResponse req len mbMapping s :=
    let (ret, d) := w.sendResponse req len mbMapping s.2
    (ret, (s.1, d))

variable {ι : Type}

/-- The slaves of a configuration. Before each request the tables have the sizes that they have been
given. -/
def slavesSystem (configs : ι → TModbusSlaveConfiguration)
    (surroundings : ι → SlaveSurroundings δ) :
    System ι Image δ ModbusMapping Unit SlaveCall.Answer where
  body i mbMapping _ :=
    if mbMapping.Sized (configs i).tModbusDataConfig then do
      let (_, mbMapping) ←
        processModbusRequestProgram (surroundings i).toSlaveHost (configs i) mbMapping
      return mbMapping
    else .stop
  perform i := (surroundings i).toSlaveHost.perform
  permits _ _ _ := True

variable {configs : ι → TModbusSlaveConfiguration} {surroundings : ι → SlaveSurroundings δ}

/-- Slaves that do not write to what others read or write are isolated. -/
theorem slavesSystem_isolated
    (hsizes : ∀ i, (surroundings i).toSlaveHost.KeepsSizes (configs i).tModbusDataConfig)
    (hseparate : ∀ i j, i ≠ j → ∀ k, SlaveWrites (configs i) k → ¬ SlaveFootprint (configs j) k) :
    (slavesSystem configs surroundings).Isolated (fun i => agreeOn (SlaveFootprint (configs i)))
      (fun i => SlaveCall.Inside (configs i)) where
  within i m _ := by
    show Program.Within _ (if _ then _ else _)
    split_ifs with h
    · exact (processModbusRequestProgram_within (hsizes i) h).bind fun _ => trivial
    · trivial
  reads i c hc m m' d h := by
    cases c with
    | piControlRead a n =>
      exact perform_agreeOn (surroundings i).toSurroundings (c := .piControlRead a n)
        (fun k hk => .inl (hc k hk)) h d
    | piControlWrite a data =>
      exact perform_agreeOn (surroundings i).toSurroundings (c := .piControlWrite a data)
        (fun k hk => .inr (hc k hk)) h d
    | modbusReceive | sendResponse req len mbMapping => exact ⟨rfl, h, rfl⟩
  frame i j hij c hc m d := by
    cases c with
    | piControlRead a n =>
      show (agreeOn _).r m (((surroundings i).toSurroundings.toHost.piControlRead a n (m, d)).2.1)
      simp only [Surroundings.toHost]
      rcases (surroundings i).toSurroundings.piControl d with ⟨- | e, d'⟩ <;> exact fun _ _ => rfl
    | piControlWrite a data =>
      exact perform_frame (surroundings i).toSurroundings (c := .piControlWrite a data)
        (fun k hk hF => hseparate i j hij k (hc k hk) hF) m d
    | modbusReceive | sendResponse req len mbMapping => exact fun _ _ => rfl
  permits_congr _ _ _ _ _ := Iff.rfl

/-! ## One slave alone -/

section Alone

variable {σ : Type} {host : SlaveHost σ} {config : TModbusSlaveConfiguration}

/-- A slave processes a request; or somebody else changes the process image and the surroundings. -/
def slaveStep (host : SlaveHost σ) (config : TModbusSlaveConfiguration) (x : ModbusMapping × σ) :
    SoloLabel σ Unit → Option (ModbusMapping × σ)
  | .input _ => (processModbusRequest host config x.1 x.2).toOption.map Prod.snd
  | .other state => some (x.1, state)

theorem processModbusRequestProgram_exec (x : ModbusMapping × σ) :
    Program.exec host.perform (do
      let (_, mbMapping) ← processModbusRequestProgram host config x.1
      return mbMapping) x.2 = slaveStep host config x (.input ()) := by
  have hexec : (processModbusRequestProgram host config x.1).exec host.perform x.2 = _ :=
    processModbusRequestProgram_computes
  rw [Program.exec_bind, hexec]
  unfold slaveStep
  cases processModbusRequest host config x.1 x.2 <;> rfl

theorem slaveStep_sized (hsizes : host.KeepsSizes config.tModbusDataConfig)
    {x y : ModbusMapping × σ}
    {l : SoloLabel σ Unit} (hs : slaveStep host config x l = some y)
    (h : x.1.Sized config.tModbusDataConfig) : y.1.Sized config.tModbusDataConfig := by
  cases l with
  | input _ =>
    rw [← processModbusRequestProgram_exec] at hs
    have hyields : Program.Yields (fun m : ModbusMapping => m.Sized config.tModbusDataConfig) (do
        let (_, mbMapping) ← processModbusRequestProgram host config x.1
        return mbMapping) :=
      (processModbusRequestProgram_sized hsizes h).bind fun r hr => hr
    exact hyields.exec hs
  | other state =>
    cases hs
    exact h

end Alone

/-- A thread alone is the slave. -/
theorem run_slaveStep
    (hsizes : ∀ i, (surroundings i).toSlaveHost.KeepsSizes (configs i).tModbusDataConfig) (i : ι)
    {x : ModbusMapping × (Image × δ)} (hx : x.1.Sized (configs i).tModbusDataConfig)
    (labels : List (SoloLabel (Image × δ) Unit)) :
    run (soloStep (slavesSystem configs surroundings) i) x labels =
      run (slaveStep (surroundings i).toSlaveHost (configs i)) x labels := by
  induction labels generalizing x with
  | nil => rfl
  | cons l labels ih =>
    have hstep : soloStep (slavesSystem configs surroundings) i x l =
        slaveStep (surroundings i).toSlaveHost (configs i) x l := by
      cases l with
      | input _ =>
        show Program.exec _ (if _ then _ else _) _ = _
        rw [if_pos hx]
        exact processModbusRequestProgram_exec x
      | other state =>
        show (if True then some (x.1, state) else none) = _
        rw [if_pos trivial]
        rfl
    rw [run, run, hstep]
    cases hs : slaveStep (surroundings i).toSlaveHost (configs i) x l with
    | none => rfl
    | some y => exact ih (slaveStep_sized (hsizes i) hs hx)

/-- All threads at their start. -/
def slavesStart (configs : ι → TModbusSlaveConfiguration) (image : Image) (own : ι → δ) :
    Threads ι Image δ ModbusMapping SlaveCall.Answer where
  shared := image
  own := own
  program i := .done (modbusMappingNew (configs i).tModbusDataConfig)

/-- **The slaves do not notice one another.** Let no slave write to what another one reads or
writes. Take any run in which the slaves make their calls of piControl and libmodbus in any order,
with any requests, any responses that cannot be sent and any failures of piControl, and in which
others change the process image between the calls, though not the footprint of a slave in the
middle of a request. Then what each slave has still to do of its request leads to the mapping, the
surroundings and the footprint to which `process_modbus_request` leads alone, with every request as
a whole. -/
theorem slaves_isolated [DecidableEq ι]
    (hsizes : ∀ i, (surroundings i).toSlaveHost.KeepsSizes (configs i).tModbusDataConfig)
    (hseparate : ∀ i j, i ≠ j → ∀ k, SlaveWrites (configs i) k → ¬ SlaveFootprint (configs j) k)
    (image : Image) (own : ι → δ) (labels : List (Label ι Image Unit))
    (hothers : Along (interleavedStep (slavesSystem configs surroundings))
      ((slavesSystem configs surroundings).OthersKeep
        fun i => agreeOn (SlaveFootprint (configs i)))
      (slavesStart configs image own) labels)
    {g : Threads ι Image δ ModbusMapping SlaveCall.Answer}
    (hrun : run (interleavedStep (slavesSystem configs surroundings))
      (slavesStart configs image own) labels = some g) (i : ι) :
    Option.Rel (Alike (agreeOn (SlaveFootprint (configs i))))
      (g.outcome (slavesSystem configs surroundings) i)
      (run (slaveStep (surroundings i).toSlaveHost (configs i))
        (modbusMappingNew (configs i).tModbusDataConfig, (image, own i))
        (soloRun (slavesSystem configs surroundings) i (slavesStart configs image own)
          labels)) := by
  have houtcome :=
    (slavesSystem_isolated hsizes hseparate).run_outcome (fun _ => rfl) hothers hrun i
  rw [run_slaveStep hsizes i (modbusMappingNew_sized _)] at houtcome
  exact houtcome

/-- Two slaves with one register of each kind, of which they write their own and read the same. -/
def twoSlaves : Bool → TModbusSlaveConfiguration
  | false => twoRegistersConfig
  | true => { twoRegistersConfig with
    tProcessImageConfig := { twoRegistersConfig.tProcessImageConfig with
      u32HoldingRegistersInputOffset := 4 } }

/-- A client that sends `writeFiveRequest` again and again. -/
def writeFiveSurroundings : SlaveSurroundings Unit where
  headerLength := tcpHeaderLength
  modbusReceive d := ((12, writeFiveRequest), d)
  applyRequest req _ m := applyWriteSingleRegister req m
  sendResponse _ _ _ d := (12, d)
  piControl d := (none, d)

/-- A request of each slave, in turns; the second slave is not done. -/
def requestsInTurns : List (Label Bool Image Unit) :=
  [.start false (), .start true (), .call true, .call false, .call false, .call true, .call false]

theorem writeFiveSurroundings_keepsSizes (config : TModbusSlaveDataSizeConfig) :
    writeFiveSurroundings.toSlaveHost.KeepsSizes config := by
  intro req len m h
  show (applyWriteSingleRegister req m).Sized config
  unfold applyWriteSingleRegister
  split_ifs
  · exact ⟨h.tabBits, h.tabInputBits, h.tabInputRegisters, List.length_set.trans h.tabRegisters⟩
  · exact h

theorem twoSlaves_separate (i j : Bool) (hij : i ≠ j) (k : ℕ) (h : SlaveWrites (twoSlaves i) k) :
    ¬ SlaveFootprint (twoSlaves j) k := by
  cases i <;> cases j <;>
    simp [SlaveWrites, SlaveFootprint, SlaveReads, twoSlaves, twoRegistersConfig,
      oneRegisterConfig] at hij h ⊢ <;> omega

theorem slaves_isolated_twoSlaves :
    ∃ g, run (interleavedStep (slavesSystem twoSlaves fun _ => writeFiveSurroundings))
        (slavesStart twoSlaves (fun _ => 0) fun _ => ()) requestsInTurns = some g ∧
      Option.Rel (Alike (agreeOn (SlaveFootprint (twoSlaves true))))
        (g.outcome (slavesSystem twoSlaves fun _ => writeFiveSurroundings) true)
        (run (slaveStep writeFiveSurroundings.toSlaveHost (twoSlaves true))
          (modbusMappingNew (twoSlaves true).tModbusDataConfig, (fun _ => 0, ()))
          (soloRun (slavesSystem twoSlaves fun _ => writeFiveSurroundings) true
            (slavesStart twoSlaves (fun _ => 0) fun _ => ()) requestsInTurns)) := by
  have hrun : (run (interleavedStep (slavesSystem twoSlaves fun _ => writeFiveSurroundings))
      (slavesStart twoSlaves (fun _ => 0) fun _ => ()) requestsInTurns).isSome = true := by
    decide +kernel
  obtain ⟨g, hg⟩ := Option.isSome_iff_exists.mp hrun
  refine ⟨g, hg, slaves_isolated (fun _ => writeFiveSurroundings_keepsSizes _) twoSlaves_separate
    _ _ _ ?_ hg true⟩
  simp only [requestsInTurns, Along, System.OthersKeep, true_and, implies_true]

end RevPiModbus
