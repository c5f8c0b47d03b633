import RevPiModbus.StatusLatch

/-!
# The loops of the masters do not stop

A step of a loop fails where the process would be stopped: by an assertion of the scheduler or of
`processModbusAction`, by an index outside the buffer or the list, or by an empty event list, whose
error code the loops ignore. None of this happens if the parsed actions are within the limits of the
executor, whatever the device, the process image and the user do.

* `switchFunctionCode_length`, `processModbusAction_length`: the buffer keeps its size;
* `RunsSafely`, `LoopInv`: the actions, and the states of the loop;
* `CanGoOn`, `loop_goesOn`: every run can go on.
-/

namespace RevPiModbus

open Transition Timespec

variable {σ : Type} {host : Host σ} {action : TModbusAction} {buffer : List UInt8}
  {t t' : Transaction σ}

/-! ## The buffer keeps its size -/

theorem overwrite_length {data buffer' : List UInt8} (h : overwrite buffer data = .ok buffer') :
    buffer'.length = buffer.length := by
  unfold overwrite at h
  split_ifs at h with hle
  cases h
  rw [List.length_append, List.length_drop]
  omega

theorem fetchCoils_length {n i : ℕ} {successful successful' : ℤ} {buffer buffer' : List UInt8}
    {s s' : σ}
    (h : fetchCoils host action n i successful buffer s = .ok (successful', buffer', s')) :
    buffer'.length = buffer.length := by
  induction n generalizing i successful buffer s with
  | zero =>
    unfold fetchCoils at h
    cases h
    rfl
  | succ n ih =>
    unfold fetchCoils at h
    dsimp only at h
    split_ifs at h
    · cases h
      rfl
    · rw [ih h, List.length_set]

theorem receiveModbus_length {call : ModbusCall} (h : receiveModbus host call t = .ok t') :
    t'.buffer.length = t.buffer.length := by
  unfold receiveModbus at h
  obtain ⟨buffer', hbuffer, h⟩ := bind_eq_ok.mp h
  cases h
  exact overwrite_length hbuffer

theorem readBitsCase_length {call : ModbusCall} (h : readBitsCase host action call t = .ok t') :
    t'.buffer.length = t.buffer.length := by
  unfold readBitsCase at h
  obtain ⟨-, -, h⟩ := bind_eq_ok.mp h
  obtain ⟨r, hreceive, h⟩ := bind_eq_ok.mp h
  rw [← receiveModbus_length hreceive]
  split_ifs at h
  · cases h
    rfl
  · obtain ⟨stored, -, h⟩ := bind_eq_ok.mp h
    cases h
    rfl

/-- The two branches that write the front of the buffer to the process image. -/
theorem writeFront_length {r : Transaction σ} {count n : ℕ} {a : UInt32}
    (h : (if r.len < count then return r
      else do
        let data ← bufferFront r.buffer n
        let (successful, state) := host.piControlWrite a data r.state
        return { r with successful := successful, state := state }) = Except.ok (ε := Fault) t') :
    t'.buffer.length = r.buffer.length := by
  split_ifs at h
  · cases h
    rfl
  · obtain ⟨data, -, h⟩ := bind_eq_ok.mp h
    cases h
    rfl

theorem readRegistersCase_length {call : ModbusCall}
    (h : readRegistersCase host action call t = .ok t') :
    t'.buffer.length = t.buffer.length := by
  unfold readRegistersCase at h
  obtain ⟨-, -, h⟩ := bind_eq_ok.mp h
  obtain ⟨r, hreceive, h⟩ := bind_eq_ok.mp h
  exact (writeFront_length h).trans (receiveModbus_length hreceive)

theorem reportSlaveIdCase_length (h : reportSlaveIdCase host action t = .ok t') :
    t'.buffer.length = t.buffer.length := by
  unfold reportSlaveIdCase at h
  obtain ⟨-, -, h⟩ := bind_eq_ok.mp h
  obtain ⟨r, hreceive, h⟩ := bind_eq_ok.mp h
  exact (writeFront_length h).trans (receiveModbus_length hreceive)

theorem writeSingleRegisterCase_length (h : writeSingleRegisterCase host action t = .ok t') :
    t'.buffer.length = t.buffer.length := by
  unfold writeSingleRegisterCase at h
  obtain ⟨-, -, h⟩ := bind_eq_ok.mp h
  obtain ⟨buffer', hbuffer, h⟩ := bind_eq_ok.mp h
  rw [← overwrite_length hbuffer]
  dsimp only at h
  split_ifs at h
  · cases h
    rfl
  · split at h
    · cases h
      rfl
    · cases h

theorem writeMultipleRegistersCase_length (h : writeMultipleRegistersCase host action t = .ok t') :
    t'.buffer.length = t.buffer.length := by
  unfold writeMultipleRegistersCase at h
  obtain ⟨-, -, h⟩ := bind_eq_ok.mp h
  obtain ⟨buffer', hbuffer, h⟩ := bind_eq_ok.mp h
  rw [← overwrite_length hbuffer]
  dsimp only at h
  split_ifs at h
  · cases h
    rfl
  · obtain ⟨data, -, h⟩ := bind_eq_ok.mp h
    cases h
    rfl

theorem writeSingleCoilCase_length (h : writeSingleCoilCase host action t = .ok t') :
    t'.buffer.length = t.buffer.length := by
  unfold writeSingleCoilCase at h
  obtain ⟨-, -, h⟩ := bind_eq_ok.mp h
  obtain ⟨⟨successful, buffer', state⟩, hfetch, h⟩ := bind_eq_ok.mp h
  rw [← fetchCoils_length hfetch]
  dsimp only at h
  split_ifs at h
  · split at h
    · cases h
      rfl
    · cases h
  · cases h
    rfl

theorem writeMultipleCoilsCase_length (h : writeMultipleCoilsCase host action t = .ok t') :
    t'.buffer.length = t.buffer.length := by
  unfold writeMultipleCoilsCase at h
  obtain ⟨-, -, h⟩ := bind_eq_ok.mp h
  obtain ⟨⟨successful, buffer', state⟩, hfetch, h⟩ := bind_eq_ok.mp h
  rw [← fetchCoils_length hfetch]
  dsimp only at h
  split_ifs at h
  · obtain ⟨data, -, h⟩ := bind_eq_ok.mp h
    cases h
    rfl
  · cases h
    rfl

/-- No branch of the `switch` changes the size of the buffer. -/
theorem switchFunctionCode_length (h : switchFunctionCode host action t = .ok t') :
    t'.buffer.length = t.buffer.length := by
  unfold switchFunctionCode at h
  cases hcode : action.eFunctionCode <;> simp only [hcode] at h
  case readCoils => exact readBitsCase_length h
  case readDiscreteInputs => exact readBitsCase_length h
  case readHoldingRegisters => exact readRegistersCase_length h
  case readInputRegisters => exact readRegistersCase_length h
  case writeSingleRegister => exact writeSingleRegisterCase_length h
  case writeSingleCoil => exact writeSingleCoilCase_length h
  case writeMultipleCoils => exact writeMultipleCoilsCase_length h
  case writeMultipleRegisters => exact writeMultipleRegistersCase_length h
  case reportSlaveId => exact reportSlaveIdCase_length h
  all_goals
    cases h
    rfl

theorem processModbusAction_length {s : σ} {out : Transaction σ}
    (h : processModbusAction host action buffer s = .ok out) :
    out.buffer.length = buffer.length := by
  unfold processModbusAction at h
  obtain ⟨t, hswitch, h⟩ := bind_eq_ok.mp h
  have hlength : t.buffer.length = buffer.length := switchFunctionCode_length hswitch
  rw [← hlength]
  split_ifs at h
  · cases h
    rfl
  · cases h
    rfl

/-! ## The actions -/

/-- An action that the executor implements is within its limits. The parser admits up to 256
registers for every action. -/
def RunsSafely (action : TModbusAction) : Prop :=
  (action.eFunctionCode.Implemented →
    withinLimits action.eFunctionCode action.i16uRegisterCount.toNat = true) ∧
  action.i16uRegisterCount.toNat ≤ maxRegisterSizePerAction

/-- A function code that is not implemented is only logged. -/
theorem processModbusAction_returns (hhost : host.Conforms) (h : RunsSafely action) (s : σ)
    (hbuffer : buffer.length = maxRegisterSizePerAction) :
    ∃ out, processModbusAction host action buffer s = .ok out := by
  have hswitch : ∃ t, switchFunctionCode host action (.start buffer s) = .ok t := by
    by_cases himplemented : action.eFunctionCode.Implemented
    · exact switchFunctionCode_returns (t := .start buffer s) hhost hbuffer h.2 (h.1 himplemented)
    · unfold EModbusFunction.Implemented at himplemented
      unfold switchFunctionCode
      cases hcode : action.eFunctionCode <;> simp [hcode] at himplemented
      all_goals exact ⟨_, rfl⟩
  obtain ⟨t, ht⟩ := hswitch
  obtain ⟨out, hout, -⟩ := processModbusAction_of_switch ht
  exact ⟨out, hout⟩

/-! ## The event list -/

variable {config : TModbusMasterConfiguration}

/-- The event is normalised, and its action is in the list. -/
def SchedulerEvent.Valid (actions : List TModbusAction) (e : SchedulerEvent) : Prop :=
  e.Normalised ∧ e.ptModbusAction < actions.length

theorem insertEventByDueDate_valid {actions : List TModbusAction} {e : SchedulerEvent}
    {events : List SchedulerEvent} (he : e.Valid actions) (h : ∀ p ∈ events, p.Valid actions) :
    ∀ p ∈ insertEventByDueDate e events, p.Valid actions := by
  intro p hp
  rcases List.mem_cons.1 ((insertEventByDueDate_perm e events).mem_iff.1 hp) with rfl | hp
  · exact he
  · exact h p hp

/-- The loop of `initScheduler` meets no failing assertion, and if it returns 0, its list has an
event at least for the last action, and valid ones only. -/
theorem initSchedulerLoop_valid (malloc : ℕ → Bool) {now : Timespec} (hnow : now.Normalised)
    {all : List TModbusAction} {i : ℕ} {actions : List TModbusAction} {q : List SchedulerEvent}
    (hlength : i + actions.length = all.length) (hq : ∀ e ∈ q, e.Valid all) :
    ∃ ret q', initSchedulerLoop malloc now i actions q = .ok (ret, q') ∧
      (0 ≤ ret → (∀ e ∈ q', e.Valid all) ∧ (q ≠ [] ∨ actions ≠ [] → q' ≠ [])) := by
  induction actions generalizing i q with
  | nil => exact ⟨0, q, rfl, fun _ => ⟨hq, by simp⟩⟩
  | cons a actions ih =>
    rw [initSchedulerLoop]
    by_cases hmalloc : malloc i = true
    · rw [if_pos hmalloc, newSchedulerEvent_eq hnow, ok_bind]
      set e : SchedulerEvent := ⟨a.intervalTime, ofNs (firstTrigger now a), i⟩
      have hlast : i < all.length := by
        rw [List.length_cons] at hlength
        omega
      have hfirst : e.Valid all :=
        ⟨⟨intervalTime_normalised a, ofNs_normalised _⟩, hlast⟩
      have hinsert : (if q.isEmpty then [e] else insertEventByDueDate e q) =
          insertEventByDueDate e q := by
        cases q <;> rfl
      rw [hinsert]
      obtain ⟨ret, q', hloop, hvalid⟩ := ih (i := i + 1) (q := insertEventByDueDate e q)
        (by rw [List.length_cons] at hlength; omega) (insertEventByDueDate_valid hfirst hq)
      refine ⟨ret, q', hloop, fun hret => ⟨(hvalid hret).1, fun _ => (hvalid hret).2 (.inl ?_)⟩⟩
      intro hnil
      have hperm := insertEventByDueDate_perm e q
      rw [hnil] at hperm
      exact absurd hperm.length_eq (by simp)
    · rw [if_neg hmalloc]
      exact ⟨-1, _, rfl, fun hret => absurd hret (by norm_num)⟩

theorem initScheduler_valid (malloc : ℕ → Bool) {now : Timespec} (hnow : now.Normalised)
    (actions : List TModbusAction) :
    ∃ ret q, initScheduler malloc now actions = .ok (ret, q) ∧
      (0 ≤ ret → (∀ e ∈ q, e.Valid actions) ∧ q ≠ []) := by
  unfold initScheduler
  by_cases hempty : actions.isEmpty = true
  · rw [if_pos hempty]
    exact ⟨-1, [], rfl, fun hret => absurd hret (by norm_num)⟩
  · rw [if_neg hempty]
    have hne : actions ≠ [] := by simpa using hempty
    obtain ⟨ret, q, hloop, hvalid⟩ := initSchedulerLoop_valid malloc hnow
      (Nat.zero_add actions.length) (q := []) (by simp)
    exact ⟨ret, q, hloop, fun hret => ⟨(hvalid hret).1, (hvalid hret).2 (.inr hne)⟩⟩

/-! ## The loop -/

/-- The states of a loop: the buffer has its size, the event list is usable from the connect on, and
the actions that are still to be reset or processed are in the list. -/
structure LoopInv (config : TModbusMasterConfiguration) (s : LoopState σ) : Prop where
  buffer : s.buffer.length = maxRegisterSizePerAction
  events : s.phase ≠ .connect → s.phase ≠ .ended →
    s.eventList ≠ [] ∧ ∀ e ∈ s.eventList, e.Valid config.mbActionListHead
  phase : match s.phase with
    | .reset pending nextEvent => (∀ i ∈ pending, i < config.mbActionListHead.length) ∧
        nextEvent.ptModbusAction < config.mbActionListHead.length
    | .process nextEvent => nextEvent.ptModbusAction < config.mbActionListHead.length
    | _ => True

/-- The thread has ended, or it can take its next step: with every outcome of `modbus_connect` and
of the allocations where it connects, and every time that the clock may show. -/
def CanGoOn (host : Host σ) (config : TModbusMasterConfiguration) (s : LoopState σ) : Prop :=
  match s.phase with
  | .ended => True
  | .connect => ∀ connected malloc currentTime, currentTime.Normalised →
      ∃ s', loopStep host config s (.connect connected malloc currentTime) = some s'
  | _ => ∃ s', loopStep host config s .proceed = some s'

/-- The clock shows a normalised time. -/
def LoopLabel.ClockNormalised : LoopLabel σ → Prop
  | .connect _ _ currentTime => currentTime.Normalised
  | _ => True

variable {s s' : LoopState σ}

theorem loopInv_start (host : Host σ) (config : TModbusMasterConfiguration) (state : σ) :
    LoopInv config (LoopState.start host config state) where
  buffer := List.length_replicate
  events hconnect := absurd rfl hconnect
  phase := trivial

theorem getNextEvent_valid {actions : List TModbusAction} {q : List SchedulerEvent} (hne : q ≠ [])
    (hq : ∀ e ∈ q, e.Valid actions) :
    ∃ nextEvent q', getNextEvent q = .ok (some (nextEvent, q')) ∧
      nextEvent.ptModbusAction < actions.length ∧ q' ≠ [] ∧ ∀ e ∈ q', e.Valid actions := by
  cases q with
  | nil => exact absurd rfl hne
  | cons e events =>
    rw [List.forall_mem_cons] at hq
    refine ⟨_, _, getNextEvent_cons hq.1.1 events, hq.1.2, ?_, ?_⟩
    · intro hnil
      have hperm := insertEventByDueDate_perm e.next events
      rw [hnil] at hperm
      exact absurd hperm.length_eq (by simp)
    · exact insertEventByDueDate_valid ⟨SchedulerEvent.next_normalised hq.1.1, hq.1.2⟩ hq.2

theorem connectStep_goesOn (host : Host σ) (connected : Bool) (malloc : ℕ → Bool) {now : Timespec}
    (hnow : now.Normalised) (h : LoopInv config s) :
    ∃ s', connectStep host config connected malloc now s = some s' ∧ LoopInv config s' := by
  unfold connectStep
  cases connected with
  | false =>
    refine ⟨_, rfl, h.buffer, ?_, ?_⟩
    · cases config.tModbusDeviceConfig.uProt.eProtocol with
      | protTCP => exact fun hconnect => absurd rfl hconnect
      | protRTU => exact fun _ hended => absurd rfl hended
    · cases config.tModbusDeviceConfig.uProt.eProtocol <;> trivial
  | true =>
    obtain ⟨ret, q, hinit, hvalid⟩ := initScheduler_valid malloc hnow
      config.mbActionListHead
    simp only [if_true, hinit]
    by_cases hret : ret < 0
    · rw [if_pos hret]
      exact ⟨_, rfl, h.buffer, fun _ hended => absurd rfl hended, trivial⟩
    · rw [if_neg hret]
      have hlist := hvalid (not_lt.mp hret)
      exact ⟨_, rfl, h.buffer, fun _ _ => ⟨hlist.2, hlist.1⟩, trivial⟩

theorem processStep_goesOn (hhost : host.Conforms) (haction : RunsSafely action)
    (h : LoopInv config s) (hphase : s.phase ≠ .connect) (hphase' : s.phase ≠ .ended) :
    ∃ s', processStep host config action s = some s' ∧ LoopInv config s' := by
  obtain ⟨out, hout⟩ := processModbusAction_returns hhost haction s.state h.buffer
  have hlist := h.events hphase hphase'
  unfold processStep
  rw [hout]
  refine ⟨_, rfl, (processModbusAction_length hout).trans h.buffer, fun _ _ => hlist, ?_⟩
  cases config.tModbusDeviceConfig.uProt.eProtocol with
  | protTCP =>
    dsimp only
    split_ifs <;> trivial
  | protRTU => trivial

/-- The step that the thread takes next is possible, and keeps the invariant. -/
theorem proceed_goesOn (hhost : host.Conforms)
    (hactions : ∀ action ∈ config.mbActionListHead, RunsSafely action) (h : LoopInv config s)
    (hphase : s.phase ≠ .connect) (hphase' : s.phase ≠ .ended) :
    ∃ s', loopStep host config s .proceed = some s' ∧ LoopInv config s' := by
  have hlist := h.events hphase hphase'
  have hinv := h.phase
  unfold loopStep
  cases hp : s.phase with
  | connect => exact absurd hp hphase
  | ended => exact absurd hp hphase'
  | nextEvent =>
    obtain ⟨nextEvent, q, hnext, hlt, hne, hvalid⟩ := getNextEvent_valid hlist.1 hlist.2
    simp only [hnext]
    refine ⟨_, rfl, h.buffer, fun _ _ => ⟨hne, hvalid⟩, ?_, hlt⟩
    unfold resetPending
    cases config.tModbusDeviceConfig.uProt.eProtocol with
    | protTCP =>
      intro i hi
      rw [List.mem_singleton.mp hi]
      exact hlt
    | protRTU =>
      intro i hi
      obtain ⟨e, he, rfl⟩ := List.mem_map.mp hi
      exact (hvalid e he).2
  | reset pending nextEvent =>
    rw [hp] at hinv
    cases pending with
    | nil => exact ⟨_, rfl, h.buffer, fun _ _ => hlist, hinv.2⟩
    | cons i pending =>
      obtain ⟨hpending, hlt⟩ := hinv
      rw [List.forall_mem_cons] at hpending
      simp only [List.getElem?_eq_getElem hpending.1]
      exact ⟨_, rfl, h.buffer, fun _ _ => hlist, hpending.2, hlt⟩
  | process nextEvent =>
    rw [hp] at hinv
    have hlt : nextEvent.ptModbusAction < config.mbActionListHead.length := hinv
    simp only [List.getElem?_eq_getElem hlt]
    exact processStep_goesOn hhost (hactions _ (List.getElem_mem hlt)) h hphase hphase'

theorem LoopInv.canGoOn (hhost : host.Conforms)
    (hactions : ∀ action ∈ config.mbActionListHead, RunsSafely action) (h : LoopInv config s) :
    CanGoOn host config s := by
  unfold CanGoOn
  cases hp : s.phase with
  | ended => trivial
  | connect =>
    intro connected malloc now hnow
    obtain ⟨s', hs', -⟩ := connectStep_goesOn host connected malloc hnow h
    refine ⟨s', ?_⟩
    simp only [loopStep, hp, if_true]
    exact hs'
  | nextEvent | reset pending nextEvent | process nextEvent =>
    obtain ⟨s', hs', -⟩ := proceed_goesOn hhost hactions h (by simp [hp]) (by simp [hp])
    exact ⟨s', hs'⟩

theorem LoopInv.step (hhost : host.Conforms)
    (hactions : ∀ action ∈ config.mbActionListHead, RunsSafely action) (h : LoopInv config s)
    {l : LoopLabel σ} (hclock : l.ClockNormalised) (hs : loopStep host config s l = some s') :
    LoopInv config s' := by
  cases l with
  | connect connected malloc now =>
    simp only [loopStep, Option.ite_none_right_eq_some] at hs
    obtain ⟨s'', hs'', hinv⟩ := connectStep_goesOn host connected malloc hclock h
    obtain rfl : s'' = s' := Option.some.inj (hs''.symm.trans hs.2)
    exact hinv
  | user state =>
    simp only [loopStep, Option.ite_none_right_eq_some] at hs
    cases hs.2
    exact ⟨h.buffer, h.events, h.phase⟩
  | proceed =>
    have hphase : s.phase ≠ .connect := by
      intro hp
      simp only [loopStep, hp] at hs
      cases hs
    have hphase' : s.phase ≠ .ended := by
      intro hp
      simp only [loopStep, hp] at hs
      cases hs
    obtain ⟨s'', hs'', hinv⟩ := proceed_goesOn hhost hactions h hphase hphase'
    obtain rfl : s'' = s' := Option.some.inj (hs''.symm.trans hs)
    exact hinv

/-- **A master does not stop.** Let every implemented action of a master be within its limits. Then
in every run of the TCP or the RTU loop, with any answers of the device, any results of piControl,
any user that leaves the status bytes alone and any failing allocations, the thread has ended by
itself or can take its next step: no assertion fails, nothing is read or written outside the
buffer, and the event list is never empty when an event is taken from it. -/
theorem loop_goesOn (hhost : host.Conforms)
    (hactions : ∀ action ∈ config.mbActionListHead, RunsSafely action) (state : σ)
    (labels : List (LoopLabel σ)) (hclock : ∀ l ∈ labels, l.ClockNormalised) :
    Throughout (loopStep host config) (CanGoOn host config) (.start host config state) labels := by
  have hinv : ∀ (s : LoopState σ) (labels : List (LoopLabel σ)), LoopInv config s →
      (∀ l ∈ labels, l.ClockNormalised) →
      Throughout (loopStep host config) (CanGoOn host config) s labels := by
    intro s labels h hclock
    induction labels generalizing s with
    | nil => exact h.canGoOn hhost hactions
    | cons l labels ih =>
      rw [List.forall_mem_cons] at hclock
      exact ⟨h.canGoOn hhost hactions, fun s' hs =>
        ih s' (h.step hhost hactions hclock.1 hs) hclock.2⟩
  exact hinv _ labels (loopInv_start host config state) hclock

/-- Also when no device answers. -/
theorem loop_goesOn_twoReads :
    Throughout (loopStep silentHost twoReadsConfig) (CanGoOn silentHost twoReadsConfig)
      (.start silentHost twoReadsConfig fun _ => 0) firstPass := by
  have hactions : ∀ action ∈ twoReadsConfig.mbActionListHead, RunsSafely action := by
    intro action haction
    simp only [twoReadsConfig, List.mem_cons, List.not_mem_nil, or_false] at haction
    obtain rfl | rfl := haction <;> exact ⟨fun _ => by decide, by decide⟩
  have hclock : ∀ l ∈ firstPass, l.ClockNormalised := by
    intro l hl
    simp only [firstPass, List.mem_cons, List.not_mem_nil, or_false] at hl
    rcases hl with rfl | rfl | rfl | rfl | rfl <;> simp [LoopLabel.ClockNormalised, Normalised]
  exact loop_goesOn silentHost_succeeds.toConforms hactions (fun _ => 0) firstPass hclock

end RevPiModbus
