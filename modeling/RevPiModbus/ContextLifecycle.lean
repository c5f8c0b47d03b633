import RevPiModbus.Lib.Ledger
import RevPiModbus.Lib.Transition
import RevPiModbus.Scheduler

/-!
# The Modbus context of a master thread

`startTcpMasterThread` and `startRtuMasterThread` of `ModbusMasterThread.c`, with the calls of
libmodbus that take the context, the cleanup handler, and the places where a cancelled thread ends.
The TCP thread pushes the handler as soon as it has a context, the RTU thread only after it has
connected; and the RTU thread frees the context by itself when `initScheduler` fails, with the
handler pushed.

* `ContextPoint`: the places of a thread; `startTcpMasterThread`, `startRtuMasterThread`: the
  control flow, with the outcome of each call left open; `isCancellationPoint`;
* `ContextState`, `contextStep`: a run of a thread, with a ledger of its context;
* `ReleasedOnce`: the context is freed exactly once, and not used after that;
* `contextReleasedOnce_tcp`, `contextReleasedOnce_iff`: the runs throughout which that holds.
-/

namespace RevPiModbus

open Transition

/-! ## The threads -/

/-- What a master thread is about to do. -/
inductive ContextPoint
  /-- The RTU thread waits for its device. -/
  | waitDevice
  /-- `setprio`, with `perror` if it fails. -/
  | setprio
  /-- `modbus_new_tcp_pi` or `modbus_new_rtu`. -/
  | newContext
  /-- `syslog` and `writeErrorMessage` before the thread ends without a context. -/
  | noContext
  | setErrorRecovery
  /-- `syslog` if that has failed. -/
  | recoveryFailed
  /-- `modbus_connect`. -/
  | connect
  /-- `syslog` if that has failed. -/
  | connectFailed
  /-- The status byte, and five seconds. -/
  | retrySleep
  /-- `modbus_free` of a context that is not connected. -/
  | freeUnconnected
  /-- The status byte before the thread returns. -/
  | unconnected
  | initScheduler
  /-- `syslog` if that has failed. -/
  | schedulerFailed
  /-- `modbus_close` and `modbus_free` of the RTU thread then. -/
  | closeContext
  | freeContext
  /-- The status byte before `pthread_exit`. -/
  | exit
  /-- The timeouts of the context, with `syslog`. -/
  | setTimeouts
  /-- `syslog`, and the status byte. -/
  | established
  /-- `getNextEvent`, the resets of the status bytes, and both sleeps. -/
  | nextEvent
  /-- `modbus_set_slave`, with `syslog` if it fails. -/
  | setSlave
  | processModbusAction
  /-- The evaluation of its result, with `syslog`. -/
  | evaluate
  /-- `modbus_close` after too many errors. -/
  | restart
  | ended
  deriving DecidableEq, Repr

namespace ContextPoint

/-- The first step of a thread. -/
def start : EModbusProtocol → ContextPoint
  | .protTCP => setprio
  | .protRTU => waitDevice

/-- The control flow of `startTcpMasterThread`. -/
def startTcpMasterThread : ContextPoint → List ContextPoint
  | setprio => [newContext, noContext]
  | newContext => [setErrorRecovery, noContext]
  | noContext => [ended]
  | setErrorRecovery => [connect, recoveryFailed]
  | recoveryFailed => [connect]
  | connect => [initScheduler, connectFailed]
  | connectFailed => [retrySleep]
  | retrySleep => [connect]
  | initScheduler => [setTimeouts, schedulerFailed]
  | schedulerFailed => [exit]
  | exit => [ended]
  | setTimeouts => [established]
  | established => [nextEvent]
  | nextEvent => [setSlave]
  | setSlave => [processModbusAction]
  | processModbusAction => [evaluate]
  | evaluate => [nextEvent, restart]
  | restart => [connect]
  | _ => []

/-- The control flow of `startRtuMasterThread`. -/
def startRtuMasterThread : ContextPoint → List ContextPoint
  | waitDevice => [waitDevice, setprio]
  | setprio => [newContext, noContext]
  | newContext => [setErrorRecovery, noContext]
  | noContext => [ended]
  | setErrorRecovery => [connect, recoveryFailed]
  | recoveryFailed => [connect]
  | connect => [initScheduler, connectFailed]
  | connectFailed => [freeUnconnected]
  | freeUnconnected => [unconnected]
  | unconnected => [ended]
  | initScheduler => [setTimeouts, schedulerFailed]
  | schedulerFailed => [closeContext]
  | closeContext => [freeContext]
  | freeContext => [exit]
  | exit => [ended]
  | setTimeouts => [established]
  | established => [nextEvent]
  | nextEvent => [setSlave]
  | setSlave => [processModbusAction]
  | processModbusAction => [evaluate]
  | evaluate => [nextEvent]
  | _ => []

/-- The control flow of a thread, with the outcome of each call left open. -/
def successors : EModbusProtocol → ContextPoint → List ContextPoint
  | .protTCP => startTcpMasterThread
  | .protRTU => startRtuMasterThread

/-- Where a cancelled thread ends: in calls that wait or access files, also those of libmodbus,
piControl and `syslog`. These are more places than `ThreadPoint` has, where the accesses of
piControl to its device file are no cancellation points: what holds of all runs here holds in
either case. -/
def isCancellationPoint : ContextPoint → Bool
  | newContext | setErrorRecovery | freeUnconnected | freeContext | ended => false
  | _ => true

/-- The handler is pushed between these two points. -/
def pushesHandler (eProtocol : EModbusProtocol) (p next : ContextPoint) : Bool :=
  match eProtocol with
  | .protTCP => p = newContext ∧ next = setErrorRecovery
  | .protRTU => p = connect ∧ next = initScheduler

end ContextPoint

/-- A thread, the context it may have created, and whether its handler is pushed. -/
structure ContextState where
  point : ContextPoint
  context : Ledger Unit
  handler : Bool
  deriving DecidableEq

/-- The thread before its first step. -/
def ContextState.start (eProtocol : EModbusProtocol) : ContextState :=
  ⟨.start eProtocol, .empty, false⟩

/-- What a point does to the context, on the way to the next one. -/
def contextCall (p next : ContextPoint) (context : Ledger Unit) : Ledger Unit :=
  match p with
  | .newContext => if next = .setErrorRecovery then context.acquire () else context
  | .setErrorRecovery | .connect | .closeContext | .setTimeouts | .setSlave | .processModbusAction
  | .restart => context.use ()
  | .freeUnconnected | .freeContext => context.release ()
  | _ => context

/-- `cleanupTcpMasterThread` and `cleanupRtuMasterThread`. -/
def cleanupMasterThread (context : Ledger Unit) : Ledger Unit :=
  (context.use ()).release ()

/-- The end of a thread, which runs the handler if it is pushed. -/
def ContextState.exit (s : ContextState) : ContextState where
  point := .ended
  context := if s.handler then cleanupMasterThread s.context else s.context
  handler := false

/-- A step of the thread to the next point, or its cancellation. -/
inductive ContextLabel
  | go (next : ContextPoint)
  | cancel
  deriving DecidableEq, Repr

/-- One step; it is `none` where it is not possible. -/
def contextStep (eProtocol : EModbusProtocol) (s : ContextState) :
    ContextLabel → Option ContextState
  | .go next =>
    if next ∈ ContextPoint.successors eProtocol s.point then
      let s' : ContextState :=
        { point := next
          context := contextCall s.point next s.context
          handler := s.handler || s.point.pushesHandler eProtocol next }
      if next = .ended then some s'.exit else some s'
    else none
  | .cancel => if s.point.isCancellationPoint then some s.exit else none

/-- No call takes a context that is not there, and once the thread has ended, its context is
freed. -/
def ReleasedOnce (s : ContextState) : Prop :=
  s.context.Clean ∧ (s.point = .ended → s.context.held = ∅)

instance (s : ContextState) : Decidable (ReleasedOnce s) := inferInstanceAs (Decidable (_ ∧ _))

/-! ## The context at each point -/

/-- Whether the context exists, and whether the handler is pushed. -/
inductive ContextStage
  | none
  | unguarded
  | guarded
  /-- The context is freed, and the handler is still pushed. -/
  | doomed
  deriving DecidableEq, Repr

/-- The stage at each point of a thread that has not ended. -/
def ContextPoint.stage (eProtocol : EModbusProtocol) : ContextPoint → ContextStage
  | waitDevice | setprio | newContext | noContext | unconnected | ended => .none
  | setErrorRecovery | recoveryFailed | connect | connectFailed | freeUnconnected =>
    match eProtocol with
    | .protTCP => .guarded
    | .protRTU => .unguarded
  | exit =>
    match eProtocol with
    | .protTCP => .guarded
    | .protRTU => .doomed
  | _ => .guarded

/-- The ledger at a stage. -/
def ContextStage.context : ContextStage → Ledger Unit
  | .none | .doomed => ⟨∅, false⟩
  | .unguarded | .guarded => ⟨{()}, false⟩

/-- Whether the handler is pushed. -/
def ContextStage.handler : ContextStage → Bool
  | .none | .unguarded => false
  | .guarded | .doomed => true

/-- The invariant of a run without a gap: each point has its stage. -/
def ContextInv (eProtocol : EModbusProtocol) (s : ContextState) : Prop :=
  if s.point = .ended then s.context.Settled
  else s.context = (s.point.stage eProtocol).context ∧
    s.handler = (s.point.stage eProtocol).handler

/-- An RTU thread is not cancelled between `modbus_new_rtu` and `pthread_cleanup_push`, and it does
not end after `initScheduler` has failed, where it has freed the context behind its handler. -/
def EndsOutsideGap (eProtocol : EModbusProtocol) (s : ContextState) (l : ContextLabel) : Prop :=
  eProtocol = .protRTU → s.point ≠ .exit ∧
    (l = .cancel → s.point ≠ .recoveryFailed ∧ s.point ≠ .connect ∧ s.point ≠ .connectFailed)

variable {eProtocol : EModbusProtocol} {s s' : ContextState} {l : ContextLabel}

/-- The calls lead from the stage of one point to that of the next. -/
theorem stage_of_successor (p : ContextPoint) :
    ∀ next ∈ ContextPoint.successors eProtocol p, next ≠ .ended →
      contextCall p next (p.stage eProtocol).context = (next.stage eProtocol).context ∧
        ((p.stage eProtocol).handler || p.pushesHandler eProtocol next) =
          (next.stage eProtocol).handler := by
  cases eProtocol <;> cases p <;> decide

/-- The points from which a thread returns. -/
theorem returns_of_successor {p : ContextPoint} :
    .ended ∈ ContextPoint.successors eProtocol p →
      p = .noContext ∨ p = .unconnected ∨ p = .exit := by
  cases eProtocol <;> cases p <;> decide

/-- They make no call, and push no handler. -/
theorem ended_of_successor {p : ContextPoint}
    (h : .ended ∈ ContextPoint.successors eProtocol p) (context : Ledger Unit) :
    contextCall p .ended context = context ∧ p.pushesHandler eProtocol .ended = false := by
  rcases returns_of_successor h with rfl | rfl | rfl <;>
    exact ⟨rfl, by cases eProtocol <;> rfl⟩

/-- A thread does not go on from its end, and is not cancelled there. -/
theorem point_ne_ended (hs : contextStep eProtocol s l = some s') : s.point ≠ .ended := by
  intro hend
  cases l with
  | go next =>
    rw [contextStep, hend] at hs
    cases eProtocol <;> cases hs
  | cancel =>
    rw [contextStep, hend] at hs
    cases hs

/-- The steps: to the next point, or to the end, from a point that allows it. -/
theorem contextStep_cases (hs : contextStep eProtocol s l = some s') :
    (∃ next ∈ ContextPoint.successors eProtocol s.point, next ≠ .ended ∧ l = .go next ∧
      s' = { point := next
             context := contextCall s.point next s.context
             handler := s.handler || s.point.pushesHandler eProtocol next }) ∨
    (s' = s.exit ∧ (l = .go .ended ∧ .ended ∈ ContextPoint.successors eProtocol s.point ∨
      l = .cancel ∧ s.point.isCancellationPoint)) := by
  cases l with
  | go next =>
    simp only [contextStep, Option.ite_none_right_eq_some] at hs
    obtain ⟨hnext, hs⟩ := hs
    by_cases hend : next = .ended
    · subst hend
      obtain ⟨hcall, hpush⟩ := ended_of_successor hnext s.context
      rw [if_pos rfl, hcall, hpush, Bool.or_false] at hs
      cases hs
      exact .inr ⟨rfl, .inl ⟨rfl, hnext⟩⟩
    · rw [if_neg hend] at hs
      cases hs
      exact .inl ⟨next, hnext, hend, rfl, rfl⟩
  | cancel =>
    simp only [contextStep, Option.ite_none_right_eq_some] at hs
    obtain ⟨hpoint, hs⟩ := hs
    cases hs
    exact .inr ⟨rfl, .inr ⟨rfl, hpoint⟩⟩

/-- Where a thread may end, its condition excludes exactly the stages without their handler. -/
theorem endsOutsideGap_iff (hend : l = .go .ended ∧
    .ended ∈ ContextPoint.successors eProtocol s.point ∨
      l = .cancel ∧ s.point.isCancellationPoint) :
    EndsOutsideGap eProtocol s l ↔
      s.point.stage eProtocol ≠ .unguarded ∧ s.point.stage eProtocol ≠ .doomed := by
  unfold EndsOutsideGap
  obtain ⟨rfl, hmem⟩ | ⟨rfl, hpoint⟩ := hend
  · revert hmem
    cases eProtocol <;> cases s.point <;> decide
  · revert hpoint
    cases eProtocol <;> cases s.point <;> decide

/-- The end at a stage frees the context once, except at the stages without their handler. -/
theorem exit_settled_iff (h : s.context = (s.point.stage eProtocol).context ∧
    s.handler = (s.point.stage eProtocol).handler) :
    s.exit.context.Settled ↔
      s.point.stage eProtocol ≠ .unguarded ∧ s.point.stage eProtocol ≠ .doomed := by
  rw [ContextState.exit, h.1, h.2]
  cases s.point.stage eProtocol <;> decide

theorem contextInv_start : ContextInv eProtocol (.start eProtocol) := by
  cases eProtocol <;> exact ⟨rfl, rfl⟩

theorem ContextInv.releasedOnce (h : ContextInv eProtocol s) : ReleasedOnce s := by
  unfold ContextInv at h
  split_ifs at h with hend
  · exact ⟨h.1, fun _ => h.2⟩
  · refine ⟨?_, fun hend' => absurd hend' hend⟩
    rw [h.1]
    cases s.point.stage eProtocol <;> rfl

theorem ContextInv.step (h : ContextInv eProtocol s) (hs : contextStep eProtocol s l = some s')
    (hok : EndsOutsideGap eProtocol s l) : ContextInv eProtocol s' := by
  unfold ContextInv at h ⊢
  rw [if_neg (point_ne_ended hs)] at h
  obtain ⟨next, hnext, hne, rfl, rfl⟩ | ⟨rfl, hend⟩ := contextStep_cases hs
  · rw [if_neg hne, h.1, h.2]
    exact stage_of_successor s.point next hnext hne
  · rw [if_pos (by rfl)]
    exact (exit_settled_iff h).mpr ((endsOutsideGap_iff hend).mp hok)

theorem ContextInv.not_releasedOnce (h : ContextInv eProtocol s)
    (hs : contextStep eProtocol s l = some s') (hbad : ¬ EndsOutsideGap eProtocol s l) :
    ¬ ReleasedOnce s' := by
  unfold ContextInv at h
  rw [if_neg (point_ne_ended hs)] at h
  obtain ⟨next, hnext, hne, rfl, rfl⟩ | ⟨rfl, hend⟩ := contextStep_cases hs
  · -- a thread goes on from all other points
    refine absurd ?_ hbad
    intro hrtu
    refine ⟨?_, fun hl => by cases hl⟩
    intro hexit
    rw [hexit, hrtu] at hnext
    exact hne (List.mem_singleton.mp hnext)
  · intro hreleased
    exact hbad ((endsOutsideGap_iff hend).mpr
      ((exit_settled_iff h).mp ⟨hreleased.1, hreleased.2 rfl⟩))

/-- The context of a TCP master is freed once in every run. -/
theorem contextReleasedOnce_tcp (labels : List ContextLabel) :
    Throughout (contextStep .protTCP) ReleasedOnce (.start .protTCP) labels :=
  (throughout_of_invariant (fun _ _ _ h hs => ContextInv.step h hs fun hrtu => by cases hrtu)
    contextInv_start labels).imp fun _ h => ContextInv.releasedOnce h

/-- **The context of a master thread.** In a run of the thread, with any outcome of its calls, any
number of reconnects and a cancellation anywhere, the context is freed exactly once and not used
after that exactly when the thread does not end in one of the gaps of `startRtuMasterThread`. -/
theorem contextReleasedOnce_iff (eProtocol : EModbusProtocol) (labels : List ContextLabel) :
    Throughout (contextStep eProtocol) ReleasedOnce (.start eProtocol) labels ↔
      Along (contextStep eProtocol) (EndsOutsideGap eProtocol) (.start eProtocol) labels :=
  throughout_iff_along (fun _ h => ContextInv.releasedOnce h)
    (fun _ _ _ h hs hok => ContextInv.step h hs hok)
    (fun _ _ _ h hs hbad => ContextInv.not_releasedOnce h hs hbad) contextInv_start labels

/-- The RTU thread of a device without actions, which connects and then cannot initialise its
scheduler. -/
def rtuWithoutActions : List ContextLabel :=
  [.go .setprio, .go .newContext, .go .setErrorRecovery, .go .connect, .go .initScheduler,
    .go .schedulerFailed, .go .closeContext, .go .freeContext, .go .exit, .go .ended]

/-- `initScheduler` fails without actions, and the handler then closes and frees the context for the
second time. -/
theorem not_contextReleasedOnce_rtuWithoutActions :
    (∀ malloc currentTime, initScheduler malloc currentTime [] = .ok (-1, [])) ∧
      ¬ Throughout (contextStep .protRTU) ReleasedOnce (.start .protRTU) rtuWithoutActions := by
  refine ⟨fun _ _ => rfl, fun h => ?_⟩
  have hrun : run (contextStep .protRTU) (.start .protRTU) rtuWithoutActions =
      some { point := .ended, context := ⟨∅, true⟩, handler := false } := by decide
  exact absurd (h.last hrun).1 (by decide)

end RevPiModbus
