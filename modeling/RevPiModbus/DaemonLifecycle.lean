import RevPiModbus.PiModbusMaster

/-!
# The generations of the two daemons

`piModbusMaster.c` and `piModbusSlave.c`: main reads the configuration into a list of entries,
starts one thread for each with a pointer into it, waits for a reset event, cancels the threads,
frees the entries, and begins again. It joins no thread. The mutex of the masters only takes
interleavings away, so it is left out.

* `SlaveThreadPoint`: the control flow of the threads of `ModbusSlaveThread.c`;
* `ThreadCode`, `DaemonProgram`, `piModbusMasterProgram`, `piModbusSlaveProgram`: the two daemons;
* `LifecycleState`, `LifecycleLabel`, `lifecycleStep`: main and its threads, in any interleaving;
* `OwnershipKept`: main cancels only what it has started, and frees only what nobody uses;
* `FreesAfterThreads`: main frees an entry after the steps in which its threads terminate;
* `ownershipKept_iff`: the runs in which that is so.
-/

namespace RevPiModbus

open Transition

/-! ## The threads -/

/-- What a slave thread is about to do. -/
inductive SlaveThreadPoint
  /-- `access` to the serial device. -/
  | waitDevice
  | waitSleep
  | mappingNew
  | newContext
  /-- `modbus_tcp_pi_listen`. -/
  | listen
  /-- The five seconds after a failed `modbus_tcp_pi_listen`. -/
  | retrySleep
  | setSlave
  /-- `modbus_connect`. -/
  | connect
  | select
  /-- The loop over the descriptors. -/
  | scan
  | accept
  /-- `modbus_receive`. -/
  | receive
  | readImage
  /-- `modbus_reply`. -/
  | reply
  | writeImage
  /-- `close` of a client. -/
  | close
  /-- `close` of the server after a failed `select`. -/
  | closeServer
  /-- The thread has called `pthread_exit`, or acted on its cancellation. -/
  | ended
  /-- `syslog`, and what follows it. -/
  | syslog (next : SlaveThreadPoint)
  deriving DecidableEq, Repr

namespace SlaveThreadPoint

/-- `startTcpSlaveThread` and `startRtuSlaveThread` up to their first step. -/
def start : EModbusProtocol → SlaveThreadPoint
  | .protTCP => mappingNew
  | .protRTU => waitDevice

/-- What follows a call of `process_modbus_request`. -/
def nextRequest : EModbusProtocol → SlaveThreadPoint
  | .protTCP => scan
  | .protRTU => receive

/-- What follows a call of `process_modbus_request` that has failed. -/
def afterFailure : EModbusProtocol → SlaveThreadPoint
  | .protTCP => syslog (syslog close)
  | .protRTU => syslog receive

/-- The control flow of the threads. -/
def successors (eProtocol : EModbusProtocol) : SlaveThreadPoint → List SlaveThreadPoint
  | waitDevice => [waitSleep, syslog waitSleep, syslog mappingNew]
  | waitSleep => [waitDevice]
  | mappingNew => [newContext, syslog ended]
  | newContext =>
    match eProtocol with
    | .protTCP => [listen, syslog ended]
    | .protRTU => [setSlave, syslog ended]
  | listen => [syslog select, syslog retrySleep]
  | retrySleep => [listen]
  | setSlave => [connect, syslog ended]
  | connect => [receive, syslog ended]
  | select => [scan, syslog closeServer]
  | scan => [scan, select, syslog accept, syslog receive]
  | accept => [syslog scan]
  | receive => [readImage, reply, nextRequest eProtocol, afterFailure eProtocol]
  | readImage => [reply, syslog reply]
  | reply => [writeImage, nextRequest eProtocol, afterFailure eProtocol]
  | writeImage => [nextRequest eProtocol, syslog (nextRequest eProtocol)]
  | close => [scan]
  | closeServer => [ended]
  | ended => []
  | syslog next => [next]

/-- Where a thread with a pending cancellation acts on it. -/
def isCancellationPoint : SlaveThreadPoint → Bool
  | waitSleep | retrySleep | connect | select | accept | receive | reply | close | closeServer
  | syslog _ => true
  | _ => false

end SlaveThreadPoint

/-- The code that the threads of a daemon run. -/
structure ThreadCode where
  Point : Type
  [decEq : DecidableEq Point]
  start : EModbusProtocol → Point
  successors : EModbusProtocol → Point → List Point
  isCancellationPoint : Point → Bool
  ended : Point
  successors_ended : ∀ eProtocol, successors eProtocol ended = []
  start_ne_ended : ∀ eProtocol, start eProtocol ≠ ended

attribute [instance] ThreadCode.decEq

/-- The threads of `ModbusMasterThread.c`. -/
def masterThreadCode : ThreadCode where
  Point := ThreadPoint
  start := ThreadPoint.start
  successors := ThreadPoint.successors
  isCancellationPoint := ThreadPoint.isCancellationPoint
  ended := .ended
  successors_ended _ := rfl
  start_ne_ended eProtocol := by cases eProtocol <;> decide

/-- The threads of `ModbusSlaveThread.c`. -/
def slaveThreadCode : ThreadCode where
  Point := SlaveThreadPoint
  start := SlaveThreadPoint.start
  successors := SlaveThreadPoint.successors
  isCancellationPoint := SlaveThreadPoint.isCancellationPoint
  ended := .ended
  successors_ended _ := rfl
  start_ne_ended eProtocol := by cases eProtocol <;> decide

/-! ## Main -/

/-- A handle in `pThreads`. -/
inductive Handle
  | zero
  | thread (i : ℕ)
  /-- Not the handle of any thread, and not 0. -/
  | undefined
  deriving DecidableEq, Repr

/-- What `pthread_create` does. If it fails, the contents of the location for the handle are
undefined. -/
inductive CreateResult
  | created
  | failedZero
  | failedUndefined
  deriving DecidableEq, Repr

/-- An element of `pThreads`, and whether its `pthread_create` has succeeded. -/
structure ThreadSlot where
  handle : Handle
  created : Bool
  deriving DecidableEq, Repr

/-- The places in which the two programs differ. -/
structure DaemonProgram where
  code : ThreadCode
  /-- `pThreads[i] = 0` after a failed `pthread_create`. -/
  clearsAfterFailure : Bool
  /-- `if (pThreads[i])` before `pthread_cancel`. -/
  checksHandle : Bool

/-- `main` of `piModbusMaster.c`. Its `pThreads[i] = 0` stands before `pthread_create`, which sets
the location again. -/
def piModbusMasterProgram : DaemonProgram where
  code := masterThreadCode
  clearsAfterFailure := false
  checksHandle := true

/-- `main` of `piModbusSlave.c`. -/
def piModbusSlaveProgram : DaemonProgram where
  code := slaveThreadCode
  clearsAfterFailure := true
  checksHandle := false

/-- A thread, with the entry that it has got a pointer into. -/
structure Worker (code : ThreadCode) where
  generation : ℕ
  entry : ℕ
  eProtocol : EModbusProtocol
  point : code.Point
  cancelled : Bool

/-- What main is about to do: create threads for the rest of the entries and then wait for a reset,
or cancel the rest of the threads and then free the entries and read the configuration. -/
inductive LifecyclePoint
  | create (rest : List (EModbusProtocol × ℕ))
  | cancel (rest : List ThreadSlot)

/-- The process. The entries are numbered as they are allocated; `freed` and `cancelCalls` record
the calls of `free` and, with their generation, of `pthread_cancel`. -/
structure LifecycleState (code : ThreadCode) where
  main : LifecyclePoint
  generation : ℕ
  allocated : ℕ
  confHead : List (EModbusProtocol × ℕ)
  pThreads : List ThreadSlot
  threads : List (Worker code)
  freed : List ℕ
  cancelCalls : List (ℕ × Handle)

/-- The state in which main starts. -/
def LifecycleState.start (code : ThreadCode) : LifecycleState code where
  main := .cancel []
  generation := 0
  allocated := 0
  confHead := []
  pThreads := []
  threads := []
  freed := []
  cancelCalls := []

/-- A step of the process. -/
inductive LifecycleLabel (code : ThreadCode)
  /-- The configuration is read, and has the given devices. -/
  | parse (entries : List EModbusProtocol)
  /-- `pthread_create`. -/
  | create (result : CreateResult)
  /-- `piControlWaitForEvent` returns `KB_EVENT_RESET`. -/
  | reset
  /-- A step of the loop with `pthread_cancel`. -/
  | cancel
  /-- The first entry of the list is removed and freed, with its actions. -/
  | free
  /-- A thread does what it is about to do, and goes on to `next`. -/
  | advance (thread : ℕ) (next : code.Point)
  /-- A thread acts on its cancellation. -/
  | actOnCancel (thread : ℕ)

/-- The element of `pThreads` after `pthread_create`, where `i` is the number of the new thread. -/
def DaemonProgram.slot (program : DaemonProgram) (i : ℕ) : CreateResult → ThreadSlot
  | .created => { handle := .thread i, created := true }
  | .failedZero => { handle := .zero, created := false }
  | .failedUndefined =>
    { handle := if program.clearsAfterFailure then .zero else .undefined, created := false }

/-- Main passes over the element without `pthread_cancel`. -/
def DaemonProgram.skips (program : DaemonProgram) (slot : ThreadSlot) : Bool :=
  program.checksHandle && slot.handle == .zero

/-- The pending cancellation of a thread. -/
def Worker.cancel {code : ThreadCode} (worker : Worker code) : Worker code :=
  { worker with cancelled := true }

/-- A thread goes on to a point. -/
def Worker.moveTo {code : ThreadCode} (next : code.Point) (worker : Worker code) : Worker code :=
  { worker with point := next }

/-- `pthread_cancel`. Nothing is known of its effect for a handle that is not that of a thread. -/
def cancelThread {code : ThreadCode} (handle : Handle) (threads : List (Worker code)) :
    List (Worker code) :=
  match handle with
  | .thread i => threads.modify i Worker.cancel
  | _ => threads

/-- The thread has a pending cancellation and acts on it. -/
def Worker.actsOnCancel {code : ThreadCode} (worker : Worker code) : Bool :=
  worker.cancelled && code.isCancellationPoint worker.point

/-- One step of the process. -/
def lifecycleStep (program : DaemonProgram) (s : LifecycleState program.code) :
    LifecycleLabel program.code → Option (LifecycleState program.code)
  | .parse entries =>
    match s.main, s.confHead with
    | .cancel [], [] => some { s with
        main := .create (entries.zipIdx s.allocated)
        generation := s.generation + 1
        allocated := s.allocated + entries.length
        confHead := entries.zipIdx s.allocated
        pThreads := [] }
    | _, _ => none
  | .create result =>
    match s.main with
    | .create ((eProtocol, entry) :: rest) => some { s with
        main := .create rest
        pThreads := s.pThreads ++ [program.slot s.threads.length result]
        threads := s.threads ++
          if result = .created then
            [{ generation := s.generation, entry := entry, eProtocol := eProtocol,
               point := program.code.start eProtocol, cancelled := false }]
          else [] }
    | _ => none
  | .reset =>
    match s.main with
    | .create [] => some { s with main := .cancel s.pThreads }
    | _ => none
  | .cancel =>
    match s.main with
    | .cancel (slot :: rest) =>
      if program.skips slot then some { s with main := .cancel rest }
      else some { s with
        main := .cancel rest
        threads := cancelThread slot.handle s.threads
        cancelCalls := (s.generation, slot.handle) :: s.cancelCalls }
    | _ => none
  | .free =>
    match s.main, s.confHead with
    | .cancel [], (_, entry) :: rest =>
      some { s with confHead := rest, freed := entry :: s.freed }
    | _, _ => none
  | .advance i next =>
    match s.threads[i]? with
    | some worker =>
      if !worker.actsOnCancel && next ∈ program.code.successors worker.eProtocol worker.point then
        some { s with threads := s.threads.modify i (Worker.moveTo next) }
      else none
    | none => none
  | .actOnCancel i =>
    match s.threads[i]? with
    | some worker =>
      if worker.actsOnCancel then
        some { s with threads := s.threads.modify i (Worker.moveTo program.code.ended) }
      else none
    | none => none

/-! ## What a step can do -/

variable {program : DaemonProgram} {s s' : LifecycleState program.code}
  {l : LifecycleLabel program.code}

/-- The steps of main and of the threads, with what each of them needs and changes. -/
inductive LifecycleStep (s : LifecycleState program.code) :
    LifecycleLabel program.code → LifecycleState program.code → Prop
  | parse (entries : List EModbusProtocol) (hmain : s.main = .cancel []) (hconf : s.confHead = []) :
    LifecycleStep s (.parse entries) { s with
      main := .create (entries.zipIdx s.allocated)
      generation := s.generation + 1
      allocated := s.allocated + entries.length
      confHead := entries.zipIdx s.allocated
      pThreads := [] }
  | create (eProtocol : EModbusProtocol) (entry : ℕ) (rest : List (EModbusProtocol × ℕ))
    (result : CreateResult) (hmain : s.main = .create ((eProtocol, entry) :: rest)) :
    LifecycleStep s (.create result) { s with
      main := .create rest
      pThreads := s.pThreads ++ [program.slot s.threads.length result]
      threads := s.threads ++
        if result = .created then
          [{ generation := s.generation, entry := entry, eProtocol := eProtocol,
             point := program.code.start eProtocol, cancelled := false }]
        else [] }
  | reset (hmain : s.main = .create []) :
    LifecycleStep s .reset { s with main := .cancel s.pThreads }
  | skip (slot : ThreadSlot) (rest : List ThreadSlot) (hmain : s.main = .cancel (slot :: rest))
    (hskips : program.skips slot = true) :
    LifecycleStep s .cancel { s with main := .cancel rest }
  | cancel (slot : ThreadSlot) (rest : List ThreadSlot) (hmain : s.main = .cancel (slot :: rest))
    (hskips : ¬ program.skips slot = true) :
    LifecycleStep s .cancel { s with
      main := .cancel rest
      threads := cancelThread slot.handle s.threads
      cancelCalls := (s.generation, slot.handle) :: s.cancelCalls }
  | free (device : EModbusProtocol) (entry : ℕ) (rest : List (EModbusProtocol × ℕ))
    (hmain : s.main = .cancel []) (hconf : s.confHead = (device, entry) :: rest) :
    LifecycleStep s .free { s with confHead := rest, freed := entry :: s.freed }
  | advance (i : ℕ) (next : program.code.Point) (worker : Worker program.code)
    (hworker : s.threads[i]? = some worker)
    (hnext : next ∈ program.code.successors worker.eProtocol worker.point) :
    LifecycleStep s (.advance i next) { s with threads := s.threads.modify i (Worker.moveTo next) }
  | actOnCancel (i : ℕ) (worker : Worker program.code) (hworker : s.threads[i]? = some worker) :
    LifecycleStep s (.actOnCancel i)
      { s with threads := s.threads.modify i (Worker.moveTo program.code.ended) }

theorem lifecycleStep_cases (hs : lifecycleStep program s l = some s') : LifecycleStep s l s' := by
  cases l with
  | parse entries =>
    simp only [lifecycleStep] at hs
    split at hs
    · rename_i hmain hconf
      cases hs
      exact .parse entries hmain hconf
    · cases hs
  | create result =>
    simp only [lifecycleStep] at hs
    split at hs
    · rename_i eProtocol entry rest hmain
      cases hs
      exact .create eProtocol entry rest result hmain
    · cases hs
  | reset =>
    simp only [lifecycleStep] at hs
    split at hs
    · rename_i hmain
      cases hs
      exact .reset hmain
    · cases hs
  | cancel =>
    simp only [lifecycleStep] at hs
    split at hs
    · rename_i slot rest hmain
      split_ifs at hs with hskips
      · cases hs
        exact .skip slot rest hmain hskips
      · cases hs
        exact .cancel slot rest hmain hskips
    · cases hs
  | free =>
    simp only [lifecycleStep] at hs
    split at hs
    · rename_i device entry rest hmain hconf
      cases hs
      exact .free device entry rest hmain hconf
    · cases hs
  | advance i next =>
    simp only [lifecycleStep] at hs
    split at hs
    · rename_i worker hworker
      split_ifs at hs with hguard
      cases hs
      simp only [Bool.and_eq_true, decide_eq_true_eq] at hguard
      exact .advance i next worker hworker hguard.2
    · cases hs
  | actOnCancel i =>
    simp only [lifecycleStep] at hs
    split at hs
    · rename_i worker hworker
      split_ifs at hs
      cases hs
      exact .actOnCancel i worker hworker
    · cases hs

/-! ## What is kept -/

/-- Every call of `pthread_cancel` was for a thread of its generation, and no thread with a pointer
into an entry that has been freed can take another step. -/
structure OwnershipKept (s : LifecycleState program.code) : Prop where
  cancels : ∀ call ∈ s.cancelCalls, ∃ i worker, call.2 = .thread i ∧
    s.threads[i]? = some worker ∧ worker.generation = call.1
  frees : ∀ (i : ℕ) worker, s.threads[i]? = some worker → worker.entry ∈ s.freed →
    worker.point = program.code.ended

/-- The `pthread_create` of the element that main comes to has succeeded, or main passes over it. -/
def CancelsCreated (program : DaemonProgram) (s : LifecycleState program.code) : Prop :=
  ∀ slot rest, s.main = .cancel (slot :: rest) →
    slot.created = true ∨ program.checksHandle = true ∧ slot.handle = .zero

/-- Main calls `pthread_cancel` only for an element whose `pthread_create` has succeeded, and frees
an entry only after the threads that were started with it have ended. -/
def KeepsOwnership (program : DaemonProgram) (s : LifecycleState program.code) :
    LifecycleLabel program.code → Prop
  | .cancel => CancelsCreated program s
  | .free => ∀ device rest, s.confHead = device :: rest →
      ∀ (i : ℕ) worker, s.threads[i]? = some worker → worker.entry = device.2 →
        worker.point = program.code.ended
  | _ => True

/-- An element of `pThreads` has the handle of a thread of the generation if its `pthread_create`
has succeeded, and no handle of a thread otherwise. -/
def SlotOf (s : LifecycleState program.code) (slot : ThreadSlot) : Prop :=
  if slot.created then ∃ i worker, slot.handle = .thread i ∧ s.threads[i]? = some worker ∧
    worker.generation = s.generation
  else ∀ i, slot.handle ≠ .thread i

/-- The invariant of a run. -/
structure LifecycleInv (s : LifecycleState program.code) : Prop extends OwnershipKept s where
  slots : ∀ slot ∈ s.pThreads, SlotOf s slot
  cancelling : ∀ rest, s.main = .cancel rest → ∀ slot ∈ rest, slot ∈ s.pThreads
  creating : ∀ rest, s.main = .create rest → ∀ device ∈ rest, device ∈ s.confHead
  freed_lt : ∀ entry ∈ s.freed, entry < s.allocated
  conf_lt : ∀ device ∈ s.confHead, device.2 < s.allocated
  conf_notMem : ∀ device ∈ s.confHead, device.2 ∉ s.freed
  conf_nodup : (s.confHead.map Prod.snd).Nodup

theorem lifecycleInv_start (program : DaemonProgram) :
    @LifecycleInv program (.start program.code) := by
  refine ⟨⟨?_, ?_⟩, ?_, ?_, ?_, ?_, ?_, ?_, ?_⟩ <;> simp [LifecycleState.start]

/-- The threads are the same, one more, or the same but for one that has been cancelled or has gone
on, and the ended ones have not. -/
inductive ThreadsStep (s : LifecycleState program.code) (threads : List (Worker program.code)) :
    Prop
  | same (h : threads = s.threads)
  | created (worker : Worker program.code) (h : threads = s.threads ++ [worker])
      (hentry : worker.entry ∉ s.freed)
  | modified (i : ℕ) (f : Worker program.code → Worker program.code)
      (h : threads = s.threads.modify i f) (hgeneration : ∀ w, (f w).generation = w.generation)
      (hentry : ∀ w, (f w).entry = w.entry)
      (hended : ∀ w, s.threads[i]? = some w → w.point = program.code.ended →
        (f w).point = program.code.ended)

/-- A thread is still there, in its generation. -/
theorem ThreadsStep.generation {threads : List (Worker program.code)} (h : ThreadsStep s threads)
    {i : ℕ} {worker : Worker program.code} (hworker : s.threads[i]? = some worker) :
    ∃ worker', threads[i]? = some worker' ∧ worker'.generation = worker.generation := by
  cases h with
  | same h => exact ⟨worker, h ▸ hworker, rfl⟩
  | created new h _ =>
    have hlt : i < s.threads.length := (List.getElem?_eq_some_iff.mp hworker).1
    refine ⟨worker, ?_, rfl⟩
    rw [h, List.getElem?_append_left hlt, hworker]
  | modified j f h hgeneration _ _ =>
    rw [h, List.getElem?_modify, hworker]
    by_cases hj : j = i
    · exact ⟨f worker, by simp [hj], hgeneration worker⟩
    · exact ⟨worker, by simp [hj], rfl⟩

/-- A thread with a pointer into an entry that has been freed does not come to life. -/
theorem ThreadsStep.ended {threads : List (Worker program.code)} (h : ThreadsStep s threads)
    (hfrees : ∀ (i : ℕ) worker, s.threads[i]? = some worker → worker.entry ∈ s.freed →
      worker.point = program.code.ended)
    {i : ℕ} {worker : Worker program.code} (hworker : threads[i]? = some worker)
    (hfreed : worker.entry ∈ s.freed) : worker.point = program.code.ended := by
  cases h with
  | same h => exact hfrees i worker (h ▸ hworker) hfreed
  | created new h hnew =>
    rw [h, List.getElem?_append] at hworker
    split_ifs at hworker
    · exact hfrees i worker hworker hfreed
    · obtain rfl := List.mem_singleton.mp (List.mem_of_getElem? hworker)
      exact absurd hfreed hnew
  | modified j f h _ hentry hended =>
    rw [h, List.getElem?_modify] at hworker
    cases hold : s.threads[i]? with
    | none => simp [hold] at hworker
    | some old =>
      by_cases hj : j = i
      · subst hj
        simp only [hold, if_true] at hworker
        obtain rfl : f old = worker := Option.some.inj hworker
        rw [hentry] at hfreed
        exact hended old hold (hfrees j old hold hfreed)
      · simp only [hold, hj, if_false] at hworker
        obtain rfl : old = worker := Option.some.inj hworker
        exact hfrees i old hold hfreed

/-- What has been kept stays so if no entry is freed and only threads of the generation are
cancelled. -/
theorem OwnershipKept.threadsStep (h : OwnershipKept s) (hthreads : ThreadsStep s s'.threads)
    (hfreed : s'.freed = s.freed)
    (hcalls : ∀ call ∈ s'.cancelCalls, call ∈ s.cancelCalls ∨ ∃ i worker, call.2 = .thread i ∧
      s.threads[i]? = some worker ∧ worker.generation = call.1) : OwnershipKept s' := by
  constructor
  · intro call hcall
    have hvalid : ∃ i worker, call.2 = .thread i ∧ s.threads[i]? = some worker ∧
        worker.generation = call.1 := (hcalls call hcall).elim (h.cancels call) id
    obtain ⟨i, worker, hhandle, hworker, hgeneration⟩ := hvalid
    obtain ⟨worker', hworker', hgeneration'⟩ := hthreads.generation hworker
    exact ⟨i, worker', hhandle, hworker', hgeneration'.trans hgeneration⟩
  · intro i worker hworker hmem
    exact hthreads.ended h.frees hworker (hfreed ▸ hmem)

theorem SlotOf.threadsStep {slot : ThreadSlot} (h : SlotOf s slot)
    (hthreads : ThreadsStep s s'.threads) (hgeneration : s'.generation = s.generation) :
    SlotOf s' slot := by
  unfold SlotOf at h ⊢
  split_ifs at h ⊢
  · obtain ⟨i, worker, hhandle, hworker, hworkerGeneration⟩ := h
    obtain ⟨worker', hworker', heq⟩ := hthreads.generation hworker
    exact ⟨i, worker', hhandle, hworker', by rw [heq, hworkerGeneration, hgeneration]⟩
  · exact h

/-- A step that changes nothing but the threads. -/
theorem LifecycleInv.threads (h : LifecycleInv s) {threads : List (Worker program.code)}
    (hthreads : ThreadsStep s threads) : LifecycleInv { s with threads := threads } where
  toOwnershipKept := h.toOwnershipKept.threadsStep hthreads rfl fun _ hcall => .inl hcall
  slots slot hslot := (h.slots slot hslot).threadsStep hthreads rfl
  cancelling := h.cancelling
  creating := h.creating
  freed_lt := h.freed_lt
  conf_lt := h.conf_lt
  conf_notMem := h.conf_notMem
  conf_nodup := h.conf_nodup

/-- A pending cancellation and a step along the control flow. -/
theorem threadsStep_cancelThread (s : LifecycleState program.code) (handle : Handle) :
    ThreadsStep s (cancelThread handle s.threads) := by
  cases handle with
  | thread i =>
    exact .modified i Worker.cancel rfl (fun _ => rfl) (fun _ => rfl) fun _ _ hended => hended
  | zero => exact .same rfl
  | undefined => exact .same rfl

theorem threadsStep_moveTo {i : ℕ} {next : program.code.Point}
    (hnext : ∀ w, s.threads[i]? = some w → w.point = program.code.ended →
      next = program.code.ended) :
    ThreadsStep s (s.threads.modify i (Worker.moveTo next)) :=
  .modified i _ rfl (fun _ => rfl) (fun _ => rfl) hnext

/-- An ended thread does not go on. -/
theorem not_mem_successors_of_ended {code : ThreadCode} {eProtocol : EModbusProtocol}
    {p next : code.Point} (hp : p = code.ended) : next ∉ code.successors eProtocol p := by
  rw [hp, code.successors_ended]
  exact List.not_mem_nil

/-- A call of `pthread_create` for an entry of the list. -/
theorem LifecycleInv.create (h : LifecycleInv s) {eProtocol : EModbusProtocol} {entry : ℕ}
    {rest : List (EModbusProtocol × ℕ)} {result : CreateResult}
    (hdevice : (eProtocol, entry) ∈ s.confHead) (hrest : ∀ device ∈ rest, device ∈ s.confHead) :
    LifecycleInv { s with
      main := .create rest
      pThreads := s.pThreads ++ [program.slot s.threads.length result]
      threads := s.threads ++
        if result = .created then
          [{ generation := s.generation, entry := entry, eProtocol := eProtocol,
             point := program.code.start eProtocol, cancelled := false }]
        else [] } := by
  have hthreads : ThreadsStep s (s.threads ++
      if result = .created then
        [{ generation := s.generation, entry := entry, eProtocol := eProtocol,
           point := program.code.start eProtocol, cancelled := false }]
      else []) := by
    split_ifs
    · exact .created _ rfl (h.conf_notMem _ hdevice)
    · exact .same (List.append_nil _)
  refine ⟨h.toOwnershipKept.threadsStep hthreads rfl fun _ => .inl, fun slot hslot => ?_, ?_, ?_,
    h.freed_lt, h.conf_lt, h.conf_notMem, h.conf_nodup⟩
  · obtain hold | hnew := List.mem_append.mp hslot
    · exact (h.slots slot hold).threadsStep hthreads rfl
    · rw [List.mem_singleton.mp hnew]
      cases result with
      | created => exact ⟨s.threads.length, _, rfl, List.getElem?_concat_length, rfl⟩
      | failedZero => exact fun i hi => by cases hi
      | failedUndefined =>
        rintro i hi
        unfold DaemonProgram.slot at hi
        dsimp only at hi
        split_ifs at hi
  · rintro _ ⟨⟩
  · rintro _ ⟨⟩
    exact hrest

/-- A call of `pthread_cancel` for a thread of the generation. -/
theorem LifecycleInv.cancel (h : LifecycleInv s) {slot : ThreadSlot} {rest : List ThreadSlot}
    (hslot : slot ∈ s.pThreads) (hcreated : slot.created = true)
    (hrest : ∀ x ∈ rest, x ∈ s.pThreads) :
    LifecycleInv { s with
      main := .cancel rest
      threads := cancelThread slot.handle s.threads
      cancelCalls := (s.generation, slot.handle) :: s.cancelCalls } := by
  have hthreads := threadsStep_cancelThread s slot.handle
  have hof := h.slots slot hslot
  unfold SlotOf at hof
  rw [if_pos hcreated] at hof
  refine ⟨h.toOwnershipKept.threadsStep hthreads rfl fun call hcall => ?_,
    fun x hx => (h.slots x hx).threadsStep hthreads rfl, ?_, ?_, h.freed_lt, h.conf_lt,
    h.conf_notMem, h.conf_nodup⟩
  · obtain rfl | hold := List.mem_cons.mp hcall
    · exact .inr hof
    · exact .inl hold
  · rintro _ ⟨⟩
    exact hrest
  · rintro _ ⟨⟩

/-- The first entry is freed when its threads have ended. -/
theorem LifecycleInv.free (h : LifecycleInv s) {device : EModbusProtocol} {entry : ℕ}
    {rest : List (EModbusProtocol × ℕ)} (hmain : s.main = .cancel [])
    (hconf : s.confHead = (device, entry) :: rest)
    (hended : ∀ (i : ℕ) worker, s.threads[i]? = some worker → worker.entry = entry →
      worker.point = program.code.ended) :
    LifecycleInv { s with confHead := rest, freed := entry :: s.freed } := by
  have hrest : ∀ x ∈ rest, x ∈ s.confHead := fun x hx => by
    rw [hconf]
    exact List.mem_cons_of_mem _ hx
  have hnodup := h.conf_nodup
  rw [hconf, List.map_cons, List.nodup_cons] at hnodup
  refine ⟨⟨h.cancels, fun i worker hworker hfreed => ?_⟩, h.slots, h.cancelling, ?_,
    fun x hx => ?_, fun x hx => h.conf_lt x (hrest x hx), fun x hx hfreed => ?_, hnodup.2⟩
  · obtain heq | hold := List.mem_cons.mp hfreed
    · exact hended i worker hworker heq
    · exact h.frees i worker hworker hold
  · intro _ hcreate
    cases hmain.symm.trans hcreate
  · obtain rfl | hold := List.mem_cons.mp hx
    · exact h.conf_lt (device, x) (hconf ▸ List.mem_cons_self)
    · exact h.freed_lt x hold
  · obtain heq | hold := List.mem_cons.mp hfreed
    · exact hnodup.1 (List.mem_map.mpr ⟨x, hx, heq⟩)
    · exact h.conf_notMem x (hrest x hx) hold

/-- The element that main does not pass over has the handle of a thread. -/
theorem created_of_keepsOwnership {slot : ThreadSlot} {rest : List ThreadSlot}
    (hmain : s.main = .cancel (slot :: rest)) (hok : KeepsOwnership program s .cancel)
    (hskips : ¬ program.skips slot = true) : slot.created = true := by
  obtain hcreated | ⟨hchecks, hzero⟩ := hok slot rest hmain
  · exact hcreated
  · refine absurd ?_ hskips
    unfold DaemonProgram.skips
    rw [hchecks, hzero]
    rfl

/-- A step that keeps the ownership keeps the invariant. -/
theorem LifecycleInv.step (h : LifecycleInv s) (hs : LifecycleStep s l s')
    (hok : KeepsOwnership program s l) : LifecycleInv s' := by
  cases hs with
  | parse entries hmain hconf =>
    refine ⟨h.toOwnershipKept.threadsStep (.same rfl) rfl fun _ => .inl, by simp, ?_, ?_,
      fun entry hentry => ?_, fun device hdevice => ?_, fun device hdevice hfreed => ?_, ?_⟩
    · rintro rest ⟨⟩
    · rintro rest ⟨⟩
      exact fun _ => id
    · exact (h.freed_lt entry hentry).trans_le (Nat.le_add_right _ _)
    · have := List.mem_zipIdx hdevice
      show device.2 < s.allocated + entries.length
      omega
    · -- the new entries are numbered above all that have been freed
      have := (List.mem_zipIdx hdevice).1
      have := h.freed_lt device.2 hfreed
      omega
    · show ((entries.zipIdx s.allocated).map Prod.snd).Nodup
      rw [List.zipIdx_map_snd]
      exact List.nodup_range'
  | create eProtocol entry rest result hmain =>
    have hdevice := h.creating _ hmain (eProtocol, entry) List.mem_cons_self
    exact h.create hdevice fun device hrest =>
      h.creating _ hmain device (List.mem_cons_of_mem _ hrest)
  | reset hmain =>
    refine { h with cancelling := ?_, creating := ?_ }
    · rintro rest ⟨⟩
      exact fun _ => id
    · rintro rest ⟨⟩
  | skip slot rest hmain hskips =>
    refine { h with cancelling := ?_, creating := ?_ }
    · rintro _ ⟨⟩
      exact fun x hx => h.cancelling _ hmain x (List.mem_cons_of_mem _ hx)
    · rintro _ ⟨⟩
  | cancel slot rest hmain hskips =>
    have hslot := h.cancelling _ hmain slot List.mem_cons_self
    exact h.cancel hslot (created_of_keepsOwnership hmain hok hskips) fun x hx =>
      h.cancelling _ hmain x (List.mem_cons_of_mem _ hx)
  | free device entry rest hmain hconf => exact h.free hmain hconf (hok _ _ hconf)
  | advance i next worker hworker hnext =>
    -- a thread that has ended has nowhere to go on to
    refine h.threads (threadsStep_moveTo fun w hw hended => ?_)
    obtain rfl : worker = w := Option.some.inj (hworker.symm.trans hw)
    exact absurd hnext (not_mem_successors_of_ended hended)
  | actOnCancel i worker hworker => exact h.threads (threadsStep_moveTo fun _ _ _ => rfl)

/-- Any other step shows: a handle that is not that of a thread has been cancelled, or a thread goes
on with a pointer into memory that has been freed. -/
theorem LifecycleInv.not_ownershipKept (h : LifecycleInv s) (hs : LifecycleStep s l s')
    (hbad : ¬ KeepsOwnership program s l) : ¬ OwnershipKept s' := by
  cases hs with
  | skip slot rest hmain hskips =>
    refine absurd ?_ hbad
    intro slot' rest' hmain'
    cases hmain.symm.trans hmain'
    unfold DaemonProgram.skips at hskips
    rw [Bool.and_eq_true, beq_iff_eq] at hskips
    exact .inr hskips
  | cancel slot rest hmain hskips =>
    have hcreated : ¬ slot.created = true := by
      intro hcreated
      refine hbad fun slot' rest' hmain' => ?_
      cases hmain.symm.trans hmain'
      exact .inl hcreated
    have hof := h.slots slot (h.cancelling _ hmain slot List.mem_cons_self)
    unfold SlotOf at hof
    rw [if_neg hcreated] at hof
    intro hkept
    obtain ⟨i, -, hhandle, -⟩ := hkept.cancels (s.generation, slot.handle) List.mem_cons_self
    exact hof i hhandle
  | free device entry rest hmain hconf =>
    intro hkept
    refine hbad fun device' rest' hconf' i worker hworker hentry => ?_
    cases hconf.symm.trans hconf'
    exact hkept.frees i worker hworker (hentry ▸ List.mem_cons_self)
  | parse | create | reset | advance | actOnCancel => exact absurd trivial hbad

theorem ownershipKept_iff_along (program : DaemonProgram)
    (labels : List (LifecycleLabel program.code)) :
    Throughout (lifecycleStep program) OwnershipKept (.start program.code) labels ↔
      Along (lifecycleStep program) (KeepsOwnership program) (.start program.code) labels :=
  throughout_iff_along (fun _ h => h.toOwnershipKept)
    (fun _ _ _ h hs hok => h.step (lifecycleStep_cases hs) hok)
    (fun _ _ _ h hs hbad => h.not_ownershipKept (lifecycleStep_cases hs) hbad)
    (lifecycleInv_start program) labels

/-! ## The steps in which threads terminate -/

/-- The thread has acted on its cancellation, or has gone on to its end. -/
def HasTerminated {code : ThreadCode} (past : List (LifecycleLabel code)) (thread : ℕ) : Prop :=
  .actOnCancel thread ∈ past ∨ .advance thread code.ended ∈ past

/-- Main comes to no element of `pThreads` whose `pthread_create` has failed (as master, to none of
these that does not hold 0), and to no entry before the threads that were started with it have
terminated. -/
def FreesAfterThreads (program : DaemonProgram) (past : List (LifecycleLabel program.code))
    (s : LifecycleState program.code) : LifecycleLabel program.code → Prop
  | .cancel => CancelsCreated program s
  | .free => ∀ device rest, s.confHead = device :: rest →
      ∀ (i : ℕ) worker, s.threads[i]? = some worker → worker.entry = device.2 →
        HasTerminated past i
  | _ => True

/-- The thread is at its end. -/
def AtEnd {code : ThreadCode} (threads : List (Worker code)) (i : ℕ) : Prop :=
  ∃ worker, threads[i]? = some worker ∧ worker.point = code.ended

theorem atEnd_append {code : ThreadCode} {threads : List (Worker code)} {worker : Worker code}
    (hstart : worker.point ≠ code.ended) (i : ℕ) :
    AtEnd (threads ++ [worker]) i ↔ AtEnd threads i := by
  unfold AtEnd
  rw [List.getElem?_append]
  split_ifs with hi
  · rfl
  · constructor
    · rintro ⟨w, hw, hend⟩
      obtain rfl := List.mem_singleton.mp (List.mem_of_getElem? hw)
      exact absurd hend hstart
    · rintro ⟨w, hw, -⟩
      exact absurd (List.getElem?_eq_some_iff.mp hw).1 hi

theorem atEnd_cancelThread {code : ThreadCode} (handle : Handle) (threads : List (Worker code))
    (i : ℕ) : AtEnd (cancelThread handle threads) i ↔ AtEnd threads i := by
  unfold AtEnd cancelThread
  cases handle with
  | zero | undefined => rfl
  | thread j =>
    rw [List.getElem?_modify]
    cases threads[i]? with
    | none => simp
    | some worker => by_cases hj : j = i <;> simp [hj, Worker.cancel]

/-- A thread that moves is at its end exactly when it moves there. -/
theorem atEnd_moveTo {code : ThreadCode} {threads : List (Worker code)} {i j : ℕ}
    {worker : Worker code} {next : code.Point} (hworker : threads[j]? = some worker) :
    AtEnd (threads.modify j (Worker.moveTo next)) i ↔
      i = j ∧ next = code.ended ∨ i ≠ j ∧ AtEnd threads i := by
  unfold AtEnd
  rw [List.getElem?_modify]
  by_cases hj : j = i
  · subst hj
    simp [hworker, Worker.moveTo]
  · have hj' : i ≠ j := fun h => hj h.symm
    cases threads[i]? <;> simp [hj, hj']

/-- A step brings a thread to its end exactly when it is one in which the thread terminates. -/
theorem atEnd_of_step (hs : LifecycleStep s l s') (i : ℕ) :
    AtEnd s'.threads i ↔
      (l = .actOnCancel i ∨ l = .advance i program.code.ended) ∨ AtEnd s.threads i := by
  cases hs with
  | parse | reset | skip | free => simp
  | create eProtocol entry rest result hmain =>
    dsimp only
    split_ifs
    · rw [atEnd_append (program.code.start_ne_ended _)]
      simp
    · simp
  | cancel slot rest hmain hskips =>
    rw [atEnd_cancelThread]
    simp
  | advance j next worker hworker hnext =>
    rw [atEnd_moveTo hworker]
    -- the thread has not been at its end, from which nothing goes on
    have hnot : ¬ AtEnd s.threads j := by
      rintro ⟨w, hw, hend⟩
      obtain rfl : worker = w := Option.some.inj (hworker.symm.trans hw)
      exact not_mem_successors_of_ended hend hnext
    by_cases hj : i = j
    · subst hj
      simp [hnot]
    · have hj' : j ≠ i := fun h => hj h.symm
      simp [hj, hj']
  | actOnCancel j worker hworker =>
    rw [atEnd_moveTo hworker]
    by_cases hj : i = j
    · simp [hj]
    · have hj' : j ≠ i := fun h => hj h.symm
      simp [hj, hj']

/-- The threads at their end are those that have terminated. -/
def TerminationRecord (past : List (LifecycleLabel program.code))
    (s : LifecycleState program.code) : Prop :=
  ∀ i, AtEnd s.threads i ↔ HasTerminated past i

theorem terminationRecord_start (program : DaemonProgram) :
    @TerminationRecord program [] (.start program.code) := by
  intro i
  simp [AtEnd, HasTerminated, LifecycleState.start]

theorem TerminationRecord.step {past : List (LifecycleLabel program.code)}
    (h : TerminationRecord past s) (hs : LifecycleStep s l s') :
    TerminationRecord (l :: past) s' := by
  intro i
  rw [atEnd_of_step hs, h i]
  unfold HasTerminated
  simp only [List.mem_cons, eq_comm]
  tauto

theorem TerminationRecord.keepsOwnership_iff {past : List (LifecycleLabel program.code)}
    (h : TerminationRecord past s) (l : LifecycleLabel program.code) :
    KeepsOwnership program s l ↔ FreesAfterThreads program past s l := by
  cases l with
  | free =>
    refine forall₂_congr fun device rest => imp_congr_right fun _ => forall₂_congr fun i worker =>
      imp_congr_right fun hworker => imp_congr_right fun _ => ?_
    rw [← h i]
    constructor
    · intro hend
      exact ⟨worker, hworker, hend⟩
    · rintro ⟨w, hw, hend⟩
      obtain rfl : worker = w := Option.some.inj (hworker.symm.trans hw)
      exact hend
  | _ => exact Iff.rfl

theorem ownershipKept_iff_alongHistory (program : DaemonProgram)
    (labels : List (LifecycleLabel program.code)) :
    Throughout (lifecycleStep program) OwnershipKept (.start program.code) labels ↔
      AlongHistory (lifecycleStep program) (FreesAfterThreads program) [] (.start program.code)
        labels := by
  rw [ownershipKept_iff_along]
  exact along_iff_alongHistory (fun _ _ _ _ h hs => h.step (lifecycleStep_cases hs))
    (fun _ _ l _ h _ => h.keepsOwnership_iff l) (terminationRecord_start program) labels

/-- **The generations of the daemons.** In every run of either daemon, over any number of reset
events, creation failures and interleavings, main cancels only threads that it has started in the
current generation and frees no entry that a thread can still use, in all states, exactly when it
comes to no element of `pThreads` whose `pthread_create` has failed (as master, to none of these
that does not hold 0) and to no entry before the steps in which its threads terminate. -/
theorem ownershipKept_iff (masterLabels : List (LifecycleLabel piModbusMasterProgram.code))
    (slaveLabels : List (LifecycleLabel piModbusSlaveProgram.code)) :
    (Throughout (lifecycleStep piModbusMasterProgram) OwnershipKept
        (.start piModbusMasterProgram.code) masterLabels ↔
      AlongHistory (lifecycleStep piModbusMasterProgram) (FreesAfterThreads piModbusMasterProgram)
        [] (.start piModbusMasterProgram.code) masterLabels) ∧
    (Throughout (lifecycleStep piModbusSlaveProgram) OwnershipKept
        (.start piModbusSlaveProgram.code) slaveLabels ↔
      AlongHistory (lifecycleStep piModbusSlaveProgram) (FreesAfterThreads piModbusSlaveProgram)
        [] (.start piModbusSlaveProgram.code) slaveLabels) :=
  ⟨ownershipKept_iff_alongHistory _ masterLabels, ownershipKept_iff_alongHistory _ slaveLabels⟩

/-- One TCP device, whose thread has been started and is cancelled by a reset. -/
def resetAfterCreate (code : ThreadCode) : List (LifecycleLabel code) :=
  [.parse [.protTCP], .create .created, .reset, .cancel, .free]

/-- One TCP device, for which no thread could be started, and a reset. -/
def resetAfterFailure (code : ThreadCode) : List (LifecycleLabel code) :=
  [.parse [.protTCP], .create .failedUndefined, .reset, .cancel]

/-- After the reset the thread goes on with a pointer into memory that has been freed, and the
element without a thread is cancelled. -/
theorem not_ownershipKept_reset :
    (¬ Throughout (lifecycleStep piModbusMasterProgram) OwnershipKept
        (.start piModbusMasterProgram.code) (resetAfterCreate piModbusMasterProgram.code) ∧
      ¬ Throughout (lifecycleStep piModbusMasterProgram) OwnershipKept
        (.start piModbusMasterProgram.code) (resetAfterFailure piModbusMasterProgram.code)) ∧
    (¬ Throughout (lifecycleStep piModbusSlaveProgram) OwnershipKept
        (.start piModbusSlaveProgram.code) (resetAfterCreate piModbusSlaveProgram.code) ∧
      ¬ Throughout (lifecycleStep piModbusSlaveProgram) OwnershipKept
        (.start piModbusSlaveProgram.code) (resetAfterFailure piModbusSlaveProgram.code)) := by
  refine ⟨⟨fun h => ?_, fun h => ?_⟩, fun h => ?_, fun h => ?_⟩
  · have hpoint := (h.last rfl).frees 0 _ rfl List.mem_cons_self
    cases hpoint
  · -- the master tests for 0, but `pthread_create` may leave anything when it fails
    obtain ⟨i, worker, hhandle, -⟩ := (h.last rfl).cancels (1, .undefined) List.mem_cons_self
    cases hhandle
  · have hpoint := (h.last rfl).frees 0 _ rfl List.mem_cons_self
    cases hpoint
  · -- the slave has set the element to 0, but does not test for it
    obtain ⟨i, worker, hhandle, -⟩ := (h.last rfl).cancels (1, .zero) List.mem_cons_self
    cases hhandle

end RevPiModbus
