import RevPiModbus.ModbusConfig
import RevPiModbus.Lib.Transition

/-!
# The daemon `piModbusMaster`

`piModbusMaster.c` with the control flow of the threads of `ModbusMasterThread.c`: main starts one
thread for every configured master, waits for a reset event, cancels the threads, and begins
again. The threads of all generations share the mutex `mutex_modbus_context`, which
`processModbusAction` takes and returns.

* `ThreadPoint`: the places of a thread where the others can run in between, with the outcome of
  each test on data left open; `successors`, `isCancellationPoint`, `inLock`;
* `DaemonState`, `DaemonLabel`, `daemonStep`: main and all threads, in any interleaving;
* `lockHolderAlive_iff`: the runs in which no thread dies with the lock.
-/

namespace RevPiModbus

open Transition

/-! ## The threads -/

/-- What a master thread is about to do. -/
inductive ThreadPoint
  /-- `access` to the serial device. -/
  | waitDevice
  | waitSleep
  | setprio
  | newContext
  | setErrorRecovery
  /-- `modbus_connect`. -/
  | connect
  /-- The five seconds after a failed connection. -/
  | retrySleep
  | initScheduler
  | setTimeouts
  | getNextEvent
  /-- `reset_modbus_action_status` and `reset_modbus_master_status`. -/
  | resetStatus
  /-- Both `clock_nanosleep` before the action. -/
  | triggerSleep
  | setSlave
  /-- `pthread_mutex_lock(&mutex_modbus_context)`. -/
  | lock
  /-- The `switch`, with the accesses to the process image before the request. -/
  | switch
  /-- The request to libmodbus. -/
  | modbusCall
  /-- The accesses to the process image after the request. -/
  | transfer
  /-- The 100 milliseconds after a failed access to the process image. -/
  | errorSleep
  /-- The status byte of a failed request. -/
  | checkLen
  /-- `pthread_mutex_unlock(&mutex_modbus_context)`. -/
  | unlock
  | evaluate
  /-- `modbus_close` after too many errors. -/
  | restart
  /-- The thread has returned, called `pthread_exit`, or acted on its cancellation. -/
  | ended
  /-- `syslog`, and what follows it. -/
  | syslog (next : ThreadPoint)
  deriving DecidableEq, Repr

namespace ThreadPoint

/-- `startTcpMasterThread` and `startRtuMasterThread` up to their first step. -/
def start : EModbusProtocol → ThreadPoint
  | .protTCP => setprio
  | .protRTU => waitDevice

/-- The control flow of the threads. -/
def successors (eProtocol : EModbusProtocol) : ThreadPoint → List ThreadPoint
  | waitDevice => [waitSleep, syslog waitSleep, syslog setprio]
  | waitSleep => [waitDevice]
  | setprio => [newContext, syslog ended]
  | newContext => [setErrorRecovery, syslog ended]
  | setErrorRecovery => [connect, syslog connect]
  | connect =>
    match eProtocol with
    | .protTCP => [initScheduler, syslog retrySleep]
    | .protRTU => [initScheduler, syslog ended]
  | retrySleep => [connect]
  | initScheduler => [setTimeouts, syslog ended]
  | setTimeouts =>
    match eProtocol with
    | .protTCP => [syslog getNextEvent, syslog (syslog getNextEvent)]
    | .protRTU => [syslog (syslog getNextEvent), syslog (syslog (syslog getNextEvent))]
  | getNextEvent => [resetStatus]
  | resetStatus => [triggerSleep, syslog resetStatus]
  | triggerSleep => [setSlave]
  | setSlave => [lock, syslog lock]
  | lock => [switch]
  | switch => [modbusCall, syslog errorSleep, syslog checkLen]
  | modbusCall => [transfer, checkLen]
  | transfer => [checkLen, syslog errorSleep]
  | errorSleep => [checkLen]
  | checkLen => [unlock]
  | unlock => [evaluate]
  | evaluate =>
    match eProtocol with
    | .protTCP => [getNextEvent, syslog getNextEvent, syslog (syslog restart)]
    | .protRTU => [getNextEvent, syslog getNextEvent]
  | restart => [connect]
  | ended => []
  | syslog next => [next]

/-- Where a thread with a pending cancellation acts on it: where it sleeps, waits for a device in
libmodbus, or calls `syslog`. The type of all cancellations is deferred. The calls of piControl and
`modbus_close` are taken to return without acting on one; `ContextPoint` has a thread end in them
too. -/
def isCancellationPoint : ThreadPoint → Bool
  | waitSleep | connect | retrySleep | triggerSleep | modbusCall | errorSleep | syslog _ => true
  | _ => false

/-- Between `pthread_mutex_lock` and `pthread_mutex_unlock`. -/
def inLock : ThreadPoint → Bool
  | switch | modbusCall | transfer | errorSleep | checkLen | unlock => true
  | syslog next => inLock next
  | _ => false

/-- Only the two calls that take and return the lock lead into and out of its region. -/
theorem inLock_of_mem_successors (eProtocol : EModbusProtocol) (p : ThreadPoint) :
    ∀ next ∈ successors eProtocol p,
      p = lock ∧ next.inLock = true ∨ p = unlock ∧ next.inLock = false ∨
        p ≠ lock ∧ p ≠ unlock ∧ next.inLock = p.inLock := by
  cases p with
  | syslog p =>
    intro next hnext
    rw [successors, List.mem_singleton] at hnext
    rw [hnext]
    exact Or.inr (Or.inr ⟨by simp, by simp, rfl⟩)
  | _ => cases eProtocol <;> decide

end ThreadPoint

/-- A master thread. -/
structure MasterThread where
  generation : ℕ
  eProtocol : EModbusProtocol
  point : ThreadPoint
  cancelled : Bool
  deriving DecidableEq, Repr

/-! ## Main and its threads -/

/-- What main is about to do: create threads for the rest of the configuration list and then wait
for a reset, or cancel the rest of the threads and then read the configuration. -/
inductive MainPoint
  | create (rest : List EModbusProtocol)
  | cancel (rest : List (Option ℕ))
  deriving DecidableEq, Repr

/-- The process: main, the handles of its current generation (`none` is the handle 0), the threads
ever created, and the holder of `mutex_modbus_context`. -/
structure DaemonState where
  main : MainPoint
  generation : ℕ
  pThreads : List (Option ℕ)
  threads : List MasterThread
  mutexModbusContext : Option ℕ
  deriving DecidableEq, Repr

/-- The state in which main starts. -/
def DaemonState.start : DaemonState where
  main := .cancel []
  generation := 0
  pThreads := []
  threads := []
  mutexModbusContext := none

/-- A step of the process. -/
inductive DaemonLabel
  /-- `get_master_device_config_list`, with the masters of the configuration. -/
  | parse (entries : List EModbusProtocol)
  /-- `pthread_create`, which can fail. -/
  | create (success : Bool)
  /-- `piControlWaitForEvent` returns `KB_EVENT_RESET`. -/
  | reset
  /-- `pthread_cancel`. -/
  | cancel
  /-- A thread does what it is about to do, and goes on to `next`. -/
  | advance (thread : ℕ) (next : ThreadPoint)
  /-- A thread acts on its cancellation: it runs its cleanup handler and ends. The handlers close
  and free the Modbus context and do nothing else. -/
  | actOnCancel (thread : ℕ)
  deriving DecidableEq, Repr

/-- A step of the thread number `i` to the point `next`. -/
def MasterThread.advance (thread : MasterThread) (i : ℕ) (next : ThreadPoint)
    (mutex : Option ℕ) : Option (MasterThread × Option ℕ) :=
  if thread.cancelled && thread.point.isCancellationPoint then
    none
  else if next ∈ thread.point.successors thread.eProtocol then
    match thread.point with
    | .lock => if mutex = none then some ({ thread with point := next }, some i) else none
    | .unlock => some ({ thread with point := next }, none)
    | _ => some ({ thread with point := next }, mutex)
  else
    none

/-- One step of the process. -/
def daemonStep (s : DaemonState) : DaemonLabel → Option DaemonState
  | .parse entries =>
    if s.main = .cancel [] then
      some { s with main := .create entries, generation := s.generation + 1, pThreads := [] }
    else none
  | .create success =>
    match s.main with
    | .create (eProtocol :: rest) =>
      if success then
        some { s with
          main := .create rest
          pThreads := s.pThreads ++ [some s.threads.length]
          threads := s.threads ++ [{ generation := s.generation, eProtocol := eProtocol,
                                     point := .start eProtocol, cancelled := false }] }
      else some { s with main := .create rest, pThreads := s.pThreads ++ [none] }
    | _ => none
  | .reset => if s.main = .create [] then some { s with main := .cancel s.pThreads } else none
  | .cancel =>
    match s.main with
    | .cancel (handle :: rest) =>
      match handle with
      | some i => some { s with
          main := .cancel rest
          threads := s.threads.modify i fun thread => { thread with cancelled := true } }
      | none => some { s with main := .cancel rest }
    | _ => none
  | .advance i next =>
    match s.threads[i]? with
    | some thread =>
      match thread.advance i next s.mutexModbusContext with
      | some (thread, mutex) =>
        some { s with threads := s.threads.set i thread, mutexModbusContext := mutex }
      | none => none
    | none => none
  | .actOnCancel i =>
    match s.threads[i]? with
    | some thread =>
      if thread.cancelled && thread.point.isCancellationPoint then
        some { s with threads := s.threads.set i { thread with point := .ended } }
      else none
    | none => none

/-! ## What a step can do -/

/-- The threads after a step of main: the same, one more, or one cancelled. -/
inductive MainStep (s s' : DaemonState) : Prop
  | same (h : s'.threads = s.threads)
  | created (eProtocol : EModbusProtocol) (h : s'.threads = s.threads ++
      [{ generation := s.generation, eProtocol := eProtocol, point := .start eProtocol,
         cancelled := false }])
  | cancelled (i : ℕ) (h : s'.threads = s.threads.modify i fun thread =>
      { thread with cancelled := true })

/-- A step of the process is a step of main, which leaves the mutex alone; a step of one thread
along its control flow; or the end of a cancelled thread, which leaves the mutex alone, too. -/
theorem daemonStep_cases {s s' : DaemonState} {l : DaemonLabel} (h : daemonStep s l = some s') :
    (MainStep s s' ∧ (∀ i, l ≠ .actOnCancel i) ∧ s'.mutexModbusContext = s.mutexModbusContext) ∨
    (∃ i next thread thread', l = .advance i next ∧ s.threads[i]? = some thread ∧
      thread.advance i next s.mutexModbusContext = some (thread', s'.mutexModbusContext) ∧
      s'.threads = s.threads.set i thread') ∨
    (∃ i thread, l = .actOnCancel i ∧ s.threads[i]? = some thread ∧ thread.cancelled = true ∧
      thread.point.isCancellationPoint = true ∧
      s'.threads = s.threads.set i { thread with point := .ended } ∧
      s'.mutexModbusContext = s.mutexModbusContext) := by
  cases l with
  | parse entries =>
    simp only [daemonStep, Option.ite_none_right_eq_some] at h
    cases h.2
    exact Or.inl ⟨.same rfl, by simp, rfl⟩
  | create success =>
    simp only [daemonStep] at h
    split at h
    · rename_i eProtocol rest hmain
      split_ifs at h
      · cases h
        exact Or.inl ⟨.created eProtocol rfl, by simp, rfl⟩
      · cases h
        exact Or.inl ⟨.same rfl, by simp, rfl⟩
    · cases h
  | reset =>
    simp only [daemonStep, Option.ite_none_right_eq_some] at h
    cases h.2
    exact Or.inl ⟨.same rfl, by simp, rfl⟩
  | cancel =>
    simp only [daemonStep] at h
    split at h
    · split at h
      · cases h
        exact Or.inl ⟨.cancelled _ rfl, by simp, rfl⟩
      · cases h
        exact Or.inl ⟨.same rfl, by simp, rfl⟩
    · cases h
  | advance i next =>
    simp only [daemonStep] at h
    split at h
    · rename_i thread hthread
      split at h
      · rename_i thread' mutex hadvance
        cases h
        exact Or.inr (Or.inl ⟨i, next, thread, thread', rfl, hthread, hadvance, rfl⟩)
      · cases h
    · cases h
  | actOnCancel i =>
    simp only [daemonStep] at h
    split at h
    · rename_i thread hthread
      split_ifs at h with hacts
      cases h
      rw [Bool.and_eq_true] at hacts
      exact Or.inr (Or.inr ⟨i, thread, rfl, hthread, hacts.1, hacts.2, rfl, rfl⟩)
    · cases h

/-- A thread that advances takes the lock when it enters its region, which needs the lock to be
free, and returns it when it leaves the region. -/
theorem MasterThread.advance_cases {thread thread' : MasterThread} {i : ℕ} {next : ThreadPoint}
    {mutex mutex' : Option ℕ} (h : thread.advance i next mutex = some (thread', mutex')) :
    thread'.point = next ∧
    ((thread.point = .lock ∧ mutex = none ∧ mutex' = some i ∧ next.inLock = true) ∨
      (thread.point = .unlock ∧ mutex' = none ∧ next.inLock = false) ∨
      (next.inLock = thread.point.inLock ∧ mutex' = mutex)) := by
  rw [MasterThread.advance, Option.ite_none_left_eq_some, Option.ite_none_right_eq_some] at h
  obtain ⟨-, hnext, h⟩ := h
  obtain ⟨hpoint, hin⟩ | ⟨hpoint, hin⟩ | ⟨hlock, hunlock, hin⟩ :=
    ThreadPoint.inLock_of_mem_successors _ _ next hnext
  · rw [hpoint] at h
    simp only [Option.ite_none_right_eq_some, Option.some.injEq, Prod.mk.injEq] at h
    obtain ⟨hfree, rfl, rfl⟩ := h
    exact ⟨rfl, Or.inl ⟨hpoint, hfree, rfl, hin⟩⟩
  · rw [hpoint] at h
    simp only [Option.some.injEq, Prod.mk.injEq] at h
    obtain ⟨rfl, rfl⟩ := h
    exact ⟨rfl, Or.inr (Or.inl ⟨hpoint, rfl, hin⟩)⟩
  · split at h
    · rename_i hpoint
      exact absurd hpoint hlock
    · rename_i hpoint
      exact absurd hpoint hunlock
    · cases h
      exact ⟨rfl, Or.inr (Or.inr ⟨hin, rfl⟩)⟩

/-! ## The lock -/

/-- If the lock is held, its holder has not terminated. -/
def LockHolderAlive (s : DaemonState) : Prop :=
  ∀ i, s.mutexModbusContext = some i → ∃ thread, s.threads[i]? = some thread ∧ thread.point ≠ .ended

/-- The thread number `i` is between the lock and the unlock. -/
def DaemonState.InRegion (s : DaemonState) (i : ℕ) : Prop :=
  ∃ thread, s.threads[i]? = some thread ∧ thread.point.inLock = true

/-- The lock is held by the thread that is inside its region. -/
def LockInv (s : DaemonState) : Prop := ∀ i, s.mutexModbusContext = some i ↔ s.InRegion i

/-- A thread that acts on its cancellation is not between the lock and the unlock of
`processModbusAction`. -/
def CancelledOutsideLock (s : DaemonState) (l : DaemonLabel) : Prop :=
  ∀ i, l = .actOnCancel i → ¬ s.InRegion i

theorem lockInv_start : LockInv .start := by
  intro i
  simp [DaemonState.start, DaemonState.InRegion]

theorem LockInv.holderAlive {s : DaemonState} (h : LockInv s) : LockHolderAlive s := by
  intro i hi
  obtain ⟨thread, hthread, hin⟩ := (h i).mp hi
  refine ⟨thread, hthread, ?_⟩
  rintro hended
  rw [hended] at hin
  cases hin

theorem inRegion_set {s s' : DaemonState} {i : ℕ} {thread thread' : MasterThread}
    (hthread : s.threads[i]? = some thread) (hs' : s'.threads = s.threads.set i thread') (j : ℕ) :
    s'.InRegion j ↔ if j = i then thread'.point.inLock = true else s.InRegion j := by
  unfold DaemonState.InRegion
  rw [hs', List.getElem?_set]
  by_cases hj : j = i
  · subst hj
    have hlt : j < s.threads.length := (List.getElem?_eq_some_iff.mp hthread).1
    simp [hlt]
  · rw [if_neg (Ne.symm hj), if_neg hj]

/-- Main neither puts a thread into the region nor takes one out of it. -/
theorem MainStep.inRegion_iff {s s' : DaemonState} (h : MainStep s s') (i : ℕ) :
    s'.InRegion i ↔ s.InRegion i := by
  unfold DaemonState.InRegion
  cases h with
  | same h => rw [h]
  | created eProtocol h =>
    rw [h, List.getElem?_append]
    by_cases hi : i < s.threads.length
    · rw [if_pos hi]
    · rw [if_neg hi]
      have hnone : s.threads[i]? = none := List.getElem?_eq_none (by omega)
      rw [hnone]
      constructor
      · rintro ⟨thread, hthread, hin⟩
        have hmem := List.mem_of_getElem? hthread
        rw [List.mem_singleton] at hmem
        rw [hmem] at hin
        cases eProtocol <;> cases hin
      · rintro ⟨thread, hthread, -⟩
        cases hthread
  | cancelled j h =>
    rw [h, List.getElem?_modify]
    cases hthread : s.threads[i]? with
    | none => simp
    | some thread => by_cases hij : j = i <;> simp [hij]

theorem LockInv.step {s s' : DaemonState} {l : DaemonLabel} (h : LockInv s)
    (hs : daemonStep s l = some s') (hok : CancelledOutsideLock s l) : LockInv s' := by
  intro j
  obtain ⟨hmain, -, hmutex⟩ | ⟨i, next, thread, thread', -, hthread, hadvance, hset⟩ |
    ⟨i, thread, hl, hthread, -, -, hset, hmutex⟩ := daemonStep_cases hs
  · rw [hmutex, hmain.inRegion_iff]
    exact h j
  · obtain ⟨hpoint, hcases⟩ := MasterThread.advance_cases hadvance
    have hregion : s.InRegion i ↔ thread.point.inLock = true := by
      unfold DaemonState.InRegion
      rw [hthread]
      simp
    rw [inRegion_set hthread hset, hpoint]
    obtain ⟨-, hfree, htaken, hin⟩ | ⟨hunlock, hreturned, hin⟩ | ⟨hin, hmutex⟩ := hcases
    · rw [htaken, hin]
      have hnone := h j
      rw [hfree] at hnone
      by_cases hj : j = i
      · simp [hj]
      · rw [if_neg hj, ← hnone]
        simp [Ne.symm hj]
    · rw [hreturned, hin]
      have hheld : s.mutexModbusContext = some i := (h i).mpr (hregion.mpr (by rw [hunlock]; rfl))
      have hother := h j
      rw [hheld] at hother
      by_cases hj : j = i
      · simp [hj]
      · rw [if_neg hj, ← hother]
        simp [Ne.symm hj]
    · rw [hmutex, hin]
      by_cases hj : j = i
      · rw [if_pos hj, ← hregion, hj]
        exact h i
      · rw [if_neg hj]
        exact h j
  · rw [hmutex, inRegion_set hthread hset]
    by_cases hj : j = i
    · rw [if_pos hj, hj, h i]
      exact ⟨fun hin => absurd hin (hok i hl), fun hin => by cases hin⟩
    · rw [if_neg hj]
      exact h j

/-- A thread that acts on its cancellation inside the region leaves the lock held for ever. -/
theorem LockInv.not_holderAlive {s s' : DaemonState} {l : DaemonLabel} (h : LockInv s)
    (hs : daemonStep s l = some s') (hbad : ¬ CancelledOutsideLock s l) : ¬ LockHolderAlive s' := by
  unfold CancelledOutsideLock at hbad
  push Not at hbad
  obtain ⟨i, rfl, hin⟩ := hbad
  obtain ⟨-, hnot, -⟩ | ⟨j, next, -, -, hl, -⟩ | ⟨j, thread, hl, hthread, -, -, hset, hmutex⟩ :=
    daemonStep_cases hs
  · exact absurd rfl (hnot i)
  · cases hl
  · cases hl
    intro halive
    obtain ⟨ended, hended, hpoint⟩ := halive i (hmutex.trans ((h i).mpr hin))
    have hlt : i < s.threads.length := (List.getElem?_eq_some_iff.mp hthread).1
    rw [hset, List.getElem?_set_self hlt] at hended
    cases hended
    exact hpoint rfl

/-- **The lock over the generations.** In every run of the daemon, over any number of reset
generations and in any interleaving, the holder of `mutex_modbus_context` is alive in every state
exactly when no cancelled thread acts on its cancellation inside the locked region of
`processModbusAction`. -/
theorem lockHolderAlive_iff (labels : List DaemonLabel) :
    Throughout daemonStep LockHolderAlive .start labels ↔
      Along daemonStep CancelledOutsideLock .start labels :=
  throughout_iff_along (fun _ h => h.holderAlive) (fun _ _ _ h hs hok => h.step hs hok)
    (fun _ _ _ h hs hbad => h.not_holderAlive hs hbad) lockInv_start labels

/-- One TCP master, which is cancelled by a reset while it waits for the answer to a request. -/
def resetDuringRequest : List DaemonLabel :=
  [.parse [.protTCP], .create true, .advance 0 .newContext, .advance 0 .setErrorRecovery,
    .advance 0 .connect, .advance 0 .initScheduler, .advance 0 .setTimeouts,
    .advance 0 (.syslog .getNextEvent), .advance 0 .getNextEvent, .advance 0 .resetStatus,
    .advance 0 .triggerSleep, .advance 0 .setSlave, .advance 0 .lock, .advance 0 .switch,
    .advance 0 .modbusCall, .reset, .cancel, .actOnCancel 0]

/-- The thread has ended, and the lock is still held. -/
theorem not_lockHolderAlive_resetDuringRequest :
    ¬ Throughout daemonStep LockHolderAlive .start resetDuringRequest := by
  intro h
  have hrun : run daemonStep .start resetDuringRequest = some {
      main := .cancel [], generation := 1, pThreads := [some 0],
      threads := [{ generation := 1, eProtocol := .protTCP, point := .ended, cancelled := true }],
      mutexModbusContext := some 0 } := by decide
  obtain ⟨thread, hthread, hpoint⟩ := h.last hrun 0 rfl
  cases hthread
  exact hpoint rfl

end RevPiModbus
