import RevPiModbus.ModbusConfig
import RevPiModbus.Timespec
import Mathlib.Data.Rat.Floor
import Mathlib.Algebra.BigOperators.Group.List.Basic

/-!
# The scheduler of a Modbus master

`Scheduler.c`: the events of a master thread are kept in a list ordered by due date. A pointer to
an action is modelled as the position of the action in the action list, the allocator as the
outcome of its successive calls.

* `insertEventByDueDate`, `initScheduler`, `determineNextEvent`, `getNextEvent`;
* `getNextEvents`, the events delivered by the first `m` calls of `getNextEvent`;
* `getMinimalModbusActionInterval` and `getMinimalModbusEventOffset`, the latter in exact rational
  arithmetic in place of `double`.
-/

namespace RevPiModbus

/-- `struct schedulerEvent`; the list links are the list itself. -/
structure SchedulerEvent where
  intervalTime : Timespec
  triggerTime : Timespec
  ptModbusAction : ℕ
  deriving DecidableEq, Repr

/-- `tModbusEvent`. -/
structure TModbusEvent where
  triggerTime : Timespec
  ptModbusAction : ℕ
  deriving DecidableEq, Repr

/-- `insertEventByDueDate`: before the first event that is due later, else at the tail. -/
def insertEventByDueDate (newEvent : SchedulerEvent) : List SchedulerEvent → List SchedulerEvent
  | [] => [newEvent]
  | pEvent :: events =>
    if newEvent.triggerTime.tvSec < pEvent.triggerTime.tvSec then
      newEvent :: pEvent :: events
    else if newEvent.triggerTime.tvSec = pEvent.triggerTime.tvSec
        ∧ newEvent.triggerTime.tvNsec < pEvent.triggerTime.tvNsec then
      newEvent :: pEvent :: events
    else
      pEvent :: insertEventByDueDate newEvent events

/-- `cleanupScheduler`: remove (and free) events until the list is empty. -/
def cleanupScheduler : List SchedulerEvent → List SchedulerEvent
  | [] => []
  | _ :: events => cleanupScheduler events

/-- The `intervalTime` that `initScheduler` gives to the event of an action. -/
def TModbusAction.intervalTime (action : TModbusAction) : Timespec where
  tvSec := action.i32uIntervalUs.toNat / s32MicrosecondsPerSecond
  tvNsec := action.i32uIntervalUs.toNat % s32MicrosecondsPerSecond * 1000

/-- The event that `initScheduler` fills in for the action at position `i`: the trigger time is
the current time plus the interval plus one second for the initialisation. -/
def newSchedulerEvent (currentTime : Timespec) (i : ℕ) (action : TModbusAction) :
    Except Fault SchedulerEvent := do
  let triggerTime ← timespecAdd currentTime action.intervalTime
  return {
    intervalTime := action.intervalTime
    triggerTime := { triggerTime with tvSec := triggerTime.tvSec + 1 }
    ptModbusAction := i }

/-- The loop of `initScheduler` over the actions from position `i` on. -/
def initSchedulerLoop (malloc : ℕ → Bool) (currentTime : Timespec) :
    ℕ → List TModbusAction → List SchedulerEvent → Except Fault (ℤ × List SchedulerEvent)
  | _, [], eventList => .ok (0, eventList)
  | i, action :: actions, eventList =>
    if malloc i then do
      let pNewSchedulerEvent ← newSchedulerEvent currentTime i action
      initSchedulerLoop malloc currentTime (i + 1) actions
        (if eventList.isEmpty then [pNewSchedulerEvent]
          else insertEventByDueDate pNewSchedulerEvent eventList)
    else
      .ok (-1, cleanupScheduler eventList)

/-- `initScheduler`: its return value and the event list. `currentTime` is the monotonic clock. -/
def initScheduler (malloc : ℕ → Bool) (currentTime : Timespec) (actions : List TModbusAction) :
    Except Fault (ℤ × List SchedulerEvent) :=
  if actions.isEmpty then .ok (-1, []) else initSchedulerLoop malloc currentTime 0 actions []

/-- `determineNextEvent`: deliver the first event and insert it again one interval later. -/
def determineNextEvent : List SchedulerEvent → Except Fault (TModbusEvent × List SchedulerEvent)
  | [] => .error .nullPointer
  | pNextSchedulerEvent :: events => do
    let triggerTime ←
      timespecAdd pNextSchedulerEvent.triggerTime pNextSchedulerEvent.intervalTime
    return ({ triggerTime := pNextSchedulerEvent.triggerTime
              ptModbusAction := pNextSchedulerEvent.ptModbusAction },
      insertEventByDueDate { pNextSchedulerEvent with triggerTime := triggerTime } events)

/-- `getNextEvent`; `none` stands for the return value `-1`. -/
def getNextEvent (eventList : List SchedulerEvent) :
    Except Fault (Option (TModbusEvent × List SchedulerEvent)) :=
  if eventList.isEmpty then .ok none else do
    let r ← determineNextEvent eventList
    return some r

/-- The events delivered by the first `m` calls of `getNextEvent`, and the list they leave. -/
def getNextEvents (eventList : List SchedulerEvent) :
    ℕ → Except Fault (List TModbusEvent × List SchedulerEvent)
  | 0 => .ok ([], eventList)
  | m + 1 => do
    let (delivered, events) ← getNextEvents eventList m
    match ← getNextEvent events with
    | none => return (delivered, events)
    | some (nextEvent, events') => return (delivered ++ [nextEvent], events')

/-- `get_minimal_modbus_action_interval`. -/
def getMinimalModbusActionInterval (eventList : List SchedulerEvent) : Except Fault Timespec :=
  eventList.foldlM (fun minInterval pEvent => do
    let (_, ret) ← timespecDiff pEvent.intervalTime minInterval
    return if ret < 0 then pEvent.intervalTime else minInterval)
    ⟨2 ^ 31 - 1, s32NanosecondsPerSecond - 1⟩

/-- `mean_time_between_events`, with rational numbers in place of `double`. -/
def meanTimeBetweenEvents (eventList : List SchedulerEvent) : ℚ :=
  1 / (eventList.map fun pEvent =>
    1 / ((pEvent.intervalTime.tvNsec
      + pEvent.intervalTime.tvSec * s32NanosecondsPerSecond : ℤ) : ℚ)).sum

/-- `get_minimal_modbus_event_offset`: a quarter of the mean time, cut to whole nanoseconds. -/
def getMinimalModbusEventOffset (eventList : List SchedulerEvent) : Timespec :=
  let s64MeanTimeBetweenEvents : ℤ := ⌊meanTimeBetweenEvents eventList⌋
  { tvSec := s64MeanTimeBetweenEvents / 4 / s32NanosecondsPerSecond
    tvNsec := s64MeanTimeBetweenEvents / 4 % s32NanosecondsPerSecond }

/-! ## What each operation does -/

section Operations

open Timespec

/-- Both times of the event are normalised. -/
def SchedulerEvent.Normalised (e : SchedulerEvent) : Prop :=
  e.intervalTime.Normalised ∧ e.triggerTime.Normalised

theorem insertEventByDueDate_cons (e p : SchedulerEvent) (events : List SchedulerEvent) :
    insertEventByDueDate e (p :: events) =
      if e.triggerTime.Earlier p.triggerTime then e :: p :: events
      else p :: insertEventByDueDate e events := by
  rw [insertEventByDueDate]
  by_cases h : e.triggerTime.Earlier p.triggerTime
  · rw [if_pos h]
    rcases h with h | h
    · rw [if_pos h]
    · rw [if_neg (by omega), if_pos h]
  · rw [if_neg h, if_neg (fun hlt => h (Or.inl hlt)), if_neg (fun heq => h (Or.inr heq))]

theorem insertEventByDueDate_perm (e : SchedulerEvent) (events : List SchedulerEvent) :
    (insertEventByDueDate e events).Perm (e :: events) := by
  induction events with
  | nil => exact List.Perm.refl _
  | cons p events ih =>
    rw [insertEventByDueDate_cons]
    split_ifs
    · exact List.Perm.refl _
    · exact (ih.cons p).trans (List.Perm.swap e p events)

@[simp] theorem cleanupScheduler_eq_nil (events : List SchedulerEvent) :
    cleanupScheduler events = [] := by
  induction events with
  | nil => rfl
  | cons _ events ih => exact ih

/-- The interval in nanoseconds: the division into seconds and nanoseconds loses nothing. -/
theorem intervalTime_toNs (a : TModbusAction) :
    a.intervalTime.toNs = a.i32uIntervalUs.toNat * 1000 := by
  simp only [TModbusAction.intervalTime, toNs, s32NanosecondsPerSecond, s32MicrosecondsPerSecond]
  omega

theorem intervalTime_normalised (a : TModbusAction) : a.intervalTime.Normalised := by
  simp only [TModbusAction.intervalTime, Timespec.Normalised, s32NanosecondsPerSecond,
    s32MicrosecondsPerSecond]
  omega

theorem intervalTime_tvSec (a : TModbusAction) :
    0 ≤ a.intervalTime.tvSec ∧ a.intervalTime.tvSec ≤ 4294 := by
  have := a.i32uIntervalUs.toNat_lt
  simp only [TModbusAction.intervalTime, s32MicrosecondsPerSecond]
  omega

theorem intervalTime_pos {a : TModbusAction} (h : 0 < a.i32uIntervalUs) :
    0 < a.intervalTime.toNs := by
  have h' : 0 < a.i32uIntervalUs.toNat := by simpa using UInt32.lt_iff_toNat_lt.1 h
  rw [intervalTime_toNs]
  omega

/-- The first trigger time in nanoseconds. -/
def firstTrigger (currentTime : Timespec) (a : TModbusAction) : ℤ :=
  currentTime.toNs + s32NanosecondsPerSecond + a.intervalTime.toNs

theorem newSchedulerEvent_eq {now : Timespec} (hnow : now.Normalised) (i : ℕ)
    (a : TModbusAction) :
    newSchedulerEvent now i a = .ok ⟨a.intervalTime, ofNs (firstTrigger now a), i⟩ := by
  rw [newSchedulerEvent, timespecAdd_eq hnow (intervalTime_normalised a)]
  simp only [ok_bind, except_pure, Except.ok.injEq, SchedulerEvent.mk.injEq, true_and, and_true,
    ofNs, firstTrigger, s32NanosecondsPerSecond, Timespec.mk.injEq]
  omega

/-- The event after its next delivery. -/
def SchedulerEvent.next (e : SchedulerEvent) : SchedulerEvent :=
  { e with triggerTime := ofNs (e.triggerTime.toNs + e.intervalTime.toNs) }

theorem SchedulerEvent.next_normalised {e : SchedulerEvent} (h : e.Normalised) :
    e.next.Normalised := ⟨h.1, ofNs_normalised _⟩

theorem getNextEvent_cons {e : SchedulerEvent} (h : e.Normalised) (events : List SchedulerEvent) :
    getNextEvent (e :: events) =
      .ok (some (⟨e.triggerTime, e.ptModbusAction⟩, insertEventByDueDate e.next events)) := by
  simp only [getNextEvent, List.isEmpty_cons, Bool.false_eq_true, if_false, determineNextEvent,
    timespecAdd_eq h.2 h.1, ok_bind, except_pure, SchedulerEvent.next]

theorem getNextEvents_succ {q r : List SchedulerEvent} {m : ℕ} {d : List TModbusEvent}
    {e : SchedulerEvent} (h : getNextEvents q m = .ok (d, e :: r)) (he : e.Normalised) :
    getNextEvents q (m + 1) =
      .ok (d ++ [⟨e.triggerTime, e.ptModbusAction⟩], insertEventByDueDate e.next r) := by
  rw [getNextEvents, h, ok_bind]
  simp only [getNextEvent_cons he, ok_bind, except_pure]

end Operations

end RevPiModbus
