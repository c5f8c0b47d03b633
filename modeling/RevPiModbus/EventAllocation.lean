import RevPiModbus.Lib.Ledger
import RevPiModbus.StatusLatch

/-!
# The events of a master on the heap

The scheduler allocates one event for each action after every successful connect, and frees events
only in `cleanupScheduler`, when an allocation fails. Here the events have addresses, and a ledger
records which of them are allocated.

* `Allocator`: `malloc` returns an address that is not in use;
* `HeapEvent`, `EventHeap`: the list with its addresses; `initSchedulerHeap` and `getNextHeapEvent`:
  the operations of the scheduler on it, which are those of `Scheduler.c` up to the addresses;
* `HeapLoop`, `heapStep`: the loop of a master with them; `run_heapStep_start`: it makes the same
  runs;
* `EventsAccounted`: nothing is leaked, and a failed `initScheduler` leaves nothing behind;
* `eventsAccounted_iff`: the runs throughout which that holds.
-/

namespace RevPiModbus

open Transition

/-! ## The list with addresses -/

/-- The address that the `i`-th call of `malloc` returns, if it succeeds: none that is in use. -/
structure Allocator where
  address : ℕ → Finset ℕ → ℕ
  fresh : ∀ i held, address i held ∉ held

/-- A `struct schedulerEvent` and where it is. -/
structure HeapEvent where
  address : ℕ
  event : SchedulerEvent
  deriving DecidableEq, Repr

/-- The list of a thread, and the events that are allocated. -/
structure EventHeap where
  events : List HeapEvent
  allocated : Ledger ℕ

/-- `insertEventByDueDate`. -/
def insertHeapEvent (newEvent : HeapEvent) : List HeapEvent → List HeapEvent
  | [] => [newEvent]
  | pEvent :: events =>
    if newEvent.event.triggerTime.tvSec < pEvent.event.triggerTime.tvSec then
      newEvent :: pEvent :: events
    else if newEvent.event.triggerTime.tvSec = pEvent.event.triggerTime.tvSec
        ∧ newEvent.event.triggerTime.tvNsec < pEvent.event.triggerTime.tvNsec then
      newEvent :: pEvent :: events
    else
      pEvent :: insertHeapEvent newEvent events

/-- `cleanupScheduler`: free the events from the first to the last. -/
def cleanupSchedulerHeap (heap : EventHeap) : EventHeap where
  events := []
  allocated := heap.allocated.releaseAll (heap.events.map HeapEvent.address)

/-- The loop of `initScheduler` over the actions from position `i` on. -/
def initSchedulerHeapLoop (allocator : Allocator) (malloc : ℕ → Bool) (currentTime : Timespec) :
    ℕ → List TModbusAction → EventHeap → Except Fault (ℤ × EventHeap)
  | _, [], heap => .ok (0, heap)
  | i, action :: actions, heap =>
    if malloc i then do
      let address := allocator.address i heap.allocated.held
      let event ← newSchedulerEvent currentTime i action
      initSchedulerHeapLoop allocator malloc currentTime (i + 1) actions {
        events :=
          if heap.events.isEmpty then [⟨address, event⟩]
          else insertHeapEvent ⟨address, event⟩ heap.events
        allocated := heap.allocated.acquire address }
    else
      .ok (-1, cleanupSchedulerHeap heap)

/-- `initScheduler`. The list head is a new variable, and is initialised to the empty list. -/
def initSchedulerHeap (allocator : Allocator) (malloc : ℕ → Bool) (currentTime : Timespec)
    (actions : List TModbusAction) (allocated : Ledger ℕ) : Except Fault (ℤ × EventHeap) :=
  if actions.isEmpty then .ok (-1, ⟨[], allocated⟩)
  else initSchedulerHeapLoop allocator malloc currentTime 0 actions ⟨[], allocated⟩

/-- `getNextEvent`, which inserts the event that it delivers again. -/
def getNextHeapEvent (heap : EventHeap) : Except Fault EventHeap :=
  match heap.events with
  | [] => .ok heap
  | pNextSchedulerEvent :: events => do
    let event := pNextSchedulerEvent.event
    let triggerTime ← timespecAdd event.triggerTime event.intervalTime
    return { heap with
      events := insertHeapEvent
        { pNextSchedulerEvent with event := { event with triggerTime := triggerTime } } events }

/-! ## The thread -/

/-- A master thread, with its events at their addresses. -/
structure HeapLoop (σ : Type) where
  loop : LoopState σ
  heap : EventHeap

variable {σ : Type}

/-- Before the first step nothing is allocated. -/
def HeapLoop.start (host : Host σ) (config : TModbusMasterConfiguration) (state : σ) :
    HeapLoop σ where
  loop := .start host config state
  heap := ⟨[], .empty⟩

/-- What a step does to the heap. -/
def heapAfter (config : TModbusMasterConfiguration) (s : HeapLoop σ) (allocator : Allocator) :
    LoopLabel σ → Except Fault EventHeap
  | .connect true malloc currentTime => do
    let (_, heap) ← initSchedulerHeap allocator malloc currentTime config.mbActionListHead
      s.heap.allocated
    return heap
  | .proceed => if s.loop.phase = .nextEvent then getNextHeapEvent s.heap else .ok s.heap
  | _ => .ok s.heap

/-- One step, with the allocator as it is then. -/
def heapStep (host : Host σ) (config : TModbusMasterConfiguration) (s : HeapLoop σ)
    (l : LoopLabel σ × Allocator) : Option (HeapLoop σ) :=
  match loopStep host config s.loop l.1, heapAfter config s l.2 l.1 with
  | some loop, .ok heap => some ⟨loop, heap⟩
  | _, _ => none

/-- The addresses of the events in the list. -/
def EventHeap.addresses (heap : EventHeap) : Finset ℕ :=
  (heap.events.map HeapEvent.address).toFinset

/-- Before `getNextEvent` the allocated events are those in the list, and after `initScheduler` has
failed the list is empty and no event is allocated. -/
def EventsAccounted (s : HeapLoop σ) : Prop :=
  (s.loop.phase = .nextEvent → s.heap.allocated.held = s.heap.addresses) ∧
    (s.loop.phase = .ended → s.heap.events = [] ∧ s.heap.allocated.held = ∅)

/-- The step is a successful `modbus_connect`. -/
def LoopLabel.connects : LoopLabel σ → Bool
  | .connect connected _ _ => connected
  | _ => false

/-- The thread connects successfully for the first time. -/
def ConnectsOnce (past : List (LoopLabel σ × Allocator)) (_ : HeapLoop σ)
    (l : LoopLabel σ × Allocator) : Prop :=
  l.1.connects → ∀ l' ∈ past, ¬ l'.1.connects

/-! ## The addresses change nothing -/

section Erase

variable (allocator : Allocator) (malloc : ℕ → Bool) (currentTime : Timespec)

theorem insertHeapEvent_map (e : HeapEvent) (events : List HeapEvent) :
    (insertHeapEvent e events).map HeapEvent.event =
      insertEventByDueDate e.event (events.map HeapEvent.event) := by
  induction events with
  | nil => rfl
  | cons p events ih =>
    rw [insertHeapEvent, List.map_cons, insertEventByDueDate, ← ih]
    split_ifs <;> rfl

/-- The events of a result without their addresses. -/
def eraseAddresses (r : ℤ × EventHeap) : ℤ × List SchedulerEvent :=
  (r.1, r.2.events.map HeapEvent.event)

theorem initSchedulerHeapLoop_map (i : ℕ) (actions : List TModbusAction) (heap : EventHeap) :
    (initSchedulerHeapLoop allocator malloc currentTime i actions heap).map eraseAddresses =
      initSchedulerLoop malloc currentTime i actions (heap.events.map HeapEvent.event) := by
  induction actions generalizing i heap with
  | nil => rfl
  | cons action actions ih =>
    rw [initSchedulerHeapLoop, initSchedulerLoop]
    by_cases hmalloc : malloc i
    · rw [if_pos hmalloc, if_pos hmalloc]
      cases newSchedulerEvent currentTime i action with
      | error fault => rfl
      | ok event =>
        simp only [ok_bind]
        rw [ih]
        congr 1
        cases heap.events with
        | nil => rfl
        | cons p events => exact insertHeapEvent_map _ _
    · rw [if_neg hmalloc, if_neg hmalloc, cleanupScheduler_eq_nil]
      rfl

theorem initSchedulerHeap_map (actions : List TModbusAction) (allocated : Ledger ℕ) :
    (initSchedulerHeap allocator malloc currentTime actions allocated).map eraseAddresses =
      initScheduler malloc currentTime actions := by
  unfold initSchedulerHeap initScheduler
  split_ifs
  · rfl
  · exact initSchedulerHeapLoop_map allocator malloc currentTime 0 actions _

/-- `initScheduler` returns the same on the heap as without it. -/
theorem initSchedulerHeap_of {actions : List TModbusAction} {ret : ℤ}
    {eventList : List SchedulerEvent}
    (h : initScheduler malloc currentTime actions = .ok (ret, eventList)) (allocated : Ledger ℕ) :
    ∃ heap, initSchedulerHeap allocator malloc currentTime actions allocated = .ok (ret, heap) ∧
      heap.events.map HeapEvent.event = eventList := by
  rw [← initSchedulerHeap_map allocator malloc currentTime actions allocated] at h
  cases hheap : initSchedulerHeap allocator malloc currentTime actions allocated with
  | error fault =>
    rw [hheap] at h
    cases h
  | ok r =>
    rw [hheap] at h
    cases h
    exact ⟨r.2, rfl, rfl⟩

/-- And so does `getNextEvent`. -/
theorem getNextHeapEvent_of {heap : EventHeap} {nextEvent : TModbusEvent}
    {eventList : List SchedulerEvent}
    (h : getNextEvent (heap.events.map HeapEvent.event) = .ok (some (nextEvent, eventList))) :
    ∃ heap', getNextHeapEvent heap = .ok heap' ∧ heap'.events.map HeapEvent.event = eventList := by
  unfold getNextHeapEvent
  cases hevents : heap.events with
  | nil =>
    rw [hevents] at h
    cases h
  | cons p events =>
    rw [hevents] at h
    simp only [getNextEvent, List.map_cons, List.isEmpty_cons, Bool.false_eq_true, if_false,
      determineNextEvent] at h
    cases htime : timespecAdd p.event.triggerTime p.event.intervalTime with
    | error fault =>
      rw [htime] at h
      cases h
    | ok triggerTime =>
      rw [htime] at h
      cases h
      simp only [htime, ok_bind, except_pure]
      refine ⟨_, rfl, ?_⟩
      exact insertHeapEvent_map _ _

end Erase

section Loop

variable {host : Host σ} {config : TModbusMasterConfiguration}

/-- What a step of the loop does to the event list: it is made by a successful connect, ordered anew
by `getNextEvent`, and left alone by all other steps. -/
inductive ListStep (config : TModbusMasterConfiguration) (s s' : LoopState σ) : LoopLabel σ → Prop
  | connects (malloc : ℕ → Bool) (currentTime : Timespec) (ret : ℤ)
    (eventList : List SchedulerEvent) (hphase : s.phase = .connect)
    (hinit : initScheduler malloc currentTime config.mbActionListHead = .ok (ret, eventList))
    (hret : ret < 0 ∧ s'.phase = .ended ∨
      0 ≤ ret ∧ s'.phase = .nextEvent ∧ s'.eventList = eventList) :
    ListStep config s s' (.connect true malloc currentTime)
  | nextEvent (nextEvent : TModbusEvent) (pending : List ℕ) (hphase : s.phase = .nextEvent)
    (hphase' : s'.phase = .reset pending nextEvent)
    (hnext : getNextEvent s.eventList = .ok (some (nextEvent, s'.eventList))) :
    ListStep config s s' .proceed
  | other (l : LoopLabel σ) (hconnects : ¬ l.connects)
    (hproceed : l = .proceed → s.phase ≠ .nextEvent) (hlist : s'.eventList = s.eventList)
    (hstays : s.phase = .ended → s'.phase = .ended)
    (hended : s'.phase = .ended → s.phase = .ended ∨
      s.phase = .connect ∧ config.tModbusDeviceConfig.uProt.eProtocol = .protRTU)
    (hreconnects : s'.phase = .connect → s.phase = .connect ∨
      config.tModbusDeviceConfig.uProt.eProtocol = .protTCP) : ListStep config s s' l

theorem connectStep_listStep {s s' : LoopState σ} {connected : Bool} {malloc : ℕ → Bool}
    {currentTime : Timespec} (hphase : s.phase = .connect)
    (hs : connectStep host config connected malloc currentTime s = some s') :
    ListStep config s s' (.connect connected malloc currentTime) := by
  unfold connectStep at hs
  cases connected with
  | true =>
    rw [if_pos rfl] at hs
    split at hs
    · rename_i ret eventList hinit
      refine .connects malloc currentTime ret eventList hphase hinit ?_
      split_ifs at hs with hret
      · cases hs
        exact .inl ⟨hret, rfl⟩
      · cases hs
        exact .inr ⟨not_lt.mp hret, rfl, rfl⟩
    · cases hs
  | false =>
    cases hs
    refine .other _ (by simp [LoopLabel.connects]) (by simp) rfl (by simp [hphase])
      (fun hend => .inr ⟨hphase, ?_⟩) fun _ => .inl hphase
    cases hprotocol : config.tModbusDeviceConfig.uProt.eProtocol with
    | protTCP => simp [hprotocol] at hend
    | protRTU => rfl

/-- Only the TCP loop goes back to the connect. -/
theorem processStep_phase {s s' : LoopState σ} {action : TModbusAction}
    (hs : processStep host config action s = some s') :
    s'.eventList = s.eventList ∧ s'.phase ≠ .ended ∧
      (s'.phase = .connect → config.tModbusDeviceConfig.uProt.eProtocol = .protTCP) := by
  unfold processStep at hs
  split at hs
  · cases hs
    refine ⟨rfl, ?_, ?_⟩
    · cases config.tModbusDeviceConfig.uProt.eProtocol with
      | protTCP =>
        intro hend
        dsimp only at hend
        split_ifs at hend
      | protRTU => simp
    · cases config.tModbusDeviceConfig.uProt.eProtocol with
      | protTCP => exact fun _ => rfl
      | protRTU => simp
  · cases hs

theorem loopStep_listStep {s s' : LoopState σ} {l : LoopLabel σ}
    (hs : loopStep host config s l = some s') : ListStep config s s' l := by
  cases l with
  | connect connected malloc currentTime =>
    simp only [loopStep, Option.ite_none_right_eq_some] at hs
    exact connectStep_listStep hs.1 hs.2
  | proceed =>
    have hproceed : ¬ (LoopLabel.proceed : LoopLabel σ).connects := by simp [LoopLabel.connects]
    simp only [loopStep] at hs
    split at hs
    · rename_i hphase
      split at hs
      · rename_i nextEvent eventList hnext
        cases hs
        exact .nextEvent nextEvent _ hphase rfl hnext
      · cases hs
    · rename_i hphase
      split at hs
      · cases hs
        exact .other _ hproceed (by simp [hphase]) rfl (by simp [hphase]) (by simp) (by simp)
      · cases hs
    · rename_i hphase
      cases hs
      exact .other _ hproceed (by simp [hphase]) rfl (by simp [hphase]) (by simp) (by simp)
    · rename_i hphase
      split at hs
      · obtain ⟨hlist, hended, htcp⟩ := processStep_phase hs
        exact .other _ hproceed (by simp [hphase]) hlist (by simp [hphase])
          (fun hend => absurd hend hended) fun hconnect => .inr (htcp hconnect)
      · cases hs
    · cases hs
  | user state =>
    simp only [loopStep, Option.ite_none_right_eq_some] at hs
    cases hs.2
    exact .other _ (by simp [LoopLabel.connects]) (by simp) rfl id .inl .inl

end Loop

/-! ## What is allocated -/

/-- The allocated events are those in the list and some `others`. -/
structure EventHeap.Owns (heap : EventHeap) (others : Finset ℕ) : Prop where
  clean : heap.allocated.Clean
  nodup : (heap.events.map HeapEvent.address).Nodup
  held : heap.allocated.held = others ∪ heap.addresses
  disjoint : Disjoint others heap.addresses

theorem insertHeapEvent_perm (e : HeapEvent) (events : List HeapEvent) :
    (insertHeapEvent e events).Perm (e :: events) := by
  induction events with
  | nil => exact List.Perm.refl _
  | cons p events ih =>
    rw [insertHeapEvent]
    split_ifs
    · exact List.Perm.refl _
    · exact List.Perm.refl _
    · exact (ih.cons p).trans (List.Perm.swap e p events)

/-- The insertion of `initScheduler`, with its own case for the first event. -/
theorem insertFirst_perm (e : HeapEvent) (events : List HeapEvent) :
    (if events.isEmpty then [e] else insertHeapEvent e events).Perm (e :: events) := by
  cases events with
  | nil => exact List.Perm.refl _
  | cons p events => exact insertHeapEvent_perm e (p :: events)

theorem addresses_cons (e : HeapEvent) (heap : EventHeap) (allocated : Ledger ℕ) :
    EventHeap.addresses ⟨e :: heap.events, allocated⟩ = insert e.address heap.addresses :=
  List.toFinset_cons

section Owns

variable {heap heap' : EventHeap} {others : Finset ℕ}

/-- Only the addresses in the list matter, not their order. -/
theorem EventHeap.Owns.perm (h : heap.Owns others) (hallocated : heap'.allocated = heap.allocated)
    (hperm : (heap'.events.map HeapEvent.address).Perm (heap.events.map HeapEvent.address)) :
    heap'.Owns others := by
  have haddresses : heap'.addresses = heap.addresses := List.toFinset_eq_of_perm _ _ hperm
  refine ⟨?_, hperm.nodup_iff.mpr h.nodup, ?_, ?_⟩
  · rw [hallocated]
    exact h.clean
  · rw [hallocated, haddresses]
    exact h.held
  · rw [haddresses]
    exact h.disjoint

/-- A new event, at an address that is not in use. -/
theorem EventHeap.Owns.cons (h : heap.Owns others) {e : HeapEvent}
    (hfresh : e.address ∉ heap.allocated.held) :
    EventHeap.Owns ⟨e :: heap.events, heap.allocated.acquire e.address⟩ others := by
  rw [h.held, Finset.mem_union, not_or] at hfresh
  obtain ⟨hothers, hlist⟩ := hfresh
  refine ⟨h.clean, ?_, ?_, ?_⟩
  · rw [List.map_cons, List.nodup_cons]
    exact ⟨fun hmem => hlist (List.mem_toFinset.mpr hmem), h.nodup⟩
  · rw [Ledger.acquire_held, addresses_cons, h.held, Finset.union_insert]
  · rw [addresses_cons, Finset.disjoint_insert_right]
    exact ⟨hothers, h.disjoint⟩

/-- The cleanup frees what is in the list, and leaves the others. -/
theorem EventHeap.Owns.cleanup (h : heap.Owns others) :
    (cleanupSchedulerHeap heap).Owns others := by
  refine ⟨?_, List.nodup_nil, ?_, Finset.disjoint_empty_right _⟩
  · show (heap.allocated.releaseAll _).Clean
    rw [Ledger.releaseAll_clean, h.held]
    refine ⟨h.clean, h.nodup, fun a ha => ?_⟩
    exact Finset.mem_union_right _ (List.mem_toFinset.mpr ha)
  · show (heap.allocated.releaseAll _).held = others ∪ ∅
    rw [Ledger.releaseAll_held, h.held, Finset.union_empty]
    exact Finset.union_sdiff_cancel_right h.disjoint

/-- A list that is given up: its events are allocated for ever. -/
theorem EventHeap.Owns.forget (h : heap.Owns others) :
    EventHeap.Owns ⟨[], heap.allocated⟩ (others ∪ heap.addresses) :=
  ⟨h.clean, List.nodup_nil, by rw [h.held]; exact (Finset.union_empty _).symm,
    Finset.disjoint_empty_right _⟩

/-- `initScheduler` ends with a list, or cleans up. -/
theorem EventHeap.Owns.initLoop {allocator : Allocator} {malloc : ℕ → Bool}
    {currentTime : Timespec} {i : ℕ} {actions : List TModbusAction} {ret : ℤ}
    (h : heap.Owns others)
    (hinit : initSchedulerHeapLoop allocator malloc currentTime i actions heap = .ok (ret, heap'))
    (hne : actions ≠ [] ∨ heap.events ≠ []) :
    heap'.Owns others ∧ (ret < 0 ↔ heap'.events = []) := by
  induction actions generalizing i heap with
  | nil =>
    cases hinit
    exact ⟨h, iff_of_false (lt_irrefl 0) (by simpa using hne)⟩
  | cons action actions ih =>
    rw [initSchedulerHeapLoop] at hinit
    by_cases hmalloc : malloc i
    · rw [if_pos hmalloc] at hinit
      obtain ⟨event, -, hinit⟩ := bind_eq_ok.mp hinit
      have hperm := insertFirst_perm ⟨allocator.address i heap.allocated.held, event⟩ heap.events
      refine ih ?_ hinit (.inr fun hnil => ?_)
      · exact (h.cons (allocator.fresh i heap.allocated.held)).perm rfl (hperm.map _)
      · exact List.cons_ne_nil _ _ (hperm.symm.trans (.of_eq hnil)).eq_nil
    · rw [if_neg hmalloc] at hinit
      cases hinit
      exact ⟨h.cleanup, iff_of_true (by decide) rfl⟩

theorem EventHeap.Owns.init {allocator : Allocator} {malloc : ℕ → Bool} {currentTime : Timespec}
    {actions : List TModbusAction} {ret : ℤ} (h : heap.Owns others)
    (hinit : initSchedulerHeap allocator malloc currentTime actions heap.allocated =
      .ok (ret, heap')) :
    heap'.Owns (others ∪ heap.addresses) ∧ (ret < 0 ↔ heap'.events = []) := by
  unfold initSchedulerHeap at hinit
  split_ifs at hinit with hempty
  · cases hinit
    exact ⟨h.forget, iff_of_true (by decide) rfl⟩
  · refine h.forget.initLoop hinit (.inl fun hnil => hempty ?_)
    rw [hnil]
    rfl

/-- `getNextEvent` takes an event out of the list and puts the same one in again. -/
theorem getNextHeapEvent_perm (h : getNextHeapEvent heap = .ok heap') :
    heap'.allocated = heap.allocated ∧
      (heap'.events.map HeapEvent.address).Perm (heap.events.map HeapEvent.address) := by
  unfold getNextHeapEvent at h
  split at h
  · cases h
    exact ⟨rfl, List.Perm.refl _⟩
  · rename_i p events hevents
    obtain ⟨triggerTime, -, h⟩ := bind_eq_ok.mp h
    cases h
    rw [hevents]
    exact ⟨rfl, (insertHeapEvent_perm _ events).map HeapEvent.address⟩

end Owns

variable {host : Host σ} {config : TModbusMasterConfiguration} {s s' : HeapLoop σ}
  {l : LoopLabel σ × Allocator}

/-- As long as the thread runs, the list with its addresses is its event list. -/
def Related (s : HeapLoop σ) : Prop :=
  s.loop.phase ≠ .ended → s.heap.events.map HeapEvent.event = s.loop.eventList

theorem heapAfter_of_other {label : LoopLabel σ} (hconnect : ¬ label.connects)
    (hproceed : label = .proceed → s.loop.phase ≠ .nextEvent) (allocator : Allocator) :
    heapAfter config s allocator label = .ok s.heap := by
  cases label with
  | connect connected malloc currentTime =>
    cases connected with
    | true => exact absurd rfl hconnect
    | false => rfl
  | proceed => exact if_neg (hproceed rfl)
  | user state => rfl

/-- The steps of the thread with addresses are its steps without them. -/
theorem heapStep_of_loopStep {label : LoopLabel σ} {loop : LoopState σ} (h : Related s)
    (hs : loopStep host config s.loop label = some loop) (allocator : Allocator) :
    ∃ s', heapStep host config s (label, allocator) = some s' ∧ s'.loop = loop ∧ Related s' := by
  suffices hheap : ∃ heap, heapAfter config s allocator label = .ok heap ∧ Related ⟨loop, heap⟩ by
    obtain ⟨heap, hafter, hrelated⟩ := hheap
    refine ⟨⟨loop, heap⟩, ?_, rfl, hrelated⟩
    rw [heapStep, hs, hafter]
  cases loopStep_listStep hs with
  | connects malloc currentTime ret eventList hphase hinit hret =>
    obtain ⟨heap, hheap, hevents⟩ :=
      initSchedulerHeap_of allocator malloc currentTime hinit s.heap.allocated
    refine ⟨heap, by simp only [heapAfter, hheap, ok_bind, except_pure], fun hne => ?_⟩
    obtain ⟨-, hend⟩ | ⟨-, -, hlist⟩ := hret
    · exact absurd hend hne
    · exact hevents.trans hlist.symm
  | nextEvent nextEvent pending hphase hphase' hnext =>
    rw [← h (by simp [hphase])] at hnext
    obtain ⟨heap, hheap, hevents⟩ := getNextHeapEvent_of hnext
    exact ⟨heap, by rw [heapAfter, if_pos hphase, hheap], fun _ => hevents⟩
  | other l hconnects hproceed hlist hstays =>
    refine ⟨s.heap, heapAfter_of_other hconnects hproceed allocator, fun hne => ?_⟩
    exact (h fun hend => hne (hstays hend)).trans hlist.symm

/-- Related states have the same runs. -/
theorem run_heapStep (h : Related s) (labels : List (LoopLabel σ × Allocator)) :
    (run (heapStep host config) s labels).map HeapLoop.loop =
      run (loopStep host config) s.loop (labels.map Prod.fst) := by
  induction labels generalizing s with
  | nil => rfl
  | cons l labels ih =>
    rw [List.map_cons, run, run]
    cases hloop : loopStep host config s.loop l.1 with
    | none =>
      rw [heapStep, hloop]
      rfl
    | some loop =>
      obtain ⟨s', hs, rfl, hrelated⟩ := heapStep_of_loopStep h hloop l.2
      rw [show heapStep host config s l = some s' from hs, Option.bind_some, Option.bind_some]
      exact ih hrelated

/-- **The heap behind the loop.** The runs with addresses are the runs of the loop. -/
theorem run_heapStep_start (state : σ) (labels : List (LoopLabel σ × Allocator)) :
    (run (heapStep host config) (.start host config state) labels).map HeapLoop.loop =
      run (loopStep host config) (.start host config state) (labels.map Prod.fst) :=
  run_heapStep (fun _ => rfl) labels

theorem heapStep_parts (hs : heapStep host config s l = some s') :
    loopStep host config s.loop l.1 = some s'.loop ∧ heapAfter config s l.2 l.1 = .ok s'.heap := by
  unfold heapStep at hs
  split at hs
  · rename_i hloop hheap
    cases hs
    exact ⟨hloop, hheap⟩
  · cases hs

/-- A successful connect gives up the list and makes a new one. -/
theorem heap_of_connect {others : Finset ℕ} (hs : heapStep host config s l = some s')
    (hconnect : l.1.connects) (h : s.heap.Owns others) :
    s.loop.phase = .connect ∧ s'.heap.Owns (others ∪ s.heap.addresses) ∧
      (s'.loop.phase = .ended ∧ s'.heap.events = [] ∨
        s'.loop.phase = .nextEvent ∧ s'.heap.events ≠ []) := by
  obtain ⟨label, allocator⟩ := l
  obtain ⟨hloop, hheap⟩ := heapStep_parts hs
  cases loopStep_listStep hloop with
  | connects malloc currentTime ret eventList hphase hinit hret =>
    obtain ⟨heap, hheap', -⟩ :=
      initSchedulerHeap_of allocator malloc currentTime hinit s.heap.allocated
    rw [heapAfter, hheap'] at hheap
    cases hheap
    obtain ⟨howns, hempty⟩ := h.init hheap'
    refine ⟨hphase, howns, ?_⟩
    obtain ⟨hneg, hend⟩ | ⟨hnonneg, hnext, -⟩ := hret
    · exact .inl ⟨hend, hempty.mp hneg⟩
    · exact .inr ⟨hnext, fun hnil => absurd (hempty.mpr hnil) (not_lt.mpr hnonneg)⟩
  | nextEvent => cases hconnect
  | other label hconnects => exact absurd hconnect hconnects

/-- All other steps keep the events, and only an RTU thread ends at its connect. -/
theorem heap_of_other (hs : heapStep host config s l = some s') (hother : ¬ l.1.connects) :
    s'.heap.allocated = s.heap.allocated ∧
      (s'.heap.events.map HeapEvent.address).Perm (s.heap.events.map HeapEvent.address) ∧
      (s.loop.phase = .ended → s'.loop.phase = .ended) ∧
      (s'.loop.phase = .ended → s.loop.phase = .ended ∨
        s.loop.phase = .connect ∧ config.tModbusDeviceConfig.uProt.eProtocol = .protRTU) ∧
      (s'.loop.phase = .connect → s.loop.phase = .connect ∨
        config.tModbusDeviceConfig.uProt.eProtocol = .protTCP) := by
  obtain ⟨label, allocator⟩ := l
  obtain ⟨hloop, hheap⟩ := heapStep_parts hs
  cases loopStep_listStep hloop with
  | connects => exact absurd rfl hother
  | nextEvent nextEvent pending hphase hphase' hnext =>
    rw [heapAfter, if_pos hphase] at hheap
    obtain ⟨hallocated, hperm⟩ := getNextHeapEvent_perm hheap
    exact ⟨hallocated, hperm, by simp [hphase], by simp [hphase'], by simp [hphase']⟩
  | other label hconnects hproceed hlist hstays hended hreconnects =>
    rw [heapAfter_of_other hother hproceed] at hheap
    rw [← Except.ok.inj hheap]
    exact ⟨rfl, List.Perm.refl _, hstays, hended, hreconnects⟩

/-! ## The invariant -/

/-- In a run without a second connect, only the events in the list are allocated. -/
structure HeapInv (config : TModbusMasterConfiguration) (s : HeapLoop σ) : Prop where
  owns : s.heap.Owns ∅
  ended : s.loop.phase = .ended → s.heap.events = []
  rtu : config.tModbusDeviceConfig.uProt.eProtocol = .protRTU → s.loop.phase = .connect →
    s.heap.events = []

/-- Nothing is allocated before the step, if it is a successful connect. -/
def ConnectsEmpty (s : HeapLoop σ) (l : LoopLabel σ × Allocator) : Prop :=
  l.1.connects → s.heap.allocated.held = ∅

theorem heapInv_start (state : σ) : HeapInv config (.start host config state) where
  owns := ⟨rfl, List.nodup_nil, rfl, Finset.disjoint_empty_right _⟩
  ended := nofun
  rtu _ _ := rfl

theorem HeapInv.held (h : HeapInv config s) : s.heap.allocated.held = s.heap.addresses := by
  rw [h.owns.held, Finset.empty_union]

theorem HeapInv.accounted (h : HeapInv config s) : EventsAccounted s := by
  refine ⟨fun _ => h.held, fun hend => ?_⟩
  have hnil := h.ended hend
  refine ⟨hnil, ?_⟩
  rw [h.held, EventHeap.addresses, hnil]
  rfl

theorem HeapInv.step (h : HeapInv config s) (hs : heapStep host config s l = some s')
    (hok : ConnectsEmpty s l) : HeapInv config s' := by
  by_cases hconnect : l.1.connects
  · obtain ⟨-, howns, hphase⟩ := heap_of_connect hs hconnect h.owns
    have hempty := hok hconnect
    rw [h.held] at hempty
    rw [hempty, Finset.union_empty] at howns
    refine ⟨howns, fun hend => ?_, fun _ hphase' => ?_⟩
    · obtain ⟨-, hnil⟩ | ⟨hnext, -⟩ := hphase
      · exact hnil
      · cases hend.symm.trans hnext
    · obtain ⟨hend, -⟩ | ⟨hnext, -⟩ := hphase
      · cases hphase'.symm.trans hend
      · cases hphase'.symm.trans hnext
  · obtain ⟨hallocated, hperm, -, hended, hconnects⟩ := heap_of_other hs hconnect
    have hnil : s.heap.events = [] → s'.heap.events = [] := by
      intro hnil
      rw [hnil] at hperm
      exact List.map_eq_nil_iff.mp hperm.eq_nil
    refine ⟨h.owns.perm hallocated hperm, fun hend => hnil ?_, fun hrtu hphase => hnil ?_⟩
    · obtain hend' | ⟨hphase, hrtu⟩ := hended hend
      · exact h.ended hend'
      · exact h.rtu hrtu hphase
    · obtain hphase' | htcp := hconnects hphase
      · exact h.rtu hrtu hphase'
      · cases hrtu.symm.trans htcp

/-- A connect while events are allocated leaks them. -/
theorem HeapInv.not_accounted (h : HeapInv config s) (hs : heapStep host config s l = some s')
    (hbad : ¬ ConnectsEmpty s l) : ¬ EventsAccounted s' := by
  unfold ConnectsEmpty at hbad
  push Not at hbad
  obtain ⟨hconnect, hheld⟩ := hbad
  rw [h.held] at hheld
  obtain ⟨-, howns, hphase⟩ := heap_of_connect hs hconnect h.owns
  rw [Finset.empty_union] at howns
  rintro ⟨hnext, hended⟩
  obtain ⟨hend, -⟩ | ⟨hphase, -⟩ := hphase
  · have hempty := (hended hend).2
    rw [howns.held, Finset.union_eq_empty] at hempty
    exact hheld.ne_empty hempty.1
  · have heq := hnext hphase
    rw [howns.held, Finset.union_eq_right] at heq
    exact hheld.ne_empty (Finset.disjoint_self_iff_empty _ |>.mp (howns.disjoint.mono_right heq))

/-- What is allocated says whether the thread has connected before. -/
structure ConnectRecord (past : List (LoopLabel σ × Allocator)) (s : HeapLoop σ) : Prop where
  owns : ∃ others, s.heap.Owns others
  held : s.loop.phase ≠ .ended →
    (s.heap.allocated.held = ∅ ↔ ∀ l ∈ past, ¬ l.1.connects)

theorem connectRecord_start (state : σ) :
    ConnectRecord [] (HeapLoop.start host config state) where
  owns := ⟨∅, (heapInv_start state).owns⟩
  held _ := iff_of_true rfl nofun

theorem ConnectRecord.step {past : List (LoopLabel σ × Allocator)} (h : ConnectRecord past s)
    (hs : heapStep host config s l = some s') : ConnectRecord (l :: past) s' := by
  obtain ⟨others, howns⟩ := h.owns
  by_cases hconnect : l.1.connects
  · obtain ⟨-, howns', hphase⟩ := heap_of_connect hs hconnect howns
    refine ⟨⟨_, howns'⟩, fun hne => iff_of_false (fun hempty => ?_) fun hall => ?_⟩
    · obtain ⟨hend, -⟩ | ⟨-, hevents⟩ := hphase
      · exact hne hend
      · rw [howns'.held, Finset.union_eq_empty] at hempty
        have hnil := List.map_eq_nil_iff.mp (List.toFinset_eq_empty_iff _ |>.mp hempty.2)
        exact hevents hnil
    · exact hall l List.mem_cons_self hconnect
  · obtain ⟨hallocated, hperm, hended, -⟩ := heap_of_other hs hconnect
    refine ⟨⟨others, howns.perm hallocated hperm⟩, fun hne => ?_⟩
    rw [hallocated, h.held fun hend => hne (hended hend), List.forall_mem_cons]
    exact (and_iff_right hconnect).symm

/-- For a thread that connects, it is the same that nothing is allocated and that it has not
connected before. -/
theorem ConnectRecord.connectsEmpty_iff {past : List (LoopLabel σ × Allocator)}
    (h : ConnectRecord past s) (hs : heapStep host config s l = some s') :
    ConnectsEmpty s l ↔ ConnectsOnce past s l := by
  refine imp_congr_right fun hconnect => h.held ?_
  obtain ⟨others, howns⟩ := h.owns
  rw [(heap_of_connect hs hconnect howns).1]
  simp

/-- **The events of a master.** In a run of the thread, with any number of lost connections and
reconnects and with any outcomes of `malloc`, the allocated events are those in the list before
every `getNextEvent`, and a failed `initScheduler` leaves none, exactly when the thread connects
successfully no more than once. -/
theorem eventsAccounted_iff (host : Host σ) (config : TModbusMasterConfiguration) (state : σ)
    (labels : List (LoopLabel σ × Allocator)) :
    Throughout (heapStep host config) EventsAccounted (.start host config state) labels ↔
      AlongHistory (heapStep host config) ConnectsOnce [] (.start host config state) labels := by
  rw [throughout_iff_along (fun _ h => HeapInv.accounted h)
    (fun _ _ _ h hs hok => HeapInv.step h hs hok)
    (fun _ _ _ h hs hbad => HeapInv.not_accounted h hs hbad) (heapInv_start state) labels]
  exact along_iff_alongHistory (fun _ _ _ _ h hs => h.step hs)
    (fun _ _ _ _ h hs => h.connectsEmpty_iff hs) (connectRecord_start state) labels

/-- The addresses are handed out in ascending order. -/
def ascendingAllocator : Allocator where
  address _ held := held.sup id + 1
  fresh _ held hmem := by
    have hle : held.sup id + 1 ≤ held.sup id := Finset.le_sup (f := id) hmem
    omega

/-- The connect to a device that never answers, a hundred and one failed actions, and the next
connect. -/
def reconnectAfterErrors : List (LoopLabel Image × Allocator) :=
  let connect : LoopLabel Image := .connect true (fun _ => true) ⟨0, 0⟩
  ((connect :: List.replicate 404 .proceed) ++ [connect]).map (·, ascendingAllocator)

/-- The events of the first connection are not freed. -/
theorem not_eventsAccounted_reconnectAfterErrors :
    ¬ Throughout (heapStep silentHost twoReadsConfig) EventsAccounted
      (.start silentHost twoReadsConfig (fun _ => 0)) reconnectAfterErrors := by
  intro h
  have hrun : (run (heapStep silentHost twoReadsConfig)
      (.start silentHost twoReadsConfig (fun _ => 0)) reconnectAfterErrors).map
      (fun s => (s.loop.phase, s.heap.allocated.held, s.heap.addresses)) =
        some (.nextEvent, {1, 2, 3, 4}, {3, 4}) := by decide +kernel
  obtain ⟨s, hs, hleak⟩ := Option.map_eq_some_iff.mp hrun
  simp only [Prod.mk.injEq] at hleak
  obtain ⟨hphase, hheld, haddresses⟩ := hleak
  have heq := (h.last hs).1 hphase
  rw [hheld, haddresses] at heq
  exact absurd heq (by decide)

end RevPiModbus
