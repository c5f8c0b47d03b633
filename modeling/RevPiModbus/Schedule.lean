import RevPiModbus.Scheduler
import RevPiModbus.Lib.PeriodicQueue

/-!
# The schedule of a Modbus master

The event list of `Scheduler.c` refines a queue of periodic jobs: an event stands for the job
whose name is its action, with interval and trigger time in nanoseconds.

* `getNextEvents_refines`: the calls of `getNextEvent` are the dispatches of that queue, and no
  assertion fails;
* `initScheduler_refines`: the list that `initScheduler` builds is a `Ready` queue of one job for
  each action;
* `getNextEvents_eq_schedule`: the delivered events are exactly the first periodic instants of the
  actions, in order;
* `schedulerInv_run`: what holds of the list after any number of calls.
-/

namespace RevPiModbus

open PeriodicQueue Enumeration Timespec

/-! ## Events as jobs -/

/-- The periodic job that an event stands for. -/
def SchedulerEvent.job (e : SchedulerEvent) : Job ℕ ℤ :=
  ⟨e.ptModbusAction, e.intervalTime.toNs, e.triggerTime.toNs⟩

/-- The event that is delivered for a job. -/
def jobEvent (j : Job ℕ ℤ) : TModbusEvent := ⟨ofNs j.due, j.id⟩

theorem jobEvent_job {e : SchedulerEvent} (h : e.Normalised) :
    jobEvent e.job = ⟨e.triggerTime, e.ptModbusAction⟩ := by
  simp only [jobEvent, SchedulerEvent.job, h.2.ofNs_toNs]

theorem SchedulerEvent.next_job (e : SchedulerEvent) : e.next.job = e.job.advance 1 := by
  ext <;> simp [SchedulerEvent.job, SchedulerEvent.next]

theorem insertEventByDueDate_normalised {e : SchedulerEvent} {events : List SchedulerEvent}
    (he : e.Normalised) (h : ∀ p ∈ events, p.Normalised) :
    ∀ p ∈ insertEventByDueDate e events, p.Normalised := by
  intro p hp
  rcases List.mem_cons.1 ((insertEventByDueDate_perm e events).mem_iff.1 hp) with rfl | hp
  · exact he
  · exact h p hp

/-- On normalised events the insertion by due date is the insertion of the job queue. -/
theorem insertEventByDueDate_job {e : SchedulerEvent} {events : List SchedulerEvent}
    (he : e.Normalised) (h : ∀ p ∈ events, p.Normalised) :
    (insertEventByDueDate e events).map SchedulerEvent.job =
      insertByDue e.job (events.map SchedulerEvent.job) := by
  induction events with
  | nil => rfl
  | cons p events ih =>
    have hp : p.Normalised := h p (by simp)
    have hlt : e.triggerTime.Earlier p.triggerTime ↔ e.job.due < p.job.due :=
      earlier_iff he.2 hp.2
    rw [insertEventByDueDate_cons, List.map_cons, insertByDue, List.orderedInsert_cons]
    by_cases hep : e.job.due < p.job.due
    · rw [if_pos (hlt.2 hep), if_pos hep, List.map_cons, List.map_cons]
    · rw [if_neg (mt hlt.1 hep), if_neg hep, List.map_cons,
        ih fun k hk => h k (List.mem_cons_of_mem p hk)]
      rfl

/-- **Any number of calls of `getNextEvent` is as many dispatches of the job queue**, and the
assertions of `timespec_add` hold in all of them. -/
theorem getNextEvents_refines {q : List SchedulerEvent} (hq : ∀ e ∈ q, e.Normalised)
    (hne : q ≠ []) (m : ℕ) :
    ∃ r, getNextEvents q m = .ok ((deliver (q.map SchedulerEvent.job) m).1.map jobEvent, r) ∧
      (∀ e ∈ r, e.Normalised) ∧
      r.map SchedulerEvent.job = (deliver (q.map SchedulerEvent.job) m).2 := by
  induction m with
  | zero => exact ⟨q, rfl, hq, rfl⟩
  | succ m ih =>
    obtain ⟨r, hr, hn, hj⟩ := ih
    cases r with
    | nil =>
      have hlen := deliver_length (q.map SchedulerEvent.job) m
      rw [← hj] at hlen
      exact absurd (List.map_eq_nil_iff.1 (List.length_eq_zero_iff.1 hlen.symm)) hne
    | cons e r =>
      have he : e.Normalised := hn e (by simp)
      have hr' : ∀ p ∈ r, p.Normalised := fun p hp => hn p (List.mem_cons_of_mem e hp)
      refine ⟨insertEventByDueDate e.next r, ?_,
        insertEventByDueDate_normalised (SchedulerEvent.next_normalised he) hr', ?_⟩
      · rw [getNextEvents_succ hr he, deliver_succ hj.symm]
        simp only [List.map_append, List.map_cons, List.map_nil, jobEvent_job he]
      · rw [insertEventByDueDate_job (SchedulerEvent.next_normalised he) hr',
          SchedulerEvent.next_job, deliver_succ hj.symm]

/-! ## The initial list -/

/-- The job of an action at the start. -/
def initialJob (now : Timespec) (i : ℕ) (a : TModbusAction) : Job ℕ ℤ :=
  ⟨i, a.intervalTime.toNs, firstTrigger now a⟩

/-- The jobs of the actions from position `i` on. -/
def initialJobs (now : Timespec) (i : ℕ) (actions : List TModbusAction) : List (Job ℕ ℤ) :=
  (actions.zipIdx i).map fun x => initialJob now x.2 x.1

theorem initialJobs_cons (now : Timespec) (i : ℕ) (a : TModbusAction)
    (actions : List TModbusAction) :
    initialJobs now i (a :: actions) = initialJob now i a :: initialJobs now (i + 1) actions := by
  simp [initialJobs, List.zipIdx_cons]

/-- The invariant of the loop of `initScheduler` in front of the action at position `i`. -/
structure InitInv (now : Timespec) (i : ℕ) (q : List SchedulerEvent) : Prop where
  normalised : ∀ e ∈ q, e.Normalised
  ready : Ready (q.map SchedulerEvent.job)
  first : ∀ j ∈ q.map SchedulerEvent.job, j.prev.due = now.toNs + s32NanosecondsPerSecond
  earlier : ∀ j ∈ q.map SchedulerEvent.job, j.id < i

theorem InitInv.nil (now : Timespec) : InitInv now 0 [] :=
  ⟨by simp, ⟨List.Pairwise.nil, by simp, by simp⟩, by simp, by simp⟩

theorem InitInv.step {now : Timespec} {i : ℕ} {q : List SchedulerEvent} (h : InitInv now i q)
    {a : TModbusAction} (ha : 0 < a.i32uIntervalUs) :
    InitInv now (i + 1)
      (insertEventByDueDate ⟨a.intervalTime, ofNs (firstTrigger now a), i⟩ q) := by
  set e : SchedulerEvent := ⟨a.intervalTime, ofNs (firstTrigger now a), i⟩ with he
  have hen : e.Normalised := ⟨intervalTime_normalised a, ofNs_normalised _⟩
  have hprev : e.job.prev.due = now.toNs + s32NanosecondsPerSecond := by
    simp [he, SchedulerEvent.job, firstTrigger]
  have hmap := insertEventByDueDate_job hen h.normalised
  have hbase : ∀ j ∈ e.job :: q.map SchedulerEvent.job,
      j.prev.due = now.toNs + s32NanosecondsPerSecond := by
    intro j hj
    rcases List.mem_cons.1 hj with rfl | hj
    · exact hprev
    · exact h.first j hj
  refine ⟨insertEventByDueDate_normalised hen h.normalised, ?_, ?_, ?_⟩
  · rw [hmap]
    exact h.ready.insert_first hbase (intervalTime_pos ha) h.earlier
  · rw [hmap]
    exact fun j hj => hbase j (List.mem_cons.2 (mem_insertByDue.1 hj))
  · rw [hmap]
    intro j hj
    rcases mem_insertByDue.1 hj with rfl | hj
    · exact Nat.lt_succ_self i
    · exact (h.earlier j hj).trans (Nat.lt_succ_self i)

theorem initSchedulerLoop_cons {malloc : ℕ → Bool} {now : Timespec} (hnow : now.Normalised)
    {i : ℕ} (a : TModbusAction) (actions : List TModbusAction) (q : List SchedulerEvent)
    (hi : malloc i = true) :
    initSchedulerLoop malloc now i (a :: actions) q =
      initSchedulerLoop malloc now (i + 1) actions
        (insertEventByDueDate ⟨a.intervalTime, ofNs (firstTrigger now a), i⟩ q) := by
  rw [initSchedulerLoop, if_pos hi, newSchedulerEvent_eq hnow, ok_bind]
  cases q <;> rfl

theorem initSchedulerLoop_refines {malloc : ℕ → Bool} {now : Timespec} (hnow : now.Normalised)
    {i : ℕ} {actions : List TModbusAction} {q q' : List SchedulerEvent}
    (hpos : ∀ a ∈ actions, 0 < a.i32uIntervalUs) (h : InitInv now i q)
    (hret : initSchedulerLoop malloc now i actions q = .ok (0, q')) :
    InitInv now (i + actions.length) q' ∧
      (q'.map SchedulerEvent.job).Perm (initialJobs now i actions ++ q.map SchedulerEvent.job) := by
  induction actions generalizing i q with
  | nil =>
    simp only [initSchedulerLoop, Except.ok.injEq, Prod.mk.injEq, true_and] at hret
    subst hret
    exact ⟨by simpa using h, by simp [initialJobs]⟩
  | cons a actions ih =>
    by_cases hi : malloc i = true
    · rw [initSchedulerLoop_cons hnow a actions q hi] at hret
      obtain ⟨hinv, hperm⟩ := ih (fun b hb => hpos b (List.mem_cons_of_mem a hb))
        (h.step (hpos a (by simp))) hret
      refine ⟨by simpa [Nat.add_assoc, Nat.add_comm 1] using hinv, hperm.trans ?_⟩
      rw [initialJobs_cons, List.cons_append]
      refine List.Perm.trans (List.Perm.append_left _ ?_) List.perm_middle
      have hjob : (⟨a.intervalTime, ofNs (firstTrigger now a), i⟩ : SchedulerEvent).job =
          initialJob now i a := by simp [SchedulerEvent.job, initialJob]
      rw [← hjob]
      exact ((insertEventByDueDate_perm _ q).map _)
    · rw [initSchedulerLoop, if_neg hi] at hret
      simp at hret

/-- **The initial list is a `Ready` queue of one job for each action.** -/
theorem initScheduler_refines {malloc : ℕ → Bool} {now : Timespec} (hnow : now.Normalised)
    {actions : List TModbusAction} (hpos : ∀ a ∈ actions, 0 < a.i32uIntervalUs)
    {q : List SchedulerEvent} (hret : initScheduler malloc now actions = .ok (0, q)) :
    q ≠ [] ∧ InitInv now actions.length q ∧
      (q.map SchedulerEvent.job).Perm (initialJobs now 0 actions) := by
  unfold initScheduler at hret
  split_ifs at hret with hempty
  · simp at hret
  obtain ⟨hinv, hperm⟩ := initSchedulerLoop_refines hnow hpos (InitInv.nil now) hret
  simp only [Nat.zero_add, List.map_nil, List.append_nil] at hinv hperm
  refine ⟨fun hq => hempty ?_, hinv, hperm⟩
  have hlen := hperm.length_eq
  simp only [hq, initialJobs, List.map_nil, List.length_nil, List.length_map,
    List.length_zipIdx] at hlen
  exact List.isEmpty_iff_length_eq_zero.2 hlen.symm

/-- If no allocation fails, `initScheduler` succeeds on every list but the empty one. -/
theorem initScheduler_ok {malloc : ℕ → Bool} {now : Timespec} (hnow : now.Normalised)
    {actions : List TModbusAction} (hne : actions ≠ [])
    (hmalloc : ∀ i < actions.length, malloc i = true) :
    ∃ q, initScheduler malloc now actions = .ok (0, q) := by
  have hloop : ∀ (l : List TModbusAction) (i : ℕ) (q : List SchedulerEvent),
      (∀ k < l.length, malloc (i + k) = true) →
        ∃ q', initSchedulerLoop malloc now i l q = .ok (0, q') := by
    intro l
    induction l with
    | nil => exact fun _ q _ => ⟨q, rfl⟩
    | cons a l ih =>
      intro i q hm
      rw [initSchedulerLoop_cons hnow a l q (by simpa using hm 0 (by simp))]
      refine ih (i + 1) _ fun k hk => ?_
      have := hm (k + 1) (by simpa using hk)
      rwa [Nat.add_assoc, Nat.add_comm 1]
  rw [initScheduler, if_neg (by simpa using hne)]
  exact hloop actions 0 [] (by simpa using hmalloc)

/-! ## The schedule -/

/-- The periodic instants of the actions: for the action at position `i` with the interval `p`
the times `now + 1 s + k · p` with `k ≥ 1`. -/
def schedule (now : Timespec) (actions : List TModbusAction) : Set (Job ℕ ℤ) :=
  {x | ∃ a, actions[x.id]? = some a ∧ x.period = a.i32uIntervalUs.toNat * 1000 ∧
    ∃ k : ℕ, 1 ≤ k ∧
      x.due = now.toNs + s32NanosecondsPerSecond + k * (a.i32uIntervalUs.toNat * 1000)}

theorem instances_perm {q q' : List (Job ℕ ℤ)} (h : q.Perm q') : instances q = instances q' := by
  ext x
  simp only [instances, h.mem_iff]

theorem instances_initialJobs (now : Timespec) (actions : List TModbusAction) :
    instances (initialJobs now 0 actions) = schedule now actions := by
  ext x
  simp only [instances, initialJobs, List.mem_map, Prod.exists, List.mem_zipIdx_iff_getElem?,
    schedule, Set.mem_ofPred_eq]
  constructor
  · rintro ⟨j, ⟨a, i, hi, rfl⟩, k, rfl⟩
    refine ⟨a, hi, by simp [initialJob, intervalTime_toNs], k + 1, by omega, ?_⟩
    simp only [initialJob, firstTrigger, Job.advance_due, intervalTime_toNs, nsmul_eq_mul]
    push_cast
    ring
  · rintro ⟨a, ha, hp, k, hk, hd⟩
    obtain ⟨n, rfl⟩ := Nat.exists_eq_add_of_le' hk
    refine ⟨initialJob now x.id a, ⟨a, x.id, ha, rfl⟩, n, ?_⟩
    ext
    · rfl
    · simpa [initialJob, intervalTime_toNs] using hp
    · rw [hd]
      simp only [initialJob, firstTrigger, Job.advance_due, intervalTime_toNs, nsmul_eq_mul]
      push_cast
      ring

/-- **The exact schedule.** After `initScheduler` the first `m` calls of `getNextEvent` deliver
exactly the first `m` periodic instants of the actions: by trigger time, at equal times the longer
interval first, then by the position in the action list. -/
theorem getNextEvents_eq_schedule {malloc : ℕ → Bool} {now : Timespec} (hnow : now.Normalised)
    {actions : List TModbusAction} (hne : actions ≠ [])
    (hpos : ∀ a ∈ actions, 0 < a.i32uIntervalUs)
    (hmalloc : ∀ i < actions.length, malloc i = true) :
    ∃ q₀, initScheduler malloc now actions = .ok (0, q₀) ∧
      ∀ m, ∃ instants q, getNextEvents q₀ m = .ok (instants.map jobEvent, q) ∧
        instants.length = m ∧ Enumerates Before (schedule now actions) instants ∧
        ∀ e ∈ instants.map jobEvent, e.triggerTime.Normalised := by
  obtain ⟨q₀, hret⟩ := initScheduler_ok hnow hne hmalloc
  obtain ⟨hq, hinv, hperm⟩ := initScheduler_refines hnow hpos hret
  refine ⟨q₀, hret, fun m => ?_⟩
  obtain ⟨r, hr, -, -⟩ := getNextEvents_refines hinv.normalised hq m
  refine ⟨_, r, hr, deliver_fst_length (by simpa using hq) m, ?_, ?_⟩
  · rw [← instances_initialJobs, ← instances_perm hperm]
    exact deliver_enumerates hinv.ready m
  · intro e he
    obtain ⟨j, -, rfl⟩ := List.mem_map.1 he
    exact ofNs_normalised _

/-- The schedule leaves no choice: whatever lists its first instants is what `getNextEvent`
delivers. -/
theorem getNextEvents_of_enumerates {malloc : ℕ → Bool} {now : Timespec} (hnow : now.Normalised)
    {actions : List TModbusAction} (hpos : ∀ a ∈ actions, 0 < a.i32uIntervalUs)
    {q₀ : List SchedulerEvent} (hret : initScheduler malloc now actions = .ok (0, q₀))
    {instants : List (Job ℕ ℤ)} (h : Enumerates Before (schedule now actions) instants) :
    ∃ q, getNextEvents q₀ instants.length = .ok (instants.map jobEvent, q) := by
  obtain ⟨hq, hinv, hperm⟩ := initScheduler_refines hnow hpos hret
  obtain ⟨r, hr, -, -⟩ := getNextEvents_refines hinv.normalised hq instants.length
  have hdelivered := deliver_enumerates hinv.ready instants.length
  rw [instances_perm hperm, instances_initialJobs] at hdelivered
  rw [hdelivered.unique h (deliver_fst_length (by simpa using hq) _)] at hr
  exact ⟨r, hr⟩

/-- An action every millisecond and one every 1.5 s. -/
def twoActions : List TModbusAction :=
  [{ TModbusAction.zero with i32uIntervalUs := 1000 },
    { TModbusAction.zero with i32uIntervalUs := 1500000 }]

/-- Their event list if the clock reads 7.999999999 s. -/
def twoEvents : List SchedulerEvent :=
  [⟨⟨0, 1000000⟩, ⟨9, 999999⟩, 0⟩, ⟨⟨1, 500000000⟩, ⟨10, 499999999⟩, 1⟩]

theorem getNextEvents_eq_schedule_two :
    ∃ q₀, initScheduler (fun _ => true) ⟨7, 999999999⟩ twoActions = .ok (0, q₀) ∧
      ∀ m, ∃ instants q, getNextEvents q₀ m = .ok (instants.map jobEvent, q) ∧
        instants.length = m ∧ Enumerates Before (schedule ⟨7, 999999999⟩ twoActions) instants ∧
        ∀ e ∈ instants.map jobEvent, e.triggerTime.Normalised :=
  getNextEvents_eq_schedule (by decide) (by decide) (by decide) (by decide)

/-! ## The invariant of the event list -/

/-- One pass of the loop of `get_minimal_modbus_action_interval`. -/
def shorterInterval (minInterval : Timespec) (pEvent : SchedulerEvent) : Except Fault Timespec := do
  let r ← timespecDiff pEvent.intervalTime minInterval
  return if r.2 < 0 then pEvent.intervalTime else minInterval

/-- The pass keeps the shorter one of two intervals. -/
theorem shorterInterval_eq {t : Timespec} {e : SchedulerEvent} (ht : t.Normalised)
    (h0 : 0 ≤ t.tvSec) (h1 : t.tvSec < 2 ^ 31)
    (he : ∃ a : TModbusAction, e.intervalTime = a.intervalTime) :
    ∃ t', shorterInterval t e = .ok t' ∧ (t' = t ∨ t' = e.intervalTime) ∧ t'.toNs ≤ t.toNs ∧
      t'.toNs ≤ e.intervalTime.toNs := by
  obtain ⟨a, ha⟩ := he
  have hs := intervalTime_tvSec a
  obtain ⟨ret, hret, -, hneg⟩ := timespecDiff_eq (a := e.intervalTime) (b := t)
    (by rw [ha]; exact intervalTime_normalised a) ht (by rw [ha]; omega)
  rw [shorterInterval, hret]
  simp only [ok_bind, except_pure, Except.ok.injEq, exists_eq_left']
  split_ifs with hlt
  · exact ⟨Or.inr rfl, (hneg.1 hlt).le, le_rfl⟩
  · exact ⟨Or.inl rfl, le_rfl, not_lt.1 (mt hneg.2 hlt)⟩

/-- The loop keeps the shortest of the start value and the intervals seen so far. -/
theorem foldlM_shorterInterval {events : List SchedulerEvent} {t₀ : Timespec}
    (hn : t₀.Normalised) (h0 : 0 ≤ t₀.tvSec) (h1 : t₀.tvSec < 2 ^ 31)
    (hint : ∀ e ∈ events, ∃ a : TModbusAction, e.intervalTime = a.intervalTime) :
    ∃ t, events.foldlM shorterInterval t₀ = .ok t ∧ (t = t₀ ∨ ∃ e ∈ events, t = e.intervalTime) ∧
      t.toNs ≤ t₀.toNs ∧ ∀ e ∈ events, t.toNs ≤ e.intervalTime.toNs := by
  induction events generalizing t₀ with
  | nil => exact ⟨t₀, rfl, Or.inl rfl, le_rfl, by simp⟩
  | cons e events ih =>
    rw [List.forall_mem_cons] at hint
    obtain ⟨⟨a, ha⟩, hint⟩ := hint
    obtain ⟨t₁, hpass, hone, hle₀, hle⟩ := shorterInterval_eq hn h0 h1 ⟨a, ha⟩
    have hs := intervalTime_tvSec a
    have ht₁ : t₁.Normalised ∧ 0 ≤ t₁.tvSec ∧ t₁.tvSec < 2 ^ 31 := by
      obtain rfl | rfl := hone
      · exact ⟨hn, h0, h1⟩
      · rw [ha]
        exact ⟨intervalTime_normalised a, hs.1, by omega⟩
    obtain ⟨t, ht, hmem, hmin, hall⟩ := ih ht₁.1 ht₁.2.1 ht₁.2.2 hint
    refine ⟨t, by rw [List.foldlM_cons, hpass, ok_bind, ht], ?_, hmin.trans hle₀, ?_⟩
    · obtain rfl | ⟨p, hp, rfl⟩ := hmem
      · exact hone.imp id fun heq => ⟨e, List.mem_cons_self, heq⟩
      · exact Or.inr ⟨p, List.mem_cons_of_mem e hp, rfl⟩
    · rw [List.forall_mem_cons]
      exact ⟨hmin.trans hle, hall⟩

/-- The shortest interval among the events, if the intervals are those of actions. -/
theorem getMinimalModbusActionInterval_eq {events : List SchedulerEvent} (hne : events ≠ [])
    (hint : ∀ e ∈ events, ∃ a : TModbusAction, e.intervalTime = a.intervalTime) :
    ∃ t, getMinimalModbusActionInterval events = .ok t ∧ (∃ e ∈ events, t = e.intervalTime) ∧
      ∀ e ∈ events, t.toNs ≤ e.intervalTime.toNs := by
  have hloop : getMinimalModbusActionInterval events =
      events.foldlM shorterInterval ⟨2 ^ 31 - 1, s32NanosecondsPerSecond - 1⟩ := rfl
  rw [hloop]
  have hstart : Timespec.Normalised ⟨2 ^ 31 - 1, s32NanosecondsPerSecond - 1⟩ := by decide
  obtain ⟨t, ht, hmem, -, hall⟩ :=
    foldlM_shorterInterval hstart (by decide) (by decide) hint
  refine ⟨t, ht, ?_, hall⟩
  rcases hmem with rfl | hmem
  · -- every interval is shorter than the start value
    obtain ⟨e, he⟩ := List.exists_mem_of_ne_nil events hne
    obtain ⟨a, ha⟩ := hint e he
    have h1 := hall e he
    have h2 := intervalTime_tvSec a
    have h3 := intervalTime_normalised a
    simp only [Timespec.Normalised, s32NanosecondsPerSecond] at h3
    rw [ha] at h1
    simp only [toNs, s32NanosecondsPerSecond] at h1
    omega
  · exact hmem

/-- What holds of the event list when `delivered` are the events delivered so far. -/
structure SchedulerInv (actions : List TModbusAction) (delivered : List TModbusEvent)
    (events : List SchedulerEvent) : Prop where
  nonempty : events ≠ []
  /-- One event for each action, with its pointer and its interval. -/
  conserved : (events.map fun e => (e.ptModbusAction, e.intervalTime)).Perm
    (actions.zipIdx.map fun x => (x.2, x.1.intervalTime))
  sorted : events.Pairwise fun a b => ¬ b.triggerTime.Earlier a.triggerTime
  normalised : ∀ e ∈ events, e.Normalised
  /-- Behind the last event delivered, every event is due within one interval of its own. -/
  window : ∀ T, delivered.getLast? = some T → ∀ e ∈ events,
    T.triggerTime.toNs ≤ e.triggerTime.toNs ∧
      e.triggerTime.toNs ≤ T.triggerTime.toNs + e.intervalTime.toNs

theorem sorted_of_increasing {events : List SchedulerEvent} (hn : ∀ e ∈ events, e.Normalised)
    (h : (events.map SchedulerEvent.job).Pairwise Before) :
    events.Pairwise fun a b => ¬ b.triggerTime.Earlier a.triggerTime := by
  rw [List.pairwise_map] at h
  refine h.imp_of_mem fun {a b} ha hb hab => ?_
  rw [earlier_iff (hn b hb).2 (hn a ha).2, not_lt]
  exact hab.due_le

theorem entries_of_jobs {events : List SchedulerEvent} (hn : ∀ e ∈ events, e.Normalised) :
    (events.map fun e => (e.ptModbusAction, e.intervalTime)) =
      ((events.map SchedulerEvent.job).map fun j => (j.id, j.period)).map
        fun x => (x.1, ofNs x.2) := by
  simp only [List.map_map]
  refine List.map_congr_left fun e he => ?_
  simp only [Function.comp_apply, SchedulerEvent.job, (hn e he).1.ofNs_toNs]

section Conserved

variable {now : Timespec} {actions : List TModbusAction} {q₀ r : List SchedulerEvent} {m : ℕ}

/-- Deliveries leave no event out. -/
theorem ne_nil_of_deliver (hq : q₀ ≠ [])
    (hj : r.map SchedulerEvent.job = (deliver (q₀.map SchedulerEvent.job) m).2) : r ≠ [] := by
  rintro rfl
  have hlen := deliver_length (q₀.map SchedulerEvent.job) m
  rw [← hj] at hlen
  exact hq (List.map_eq_nil_iff.1 (List.length_eq_zero_iff.1 hlen.symm))

/-- Deliveries keep pointers and intervals: there is one event for each action. -/
theorem entries_of_deliver (hperm : (q₀.map SchedulerEvent.job).Perm (initialJobs now 0 actions))
    (hn : ∀ e ∈ r, e.Normalised)
    (hj : r.map SchedulerEvent.job = (deliver (q₀.map SchedulerEvent.job) m).2) :
    (r.map fun e => (e.ptModbusAction, e.intervalTime)).Perm
      (actions.zipIdx.map fun x => (x.2, x.1.intervalTime)) := by
  have h1 := (deliver_perm (q₀.map SchedulerEvent.job) m).trans (hperm.map _)
  rw [← hj] at h1
  rw [entries_of_jobs hn]
  refine (h1.map _).trans (List.Perm.of_eq ?_)
  simp only [initialJobs, List.map_map]
  refine List.map_congr_left fun x _ => ?_
  simp only [Function.comp_apply, initialJob, (intervalTime_normalised x.1).ofNs_toNs]

/-- The intervals of such a list are those of the actions. -/
theorem intervals_of_entries
    (h : (r.map fun e => (e.ptModbusAction, e.intervalTime)).Perm
      (actions.zipIdx.map fun x => (x.2, x.1.intervalTime))) :
    (r.map SchedulerEvent.intervalTime).Perm (actions.map TModbusAction.intervalTime) := by
  have h' := h.map Prod.snd
  simp only [List.map_map] at h'
  refine h'.trans (List.Perm.of_eq ?_)
  conv_rhs => rw [← List.zipIdx_map_fst 0 actions, List.map_map]
  rfl

/-- Every event has the interval of an action. -/
theorem exists_action_of_entries
    (h : (r.map fun e => (e.ptModbusAction, e.intervalTime)).Perm
      (actions.zipIdx.map fun x => (x.2, x.1.intervalTime))) {e : SchedulerEvent} (he : e ∈ r) :
    ∃ a ∈ actions, e.intervalTime = a.intervalTime := by
  have hmem := (intervals_of_entries h).mem_iff.1 (List.mem_map_of_mem he)
  obtain ⟨a, ha, hint⟩ := List.mem_map.1 hmem
  exact ⟨a, ha, hint.symm⟩

end Conserved

/-- **The event list over whole runs.** After `initScheduler` has succeeded, any number of calls
of `getNextEvent` succeeds, no assertion fails in them or in
`get_minimal_modbus_action_interval`, and `SchedulerInv` holds. -/
theorem schedulerInv_run {malloc : ℕ → Bool} {now : Timespec} (hnow : now.Normalised)
    {actions : List TModbusAction} (hpos : ∀ a ∈ actions, 0 < a.i32uIntervalUs)
    {q₀ : List SchedulerEvent} (hret : initScheduler malloc now actions = .ok (0, q₀)) (m : ℕ) :
    ∃ delivered events, getNextEvents q₀ m = .ok (delivered, events) ∧ delivered.length = m ∧
      (∃ t, getMinimalModbusActionInterval events = .ok t) ∧
      SchedulerInv actions delivered events := by
  obtain ⟨hq, hinv, hperm⟩ := initScheduler_refines hnow hpos hret
  obtain ⟨r, hr, hn, hj⟩ := getNextEvents_refines hinv.normalised hq m
  have hd := deliver_delivered hinv.ready m
  rw [← hj] at hd
  have hne : r ≠ [] := ne_nil_of_deliver hq hj
  have hcons := entries_of_deliver hperm hn hj
  refine ⟨_, r, hr, by simpa using deliver_fst_length (by simpa using hq) m, ?_,
    hne, hcons, sorted_of_increasing hn hd.ready.increasing, hn, ?_⟩
  · obtain ⟨t, ht, -⟩ := getMinimalModbusActionInterval_eq hne fun e he => by
      obtain ⟨a, -, ha⟩ := exists_action_of_entries hcons he
      exact ⟨a, ha⟩
    exact ⟨t, ht⟩
  · -- the last delivery is the head of the queue before it
    intro T hT e he
    cases m with
    | zero => simp at hT
    | succ m =>
      have hd' := deliver_delivered hinv.ready m
      cases hq' : (deliver (q₀.map SchedulerEvent.job) m).2 with
      | nil =>
        have hlen := deliver_length (q₀.map SchedulerEvent.job) m
        rw [hq'] at hlen
        exact absurd (List.map_eq_nil_iff.1 (List.length_eq_zero_iff.1 hlen.symm)) hq
      | cons j rest =>
        rw [hq'] at hd'
        rw [deliver_succ hq'] at hj hT
        simp only [List.map_append, List.map_cons, List.map_nil, List.getLast?_append,
          List.getLast?_singleton, Option.some_or, Option.some.injEq] at hT
        subst hT
        have hmem : e.job ∈ insertByDue (j.advance 1) rest := by
          rw [show insertByDue (j.advance 1) rest = r.map SchedulerEvent.job from hj.symm]
          exact List.mem_map_of_mem he
        have hw := hd'.ready.window e.job hmem
        simpa [jobEvent, SchedulerEvent.job] using hw

theorem schedulerInv_run_two :
    ∃ delivered events, getNextEvents twoEvents 5 = .ok (delivered, events) ∧
      delivered.length = 5 ∧ (∃ t, getMinimalModbusActionInterval events = .ok t) ∧
      SchedulerInv twoActions delivered events :=
  @schedulerInv_run (fun _ => true) ⟨7, 999999999⟩ (by decide) _ (by decide) _
    (by decide +kernel) 5

end RevPiModbus
