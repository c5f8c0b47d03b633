import RevPiModbus.MasterTiming
import RevPiModbus.Fairness
import RevPiModbus.Lib.Overload

/-!
# A master with too much to do

Between the starts of two actions the loop waits for the gap after the first one, also where the
bus is idle meanwhile. Where that takes more than the mean time between the events, the actions
start later and later.

* `busyTime`, `busyTime_tcp`: the time between two starts;
* `masterPass_starts`: what one pass waits for;
* `OverloadInv`: the events in order, none started early, and none within `D` of the one before;
* `masterRun_overload`: how late the actions are.
-/

namespace RevPiModbus

open PeriodicQueue Timespec

/-! ## One pass -/

/-- The time from the start of an action until the next one can start. -/
def busyTime (gap : Timespec) (times : ℕ → PassTimes) (m : ℕ) : ℚ :=
  max ((times m).action + (times m).logging + (times (m + 1)).reset)
    ((times m).action + gap.toNs - 1)

/-- With the gap of the TCP loop, three quarters of the mean time are too much for an action, and
two nanoseconds for the roundings. -/
theorem busyTime_tcp {q : List SchedulerEvent} {times : ℕ → PassTimes} {m : ℕ} {lag : ℚ}
    (haction : 3 / 4 * meanTimeBetweenEvents q + 2 + lag ≤ (times m).action) :
    meanTimeBetweenEvents q + lag ≤ busyTime (getMinimalModbusEventOffset q) times m := by
  have hgap : (getMinimalModbusEventOffset q).toNs = ⌊meanTimeBetweenEvents q⌋ / 4 :=
    toNs_ofNs (⌊meanTimeBetweenEvents q⌋ / 4)
  have hquarter : ⌊meanTimeBetweenEvents q⌋ ≤ 4 * (⌊meanTimeBetweenEvents q⌋ / 4) + 3 := by omega
  have hquarter' : (⌊meanTimeBetweenEvents q⌋ : ℚ) ≤
      4 * ((⌊meanTimeBetweenEvents q⌋ / 4 : ℤ) : ℚ) + 3 := by exact_mod_cast hquarter
  have hfloor := Int.lt_floor_add_one (meanTimeBetweenEvents q)
  apply le_max_of_le_right
  rw [hgap]
  linarith

/-- One pass in front of which the event list is not empty. -/
theorem masterPass_starts {gap : Timespec} (hgap : gap.Normalised) (times : PassTimes)
    {s : MasterClock} {e : SchedulerEvent} {r : List SchedulerEvent} (hs : s.eventList = e :: r)
    (he : e.Normalised) :
    ∃ start s', masterPass gap times s = .ok ((⟨e.triggerTime, e.ptModbusAction⟩, start), s') ∧
      s.now + times.reset ≤ start ∧ (e.triggerTime.toNs : ℚ) ≤ start ∧
      (s.tvEarliestNextTriggerTime.toNs : ℚ) ≤ start ∧
      s'.now = start + times.action + times.logging ∧
      start + times.action + gap.toNs - 1 ≤ s'.tvEarliestNextTriggerTime.toNs ∧
      s'.eventList = insertEventByDueDate e.next r := by
  let start := max (max (s.now + times.reset) (e.triggerTime.toNs : ℚ))
    (s.tvEarliestNextTriggerTime.toNs : ℚ)
  refine ⟨start, ⟨start + times.action + times.logging, ⟨e.triggerTime, e.ptModbusAction⟩,
    ofNs (⌊start + times.action⌋ + gap.toNs), insertEventByDueDate e.next r⟩, ?_,
    (le_max_left _ _).trans (le_max_left _ _), (le_max_right _ _).trans (le_max_left _ _),
    le_max_right _ _, rfl, ?_, rfl⟩
  · rw [masterPass, hs, getNextEvent_cons he]
    simp only [ok_bind, Option.getD_some, clockNanosleep, clockGettime,
      timespecAdd_eq (ofNs_normalised _) hgap, toNs_ofNs, except_pure, start]
  · rw [toNs_ofNs]
    push_cast
    have hfloor := Int.lt_floor_add_one (start + times.action)
    linarith

/-! ## The run -/

/-- What holds after `m` passes from the event list `q₀`: the events are those of `getNextEvent`,
none has been started early, or within `D` of the start before it, and nor will be the next one. -/
structure OverloadInv (q₀ : List SchedulerEvent) (D reset : ℚ) (m : ℕ)
    (started : List (TModbusEvent × ℚ)) (s : MasterClock) : Prop where
  events : getNextEvents q₀ m = .ok (started.map Prod.fst, s.eventList)
  notEarly : ∀ x ∈ started, (x.1.triggerTime.toNs : ℚ) ≤ x.2
  chain : started.IsChain fun x y => x.2 + D ≤ y.2
  busy : ∀ x ∈ started.getLast?, x.2 + D ≤ max (s.now + reset) s.tvEarliestNextTriggerTime.toNs

variable {q₀ : List SchedulerEvent} {D : ℚ} {gap : Timespec} {times : ℕ → PassTimes} {m : ℕ}
  {started : List (TModbusEvent × ℚ)} {s : MasterClock}

/-- **One pass keeps the invariant.** -/
theorem OverloadInv.step (hgap : gap.Normalised) (hwork : ∀ m, D ≤ busyTime gap times m)
    (h : OverloadInv q₀ D (times m).reset m started s) {e : SchedulerEvent}
    {r : List SchedulerEvent} (hs : s.eventList = e :: r) (he : e.Normalised) :
    ∃ x s', masterPass gap (times m) s = .ok (x, s') ∧
      OverloadInv q₀ D (times (m + 1)).reset (m + 1) (started ++ [x]) s' := by
  obtain ⟨start, s', hpass, hready, htrigger, hearly, hnow, hgapEnd, hlist⟩ :=
    masterPass_starts hgap (times m) hs he
  refine ⟨_, s', hpass, ?_, ?_, ?_, ?_⟩
  · have hev := h.events
    rw [hs] at hev
    rw [getNextEvents_succ hev he, hlist, List.map_append]
    rfl
  · intro x hx
    rcases List.mem_append.1 hx with hx | hx
    · exact h.notEarly x hx
    · obtain rfl := List.mem_singleton.1 hx
      exact htrigger
  · rw [List.isChain_append]
    refine ⟨h.chain, List.isChain_singleton _, fun x hx y hy => ?_⟩
    obtain rfl : _ = y := by simpa using hy
    exact (h.busy x hx).trans (max_le hready hearly)
  · intro x hx
    obtain rfl : _ = x := by simpa using hx
    have hD := hwork m
    unfold busyTime at hD
    rcases le_max_iff.1 hD with hD | hD
    · apply le_max_of_le_left
      rw [hnow]
      linarith
    · apply le_max_of_le_right
      linarith

theorem OverloadInv.run (hq₀ : ∀ e ∈ q₀, e.Normalised) (hne : q₀ ≠ []) (hgap : gap.Normalised)
    (hwork : ∀ m, D ≤ busyTime gap times m) {s₀ : MasterClock} (hlist : s₀.eventList = q₀) (m : ℕ) :
    ∃ started s, masterRun gap times s₀ m = .ok (started, s) ∧ started.length = m ∧
      OverloadInv q₀ D (times m).reset m started s := by
  induction m with
  | zero =>
    refine ⟨[], s₀, rfl, rfl, ?_, by simp, List.isChain_nil, by simp⟩
    rw [hlist]
    rfl
  | succ m ih =>
    obtain ⟨started, s, hrun, hlen, hinv⟩ := ih
    obtain ⟨r, hr, hn, hj⟩ := getNextEvents_refines hq₀ hne m
    have hev := hinv.events
    rw [hr, Except.ok.injEq, Prod.mk.injEq] at hev
    obtain ⟨-, rfl⟩ := hev
    cases hs : s.eventList with
    | nil => exact absurd hs (ne_nil_of_deliver hne hj)
    | cons e r =>
      obtain ⟨x, s', hpass, hinv'⟩ := hinv.step hgap hwork hs (hn e (by simp [hs]))
      refine ⟨started ++ [x], s', ?_, by simp [hlen], hinv'⟩
      rw [masterRun, hrun, ok_bind]
      simp only [hpass, ok_bind, except_pure]

/-- The trigger times keep to the mean time, and the starts to `D`. -/
theorem OverloadInv.lateness {reset M : ℚ} (h : OverloadInv q₀ D reset m started s)
    (hq₀ : ∀ e ∈ q₀, e.Normalised) (hne : q₀ ≠ []) (hready : Ready (q₀.map SchedulerEvent.job))
    (hnames : ((q₀.map SchedulerEvent.job).map Job.id).Nodup) {base : ℤ}
    (hbase : ∀ j ∈ q₀.map SchedulerEvent.job, j.prev.due = base)
    (hM : meanPeriod (q₀.map SchedulerEvent.job) = M) {k : ℕ} (hk : k < started.length) :
    (started[k].1.triggerTime.toNs : ℚ) + (k * (D - M) - q₀.length * M) ≤ started[k].2 := by
  have hjobs : q₀.map SchedulerEvent.job ≠ [] := by simpa using hne
  obtain ⟨r, hr, -, -⟩ := getNextEvents_refines hq₀ hne m
  have hev : started.map Prod.fst =
      (deliver (q₀.map SchedulerEvent.job) m).1.map jobEvent := by
    have h := h.events.symm.trans hr
    rw [Except.ok.injEq, Prod.mk.injEq] at h
    exact h.1
  have hlength : started.length = m := by
    have hlength := congrArg List.length hev
    rwa [List.length_map, List.length_map, deliver_fst_length hjobs] at hlength
  -- each started event is the head of the queue after the ones before it
  have hhead : ∀ i (hi : i < started.length), ∃ x r,
      (deliver (q₀.map SchedulerEvent.job) i).2 = x :: r ∧
        started[i].1.triggerTime.toNs = x.due := by
    intro i hi
    obtain ⟨x, r, hx, hget⟩ := deliver_getElem? hjobs (hlength ▸ hi)
    refine ⟨x, r, hx, ?_⟩
    have hfst : (started.map Prod.fst)[i]? = some (jobEvent x) := by
      rw [hev, List.getElem?_map, hget, Option.map_some]
    rw [List.getElem?_map, List.getElem?_eq_getElem hi, Option.map_some, Option.some.injEq] at hfst
    rw [hfst, jobEvent, toNs_ofNs]
  let T : ℕ → ℚ := fun i => if h : i < started.length then started[i].1.triggerTime.toNs else 0
  let S : ℕ → ℚ := fun i => if h : i < started.length then started[i].2 else 0
  have hT : ∀ (i : ℕ) (hi : i < started.length), T i = started[i].1.triggerTime.toNs :=
    fun i hi => dif_pos hi
  have hS : ∀ (i : ℕ) (hi : i < started.length), S i = started[i].2 := fun i hi => dif_pos hi
  have hlate := lateness_ge (T := T) (S := S) (D := D) (M := M) (N := (q₀.length : ℚ))
    (b := (base : ℚ)) (n := started.length) ?_ ?_ ?_ hk
  · rwa [hT k hk, hS k hk] at hlate
  · have h0 : 0 < started.length := by omega
    obtain ⟨x, r, hx, htrigger⟩ := hhead 0 h0
    have hmem : x ∈ q₀.map SchedulerEvent.job := by
      have hqueue : q₀.map SchedulerEvent.job = x :: r := hx
      rw [hqueue]
      exact List.mem_cons_self
    have hdue : base ≤ x.due := by
      have hperiod := hready.positive x hmem
      rw [← hbase x hmem, Job.prev_due]
      omega
    rw [hS 0 h0]
    refine le_trans ?_ (h.notEarly _ (List.getElem_mem h0))
    rw [htrigger]
    exact_mod_cast hdue
  · intro i hi
    rw [hS (i + 1) hi, hS i (by omega)]
    exact List.isChain_iff_getElem.1 h.chain i hi
  · intro i hi
    obtain ⟨x, r, hx, htrigger⟩ := hhead i hi
    have hdue := hready.due_le hnames hbase hx
    rw [hT i hi, htrigger, ← hM]
    rw [List.length_map] at hdue
    exact_mod_cast hdue

/-- **A master with too much to do falls behind for good.** Let `M` be the mean time between two
actions, and let every pass be busy for `D` or more: with the action and what follows it up to the
next sleep, or with the action and the gap. No action starts early, and the `k`-th one starts at
least `k · (D - M) - N · M` after its trigger time, where `N` is the number of actions: if `D` is
more than `M`, later and later. The gap counts although the bus is idle in it. -/
theorem masterRun_overload {malloc : ℕ → Bool} {now : Timespec} (hnow : now.Normalised)
    {actions : List TModbusAction} (hpos : ∀ a ∈ actions, 0 < a.i32uIntervalUs)
    {q₀ : List SchedulerEvent} (hret : initScheduler malloc now actions = .ok (0, q₀))
    {gap : Timespec} (hgap : gap.Normalised) {times : ℕ → PassTimes} {D : ℚ}
    (hwork : ∀ m, D ≤ busyTime gap times m) {s₀ : MasterClock} (hlist : s₀.eventList = q₀) (m : ℕ) :
    ∃ started s, masterRun gap times s₀ m = .ok (started, s) ∧ started.length = m ∧
      getNextEvents q₀ m = .ok (started.map Prod.fst, s.eventList) ∧
      (∀ x ∈ started, (x.1.triggerTime.toNs : ℚ) ≤ x.2) ∧
      ∀ (k : ℕ) (hk : k < started.length), (started[k].1.triggerTime.toNs : ℚ) +
        (k * (D - meanTime actions) - actions.length * meanTime actions) ≤ started[k].2 := by
  obtain ⟨hne, hinv, hperm⟩ := initScheduler_refines hnow hpos hret
  have hlen : q₀.length = actions.length := by
    simpa [initialJobs] using hperm.length_eq
  have hnames : ((q₀.map SchedulerEvent.job).map Job.id).Nodup :=
    ((hperm.map Job.id).nodup_iff).2 (initialJobs_names now actions)
  obtain ⟨started, s, hrun, hslen, hover⟩ :=
    OverloadInv.run hinv.normalised hne hgap hwork hlist m
  refine ⟨started, s, hrun, hslen, hover.events, hover.notEarly, fun k hk => ?_⟩
  have hlate := hover.lateness hinv.normalised hne hinv.ready hnames hinv.first
    (meanPeriod_eq_meanTime hperm) hk
  rwa [hlen] at hlate

/-- The bus is idle for a fifth of the time, and each action is later by fifty microseconds. -/
theorem masterRun_overload_two :
    ∃ started s, masterRun (getMinimalModbusEventOffset twoEvents) (fun _ => ⟨0, 800501, 0⟩)
        ⟨8000000000, ⟨⟨0, 0⟩, 0⟩, ⟨0, 0⟩, twoEvents⟩ 9 = .ok (started, s) ∧ started.length = 9 ∧
      getNextEvents twoEvents 9 = .ok (started.map Prod.fst, s.eventList) ∧
      (∀ x ∈ started, (x.1.triggerTime.toNs : ℚ) ≤ x.2) ∧
      ∀ (k : ℕ) (hk : k < started.length), (started[k].1.triggerTime.toNs : ℚ) +
        (k * (meanTimeBetweenEvents twoEvents + 50000 - meanTime twoActions) -
          twoActions.length * meanTime twoActions) ≤ started[k].2 := by
  refine @masterRun_overload (fun _ => true) ⟨7, 999999999⟩ (by decide) twoActions (by decide)
    twoEvents (by decide +kernel) _ (gapOk_tcp twoEvents).1 (fun _ => ⟨0, 800501, 0⟩)
    (meanTimeBetweenEvents twoEvents + 50000) (fun m => busyTime_tcp ?_) _ rfl 9
  norm_num [meanTimeBetweenEvents, twoEvents, s32NanosecondsPerSecond]

end RevPiModbus
