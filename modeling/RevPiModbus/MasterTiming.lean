import RevPiModbus.Schedule
import RevPiModbus.Lib.Backlog

/-!
# The timing of the loop of a Modbus master

The loops of `startTcpMasterThread` and `startRtuMasterThread` take the same steps in time: fetch
the next event, reset the status bytes, sleep until the trigger time, sleep until the earliest
next trigger time, process the action, read the clock, add the minimal event offset, log. Time is
a rational number of nanoseconds, of which the clock shows the whole part; a sleep ends exactly at
the requested time, or at once if it has passed. The time that the other steps take is given from
outside (`PassTimes`).

* `rtuMinimalEventOffset`: the gap of the RTU loop (that of the TCP loop is
  `getMinimalModbusEventOffset`);
* `masterPass`, `masterRun`: one pass, and the first `m` passes with the times at which they start
  their actions;
* `gapOk_tcp`, `gapOk_rtu`: either gap is at most a quarter of the mean time between the events;
* `masterRun_lateness`: if an action and what follows it takes no more than the other three
  quarters, no action starts later than its trigger time by more than all but one mean time for
  each action.
-/

namespace RevPiModbus

open PeriodicQueue Timespec

/-- The gap computed by `startRtuMasterThread`: the minimal interval, divided by the number of
actions and by 4. -/
def rtuMinimalEventOffset (eventList : List SchedulerEvent) (i32ActionCount : ℕ) :
    Except Fault Timespec := do
  let tvMinimalEventOffset ← getMinimalModbusActionInterval eventList
  let minoffset := tvMinimalEventOffset.tvSec * s32NanosecondsPerSecond
    + tvMinimalEventOffset.tvNsec
  if i32ActionCount = 0 then
    .error .divisionByZero
  else
    let minoffset := minoffset / i32ActionCount / 4
    return ⟨minoffset / s32NanosecondsPerSecond, minoffset % s32NanosecondsPerSecond⟩

/-- `clock_gettime(CLOCK_MONOTONIC)` at the time `now`. -/
def clockGettime (now : ℚ) : Timespec := ofNs ⌊now⌋

/-- The time at which `clock_nanosleep(CLOCK_MONOTONIC, TIMER_ABSTIME, t)` returns. -/
def clockNanosleep (now : ℚ) (t : Timespec) : ℚ := max now t.toNs

/-- How long the steps of one pass take: the status resets and `getNextEvent` in front of the
first sleep, the action up to the reading of the clock, the logging after it. -/
structure PassTimes where
  reset : ℚ
  action : ℚ
  logging : ℚ

/-- The variables of the loop, and the time. -/
structure MasterClock where
  now : ℚ
  nextEvent : TModbusEvent
  tvEarliestNextTriggerTime : Timespec
  eventList : List SchedulerEvent

/-- One pass of the loop: the event, the time at which its action starts, and the next state. The
return value of `getNextEvent` is ignored, `nextEvent` then keeps its old content. -/
def masterPass (tvMinimalEventOffset : Timespec) (times : PassTimes) (s : MasterClock) :
    Except Fault ((TModbusEvent × ℚ) × MasterClock) := do
  let (nextEvent, eventList) := (← getNextEvent s.eventList).getD (s.nextEvent, s.eventList)
  let start := clockNanosleep
    (clockNanosleep (s.now + times.reset) nextEvent.triggerTime) s.tvEarliestNextTriggerTime
  let tvCurrent := clockGettime (start + times.action)
  let tvEarliestNextTriggerTime ← timespecAdd tvCurrent tvMinimalEventOffset
  return ((nextEvent, start),
    { now := start + times.action + times.logging
      nextEvent := nextEvent
      tvEarliestNextTriggerTime := tvEarliestNextTriggerTime
      eventList := eventList })

/-- The first `m` passes: the events with the times at which their actions start. -/
def masterRun (tvMinimalEventOffset : Timespec) (times : ℕ → PassTimes) (s : MasterClock) :
    ℕ → Except Fault (List (TModbusEvent × ℚ) × MasterClock)
  | 0 => .ok ([], s)
  | m + 1 => do
    let (started, s') ← masterRun tvMinimalEventOffset times s m
    let (x, s'') ← masterPass tvMinimalEventOffset (times m) s'
    return (started ++ [x], s'')

/-- The mean time between two actions, in nanoseconds: `1 / Σ 1 / pᵢ`. -/
def meanTime (actions : List TModbusAction) : ℚ :=
  1 / (actions.map fun a => 1 / ((a.i32uIntervalUs.toNat : ℚ) * 1000)).sum

/-! ## The gap -/

section Gap

variable {malloc : ℕ → Bool} {now : Timespec} {actions : List TModbusAction}
  {q₀ : List SchedulerEvent}

theorem meanPeriod_initialJobs (now : Timespec) (actions : List TModbusAction) :
    meanPeriod (initialJobs now 0 actions) = meanTime actions := by
  have hrate : ∀ a : TModbusAction, 1 / ((a.intervalTime.toNs : ℤ) : ℚ) =
      1 / ((a.i32uIntervalUs.toNat : ℚ) * 1000) := by
    intro a
    rw [intervalTime_toNs]
    push_cast
    rfl
  have hmap : (initialJobs now 0 actions).map (fun j => 1 / (j.period : ℚ)) =
      actions.map fun a => 1 / ((a.i32uIntervalUs.toNat : ℚ) * 1000) := by
    simp only [initialJobs, List.map_map, Function.comp_def, initialJob, hrate]
    conv_rhs => rw [← List.zipIdx_map_fst 0 actions, List.map_map]
    rfl
  rw [meanPeriod, meanTime, hmap]

theorem meanPeriod_perm {q q' : List (Job ℕ ℤ)} (h : q.Perm q') : meanPeriod q = meanPeriod q' := by
  rw [meanPeriod, meanPeriod, (h.map _).sum_eq]

theorem meanTimeBetweenEvents_eq (q : List SchedulerEvent) :
    meanTimeBetweenEvents q = meanPeriod (q.map SchedulerEvent.job) := by
  simp only [meanTimeBetweenEvents, meanPeriod, List.map_map, Function.comp_def,
    SchedulerEvent.job, toNs, add_comm]

/-- The gap is normalised and at most a quarter of the mean time `M`. -/
def GapOk (M : ℚ) (gap : Timespec) : Prop := gap.Normalised ∧ (gap.toNs : ℚ) ≤ M / 4

theorem quarter_floor_le {M : ℚ} : ((⌊M⌋ / 4 : ℤ) : ℚ) ≤ M / 4 := by
  have h1 : (⌊M⌋ / 4 : ℤ) * 4 ≤ ⌊M⌋ := Int.ediv_mul_le _ (by norm_num)
  have h2 : ((⌊M⌋ / 4 : ℤ) : ℚ) * 4 ≤ M := le_trans (by exact_mod_cast h1) (Int.floor_le M)
  linarith

theorem gapOk_tcp (q : List SchedulerEvent) :
    GapOk (meanTimeBetweenEvents q) (getMinimalModbusEventOffset q) := by
  have hgap : getMinimalModbusEventOffset q = ofNs (⌊meanTimeBetweenEvents q⌋ / 4) := rfl
  rw [GapOk, hgap, toNs_ofNs]
  exact ⟨ofNs_normalised _, quarter_floor_le⟩

/-- The shortest period, shared among the jobs, is no more than their mean period. -/
theorem min_div_length_le {q : List (Job ℕ ℤ)} (hne : q ≠ []) (hpos : ∀ j ∈ q, 0 < j.period)
    {p : ℤ} (hp : 0 < p) (hmin : ∀ j ∈ q, p ≤ j.period) :
    (p : ℚ) / q.length ≤ meanPeriod q := by
  have hp' : (0 : ℚ) < p := by exact_mod_cast hp
  have hlen : (0 : ℚ) < q.length := by exact_mod_cast List.length_pos_iff.2 hne
  have hsum : (q.map fun j => 1 / (j.period : ℚ)).sum ≤ q.length * (1 / p) := by
    have h := List.sum_le_card_nsmul (q.map fun j => 1 / (j.period : ℚ)) (1 / (p : ℚ))
      fun x hx => by
        obtain ⟨j, hj, rfl⟩ := List.mem_map.1 hx
        exact one_div_le_one_div_of_le hp' (by exact_mod_cast hmin j hj)
    simpa using h
  rw [meanPeriod, le_one_div (by positivity) (sum_rates_pos hne hpos)]
  calc (q.map fun j => 1 / (j.period : ℚ)).sum ≤ q.length * (1 / p) := hsum
    _ = 1 / ((p : ℚ) / q.length) := by field_simp

theorem gapOk_rtu {q : List SchedulerEvent} (hne : q ≠ [])
    (hint : ∀ e ∈ q, ∃ a : TModbusAction, e.intervalTime = a.intervalTime)
    (hpos : ∀ e ∈ q, 0 < e.intervalTime.toNs) {gap : Timespec}
    (hgap : rtuMinimalEventOffset q q.length = .ok gap) :
    GapOk (meanPeriod (q.map SchedulerEvent.job)) gap := by
  obtain ⟨t, ht, ⟨e, he, hte⟩, hmin⟩ := getMinimalModbusActionInterval_eq hne hint
  have hlen : q.length ≠ 0 := by simpa using hne
  rw [rtuMinimalEventOffset, ht, ok_bind, if_neg hlen, except_pure, Except.ok.injEq] at hgap
  have hgap' : gap = ofNs (t.toNs / q.length / 4) := hgap.symm
  refine ⟨hgap' ▸ ofNs_normalised _, ?_⟩
  rw [hgap', toNs_ofNs]
  have hmean := min_div_length_le (q := q.map SchedulerEvent.job) (by simpa using hne)
    (fun j hj => by
      obtain ⟨x, hx, rfl⟩ := List.mem_map.1 hj
      exact hpos x hx)
    (p := t.toNs) (hte ▸ hpos e he) fun j hj => by
      obtain ⟨x, hx, rfl⟩ := List.mem_map.1 hj
      exact hmin x hx
  rw [List.length_map] at hmean
  have hlen' : (0 : ℚ) < q.length := by exact_mod_cast Nat.pos_of_ne_zero hlen
  have h1 : ((t.toNs / q.length : ℤ) : ℚ) ≤ (t.toNs : ℚ) / q.length := by
    rw [le_div_iff₀ hlen']
    exact_mod_cast Int.ediv_mul_le t.toNs (by exact_mod_cast hlen)
  have h2 : ((t.toNs / q.length / 4 : ℤ) : ℚ) * 4 ≤ ((t.toNs / q.length : ℤ) : ℚ) := by
    exact_mod_cast Int.ediv_mul_le _ (by norm_num)
  linarith

end Gap

/-! ## The run -/

section Run

/-- One pass in front of which the event list is not empty. -/
theorem masterPass_cons {gap : Timespec} (hgap : gap.Normalised) (times : PassTimes)
    {s : MasterClock} {e : SchedulerEvent} {r : List SchedulerEvent} (hs : s.eventList = e :: r)
    (he : e.Normalised) :
    ∃ start s', masterPass gap times s = .ok ((⟨e.triggerTime, e.ptModbusAction⟩, start), s') ∧
      start = max (max (s.now + times.reset) e.triggerTime.toNs)
        s.tvEarliestNextTriggerTime.toNs ∧
      s'.now = start + times.action + times.logging ∧
      (s'.tvEarliestNextTriggerTime.toNs : ℚ) ≤ start + times.action + gap.toNs ∧
      s'.eventList = insertEventByDueDate e.next r := by
  let start := max (max (s.now + times.reset) (e.triggerTime.toNs : ℚ))
    (s.tvEarliestNextTriggerTime.toNs : ℚ)
  refine ⟨start, ⟨start + times.action + times.logging, ⟨e.triggerTime, e.ptModbusAction⟩,
    ofNs (⌊start + times.action⌋ + gap.toNs), insertEventByDueDate e.next r⟩, ?_, rfl, rfl, ?_, rfl⟩
  · rw [masterPass, hs, getNextEvent_cons he]
    simp only [ok_bind, Option.getD_some, clockNanosleep, clockGettime,
      timespecAdd_eq (ofNs_normalised _) hgap, toNs_ofNs, except_pure, start]
  · rw [toNs_ofNs]
    push_cast
    have := Int.floor_le (start + times.action)
    linarith

/-- What holds after `m` passes from the event list `q₀` with the mean time `M`: the events are
those of `getNextEvent`, the first one is on time, each later one starts when it is due or within
`M` of the start before it, and the next sleep ends within `M` of the last start. -/
structure TimedInv (q₀ : List SchedulerEvent) (M : ℚ) (reset : ℚ) (m : ℕ)
    (started : List (TModbusEvent × ℚ)) (s : MasterClock) : Prop where
  events : getNextEvents q₀ m = .ok (started.map Prod.fst, s.eventList)
  onTime : ∀ x ∈ started.head?, x.2 ≤ x.1.triggerTime.toNs
  chain : started.IsChain fun x y => y.2 ≤ max (y.1.triggerTime.toNs : ℚ) (x.2 + M)
  ready : ∀ x ∈ started.getLast?, s.now + reset ≤ x.2 + M ∧
    (s.tvEarliestNextTriggerTime.toNs : ℚ) ≤ x.2 + M
  start : started = [] → ∀ e ∈ s.eventList, s.now + reset ≤ e.triggerTime.toNs ∧
    s.tvEarliestNextTriggerTime.toNs ≤ e.triggerTime.toNs

/-- **One pass keeps the invariant.** -/
theorem TimedInv.step {q₀ : List SchedulerEvent} {M : ℚ} {gap : Timespec} (hgap : GapOk M gap)
    {times : ℕ → PassTimes}
    (hnonneg : ∀ m, 0 ≤ (times m).reset ∧ 0 ≤ (times m).action ∧ 0 ≤ (times m).logging)
    (hwork : ∀ m, (times m).action + (times m).logging + (times (m + 1)).reset ≤ 3 / 4 * M)
    {m : ℕ} {started : List (TModbusEvent × ℚ)} {s : MasterClock}
    (h : TimedInv q₀ M (times m).reset m started s) {e : SchedulerEvent}
    {r : List SchedulerEvent} (hs : s.eventList = e :: r) (he : e.Normalised) :
    ∃ x s', masterPass gap (times m) s = .ok (x, s') ∧
      TimedInv q₀ M (times (m + 1)).reset (m + 1) (started ++ [x]) s' := by
  obtain ⟨start, s', hpass, hstart, hnow, hearly, hlist⟩ :=
    masterPass_cons hgap.1 (times m) hs he
  have hM : 0 ≤ M := by
    have := hwork m
    have := hnonneg m
    have := hnonneg (m + 1)
    linarith
  refine ⟨_, s', hpass, ?_, ?_, ?_, ?_, by simp⟩
  · have hev := h.events
    rw [hs] at hev
    rw [getNextEvents_succ hev he, hlist, List.map_append]
    rfl
  · cases started with
    | nil =>
      obtain ⟨h1, h2⟩ := h.start rfl e (by simp [hs])
      intro x hx
      obtain rfl : _ = x := by simpa using hx
      rw [hstart]
      exact max_le (max_le h1 le_rfl) (by exact_mod_cast h2)
    | cons y started => simpa using h.onTime
  · rw [List.isChain_append]
    refine ⟨h.chain, List.isChain_singleton _, fun x hx y hy => ?_⟩
    obtain rfl : _ = y := by simpa using hy
    obtain ⟨h1, h2⟩ := h.ready x hx
    rw [hstart]
    exact max_le (max_le (le_max_of_le_right h1) (le_max_left _ _)) (le_max_of_le_right h2)
  · intro x hx
    obtain rfl : _ = x := by simpa using hx
    have hw := hwork m
    have hn := hnonneg (m + 1)
    have hg := hgap.2
    have hl := hnonneg m
    rw [hnow]
    constructor
    · linarith
    · linarith

theorem TimedInv.run {q₀ : List SchedulerEvent} (hq₀ : ∀ e ∈ q₀, e.Normalised) (hne : q₀ ≠ [])
    {M : ℚ} {gap : Timespec} (hgap : GapOk M gap) {times : ℕ → PassTimes}
    (hnonneg : ∀ m, 0 ≤ (times m).reset ∧ 0 ≤ (times m).action ∧ 0 ≤ (times m).logging)
    (hwork : ∀ m, (times m).action + (times m).logging + (times (m + 1)).reset ≤ 3 / 4 * M)
    {s₀ : MasterClock} (h₀ : TimedInv q₀ M (times 0).reset 0 [] s₀) (m : ℕ) :
    ∃ started s, masterRun gap times s₀ m = .ok (started, s) ∧ started.length = m ∧
      TimedInv q₀ M (times m).reset m started s := by
  induction m with
  | zero => exact ⟨[], s₀, rfl, rfl, h₀⟩
  | succ m ih =>
    obtain ⟨started, s, hrun, hlen, hinv⟩ := ih
    obtain ⟨r, hr, hn, hj⟩ := getNextEvents_refines hq₀ hne m
    have hev := hinv.events
    rw [hr, Except.ok.injEq, Prod.mk.injEq] at hev
    obtain ⟨-, rfl⟩ := hev
    cases hs : s.eventList with
    | nil =>
      have hl := deliver_length (q₀.map SchedulerEvent.job) m
      rw [← hj, hs] at hl
      exact absurd (List.map_eq_nil_iff.1 (List.length_eq_zero_iff.1 hl.symm)) hne
    | cons e r =>
      obtain ⟨x, s', hpass, hinv'⟩ :=
        hinv.step hgap hnonneg hwork hs (hn e (by simp [hs]))
      refine ⟨started ++ [x], s', ?_, by simp [hlen], hinv'⟩
      rw [masterRun, hrun, ok_bind]
      simp only [hpass, ok_bind, except_pure]

/-- The jobs are delivered in the order of their trigger times, so few enough of them fall due in
any time that the starts never lag behind for good. -/
theorem TimedInv.lateness {q₀ : List SchedulerEvent} {M reset : ℚ} {m : ℕ}
    {started : List (TModbusEvent × ℚ)} {s : MasterClock} (h : TimedInv q₀ M reset m started s)
    (hq₀ : ∀ e ∈ q₀, e.Normalised) (hne : q₀ ≠ []) (hready : Ready (q₀.map SchedulerEvent.job))
    (hM : meanPeriod (q₀.map SchedulerEvent.job) = M) :
    ∀ x ∈ started, x.2 ≤ x.1.triggerTime.toNs + ((q₀.length : ℚ) - 1) * M := by
  intro x hx
  -- the delivered jobs, and with them the trigger times of the started events
  obtain ⟨r, hr, -, -⟩ := getNextEvents_refines hq₀ hne m
  have hev : started.map Prod.fst =
      (deliver (q₀.map SchedulerEvent.job) m).1.map jobEvent := by
    have h := h.events.symm.trans hr
    rw [Except.ok.injEq, Prod.mk.injEq] at h
    exact h.1
  set d := (deliver (q₀.map SchedulerEvent.job) m).1 with hd
  have hdlen : d.length = started.length := by simpa using (congrArg List.length hev).symm
  have htrig : ∀ (i : ℕ) (hi : i < started.length),
      (started[i].1.triggerTime.toNs : ℚ) = (d[i].due : ℚ) := by
    intro i hi
    have hid : i < d.length := hdlen ▸ hi
    have h : (started.map Prod.fst)[i]? = (d.map jobEvent)[i]? := by rw [hev]
    rw [List.getElem?_map, List.getElem?_map, List.getElem?_eq_getElem hi,
      List.getElem?_eq_getElem hid, Option.map_some, Option.map_some, Option.some.injEq] at h
    rw [h, jobEvent, toNs_ofNs]
  obtain ⟨k, hk, rfl⟩ := List.mem_iff_getElem.1 hx
  let T : ℕ → ℚ := fun i => if h : i < started.length then started[i].1.triggerTime.toNs else 0
  let S : ℕ → ℚ := fun i => if h : i < started.length then started[i].2 else 0
  have hT : ∀ (i : ℕ) (hi : i < started.length), T i = started[i].1.triggerTime.toNs :=
    fun i hi => dif_pos hi
  have hS : ∀ (i : ℕ) (hi : i < started.length), S i = started[i].2 := fun i hi => dif_pos hi
  have hlate := lateness_le (T := T) (S := S) (M := M) (N := (q₀.length : ℚ))
    (n := started.length) ?_ ?_ ?_ hk
  · rwa [hT k hk, hS k hk] at hlate
  · have h0 : 0 < started.length := by omega
    rw [hT 0 h0, hS 0 h0]
    exact h.onTime _ (by simp [List.head?_eq_getElem?, h0])
  · intro i hi
    rw [hT (i + 1) hi, hS (i + 1) hi, hS i (by omega)]
    exact List.isChain_iff_getElem.1 h.chain i hi
  · intro i j hij hj
    rw [hT j hj, hT i (by omega), htrig j hj, htrig i (by omega), ← hM]
    have hw := deliver_window hready (by simpa using hne) hij
      (show j < (deliver (q₀.map SchedulerEvent.job) m).1.length by rw [← hd, hdlen]; exact hj)
    simpa using hw

end Run

/-! ## The start -/

section Start

variable {now : Timespec} {actions : List TModbusAction} {q₀ : List SchedulerEvent}

/-- The events of the list that `initScheduler` has built. -/
theorem InitInv.exists_action {i : ℕ} (hinv : InitInv now i q₀)
    (hperm : (q₀.map SchedulerEvent.job).Perm (initialJobs now 0 actions)) {e : SchedulerEvent}
    (he : e ∈ q₀) : ∃ a ∈ actions, e.intervalTime = a.intervalTime ∧
      e.triggerTime.toNs = firstTrigger now a := by
  have hmem := hperm.mem_iff.1 (List.mem_map_of_mem (f := SchedulerEvent.job) he)
  obtain ⟨x, hx, hxe⟩ := List.mem_map.1 hmem
  simp only [initialJob, SchedulerEvent.job, Job.mk.injEq] at hxe
  refine ⟨x.1, List.fst_mem_of_mem_zipIdx hx, ?_, hxe.2.2.symm⟩
  rw [← (hinv.normalised e he).1.ofNs_toNs, ← hxe.2.1, (intervalTime_normalised x.1).ofNs_toNs]

theorem meanPeriod_eq_meanTime
    (hperm : (q₀.map SchedulerEvent.job).Perm (initialJobs now 0 actions)) :
    meanPeriod (q₀.map SchedulerEvent.job) = meanTime actions := by
  rw [meanPeriod_perm hperm, meanPeriod_initialJobs]

/-- The gap of either loop is a quarter of the mean time at most. -/
theorem gapOk_of_initScheduler (hpos : ∀ a ∈ actions, 0 < a.i32uIntervalUs) (hne : q₀ ≠ [])
    {i : ℕ} (hinv : InitInv now i q₀)
    (hperm : (q₀.map SchedulerEvent.job).Perm (initialJobs now 0 actions)) {gap : Timespec}
    (hgap : gap = getMinimalModbusEventOffset q₀ ∨
      rtuMinimalEventOffset q₀ q₀.length = .ok gap) : GapOk (meanTime actions) gap := by
  rw [← meanPeriod_eq_meanTime hperm]
  rcases hgap with rfl | hrtu
  · rw [← meanTimeBetweenEvents_eq]
    exact gapOk_tcp q₀
  · refine gapOk_rtu hne (fun e he => ?_) (fun e he => ?_) hrtu
    · obtain ⟨a, -, ha, -⟩ := hinv.exists_action hperm he
      exact ⟨a, ha⟩
    · obtain ⟨a, ha, hint, -⟩ := hinv.exists_action hperm he
      rw [hint]
      exact intervalTime_pos (hpos a ha)

/-- Before the first pass nothing has been started, and nothing is late. -/
theorem timedInv_start (hnow : now.Normalised) (hclock : 0 ≤ now.tvSec) {i : ℕ}
    (hinv : InitInv now i q₀)
    (hperm : (q₀.map SchedulerEvent.job).Perm (initialJobs now 0 actions)) (M : ℚ) {reset : ℚ}
    {s₀ : MasterClock} (hlist : s₀.eventList = q₀) (hstart : s₀.tvEarliestNextTriggerTime = ⟨0, 0⟩)
    (hfirst : ∀ e ∈ q₀, s₀.now + reset ≤ e.triggerTime.toNs) : TimedInv q₀ M reset 0 [] s₀ := by
  refine ⟨by rw [hlist]; rfl, by simp, List.isChain_nil, by simp, fun _ e he => ?_⟩
  rw [hlist] at he
  refine ⟨hfirst e he, ?_⟩
  obtain ⟨a, -, -, ht⟩ := hinv.exists_action hperm he
  have hn := intervalTime_normalised a
  have hi := intervalTime_toNs a
  rw [hstart, ht]
  simp only [Timespec.Normalised, s32NanosecondsPerSecond] at hnow
  simp only [firstTrigger, toNs, s32NanosecondsPerSecond] at hi ⊢
  omega

end Start

/-- **No accumulating backlog.** Let `M` be the mean time between two actions, the gap that of the
TCP or of the RTU loop, the first sleep reached no later than the first trigger time, and let each
action, with the logging and the status resets up to the next sleep, take at most three quarters
of `M`. Then the `m`-th action starts at most `(N - 1) · M` after its trigger time, for every
`m`, where `N` is the number of actions. -/
theorem masterRun_lateness {malloc : ℕ → Bool} {now : Timespec} (hnow : now.Normalised)
    (hclock : 0 ≤ now.tvSec) {actions : List TModbusAction}
    (hpos : ∀ a ∈ actions, 0 < a.i32uIntervalUs) {q₀ : List SchedulerEvent}
    (hret : initScheduler malloc now actions = .ok (0, q₀)) {gap : Timespec}
    (hgap : gap = getMinimalModbusEventOffset q₀ ∨
      rtuMinimalEventOffset q₀ actions.length = .ok gap)
    {times : ℕ → PassTimes}
    (hnonneg : ∀ m, 0 ≤ (times m).reset ∧ 0 ≤ (times m).action ∧ 0 ≤ (times m).logging)
    (hwork : ∀ m, (times m).action + (times m).logging + (times (m + 1)).reset
      ≤ 3 / 4 * meanTime actions)
    {s₀ : MasterClock} (hlist : s₀.eventList = q₀) (hstart : s₀.tvEarliestNextTriggerTime = ⟨0, 0⟩)
    (hfirst : ∀ e ∈ q₀, s₀.now + (times 0).reset ≤ e.triggerTime.toNs) (m : ℕ) :
    ∃ started s, masterRun gap times s₀ m = .ok (started, s) ∧ started.length = m ∧
      getNextEvents q₀ m = .ok (started.map Prod.fst, s.eventList) ∧
      ∀ x ∈ started,
        x.2 ≤ x.1.triggerTime.toNs + ((actions.length : ℚ) - 1) * meanTime actions := by
  obtain ⟨hne, hinv, hperm⟩ := initScheduler_refines hnow hpos hret
  have hlen : q₀.length = actions.length := by
    simpa [initialJobs] using hperm.length_eq
  rw [← hlen] at hgap
  have hok := gapOk_of_initScheduler hpos hne hinv hperm hgap
  have h₀ := timedInv_start hnow hclock hinv hperm (meanTime actions) hlist hstart hfirst
  obtain ⟨started, s, hrun, hslen, hti⟩ :=
    TimedInv.run hinv.normalised hne hok hnonneg hwork h₀ m
  have hlate := hti.lateness hinv.normalised hne hinv.ready (meanPeriod_eq_meanTime hperm)
  rw [hlen] at hlate
  exact ⟨started, s, hrun, hslen, hti.events, hlate⟩

theorem masterRun_lateness_two :
    ∃ started s, masterRun (getMinimalModbusEventOffset twoEvents) (fun _ => ⟨0, 1000, 500⟩)
        ⟨8000000000, ⟨⟨0, 0⟩, 0⟩, ⟨0, 0⟩, twoEvents⟩ 9 = .ok (started, s) ∧
      started.length = 9 ∧
      getNextEvents twoEvents 9 = .ok (started.map Prod.fst, s.eventList) ∧
      ∀ x ∈ started, x.2 ≤ x.1.triggerTime.toNs
        + ((twoActions.length : ℚ) - 1) * meanTime twoActions :=
  @masterRun_lateness (fun _ => true) ⟨7, 999999999⟩ (by decide) (by decide) twoActions
    (by decide) twoEvents (by decide +kernel) _ (Or.inl rfl) (fun _ => ⟨0, 1000, 500⟩)
    (by norm_num)
    (by norm_num [meanTime, twoActions, show (1000 : UInt32).toNat = 1000 from rfl,
      show (1500000 : UInt32).toNat = 1500000 from rfl])
    _ rfl rfl (by norm_num [toNs, twoEvents]) 9

end RevPiModbus
