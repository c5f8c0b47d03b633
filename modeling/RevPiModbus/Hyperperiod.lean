import RevPiModbus.Fairness
import RevPiModbus.Lib.Hyperperiod

/-!
# The bus repeats itself

After any time that is a multiple of all intervals the event list of a master is as it was at the
start, with later trigger times, so that the scheduler hands out the same sequence of actions over
and over again.

* `SchedulerEvent.later`, `TModbusEvent.later`: the same with a later trigger time;
* `getNextEvents_periodic`: the sequence of the events.
-/

namespace RevPiModbus

open PeriodicQueue Timespec

/-- The same event, `t` nanoseconds later. -/
def SchedulerEvent.later (t : ℤ) (e : SchedulerEvent) : SchedulerEvent :=
  { e with triggerTime := ofNs (e.triggerTime.toNs + t) }

def TModbusEvent.later (t : ℤ) (e : TModbusEvent) : TModbusEvent :=
  { e with triggerTime := ofNs (e.triggerTime.toNs + t) }

theorem jobEvent_later (t : ℤ) (j : Job ℕ ℤ) : jobEvent (j.later t) = (jobEvent j).later t := by
  unfold jobEvent TModbusEvent.later
  rw [toNs_ofNs, Job.later_due, Job.later_id]

/-- The event that stands for a job. -/
def jobSchedulerEvent (j : Job ℕ ℤ) : SchedulerEvent := ⟨ofNs j.period, ofNs j.due, j.id⟩

theorem jobSchedulerEvent_later {e : SchedulerEvent} (h : e.Normalised) (t : ℤ) :
    jobSchedulerEvent (e.job.later t) = e.later t := by
  unfold jobSchedulerEvent SchedulerEvent.later SchedulerEvent.job
  rw [Job.later_period, Job.later_due, Job.later_id, h.1.ofNs_toNs]

theorem jobSchedulerEvent_job {e : SchedulerEvent} (h : e.Normalised) :
    jobSchedulerEvent e.job = e := by
  unfold jobSchedulerEvent SchedulerEvent.job
  rw [h.1.ofNs_toNs, h.2.ofNs_toNs]

/-- A list of events is determined by its jobs. -/
theorem eq_later_of_jobs {q r : List SchedulerEvent} (hq : ∀ e ∈ q, e.Normalised)
    (hr : ∀ e ∈ r, e.Normalised) {t : ℤ}
    (h : r.map SchedulerEvent.job = (q.map SchedulerEvent.job).map (Job.later t)) :
    r = q.map (SchedulerEvent.later t) := by
  calc r = (r.map SchedulerEvent.job).map jobSchedulerEvent := by
        rw [List.map_map]
        exact (List.map_id r).symm.trans
          (List.map_congr_left fun e he => (jobSchedulerEvent_job (hr e he)).symm)
    _ = q.map (SchedulerEvent.later t) := by
        rw [h, List.map_map, List.map_map]
        exact List.map_congr_left fun e he => jobSchedulerEvent_later (hq e he) t

/-! ## The instances of a hyperperiod -/

/-- How many periods of a job there are in `hyperperiod` microseconds. -/
def periodsIn (hyperperiod : ℕ) (j : Job ℕ ℤ) : ℕ := hyperperiod / (j.period.toNat / 1000)

theorem initialJob_period (now : Timespec) (i : ℕ) (a : TModbusAction) :
    (initialJob now i a).period = ((a.i32uIntervalUs.toNat * 1000 : ℕ) : ℤ) := by
  rw [initialJob, intervalTime_toNs]
  push_cast
  rfl

theorem periodsIn_of_period {hyperperiod n : ℕ} {j : Job ℕ ℤ}
    (h : j.period = ((n * 1000 : ℕ) : ℤ)) :
    periodsIn hyperperiod j = hyperperiod / n := by
  unfold periodsIn
  rw [h, Int.toNat_natCast, Nat.mul_div_cancel _ (by norm_num)]

theorem periodsIn_initialJob (hyperperiod : ℕ) (now : Timespec) (i : ℕ) (a : TModbusAction) :
    periodsIn hyperperiod (initialJob now i a) = hyperperiod / a.i32uIntervalUs.toNat :=
  periodsIn_of_period (initialJob_period now i a)

theorem sum_periodsIn (hyperperiod : ℕ) (now : Timespec) (actions : List TModbusAction) :
    ((initialJobs now 0 actions).map (periodsIn hyperperiod)).sum =
      (actions.map fun a => hyperperiod / a.i32uIntervalUs.toNat).sum := by
  unfold initialJobs
  conv_rhs => rw [← List.zipIdx_map_fst 0 actions]
  rw [List.map_map, List.map_map]
  congr 1
  refine List.map_congr_left fun x _ => ?_
  rw [Function.comp_apply, Function.comp_apply, periodsIn_initialJob]

/-- **The bus repeats itself.** Take any time that is a multiple of all intervals. The first events
that fall into it are as many as there are intervals in it, each action has exactly its share of
them, and they leave the event list as it was at the start, so much later. From then on the
scheduler hands out the events that it has handed out from the start on, in the same order, so much
later. -/
theorem getNextEvents_periodic {malloc : ℕ → Bool} {now : Timespec} (hnow : now.Normalised)
    {actions : List TModbusAction} (hpos : ∀ a ∈ actions, 0 < a.i32uIntervalUs)
    {q₀ : List SchedulerEvent} (hret : initScheduler malloc now actions = .ok (0, q₀))
    {hyperperiod : ℕ} (hdvd : ∀ a ∈ actions, a.i32uIntervalUs.toNat ∣ hyperperiod) :
    ∃ round,
      getNextEvents q₀ (actions.map fun a => hyperperiod / a.i32uIntervalUs.toNat).sum =
        .ok (round, q₀.map (SchedulerEvent.later (hyperperiod * 1000))) ∧
      (∀ (i : ℕ) (a : TModbusAction), actions[i]? = some a →
        executions i round = hyperperiod / a.i32uIntervalUs.toNat) ∧
      ∀ n, ∃ events q, getNextEvents q₀ n = .ok (events, q) ∧
        getNextEvents q₀ ((actions.map fun a => hyperperiod / a.i32uIntervalUs.toNat).sum + n) =
          .ok (round ++ events.map (TModbusEvent.later (hyperperiod * 1000)),
            q.map (SchedulerEvent.later (hyperperiod * 1000))) := by
  obtain ⟨hne, hinv, hperm⟩ := initScheduler_refines hnow hpos hret
  have hnames : ((q₀.map SchedulerEvent.job).map Job.id).Nodup :=
    ((hperm.map Job.id).nodup_iff).2 (initialJobs_names now actions)
  have hperiods : ∀ j ∈ q₀.map SchedulerEvent.job,
      periodsIn hyperperiod j • j.period = (hyperperiod * 1000 : ℤ) := by
    intro j hj
    obtain ⟨x, hx, rfl⟩ := List.mem_map.1 (hperm.mem_iff.1 hj)
    obtain ⟨k, hk⟩ := hdvd x.1 (List.fst_mem_of_mem_zipIdx hx)
    have hinterval : 0 < x.1.i32uIntervalUs.toNat := hpos x.1 (List.fst_mem_of_mem_zipIdx hx)
    rw [periodsIn_initialJob, hk, Nat.mul_div_cancel_left _ hinterval, nsmul_eq_mul,
      initialJob_period]
    push_cast
    ring
  have hsum : ((q₀.map SchedulerEvent.job).map (periodsIn hyperperiod)).sum =
      (actions.map fun a => hyperperiod / a.i32uIntervalUs.toNat).sum := by
    rw [(hperm.map _).sum_eq, sum_periodsIn hyperperiod now actions]
  have hqueue := hinv.ready.deliver_hyperperiod hnames hinv.first hperiods
  have hcount := hinv.ready.deliveries_eq hnames hinv.first hperiods
  rw [hsum] at hqueue hcount
  generalize (actions.map fun a => hyperperiod / a.i32uIntervalUs.toNat).sum = total
    at hqueue hcount ⊢
  obtain ⟨r, hr, hnormal, hjobs⟩ := getNextEvents_refines hinv.normalised hne total
  rw [hqueue] at hjobs
  obtain rfl := eq_later_of_jobs hinv.normalised hnormal hjobs
  refine ⟨_, hr, fun i a hi => ?_, fun n => ?_⟩
  · have hmem := hperm.mem_iff.2 (initialJob_mem now hi)
    rw [executions_map_jobEvent, ← periodsIn_initialJob hyperperiod now i a]
    exact hcount _ hmem
  · obtain ⟨q, hq, hqnormal, hqjobs⟩ := getNextEvents_refines hinv.normalised hne n
    obtain ⟨s, hs, hsnormal, hsjobs⟩ := getNextEvents_refines hinv.normalised hne (total + n)
    rw [deliver_add, hqueue, deliver_later, ← hqjobs] at hsjobs
    obtain rfl := eq_later_of_jobs hqnormal hsnormal hsjobs
    refine ⟨_, q, hq, ?_⟩
    rw [hs, deliver_add, hqueue, deliver_later, List.map_append, List.map_map, List.map_map]
    congr 3
    exact List.map_congr_left fun j _ => jobEvent_later _ j

/-- An action every two milliseconds and one every three. -/
def twoThreeActions : List TModbusAction :=
  [{ TModbusAction.zero with i32uIntervalUs := 2000 },
    { TModbusAction.zero with i32uIntervalUs := 3000 }]

/-- Their event list if the clock reads 7.999999999 s. -/
def twoThreeEvents : List SchedulerEvent :=
  [⟨⟨0, 2000000⟩, ⟨9, 1999999⟩, 0⟩, ⟨⟨0, 3000000⟩, ⟨9, 2999999⟩, 1⟩]

/-- Five events in six milliseconds. -/
theorem getNextEvents_periodic_twoThree :
    ∃ round,
      getNextEvents twoThreeEvents
          (twoThreeActions.map fun a => 6000 / a.i32uIntervalUs.toNat).sum =
        .ok (round, twoThreeEvents.map (SchedulerEvent.later (6000 * 1000))) ∧
      (∀ (i : ℕ) (a : TModbusAction), twoThreeActions[i]? = some a →
        executions i round = 6000 / a.i32uIntervalUs.toNat) ∧
      ∀ n, ∃ events q, getNextEvents twoThreeEvents n = .ok (events, q) ∧
        getNextEvents twoThreeEvents
            ((twoThreeActions.map fun a => 6000 / a.i32uIntervalUs.toNat).sum + n) =
          .ok (round ++ events.map (TModbusEvent.later (6000 * 1000)),
            q.map (SchedulerEvent.later (6000 * 1000))) :=
  @getNextEvents_periodic (fun _ => true) ⟨7, 999999999⟩ (by decide) twoThreeActions (by decide)
    twoThreeEvents (by decide +kernel) 6000 (by decide)

end RevPiModbus
