import RevPiModbus.Schedule

/-!
# Fair shares of the bus

All actions of a master share one connection. Whatever the order of the list, and however late the
thread runs, the scheduler hands out turns in inverse proportion to the intervals.

* `executions`: how often an action has been delivered;
* `executions_fair`: the shares of two actions in any part of a run.
-/

namespace RevPiModbus

open PeriodicQueue

/-- How many of the delivered events are for the action at position `i`. -/
def executions (i : ℕ) (events : List TModbusEvent) : ℕ :=
  events.countP fun e => decide (e.ptModbusAction = i)

theorem executions_map_jobEvent (i : ℕ) (d : List (Job ℕ ℤ)) :
    executions i (d.map jobEvent) = deliveries i d := by
  unfold executions deliveries
  rw [List.countP_map]
  rfl

variable {now : Timespec} {actions : List TModbusAction}

theorem initialJobs_names (now : Timespec) (actions : List TModbusAction) :
    ((initialJobs now 0 actions).map Job.id).Nodup := by
  have hids : (initialJobs now 0 actions).map Job.id = List.range' 0 actions.length := by
    unfold initialJobs
    rw [List.map_map, ← List.zipIdx_map_snd 0 actions]
    rfl
  rw [hids]
  exact List.nodup_range'

theorem initialJob_mem (now : Timespec) {i : ℕ} {a : TModbusAction} (hi : actions[i]? = some a) :
    initialJob now i a ∈ initialJobs now 0 actions :=
  List.mem_map.2 ⟨(a, i), List.mem_zipIdx_iff_getElem?.2 hi, rfl⟩

/-- In a list reached from the initial one each action has a job under its position, with its own
interval. -/
theorem exists_job_of_deliver {q₀ : List SchedulerEvent}
    (hperm : (q₀.map SchedulerEvent.job).Perm (initialJobs now 0 actions)) (m : ℕ) {i : ℕ}
    {a : TModbusAction} (hi : actions[i]? = some a) :
    ∃ j ∈ (deliver (q₀.map SchedulerEvent.job) m).2,
      j.id = i ∧ j.period = a.i32uIntervalUs.toNat * 1000 := by
  have hfirst := List.mem_map_of_mem (f := fun j : Job ℕ ℤ => (j.id, j.period))
    (hperm.mem_iff.2 (initialJob_mem now hi))
  have hentry := (deliver_perm (q₀.map SchedulerEvent.job) m).mem_iff.2 hfirst
  obtain ⟨j, hj, heq⟩ := List.mem_map.1 hentry
  simp only [Prod.mk.injEq] at heq
  refine ⟨j, hj, heq.1, ?_⟩
  rw [heq.2]
  simp [initialJob, intervalTime_toNs]

/-- **Fair shares.** Take any part of a run of the scheduler: `n` calls of `getNextEvent` after the
first `m` ones. The time that the executions of one action in it stand for, less one interval, is at
most that of another action and one interval more; from the start on the first interval counts as
well. -/
theorem executions_fair {malloc : ℕ → Bool} {now : Timespec} (hnow : now.Normalised)
    {actions : List TModbusAction} (hpos : ∀ a ∈ actions, 0 < a.i32uIntervalUs)
    {q₀ : List SchedulerEvent} (hret : initScheduler malloc now actions = .ok (0, q₀)) (m n : ℕ)
    {i j : ℕ} {a b : TModbusAction} (hi : actions[i]? = some a) (hj : actions[j]? = some b) :
    ∃ before q events q', getNextEvents q₀ m = .ok (before, q) ∧
      getNextEvents q n = .ok (events, q') ∧
      executions i before * a.i32uIntervalUs.toNat ≤
        (executions j before + 1) * b.i32uIntervalUs.toNat ∧
      (executions i events - 1) * a.i32uIntervalUs.toNat ≤
        (executions j events + 1) * b.i32uIntervalUs.toNat := by
  obtain ⟨hne, hinv, hperm⟩ := initScheduler_refines hnow hpos hret
  obtain ⟨q, hq, hnormal, hjobs⟩ := getNextEvents_refines hinv.normalised hne m
  obtain ⟨q', hq', -, -⟩ := getNextEvents_refines hnormal (ne_nil_of_deliver hne hjobs) n
  have hnames₀ : ((q₀.map SchedulerEvent.job).map Job.id).Nodup :=
    ((hperm.map Job.id).nodup_iff).2 (initialJobs_names now actions)
  refine ⟨_, q, _, q', hq, hq', ?_, ?_⟩
  · rw [executions_map_jobEvent, executions_map_jobEvent]
    have ha := hperm.mem_iff.2 (initialJob_mem now hi)
    have hb := hperm.mem_iff.2 (initialJob_mem now hj)
    by_cases hzero : deliveries i (deliver (q₀.map SchedulerEvent.job) m).1 = 0
    · rw [hzero, Nat.zero_mul]
      exact Nat.zero_le _
    · have hle := hinv.ready.deliveries_le hnames₀ ha hb m hzero
      simp only [initialJob, firstTrigger, intervalTime_toNs, nsmul_eq_mul] at hle
      obtain ⟨k, hk⟩ := Nat.exists_eq_succ_of_ne_zero hzero
      rw [hk] at hle ⊢
      push_cast [Nat.succ_sub_one] at hle
      have hle' : ((k + 1) * a.i32uIntervalUs.toNat : ℤ) ≤
          (deliveries j (deliver (q₀.map SchedulerEvent.job) m).1 + 1) *
            b.i32uIntervalUs.toNat := by
        linarith
      exact_mod_cast hle'
  · rw [executions_map_jobEvent, executions_map_jobEvent, hjobs]
    obtain ⟨x, hx, hxid, hxperiod⟩ := exists_job_of_deliver hperm m hi
    obtain ⟨y, hy, hyid, hyperiod⟩ := exists_job_of_deliver hperm m hj
    have hready := (deliver_delivered hinv.ready m).ready
    have hnames : ((deliver (q₀.map SchedulerEvent.job) m).2.map Job.id).Nodup :=
      (deliver_names _ m).nodup_iff.2 hnames₀
    have hshare := hready.fair_share hnames hx hy n
    rw [hxid, hyid, hxperiod, hyperiod] at hshare
    generalize (deliver (deliver (q₀.map SchedulerEvent.job) m).2 n).1 = d at hshare ⊢
    simp only [nsmul_eq_mul] at hshare
    have hshare' : ((deliveries i d - 1 : ℕ) * a.i32uIntervalUs.toNat : ℤ) ≤
        ((deliveries j d + 1 : ℕ) : ℤ) * b.i32uIntervalUs.toNat := by
      linarith
    exact_mod_cast hshare'

/-- After five events the interval of one millisecond has had all of them, and that of 1.5 seconds
none. -/
theorem executions_fair_two :
    ∃ before q events q', getNextEvents twoEvents 5 = .ok (before, q) ∧
      getNextEvents q 3 = .ok (events, q') ∧
      executions 0 before * 1000 ≤ (executions 1 before + 1) * 1500000 ∧
      (executions 0 events - 1) * 1000 ≤ (executions 1 events + 1) * 1500000 :=
  @executions_fair (fun _ => true) ⟨7, 999999999⟩ (by decide) twoActions (by decide) _
    (by decide +kernel) 5 3 0 1 _ _ rfl rfl

end RevPiModbus
