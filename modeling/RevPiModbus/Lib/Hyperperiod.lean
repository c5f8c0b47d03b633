import RevPiModbus.Lib.PeriodicQueue
import Mathlib.Algebra.BigOperators.Group.Finset.Basic
import Mathlib.Algebra.Order.BigOperators.Group.List

/-!
# The hyperperiod of a queue of periodic jobs

A time that is a whole number of periods of every job: if all jobs have started together, the queue
is after that time as it was at the start, and everything repeats.

* `Job.later`, `deliver_later`: the dispatches do not depend on the origin of time;
* `deliver_add`: some dispatches, and then some more;
* `sum_deliveries`: each dispatch delivers one job;
* `Ready.deliveries_eq`: in as many dispatches as the hyperperiod has instances, each job is
  delivered as often as it has periods in it;
* `Ready.deliver_hyperperiod`: the queue that they leave.
-/

set_option linter.unusedSectionVars false

namespace PeriodicQueue

variable {ι τ : Type*} [LinearOrder ι] [AddCommGroup τ] [LinearOrder τ] [IsOrderedAddMonoid τ]

/-! ## The origin of time -/

/-- The same instance, if time had started `t` later. -/
def Job.later (t : τ) (j : Job ι τ) : Job ι τ := { j with due := j.due + t }

@[simp] theorem Job.later_id (t : τ) (j : Job ι τ) : (j.later t).id = j.id := rfl
@[simp] theorem Job.later_period (t : τ) (j : Job ι τ) : (j.later t).period = j.period := rfl
@[simp] theorem Job.later_due (t : τ) (j : Job ι τ) : (j.later t).due = j.due + t := rfl

theorem Job.later_advance (t : τ) (j : Job ι τ) (k : ℕ) :
    (j.later t).advance k = (j.advance k).later t := by
  ext <;> simp [add_right_comm]

theorem Job.advance_eq_later {j : Job ι τ} {k : ℕ} {t : τ} (h : k • j.period = t) :
    j.advance k = j.later t := by
  ext <;> simp [h]

theorem before_later {a b : Job ι τ} (t : τ) : Before (a.later t) (b.later t) ↔ Before a b := by
  simp [Before]

theorem insertByDue_later (t : τ) (j : Job ι τ) (q : List (Job ι τ)) :
    insertByDue (j.later t) (q.map (Job.later t)) = (insertByDue j q).map (Job.later t) := by
  unfold insertByDue
  symm
  apply List.map_orderedInsert <;> simp

/-- **The dispatches do not depend on the origin of time.** -/
theorem deliver_later (t : τ) (q : List (Job ι τ)) (n : ℕ) :
    deliver (q.map (Job.later t)) n =
      ((deliver q n).1.map (Job.later t), (deliver q n).2.map (Job.later t)) := by
  induction n with
  | zero => rfl
  | succ n ih =>
    cases hr : (deliver q n).2 with
    | nil => simp only [deliver, ih, hr, List.map_nil, dispatch]
    | cons j r =>
      rw [hr, List.map_cons] at ih
      rw [deliver_succ hr, deliver_succ (congrArg Prod.snd ih), ih, Job.later_advance,
        insertByDue_later, List.map_append, List.map_singleton]

theorem deliver_add (q : List (Job ι τ)) (m n : ℕ) :
    deliver q (m + n) =
      ((deliver q m).1 ++ (deliver (deliver q m).2 n).1, (deliver (deliver q m).2 n).2) := by
  induction n with
  | zero => simp
  | succ n ih =>
    rw [← Nat.add_assoc]
    have hqueue : (deliver q (m + n)).2 = (deliver (deliver q m).2 n).2 := by rw [ih]
    cases hr : (deliver (deliver q m).2 n).2 with
    | nil => simp only [deliver, ih, hr, dispatch]
    | cons j r =>
      rw [deliver_succ (hqueue.trans hr), deliver_succ hr, ih, List.append_assoc]

/-! ## Counting the deliveries -/

/-- Each dispatch delivers one job. -/
theorem sum_deliveries {q d : List (Job ι τ)} (hnames : (q.map Job.id).Nodup)
    (hsub : ∀ x ∈ d, x ∈ instances q) : (q.map fun j => deliveries j.id d).sum = d.length := by
  have hcount : ∀ i, deliveries i d = (d.map Job.id : Multiset ι).count i := by
    intro i
    unfold deliveries
    rw [Multiset.coe_count, List.count_eq_countP, List.countP_map]
    congr 1
  have hids : ∀ i ∈ (d.map Job.id : Multiset ι), i ∈ (q.map Job.id).toFinset := by
    intro i hi
    obtain ⟨x, hx, rfl⟩ := List.mem_map.1 (Multiset.mem_coe.1 hi)
    obtain ⟨j, hj, k, rfl⟩ := hsub x hx
    exact List.mem_toFinset.2 (List.mem_map.2 ⟨j, hj, rfl⟩)
  have hsum := Multiset.sum_count_eq_card hids
  rw [List.sum_toFinset _ hnames, List.map_map, Multiset.coe_card, List.length_map] at hsum
  rw [← hsum]
  congr 1
  exact List.map_congr_left fun j _ => hcount j.id

/-- Between a delivered instance and a queued one there is no time left. -/
theorem Ready.deliveries_period_le {q : List (Job ι τ)} (h : Ready q)
    (hnames : (q.map Job.id).Nodup) {base : τ} (hbase : ∀ j ∈ q, j.prev.due = base) {a b : Job ι τ}
    (ha : a ∈ q) (hb : b ∈ q) (n : ℕ) :
    deliveries a.id (deliver q n).1 • a.period ≤
      (deliveries b.id (deliver q n).1 + 1) • b.period := by
  by_cases hzero : deliveries a.id (deliver q n).1 = 0
  · rw [hzero, zero_nsmul]
    exact nsmul_nonneg (h.positive b hb).le _
  · have hle := h.deliveries_le hnames ha hb n hzero
    obtain ⟨k, hk⟩ := Nat.exists_eq_succ_of_ne_zero hzero
    have hdue : ∀ j ∈ q, j.due = base + j.period := by
      intro j hj
      rw [← hbase j hj, Job.prev_due, sub_add_cancel]
    rw [hk, Nat.succ_sub_one, hdue a ha, hdue b hb, add_assoc, add_assoc, add_le_add_iff_left,
      ← succ_nsmul', ← succ_nsmul'] at hle
    rw [hk]
    exact hle

/-- **As many dispatches as the hyperperiod has instances** deliver each job once for each of its
periods. -/
theorem Ready.deliveries_eq {q : List (Job ι τ)} (h : Ready q) (hnames : (q.map Job.id).Nodup)
    {base t : τ} (hbase : ∀ j ∈ q, j.prev.due = base) {k : Job ι τ → ℕ}
    (hk : ∀ j ∈ q, k j • j.period = t) :
    ∀ j ∈ q, deliveries j.id (deliver q (q.map k).sum).1 = k j := by
  by_cases hq : q = []
  · simp [hq]
  set n := (q.map k).sum with hn
  set d := (deliver q n).1 with hd
  have hsum : (q.map fun j => deliveries j.id d).sum = (q.map k).sum := by
    rw [sum_deliveries hnames (deliver_delivered h n).subset, deliver_fst_length hq, hn]
  -- a job that has been delivered too often leaves no room for one that has not been often enough
  have hle : ∀ j ∈ q, deliveries j.id d ≤ k j := by
    intro a ha
    by_contra hlt
    rw [not_le] at hlt
    obtain ⟨b, hb, hfew⟩ : ∃ b ∈ q, deliveries b.id d < k b := by
      by_contra hnone
      push Not at hnone
      exact (List.sum_lt_sum _ _ hnone ⟨a, ha, hlt⟩).ne' hsum
    have hroom := h.deliveries_period_le hnames hbase ha hb n
    have hmore : t < deliveries a.id d • a.period := by
      rw [← hk a ha]
      exact nsmul_lt_nsmul_left (h.positive a ha) hlt
    have hless : (deliveries b.id d + 1) • b.period ≤ t := by
      rw [← hk b hb]
      exact nsmul_le_nsmul_left (h.positive b hb).le hfew
    exact absurd (hmore.trans_le (hroom.trans hless)) (lt_irrefl t)
  intro j hj
  by_contra hne
  exact (List.sum_lt_sum _ _ hle ⟨j, hj, lt_of_le_of_ne (hle j hj) hne⟩).ne hsum

/-- **After a hyperperiod the queue is as it was at the start.** -/
theorem Ready.deliver_hyperperiod {q : List (Job ι τ)} (h : Ready q)
    (hnames : (q.map Job.id).Nodup) {base t : τ} (hbase : ∀ j ∈ q, j.prev.due = base)
    {k : Job ι τ → ℕ} (hk : ∀ j ∈ q, k j • j.period = t) :
    (deliver q (q.map k).sum).2 = q.map (Job.later t) := by
  have hcount := h.deliveries_eq hnames hbase hk
  have hready := (deliver_delivered h (q.map k).sum).ready
  have hsub : q.map (Job.later t) ⊆ (deliver q (q.map k).sum).2 := by
    intro x hx
    obtain ⟨j, hj, rfl⟩ := List.mem_map.1 hx
    have hqueued := (deliver_counted hnames hj (q.map k).sum).queued
    rwa [hcount j hj, Job.advance_eq_later (hk j hj)] at hqueued
  have hincreasing : (q.map (Job.later t)).Pairwise Before :=
    List.pairwise_map.2 (h.increasing.imp fun hab => (before_later t).2 hab)
  have hperm : (q.map (Job.later t)).Perm (deliver q (q.map k).sum).2 :=
    (List.subperm_of_subset hincreasing.nodup hsub).perm_of_length_le
      (by rw [deliver_length, List.length_map])
  exact (hperm.eq_of_pairwise (fun a b _ _ hab hba =>
    absurd (hab.trans hba) (Std.Irrefl.irrefl a)) hincreasing hready.increasing).symm

end PeriodicQueue
