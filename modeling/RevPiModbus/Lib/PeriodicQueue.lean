import RevPiModbus.Lib.Enumeration
import Mathlib.Algebra.Order.Group.Defs
import Mathlib.Algebra.Order.Group.Nat
import Mathlib.Algebra.Module.NatInt

/-!
# A queue of periodic jobs

Each job of the queue has a period and the time at which it is due next. A dispatch removes the
head, adds one period to its due time and inserts it again behind every job that is due no later.
The times are taken from any ordered additive group.

* `Job`, `insertByDue`, `dispatch`, `deliver` (the jobs delivered by the first `n` dispatches);
* `Before`, the order in which the instances of jobs come: by due time, at equal times the longer
  period first, then the smaller name;
* `Ready`, the invariant: the queue is increasing, and the previous instance of every queued job
  comes before every queued job;
* `deliver_enumerates`: the jobs delivered from a `Ready` queue are the first elements, in this
  order, of the set of all later instances of its jobs;
* `Ready.window`: no job is behind the last delivery, or ahead of it by more than its period;
* `deliveries`, `Counted`: how often a job has been delivered, and which instances those were;
* `Ready.fair_share`: in any part of a run, two jobs are delivered in inverse proportion to their
  periods, up to one period of each.
-/

set_option linter.unusedSectionVars false

namespace PeriodicQueue

open Enumeration

/-- A periodic job: its name, its period and the time at which it is due next. -/
@[ext] structure Job (ι τ : Type*) where
  id : ι
  period : τ
  due : τ
  deriving DecidableEq

variable {ι τ : Type*} [LinearOrder ι] [AddCommGroup τ] [LinearOrder τ] [IsOrderedAddMonoid τ]

/-- The same job, `k` periods later. -/
def Job.advance (j : Job ι τ) (k : ℕ) : Job ι τ := { j with due := j.due + k • j.period }

/-- The instance of a job before the present one. -/
def Job.prev (j : Job ι τ) : Job ι τ := { j with due := j.due - j.period }

@[simp] theorem Job.advance_id (j : Job ι τ) (k : ℕ) : (j.advance k).id = j.id := rfl
@[simp] theorem Job.advance_period (j : Job ι τ) (k : ℕ) : (j.advance k).period = j.period := rfl
@[simp] theorem Job.advance_due (j : Job ι τ) (k : ℕ) :
    (j.advance k).due = j.due + k • j.period := rfl
@[simp] theorem Job.prev_id (j : Job ι τ) : j.prev.id = j.id := rfl
@[simp] theorem Job.prev_period (j : Job ι τ) : j.prev.period = j.period := rfl
@[simp] theorem Job.prev_due (j : Job ι τ) : j.prev.due = j.due - j.period := rfl

@[simp] theorem Job.advance_zero (j : Job ι τ) : j.advance 0 = j := by ext <;> simp

theorem Job.advance_advance (j : Job ι τ) (k n : ℕ) :
    (j.advance k).advance n = j.advance (k + n) := by
  ext <;> simp [add_nsmul, add_assoc]

theorem Job.prev_advance_one (j : Job ι τ) : (j.advance 1).prev = j := by ext <;> simp

/-! ## The order of the instances -/

/-- `a` comes before `b`: it is due earlier, or at the same time with the longer period, or at
the same time with the same period and the smaller name. -/
def Before (a b : Job ι τ) : Prop :=
  a.due < b.due ∨ a.due = b.due ∧ (b.period < a.period ∨ a.period = b.period ∧ a.id < b.id)

theorem Before.of_due_lt {a b : Job ι τ} (h : a.due < b.due) : Before a b := Or.inl h

theorem Before.due_le {a b : Job ι τ} (h : Before a b) : a.due ≤ b.due := by
  rcases h with h | h
  · exact h.le
  · exact h.1.le

instance : Std.Irrefl (Before : Job ι τ → Job ι τ → Prop) where
  irrefl a h := by
    rcases h with h | ⟨-, h | ⟨-, h⟩⟩ <;> exact lt_irrefl _ h

instance : IsTrans (Job ι τ) Before where
  trans a b c hab hbc := by
    rcases hab with hab | ⟨hab, hab'⟩
    · exact Or.inl (hab.trans_le hbc.due_le)
    rcases hbc with hbc | ⟨hbc, hbc'⟩
    · exact Or.inl (hab ▸ hbc)
    refine Or.inr ⟨hab.trans hbc, ?_⟩
    rcases hab' with hab' | ⟨hp, hi⟩ <;> rcases hbc' with hbc' | ⟨hp', hi'⟩
    · exact Or.inl (hbc'.trans hab')
    · exact Or.inl (hp' ▸ hab')
    · exact Or.inl (hp ▸ hbc')
    · exact Or.inr ⟨hp.trans hp', hi.trans hi'⟩

theorem Before.trans {a b c : Job ι τ} (hab : Before a b) (hbc : Before b c) : Before a c :=
  IsTrans.trans a b c hab hbc

theorem before_advance {j : Job ι τ} (hj : 0 < j.period) {k n : ℕ} (h : k < n) :
    Before (j.advance k) (j.advance n) := by
  apply Before.of_due_lt
  simpa using nsmul_lt_nsmul_left hj h

/-! ## The operations -/

/-- Insert a job behind every job that is due no later. -/
def insertByDue (j : Job ι τ) (q : List (Job ι τ)) : List (Job ι τ) :=
  q.orderedInsert (fun a b => a.due < b.due) j

/-- Deliver the head and put its next instance back into the queue. -/
def dispatch : List (Job ι τ) → Option (Job ι τ × List (Job ι τ))
  | [] => none
  | j :: q => some (j, insertByDue (j.advance 1) q)

/-- The jobs delivered by the first `n` dispatches, and the queue they leave. -/
def deliver (q : List (Job ι τ)) : ℕ → List (Job ι τ) × List (Job ι τ)
  | 0 => ([], q)
  | n + 1 =>
    match dispatch (deliver q n).2 with
    | none => deliver q n
    | some (j, q') => ((deliver q n).1 ++ [j], q')

theorem insertByDue_perm (j : Job ι τ) (q : List (Job ι τ)) :
    (insertByDue j q).Perm (j :: q) := List.perm_orderedInsert _ j q

@[simp] theorem mem_insertByDue {j k : Job ι τ} {q : List (Job ι τ)} :
    k ∈ insertByDue j q ↔ k = j ∨ k ∈ q := by
  rw [(insertByDue_perm j q).mem_iff, List.mem_cons]

/-- Insertion keeps a queue increasing when the new job comes after those due at its time. -/
theorem insertByDue_pairwise {j : Job ι τ} {q : List (Job ι τ)} (hq : q.Pairwise Before)
    (hj : ∀ k ∈ q, k.due = j.due → Before k j) : (insertByDue j q).Pairwise Before := by
  induction q with
  | nil => simp [insertByDue]
  | cons a q ih =>
    have ha : ∀ k ∈ q, Before a k := fun k hk => List.rel_of_pairwise_cons hq hk
    rw [insertByDue, List.orderedInsert_cons]
    split_ifs with hlt
    · refine List.Pairwise.cons (fun k hk => ?_) hq
      rcases List.mem_cons.1 hk with rfl | hk
      · exact Before.of_due_lt hlt
      · exact (Before.of_due_lt hlt).trans (ha k hk)
    · refine List.Pairwise.cons (fun k hk => ?_)
        (ih hq.of_cons fun k hk => hj k (List.mem_cons_of_mem a hk))
      rcases mem_insertByDue.1 hk with rfl | hk
      · rcases (not_lt.1 hlt).lt_or_eq with h | h
        · exact Before.of_due_lt h
        · exact hj a (by simp) h
      · exact ha k hk

/-! ## The invariant -/

/-- The invariant of the queue. -/
structure Ready (q : List (Job ι τ)) : Prop where
  increasing : q.Pairwise Before
  positive : ∀ j ∈ q, 0 < j.period
  prev_before : ∀ a ∈ q, ∀ b ∈ q, Before a.prev b

/-- A job inserted into a queue of later instances comes after those due at its time. -/
theorem before_of_prev_before {j k : Job ι τ} (h : Before k.prev j.prev) (hdue : k.due = j.due) :
    Before k j := by
  refine Or.inr ⟨hdue, ?_⟩
  rcases h with h | ⟨-, h⟩
  · left
    have h' : j.due - k.period < j.due - j.period := by simpa [hdue] using h
    simpa using h'
  · exact h

/-- **One dispatch keeps the invariant.** -/
theorem Ready.step {j : Job ι τ} {q : List (Job ι τ)} (h : Ready (j :: q)) :
    Ready (insertByDue (j.advance 1) q) := by
  have hpos : 0 < j.period := h.positive j (by simp)
  have hj : ∀ k ∈ q, Before j k := fun k hk => List.rel_of_pairwise_cons h.increasing hk
  have hnext : Before j (j.advance 1) := by simpa using before_advance hpos Nat.zero_lt_one
  have hprev : ∀ a ∈ j :: q, Before a.prev j := fun a ha => h.prev_before a ha j (by simp)
  refine ⟨insertByDue_pairwise h.increasing.of_cons fun k hk hdue => ?_, fun k hk => ?_,
    fun a ha b hb => ?_⟩
  · exact before_of_prev_before
      (by rw [Job.prev_advance_one]; exact hprev k (List.mem_cons_of_mem j hk)) hdue
  · rcases mem_insertByDue.1 hk with rfl | hk
    · exact hpos
    · exact h.positive k (List.mem_cons_of_mem j hk)
  · rcases mem_insertByDue.1 ha with rfl | ha <;> rcases mem_insertByDue.1 hb with rfl | hb
    · rw [Job.prev_advance_one]; exact hnext
    · rw [Job.prev_advance_one]; exact hj b hb
    · exact (hprev a (List.mem_cons_of_mem j ha)).trans hnext
    · exact h.prev_before a (List.mem_cons_of_mem j ha) b (List.mem_cons_of_mem j hb)

/-- A job that starts one period after `base` may be inserted at the end of the initial queue. -/
theorem Ready.insert_first {base : τ} {j : Job ι τ} {q : List (Job ι τ)} (h : Ready q)
    (hbase : ∀ k ∈ j :: q, k.prev.due = base) (hpos : 0 < j.period)
    (hid : ∀ k ∈ q, k.id < j.id) : Ready (insertByDue j q) := by
  have hlt : ∀ k ∈ j :: q, base < k.due := by
    intro k hk
    have hk' : 0 < k.period := by
      rcases List.mem_cons.1 hk with rfl | hk
      · exact hpos
      · exact h.positive k hk
    rw [← hbase k hk, Job.prev_due]
    exact sub_lt_self _ hk'
  refine ⟨insertByDue_pairwise h.increasing fun k hk hdue => ?_, fun k hk => ?_,
    fun a ha b hb => ?_⟩
  · have hk' := hbase k (List.mem_cons_of_mem j hk)
    have hj' := hbase j (by simp)
    have hp : k.period = j.period := by
      have h1 : k.due - k.period = k.due - j.period := by
        rw [← Job.prev_due, hk', hdue, ← Job.prev_due, hj']
      exact sub_right_injective h1
    exact Or.inr ⟨hdue, Or.inr ⟨hp, hid k hk⟩⟩
  · rcases mem_insertByDue.1 hk with rfl | hk
    · exact hpos
    · exact h.positive k hk
  · apply Before.of_due_lt
    rw [hbase a (List.mem_cons.2 (mem_insertByDue.1 ha))]
    exact hlt b (List.mem_cons.2 (mem_insertByDue.1 hb))

/-! ## Whole runs -/

@[simp] theorem deliver_zero (q : List (Job ι τ)) : deliver q 0 = ([], q) := rfl

theorem deliver_succ {q q' : List (Job ι τ)} {n : ℕ} {j : Job ι τ}
    (h : (deliver q n).2 = j :: q') :
    deliver q (n + 1) = ((deliver q n).1 ++ [j], insertByDue (j.advance 1) q') := by
  simp only [deliver, h, dispatch]

/-- All present and later instances of the jobs of a queue. -/
def instances (q : List (Job ι τ)) : Set (Job ι τ) := {x | ∃ j ∈ q, ∃ k : ℕ, x = j.advance k}

/-- What holds after every number of dispatches from the queue `q`: the queue is `Ready`, the
delivered jobs are increasing instances of `q` that come before every queued job, and every
instance of `q` that has not been delivered is a later instance of a queued job. -/
structure Delivered (q d r : List (Job ι τ)) : Prop where
  ready : Ready r
  increasing : d.Pairwise Before
  subset : ∀ x ∈ d, x ∈ instances q
  before : ∀ x ∈ d, ∀ j ∈ r, Before x j
  rest : ∀ x ∈ instances q, x ∈ d ∨ x ∈ instances r
  queued : instances r ⊆ instances q

theorem Delivered.init {q : List (Job ι τ)} (h : Ready q) : Delivered q [] q :=
  ⟨h, List.Pairwise.nil, by simp, by simp, fun _ hx => Or.inr hx, subset_rfl⟩

theorem instances_mem {q : List (Job ι τ)} {j : Job ι τ} (hj : j ∈ q) : j ∈ instances q :=
  ⟨j, hj, 0, by simp⟩

theorem instances_insertByDue_subset (j : Job ι τ) (q : List (Job ι τ)) :
    instances (insertByDue (j.advance 1) q) ⊆ instances (j :: q) := by
  rintro x ⟨k, hk, n, rfl⟩
  rcases mem_insertByDue.1 hk with rfl | hk
  · exact ⟨j, by simp, 1 + n, by rw [Job.advance_advance]⟩
  · exact ⟨k, List.mem_cons_of_mem j hk, n, rfl⟩

/-- **One dispatch keeps the account of delivered and outstanding instances.** -/
theorem Delivered.step {q d r : List (Job ι τ)} {j : Job ι τ} (h : Delivered q d (j :: r)) :
    Delivered q (d ++ [j]) (insertByDue (j.advance 1) r) := by
  have hpos : 0 < j.period := h.ready.positive j (by simp)
  have hnext : Before j (j.advance 1) := by simpa using before_advance hpos Nat.zero_lt_one
  have hsub := instances_insertByDue_subset j r
  refine ⟨h.ready.step, ?_, ?_, ?_, ?_, hsub.trans h.queued⟩
  · rw [List.pairwise_append]
    refine ⟨h.increasing, by simp, fun x hx y hy => ?_⟩
    rw [List.mem_singleton.1 hy]
    exact h.before x hx j (by simp)
  · intro x hx
    rcases List.mem_append.1 hx with hx | hx
    · exact h.subset x hx
    · rw [List.mem_singleton.1 hx]
      exact h.queued (instances_mem (by simp))
  · intro x hx k hk
    have hjk : Before j k := by
      rcases mem_insertByDue.1 hk with rfl | hk
      · exact hnext
      · exact List.rel_of_pairwise_cons h.ready.increasing hk
    rcases List.mem_append.1 hx with hx | hx
    · exact (h.before x hx j (by simp)).trans hjk
    · rw [List.mem_singleton.1 hx]
      exact hjk
  · intro x hx
    rcases h.rest x hx with hd | ⟨k, hk, n, rfl⟩
    · exact Or.inl (List.mem_append_left _ hd)
    rcases List.mem_cons.1 hk with rfl | hk
    · -- the head itself is delivered now, its later instances stay outstanding
      cases n with
      | zero => exact Or.inl (by simp)
      | succ n =>
        refine Or.inr ⟨k.advance 1, by simp, n, ?_⟩
        rw [Job.advance_advance, Nat.add_comm]
    · exact Or.inr ⟨k, by simp [hk], n, rfl⟩

/-- A dispatch changes neither the names nor the periods of the queued jobs. -/
theorem deliver_perm (q : List (Job ι τ)) (n : ℕ) :
    ((deliver q n).2.map fun j => (j.id, j.period)).Perm (q.map fun j => (j.id, j.period)) := by
  induction n with
  | zero => exact List.Perm.refl _
  | succ n ih =>
    cases hr : (deliver q n).2 with
    | nil => simpa [deliver, hr, dispatch] using ih
    | cons j r =>
      rw [deliver_succ hr]
      rw [hr] at ih
      exact ((insertByDue_perm _ r).map _).trans ih

theorem deliver_length (q : List (Job ι τ)) (n : ℕ) : (deliver q n).2.length = q.length := by
  simpa using (deliver_perm q n).length_eq

theorem deliver_delivered {q : List (Job ι τ)} (h : Ready q) (n : ℕ) :
    Delivered q (deliver q n).1 (deliver q n).2 := by
  induction n with
  | zero => exact Delivered.init h
  | succ n ih =>
    cases hr : (deliver q n).2 with
    | nil => simpa [deliver, hr, dispatch] using ih
    | cons j r =>
      rw [deliver_succ hr]
      rw [hr] at ih
      exact ih.step

theorem deliver_fst_length {q : List (Job ι τ)} (hq : q ≠ []) (n : ℕ) :
    (deliver q n).1.length = n := by
  induction n with
  | zero => rfl
  | succ n ih =>
    cases hr : (deliver q n).2 with
    | nil =>
      have := deliver_length q n
      rw [hr, List.length_nil] at this
      exact absurd (List.length_eq_zero_iff.1 this.symm) hq
    | cons j r => rw [deliver_succ hr, List.length_append, ih]; rfl

/-- **The deliveries are the first instances in order**: none is lost, doubled, early or late. -/
theorem deliver_enumerates {q : List (Job ι τ)} (h : Ready q) (n : ℕ) :
    Enumerates Before (instances q) (deliver q n).1 := by
  have hd := deliver_delivered h n
  refine ⟨hd.increasing, hd.subset, fun s hs hsd a ha => ?_⟩
  rcases hd.rest s hs with hs | ⟨j, hj, k, rfl⟩
  · exact absurd hs hsd
  · have haj := hd.before a ha j hj
    cases k with
    | zero => simpa using haj
    | succ k =>
      have hpos := hd.ready.positive j hj
      exact haj.trans (by simpa using before_advance hpos (Nat.succ_pos k))

/-- **The window**: once `j` has been delivered, every queued job is due between its time and one
period of its own later. -/
theorem Ready.window {j : Job ι τ} {r : List (Job ι τ)} (h : Ready (j :: r)) :
    ∀ k ∈ insertByDue (j.advance 1) r, j.due ≤ k.due ∧ k.due ≤ j.due + k.period := by
  intro k hk
  rcases mem_insertByDue.1 hk with rfl | hk
  · have hpos : 0 < j.period := h.positive j (by simp)
    simpa using hpos.le
  · have hprev := (h.prev_before k (List.mem_cons_of_mem j hk) j (by simp)).due_le
    exact ⟨(List.rel_of_pairwise_cons h.increasing hk : Before j k).due_le,
      by simpa [sub_le_iff_le_add] using hprev⟩

/-! ## Fair shares -/

/-- How often the job with the name `i` is among the delivered ones. -/
def deliveries (i : ι) (d : List (Job ι τ)) : ℕ := d.countP fun j => decide (j.id = i)

theorem deliveries_append_singleton (i : ι) (d : List (Job ι τ)) (j : Job ι τ) :
    deliveries i (d ++ [j]) = deliveries i d + if j.id = i then 1 else 0 := by
  unfold deliveries
  rw [List.countP_append, List.countP_singleton]
  simp only [decide_eq_true_eq]

/-- The deliveries of a job were its first instances, and the next one is in the queue. -/
structure Counted (j : Job ι τ) (d r : List (Job ι τ)) : Prop where
  delivered : ∀ k < deliveries j.id d, j.advance k ∈ d
  queued : j.advance (deliveries j.id d) ∈ r

theorem Counted.init {j : Job ι τ} {q : List (Job ι τ)} (hj : j ∈ q) : Counted j [] q :=
  ⟨fun k hk => absurd hk (Nat.not_lt_zero k), by simpa [deliveries] using hj⟩

/-- **One dispatch keeps the count**, where different jobs have different names. -/
theorem Counted.step {j h : Job ι τ} {d r : List (Job ι τ)} (hc : Counted j d (h :: r))
    (hnames : ((h :: r).map Job.id).Nodup) :
    Counted j (d ++ [h]) (insertByDue (h.advance 1) r) := by
  rw [List.map_cons, List.nodup_cons] at hnames
  have hcount := deliveries_append_singleton j.id d h
  by_cases hid : h.id = j.id
  · have hhead : j.advance (deliveries j.id d) = h := by
      rcases List.mem_cons.1 hc.queued with heq | hmem
      · exact heq
      · refine absurd (List.mem_map_of_mem (f := Job.id) hmem) ?_
        rw [Job.advance_id, ← hid]
        exact hnames.1
    rw [if_pos hid] at hcount
    constructor
    · intro k hk
      rw [hcount] at hk
      rcases Nat.lt_succ_iff_lt_or_eq.1 hk with hlt | rfl
      · exact List.mem_append_left _ (hc.delivered k hlt)
      · rw [hhead]
        exact List.mem_append_right _ (List.mem_singleton_self h)
    · rw [hcount, ← Job.advance_advance, hhead, mem_insertByDue]
      exact Or.inl rfl
  · rw [if_neg hid, Nat.add_zero] at hcount
    constructor
    · intro k hk
      rw [hcount] at hk
      exact List.mem_append_left _ (hc.delivered k hk)
    · rw [hcount, mem_insertByDue]
      rcases List.mem_cons.1 hc.queued with heq | hmem
      · refine absurd ?_ hid
        rw [← heq, Job.advance_id]
      · exact Or.inr hmem

theorem deliver_names (q : List (Job ι τ)) (n : ℕ) :
    ((deliver q n).2.map Job.id).Perm (q.map Job.id) := by
  have h := (deliver_perm q n).map Prod.fst
  simpa only [List.map_map, Function.comp_def] using h

theorem deliver_counted {q : List (Job ι τ)} (hnames : (q.map Job.id).Nodup) {j : Job ι τ}
    (hj : j ∈ q) (n : ℕ) : Counted j (deliver q n).1 (deliver q n).2 := by
  induction n with
  | zero => exact Counted.init hj
  | succ n ih =>
    cases hr : (deliver q n).2 with
    | nil => simpa [deliver, hr, dispatch] using ih
    | cons h r =>
      have hperm := deliver_names q n
      rw [hr] at ih hperm
      rw [deliver_succ hr]
      exact ih.step (hperm.nodup_iff.2 hnames)

/-- As many periods of `a` as it has been delivered, less the first one, do not go beyond the next
instance of `b`. -/
theorem Ready.deliveries_le {q : List (Job ι τ)} (h : Ready q) (hnames : (q.map Job.id).Nodup)
    {a b : Job ι τ} (ha : a ∈ q) (hb : b ∈ q) (n : ℕ) (hn : deliveries a.id (deliver q n).1 ≠ 0) :
    a.due + (deliveries a.id (deliver q n).1 - 1) • a.period ≤
      b.due + deliveries b.id (deliver q n).1 • b.period := by
  have hca := deliver_counted hnames ha n
  have hcb := deliver_counted hnames hb n
  have hlast := hca.delivered (deliveries a.id (deliver q n).1 - 1) (by omega)
  have hbefore := (deliver_delivered h n).before _ hlast _ hcb.queued
  simpa only [Job.advance_due] using hbefore.due_le

/-- **Fair shares.** In any number of dispatches from a `Ready` queue, the periods of one job, less
the first one, take no longer than those of another one and one more. -/
theorem Ready.fair_share {q : List (Job ι τ)} (h : Ready q) (hnames : (q.map Job.id).Nodup)
    {a b : Job ι τ} (ha : a ∈ q) (hb : b ∈ q) (n : ℕ) :
    (deliveries a.id (deliver q n).1 - 1) • a.period ≤
      (deliveries b.id (deliver q n).1 + 1) • b.period := by
  by_cases hzero : deliveries a.id (deliver q n).1 = 0
  · rw [hzero, Nat.zero_sub, zero_nsmul]
    exact nsmul_nonneg (h.positive b hb).le _
  · have hle := h.deliveries_le hnames ha hb n hzero
    have hstart : b.due - b.period ≤ a.due := (h.prev_before b hb a ha).due_le
    rw [succ_nsmul]
    have hstart' : b.due ≤ a.due + b.period := sub_le_iff_le_add.1 hstart
    have hsum := hle.trans (add_le_add_left hstart' _)
    rw [add_assoc, add_comm b.period] at hsum
    exact le_of_add_le_add_left hsum

end PeriodicQueue
