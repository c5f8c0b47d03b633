import RevPiModbus.Lib.Backlog
import RevPiModbus.Lib.Hyperperiod

/-!
# When a queue of periodic jobs falls behind

* `Ready.due_le`: the jobs fall due at the mean period, however the queue orders them;
* `deliver_getElem?`: the jobs in the order of their delivery;
* `start_ge`: a server that is busy for `D` with each job;
* `lateness_ge`: if `D` is more than the mean period, it is later with every job.
-/

set_option linter.unusedSectionVars false

namespace PeriodicQueue

section Mean

variable {ι : Type*} [LinearOrder ι] {q : List (Job ι ℤ)}

/-- The rates of the jobs, times the time that has passed at the head of the queue. -/
theorem sum_rates_le {base due : ℤ} {c : Job ι ℤ → ℕ} (hpos : ∀ j ∈ q, 0 < j.period)
    (hdue : ∀ j ∈ q, due - base ≤ (c j + 1 : ℤ) * j.period) :
    ((due - base : ℤ) : ℚ) * (q.map fun j => 1 / (j.period : ℚ)).sum ≤
      (q.map c).sum + q.length := by
  induction q with
  | nil => simp
  | cons j q ih =>
    have hj : (0 : ℚ) < j.period := by exact_mod_cast hpos j List.mem_cons_self
    have hle : ((due - base : ℤ) : ℚ) ≤ (c j + 1) * j.period := by
      exact_mod_cast hdue j List.mem_cons_self
    have hone : ((due - base : ℤ) : ℚ) * (1 / j.period) ≤ c j + 1 := by
      rw [mul_one_div, div_le_iff₀ hj]
      exact hle
    have hrest := ih (fun k hk => hpos k (List.mem_cons_of_mem j hk))
      fun k hk => hdue k (List.mem_cons_of_mem j hk)
    simp only [List.map_cons, List.sum_cons, List.length_cons, mul_add]
    push_cast at hone hrest ⊢
    linarith

/-- **The jobs fall due at the mean period**: the next one after `n` dispatches is due at most `n`
mean periods, and one for each job, after the common start. -/
theorem Ready.due_le (h : Ready q) (hnames : (q.map Job.id).Nodup) {base : ℤ}
    (hbase : ∀ j ∈ q, j.prev.due = base) {n : ℕ} {x : Job ι ℤ} {r : List (Job ι ℤ)}
    (hx : (deliver q n).2 = x :: r) :
    ((x.due - base : ℤ) : ℚ) ≤ (n + q.length) * meanPeriod q := by
  have hne : q ≠ [] := by
    rintro rfl
    have hlength := deliver_length ([] : List (Job ι ℤ)) n
    rw [hx] at hlength
    exact absurd hlength (Nat.succ_ne_zero _)
  have hd := deliver_delivered h n
  -- the next instance of each job is still in the queue, behind the head
  have hdue : ∀ j ∈ q, x.due - base ≤ (deliveries j.id (deliver q n).1 + 1 : ℤ) * j.period := by
    intro j hj
    have hqueued := (deliver_counted hnames hj n).queued
    have hle : x.due ≤ (j.advance (deliveries j.id (deliver q n).1)).due := by
      rw [hx] at hqueued
      obtain heq | hmem := List.mem_cons.1 hqueued
      · rw [heq]
      · have hincreasing := hd.ready.increasing
        rw [hx] at hincreasing
        exact (List.rel_of_pairwise_cons hincreasing hmem).due_le
    have hstart := hbase j hj
    simp only [Job.advance_due, Job.prev_due, nsmul_eq_mul] at hle hstart
    linarith
  have hrates := sum_rates_le h.positive hdue
  rw [sum_deliveries hnames hd.subset, deliver_fst_length hne] at hrates
  rw [meanPeriod, mul_one_div, le_div_iff₀ (sum_rates_pos hne h.positive)]
  exact hrates

end Mean

/-- A delivered job was the head of the queue. -/
theorem deliver_getElem? {ι τ : Type*} [LinearOrder ι] [AddCommGroup τ] [LinearOrder τ]
    [IsOrderedAddMonoid τ] {q : List (Job ι τ)} (hq : q ≠ []) {k n : ℕ} (hk : k < n) :
    ∃ x r, (deliver q k).2 = x :: r ∧ (deliver q n).1[k]? = some x := by
  obtain ⟨m, rfl⟩ := Nat.exists_eq_add_of_lt hk
  cases hr : (deliver q k).2 with
  | nil =>
    have hlength := deliver_length q k
    rw [hr, List.length_nil] at hlength
    exact absurd (List.length_eq_zero_iff.1 hlength.symm) hq
  | cons x r =>
    refine ⟨x, r, rfl, ?_⟩
    have hlength := deliver_fst_length hq k
    rw [Nat.add_right_comm, deliver_add, deliver_succ hr, List.append_assoc,
      List.getElem?_append_right hlength.le, hlength, Nat.sub_self]
    rfl

section Lateness

variable {𝕜 : Type*} [Field 𝕜] [LinearOrder 𝕜] [IsStrictOrderedRing 𝕜]

/-- A server that is busy for `D` with each job. -/
theorem start_ge {S : ℕ → 𝕜} {D : 𝕜} {n : ℕ} (hstep : ∀ i, i + 1 < n → S i + D ≤ S (i + 1)) {k : ℕ}
    (hk : k < n) : S 0 + k * D ≤ S k := by
  induction k with
  | zero => simp
  | succ k ih =>
    have hle := (add_le_add_left (ih (by omega)) D).trans (hstep k hk)
    rw [Nat.cast_succ, add_mul, one_mul, ← add_assoc]
    exact hle

/-- **Growing lateness.** -/
theorem lateness_ge {T S : ℕ → 𝕜} {D M N b : 𝕜} {n : ℕ} (h0 : b ≤ S 0)
    (hstep : ∀ i, i + 1 < n → S i + D ≤ S (i + 1))
    (hdue : ∀ k, k < n → T k - b ≤ (k + N) * M) {k : ℕ} (hk : k < n) :
    T k + (k * (D - M) - N * M) ≤ S k := by
  have hstart := start_ge hstep hk
  have hle := hdue k hk
  linarith

end Lateness

end PeriodicQueue
