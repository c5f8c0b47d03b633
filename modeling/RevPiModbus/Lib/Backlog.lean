import RevPiModbus.Lib.PeriodicQueue
import Mathlib.Algebra.Order.Field.Basic
import Mathlib.Algebra.Order.BigOperators.Group.List

/-!
# How far a queue of periodic jobs can fall behind

* `length_le_of_window`: how many instances of periodic jobs can be due in a window of time;
* `deliver_window`: the same for the jobs that a `Ready` queue delivers, with the mean period;
* `lateness_le`: a server that starts an instance no earlier than it is due, and within `M` of the
  start before it if it is behind, is never late by more than `(N - 1) · M`, provided the windows
  of due times hold no more instances than their length over `M` plus `N`.
-/

set_option linter.unusedSectionVars false

namespace PeriodicQueue

section Window

variable {ι τ : Type*} [LinearOrder ι] [AddCommGroup τ] [LinearOrder τ] [IsOrderedAddMonoid τ]

/-- Of two instances of one job the later one is due at least a period after the other. -/
theorem add_period_le_of_before {j : Job ι τ} (hj : 0 < j.period) {k n : ℕ}
    (h : Before (j.advance k) (j.advance n)) :
    (j.advance k).due + j.period ≤ (j.advance n).due := by
  have hlt : k • j.period < n • j.period := by
    rcases h with h | ⟨-, h | ⟨-, h⟩⟩
    · simpa using h
    · exact absurd h (lt_irrefl _)
    · exact absurd h (lt_irrefl _)
  have hkn : k + 1 ≤ n := by
    by_contra hnk
    exact absurd hlt (not_lt.2 (nsmul_le_nsmul_left hj.le (by omega)))
  have hle := nsmul_le_nsmul_left hj.le hkn
  rw [succ_nsmul] at hle
  simpa [add_assoc] using hle

/-- Times at least `p` apart in a window `[a, b]` span as many periods as there are gaps. -/
theorem nsmul_le_of_spaced {p a b : τ} {x : τ} {l : List τ}
    (hl : (x :: l).Pairwise fun y z => y + p ≤ z) (ha : ∀ y ∈ x :: l, a ≤ y)
    (hb : ∀ y ∈ x :: l, y ≤ b) : l.length • p ≤ b - a := by
  induction l generalizing x a with
  | nil =>
    simpa using (ha x (by simp)).trans (hb x (by simp))
  | cons y l ih =>
    have hle : ∀ z ∈ y :: l, a + p ≤ z := fun z hz =>
      (add_le_add_left (ha x (by simp)) p).trans (List.rel_of_pairwise_cons hl hz)
    have h := ih hl.of_cons hle fun z hz => hb z (List.mem_cons_of_mem x hz)
    rw [List.length_cons, succ_nsmul]
    have h' := add_le_add_left h p
    rwa [show b - (a + p) + p = b - a by abel] at h'

open Classical in
/-- **The number of instances in a window.** If at most `c j` periods of the job `j` fit between
`a` and `b`, then the instances of the jobs of `q` that are due in `[a, b]` are at most
`c j + 1` for each job. -/
theorem length_le_of_window {q l : List (Job ι τ)} (hpos : ∀ j ∈ q, 0 < j.period)
    (hl : l.Pairwise Before) (hsub : ∀ x ∈ l, x ∈ instances q) {a b : τ}
    (hab : ∀ x ∈ l, a ≤ x.due ∧ x.due ≤ b) {c : Job ι τ → ℕ}
    (hc : ∀ j ∈ q, ∀ n : ℕ, n • j.period ≤ b - a → n ≤ c j) :
    l.length ≤ (q.map fun j => c j + 1).sum := by
  -- each instance is counted for the job it belongs to
  have hsplit : ∀ m : List (Job ι τ), (∀ x ∈ m, x ∈ instances q) →
      m.length ≤ (q.map fun j => (m.filter fun x => ∃ k, x = j.advance k).length).sum := by
    intro m
    induction m with
    | nil => simp
    | cons x m ih =>
      intro hm
      obtain ⟨j, hj, hx⟩ := hm x (by simp)
      have hone : 1 ≤ (q.map fun j => if ∃ k, x = j.advance k then 1 else 0).sum :=
        List.le_sum_of_mem (List.mem_map.2 ⟨j, hj, if_pos hx⟩)
      have hadd : (q.map fun j => ((x :: m).filter fun x => ∃ k, x = j.advance k).length).sum =
          (q.map fun j => if ∃ k, x = j.advance k then 1 else 0).sum +
            (q.map fun j => (m.filter fun x => ∃ k, x = j.advance k).length).sum := by
        rw [← List.sum_map_add]
        congr 1
        refine List.map_congr_left fun j _ => ?_
        rw [List.filter_cons]
        by_cases h : ∃ k, x = j.advance k
        · simp only [h, decide_true, if_true, List.length_cons]
          exact Nat.add_comm _ _
        · simp only [h, decide_false, if_false, Bool.false_eq_true, Nat.zero_add]
      rw [hadd, List.length_cons, Nat.add_comm]
      exact Nat.add_le_add hone (ih fun y hy => hm y (List.mem_cons_of_mem x hy))
  refine (hsplit l hsub).trans (List.sum_le_sum fun j hj => ?_)
  -- the instances of one job are at least a period apart
  set f := l.filter fun x => ∃ k, x = j.advance k with hf
  have hmem : ∀ x ∈ f, x ∈ l ∧ ∃ k, x = j.advance k := fun x hx => by simpa [hf] using hx
  have hspaced : (f.map Job.due).Pairwise fun y z => y + j.period ≤ z := by
    rw [List.pairwise_map]
    refine (hl.filter _).imp_of_mem fun {x y} hx hy hxy => ?_
    obtain ⟨k, rfl⟩ := (hmem x hx).2
    obtain ⟨n, rfl⟩ := (hmem y hy).2
    exact add_period_le_of_before (hpos j hj) hxy
  cases hcase : f with
  | nil => simp
  | cons x f' =>
    rw [hcase, List.map_cons] at hspaced
    have hin : ∀ y ∈ x.due :: f'.map Job.due, a ≤ y ∧ y ≤ b := by
      intro y hy
      rw [← List.map_cons, List.mem_map] at hy
      obtain ⟨z, hz, rfl⟩ := hy
      exact hab z (hmem z (hcase ▸ hz)).1
    have h := nsmul_le_of_spaced hspaced (fun y hy => (hin y hy).1) fun y hy => (hin y hy).2
    rw [List.length_map] at h
    exact Nat.succ_le_succ (hc j hj _ h)

end Window

section Mean

variable {ι : Type*} [LinearOrder ι]

/-- The mean time between two instances of the jobs: the rates `1 / period` add up. -/
def meanPeriod (q : List (Job ι ℤ)) : ℚ := 1 / (q.map fun j => 1 / (j.period : ℚ)).sum

theorem sum_rates_pos {q : List (Job ι ℤ)} (hne : q ≠ []) (hpos : ∀ j ∈ q, 0 < j.period) :
    0 < (q.map fun j => 1 / (j.period : ℚ)).sum := by
  refine List.sum_pos _ (fun x hx => ?_) (by simpa using hne)
  obtain ⟨j, hj, rfl⟩ := List.mem_map.1 hx
  have : (0 : ℚ) < j.period := by exact_mod_cast hpos j hj
  positivity

/-- In a window of length `w ≥ 0` at most `w / meanPeriod q + q.length` instances are due. -/
theorem length_mul_meanPeriod_le {q l : List (Job ι ℤ)} (hne : q ≠ [])
    (hpos : ∀ j ∈ q, 0 < j.period) (hl : l.Pairwise Before) (hsub : ∀ x ∈ l, x ∈ instances q)
    {a b : ℤ} (hab : ∀ x ∈ l, a ≤ x.due ∧ x.due ≤ b) (hle : a ≤ b) :
    (l.length : ℚ) * meanPeriod q ≤ b - a + q.length * meanPeriod q := by
  have hrate := sum_rates_pos hne hpos
  have hcount := length_le_of_window hpos hl hsub hab (c := fun j => ((b - a) / j.period).toNat)
    fun j hj n hn => by
      have := Int.le_ediv_of_mul_le (hpos j hj) (by simpa using hn)
      omega
  have hsum : ((q.map fun j => ((b - a) / j.period).toNat + 1).sum : ℚ) ≤
      (b - a) * (q.map fun j => 1 / (j.period : ℚ)).sum + q.length := by
    clear hcount hrate hne hsub
    induction q with
    | nil => simp
    | cons j q ih =>
      have hj : (0 : ℚ) < j.period := by exact_mod_cast hpos j (by simp)
      have ih' := ih fun k hk => hpos k (List.mem_cons_of_mem j hk)
      have hdiv : ((((b - a) / j.period).toNat : ℕ) : ℚ) ≤ (b - a) * (1 / (j.period : ℚ)) := by
        have h0 : 0 ≤ (b - a) / j.period :=
          Int.ediv_nonneg (by omega) (hpos j (by simp)).le
        have hcast : ((((b - a) / j.period).toNat : ℕ) : ℚ) = (((b - a) / j.period : ℤ) : ℚ) := by
          rw [← Int.cast_natCast, Int.toNat_of_nonneg h0]
        rw [hcast, mul_one_div, le_div_iff₀ hj]
        exact_mod_cast Int.ediv_mul_le (b - a) (hpos j (by simp)).ne'
      simp only [List.map_cons, List.sum_cons, List.length_cons, Nat.cast_add, Nat.cast_one,
        mul_add]
      linarith
  have hlen : (l.length : ℚ) ≤ (b - a) * (q.map fun j => 1 / (j.period : ℚ)).sum + q.length :=
    le_trans (by exact_mod_cast hcount) hsum
  have hmean : 0 < meanPeriod q := one_div_pos.2 hrate
  calc (l.length : ℚ) * meanPeriod q
      ≤ ((b - a) * (q.map fun j => 1 / (j.period : ℚ)).sum + q.length) * meanPeriod q :=
        mul_le_mul_of_nonneg_right hlen hmean.le
    _ = b - a + q.length * meanPeriod q := by
        rw [add_mul, mul_assoc, meanPeriod, mul_one_div_cancel hrate.ne', mul_one]

/-- **The deliveries between the `i`-th and the `k`-th**, both included, take at least as long as
their number, less the number of jobs, times the mean period. -/
theorem deliver_window {q : List (Job ι ℤ)} (h : Ready q) (hne : q ≠ []) {m i k : ℕ} (hik : i ≤ k)
    (hk : k < (deliver q m).1.length) :
    (((k - i : ℕ) : ℚ) + 1) * meanPeriod q ≤
      (deliver q m).1[k].due - (deliver q m).1[i].due + q.length * meanPeriod q := by
  have hd := deliver_delivered h m
  set d := (deliver q m).1 with hdef
  have hmono : ∀ (x y : ℕ) (hy : y < d.length) (hxy : x ≤ y), d[x].due ≤ d[y].due := by
    intro x y hy hxy
    rcases Nat.eq_or_lt_of_le hxy with rfl | hlt
    · exact le_rfl
    · exact (List.pairwise_iff_getElem.1 hd.increasing x y (by omega) hy hlt).due_le
  have hlen : ((d.take (k + 1)).drop i).length = k - i + 1 := by
    rw [List.length_drop, List.length_take]
    omega
  have hsub : ((d.take (k + 1)).drop i).Sublist d :=
    (List.drop_sublist _ _).trans (List.take_sublist _ _)
  have hbound : ∀ x ∈ (d.take (k + 1)).drop i, d[i].due ≤ x.due ∧ x.due ≤ d[k].due := by
    intro x hx
    obtain ⟨n, hn, rfl⟩ := List.mem_iff_getElem.1 hx
    rw [hlen] at hn
    rw [List.getElem_drop, List.getElem_take]
    exact ⟨hmono i (i + n) (by omega) (by omega), hmono (i + n) k hk (by omega)⟩
  have hcount := length_mul_meanPeriod_le hne h.positive (hd.increasing.sublist hsub)
    (fun x hx => hd.subset x (hsub.subset hx)) hbound (hmono i k hk hik)
  rw [hlen] at hcount
  exact_mod_cast hcount

end Mean

section Lateness

variable {𝕜 : Type*} [Field 𝕜] [LinearOrder 𝕜] [IsStrictOrderedRing 𝕜]

/-- A server that is behind starts within `M` of its last start, so its start is within so many
`M` of an earlier due time. -/
theorem exists_start_le {T S : ℕ → 𝕜} {M : 𝕜} {n : ℕ} (h0 : S 0 ≤ T 0)
    (hstep : ∀ i, i + 1 < n → S (i + 1) ≤ max (T (i + 1)) (S i + M)) {k : ℕ} (hk : k < n) :
    ∃ j ≤ k, S k ≤ T j + ((k - j : ℕ) : 𝕜) * M := by
  induction k with
  | zero => exact ⟨0, le_rfl, by simpa using h0⟩
  | succ k ih =>
    rcases le_max_iff.1 (hstep k hk) with h | h
    · exact ⟨k + 1, le_rfl, by simpa using h⟩
    · obtain ⟨j, hj, hle⟩ := ih (by omega)
      refine ⟨j, by omega, h.trans ?_⟩
      rw [Nat.succ_sub hj, Nat.cast_succ, add_mul, one_mul, ← add_assoc]
      exact add_le_add_left hle M

/-- **Bounded lateness.** -/
theorem lateness_le {T S : ℕ → 𝕜} {M N : 𝕜} {n : ℕ} (h0 : S 0 ≤ T 0)
    (hstep : ∀ i, i + 1 < n → S (i + 1) ≤ max (T (i + 1)) (S i + M))
    (hcount : ∀ j k, j ≤ k → k < n → (((k - j : ℕ) : 𝕜) + 1) * M ≤ T k - T j + N * M)
    {k : ℕ} (hk : k < n) : S k ≤ T k + (N - 1) * M := by
  obtain ⟨j, hj, hle⟩ := exists_start_le h0 hstep hk
  have hc := hcount j k hj hk
  linarith

end Lateness

end PeriodicQueue
