import RevPiModbus.Fault

/-!
# `struct timespec`

The two operations of `Scheduler.c` on times, with the assertions they make. `time_t` is taken
wide enough for every sum that occurs.

* `timespecAdd`, `timespecDiff`;
* `toNs`, the time in nanoseconds, and `ofNs`, the normalised time of so many nanoseconds;
* `timespecAdd_eq`: on normalised summands the assertions hold, and the sum is exact and normalised.
-/

namespace RevPiModbus

/-- `struct timespec`. -/
@[ext] structure Timespec where
  tvSec : ℤ
  tvNsec : ℤ
  deriving DecidableEq, Repr

/-- `s32_nanoseconds_per_second`. -/
abbrev s32NanosecondsPerSecond : ℤ := 1000000000

/-- `s32_microseconds_per_second`. -/
abbrev s32MicrosecondsPerSecond : ℕ := 1000000

/-- The conversion of an integer to `int32_t`. -/
def toInt32 (z : ℤ) : ℤ := z.bmod (2 ^ 32)

/-- `timespec_add`; `sum` may be one of the summands. -/
def timespecAdd (summand1 summand2 : Timespec) : Except Fault Timespec := do
  cAssert (summand1.tvNsec < s32NanosecondsPerSecond)
  cAssert (summand2.tvNsec < s32NanosecondsPerSecond)
  let tvNsec := summand1.tvNsec + summand2.tvNsec
  let tvSec := summand1.tvSec + summand2.tvSec
  if tvNsec ≥ s32NanosecondsPerSecond then
    return ⟨tvSec + 1, tvNsec - s32NanosecondsPerSecond⟩
  else
    return ⟨tvSec, tvNsec⟩

/-- `timespec_diff`: the difference, and the seconds of it as the returned `int32_t`. -/
def timespecDiff (minuend subtrahend : Timespec) : Except Fault (Timespec × ℤ) := do
  cAssert (minuend.tvNsec < s32NanosecondsPerSecond)
  cAssert (subtrahend.tvNsec < s32NanosecondsPerSecond)
  let diff : Timespec :=
    if subtrahend.tvNsec > minuend.tvNsec then
      ⟨minuend.tvSec - subtrahend.tvSec - 1,
        s32NanosecondsPerSecond - subtrahend.tvNsec + minuend.tvNsec⟩
    else
      ⟨minuend.tvSec - subtrahend.tvSec, minuend.tvNsec - subtrahend.tvNsec⟩
  return (diff, toInt32 diff.tvSec)

namespace Timespec

/-- The nanoseconds lie in `[0, 10⁹)`. -/
def Normalised (t : Timespec) : Prop := 0 ≤ t.tvNsec ∧ t.tvNsec < s32NanosecondsPerSecond

instance (t : Timespec) : Decidable t.Normalised := inferInstanceAs (Decidable (_ ∧ _))

/-- The time in nanoseconds. -/
def toNs (t : Timespec) : ℤ := t.tvSec * s32NanosecondsPerSecond + t.tvNsec

/-- The normalised time of `n` nanoseconds. -/
def ofNs (n : ℤ) : Timespec := ⟨n / s32NanosecondsPerSecond, n % s32NanosecondsPerSecond⟩

theorem ofNs_normalised (n : ℤ) : (ofNs n).Normalised := by
  simp only [Normalised, ofNs, s32NanosecondsPerSecond]
  omega

@[simp] theorem toNs_ofNs (n : ℤ) : (ofNs n).toNs = n := by
  simp only [toNs, ofNs, s32NanosecondsPerSecond]
  omega

/-- A normalised time is determined by its nanoseconds. -/
theorem Normalised.ofNs_toNs {t : Timespec} (h : t.Normalised) : ofNs t.toNs = t := by
  obtain ⟨s, n⟩ := t
  simp only [Normalised, s32NanosecondsPerSecond] at h
  simp only [toNs, ofNs, s32NanosecondsPerSecond, Timespec.mk.injEq]
  omega

/-- The order in which `insertEventByDueDate` compares two times. -/
def Earlier (a b : Timespec) : Prop := a.tvSec < b.tvSec ∨ a.tvSec = b.tvSec ∧ a.tvNsec < b.tvNsec

instance (a b : Timespec) : Decidable (a.Earlier b) := inferInstanceAs (Decidable (_ ∨ _))

theorem earlier_iff {a b : Timespec} (ha : a.Normalised) (hb : b.Normalised) :
    a.Earlier b ↔ a.toNs < b.toNs := by
  simp only [Normalised, s32NanosecondsPerSecond] at ha hb
  simp only [Earlier, toNs, s32NanosecondsPerSecond]
  omega

end Timespec

open Timespec

/-- **On normalised summands `timespec_add` passes its assertions and is exact.** -/
theorem timespecAdd_eq {a b : Timespec} (ha : a.Normalised) (hb : b.Normalised) :
    timespecAdd a b = .ok (ofNs (a.toNs + b.toNs)) := by
  obtain ⟨as, an⟩ := a
  obtain ⟨bs, bn⟩ := b
  simp only [Normalised, s32NanosecondsPerSecond] at ha hb
  simp only [timespecAdd, s32NanosecondsPerSecond, cAssert_of ha.2, cAssert_of hb.2, ok_bind,
    toNs, ofNs]
  split_ifs with h <;> simp only [except_pure, Except.ok.injEq, Timespec.mk.injEq] <;> omega

/-- An integer that fits `int32_t` is unchanged by the conversion. -/
theorem toInt32_of_fits {z : ℤ} (h : -2 ^ 31 ≤ z ∧ z < 2 ^ 31) : toInt32 z = z := by
  unfold toInt32
  rw [Int.bmod_eq_of_le] <;> omega

/-- `timespec_diff` passes its assertions on normalised times. As long as the seconds fit
`int32_t` the returned value is the seconds of the exact difference, and negative exactly if the
minuend is the smaller one. -/
theorem timespecDiff_eq {a b : Timespec} (ha : a.Normalised) (hb : b.Normalised)
    (hab : -2 ^ 31 ≤ a.tvSec - b.tvSec - 1 ∧ a.tvSec - b.tvSec < 2 ^ 31) :
    ∃ ret, timespecDiff a b = .ok (ofNs (a.toNs - b.toNs), ret) ∧
      ret = (ofNs (a.toNs - b.toNs)).tvSec ∧ (ret < 0 ↔ a.toNs < b.toNs) := by
  obtain ⟨as, an⟩ := a
  obtain ⟨bs, bn⟩ := b
  simp only [Normalised, s32NanosecondsPerSecond] at ha hb
  simp only [timespecDiff, s32NanosecondsPerSecond, cAssert_of ha.2, cAssert_of hb.2, ok_bind,
    except_pure, Except.ok.injEq, Prod.mk.injEq, existsAndEq, and_true, toNs, ofNs]
  simp only at hab
  split_ifs with h
  · refine ⟨by simp only [Timespec.mk.injEq]; omega, ?_⟩
    rw [toInt32_of_fits (by simp only; omega)]
    simp only
    omega
  · refine ⟨by simp only [Timespec.mk.injEq]; omega, ?_⟩
    rw [toInt32_of_fits (by simp only; omega)]
    simp only
    omega

end RevPiModbus
