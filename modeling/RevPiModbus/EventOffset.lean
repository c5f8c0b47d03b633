import RevPiModbus.MasterTiming

/-!
# The minimal event offset on targets of different word size

`get_minimal_modbus_event_offset` recomposes the interval of an event from `time_t` and `long`
before it converts it to `uint64_t`. `wordBits` is the width of these two types; a signed integer
expression whose value does not fit its type has no value. The `double` arithmetic is exact
rational arithmetic, as in `getMinimalModbusEventOffset`.

* `intervalExpr`, `getMinimalModbusEventOffsetChecked`: the function with the widths of its
  expressions;
* `intervalExpr_eq_some_iff`: the interval of an action is computed if it fits the word;
* `eventOffset_exact_iff`: the offset is exact with words of 64 bits, and with words of 32 bits if
  and only if every interval is below 2³¹ ns.
-/

namespace RevPiModbus

open PeriodicQueue Timespec

/-- The value of a signed integer expression of so many bits. -/
def signedExpr (bits : ℕ) (z : ℤ) : Option ℤ :=
  if -2 ^ (bits - 1) ≤ z ∧ z < 2 ^ (bits - 1) then some z else none

/-- `uint64_t interval = tv_nsec + tv_sec * s32_nanoseconds_per_second`. -/
def intervalExpr (wordBits : ℕ) (intervalTime : Timespec) : Option ℤ := do
  let product ← signedExpr wordBits (intervalTime.tvSec * s32NanosecondsPerSecond)
  let interval ← signedExpr wordBits (intervalTime.tvNsec + product)
  return interval % 2 ^ 64

/-- The loop of `get_minimal_modbus_event_offset` over the events: the sum of the reciprocals. -/
def inverseMeanTime (wordBits : ℕ) (eventList : List SchedulerEvent) : Option ℚ :=
  eventList.foldlM (fun inverse pEvent => do
    let interval ← intervalExpr wordBits pEvent.intervalTime
    return inverse + 1 / (interval : ℚ)) 0

/-- `get_minimal_modbus_event_offset` on a target with words of `wordBits` bits; `none` if one of
its signed expressions overflows. -/
def getMinimalModbusEventOffsetChecked (wordBits : ℕ) (eventList : List SchedulerEvent) :
    Option Timespec := do
  let inverseMeanTimeBetweenEvents ← inverseMeanTime wordBits eventList
  let s64MeanTimeBetweenEvents ← signedExpr 64 ⌊1 / inverseMeanTimeBetweenEvents⌋
  return {
    tvSec := toInt32 ((s64MeanTimeBetweenEvents >>> (2 : ℕ)).tdiv s32NanosecondsPerSecond)
    tvNsec := toInt32 ((s64MeanTimeBetweenEvents >>> (2 : ℕ)).tmod s32NanosecondsPerSecond) }

/-! ## One interval -/

theorem signedExpr_of_fits {bits : ℕ} {z : ℤ} (h0 : 0 ≤ z) (h : z < 2 ^ (bits - 1)) :
    signedExpr bits z = some z := by
  have hpow : (0 : ℤ) < 2 ^ (bits - 1) := by positivity
  rw [signedExpr, if_pos ⟨by omega, h⟩]

theorem signedExpr_eq_none {bits : ℕ} {z : ℤ} (h : 2 ^ (bits - 1) ≤ z) :
    signedExpr bits z = none := by
  rw [signedExpr, if_neg]
  omega

/-- A word of at most 64 bits holds the interval of an action, or an expression overflows. -/
theorem intervalExpr_eq {wordBits : ℕ} (hword : wordBits ≤ 64) (a : TModbusAction) :
    intervalExpr wordBits a.intervalTime =
      if a.intervalTime.toNs < 2 ^ (wordBits - 1) then some a.intervalTime.toNs else none := by
  have hn := intervalTime_normalised a
  have hsec := (intervalTime_tvSec a).1
  have h64 : (2 : ℤ) ^ (wordBits - 1) ≤ 2 ^ 63 := pow_le_pow_right₀ (by norm_num) (by omega)
  simp only [Normalised, s32NanosecondsPerSecond] at hn
  have hns : a.intervalTime.toNs = a.intervalTime.tvNsec + a.intervalTime.tvSec * 1000000000 := by
    rw [toNs, s32NanosecondsPerSecond, add_comm]
  rw [hns]
  simp only [intervalExpr, s32NanosecondsPerSecond]
  split_ifs with h
  · rw [signedExpr_of_fits (by omega) (by omega), Option.bind_eq_bind, Option.bind_some,
      signedExpr_of_fits (by omega) (by omega)]
    simp only [Option.bind_some, Option.pure_def, Option.some.injEq]
    omega
  · by_cases hp : a.intervalTime.tvSec * 1000000000 < 2 ^ (wordBits - 1)
    · rw [signedExpr_of_fits (by omega) hp, Option.bind_eq_bind, Option.bind_some,
        signedExpr_eq_none (by omega)]
      rfl
    · rw [signedExpr_eq_none (by omega)]
      rfl

/-! ## The list -/

section Offset

variable {wordBits : ℕ} {events : List SchedulerEvent}

/-- One pass of the loop of `mean_time_between_events`. -/
def addReciprocal (wordBits : ℕ) (inverse : ℚ) (pEvent : SchedulerEvent) : Option ℚ := do
  let interval ← intervalExpr wordBits pEvent.intervalTime
  return inverse + 1 / (interval : ℚ)

/-- If every interval has a value, the loop adds the reciprocals. -/
theorem foldlM_addReciprocal (x : ℚ)
    (h : ∀ e ∈ events, intervalExpr wordBits e.intervalTime = some e.intervalTime.toNs) :
    events.foldlM (addReciprocal wordBits) x =
      some (x + (events.map fun e => 1 / (e.intervalTime.toNs : ℚ)).sum) := by
  induction events generalizing x with
  | nil => simp
  | cons e events ih =>
    rw [List.forall_mem_cons] at h
    have hpass : addReciprocal wordBits x e = some (x + 1 / (e.intervalTime.toNs : ℚ)) := by
      rw [addReciprocal, h.1]
      rfl
    rw [List.foldlM_cons, hpass, Option.bind_eq_bind, Option.bind_some, ih _ h.2, List.map_cons,
      List.sum_cons, add_assoc]

/-- An interval without a value leaves the loop without a value. -/
theorem foldlM_addReciprocal_none (x : ℚ) {e : SchedulerEvent} (he : e ∈ events)
    (h : intervalExpr wordBits e.intervalTime = none) :
    events.foldlM (addReciprocal wordBits) x = none := by
  induction events generalizing x with
  | nil => cases he
  | cons p events ih =>
    rw [List.foldlM_cons]
    cases hp : addReciprocal wordBits x p with
    | none => rfl
    | some y =>
      rcases List.mem_cons.1 he with rfl | he
      · rw [addReciprocal, h] at hp
        cases hp
      · exact ih y he

theorem inverseMeanTime_eq
    (h : ∀ e ∈ events, intervalExpr wordBits e.intervalTime = some e.intervalTime.toNs) :
    inverseMeanTime wordBits events =
      some (events.map fun e => 1 / (e.intervalTime.toNs : ℚ)).sum := by
  rw [← zero_add (events.map fun e => 1 / (e.intervalTime.toNs : ℚ)).sum]
  exact foldlM_addReciprocal 0 h

theorem inverseMeanTime_eq_none {e : SchedulerEvent} (he : e ∈ events)
    (h : intervalExpr wordBits e.intervalTime = none) :
    inverseMeanTime wordBits events = none :=
  foldlM_addReciprocal_none 0 he h

/-- The mean time is no longer than any of the intervals. -/
theorem meanTimeBetweenEvents_le (hpos : ∀ e ∈ events, 0 < e.intervalTime.toNs)
    {e : SchedulerEvent} (he : e ∈ events) :
    0 ≤ meanTimeBetweenEvents events ∧ meanTimeBetweenEvents events ≤ e.intervalTime.toNs := by
  have hrates : ∀ x ∈ (events.map SchedulerEvent.job).map (fun j => 1 / (j.period : ℚ)), 0 ≤ x := by
    intro x hx
    simp only [List.map_map, List.mem_map, Function.comp_apply, SchedulerEvent.job] at hx
    obtain ⟨p, hp, rfl⟩ := hx
    have : (0 : ℚ) < p.intervalTime.toNs := by exact_mod_cast hpos p hp
    positivity
  have he' : (0 : ℚ) < e.intervalTime.toNs := by exact_mod_cast hpos e he
  have hmem : 1 / (e.intervalTime.toNs : ℚ) ∈
      (events.map SchedulerEvent.job).map (fun j => 1 / (j.period : ℚ)) :=
    List.mem_map.2 ⟨e.job, List.mem_map_of_mem he, rfl⟩
  have hsum := List.single_le_sum hrates _ hmem
  rw [meanTimeBetweenEvents_eq, meanPeriod]
  refine ⟨one_div_nonneg.2 (List.sum_nonneg hrates), ?_⟩
  rw [one_div_le (lt_of_lt_of_le (by positivity) hsum) he']
  exact hsum

/-- With every interval in the word no other expression overflows: the function computes what it
does without bounds. -/
theorem getMinimalModbusEventOffsetChecked_eq
    (hpos : ∀ e ∈ events, 0 < e.intervalTime.toNs)
    (h : ∀ e ∈ events, intervalExpr wordBits e.intervalTime = some e.intervalTime.toNs)
    {e : SchedulerEvent} (he : e ∈ events) (hmax : e.intervalTime.toNs ≤ 1800000000000) :
    getMinimalModbusEventOffsetChecked wordBits events =
      some (ofNs (⌊meanTimeBetweenEvents events⌋ / 4)) := by
  have hinverse : 1 / (events.map fun e => 1 / (e.intervalTime.toNs : ℚ)).sum =
      meanTimeBetweenEvents events := by
    rw [meanTimeBetweenEvents_eq, meanPeriod, List.map_map]
    rfl
  obtain ⟨h0, hle⟩ := meanTimeBetweenEvents_le hpos he
  have hfloor0 : 0 ≤ ⌊meanTimeBetweenEvents events⌋ := Int.floor_nonneg.2 h0
  have hfloor : ⌊meanTimeBetweenEvents events⌋ ≤ 1800000000000 := by
    have := (Int.floor_le (meanTimeBetweenEvents events)).trans hle
    have : ⌊meanTimeBetweenEvents events⌋ ≤ e.intervalTime.toNs := by exact_mod_cast this
    omega
  have hshift : ⌊meanTimeBetweenEvents events⌋ >>> (2 : ℕ) = ⌊meanTimeBetweenEvents events⌋ / 4 :=
    Int.shiftRight_eq_div_pow _ _
  have hquarter : 0 ≤ ⌊meanTimeBetweenEvents events⌋ / 4 := by omega
  rw [getMinimalModbusEventOffsetChecked, inverseMeanTime_eq h, Option.bind_eq_bind,
    Option.bind_some, hinverse, signedExpr_of_fits hfloor0 (by norm_num; omega)]
  simp only [Option.bind_eq_bind, Option.bind_some, Option.pure_def, Option.some.injEq, hshift,
    Int.tdiv_eq_ediv_of_nonneg hquarter, Int.tmod_eq_emod_of_nonneg hquarter, ofNs,
    s32NanosecondsPerSecond]
  rw [toInt32_of_fits (by omega), toInt32_of_fits (by omega)]

end Offset

section Exact

variable {wordBits : ℕ} {malloc : ℕ → Bool} {now : Timespec} {actions : List TModbusAction}
  {q₀ : List SchedulerEvent}

/-- Each action has its event, with its interval. -/
theorem exists_event_of_action (hnow : now.Normalised) (hpos : ∀ a ∈ actions, 0 < a.i32uIntervalUs)
    (hret : initScheduler malloc now actions = .ok (0, q₀)) {a : TModbusAction} (ha : a ∈ actions) :
    ∃ e ∈ q₀, e.intervalTime.toNs = a.i32uIntervalUs.toNat * 1000 ∧
      ∃ b : TModbusAction, e.intervalTime = b.intervalTime := by
  obtain ⟨-, hinv, hperm⟩ := initScheduler_refines hnow hpos hret
  have hmem : initialJob now (actions.idxOf a) a ∈ initialJobs now 0 actions :=
    List.mem_map.2 ⟨(a, actions.idxOf a), List.mem_zipIdx_iff_getElem?.2 (by simp [ha]), rfl⟩
  obtain ⟨e, he, hjob⟩ := List.mem_map.1 (hperm.mem_iff.2 hmem)
  obtain ⟨b, -, hb, -⟩ := hinv.exists_action hperm he
  refine ⟨e, he, ?_, b, hb⟩
  have := congrArg Job.period hjob
  rwa [SchedulerEvent.job, initialJob, intervalTime_toNs] at this

/-- The interval of each event has a value, if the word is wide enough for its action. -/
theorem intervalExpr_of_fits (hword : wordBits = 32 ∨ wordBits = 64) {a : TModbusAction}
    (hmax : a.i32uIntervalUs.toNat ≤ 1800000000)
    (h : wordBits = 64 ∨ a.i32uIntervalUs.toNat * 1000 < 2 ^ 31) :
    intervalExpr wordBits a.intervalTime = some a.intervalTime.toNs := by
  rw [intervalExpr_eq (by omega), intervalTime_toNs]
  refine if_pos ?_
  rcases hword with rfl | rfl
  · norm_num
    omega
  · norm_num
    omega

/-- **The offset is exact unless an interval overflows the word.** With the intervals that the
parser admits, `get_minimal_modbus_event_offset` returns the normalised time of a quarter of the
mean time, both cut to whole nanoseconds, and none of its integer expressions overflows, if and
only if words have 64 bits or every interval is shorter than 2³¹ ns. -/
theorem eventOffset_exact_iff {wordBits : ℕ} (hword : wordBits = 32 ∨ wordBits = 64)
    {malloc : ℕ → Bool} {now : Timespec} (hnow : now.Normalised) {actions : List TModbusAction}
    (hadmitted : ∀ a ∈ actions, 1000 ≤ a.i32uIntervalUs.toNat ∧
      a.i32uIntervalUs.toNat ≤ 1800000000)
    {q₀ : List SchedulerEvent} (hret : initScheduler malloc now actions = .ok (0, q₀)) :
    getMinimalModbusEventOffsetChecked wordBits q₀ = some (ofNs (⌊meanTime actions⌋ / 4)) ↔
      wordBits = 64 ∨ ∀ a ∈ actions, a.i32uIntervalUs.toNat * 1000 < 2 ^ 31 := by
  have hpos : ∀ a ∈ actions, 0 < a.i32uIntervalUs := fun a ha => by
    have := (hadmitted a ha).1
    exact UInt32.lt_iff_toNat_lt.2 (by simp only [UInt32.toNat_zero]; omega)
  constructor
  · intro h
    by_contra hlong
    push Not at hlong
    obtain ⟨h32, a, ha, hlong⟩ := hlong
    obtain rfl : wordBits = 32 := by omega
    -- the event of that action leaves the sum without a value
    obtain ⟨e, he, hns, b, hb⟩ := exists_event_of_action hnow hpos hret ha
    have hnone : intervalExpr 32 e.intervalTime = none := by
      rw [hb, intervalExpr_eq (by omega), if_neg]
      rw [← hb, hns]
      norm_num
      omega
    rw [getMinimalModbusEventOffsetChecked, inverseMeanTime_eq_none he hnone] at h
    cases h
  · intro h
    obtain ⟨hne, hinv, hperm⟩ := initScheduler_refines hnow hpos hret
    obtain ⟨e, he⟩ := List.exists_mem_of_ne_nil q₀ hne
    have hall : ∀ p ∈ q₀, 0 < p.intervalTime.toNs ∧ p.intervalTime.toNs ≤ 1800000000000 ∧
        intervalExpr wordBits p.intervalTime = some p.intervalTime.toNs := by
      intro p hp
      obtain ⟨a, ha, hpa, -⟩ := hinv.exists_action hperm hp
      have hbounds := hadmitted a ha
      rw [hpa, intervalExpr_of_fits hword hbounds.2 (h.imp_right fun h => h a ha),
        intervalTime_toNs]
      exact ⟨by omega, by omega, rfl⟩
    rw [getMinimalModbusEventOffsetChecked_eq (fun p hp => (hall p hp).1)
      (fun p hp => (hall p hp).2.2) he (hall e he).2.1, meanTimeBetweenEvents_eq,
      meanPeriod_eq_meanTime hperm]

end Exact

theorem eventOffset_exact_iff_two :
    getMinimalModbusEventOffsetChecked 32 twoEvents = some (ofNs (⌊meanTime twoActions⌋ / 4)) ↔
      32 = 64 ∨ ∀ a ∈ twoActions, a.i32uIntervalUs.toNat * 1000 < 2 ^ 31 :=
  @eventOffset_exact_iff 32 (Or.inl rfl) (fun _ => true) ⟨7, 999999999⟩ (by decide) _ (by decide)
    _ (by decide +kernel)

/-- One action every 3 s on a target with words of 32 bits. -/
theorem not_eventOffset_threeSeconds :
    ∃ q₀, initScheduler (fun _ => true) ⟨7, 0⟩
        [{ TModbusAction.zero with i32uIntervalUs := 3000000 }] = .ok (0, q₀) ∧
      getMinimalModbusEventOffsetChecked 32 q₀ = none :=
  ⟨[⟨⟨3, 0⟩, ⟨11, 0⟩, 0⟩], by decide +kernel, by decide +kernel⟩

end RevPiModbus
