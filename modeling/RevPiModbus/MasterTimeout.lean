import RevPiModbus.Schedule

/-!
# The timeout of a Modbus master

Both master threads give libmodbus half of the shortest interval as response and byte timeout:
`startRtuMasterThread` once, `startTcpMasterThread` after every connect, with the same lines of
code.

* `carriedNsec`, `halvedInterval`, `modbusTimeout`: the computation;
* `ComparedExactly`: one comparison of `get_minimal_modbus_action_interval`, without a loss in
  the `int32_t` that `timespec_diff` returns;
* `modbusTimeout_eq`: the timeout is half of the shortest interval, at least a microsecond.
-/

namespace RevPiModbus

open PeriodicQueue Timespec

/-- `struct timeval`. -/
structure Timeval where
  tvSec : ℤ
  tvUsec : ℤ
  deriving DecidableEq, Repr

/-- The time in microseconds. -/
def Timeval.toUs (t : Timeval) : ℤ := t.tvSec * s32MicrosecondsPerSecond + t.tvUsec

/-- `tv_min_interval.tv_nsec` in front of the division: an odd second is carried into it. -/
def carriedNsec (tvMinInterval : Timespec) : ℤ :=
  if tvMinInterval.tvSec.tmod 2 ≠ 0 then tvMinInterval.tvNsec + s32NanosecondsPerSecond
  else tvMinInterval.tvNsec

/-- `modbus_timeout` for the shortest interval. -/
def halvedInterval (tvMinInterval : Timespec) : Timeval :=
  let modbusTimeout : Timeval :=
    { tvSec := tvMinInterval.tvSec.tdiv 2
      tvUsec := ((carriedNsec tvMinInterval).tdiv 1000).tdiv 2 }
  if modbusTimeout.tvSec ≤ 0 ∧ modbusTimeout.tvUsec ≤ 0 then
    { modbusTimeout with tvUsec := 1 }
  else
    modbusTimeout

/-- `modbus_timeout`, as the master threads compute it from the event list. -/
def modbusTimeout (eventList : List SchedulerEvent) : Except Fault Timeval := do
  let tvMinInterval ← getMinimalModbusActionInterval eventList
  return halvedInterval tvMinInterval

/-! ## The halving -/

/-- The carry keeps the nanoseconds below two seconds, so they fit 32 bits. -/
theorem carriedNsec_bounds {t : Timespec} (ht : t.Normalised) :
    0 ≤ carriedNsec t ∧ carriedNsec t < 2 ^ 31 := by
  simp only [Normalised, s32NanosecondsPerSecond] at ht
  unfold carriedNsec s32NanosecondsPerSecond
  split_ifs <;> omega

/-- The halving of a normalised time in terms of its microseconds. -/
theorem halvedInterval_eq {t : Timespec} (hsec : 0 ≤ t.tvSec) (ht : t.Normalised) :
    (halvedInterval t).toUs = max 1 (t.toNs / 1000 / 2) ∧ 0 ≤ (halvedInterval t).tvSec ∧
      0 ≤ (halvedInterval t).tvUsec ∧ (halvedInterval t).tvUsec < 10 ^ 6 := by
  obtain ⟨s, n⟩ := t
  simp only [Normalised, s32NanosecondsPerSecond] at ht hsec
  have hcarry : carriedNsec ⟨s, n⟩ = n + s % 2 * s32NanosecondsPerSecond := by
    simp only [carriedNsec, s32NanosecondsPerSecond, Int.tmod_eq_emod_of_nonneg hsec]
    split_ifs with h <;> omega
  have hpos : 0 ≤ n + s % 2 * s32NanosecondsPerSecond := by
    simp only [s32NanosecondsPerSecond]
    omega
  have hsecs : s.tdiv 2 = s / 2 := Int.tdiv_eq_ediv_of_nonneg hsec
  have husecs : ((n + s % 2 * s32NanosecondsPerSecond).tdiv 1000).tdiv 2 =
      (n + s % 2 * s32NanosecondsPerSecond) / 1000 / 2 := by
    rw [Int.tdiv_eq_ediv_of_nonneg hpos,
      Int.tdiv_eq_ediv_of_nonneg (Int.ediv_nonneg hpos (by norm_num))]
  simp only [halvedInterval, hcarry, hsecs, husecs]
  simp only [s32NanosecondsPerSecond]
  split_ifs with h
  all_goals
    simp only [Timeval.toUs, toNs, s32NanosecondsPerSecond, s32MicrosecondsPerSecond]
    omega

/-! ## The comparisons -/

/-- The loop of `get_minimal_modbus_action_interval` compares the interval of `e` with the minimum
of the events in front of it by the sign of an `int32_t`: the assertions of `timespec_diff` hold,
no bit of the seconds is lost, and the sign orders the two times. -/
def ComparedExactly (before : List SchedulerEvent) (e : SchedulerEvent) : Prop :=
  ∃ minInterval diff ret, getMinimalModbusActionInterval before = .ok minInterval ∧
    timespecDiff e.intervalTime minInterval = .ok (diff, ret) ∧ ret = diff.tvSec ∧
    (ret < 0 ↔ e.intervalTime.toNs < minInterval.toNs)

/-- The running minimum is the start value or the interval of an action. -/
theorem getMinimalModbusActionInterval_bounds {events : List SchedulerEvent}
    (hint : ∀ e ∈ events, ∃ a : TModbusAction, e.intervalTime = a.intervalTime) :
    ∃ t, getMinimalModbusActionInterval events = .ok t ∧ t.Normalised ∧ 0 ≤ t.tvSec ∧
      t.tvSec < 2 ^ 31 := by
  rcases eq_or_ne events [] with rfl | hne
  · exact ⟨_, rfl, by decide⟩
  · obtain ⟨t, ht, ⟨e, he, rfl⟩, -⟩ := getMinimalModbusActionInterval_eq hne hint
    obtain ⟨a, ha⟩ := hint e he
    rw [ha] at ht
    have hsec := intervalTime_tvSec a
    exact ⟨_, ht, intervalTime_normalised a, hsec.1, by omega⟩

theorem comparedExactly_of_actions {before : List SchedulerEvent}
    (hint : ∀ e ∈ before, ∃ a : TModbusAction, e.intervalTime = a.intervalTime)
    {e : SchedulerEvent} {a : TModbusAction} (he : e.intervalTime = a.intervalTime) :
    ComparedExactly before e := by
  obtain ⟨t, ht, hn, h0, h1⟩ := getMinimalModbusActionInterval_bounds hint
  have ha := intervalTime_tvSec a
  obtain ⟨ret, hret, hsec, hneg⟩ := timespecDiff_eq (a := e.intervalTime) (b := t)
    (by rw [he]; exact intervalTime_normalised a) hn (by rw [he]; omega)
  exact ⟨t, _, ret, ht, hret, hsec, hneg⟩

/-! ## The timeout -/

/-- The intervals of the actions in microseconds. -/
def intervalsUs (actions : List TModbusAction) : Set ℕ :=
  {u | ∃ a ∈ actions, a.i32uIntervalUs.toNat = u}

/-- **The timeout is half of the shortest interval.** After `initScheduler` and any number of
calls of `getNextEvent` it is `max 1 ⌊min u / 2⌋` microseconds, normalised; the carry fits 32
bits, and every comparison on the way is exact. -/
theorem modbusTimeout_eq {malloc : ℕ → Bool} {now : Timespec} (hnow : now.Normalised)
    {actions : List TModbusAction} (hpos : ∀ a ∈ actions, 0 < a.i32uIntervalUs)
    {q₀ : List SchedulerEvent} (hret : initScheduler malloc now actions = .ok (0, q₀)) (m : ℕ) :
    ∃ delivered events minInterval timeout u,
      getNextEvents q₀ m = .ok (delivered, events) ∧
      getMinimalModbusActionInterval events = .ok minInterval ∧
      modbusTimeout events = .ok timeout ∧ IsLeast (intervalsUs actions) u ∧
      timeout.toUs = max 1 (u / 2 : ℕ) ∧ 0 ≤ timeout.tvSec ∧ 0 ≤ timeout.tvUsec ∧
      timeout.tvUsec < 10 ^ 6 ∧ carriedNsec minInterval < 2 ^ 31 ∧
      ∀ before e after, events = before ++ e :: after → ComparedExactly before e := by
  obtain ⟨hq, hinv, hperm⟩ := initScheduler_refines hnow hpos hret
  obtain ⟨r, hr, hn, hj⟩ := getNextEvents_refines hinv.normalised hq m
  have hcons := entries_of_deliver hperm hn hj
  have hint : ∀ e ∈ r, ∃ a : TModbusAction, e.intervalTime = a.intervalTime := fun e he => by
    obtain ⟨a, -, ha⟩ := exists_action_of_entries hcons he
    exact ⟨a, ha⟩
  obtain ⟨t, ht, ⟨e, he, hte⟩, hmin⟩ :=
    getMinimalModbusActionInterval_eq (ne_nil_of_deliver hq hj) hint
  obtain ⟨a, ha, hea⟩ := exists_action_of_entries hcons he
  have hta : t = a.intervalTime := hte.trans hea
  obtain ⟨htotal, hsec, h0, h1⟩ :=
    halvedInterval_eq (intervalTime_tvSec a).1 (intervalTime_normalised a)
  refine ⟨_, r, t, halvedInterval t, a.i32uIntervalUs.toNat, hr, ht, ?_, ⟨⟨a, ha, rfl⟩, ?_⟩, ?_,
    hta ▸ hsec, hta ▸ h0, hta ▸ h1, ?_, ?_⟩
  · rw [modbusTimeout, ht, ok_bind, except_pure]
  · -- every action has an event in the list
    rintro u ⟨b, hb, rfl⟩
    have hmem := (intervals_of_entries hcons).mem_iff.2 (List.mem_map_of_mem hb)
    obtain ⟨p, hp, hpb⟩ := List.mem_map.1 hmem
    have hle := hmin p hp
    rw [hta, hpb, intervalTime_toNs, intervalTime_toNs] at hle
    omega
  · rw [hta, htotal, intervalTime_toNs]
    omega
  · exact hta ▸ (carriedNsec_bounds (intervalTime_normalised a)).2
  · rintro before p after rfl
    obtain ⟨b, hb⟩ := hint p (by simp)
    exact comparedExactly_of_actions (fun x hx => hint x (by simp [hx])) hb

theorem modbusTimeout_eq_two :
    ∃ delivered events minInterval timeout u,
      getNextEvents twoEvents 5 = .ok (delivered, events) ∧
      getMinimalModbusActionInterval events = .ok minInterval ∧
      modbusTimeout events = .ok timeout ∧ IsLeast (intervalsUs twoActions) u ∧
      timeout.toUs = max 1 (u / 2 : ℕ) ∧ 0 ≤ timeout.tvSec ∧ 0 ≤ timeout.tvUsec ∧
      timeout.tvUsec < 10 ^ 6 ∧ carriedNsec minInterval < 2 ^ 31 ∧
      ∀ before e after, events = before ++ e :: after → ComparedExactly before e :=
  @modbusTimeout_eq (fun _ => true) ⟨7, 999999999⟩ (by decide) _ (by decide) _
    (by decide +kernel) 5

end RevPiModbus
