import RevPiModbus.PiModbusMaster

/-!
# What the mutex of the contexts guarantees

The threads of all generations share `mutex_modbus_context`, and a cancelled thread may die with it.
The exclusion does not depend on that; the way out of the lock does.

* `RegionInv`, `MutuallyExclusive`, `mutuallyExclusive_run`: at most one thread is between the lock
  and the unlock, whoever is cancelled and when;
* `MasterThread.GivesBack`: the holders that can still return the lock;
* `Released`, `released_of_givesBack`: the way of such a holder out of its region;
* `Doomed`, `Doomed.step`: the other holders keep the lock whatever happens;
* `lockAcquirable_iff`: a waiting thread can still get the lock exactly if its holder is one of the
  first kind.
-/

namespace RevPiModbus

open Transition

variable {s s' : DaemonState} {l : DaemonLabel} {thread : MasterThread}

/-! ## Exclusion -/

/-- A thread between the lock and the unlock holds the lock. -/
def RegionInv (s : DaemonState) : Prop := ∀ i, s.InRegion i → s.mutexModbusContext = some i

/-- No two threads are between the lock and the unlock. -/
def MutuallyExclusive (s : DaemonState) : Prop := ∀ i j, s.InRegion i → s.InRegion j → i = j

theorem RegionInv.mutuallyExclusive (h : RegionInv s) : MutuallyExclusive s := by
  intro i j hi hj
  have heq := (h i hi).symm.trans (h j hj)
  exact Option.some.inj heq

theorem inRegion_iff {i : ℕ} (hthread : s.threads[i]? = some thread) :
    s.InRegion i ↔ thread.point.inLock = true := by
  unfold DaemonState.InRegion
  rw [hthread]
  simp

/-- Unlike `LockInv`, this survives the death of the holder. -/
theorem RegionInv.step (h : RegionInv s) (hs : daemonStep s l = some s') : RegionInv s' := by
  intro j hj
  obtain ⟨hmain, -, hmutex⟩ | ⟨i, next, thread, thread', -, hthread, hadvance, hset⟩ |
    ⟨i, thread, -, hthread, -, -, hset, hmutex⟩ := daemonStep_cases hs
  · rw [hmutex]
    exact h j ((hmain.inRegion_iff j).mp hj)
  · obtain ⟨hpoint, hcases⟩ := MasterThread.advance_cases hadvance
    rw [inRegion_set hthread hset, hpoint] at hj
    by_cases hij : j = i
    · rw [if_pos hij] at hj
      obtain ⟨-, -, htaken, -⟩ | ⟨-, -, hout⟩ | ⟨hin, hmutex⟩ := hcases
      · rw [htaken, hij]
      · rw [hout] at hj
        cases hj
      · rw [hmutex, hij]
        exact h i ((inRegion_iff hthread).mpr (hin ▸ hj))
    · rw [if_neg hij] at hj
      have hheld := h j hj
      obtain ⟨-, hfree, -, -⟩ | ⟨hunlock, -, -⟩ | ⟨-, hmutex⟩ := hcases
      · rw [hfree] at hheld
        cases hheld
      · have hother := h i ((inRegion_iff hthread).mpr (by rw [hunlock]; rfl))
        exact absurd (Option.some.inj (hheld.symm.trans hother)) hij
      · rw [hmutex]
        exact hheld
  · rw [inRegion_set hthread hset] at hj
    rw [hmutex]
    by_cases hij : j = i
    · rw [if_pos hij] at hj
      cases hj
    · rw [if_neg hij] at hj
      exact h j hj

theorem regionInv_start : RegionInv .start := by
  intro i hi
  obtain ⟨thread, hthread, -⟩ := hi
  cases hthread

/-- **Exclusion.** In every run of the daemon, over any number of reset generations, with threads
that cannot be created and cancelled threads that die wherever they may, at most one thread at a
time is between `pthread_mutex_lock` and `pthread_mutex_unlock` of `processModbusAction`. -/
theorem mutuallyExclusive_run (labels : List DaemonLabel) :
    Throughout daemonStep MutuallyExclusive .start labels := by
  have hinv : Throughout daemonStep RegionInv .start labels :=
    throughout_of_invariant (fun _ _ _ h hs => h.step hs) regionInv_start labels
  exact hinv.imp fun _ h => h.mutuallyExclusive

/-! ## The way out of the lock -/

/-- A holder of the lock that can still return it: it is between the lock and the unlock, and if it
is cancelled, there is no cancellation point before the unlock any more. -/
def MasterThread.GivesBack (thread : MasterThread) : Prop :=
  thread.point.inLock = true ∧
    (thread.cancelled = true →
      thread.point = .transfer ∨ thread.point = .checkLen ∨ thread.point = .unlock)

instance (thread : MasterThread) : Decidable thread.GivesBack :=
  inferInstanceAs (Decidable (_ ∧ (_ → _)))

/-- The steps of the holder alone can lead to a state in which the lock is free. -/
def Released (s : DaemonState) (holder : ℕ) : Prop :=
  ∃ labels s', run daemonStep s labels = some s' ∧ s'.mutexModbusContext = none ∧
    ∀ j, j ≠ holder → s'.threads[j]? = s.threads[j]?

/-- The thread as it goes on to the next point. -/
def DaemonState.goOn (s : DaemonState) (i : ℕ) (thread : MasterThread) (next : ThreadPoint) :
    DaemonState :=
  { s with threads := s.threads.set i { thread with point := next } }

theorem goOn_thread {i : ℕ} (hthread : s.threads[i]? = some thread) (next : ThreadPoint) :
    (s.goOn i thread next).threads[i]? = some { thread with point := next } := by
  have hlt : i < s.threads.length := (List.getElem?_eq_some_iff.mp hthread).1
  exact List.getElem?_set_self hlt

theorem goOn_other {i j : ℕ} (hij : j ≠ i) (next : ThreadPoint) :
    (s.goOn i thread next).threads[j]? = s.threads[j]? :=
  List.getElem?_set_ne hij.symm

theorem advance_goOn {i : ℕ} {next : ThreadPoint} (hthread : s.threads[i]? = some thread)
    (hruns : (thread.cancelled && thread.point.isCancellationPoint) = false)
    (hnext : next ∈ thread.point.successors thread.eProtocol)
    (hlock : thread.point ≠ .lock) (hunlock : thread.point ≠ .unlock) :
    daemonStep s (.advance i next) = some (s.goOn i thread next) := by
  have hadvance : thread.advance i next s.mutexModbusContext =
      some ({ thread with point := next }, s.mutexModbusContext) := by
    unfold MasterThread.advance
    rw [hruns, if_neg Bool.false_ne_true, if_pos hnext]
    cases hpoint : thread.point with
    | lock => exact absurd hpoint hlock
    | unlock => exact absurd hpoint hunlock
    | _ => rfl
  simp only [daemonStep, hthread, hadvance]
  rfl

/-- One step of the holder towards the unlock. -/
theorem Released.of_goOn {i : ℕ} (next : ThreadPoint) (hthread : s.threads[i]? = some thread)
    (hruns : (thread.cancelled && thread.point.isCancellationPoint) = false)
    (hnext : next ∈ thread.point.successors thread.eProtocol)
    (hlock : thread.point ≠ .lock) (hunlock : thread.point ≠ .unlock)
    (h : Released (s.goOn i thread next) i) : Released s i := by
  obtain ⟨labels, s', hrun, hfree, hothers⟩ := h
  refine ⟨.advance i next :: labels, s', ?_, hfree, fun j hj => ?_⟩
  · simp only [run, advance_goOn hthread hruns hnext hlock hunlock, Option.bind_some]
    exact hrun
  · rw [hothers j hj, goOn_other hj]

theorem released_of_unlock {i : ℕ} (hthread : s.threads[i]? = some thread)
    (hpoint : thread.point = .unlock) : Released s i := by
  have hruns : (thread.cancelled && thread.point.isCancellationPoint) = false := by
    rw [hpoint]
    exact Bool.and_false _
  have hnext : ThreadPoint.evaluate ∈ thread.point.successors thread.eProtocol := by
    rw [hpoint]
    exact List.mem_singleton_self _
  have hadvance : thread.advance i .evaluate s.mutexModbusContext =
      some ({ thread with point := .evaluate }, none) := by
    unfold MasterThread.advance
    rw [hruns, if_neg Bool.false_ne_true, if_pos hnext, hpoint]
  refine ⟨[.advance i .evaluate],
    { s with threads := s.threads.set i { thread with point := .evaluate },
             mutexModbusContext := none }, ?_, rfl, fun j hj => ?_⟩
  · simp only [run, daemonStep, hthread, hadvance, Option.bind_some]
  · exact List.getElem?_set_ne hj.symm

theorem released_of_checkLen {i : ℕ} (hthread : s.threads[i]? = some thread)
    (hpoint : thread.point = .checkLen) : Released s i := by
  refine .of_goOn .unlock hthread ?_ ?_ ?_ ?_ (released_of_unlock (goOn_thread hthread .unlock) rfl)
  · rw [hpoint]
    exact Bool.and_false _
  · rw [hpoint]
    exact List.mem_singleton_self _
  · simp [hpoint]
  · simp [hpoint]

/-- From everywhere in the region there is a way to the unlock: the paths on which an access to the
process image fails or the request does. -/
theorem released_of_inLock {i : ℕ} (p : ThreadPoint) (hin : p.inLock = true) :
    ∀ {s : DaemonState} {thread : MasterThread}, s.threads[i]? = some thread →
      thread.point = p → thread.cancelled = false → Released s i := by
  -- all points but those of `syslog` lead to `checkLen` in at most two steps
  induction p with
  | syslog next ih =>
    intro s thread hthread hpoint hcancelled
    refine .of_goOn next hthread (by simp [hcancelled]) ?_ (by simp [hpoint])
      (by simp [hpoint]) (ih hin (goOn_thread hthread next) rfl hcancelled)
    rw [hpoint]
    exact List.mem_singleton_self _
  | unlock =>
    intro s thread hthread hpoint _
    exact released_of_unlock hthread hpoint
  | checkLen =>
    intro s thread hthread hpoint _
    exact released_of_checkLen hthread hpoint
  | switch =>
    intro s thread hthread hpoint hcancelled
    refine .of_goOn .modbusCall hthread (by simp [hcancelled]) ?_ (by simp [hpoint])
      (by simp [hpoint]) ?_
    · simp [hpoint, ThreadPoint.successors]
    · have hrequest := goOn_thread hthread .modbusCall
      refine .of_goOn .checkLen hrequest (by simp [hcancelled]) ?_ (by simp) (by simp)
        (released_of_checkLen (goOn_thread hrequest .checkLen) rfl)
      simp [ThreadPoint.successors]
  | modbusCall | transfer | errorSleep =>
    intro s thread hthread hpoint hcancelled
    refine .of_goOn .checkLen hthread (by simp [hcancelled]) ?_ (by simp [hpoint])
      (by simp [hpoint]) (released_of_checkLen (goOn_thread hthread .checkLen) rfl)
    simp [hpoint, ThreadPoint.successors]
  | _ => cases hin

theorem released_of_givesBack {i : ℕ} (hthread : s.threads[i]? = some thread)
    (h : thread.GivesBack) : Released s i := by
  obtain ⟨hin, hcancelled⟩ := h
  cases hpending : thread.cancelled with
  | false => exact released_of_inLock thread.point hin hthread rfl hpending
  | true =>
    obtain hpoint | hpoint | hpoint := hcancelled hpending
    · refine .of_goOn .checkLen hthread ?_ ?_ (by simp [hpoint]) (by simp [hpoint])
        (released_of_checkLen (goOn_thread hthread .checkLen) rfl)
      · rw [hpoint]
        exact Bool.and_false _
      · simp [hpoint, ThreadPoint.successors]
    · exact released_of_checkLen hthread hpoint
    · exact released_of_unlock hthread hpoint

/-! ## No way out -/

/-- The holder has died, or it is cancelled with a cancellation point before the unlock. -/
def MasterThread.Doomed (thread : MasterThread) : Prop :=
  thread.point = .ended ∨ thread.cancelled = true ∧
    (thread.point = .switch ∨ thread.point.inLock = true ∧
      thread.point.isCancellationPoint = true)

/-- The lock is held by such a thread. -/
def Doomed (holder : ℕ) (s : DaemonState) : Prop :=
  s.mutexModbusContext = some holder ∧
    ∃ thread, s.threads[holder]? = some thread ∧ thread.Doomed

/-- The points of the region: those from which a cancelled thread still unlocks, and the others. -/
theorem inLock_cases (p : ThreadPoint) (h : p.inLock = true) :
    (p = .transfer ∨ p = .checkLen ∨ p = .unlock) ∨
      (p = .switch ∨ p.isCancellationPoint = true) := by
  cases p <;> simp_all [ThreadPoint.inLock, ThreadPoint.isCancellationPoint]

/-- A cancelled thread before its request comes to a cancellation point at its next step. -/
theorem isCancellationPoint_of_switch {eProtocol : EModbusProtocol} :
    ∀ next ∈ ThreadPoint.switch.successors eProtocol,
      next.inLock = true ∧ next.isCancellationPoint = true := by
  cases eProtocol <;> decide

theorem MainStep.keepsThread {i : ℕ} (h : MainStep s s') (hthread : s.threads[i]? = some thread) :
    ∃ cancelled, s'.threads[i]? = some { thread with cancelled := cancelled } ∧
      (thread.cancelled = true → cancelled = true) := by
  cases h with
  | same h => exact ⟨thread.cancelled, by rw [h, hthread], id⟩
  | created eProtocol h =>
    refine ⟨thread.cancelled, ?_, id⟩
    have hlt : i < s.threads.length := (List.getElem?_eq_some_iff.mp hthread).1
    rw [h, List.getElem?_append_left hlt, hthread]
  | cancelled j h =>
    rw [h, List.getElem?_modify, hthread]
    by_cases hij : j = i
    · exact ⟨true, by simp [hij], fun _ => rfl⟩
    · exact ⟨thread.cancelled, by simp [hij], id⟩

/-- Such a holder never returns the lock, and so nobody else gets it. -/
theorem Doomed.step {holder : ℕ} (hregion : RegionInv s) (h : Doomed holder s)
    (hs : daemonStep s l = some s') : Doomed holder s' := by
  obtain ⟨hheld, thread, hthread, hdoomed⟩ := h
  obtain ⟨hmain, -, hmutex⟩ | ⟨i, next, mover, mover', -, hmover, hadvance, hset⟩ |
    ⟨i, mover, -, hmover, -, -, hset, hmutex⟩ := daemonStep_cases hs
  · obtain ⟨cancelled, hthread', hmono⟩ := hmain.keepsThread hthread
    refine ⟨hmutex.trans hheld, _, hthread', ?_⟩
    obtain hended | ⟨hcancelled, hpoint⟩ := hdoomed
    · exact .inl hended
    · exact .inr ⟨hmono hcancelled, hpoint⟩
  · by_cases hi : i = holder
    · subst hi
      obtain rfl : mover = thread := Option.some.inj (hmover.symm.trans hthread)
      rw [MasterThread.advance, Option.ite_none_left_eq_some, Option.ite_none_right_eq_some]
        at hadvance
      obtain ⟨hruns, hnext, hadvance⟩ := hadvance
      have hlt : i < s.threads.length := (List.getElem?_eq_some_iff.mp hthread).1
      obtain hended | ⟨hcancelled, hswitch | ⟨-, hpending⟩⟩ := hdoomed
      · rw [hended] at hnext
        cases hnext
      · rw [hswitch] at hnext hadvance
        simp only [Option.some.injEq, Prod.mk.injEq] at hadvance
        obtain ⟨rfl, hmutex⟩ := hadvance
        refine ⟨hmutex ▸ hheld, { mover with point := next }, ?_,
          .inr ⟨hcancelled, .inr (isCancellationPoint_of_switch next hnext)⟩⟩
        rw [hset]
        exact List.getElem?_set_self hlt
      · rw [hcancelled, hpending] at hruns
        exact absurd rfl hruns
    · obtain ⟨-, hcases⟩ := MasterThread.advance_cases hadvance
      refine ⟨?_, thread, ?_, hdoomed⟩
      · obtain ⟨-, hfree, -, -⟩ | ⟨hunlock, -, -⟩ | ⟨-, hmutex⟩ := hcases
        · rw [hheld] at hfree
          cases hfree
        · have hother := hregion i ((inRegion_iff hmover).mpr (by rw [hunlock]; rfl))
          exact absurd (Option.some.inj (hother.symm.trans hheld)) hi
        · rw [hmutex]
          exact hheld
      · rw [hset, List.getElem?_set_ne hi]
        exact hthread
  · refine ⟨hmutex.trans hheld, ?_⟩
    rw [hset]
    by_cases hi : i = holder
    · subst hi
      have hlt : i < s.threads.length := (List.getElem?_eq_some_iff.mp hthread).1
      exact ⟨_, List.getElem?_set_self hlt, .inl rfl⟩
    · refine ⟨thread, ?_, hdoomed⟩
      rw [List.getElem?_set_ne hi]
      exact hthread

/-- The lock is held only by threads that have taken it: the holder is between the lock and the
unlock, or has died there. -/
def HolderInv (s : DaemonState) : Prop :=
  ∀ i, s.mutexModbusContext = some i →
    ∃ thread, s.threads[i]? = some thread ∧ (thread.point.inLock = true ∨ thread.point = .ended)

theorem HolderInv.step (h : HolderInv s) (hs : daemonStep s l = some s') : HolderInv s' := by
  intro j hj
  obtain ⟨hmain, -, hmutex⟩ | ⟨i, next, mover, mover', -, hmover, hadvance, hset⟩ |
    ⟨i, mover, -, hmover, -, -, hset, hmutex⟩ := daemonStep_cases hs
  · obtain ⟨thread, hthread, hpoint⟩ := h j (hmutex.symm.trans hj)
    obtain ⟨cancelled, hthread', -⟩ := hmain.keepsThread hthread
    exact ⟨_, hthread', hpoint⟩
  · have hlt : i < s.threads.length := (List.getElem?_eq_some_iff.mp hmover).1
    obtain ⟨hpoint, ⟨-, -, htaken, hin⟩ | ⟨-, hreturned, -⟩ | ⟨hin, hmutex⟩⟩ :=
      MasterThread.advance_cases hadvance
    · obtain rfl : i = j := Option.some.inj (htaken.symm.trans hj)
      refine ⟨mover', ?_, .inl (hpoint ▸ hin)⟩
      rw [hset]
      exact List.getElem?_set_self hlt
    · rw [hreturned] at hj
      cases hj
    · obtain ⟨thread, hthread, hpoint'⟩ := h j (hmutex.symm.trans hj)
      by_cases hij : i = j
      · subst hij
        obtain rfl : mover = thread := Option.some.inj (hmover.symm.trans hthread)
        refine ⟨mover', by rw [hset]; exact List.getElem?_set_self hlt, ?_⟩
        obtain hin' | hended := hpoint'
        · exact .inl (hpoint ▸ hin ▸ hin')
        · rw [MasterThread.advance, Option.ite_none_left_eq_some,
            Option.ite_none_right_eq_some, hended] at hadvance
          cases hadvance.2.1
      · refine ⟨thread, ?_, hpoint'⟩
        rw [hset, List.getElem?_set_ne hij]
        exact hthread
  · obtain ⟨thread, hthread, hpoint⟩ := h j (hmutex.symm.trans hj)
    rw [hset]
    by_cases hij : i = j
    · subst hij
      have hlt : i < s.threads.length := (List.getElem?_eq_some_iff.mp hmover).1
      exact ⟨_, List.getElem?_set_self hlt, .inr rfl⟩
    · refine ⟨thread, ?_, hpoint⟩
      rw [List.getElem?_set_ne hij]
      exact hthread

theorem holderInv_start : HolderInv .start := by
  intro i hi
  cases hi

/-- Both invariants of the lock. -/
theorem lock_invariants {labels : List DaemonLabel} (hrun : run daemonStep .start labels = some s) :
    RegionInv s ∧ HolderInv s := by
  have hinv : Throughout daemonStep (fun s => RegionInv s ∧ HolderInv s) .start labels :=
    throughout_of_invariant (fun _ _ _ h hs => ⟨h.1.step hs, h.2.step hs⟩)
      ⟨regionInv_start, holderInv_start⟩ labels
  exact hinv.last hrun

/-- A holder either can return the lock or never will. -/
theorem givesBack_or_doomed (h : thread.point.inLock = true ∨ thread.point = .ended) :
    thread.GivesBack ∨ thread.Doomed := by
  obtain hin | hended := h
  · cases hcancelled : thread.cancelled with
    | false => exact .inl ⟨hin, by simp [hcancelled]⟩
    | true =>
      obtain hreturns | hswitch | hpending := inLock_cases _ hin
      · exact .inl ⟨hin, fun _ => hreturns⟩
      · exact .inr (.inr ⟨hcancelled, .inl hswitch⟩)
      · exact .inr (.inr ⟨hcancelled, .inr ⟨hin, hpending⟩⟩)
  · exact .inr (.inl hended)

/-- **When the lock is lost.** In every reachable state of the daemon, a thread that waits for the
lock can still get it exactly if the lock is free, or its holder is not cancelled, or is cancelled
behind its last cancellation point before the unlock. Otherwise no continuation, with whatever
resets and new generations, ever lets it in. -/
theorem lockAcquirable_iff {labels : List DaemonLabel} {s : DaemonState}
    (hrun : run daemonStep .start labels = some s) {i : ℕ} {thread : MasterThread}
    (hthread : s.threads[i]? = some thread) (hwaits : thread.point = .lock) :
    (∃ labels' s', run daemonStep s labels' = some s' ∧ s'.InRegion i) ↔
      ∀ holder, s.mutexModbusContext = some holder →
        ∃ thread, s.threads[holder]? = some thread ∧ thread.GivesBack := by
  obtain ⟨hregion, hholder⟩ := lock_invariants hrun
  constructor
  · rintro ⟨labels', s', hrun', hin⟩ holder hheld
    obtain ⟨other, hother, hpoint⟩ := hholder holder hheld
    obtain hreturns | hdoomed := givesBack_or_doomed hpoint
    · exact ⟨other, hother, hreturns⟩
    · have hne : i ≠ holder := by
        rintro rfl
        obtain rfl : other = thread := Option.some.inj (hother.symm.trans hthread)
        rw [hwaits] at hpoint
        obtain hlock | hended := hpoint
        · cases hlock
        · cases hended
      have hforever : Throughout daemonStep (fun s => RegionInv s ∧ Doomed holder s) s labels' :=
        throughout_of_invariant (fun _ _ _ h hs => ⟨h.1.step hs, h.2.step h.1 hs⟩)
          ⟨hregion, hheld, other, hother, hdoomed⟩ labels'
      obtain ⟨hregion', hheld', -⟩ := hforever.last hrun'
      exact absurd (Option.some.inj ((hregion' i hin).symm.trans hheld')) hne
  · intro h
    have hfree : ∃ labels' s', run daemonStep s labels' = some s' ∧
        s'.mutexModbusContext = none ∧ s'.threads[i]? = some thread := by
      cases hmutex : s.mutexModbusContext with
      | none => exact ⟨[], s, rfl, hmutex, hthread⟩
      | some holder =>
        obtain ⟨other, hother, hreturns⟩ := h holder hmutex
        have hne : i ≠ holder := by
          rintro rfl
          obtain rfl : other = thread := Option.some.inj (hother.symm.trans hthread)
          have hin := hreturns.1
          rw [hwaits] at hin
          cases hin
        obtain ⟨labels', s', hrun', hnone, hothers⟩ := released_of_givesBack hother hreturns
        exact ⟨labels', s', hrun', hnone, (hothers i hne).trans hthread⟩
    obtain ⟨labels', s', hrun', hnone, hthread'⟩ := hfree
    have hadvance : thread.advance i .switch none =
        some ({ thread with point := .switch }, some i) := by
      unfold MasterThread.advance
      rw [hwaits]
      simp [ThreadPoint.isCancellationPoint, ThreadPoint.successors]
    have hstep : daemonStep s' (.advance i .switch) = some { s' with
        threads := s'.threads.set i { thread with point := .switch },
        mutexModbusContext := some i } := by
      simp only [daemonStep, hthread', hnone, hadvance]
    have hlt : i < s'.threads.length := (List.getElem?_eq_some_iff.mp hthread').1
    have hrun'' : run daemonStep s (labels' ++ [.advance i .switch]) = some { s' with
        threads := s'.threads.set i { thread with point := .switch },
        mutexModbusContext := some i } := by
      rw [run_append, hrun', Option.bind_some, run, hstep]
      rfl
    exact ⟨_, _, hrun'', _, List.getElem?_set_self hlt, rfl⟩

/-- A TCP thread from its start to the lock. -/
def pathToLock (i : ℕ) : List DaemonLabel :=
  [.newContext, .setErrorRecovery, .connect, .initScheduler, .setTimeouts, .syslog .getNextEvent,
    .getNextEvent, .resetStatus, .triggerSleep, .setSlave, .lock].map fun next => .advance i next

/-- Two TCP masters: the first one is cancelled while it waits for the answer to its request, the
second one waits for the lock. -/
def resetWhileWaiting : List DaemonLabel :=
  [.parse [.protTCP, .protTCP], .create true, .create true] ++ pathToLock 0 ++
    [.advance 0 .switch, .advance 0 .modbusCall] ++ pathToLock 1 ++
    [.reset, .cancel, .actOnCancel 0]

/-- The second one waits for ever. -/
theorem lockAcquirable_iff_resetWhileWaiting :
    ∃ s, run daemonStep .start resetWhileWaiting = some s ∧
      ¬ ∃ labels' s', run daemonStep s labels' = some s' ∧ s'.InRegion 1 := by
  have hrun : run daemonStep .start resetWhileWaiting = some {
      main := .cancel [some 1], generation := 1, pThreads := [some 0, some 1],
      threads := [{ generation := 1, eProtocol := .protTCP, point := .ended, cancelled := true },
        { generation := 1, eProtocol := .protTCP, point := .lock, cancelled := false }],
      mutexModbusContext := some 0 } := by decide
  refine ⟨_, hrun, fun hacquired => ?_⟩
  obtain ⟨thread, hthread, hreturns⟩ := (lockAcquirable_iff hrun rfl rfl).mp hacquired 0 rfl
  cases hthread
  exact absurd hreturns (by decide)

end RevPiModbus
