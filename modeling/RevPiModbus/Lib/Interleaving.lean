import RevPiModbus.Lib.Transition

/-!
# Threads on a shared memory

A program is a tree of calls: it is done, or the process stops, or it makes a call and goes on with
the answer. Threads execute one program after the other, call by call and in any order, on a memory
that they share. If the calls of different threads concern different parts of the memory, each
thread does what it would do alone, with every program in one piece.

* `Program`, `Program.exec`: programs, and their execution in one piece;
* `Program.Within`, `Program.exec_agree`: programs that know only a part of the memory;
* `Program.Yields`: what all results of a program have in common;
* `Program.Computes`: programs that do in one piece what a function does;
* `System`, `Threads`, `interleavedStep`: several threads, call by call;
* `soloStep`, `soloRun`: one thread alone, and its share of an interleaved run;
* `System.Isolated`, `System.Isolated.run`: the threads do not notice one another.
-/

namespace Interleaving

open Transition

/-! ## Programs -/

/-- A program with calls `c` and their answers in `Answer c`. -/
inductive Program {Call : Type} (Answer : Call → Type) (α : Type) : Type
  | done (a : α)
  | stop
  | call (c : Call) (next : Answer c → Program Answer α)

variable {Call : Type} {Answer : Call → Type} {α β σ : Type}

namespace Program

/-- One program after the other. -/
def bind (f : α → Program Answer β) : Program Answer α → Program Answer β
  | done a => f a
  | stop => stop
  | call c next => call c fun answer => (next answer).bind f

instance : Monad (Program Answer) where
  pure := done
  bind p f := p.bind f

/-- A single call. -/
def ask (c : Call) : Program Answer (Answer c) := call c done

/-- Go on with a value, or stop at an error. -/
def ofExcept {ε : Type} : Except ε α → Program Answer α
  | .ok a => done a
  | .error _ => stop

/-- The execution of a program in one piece. -/
def exec (perform : (c : Call) → σ → Answer c × σ) : Program Answer α → σ → Option (α × σ)
  | done a, s => some (a, s)
  | stop, _ => none
  | call c next, s => (next (perform c s).1).exec perform (perform c s).2

/-- All calls that the program may make are in `P`. -/
def Within (P : Call → Prop) : Program Answer α → Prop
  | done _ => True
  | stop => True
  | call c next => P c ∧ ∀ answer, (next answer).Within P

/-- Every result of the program is in `Q`, whatever the answers are. -/
def Yields (Q : α → Prop) : Program Answer α → Prop
  | done a => Q a
  | stop => True
  | call _ next => ∀ answer, (next answer).Yields Q

/-- The process has stopped. -/
def isStop : Program Answer α → Bool
  | stop => true
  | _ => false

variable {perform : (c : Call) → σ → Answer c × σ} {P : Call → Prop} {p : Program Answer α}
  {f : α → Program Answer β}

@[simp] theorem exec_bind (p : Program Answer α) (f : α → Program Answer β) (s : σ) :
    (p >>= f).exec perform s = (p.exec perform s).bind fun r => (f r.1).exec perform r.2 := by
  show (p.bind f).exec perform s = _
  induction p generalizing s with
  | done a => rfl
  | stop => rfl
  | call c next ih => exact ih _ _

theorem Within.bind (hp : p.Within P) (hf : ∀ a, (f a).Within P) : (p >>= f).Within P := by
  show (p.bind f).Within P
  induction p with
  | done a => exact hf a
  | stop => trivial
  | call c next ih => exact ⟨hp.1, fun answer => ih answer (hp.2 answer)⟩

theorem Within.ask {c : Call} (h : P c) : (ask c : Program Answer _).Within P :=
  ⟨h, fun _ => trivial⟩

/-- What follows a value that may be missing. -/
theorem Within.ofExcept {ε : Type} {x : Except ε α} (h : ∀ a, x = .ok a → (f a).Within P) :
    (ofExcept x >>= f).Within P := by
  cases x with
  | error e => trivial
  | ok a => exact h a rfl

theorem yields_true (p : Program Answer α) : p.Yields fun _ => True := by
  induction p with
  | done a => trivial
  | stop => trivial
  | call c next ih => exact ih

theorem Yields.bind {Q : α → Prop} {R : β → Prop} (hp : p.Yields Q)
    (hf : ∀ a, Q a → (f a).Yields R) : (p >>= f).Yields R := by
  show (p.bind f).Yields R
  induction p with
  | done a => exact hf a hp
  | stop => trivial
  | call c next ih => exact fun answer => ih answer (hp answer)

theorem Yields.ofExcept {ε : Type} {x : Except ε α} {R : β → Prop}
    (h : ∀ a, x = .ok a → (f a).Yields R) : (ofExcept x >>= f).Yields R := by
  cases x with
  | error e => trivial
  | ok a => exact h a rfl

/-- What comes after a program may rely on its result. -/
theorem Within.bind_of_yields {Q : α → Prop} (hp : p.Within P) (hQ : p.Yields Q)
    (hf : ∀ a, Q a → (f a).Within P) : (p >>= f).Within P := by
  show (p.bind f).Within P
  induction p with
  | done a => exact hf a hQ
  | stop => trivial
  | call c next ih => exact ⟨hp.1, fun answer => ih answer (hp.2 answer) (hQ answer)⟩

theorem Yields.exec {Q : α → Prop} (hp : p.Yields Q) {s s' : σ} {a : α}
    (h : p.exec perform s = some (a, s')) : Q a := by
  induction p generalizing s with
  | done b =>
    cases h
    exact hp
  | stop => cases h
  | call c next ih => exact ih _ (hp _) h

/-- What the calls of a program cannot tell apart, the program cannot. -/
theorem exec_agree {R : σ → σ → Prop} (hp : p.Within P)
    (hR : ∀ c, P c → ∀ s s', R s s' →
      (perform c s).1 = (perform c s').1 ∧ R (perform c s).2 (perform c s').2)
    {s s' : σ} (h : R s s') :
    Option.Rel (fun r r' => r.1 = r'.1 ∧ R r.2 r'.2) (p.exec perform s) (p.exec perform s') := by
  induction p generalizing s s' with
  | done a => exact .some ⟨rfl, h⟩
  | stop => exact .none
  | call c next ih =>
    obtain ⟨hanswer, hnext⟩ := hR c hp.1 s s' h
    show Option.Rel _ ((next (perform c s).1).exec perform _)
      ((next (perform c s').1).exec perform _)
    rw [← hanswer]
    exact ih _ (hp.2 _) hnext

end Program

/-! ## Programs and functions -/

/-- Executed in one piece, the program does what a function does, whose result `x` is the value and
the new memory in the form `f`. -/
def Program.Computes {ε : Type} (perform : (c : Call) → σ → Answer c × σ) (p : Program Answer α)
    (s : σ)
    (x : Except ε β) (f : β → α × σ) : Prop :=
  p.exec perform s = x.toOption.map f

namespace Program.Computes

variable {ε γ δ : Type} {perform : (c : Call) → σ → Answer c × σ} {s : σ} {p : Program Answer α}
  {q : α → Program Answer γ} {x : Except ε β} {f : β → α × σ} {k : β → Except ε δ} {g : δ → γ × σ}

theorem pure {a : α} {b : β} (h : f b = (a, s)) :
    Computes perform (Pure.pure a : Program Answer α) s (.ok b : Except ε β) f :=
  congrArg some h.symm

theorem stop (e : ε) : Computes perform (.stop : Program Answer α) s (.error e) f := rfl

theorem ofExcept (x : Except ε α) : Computes perform (ofExcept x) s x fun a => (a, s) := by
  cases x <;> rfl

/-- One after the other. -/
theorem bind (h : Computes perform p s x f)
    (hk : ∀ b, Computes perform (q (f b).1) (f b).2 (k b) g) :
    Computes perform (p >>= q) s (x >>= k) g := by
  unfold Computes at h ⊢
  rw [Program.exec_bind, h]
  cases x with
  | error e => rfl
  | ok b => exact hk b

/-- Both take the same branch. -/
theorem ite {c : Prop} [Decidable c] {p' : Program Answer α} {x' : Except ε β}
    (h : Computes perform p s x f) (h' : Computes perform p' s x' f) :
    Computes perform (if c then p else p') s (if c then x else x') f := by
  split_ifs
  · exact h
  · exact h'

theorem ite_ok {c : Prop} [Decidable c] {p' : Program Answer α} {b b' : β}
    (h : Computes perform p s (.ok b : Except ε β) f)
    (h' : Computes perform p' s (.ok b' : Except ε β) f) :
    Computes perform (if c then p else p') s (.ok (if c then b else b') : Except ε β) f := by
  split_ifs
  · exact h
  · exact h'

/-- A call that never fails. -/
theorem ask (c : Call) {q : Answer c → Program Answer γ} {y : Except ε δ}
    (h : Computes perform (q (perform c s).1) (perform c s).2 y g) :
    Computes perform (Program.ask c >>= q) s y g := h

end Program.Computes

/-! ## Several threads -/

variable {ι μ δ S I : Type} [DecidableEq ι]

/-- Threads over a shared memory `μ`, each with a state `δ` of its surroundings that no other thread
sees. In its local state a thread gets an input and executes a program for it. `permits` says what
may happen to the memory behind the back of a thread. -/
structure System (ι μ δ S I : Type) {Call : Type} (Answer : Call → Type) where
  body : ι → S → I → Program Answer S
  perform : ι → (c : Call) → μ × δ → Answer c × (μ × δ)
  permits : ι → μ → μ → Prop
  [decidablePermits : ∀ i m m', Decidable (permits i m m')]

attribute [instance] System.decidablePermits

/-- The memory, and for each thread its surroundings and what is left of its program. -/
structure Threads (ι μ δ S : Type) {Call : Type} (Answer : Call → Type) where
  shared : μ
  own : ι → δ
  program : ι → Program Answer S

/-- A thread begins its next program, or makes its next call, or somebody else changes the
memory. -/
inductive Label (ι μ I : Type)
  | start (i : ι) (input : I)
  | call (i : ι)
  | other (shared : μ)

variable (sys : System ι μ δ S I Answer)

/-- The next program of thread `i`; the process may have stopped. -/
def Threads.resume (g : Threads ι μ δ S Answer) (i : ι) (p : Program Answer S) :
    Option (Threads ι μ δ S Answer) :=
  if p.isStop then none else some { g with program := Function.update g.program i p }

/-- One step of one thread. -/
def interleavedStep (g : Threads ι μ δ S Answer) : Label ι μ I → Option (Threads ι μ δ S Answer)
  | .start i input =>
    match g.program i with
    | .done s => g.resume i (sys.body i s input)
    | _ => none
  | .call i =>
    match g.program i with
    | .call c next =>
      let (answer, shared, own) := sys.perform i c (g.shared, g.own i)
      Threads.resume { g with shared := shared, own := Function.update g.own i own } i (next answer)
    | _ => none
  | .other shared => some { g with shared := shared }

/-- Others leave a thread its part of the memory while it executes a program, and keep to what they
may do in between. -/
def System.OthersKeep (part : ι → Setoid μ) (g : Threads ι μ δ S Answer) : Label ι μ I → Prop
  | .other shared => ∀ i, sys.permits i g.shared shared ∧
    ((∃ s, g.program i = .done s) ∨ (part i).r g.shared shared)
  | _ => True

/-! ## One thread alone -/

/-- What happens to a thread alone. -/
inductive SoloLabel (σ I : Type)
  | input (input : I)
  | other (state : σ)

/-- A thread alone, with its programs in one piece. -/
def soloStep (i : ι) (x : S × (μ × δ)) :
    SoloLabel (μ × δ) I → Option (S × (μ × δ))
  | .input input => (sys.body i x.1 input).exec (sys.perform i) x.2
  | .other state => if sys.permits i x.2.1 state.1 then some (x.1, state) else none

/-- What thread `i` sees of a step: not the calls of the others, and not what happens to the memory
while it executes a program. -/
def soloLabels (i : ι) (g : Threads ι μ δ S Answer) : Label ι μ I → List (SoloLabel (μ × δ) I)
  | .start j input => if j = i then [.input input] else []
  | .call _ => []
  | .other shared =>
    match g.program i with
    | .done _ => [.other (shared, g.own i)]
    | _ => []

/-- The share of thread `i` in an interleaved run. -/
def soloRun (i : ι) (g : Threads ι μ δ S Answer) :
    List (Label ι μ I) → List (SoloLabel (μ × δ) I)
  | [] => []
  | l :: ls => soloLabels i g l ++
    match interleavedStep sys g l with
    | some g' => soloRun i g' ls
    | none => []

/-! ## Isolation -/

/-- Each thread calls only what concerns its part of the memory: the answers and the effect in the
part are determined by the part, and the parts of the others are left alone. -/
structure System.Isolated (part : ι → Setoid μ) (allowed : ι → Call → Prop) : Prop where
  within : ∀ i s input, (sys.body i s input).Within (allowed i)
  reads : ∀ i c, allowed i c → ∀ m m' d, (part i).r m m' →
    (sys.perform i c (m, d)).1 = (sys.perform i c (m', d)).1 ∧
    (part i).r (sys.perform i c (m, d)).2.1 (sys.perform i c (m', d)).2.1 ∧
    (sys.perform i c (m, d)).2.2 = (sys.perform i c (m', d)).2.2
  frame : ∀ i j, i ≠ j → ∀ c, allowed i c → ∀ m d, (part j).r m (sys.perform i c (m, d)).2.1
  permits_congr : ∀ i m m' n, (part i).r m m' → (sys.permits i m n ↔ sys.permits i m' n)

variable {sys} {part : ι → Setoid μ} {allowed : ι → Call → Prop} {i : ι}
  {g g' : Threads ι μ δ S Answer}

/-- The same local state, surroundings and part of the memory. -/
def Alike (part : Setoid μ) (x y : S × (μ × δ)) : Prop :=
  x.1 = y.1 ∧ part.r x.2.1 y.2.1 ∧ x.2.2 = y.2.2

theorem Alike.trans {part : Setoid μ} {x y z : S × (μ × δ)} (h : Alike part x y)
    (h' : Alike part y z) : Alike part x z :=
  ⟨h.1.trans h'.1, part.trans' h.2.1 h'.2.1, h.2.2.trans h'.2.2⟩

theorem Alike.refl (part : Setoid μ) (x : S × (μ × δ)) : Alike part x x :=
  ⟨rfl, part.refl' _, rfl⟩

/-- What thread `i` would end with if it executed the rest of its program alone. -/
def Threads.outcome (sys : System ι μ δ S I Answer) (g : Threads ι μ δ S Answer) (i : ι) :
    Option (S × (μ × δ)) :=
  (g.program i).exec (sys.perform i) (g.shared, g.own i)

/-- The threads have only calls of their own before them, and the rest of thread `i` leads to `o`.
-/
structure Matches (sys : System ι μ δ S I Answer) (part : ι → Setoid μ) (allowed : ι → Call → Prop)
    (i : ι) (g : Threads ι μ δ S Answer) (o : Option (S × (μ × δ))) : Prop where
  within : ∀ j, (g.program j).Within (allowed j)
  outcome : Option.Rel (Alike (part i)) (g.outcome sys i) o

theorem rel_trans {part : Setoid μ} {x y z : Option (S × (μ × δ))}
    (h : Option.Rel (Alike part) x y) (h' : Option.Rel (Alike part) y z) :
    Option.Rel (Alike part) x z := by
  cases h with
  | none => exact h'
  | some h =>
    cases h' with
    | some h' => exact .some (h.trans h')

/-- The next program of a thread keeps to its calls as well. -/
theorem matches_resume {g : Threads ι μ δ S Answer} {j : ι} {p : Program Answer S}
    {o : Option (S × (μ × δ))} (hresume : g.resume j p = some g')
    (hwithin : ∀ k, (g.program k).Within (allowed k)) (hp : p.Within (allowed j))
    (houtcome : Option.Rel (Alike (part i))
      (Threads.outcome sys { g with program := Function.update g.program j p } i) o) :
    Matches sys part allowed i g' o := by
  unfold Threads.resume at hresume
  split_ifs at hresume
  cases hresume
  refine ⟨fun k => ?_, houtcome⟩
  by_cases hk : k = j
  · subst hk
    simpa using hp
  · simpa [hk] using hwithin k

namespace System.Isolated

variable {o : Option (S × (μ × δ))} (h : sys.Isolated part allowed)

omit [DecidableEq ι] in
include h in
/-- A program of thread `i` does not notice what happens outside the part of the thread. -/
theorem exec_alike {p : Program Answer S} (hp : p.Within (allowed i)) {m m' : μ}
    (hm : (part i).r m m') (d : δ) :
    Option.Rel (Alike (part i)) (p.exec (sys.perform i) (m, d))
      (p.exec (sys.perform i) (m', d)) := by
  refine Program.exec_agree (R := fun s s' : μ × δ => (part i).r s.1 s'.1 ∧ s.2 = s'.2) hp ?_
    ⟨hm, rfl⟩
  rintro c hc ⟨m, d⟩ ⟨m', d'⟩ ⟨hm, hd⟩
  obtain rfl : d = d' := hd
  exact h.reads i c hc m m' d hm

omit [DecidableEq ι] in
include h in
/-- What happens outside the part of thread `i` leaves its outcome alone. -/
theorem outcome_of_same (hwithin : (g.program i).Within (allowed i))
    (hprogram : g'.program i = g.program i) (hown : g'.own i = g.own i)
    (hshared : (part i).r g.shared g'.shared)
    (houtcome : Option.Rel (Alike (part i)) (g.outcome sys i) o) :
    Option.Rel (Alike (part i)) (g'.outcome sys i) o := by
  refine rel_trans ?_ houtcome
  unfold Threads.outcome
  rw [hprogram, hown]
  exact h.exec_alike hwithin ((part i).symm' hshared) _

include h in
theorem matches_start {j : ι} {input : I} (hmatches : Matches sys part allowed i g o)
    (hs : interleavedStep sys g (.start j input) = some g') :
    Matches sys part allowed i g'
      (o.bind fun x => run (soloStep sys i) x (soloLabels i g (.start j input))) := by
  obtain ⟨hwithin, houtcome⟩ := hmatches
  simp only [interleavedStep] at hs
  split at hs
  · rename_i s hdone
    refine matches_resume hs hwithin (h.within j s input) ?_
    by_cases hij : j = i
    · -- the whole program is before the thread
      subst hij
      unfold Threads.outcome at houtcome ⊢
      rw [hdone] at houtcome
      cases houtcome with
      | @some _ y halike =>
        obtain ⟨t, m, d⟩ := y
        obtain ⟨rfl, hm, rfl⟩ := halike
        simp only [soloLabels, if_true, Option.bind_some, run, soloStep, Function.update_self,
          Option.bind_fun_some]
        exact h.exec_alike (h.within j s input) hm _
    · simp only [soloLabels, if_neg hij, run, Option.bind_fun_some]
      refine h.outcome_of_same (hwithin i) ?_ rfl ((part i).refl' _) houtcome
      exact Function.update_of_ne (Ne.symm hij) _ _
  · cases hs

include h in
theorem matches_call {j : ι} (hmatches : Matches sys part allowed i g o)
    (hs : interleavedStep sys g (.call j) = some g') : Matches sys part allowed i g' o := by
  obtain ⟨hwithin, houtcome⟩ := hmatches
  simp only [interleavedStep] at hs
  split at hs
  · rename_i c next hcall
    obtain ⟨hc, hnext⟩ : allowed j c ∧ ∀ answer, (next answer).Within (allowed j) := by
      have hj := hwithin j
      rw [hcall] at hj
      exact hj
    refine matches_resume hs hwithin (hnext _) ?_
    by_cases hij : j = i
    · -- one call less is before the thread, with the same outcome
      subst hij
      unfold Threads.outcome at houtcome ⊢
      rw [hcall] at houtcome
      simp only [Function.update_self]
      exact houtcome
    · refine h.outcome_of_same (hwithin i) ?_ ?_ (h.frame j i hij c hc _ _) houtcome
      · exact Function.update_of_ne (Ne.symm hij) _ _
      · exact Function.update_of_ne (Ne.symm hij) _ _
  · cases hs

include h in
theorem matches_other {shared : μ} (hmatches : Matches sys part allowed i g o)
    (hkeep : sys.OthersKeep part g (.other (I := I) shared)) :
    Matches sys part allowed i { g with shared := shared }
      (o.bind fun x => run (soloStep sys i) x (soloLabels i g (.other (I := I) shared))) := by
  obtain ⟨hwithin, houtcome⟩ := hmatches
  obtain ⟨hpermits, hidle⟩ := hkeep i
  refine ⟨hwithin, ?_⟩
  cases hprogram : g.program i with
  | done s =>
    unfold Threads.outcome at houtcome ⊢
    rw [hprogram] at houtcome
    cases houtcome with
    | @some _ y halike =>
      obtain ⟨t, m, d⟩ := y
      obtain ⟨rfl, hm, rfl⟩ := halike
      have hpermits' : sys.permits i m shared := (h.permits_congr i _ _ _ hm).mp hpermits
      simp only [soloLabels, hprogram, Option.bind_some, run, soloStep, if_pos hpermits']
      exact .some (.refl _ _)
  | stop | call c next =>
    have hsame : (part i).r g.shared shared := by
      obtain ⟨s, hdone⟩ | hsame := hidle
      · rw [hprogram] at hdone
        cases hdone
      · exact hsame
    simp only [soloLabels, hprogram, run, Option.bind_fun_some]
    exact h.outcome_of_same (hwithin i) rfl rfl hsame houtcome

include h in
/-- **One step.** Thread `i` begins something, or gets on towards its outcome, or notices
nothing. -/
theorem matches_step {l : Label ι μ I} (hmatches : Matches sys part allowed i g o)
    (hkeep : sys.OthersKeep part g l) (hs : interleavedStep sys g l = some g') :
    Matches sys part allowed i g'
      (o.bind fun x => run (soloStep sys i) x (soloLabels i g l)) := by
  cases l with
  | start j input => exact h.matches_start hmatches hs
  | call j =>
    simp only [soloLabels, run, Option.bind_fun_some]
    exact h.matches_call hmatches hs
  | other shared =>
    cases hs
    exact h.matches_other hmatches hkeep

include h in
theorem matches_run {labels : List (Label ι μ I)} (hmatches : Matches sys part allowed i g o)
    (hkeep : Along (interleavedStep sys) (sys.OthersKeep part) g labels)
    (hrun : run (interleavedStep sys) g labels = some g') :
    Matches sys part allowed i g'
      (o.bind fun x => run (soloStep sys i) x (soloRun sys i g labels)) := by
  induction labels generalizing g o with
  | nil =>
    cases hrun
    simp only [soloRun, run, Option.bind_fun_some]
    exact hmatches
  | cons l labels ih =>
    obtain ⟨g₁, hs, hrest⟩ := Option.bind_eq_some_iff.mp hrun
    obtain ⟨hkeep₁, hkeep₂⟩ := hkeep g₁ hs
    have hstep := ih (h.matches_step hmatches hkeep₁ hs) hkeep₂ hrest
    rw [Option.bind_assoc] at hstep
    simp only [soloRun, hs, run_append]
    exact hstep

include h in
/-- **The threads do not notice one another.** After any interleaved run, what thread `i` still has
before it leads to where its share of the run leads alone, with every program in one piece. -/
theorem run_outcome {start : ι → S} {labels : List (Label ι μ I)}
    (hstart : ∀ j, g.program j = .done (start j))
    (hkeep : Along (interleavedStep sys) (sys.OthersKeep part) g labels)
    (hrun : run (interleavedStep sys) g labels = some g') (i : ι) :
    Option.Rel (Alike (part i)) (g'.outcome sys i)
      (run (soloStep sys i) (start i, (g.shared, g.own i)) (soloRun sys i g labels)) := by
  have hmatches : Matches sys part allowed i g (some (start i, (g.shared, g.own i))) := by
    refine ⟨fun j => ?_, ?_⟩
    · rw [hstart j]
      trivial
    · unfold Threads.outcome
      rw [hstart i]
      exact .some (.refl _ _)
  exact (h.matches_run hmatches hkeep hrun).outcome

end System.Isolated

end Interleaving
