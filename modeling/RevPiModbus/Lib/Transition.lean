import Mathlib.Tactic

/-!
# Partial transition systems

A system with states `S` is given by a partial step function over labels `L`: a label says which
part of the system moves, and how it resolves its choices.

* `run`: the state after a list of labels;
* `Throughout`: a property of all states that a run visits; `Along`: a property of all its steps;
* `AlongHistory`: a property of all its steps and of what has happened before them;
* `throughout_of_invariant`: the induction over a run;
* `throughout_iff_along`: an invariant that the steps with a property keep, and the other steps
  break visibly.
-/

namespace Transition

variable {S L : Type*} (step : S → L → Option S)

/-- The state after the steps with the given labels. -/
def run (s : S) : List L → Option S
  | [] => some s
  | l :: ls => (step s l).bind fun s' => run s' ls

/-- `P` holds of every state that the run visits, as far as the run goes. -/
def Throughout (P : S → Prop) (s : S) : List L → Prop
  | [] => P s
  | l :: ls => P s ∧ ∀ s', step s l = some s' → Throughout P s' ls

/-- `ok` holds of every step that the run takes, in the state before it. -/
def Along (ok : S → L → Prop) (s : S) : List L → Prop
  | [] => True
  | l :: ls => ∀ s', step s l = some s' → ok s l ∧ Along ok s' ls

/-- `ok` holds of every step that the run takes, after the labels before it (the last one first) and
in the state before it. -/
def AlongHistory (ok : List L → S → L → Prop) (past : List L) (s : S) : List L → Prop
  | [] => True
  | l :: ls => ∀ s', step s l = some s' → ok past s l ∧ AlongHistory ok (l :: past) s' ls

/-- A run may be made in two parts. -/
theorem run_append (s : S) (ls ls' : List L) :
    run step s (ls ++ ls') = (run step s ls).bind fun s' => run step s' ls' := by
  induction ls generalizing s with
  | nil => rfl
  | cons l ls ih =>
    rw [List.cons_append, run, run, Option.bind_assoc]
    exact congrArg (Option.bind (step s l)) (funext fun s' => ih s')

variable {step} {P Inv : S → Prop} {ok : S → L → Prop} {s t : S} {ls : List L}

theorem Throughout.head (h : Throughout step P s ls) : P s := by
  cases ls with
  | nil => exact h
  | cons l ls => exact h.1

theorem Throughout.last (h : Throughout step P s ls) (hrun : run step s ls = some t) : P t := by
  induction ls generalizing s with
  | nil =>
    cases hrun
    exact h
  | cons l ls ih =>
    obtain ⟨s', hstep, hrest⟩ := Option.bind_eq_some_iff.mp hrun
    exact ih (h.2 s' hstep) hrest

/-- An invariant of the steps holds throughout every run from a state in which it holds. -/
theorem throughout_of_invariant (hstep : ∀ s l s', Inv s → step s l = some s' → Inv s')
    (h : Inv s) (ls : List L) : Throughout step Inv s ls := by
  induction ls generalizing s with
  | nil => exact h
  | cons l ls ih => exact ⟨h, fun s' hs => ih (hstep s l s' h hs)⟩

/-- A property of all steps holds along every run. -/
theorem along_of_step (hstep : ∀ s l s', step s l = some s' → ok s l) (s : S) (ls : List L) :
    Along step ok s ls := by
  induction ls generalizing s with
  | nil => trivial
  | cons l ls ih => exact fun s' hs => ⟨hstep s l s' hs, ih s'⟩

/-- A property of all steps from states with an invariant holds along every run from such a state.
-/
theorem along_of_invariant (hstep : ∀ s l s', Inv s → step s l = some s' → Inv s')
    (hok : ∀ s l s', Inv s → step s l = some s' → ok s l) (h : Inv s) (ls : List L) :
    Along step ok s ls := by
  induction ls generalizing s with
  | nil => trivial
  | cons l ls ih => exact fun s' hs => ⟨hok s l s' h hs, ih (hstep s l s' h hs)⟩

/-- Where the states keep a record of the past, a property of the steps may be stated about it. -/
theorem along_iff_alongHistory {Record : List L → S → Prop} {ok' : List L → S → L → Prop}
    (hstep : ∀ past s l s', Record past s → step s l = some s' → Record (l :: past) s')
    (hok : ∀ past s l s', Record past s → step s l = some s' → (ok s l ↔ ok' past s l))
    {past : List L}
    (h : Record past s) (ls : List L) : Along step ok s ls ↔ AlongHistory step ok' past s ls := by
  induction ls generalizing past s with
  | nil => exact Iff.rfl
  | cons l ls ih =>
    apply forall_congr'
    intro s'
    apply imp_congr_right
    intro hs
    exact and_congr (hok past s l s' h hs) (ih (hstep past s l s' h hs))

/-- An invariant of the steps with a property holds throughout every run of such steps. -/
theorem throughout_of_along (hstep : ∀ s l s', Inv s → ok s l → step s l = some s' → Inv s')
    (h : Inv s) (halong : Along step ok s ls) : Throughout step Inv s ls := by
  induction ls generalizing s with
  | nil => exact h
  | cons l ls ih =>
    refine ⟨h, fun s' hs => ?_⟩
    obtain ⟨hok, hrest⟩ := halong s' hs
    exact ih (hstep s l s' h hok hs) hrest

/-- Properties of states may be weakened. -/
theorem Throughout.imp (hP : ∀ s, Inv s → P s) (h : Throughout step Inv s ls) :
    Throughout step P s ls := by
  induction ls generalizing s with
  | nil => exact hP s h
  | cons l ls ih => exact ⟨hP s h.1, fun s' hs => ih (h.2 s' hs)⟩

/-- Where the steps with a property keep an invariant that implies `P`, and the other steps lead
out of `P`, the states of a run are all in `P` exactly when all its steps have the property. -/
theorem throughout_iff_along (hP : ∀ s, Inv s → P s)
    (hkeep : ∀ s l s', Inv s → step s l = some s' → ok s l → Inv s')
    (hbreak : ∀ s l s', Inv s → step s l = some s' → ¬ ok s l → ¬ P s')
    (h : Inv s) (ls : List L) : Throughout step P s ls ↔ Along step ok s ls := by
  induction ls generalizing s with
  | nil => exact ⟨fun _ => trivial, fun _ => hP s h⟩
  | cons l ls ih =>
    constructor
    · rintro ⟨-, hrest⟩ s' hs
      have hok : ok s l := by
        by_contra hnot
        exact hbreak s l s' h hs hnot (hrest s' hs).head
      exact ⟨hok, (ih (hkeep s l s' h hs hok)).mp (hrest s' hs)⟩
    · intro halong
      refine ⟨hP s h, fun s' hs => ?_⟩
      obtain ⟨hok, hrest⟩ := halong s' hs
      exact (ih (hkeep s l s' h hs hok)).mpr hrest

end Transition
