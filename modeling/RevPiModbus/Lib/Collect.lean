import Mathlib.Tactic

/-!
# Collecting entries, with skips and early exits

A loop runs over a list of items. For each item its body yields an entry, which becomes the new
head of the result, or moves on to the next item without one (`continue`), or leaves the loop and
the function around it.

* `Exit`, `collect`: the loop;
* `entry`, `exit`: what the body does with an item on its own; `orNext`: a body that never leaves;
  `LeavesOr`, `Stays`: a body that leaves or does what an optional entry says, and that does not
  leave;
* `collect_of_stays`, `collect_of_leaves`: the result is that of a `filterMap` over the items before
  the first that leaves;
* `NothingLost`: when nothing is lost by leaving.
-/

namespace Collect

/-- How the body of the loop ends without an entry. -/
inductive Exit (ε : Type*)
  | next
  | leave (reason : ε)
  deriving DecidableEq, Repr

variable {α β ε : Type*}

/-- The loop, from the entries collected so far: the entries at its end, and why it was left. -/
def collect (body : α → Except (Exit ε) β) : List α → List β → List β × Option ε
  | [], entries => (entries, none)
  | item :: items, entries =>
    match body item with
    | .ok entry => collect body items (entry :: entries)
    | .error .next => collect body items entries
    | .error (.leave reason) => (entries, some reason)

/-- The entry of an item. -/
def entry (body : α → Except (Exit ε) β) (item : α) : Option β :=
  match body item with
  | .ok entry => some entry
  | .error _ => none

/-- The reason for which an item leaves the loop. -/
def exit (body : α → Except (Exit ε) β) (item : α) : Option ε :=
  match body item with
  | .error (.leave reason) => some reason
  | _ => none

/-- A body that skips an item without an entry. -/
def orNext : Option β → Except (Exit ε) β
  | some b => .ok b
  | none => .error .next

/-- A body that leaves, or else has the entry `o` if there is one. -/
def LeavesOr (x : Except (Exit ε) β) (o : Option β) : Prop :=
  (∃ reason, x = .error (.leave reason)) ∨ x = orNext o

/-- Bodies are compared step by step. -/
theorem LeavesOr.bind {ε β γ : Type} {x : Except (Exit ε) β} {o : Option β}
    {f : β → Except (Exit ε) γ} {g : β → Option γ} (hx : LeavesOr x o)
    (hf : ∀ b, LeavesOr (f b) (g b)) : LeavesOr (x >>= f) (o.bind g) := by
  obtain ⟨reason, rfl⟩ | rfl := hx
  · exact .inl ⟨reason, rfl⟩
  · cases o with
    | none => exact .inr rfl
    | some b => exact hf b

/-- A body that does not leave. -/
def Stays (x : Except (Exit ε) β) : Prop :=
  ∀ reason, x ≠ .error (.leave reason)

theorem stays_orNext (o : Option β) : Stays (orNext o : Except (Exit ε) β) := by
  intro reason
  cases o <;> simp [orNext]

theorem Stays.bind {ε β γ : Type} {x : Except (Exit ε) β} {f : β → Except (Exit ε) γ}
    (hx : Stays x) (hf : ∀ b, Stays (f b)) : Stays (x >>= f) := by
  intro reason
  rcases x with (_ | reason') | b
  · exact fun h => by cases h
  · exact absurd rfl (hx reason')
  · exact hf b reason

variable {body : α → Except (Exit ε) β} {item : α} {items rest : List α} {entries : List β}
  {reason : ε}

theorem entry_eq_some {b : β} : entry body item = some b ↔ body item = .ok b := by
  unfold entry
  split <;> simp_all

theorem exit_eq_some : exit body item = some reason ↔ body item = .error (.leave reason) := by
  unfold exit
  split <;> simp_all

theorem exit_eq_none_iff : exit body item = none ↔ Stays (body item) := by
  unfold exit Stays
  split <;> simp_all

theorem entry_of_leavesOr {o : Option β} (h : LeavesOr (body item) o)
    (hstays : exit body item = none) : entry body item = o := by
  obtain ⟨reason, hleave⟩ | heq := h
  · rw [exit_eq_some.mpr hleave] at hstays
    cases hstays
  · rw [entry, heq]
    cases o <;> rfl

/-- An item that leaves the loop has no entry. -/
theorem entry_of_exit (h : exit body item = some reason) : entry body item = none := by
  rw [exit_eq_some] at h
  simp only [entry, h]

/-- An item that stays contributes its entry, if any. -/
theorem collect_cons_of_stays (h : exit body item = none) :
    collect body (item :: items) entries =
      collect body items ((entry body item).toList ++ entries) := by
  rcases hbody : body item with (_ | reason) | b
  · simp only [collect, entry, hbody, Option.toList_none, List.nil_append]
  · simp [exit, hbody] at h
  · simp only [collect, entry, hbody, Option.toList_some, List.singleton_append]

theorem collect_cons_of_leaves (h : exit body item = some reason) :
    collect body (item :: items) entries = (entries, some reason) := by
  rw [exit_eq_some] at h
  rw [collect, h]

/-- Over items that stay, the loop is a `filterMap` that stores from back to front. -/
theorem collect_append_of_stays (h : ∀ item ∈ items, exit body item = none) (rest : List α)
    (entries : List β) :
    collect body (items ++ rest) entries =
      collect body rest ((items.filterMap (entry body)).reverse ++ entries) := by
  induction items generalizing entries with
  | nil => rfl
  | cons item items ih =>
    rw [List.forall_mem_cons] at h
    rw [List.cons_append, collect_cons_of_stays h.1, ih h.2]
    cases hentry : entry body item <;> simp [hentry]

/-- The loop over items none of which leaves. -/
theorem collect_of_stays (h : ∀ item ∈ items, exit body item = none) :
    collect body items [] = ((items.filterMap (entry body)).reverse, none) := by
  have happend := collect_append_of_stays h [] []
  rwa [List.append_nil, List.append_nil] at happend

/-- The loop up to the first item that leaves. -/
theorem collect_of_leaves (h : ∀ item ∈ items, exit body item = none)
    (hleave : exit body item = some reason) (rest : List α) :
    collect body (items ++ item :: rest) [] =
      ((items.filterMap (entry body)).reverse, some reason) := by
  rw [collect_append_of_stays h, collect_cons_of_leaves hleave, List.append_nil]

/-- Either all items stay, or there is a first one that leaves. -/
theorem stays_or_leaves (body : α → Except (Exit ε) β) (items : List α) :
    (∀ item ∈ items, exit body item = none) ∨
      ∃ front item rest reason, items = front ++ item :: rest ∧
        (∀ x ∈ front, exit body x = none) ∧ exit body item = some reason := by
  induction items with
  | nil => exact .inl (by simp)
  | cons x items ih =>
    cases hx : exit body x with
    | some reason => exact .inr ⟨[], x, items, reason, rfl, by simp, hx⟩
    | none =>
      obtain h | ⟨front, item, rest, reason, rfl, hfront, hitem⟩ := ih
      · exact .inl (List.forall_mem_cons.mpr ⟨hx, h⟩)
      · exact .inr ⟨x :: front, item, rest, reason, rfl,
          List.forall_mem_cons.mpr ⟨hx, hfront⟩, hitem⟩

/-- No item with the property `ends` stands before one with an entry. -/
def NothingLost (ends : α → Prop) (entry : α → Option β) (items : List α) : Prop :=
  items.Pairwise fun x y => ends x → entry y = none

theorem nothingLost_of_forall {ends : α → Prop} {f : α → Option β} (h : ∀ x ∈ items, ¬ ends x) :
    NothingLost ends f items :=
  List.pairwise_of_forall_mem_list fun x hx _ _ hends => absurd hends (h x hx)

/-- It comes down to the first item that ends. -/
theorem nothingLost_append_iff {ends : α → Prop} {f : α → Option β} (h : ∀ x ∈ items, ¬ ends x)
    (hends : ends item) :
    NothingLost ends f (items ++ item :: rest) ↔ rest.filterMap f = [] := by
  rw [List.filterMap_eq_nil_iff]
  constructor
  · intro hnothing y hy
    have hcons := (List.pairwise_append.mp hnothing).2.1
    exact List.rel_of_pairwise_cons hcons hy hends
  · intro hrest
    refine List.pairwise_append.mpr ⟨nothingLost_of_forall h, ?_, ?_⟩
    · exact List.pairwise_cons.mpr ⟨fun y hy _ => hrest y hy,
        List.pairwise_of_forall_mem_list fun _ _ y hy _ => hrest y hy⟩
    · intro x hx _ _ hx'
      exact absurd hx' (h x hx)

/-- A loop that is left has all entries exactly when the items behind have none. -/
theorem filterMap_eq_append_iff {f : α → Option β} (h : f item = none) (items rest : List α) :
    (items.filterMap f).reverse = ((items ++ item :: rest).filterMap f).reverse ↔
      rest.filterMap f = [] := by
  rw [List.filterMap_append, List.filterMap_cons_none h, List.reverse_inj]
  exact List.self_eq_append_right

end Collect
