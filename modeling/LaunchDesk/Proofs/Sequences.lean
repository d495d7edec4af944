import Mathlib.Data.List.Induction

/-!
# Sequences

Changes of a list and splits at its end. A moment of a run is one of its steps with the steps before
it; a condition on moments may hold at some time, or for the first time.
-/

namespace LaunchDesk

variable {α : Type} {P : List α → α → Prop} {before after xs between : List α} {last x : α}

/-! ## The end of a list -/

theorem modify_last (xs : List α) (x : α) (f : α → α) :
    (xs ++ [x]).modify xs.length f = xs ++ [f x] := by
  induction xs with
  | nil => rfl
  | cons y ys ih => simp [ih]

theorem snoc_split (hsplit : xs ++ [last] = before ++ x :: after) :
    after = [] ∧ xs = before ∧ last = x ∨
      ∃ later, after = later ++ [last] ∧ xs = before ++ x :: later := by
  rcases List.eq_nil_or_concat after with rfl | ⟨later, _, rfl⟩
  · obtain ⟨hl, hlast⟩ := List.append_inj' hsplit rfl
    exact .inl ⟨rfl, hl, List.singleton_inj.mp hlast⟩
  · rw [List.concat_eq_append, ← List.cons_append, ← List.append_assoc] at hsplit
    obtain ⟨hl, hlast⟩ := List.append_inj' hsplit rfl
    obtain rfl := List.singleton_inj.mp hlast
    exact .inr ⟨later, List.concat_eq_append, hl⟩

/-! ## Changes of one item -/

theorem getElem?_set_iff {k j : Nat} {y : α} (hk : k < xs.length) :
    (xs.set k x)[j]? = some y ↔ j = k ∧ y = x ∨ j ≠ k ∧ xs[j]? = some y := by
  by_cases hjk : k = j
  · subst hjk
    simp [hk, eq_comm]
  · simp [List.getElem?_set_ne hjk, Ne.symm hjk]

/-! ## Moments -/

/-- `P` holds of some item and those before it. -/
def Sometime (P : List α → α → Prop) (xs : List α) : Prop :=
  ∃ before x later, xs = before ++ x :: later ∧ P before x

/-- `P` holds of this item, and of none before it. -/
def First (P : List α → α → Prop) (before : List α) (x : α) : Prop :=
  P before x ∧ ¬Sometime P before

theorem not_sometime_nil : ¬Sometime P ([] : List α) := by
  rintro ⟨before, x, later, heq, -⟩
  simp at heq

theorem sometime_snoc : Sometime P (xs ++ [x]) ↔ Sometime P xs ∨ P xs x := by
  constructor
  · rintro ⟨before, y, later, hsplit, hy⟩
    rcases snoc_split hsplit with ⟨-, rfl, rfl⟩ | ⟨later, -, rfl⟩
    · exact .inr hy
    · exact .inl ⟨before, y, later, rfl, hy⟩
  · rintro (⟨before, y, later, rfl, hy⟩ | hx)
    · exact ⟨before, y, later ++ [x], by simp, hy⟩
    · exact ⟨xs, x, [], rfl, hx⟩

/-- What holds at the end and not at the start began to hold at some item. -/
theorem begins_between {S : List α → Prop} (hstart : ¬S before) (hend : S (before ++ between)) :
    ∃ a x b, between = a ++ x :: b ∧ ¬S (before ++ a) ∧ S (before ++ a ++ [x]) := by
  induction between using List.reverseRecOn with
  | nil => exact absurd (List.append_nil before ▸ hend) hstart
  | append_singleton between y ih =>
    by_cases h : S (before ++ between)
    · obtain ⟨a, x, b, rfl, ha, hx⟩ := ih h
      exact ⟨a, x, b ++ [y], by simp, ha, hx⟩
    · exact ⟨between, y, [], rfl, h, by rwa [List.append_assoc]⟩

end LaunchDesk
