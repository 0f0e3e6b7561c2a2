import Mathlib.Data.List.Count
import Mathlib.Tactic.Common

/-! Two tests counted over one list: by how much the counts differ, and when they are the same all
along. -/

namespace Kit

variable {α : Type*} (p q : α → Prop) [DecidablePred p] [DecidablePred q]

/-- Two counts of the members of a list differ by the members that only one of them counts. -/
theorem countP_add_countP_not (l : List α) :
    (l.countP fun a => p a) + (l.countP fun a => q a ∧ ¬p a) =
      (l.countP fun a => q a) + l.countP fun a => p a ∧ ¬q a := by
  induction l with
  | nil => rfl
  | cons a l ih =>
    simp only [List.countP_cons, decide_eq_true_eq]
    by_cases hp : p a <;> by_cases hq : q a <;> simp only [hp, hq] <;> simp at ih ⊢ <;> omega

/-- Two tests pass as often in every part of a list that has been seen exactly when they agree. -/
theorem countP_prefixes_iff (l : List α) :
    (∀ seen, seen <+: l → (seen.countP fun a => p a) = seen.countP fun a => q a) ↔
      ∀ a ∈ l, (p a ↔ q a) := by
  constructor
  · intro h a ha
    obtain ⟨before, after, rfl⟩ := List.append_of_mem ha
    have hbefore := h before (List.prefix_append _ _)
    have hafter := h (before ++ [a]) ⟨after, by simp⟩
    simp only [List.countP_append, List.countP_singleton, decide_eq_true_eq, hbefore,
      Nat.add_left_cancel_iff] at hafter
    by_cases hp : p a <;> by_cases hq : q a <;> simp [hp, hq] at hafter ⊢
  · intro h seen hseen
    apply List.countP_congr
    intro a ha
    simpa using h a (hseen.subset ha)

end Kit
