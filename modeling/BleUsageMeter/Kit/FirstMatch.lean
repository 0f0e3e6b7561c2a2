import Mathlib.Data.List.Forall2

/-! The first element of a list that passes a test, when the list is reordered or translated. -/

namespace Kit

variable {α β γ : Type*}

/-- What the first match stands for is the same in every order of the list exactly when all matches
stand for the same. -/
theorem find?_perm_iff (p : α → Bool) (f : α → γ) (l : List α) :
    (∀ m : List α, m.Perm l → (m.find? p).map f = (l.find? p).map f) ↔
      ∀ a ∈ l, ∀ b ∈ l, p a → p b → f a = f b := by
  constructor
  · intro h
    have hfront : ∀ a ∈ l, p a → (l.find? p).map f = some (f a) := by
      intro a ha hp
      obtain ⟨before, after, rfl⟩ := List.append_of_mem ha
      rw [← h (a :: (before ++ after)) List.perm_middle.symm, List.find?_cons_of_pos hp]
      rfl
    intro a ha b hb hpa hpb
    exact Option.some.inj ((hfront a ha hpa).symm.trans (hfront b hb hpb))
  · intro h m hperm
    cases hm : m.find? p with
    | none =>
      have hnone : l.find? p = none := by
        rw [List.find?_eq_none] at hm ⊢
        exact fun a ha => hm a (hperm.mem_iff.mpr ha)
      rw [hnone]
    | some a =>
      have ha := hperm.mem_iff.mp (List.mem_of_find?_eq_some hm)
      cases hl : l.find? p with
      | none => exact absurd (List.find?_some hm) (List.find?_eq_none.mp hl a ha)
      | some b =>
        have hb := List.mem_of_find?_eq_some hl
        rw [Option.map_some, Option.map_some,
          h a ha b hb (List.find?_some hm) (List.find?_some hl)]

/-- Lists that correspond element by element have first matches that correspond. -/
theorem find?_forall₂ {R : α → β → Prop} {p : α → Bool} {q : β → Bool} {f : α → γ} {g : β → γ}
    (h : ∀ a b, R a b → p a = q b ∧ f a = g b) {l : List α} {m : List β}
    (hlists : List.Forall₂ R l m) : (l.find? p).map f = (m.find? q).map g := by
  induction hlists with
  | nil => rfl
  | cons hab _ ih =>
    obtain ⟨htest, hvalue⟩ := h _ _ hab
    rw [List.find?_cons, List.find?_cons, htest]
    split
    · rw [Option.map_some, Option.map_some, hvalue]
    · exact ih

end Kit
