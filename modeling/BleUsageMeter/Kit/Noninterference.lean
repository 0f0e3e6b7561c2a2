import Mathlib.Data.List.Basic

/-! Two machines that take the same visible events and any hidden ones.  A relation that hidden
events of either side keep, and that a visible event taken by both sides keeps, holds after any two
sequences of events that show the same. -/

namespace Kit

variable {σ τ ε : Type}

/-- What a relation must keep. -/
structure Unaffected (step : σ → ε → σ) (step' : τ → ε → τ) (visible : ε → Bool)
    (R : σ → τ → Prop) : Prop where
  left : ∀ s t e, visible e = false → R s t → R (step s e) t
  right : ∀ s t e, visible e = false → R s t → R s (step' t e)
  both : ∀ s t e, visible e = true → R s t → R (step s e) (step' t e)

namespace Unaffected

variable {step : σ → ε → σ} {step' : τ → ε → τ} {visible : ε → Bool} {R : σ → τ → Prop}
  {s : σ} {t : τ} {es fs : List ε}

/-- Hidden events of the right side. -/
theorem foldl_right (h : Unaffected step step' visible R) (hs : R s t)
    (hfs : ∀ e ∈ fs, visible e = false) : R s (fs.foldl step' t) := by
  induction fs generalizing t with
  | nil => exact hs
  | cons e rest ih =>
    rw [List.forall_mem_cons] at hfs
    exact ih (h.right s t e hfs.1 hs) hfs.2

/-- Sequences that show the same, by induction on the left one. -/
theorem foldl (h : Unaffected step step' visible R) (hs : R s t)
    (hshown : es.filter visible = fs.filter visible) :
    R (es.foldl step s) (fs.foldl step' t) := by
  induction es generalizing s t fs with
  | nil =>
    apply h.foldl_right hs
    intro e he
    have hnone := List.filter_eq_nil_iff.mp hshown.symm e he
    exact eq_false_of_ne_true hnone
  | cons e rest ih =>
    cases he : visible e with
    | false =>
      rw [List.filter_cons_of_neg (by simp [he])] at hshown
      exact ih (h.left s t e he hs) hshown
    | true =>
      rw [List.filter_cons_of_pos he] at hshown
      obtain ⟨before, after, rfl, hbefore, -, hafter⟩ := List.filter_eq_cons_iff.mp hshown.symm
      rw [List.foldl_append, List.foldl_cons, List.foldl_cons]
      have hhidden : R s (before.foldl step' t) :=
        h.foldl_right hs fun f hf => eq_false_of_ne_true (hbefore f hf)
      exact ih (h.both s _ e he hhidden) hafter.symm

end Unaffected

end Kit
