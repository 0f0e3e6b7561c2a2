import Mathlib.Data.List.Basic

/-! Runs of a machine whose steps are named by events: `step s e` is the state after event `e` in
state `s`, when `e` can happen there.  A run may carry a condition on its steps, so that a
statement can range over the runs that never take a certain step. -/

namespace Kit

variable {σ ε : Type}

/-- The events `es`, each allowed by `ok` in the state where it happens, lead from `s` to the last
state. -/
inductive Run (step : σ → ε → Option σ) (ok : σ → ε → Prop) (s : σ) : List ε → σ → Prop
  | nil : Run step ok s [] s
  | snoc {es : List ε} {t u : σ} {e : ε} :
      Run step ok s es t → ok t e → step t e = some u → Run step ok s (es ++ [e]) u

/-- The condition that allows every step. -/
def Always (_ : σ) (_ : ε) : Prop := True

namespace Run

variable {step : σ → ε → Option σ} {ok : σ → ε → Prop} {s t u : σ} {es fs : List ε}

theorem single {e : ε} (hok : ok s e) (h : step s e = some t) : Run step ok s [e] t :=
  .snoc .nil hok h

theorem trans (h1 : Run step ok s es t) (h2 : Run step ok t fs u) : Run step ok s (es ++ fs) u := by
  induction h2 with
  | nil => simpa using h1
  | snoc _ hok hstep ih =>
    rw [← List.append_assoc]
    exact .snoc ih hok hstep

/-- A run of some events and then others. -/
theorem split (h : Run step ok s (es ++ fs) u) :
    ∃ t, Run step ok s es t ∧ Run step ok t fs u := by
  generalize hall : es ++ fs = all at h
  induction h generalizing fs with
  | nil =>
    obtain ⟨rfl, rfl⟩ := List.append_eq_nil_iff.mp hall
    exact ⟨s, .nil, .nil⟩
  | @snoc before t u e hrun hok hstep ih =>
    rcases List.eq_nil_or_concat fs with rfl | ⟨rest, last, rfl⟩
    · rw [List.append_nil] at hall
      subst hall
      exact ⟨u, .snoc hrun hok hstep, .nil⟩
    · rw [List.concat_eq_append] at hall ⊢
      rw [← List.append_assoc] at hall
      obtain ⟨hbefore, hlast⟩ := List.append_inj' hall rfl
      obtain rfl := List.singleton_inj.mp hlast
      obtain ⟨mid, hfirst, hlater⟩ := ih hbefore
      exact ⟨mid, hfirst, .snoc hlater hok hstep⟩

theorem cons {e : ε} (hok : ok s e) (h : step s e = some t) (rest : Run step ok t fs u) :
    Run step ok s (e :: fs) u :=
  (single hok h).trans rest

/-- The condition of a run may be exchanged, step by step, for one that it implies along the
run. -/
theorem exchange {ok' : σ → ε → Prop} (h : Run step ok s es t)
    (himp : ∀ fs t e u, Run step ok s fs t → Run step ok' s fs t → ok t e → step t e = some u →
      ok' t e) : Run step ok' s es t := by
  induction h with
  | nil => exact .nil
  | snoc hrun hok hstep ih => exact .snoc ih (himp _ _ _ _ hrun ih hok hstep) hstep

theorem weaken {ok' : σ → ε → Prop} (h : Run step ok s es t) (himp : ∀ t e, ok t e → ok' t e) :
    Run step ok' s es t :=
  h.exchange fun _ t e _ _ _ hok _ => himp t e hok

/-- A property that every allowed step preserves holds at the end of a run. -/
theorem preserves {Inv : σ → Prop} (h : Run step ok s es t) (hs : Inv s)
    (hstep : ∀ t e u, Inv t → ok t e → step t e = some u → Inv u) : Inv t := by
  induction h with
  | nil => exact hs
  | snoc _ hok hst ih => exact hstep _ _ _ ih hok hst

/-- A property of the state and the events that led to it, which every allowed step preserves. -/
theorem traces {Inv : List ε → σ → Prop} (h : Run step ok s es t) (hs : Inv [] s)
    (hstep : ∀ fs t e u, Inv fs t → ok t e → step t e = some u → Inv (fs ++ [e]) u) : Inv es t := by
  induction h with
  | nil => exact hs
  | snoc _ hok hst ih => exact hstep _ _ _ _ ih hok hst

/-- A reflexive and transitive relation that every allowed step from an invariant state respects
relates the ends of a run. -/
theorem relates (h : Run step ok s es t) (Inv : σ → Prop) (R : σ → σ → Prop) (hs : Inv s)
    (hrefl : ∀ s, R s s) (htrans : ∀ s t u, R s t → R t u → R s u)
    (hstep : ∀ t e u, Inv t → ok t e → step t e = some u → Inv u ∧ R t u) : R s t := by
  induction h with
  | nil => exact hrefl s
  | snoc hrun hok hst ih =>
    have hinv := hrun.preserves hs fun t e u ht hok hst => (hstep t e u ht hok hst).1
    exact htrans _ _ _ ih (hstep _ _ _ hinv hok hst).2

/-- The state after some events, when all of them can happen. -/
def execute (step : σ → ε → Option σ) : σ → List ε → Option σ
  | s, [] => some s
  | s, e :: rest => (step s e).bind fun t => execute step t rest

theorem of_execute_allowed {es : List ε} {s t : σ} (hok : ∀ u, ∀ e ∈ es, ok u e)
    (h : execute step s es = some t) : Run step ok s es t := by
  induction es generalizing s with
  | nil =>
    obtain rfl := Option.some.inj h
    exact .nil
  | cons e rest ih =>
    obtain ⟨u, hu, hrest⟩ := Option.bind_eq_some_iff.mp h
    exact cons (hok s e (by simp)) hu (ih (fun u f hf => hok u f (by simp [hf])) hrest)

/-- A run whose steps are checked one by one. -/
theorem of_execute_guarded [∀ s e, Decidable (ok s e)] {es : List ε} {s t : σ}
    (h : execute (fun s e => if ok s e then step s e else none) s es = some t) :
    Run step ok s es t := by
  induction es generalizing s with
  | nil =>
    obtain rfl := Option.some.inj h
    exact .nil
  | cons e rest ih =>
    obtain ⟨u, hu, hrest⟩ := Option.bind_eq_some_iff.mp h
    dsimp only at hu
    split at hu
    · rename_i hok
      exact cons hok hu (ih hrest)
    · cases hu

theorem of_execute {es : List ε} {s t : σ} (h : execute step s es = some t) :
    Run step Always s es t :=
  of_execute_allowed (fun _ _ _ => trivial) h

end Run

end Kit
