import Mathlib.Data.List.Nodup
import Mathlib.Data.List.Perm.Basic

/-! Items that are read one after another into a list in which no two have the same key.  Reading
stops at the first item that cannot be read or whose key is there already.  Which lists are read
does not depend on the order of their items; which error is raised does. -/

namespace Kit

variable {α β κ ε : Type} [DecidableEq κ]

/-- Reads item `i` and those after it, when `done` have been read. -/
def gather (read : Nat → α → Except ε β) (key : β → κ) (again : Nat → ε) :
    Nat → List β → List α → Except ε (List β)
  | _, done, [] => .ok done
  | i, done, a :: rest =>
    match read i a with
    | .error e => .error e
    | .ok b =>
      if key b ∈ done.map key then .error (again i)
      else gather read key again (i + 1) (done ++ [b]) rest

namespace gather

variable {read : Nat → α → Except ε β} {key : β → κ} {again : Nat → ε} {Reads : α → β → Prop}
  {i : Nat} {done all : List β} {items : List α}

theorem cons_read (rest : List α) {a : α} {b : β} (hread : read i a = .ok b)
    (hnew : key b ∉ done.map key) :
    gather read key again i done (a :: rest) =
      gather read key again (i + 1) (done ++ [b]) rest := by
  simp only [gather, hread, if_neg hnew]

omit [DecidableEq κ] in
theorem nodup_snoc {b : β} (hdone : (done.map key).Nodup) (hnew : key b ∉ done.map key) :
    ((done ++ [b]).map key).Nodup := by
  rw [List.map_append, List.map_singleton]
  exact hdone.append (List.nodup_singleton _) (by simpa using hnew)

/-- A list is read when all items are and no two keys are the same. -/
theorem ok_iff (hread : ∀ i a b, read i a = .ok b ↔ Reads a b) (hdone : (done.map key).Nodup) :
    gather read key again i done items = .ok all ↔
      ∃ new, all = done ++ new ∧ List.Forall₂ Reads items new ∧ (all.map key).Nodup := by
  induction items generalizing i done with
  | nil =>
    constructor
    · intro h
      obtain rfl := Except.ok.inj h
      exact ⟨[], (List.append_nil _).symm, .nil, hdone⟩
    · rintro ⟨new, rfl, hnew, -⟩
      obtain rfl := List.forall₂_nil_left_iff.mp hnew
      rw [List.append_nil]
      rfl
  | cons a rest ih =>
    constructor
    · intro h
      rw [gather] at h
      split at h
      · cases h
      · rename_i b hb
        split at h
        · cases h
        · rename_i hnew
          obtain ⟨new, hall, hforall, hnodup⟩ := (ih (nodup_snoc hdone hnew)).mp h
          refine ⟨b :: new, ?_, .cons ((hread i a b).mp hb) hforall, hnodup⟩
          rw [hall, List.append_assoc, List.singleton_append]
    · rintro ⟨new, rfl, hforall, hnodup⟩
      obtain ⟨b, new, hb, hrest, rfl⟩ := List.forall₂_cons_left_iff.mp hforall
      have hnew : key b ∉ done.map key := by
        rw [List.map_append, List.nodup_append] at hnodup
        exact fun hmem => hnodup.2.2 _ hmem _ (by simp) rfl
      have hsplit : done ++ b :: new = done ++ [b] ++ new := by simp
      rw [cons_read rest ((hread i a b).mpr hb) hnew]
      exact (ih (nodup_snoc hdone hnew)).mpr ⟨new, hsplit, hrest, hnodup⟩

/-- The error is that of the first item that cannot be read, or whose key is there already. -/
theorem error_iff (hread : ∀ i a b, read i a = .ok b ↔ Reads a b) (hdone : (done.map key).Nodup)
    {e : ε} :
    gather read key again i done items = .error e ↔
      ∃ before a after new, items = before ++ a :: after ∧ List.Forall₂ Reads before new ∧
        ((done ++ new).map key).Nodup ∧
        (read (i + before.length) a = .error e ∨
          ∃ b, Reads a b ∧ key b ∈ (done ++ new).map key ∧ again (i + before.length) = e) := by
  induction items generalizing i done with
  | nil =>
    constructor
    · intro h
      cases h
    · rintro ⟨before, a, after, new, hitems, -⟩
      simp at hitems
  | cons a rest ih =>
    constructor
    · intro h
      rw [gather] at h
      split at h
      · rename_i e' he
        obtain rfl := Except.error.inj h
        exact ⟨[], a, rest, [], rfl, .nil, by simpa using hdone, .inl he⟩
      · rename_i b hb
        split at h
        · rename_i hmem
          exact ⟨[], a, rest, [], rfl, .nil, by simpa using hdone,
            .inr ⟨b, (hread i a b).mp hb, by simpa using hmem, Except.error.inj h⟩⟩
        · rename_i hnew
          obtain ⟨before, a', after, new, rfl, hforall, hnodup, hfault⟩ :=
            (ih (nodup_snoc hdone hnew)).mp h
          refine ⟨a :: before, a', after, b :: new, rfl, .cons ((hread i a b).mp hb) hforall, ?_⟩
          rw [List.length_cons, show i + (before.length + 1) = i + 1 + before.length by omega]
          rw [List.append_assoc, List.singleton_append] at hnodup hfault
          exact ⟨hnodup, hfault⟩
    · rintro ⟨before, a', after, new, hitems, hforall, hnodup, hfault⟩
      cases before with
      | nil =>
        obtain ⟨rfl, rfl⟩ := List.cons.inj hitems
        obtain rfl := List.forall₂_nil_left_iff.mp hforall
        rw [List.append_nil] at hfault
        rcases hfault with he | ⟨b, hb, hmem, rfl⟩
        · simp only [gather, show read i a = .error e from he]
        · simp only [gather, (hread i a b).mpr hb, if_pos hmem]
          rfl
      | cons first before =>
        obtain ⟨rfl, rfl⟩ := List.cons.inj hitems
        obtain ⟨b, new, hb, hrest, rfl⟩ := List.forall₂_cons_left_iff.mp hforall
        have hnew : key b ∉ done.map key := by
          rw [List.map_append, List.nodup_append] at hnodup
          exact fun hmem => hnodup.2.2 _ hmem _ (by simp) rfl
        have hsplit : done ++ b :: new = done ++ [b] ++ new := by simp
        rw [hsplit] at hnodup hfault
        rw [List.length_cons, show i + (before.length + 1) = i + 1 + before.length by omega]
          at hfault
        rw [cons_read _ ((hread i a b).mpr hb) hnew]
        exact (ih (nodup_snoc hdone hnew)).mpr ⟨before, a', after, new, rfl, hrest, hnodup, hfault⟩

/-- Items in another order are read as the same, in that order. -/
theorem perm (hread : ∀ i a b, read i a = .ok b ↔ Reads a b) {items' : List α}
    (hperm : items.Perm items') (h : gather read key again 0 [] items = .ok all) :
    ∃ all', gather read key again 0 [] items' = .ok all' ∧ all.Perm all' := by
  have hnone : (([] : List β).map key).Nodup := List.nodup_nil
  obtain ⟨new, rfl, hforall, hnodup⟩ := (ok_iff hread hnone).mp h
  obtain ⟨new', hforall', hnew⟩ := List.perm_comp_forall₂ hperm.symm hforall
  refine ⟨new', (ok_iff hread hnone).mpr ⟨new', rfl, hforall', ?_⟩, hnew.symm⟩
  exact (hnew.map key).nodup_iff.mpr hnodup

end gather

end Kit
