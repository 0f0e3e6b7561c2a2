import Mathlib.Data.List.Basic
import BleUsageMeter.Kit.Run

/-! Parties over one shared state.  Any number of parties join, one after the other.  Each has a
state of its own, and a step of a party changes its own state and the shared one.  What every party
can rely on holds in all states when each step of a party keeps it for that party and disturbs it
for no other. -/

namespace Kit

variable {σ τ α ε : Type}

/-- The shared state and the states of the parties, in the order in which they joined. -/
structure Parties (σ τ : Type) where
  shared : σ
  members : List τ

/-- A party joins, or party `i` takes a step. -/
inductive PartyEvent (α ε : Type)
  | join (a : α)
  | act (i : Nat) (e : ε)

namespace Parties

section Step

variable (enter : σ → α → τ) (act : Nat → σ → τ → ε → Option (σ × τ))

def step (p : Parties σ τ) : PartyEvent α ε → Option (Parties σ τ)
  | .join a => some ⟨p.shared, p.members ++ [enter p.shared a]⟩
  | .act i e =>
    match p.members[i]? with
    | none => none
    | some member =>
      (act i p.shared member e).map fun (shared, member) => ⟨shared, p.members.set i member⟩

/-- A condition on what the parties do. -/
def Allows (ok : Nat → σ → τ → ε → Prop) (p : Parties σ τ) : PartyEvent α ε → Prop
  | .join _ => True
  | .act i e => ∀ member ∈ p.members[i]?, ok i p.shared member e

instance (ok : Nat → σ → τ → ε → Prop) [∀ i s t e, Decidable (ok i s t e)] (p : Parties σ τ) :
    (e : PartyEvent α ε) → Decidable (p.Allows ok e)
  | .join _ => isTrue trivial
  | .act i e => inferInstanceAs (Decidable (∀ member ∈ p.members[i]?, ok i p.shared member e))

end Step

variable {enter : σ → α → τ} {act : Nat → σ → τ → ε → Option (σ × τ)} {p q : Parties σ τ}

@[simp] theorem allows_join (ok : Nat → σ → τ → ε → Prop) (p : Parties σ τ) (a : α) :
    p.Allows ok (.join a) := trivial

/-- A step of a party, with the parties that joined before and after it. -/
theorem step_act {i : Nat} {e : ε} (h : p.step enter act (.act i e) = some q) :
    ∃ before member after member', before.length = i ∧ p.members = before ++ member :: after ∧
      act i p.shared member e = some (q.shared, member') ∧
      q.members = before ++ member' :: after := by
  simp only [step] at h
  split at h
  · cases h
  · rename_i member hmember
    obtain ⟨⟨shared, member'⟩, hact, rfl⟩ := Option.map_eq_some_iff.mp h
    obtain ⟨hi, rfl⟩ := List.getElem?_eq_some_iff.mp hmember
    obtain ⟨before, after, hmembers, hlength, hset⟩ := List.exists_of_set hi
    exact ⟨before, _, after, member', hlength, hmembers, hact, hset⟩

/-- A step of a party, by its number. -/
theorem step_act_set {i : Nat} {e : ε} (h : p.step enter act (.act i e) = some q) :
    ∃ member member', p.members[i]? = some member ∧
      act i p.shared member e = some (q.shared, member') ∧ q.members = p.members.set i member' := by
  simp only [step] at h
  split at h
  · cases h
  · rename_i member hmember
    obtain ⟨⟨shared, member'⟩, hact, rfl⟩ := Option.map_eq_some_iff.mp h
    exact ⟨member, member', hmember, hact, rfl⟩

/-! ### What the parties rely on -/

/-- Every party has, in its own state and the shared one, what it relies on. -/
def Relies (Local : σ → τ → Prop) (p : Parties σ τ) : Prop := ∀ t ∈ p.members, Local p.shared t

theorem relies_start (Local : σ → τ → Prop) (s : σ) : Relies Local ⟨s, []⟩ := by
  intro t ht
  cases ht

/-- A step keeps what a party relies on for that party and for all others, as they are set apart
from it. -/
theorem Relies.step_apart {Local : σ → τ → Prop} {R : τ → τ → Prop} (h : p.Relies Local)
    (hapart : p.members.Pairwise R) (hsymm : ∀ a b, R a b → R b a) {e : PartyEvent α ε}
    (hstep : p.step enter act e = some q) (hjoin : ∀ a, Local p.shared (enter p.shared a))
    (hact : ∀ i e' t t', e = .act i e' → p.members[i]? = some t →
      act i p.shared t e' = some (q.shared, t') →
      Local q.shared t' ∧ ∀ other, R t other → Local p.shared other → Local q.shared other) :
    q.Relies Local := by
  cases e with
  | join a =>
    obtain rfl := Option.some.inj hstep
    intro t ht
    rcases List.mem_append.mp ht with ht | ht
    · exact h t ht
    · obtain rfl := List.mem_singleton.mp ht
      exact hjoin a
  | act i e =>
    obtain ⟨before, member, after, member', rfl, hmembers, hmember, hq⟩ := step_act hstep
    obtain ⟨hself, hothers⟩ := hact _ e member member' rfl (by rw [hmembers]; simp) hmember
    rw [hmembers] at hapart
    obtain ⟨-, hrest, hacross⟩ := List.pairwise_append.mp hapart
    intro t ht
    rw [hq] at ht
    rcases List.mem_append.mp ht with ht | ht
    · exact hothers t (hsymm _ _ (hacross t ht member List.mem_cons_self))
        (h t (hmembers ▸ List.mem_append_left _ ht))
    · rcases List.mem_cons.mp ht with rfl | ht
      · exact hself
      · exact hothers t ((List.pairwise_cons.mp hrest).1 t ht)
          (h t (hmembers ▸ List.mem_append_right _ (List.mem_cons_of_mem _ ht)))

/-- A step keeps what a party relies on for that party and for all others. -/
theorem Relies.step {Local : σ → τ → Prop} (h : p.Relies Local) {e : PartyEvent α ε}
    (hstep : p.step enter act e = some q) (hjoin : ∀ a, Local p.shared (enter p.shared a))
    (hact : ∀ i e' t t', e = .act i e' → p.members[i]? = some t →
      act i p.shared t e' = some (q.shared, t') →
      Local q.shared t' ∧ ∀ other, Local p.shared other → Local q.shared other) :
    q.Relies Local := by
  have hapart : p.members.Pairwise fun _ _ => True := List.pairwise_of_forall fun _ _ => trivial
  refine h.step_apart hapart (fun _ _ _ => trivial) hstep hjoin ?_
  intro i e' t t' he ht hmember
  obtain ⟨hself, hothers⟩ := hact i e' t t' he ht hmember
  exact ⟨hself, fun other _ => hothers other⟩

/-! ### What sets the parties apart -/

/-- A step keeps all parties apart when it keeps the party that takes it apart from the others. -/
theorem pairwise_step {R : τ → τ → Prop} (hsymm : ∀ a b, R a b → R b a)
    (h : p.members.Pairwise R) {e : PartyEvent α ε} (hstep : p.step enter act e = some q)
    (hjoin : ∀ a, ∀ t ∈ p.members, R t (enter p.shared a))
    (hact : ∀ i e' t t', e = .act i e' → p.members[i]? = some t →
      act i p.shared t e' = some (q.shared, t') → ∀ other ∈ p.members, R other t → R other t') :
    q.members.Pairwise R := by
  cases e with
  | join a =>
    obtain rfl := Option.some.inj hstep
    refine List.pairwise_append.mpr ⟨h, List.pairwise_singleton _ _, ?_⟩
    intro t ht t' ht'
    obtain rfl := List.mem_singleton.mp ht'
    exact hjoin a t ht
  | act i e =>
    obtain ⟨before, member, after, member', rfl, hmembers, hmember, hq⟩ := step_act hstep
    have hkeep := hact _ e member member' rfl (by rw [hmembers]; simp) hmember
    rw [hmembers] at h hkeep
    obtain ⟨hbefore, hrest, hacross⟩ := List.pairwise_append.mp h
    obtain ⟨hmemberAfter, hafter⟩ := List.pairwise_cons.mp hrest
    rw [hq]
    refine List.pairwise_append.mpr ⟨hbefore, List.pairwise_cons.mpr ⟨?_, hafter⟩, ?_⟩
    · intro other hother
      exact hsymm _ _ (hkeep other (by simp [hother]) (hsymm _ _ (hmemberAfter other hother)))
    · intro a ha b hb
      rcases List.mem_cons.mp hb with rfl | hb
      · exact hkeep a (by simp [ha]) (hacross a ha member List.mem_cons_self)
      · exact hacross a ha b (List.mem_cons_of_mem _ hb)

/-! ### Counting parties -/

/-- The number of parties with a property. -/
def count (P : τ → Bool) (p : Parties σ τ) : Nat := p.members.countP P

theorem count_split {P : τ → Bool} {before after : List τ} {member : τ}
    (h : p.members = before ++ member :: after) :
    p.count P = before.countP P + after.countP P + if P member then 1 else 0 := by
  rw [count, h, List.countP_append, List.countP_cons]
  omega

end Parties

end Kit
