import Mathlib.Data.Nat.Basic
import Mathlib.Data.List.Basic

/-! A ring of slots that is addressed by a counter modulo its capacity: entry number `n` is written
to slot `n % cap`. -/

namespace Kit

variable {α : Type*} {cap : Nat} {slots : Nat → Option α} {entries : List α}

/-- The slots hold the last entries, as many as they are.  The entries are given newest first. -/
def RingHolds (cap : Nat) (slots : Nat → Option α) (entries : List α) : Prop :=
  ∀ i < cap, i < entries.length → slots ((entries.length - 1 - i) % cap) = entries[i]?

theorem mod_ne_of_lt {a b : Nat} (hlt : a < b) (hturn : b < a + cap) : a % cap ≠ b % cap := by
  intro h
  have hdvd : cap ∣ b - a := Nat.dvd_of_mod_eq_zero (Nat.sub_mod_eq_zero_of_mod_eq h.symm)
  have := Nat.le_of_dvd (by omega) hdvd
  omega

theorem ringHolds_nil : RingHolds cap slots ([] : List α) := fun _ _ h => nomatch h

/-- Writing the next entry to its slot keeps the others but the oldest. -/
theorem RingHolds.push {slots' : Nat → Option α} {e : α} (h : RingHolds cap slots entries)
    (hnew : slots' (entries.length % cap) = some e)
    (hold : ∀ k < cap, k ≠ entries.length % cap → slots' k = slots k) :
    RingHolds cap slots' (e :: entries) := by
  intro i hi hlength
  cases i with
  | zero => simpa using hnew
  | succ i =>
    rw [List.length_cons] at hlength
    have hindex : (e :: entries).length - 1 - (i + 1) = entries.length - 1 - i := by
      rw [List.length_cons]
      omega
    rw [hindex, List.getElem?_cons_succ, ← h i (by omega) (by omega)]
    exact hold _ (Nat.mod_lt _ (by omega)) (mod_ne_of_lt (by omega) (by omega))

/-- Reading from the newest entry on gives the entries. -/
theorem RingHolds.read (h : RingHolds cap slots entries) {n : Nat} (hcap : n ≤ cap)
    (hlength : n ≤ entries.length) :
    (List.range n).filterMap (fun i => slots ((entries.length - 1 - i) % cap)) =
      entries.take n := by
  induction n with
  | zero => rfl
  | succ n ih =>
    have hget : entries[n]? = some entries[n] := List.getElem?_eq_getElem (by omega)
    rw [List.range_succ, List.filterMap_append, ih (by omega) (by omega), List.take_add_one, hget,
      List.filterMap_cons, h n (by omega) (by omega), hget]
    rfl

/-- Slots that are all filled up to a number hold some entries. -/
theorem exists_ringHolds {n : Nat} (h : ∀ k < n, (slots (k % cap)).isSome) :
    ∃ entries : List α, entries.length = n ∧ RingHolds cap slots entries := by
  have hsome : ∀ i : Fin n, ∃ e, slots ((n - 1 - i) % cap) = some e := fun i =>
    Option.isSome_iff_exists.mp (h _ (by omega))
  choose entry hentry using hsome
  refine ⟨List.ofFn entry, List.length_ofFn, ?_⟩
  intro i _ hi
  rw [List.length_ofFn] at hi ⊢
  rw [hentry ⟨i, hi⟩, List.getElem?_ofFn, dif_pos hi]

end Kit
