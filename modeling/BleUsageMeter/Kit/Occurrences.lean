import Mathlib
import BleUsageMeter.Kit.Dict

/-! Dictionaries of counts, and `collections.Counter` over a list of keys: how often each occurs. -/

namespace Kit

variable {κ : Type} [DecidableEq κ]

theorem sum_insertEntry (k : κ) (v : Nat) (l : List (κ × Nat)) :
    ((Dict.insertEntry k v l).map Prod.snd).sum + (l.lookup k).getD 0 =
      (l.map Prod.snd).sum + v := by
  induction l with
  | nil => simp [Dict.insertEntry]
  | cons entry rest ih =>
    obtain ⟨j, w⟩ := entry
    rw [Dict.lookup_cons_ite]
    by_cases h : j = k
    · simp only [Dict.insertEntry, h, if_true, List.map_cons, List.sum_cons, Option.getD_some]
      omega
    · simp only [Dict.insertEntry, h, Ne.symm h, if_false, List.map_cons, List.sum_cons]
      omega

/-- The new value takes the place of the old one in the sum. -/
theorem Dict.sum_insert (d : Dict κ Nat) (k : κ) (v : Nat) :
    ((d.insert k v).entries.map Prod.snd).sum + (d.get? k).getD 0 =
      (d.entries.map Prod.snd).sum + v :=
  sum_insertEntry k v d.entries

/-- One more occurrence of a key. -/
def countOne (d : Dict κ Nat) (k : κ) : Dict κ Nat := d.insert k ((d.get? k).getD 0 + 1)

def occurrences (keys : List κ) : Dict κ Nat := keys.foldl countOne .empty

theorem get?_foldl_countOne (keys : List κ) (d : Dict κ Nat) (k : κ) :
    (keys.foldl countOne d).get? k =
      if k ∈ keys then some ((d.get? k).getD 0 + keys.countP (· = k)) else d.get? k := by
  induction keys generalizing d with
  | nil => simp
  | cons j rest ih =>
    rw [List.foldl_cons, ih, countOne, Dict.get?_insert]
    by_cases hk : k = j
    · subst hk
      by_cases hrest : k ∈ rest
      · simp only [List.mem_cons, true_or, if_true, hrest, Option.getD_some, List.countP_cons,
          decide_true]
        congr 1
        omega
      · have hnone : rest.countP (· = k) = 0 := by
          rw [List.countP_eq_zero]
          rintro j hj heq
          exact hrest (of_decide_eq_true heq ▸ hj)
        simp [hrest, hnone]
    · have hj : j ≠ k := Ne.symm hk
      simp [hk, hj]

theorem mem_occurrences {keys : List κ} {k : κ} {n : Nat} :
    (k, n) ∈ (occurrences keys).entries ↔ k ∈ keys ∧ n = keys.countP (· = k) := by
  rw [Dict.mem_entries_iff, occurrences, get?_foldl_countOne, Dict.get?_empty]
  split
  · rename_i hk
    simp [hk, eq_comm]
  · rename_i hk
    simp [hk]

/-- All occurrences are counted once. -/
theorem sum_occurrences (keys : List κ) :
    ((occurrences keys).entries.map Prod.snd).sum = keys.length := by
  have hvalues : (occurrences keys).entries.map Prod.snd =
      ((occurrences keys).entries.map Prod.fst).map fun k => keys.count k := by
    rw [List.map_map]
    refine List.map_congr_left fun entry hentry => ?_
    rw [(mem_occurrences.mp hentry).2]
    exact (List.count_eq_countP ..).symm
  have hkeys : ((occurrences keys).entries.map Prod.fst).Perm keys.dedup := by
    rw [List.perm_ext_iff_of_nodup (occurrences keys).nodup keys.nodup_dedup]
    intro k
    rw [List.mem_dedup, List.mem_map]
    constructor
    · rintro ⟨entry, hentry, rfl⟩
      exact (mem_occurrences.mp hentry).1
    · intro hk
      exact ⟨(k, _), mem_occurrences.mpr ⟨hk, rfl⟩, rfl⟩
  rw [hvalues, (hkeys.map _).sum_eq, List.sum_map_count_dedup_eq_length]

/-- The members whose key is a new one or among the others. -/
theorem countP_key_cons {α : Type} {k : κ} {rest : List κ} (hk : k ∉ rest) (key : α → κ)
    (p : α → Bool) (l : List α) : (l.countP fun a => key a ∈ k :: rest ∧ p a) =
      (l.countP fun a => key a = k ∧ p a) + l.countP fun a => key a ∈ rest ∧ p a := by
  induction l with
  | nil => rfl
  | cons a l ih =>
    simp only [List.countP_cons, ih]
    by_cases hkey : key a = k
    · simp only [hkey, hk, List.mem_cons, true_and, false_and, decide_false, true_or,
        Bool.false_eq_true, if_false]
      omega
    · simp only [hkey, List.mem_cons, false_and, false_or, decide_false, Bool.false_eq_true,
        if_false]
      omega

/-- Under distinct keys, each member is counted once if its key is one of them. -/
theorem sum_countP_key {α : Type} {ks : List κ} (h : ks.Nodup) (key : α → κ) (p : α → Bool)
    (l : List α) : (ks.map fun k => l.countP fun a => key a = k ∧ p a).sum =
      l.countP fun a => key a ∈ ks ∧ p a := by
  induction ks with
  | nil => simp
  | cons k rest ih =>
    obtain ⟨hk, hrest⟩ := List.nodup_cons.mp h
    rw [List.map_cons, List.sum_cons, ih hrest, countP_key_cons hk]

end Kit
