import Mathlib.Data.List.Nodup

/-! Insertion-ordered dictionaries: lists of pairs whose keys are distinct.  `insert` replaces the
value of a key where the key stands and appends a new key at the end, which is how a Python `dict`,
an upsert into a table with a primary key, and a vector searched for its key all behave. -/

namespace Kit

/-- A list of key and value pairs whose keys are distinct. -/
structure Dict (κ ν : Type) where
  entries : List (κ × ν)
  nodup : (entries.map Prod.fst).Nodup
deriving DecidableEq

namespace Dict

variable {κ ν : Type}

def empty : Dict κ ν := ⟨[], List.nodup_nil⟩

variable [DecidableEq κ]

/-- The value of key `k`. -/
def get? (d : Dict κ ν) (k : κ) : Option ν := d.entries.lookup k

theorem lookup_cons_ite (k j : κ) (w : ν) (rest : List (κ × ν)) :
    ((j, w) :: rest).lookup k = if k = j then some w else rest.lookup k := by
  rw [List.lookup_cons]
  by_cases h : k = j
  · simp [h]
  · simp [h, beq_eq_false_iff_ne.mpr h]

/-- The list with the value of `k` replaced, or with `k` appended. -/
def insertEntry (k : κ) (v : ν) : List (κ × ν) → List (κ × ν)
  | [] => [(k, v)]
  | (j, w) :: rest => if j = k then (k, v) :: rest else (j, w) :: insertEntry k v rest

theorem insertEntry_keys (k : κ) (v : ν) (l : List (κ × ν)) :
    (insertEntry k v l).map Prod.fst =
      if k ∈ l.map Prod.fst then l.map Prod.fst else l.map Prod.fst ++ [k] := by
  induction l with
  | nil => simp [insertEntry]
  | cons entry rest ih =>
    obtain ⟨j, w⟩ := entry
    by_cases h : j = k
    · simp [insertEntry, h]
    · have hne : k ≠ j := fun e => h e.symm
      simp only [insertEntry, h, ite_false, List.map_cons, List.mem_cons, hne, false_or, ih]
      split <;> rfl

theorem insertEntry_nodup (k : κ) (v : ν) {l : List (κ × ν)} (h : (l.map Prod.fst).Nodup) :
    ((insertEntry k v l).map Prod.fst).Nodup := by
  rw [insertEntry_keys]
  split
  · exact h
  · rename_i fresh
    exact h.append (List.nodup_singleton k) (by simpa using fresh)

theorem lookup_insertEntry (k j : κ) (v : ν) (l : List (κ × ν)) :
    (insertEntry k v l).lookup j = if j = k then some v else l.lookup j := by
  induction l with
  | nil => simp only [insertEntry, lookup_cons_ite, List.lookup_nil]
  | cons entry rest ih =>
    obtain ⟨i, w⟩ := entry
    by_cases hik : i = k
    · subst hik
      by_cases hj : j = i <;> simp [insertEntry, lookup_cons_ite, hj]
    · by_cases hji : j = i
      · subst hji
        simp [insertEntry, hik]
      · simp [insertEntry, lookup_cons_ite, hik, hji, ih]

/-- `d` with the value of `k` set to `v`. -/
def insert (d : Dict κ ν) (k : κ) (v : ν) : Dict κ ν :=
  ⟨insertEntry k v d.entries, insertEntry_nodup k v d.nodup⟩

/-- `d` with `f` applied to the value of `k`, if there is one. -/
def modify (d : Dict κ ν) (k : κ) (f : ν → ν) : Dict κ ν :=
  match d.get? k with
  | some v => d.insert k (f v)
  | none => d

@[simp] theorem get?_empty (k : κ) : (empty : Dict κ ν).get? k = none := rfl

theorem get?_insert (d : Dict κ ν) (k j : κ) (v : ν) :
    (d.insert k v).get? j = if j = k then some v else d.get? j :=
  lookup_insertEntry k j v d.entries

@[simp] theorem get?_insert_self (d : Dict κ ν) (k : κ) (v : ν) :
    (d.insert k v).get? k = some v := by
  simp [get?_insert]

theorem get?_insert_ne (d : Dict κ ν) {k j : κ} (v : ν) (h : j ≠ k) :
    (d.insert k v).get? j = d.get? j := by
  simp [get?_insert, h]

theorem get?_modify (d : Dict κ ν) (k j : κ) (f : ν → ν) :
    (d.modify k f).get? j = if j = k then (d.get? j).map f else d.get? j := by
  unfold modify
  by_cases h : j = k
  · subst h
    cases hv : d.get? j <;> simp [hv]
  · cases d.get? k <;> simp [h, get?_insert]

theorem entries_insert_absent {d : Dict κ ν} {k : κ} (h : d.get? k = none) (v : ν) :
    (d.insert k v).entries = d.entries ++ [(k, v)] := by
  obtain ⟨l, hl⟩ := d
  simp only [get?, insert] at h ⊢
  induction l with
  | nil => rfl
  | cons entry rest ih =>
    obtain ⟨j, w⟩ := entry
    simp only [List.map_cons, List.nodup_cons] at hl
    rw [lookup_cons_ite] at h
    by_cases hj : k = j
    · simp [hj] at h
    · rw [if_neg hj] at h
      rw [insertEntry, if_neg (Ne.symm hj), ih hl.2 h, List.cons_append]
theorem head_insert (d : Dict κ ν) (k : κ) (v : ν) :
    (d.insert k v).entries.head?.map Prod.fst = (d.entries.head?.map Prod.fst).or (some k) := by
  obtain ⟨l, hl⟩ := d
  cases l with
  | nil => rfl
  | cons entry rest =>
    obtain ⟨j, w⟩ := entry
    by_cases h : j = k <;> simp [insert, insertEntry, h]

omit [DecidableEq κ] in
theorem eq_of_entries {d e : Dict κ ν} (h : d.entries = e.entries) : d = e := by
  obtain ⟨l, hl⟩ := d
  obtain ⟨m, hm⟩ := e
  obtain rfl : l = m := h
  rfl

/-- A pair is an entry exactly when its value is the value of its key. -/
theorem mem_entries_iff (d : Dict κ ν) {k : κ} {v : ν} :
    (k, v) ∈ d.entries ↔ d.get? k = some v := by
  obtain ⟨l, hl⟩ := d
  simp only [get?]
  induction l with
  | nil => simp
  | cons entry rest ih =>
    obtain ⟨j, w⟩ := entry
    simp only [List.map_cons, List.nodup_cons] at hl
    by_cases h : k = j
    · subst h
      have absent : (k, v) ∉ rest := fun mem => hl.1 (List.mem_map_of_mem mem)
      simp [absent, eq_comm]
    · simp [lookup_cons_ite, h, ih hl.2]

end Dict

end Kit
