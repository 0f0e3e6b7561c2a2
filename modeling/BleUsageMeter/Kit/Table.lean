import Mathlib.Data.List.Pairwise

/-! A table of a SQL database, with its constraints and its triggers, and what the data statements
of SQLite do to it.  A `REPLACE` deletes the rows in its way without firing `DELETE` triggers, as
SQLite does while `recursive_triggers` is off.  `each_holds` and the rules after it derive an
invariant of a statement from what it does to single rows. -/

namespace Kit

/-- What a violated constraint leads to: the word after `OR`. -/
inductive Resolution
  | abort
  | rollback
  | fail
  | ignore
  | replace
deriving DecidableEq

/-- An `ON CONFLICT` clause.  The target is the place of a uniqueness constraint, or any of them.
`DO NOTHING` has no update; `DO UPDATE` sets a row from the stored and the given one where its
condition holds. -/
structure Upsert (ρ : Type) where
  target : Option Nat
  update : Option (ρ → ρ → Option ρ)

/-- A statement, with its conditions and values evaluated. -/
inductive DataStatement (ρ : Type)
  | insert (resolution : Resolution) (upserts : List (Upsert ρ)) (given : List ρ)
  | update (resolution : Resolution) (selects : ρ → Bool) (set : ρ → ρ)
  | delete (selects : ρ → Bool)

/-- How far a statement has come: it goes on, it has stopped and keeps what it did, or it is
undone. -/
inductive Progress (ρ : Type)
  | running (rows : List ρ)
  | stopped (rows : List ρ)
  | aborted

/-- A table whose rows are `ρ` and whose values are `κ`.  `uniques` gives the columns of each
`UNIQUE` constraint, if none is `NULL`, `check` is `NOT NULL` and `CHECK`, and the triggers run
before the change of a row. -/
structure Schema (ρ κ : Type) where
  rowid : ρ → κ
  uniques : List (ρ → Option (List κ))
  check : ρ → Bool
  references : ρ → Bool
  updateRaises : ρ → ρ → Bool
  deleteRaises : ρ → Bool

variable {ρ κ β : Type}

/-- The outcome of a row that violates a constraint.  Outside a transaction `ROLLBACK` is `ABORT`,
and `REPLACE` is where nothing can be replaced. -/
def Resolution.violated (resolution : Resolution) (rows : List ρ) : Progress ρ :=
  match resolution with
  | .ignore => .running rows
  | .fail => .stopped rows
  | .abort | .rollback | .replace => .aborted

/-- Goes through a list row by row, while the statement goes on. -/
def each (f : List ρ → β → Progress ρ) : List ρ → List β → Progress ρ
  | rows, [] => .running rows
  | rows, b :: rest =>
    match f rows b with
    | .running rows => each f rows rest
    | .stopped rows => .stopped rows
    | .aborted => .aborted

/-- The rows satisfy `P`, unless the statement is undone. -/
def Progress.Holds (P : List ρ → Prop) : Progress ρ → Prop
  | .running rows => P rows
  | .stopped rows => P rows
  | .aborted => True

section

variable {P : List ρ → Prop} {rows : List ρ}

theorem Progress.Holds.imp {Q : List ρ → Prop} {p : Progress ρ} (h : p.Holds P)
    (himp : ∀ rows, P rows → Q rows) : p.Holds Q := by
  cases p with
  | running rows => exact himp rows h
  | stopped rows => exact himp rows h
  | aborted => trivial

theorem Resolution.violated_holds (resolution : Resolution) (h : P rows) :
    (resolution.violated rows).Holds P := by
  cases resolution with
  | abort => trivial
  | rollback => trivial
  | fail => exact h
  | ignore => exact h
  | replace => trivial

/-- What every row keeps, the statement keeps. -/
theorem each_holds {f : List ρ → β → Progress ρ} {list : List β} (h : P rows)
    (hf : ∀ rows, ∀ b ∈ list, P rows → (f rows b).Holds P) : (each f rows list).Holds P := by
  induction list generalizing rows with
  | nil => exact h
  | cons b rest ih =>
    have hb := hf rows b (by simp) h
    rw [each]
    split
    · rename_i next hnext
      rw [hnext] at hb
      exact ih hb fun rows c hc => hf rows c (by simp [hc])
    · rename_i next hnext
      rwa [hnext] at hb
    · trivial

/-- What every row keeps, given the rows that came before it. -/
theorem each_traces {P : List β → List ρ → Prop} {f : List ρ → β → Progress ρ} {list : List β}
    (h : P [] rows) (hf : ∀ done b rest rows, done ++ b :: rest = list → P done rows →
      (f rows b).Holds (P (done ++ [b]))) :
    (each f rows list).Holds fun rows => ∃ done, P done rows := by
  suffices hall : ∀ rest done rows, done ++ rest = list → P done rows →
      (each f rows rest).Holds fun rows => ∃ done, P done rows from hall list [] rows rfl h
  intro rest
  induction rest with
  | nil => exact fun done rows _ hrows => ⟨done, hrows⟩
  | cons b rest ih =>
    intro done rows hlist hrows
    have hb := hf done b rest rows hlist hrows
    rw [each]
    split
    · rename_i next hnext
      rw [hnext] at hb
      exact ih (done ++ [b]) next (by simpa using hlist) hb
    · rename_i next hnext
      rw [hnext] at hb
      exact ⟨_, hb⟩
    · trivial

end

namespace Schema

variable [DecidableEq κ] (S : Schema ρ κ)

/-- The uniqueness constraints; that of the rowid is the first. -/
def keys : List (ρ → Option (List κ)) := (fun row => some [S.rowid row]) :: S.uniques

/-- Both rows have the same values in the columns of a constraint. -/
def clash (key : ρ → Option (List κ)) (new row : ρ) : Bool :=
  (key new).isSome && decide (key new = key row)

def conflicts (new row : ρ) : Bool := S.keys.any fun key => clash key new row

/-- A stored row in conflict with a given one on the target of a clause. -/
def clashAt (target : Option Nat) (rows : List ρ) (new : ρ) : Option ρ :=
  rows.find? fun row =>
    match target with
    | none => S.conflicts new row
    | some k => S.keys[k]?.any fun key => clash key new row

/-- The first clause that applies to a given row, and the stored row that it applies to. -/
def firstUpsert (upserts : List (Upsert ρ)) (rows : List ρ) (new : ρ) : Option (ρ × Upsert ρ) :=
  upserts.findSome? fun upsert => (S.clashAt upsert.target rows new).map fun old => (old, upsert)

/-- The rows with `new` added and those in its way removed. -/
def addRow (rows : List ρ) (new : ρ) : List ρ :=
  rows.filter (fun row => ¬S.conflicts new row) ++ [new]

/-- The rows with `new` in the place of `old` and those in its way removed. -/
def setRow (rows : List ρ) (old new : ρ) : List ρ :=
  (rows.filter fun row => S.rowid row = S.rowid old ∨ ¬S.conflicts new row).map fun row =>
    if S.rowid row = S.rowid old then new else row

def updateRow (resolution : Resolution) (rows : List ρ) (old new : ρ) : Progress ρ :=
  if S.updateRaises old new then .aborted
  else if ¬S.check new then resolution.violated rows
  else if resolution ≠ .replace ∧
      ∃ row ∈ rows, S.rowid row ≠ S.rowid old ∧ S.conflicts new row then resolution.violated rows
  else .running (S.setRow rows old new)

def insertRow (resolution : Resolution) (upserts : List (Upsert ρ)) (rows : List ρ) (new : ρ) :
    Progress ρ :=
  if ¬S.check new then resolution.violated rows
  else
    match S.firstUpsert upserts rows new with
    | some (old, ⟨_, some update⟩) =>
      match update old new with
      | some row => S.updateRow .abort rows old row
      | none => .running rows
    | some (_, ⟨_, none⟩) => .running rows
    | none =>
      if resolution ≠ .replace ∧ ∃ row ∈ rows, S.conflicts new row then resolution.violated rows
      else .running (S.addRow rows new)

def deleteRow (rows : List ρ) (old : ρ) : Progress ρ :=
  if S.deleteRaises old then .aborted
  else .running (rows.filter fun row => S.rowid row ≠ S.rowid old)

/-- The row with a rowid as it is by now, if a statement has not removed it. -/
def current (rows : List ρ) (old : ρ) : Option ρ :=
  rows.find? fun row => S.rowid row = S.rowid old

def run (before : List ρ) : DataStatement ρ → Progress ρ
  | .insert resolution upserts given => each (S.insertRow resolution upserts) before given
  | .update resolution selects set =>
    each (fun rows old =>
      match S.current rows old with
      | some row => S.updateRow resolution rows row (set row)
      | none => .running rows) before (before.filter selects)
  | .delete selects => each S.deleteRow before (before.filter selects)

/-- Foreign keys are checked at the end of a statement. -/
def finish [DecidableEq ρ] (before rows : List ρ) : List ρ :=
  if ∀ row ∈ rows, row ∈ before ∨ S.references row then rows else before

/-- The rows after a statement.  One that is undone leaves the rows as they were. -/
def execute [DecidableEq ρ] (before : List ρ) (statement : DataStatement ρ) : List ρ :=
  match S.run before statement with
  | .running rows => S.finish before rows
  | .stopped rows => S.finish before rows
  | .aborted => before

/-! ### Rules -/

variable {S} {P : List ρ → Prop} {before rows : List ρ} {resolution : Resolution} {old new : ρ}

theorem execute_holds [DecidableEq ρ] {statement : DataStatement ρ} (h : P before)
    (hrun : (S.run before statement).Holds P) : P (S.execute before statement) := by
  unfold execute finish
  split
  · rename_i rows hrows
    rw [hrows] at hrun
    split
    · exact hrun
    · exact h
  · rename_i rows hrows
    rw [hrows] at hrun
    split
    · exact hrun
    · exact h
  · exact h

theorem updateRow_holds (h : P rows)
    (hset : S.updateRaises old new = false → S.check new = true →
      (resolution = .replace ∨
        ∀ row ∈ rows, S.rowid row ≠ S.rowid old → S.conflicts new row = false) →
      P (S.setRow rows old new)) : (S.updateRow resolution rows old new).Holds P := by
  unfold updateRow
  split
  · trivial
  · rename_i hraises
    split
    · exact resolution.violated_holds h
    · rename_i hcheck
      split
      · exact resolution.violated_holds h
      · rename_i hclear
        apply hset (by simpa using hraises) (by simpa using hcheck)
        by_cases hreplace : resolution = .replace
        · exact .inl hreplace
        · refine .inr fun row hrow hne => ?_
          by_contra hconflict
          exact hclear ⟨hreplace, row, hrow, hne, by simpa using hconflict⟩

theorem insertRow_holds {upserts : List (Upsert ρ)} (h : P rows)
    (hupdate : ∀ upsert ∈ upserts, ∀ update, upsert.update = some update → ∀ old ∈ rows, ∀ row,
      update old new = some row → (S.updateRow .abort rows old row).Holds P)
    (hadd : S.check new = true → S.firstUpsert upserts rows new = none →
      (resolution = .replace ∨ ∀ row ∈ rows, S.conflicts new row = false) →
      P (S.addRow rows new)) : (S.insertRow resolution upserts rows new).Holds P := by
  unfold insertRow
  split
  · exact resolution.violated_holds h
  · rename_i hcheck
    split
    · rename_i old target update hfirst
      obtain ⟨upsert, hmem, hclash⟩ := List.exists_of_findSome?_eq_some hfirst
      obtain ⟨old', hfind, heq⟩ := Option.map_eq_some_iff.mp hclash
      obtain ⟨rfl, rfl⟩ := Prod.mk.inj heq
      split
      · rename_i row hrow
        exact hupdate _ hmem update rfl _ (List.mem_of_find?_eq_some hfind) row hrow
      · exact h
    · exact h
    · rename_i hfirst
      split
      · exact resolution.violated_holds h
      · rename_i hclear
        apply hadd (by simpa using hcheck) hfirst
        by_cases hreplace : resolution = .replace
        · exact .inl hreplace
        · refine .inr fun row hrow => ?_
          by_contra hconflict
          exact hclear ⟨hreplace, row, hrow, by simpa using hconflict⟩

theorem deleteRow_holds (hdelete : S.deleteRaises old = false →
    P (rows.filter fun row => S.rowid row ≠ S.rowid old)) : (S.deleteRow rows old).Holds P := by
  unfold deleteRow
  split
  · trivial
  · rename_i hraises
    exact hdelete (by simpa using hraises)

theorem current_spec {row : ρ} (h : S.current rows old = some row) :
    row ∈ rows ∧ S.rowid row = S.rowid old :=
  ⟨List.mem_of_find?_eq_some h, by simpa using List.find?_some h⟩

theorem mem_addRow {row : ρ} :
    row ∈ S.addRow rows new ↔ (row ∈ rows ∧ S.conflicts new row = false) ∨ row = new := by
  simp [addRow]

theorem mem_setRow {row : ρ} : row ∈ S.setRow rows old new ↔
    (row = new ∧ ∃ same ∈ rows, S.rowid same = S.rowid old) ∨
      (row ∈ rows ∧ S.rowid row ≠ S.rowid old ∧ S.conflicts new row = false) := by
  unfold setRow
  simp only [List.mem_map, List.mem_filter, decide_eq_true_eq]
  constructor
  · rintro ⟨same, ⟨hmem, hkept⟩, rfl⟩
    by_cases hid : S.rowid same = S.rowid old
    · rw [if_pos hid]
      exact .inl ⟨rfl, same, hmem, hid⟩
    · rw [if_neg hid]
      exact .inr ⟨hmem, hid, by simpa [hid] using hkept⟩
  · rintro (⟨rfl, same, hmem, hid⟩ | ⟨hmem, hid, hclear⟩)
    · exact ⟨same, ⟨hmem, .inl hid⟩, if_pos hid⟩
    · exact ⟨row, ⟨hmem, .inr (by simp [hclear])⟩, if_neg hid⟩

theorem conflicts_of_rowid {a b : ρ} (h : S.rowid a = S.rowid b) : S.conflicts a b = true := by
  simp [conflicts, keys, clash, h]

/-- A plain `INSERT` of one row adds it, or changes nothing. -/
theorem execute_insert [DecidableEq ρ] (hcheck : S.check new = true) :
    S.execute before (.insert .abort [] [new]) =
      if (∃ row ∈ before, S.conflicts new row = true) ∨ S.references new = false then before
      else before ++ [new] := by
  have hinsert : S.insertRow .abort [] before new =
      if ∃ row ∈ before, S.conflicts new row = true then .aborted
      else .running (S.addRow before new) := by
    simp [insertRow, hcheck, firstUpsert, Resolution.violated]
  simp only [execute, run, each, hinsert]
  by_cases hconflict : ∃ row ∈ before, S.conflicts new row = true
  · simp only [hconflict, if_true, true_or]
  · have hclear : ∀ row ∈ before, S.conflicts new row = false := by simpa using hconflict
    have hnew : new ∉ before := by
      intro hmem
      have hself := hclear new hmem
      rw [conflicts_of_rowid rfl] at hself
      cases hself
    have hadd : S.addRow before new = before ++ [new] := by
      rw [addRow, List.filter_eq_self.mpr fun row hrow => by simp [hclear row hrow]]
    simp only [hconflict, if_false, false_or, finish, hadd]
    cases hreferences : S.references new with
    | true =>
      rw [if_pos]
      · simp
      · intro row hrow
        rcases List.mem_append.mp hrow with hrow | hrow
        · exact .inl hrow
        · exact .inr (List.mem_singleton.mp hrow ▸ hreferences)
    | false =>
      rw [if_neg]
      · simp
      · intro hall
        rcases hall new (by simp) with hmem | htrue
        · exact hnew hmem
        · cases hreferences.symm.trans htrue

/-! ### Constraints -/

variable (S) in
/-- The rows satisfy the constraints of the table. -/
structure Valid (rows : List ρ) : Prop where
  checked : ∀ row ∈ rows, S.check row = true
  unique : rows.Pairwise fun a b => S.conflicts a b = false

theorem conflicts_comm (a b : ρ) : S.conflicts a b = S.conflicts b a := by
  have hclash : ∀ key : ρ → Option (List κ), clash key a b = clash key b a := by
    intro key
    unfold clash
    by_cases h : key a = key b
    · simp [h]
    · simp [h, Ne.symm h]
  unfold conflicts
  simp only [hclash]

theorem Valid.eq_of_rowid (h : S.Valid rows) {a b : ρ} (ha : a ∈ rows) (hb : b ∈ rows)
    (hid : S.rowid a = S.rowid b) : a = b := by
  by_contra hne
  have : Std.Symm fun a b => S.conflicts a b = false :=
    ⟨fun _ _ hab => by rwa [conflicts_comm]⟩
  have hclear := h.unique.forall ha hb hne
  rw [conflicts_of_rowid hid] at hclear
  cases hclear

theorem Valid.filter (h : S.Valid rows) (keep : ρ → Bool) : S.Valid (rows.filter keep) :=
  ⟨fun row hrow => h.checked row (List.mem_filter.mp hrow).1, h.unique.filter keep⟩

theorem Valid.addRow (h : S.Valid rows) (hcheck : S.check new = true) :
    S.Valid (S.addRow rows new) := by
  refine ⟨?_, ?_⟩
  · intro row hrow
    rcases mem_addRow.mp hrow with ⟨hmem, -⟩ | rfl
    · exact h.checked row hmem
    · exact hcheck
  · refine List.pairwise_append.mpr ⟨h.unique.filter _, List.pairwise_singleton _ _, ?_⟩
    intro row hrow last hlast
    rw [List.mem_singleton.mp hlast, conflicts_comm]
    simpa using (List.mem_filter.mp hrow).2

theorem Valid.setRow (h : S.Valid rows) (hcheck : S.check new = true) :
    S.Valid (S.setRow rows old new) := by
  refine ⟨?_, ?_⟩
  · intro row hrow
    rcases mem_setRow.mp hrow with ⟨rfl, -⟩ | ⟨hmem, -⟩
    · exact hcheck
    · exact h.checked row hmem
  · refine List.pairwise_map.mpr ((h.unique.filter _).imp_of_mem ?_)
    intro a b ha hb hclear
    have hkept := (List.mem_filter.mp ha).2
    have hkept' := (List.mem_filter.mp hb).2
    by_cases haid : S.rowid a = S.rowid old
    · by_cases hbid : S.rowid b = S.rowid old
      · rw [conflicts_of_rowid (haid.trans hbid.symm)] at hclear
        cases hclear
      · rw [if_pos haid, if_neg hbid]
        simpa [hbid] using hkept'
    · rw [if_neg haid]
      by_cases hbid : S.rowid b = S.rowid old
      · rw [if_pos hbid, conflicts_comm]
        simpa [haid] using hkept
      · rwa [if_neg hbid]

theorem updateRow_valid (h : S.Valid rows) : (S.updateRow resolution rows old new).Holds S.Valid :=
  updateRow_holds h fun _ hcheck _ => h.setRow hcheck

theorem run_valid (h : S.Valid before) (statement : DataStatement ρ) :
    (S.run before statement).Holds S.Valid := by
  cases statement with
  | insert resolution upserts given =>
    refine each_holds h fun rows new _ hrows => ?_
    exact insertRow_holds hrows (fun _ _ _ _ _ _ _ _ => updateRow_valid hrows)
      fun hcheck _ _ => hrows.addRow hcheck
  | update resolution selects set =>
    refine each_holds h fun rows old _ hrows => ?_
    split
    · exact updateRow_valid hrows
    · exact hrows
  | delete selects =>
    exact each_holds h fun rows old _ hrows => deleteRow_holds fun _ => hrows.filter _

theorem execute_valid [DecidableEq ρ] (h : S.Valid before) (statement : DataStatement ρ) :
    S.Valid (S.execute before statement) :=
  execute_holds h (run_valid h statement)

theorem Valid.nodup (h : S.Valid rows) : rows.Nodup := by
  refine h.unique.imp fun {a b} hclear hab => ?_
  rw [conflicts_of_rowid (congrArg S.rowid hab)] at hclear
  cases hclear

/-! ### Append-only tables -/

variable (S) in
/-- The triggers refuse to change or to delete any row. -/
structure AppendOnly : Prop where
  updateRaises : ∀ old new, S.updateRaises old new = true
  deleteRaises : ∀ old, S.deleteRaises old = true

variable (S) in
/-- A given row that passes its checks, and that no `ON CONFLICT` clause catches, replaces another
row. -/
def Displaces (rows : List ρ) : DataStatement ρ → Prop
  | .insert .replace upserts given => ∃ new ∈ given, S.check new = true ∧
    S.firstUpsert upserts rows new = none ∧ ∃ row ∈ rows, row ≠ new ∧ S.conflicts new row = true
  | _ => False

theorem AppendOnly.updateRow (h : S.AppendOnly) :
    S.updateRow resolution rows old new = .aborted := if_pos (h.updateRaises old new)

theorem AppendOnly.deleteRow (h : S.AppendOnly) : S.deleteRow rows old = .aborted :=
  if_pos (h.deleteRaises old)

/-- A clause that applies to no row of a table applies to no row of a part of it. -/
theorem firstUpsert_mono {upserts : List (Upsert ρ)} (hsub : ∀ row ∈ before, row ∈ rows)
    (h : S.firstUpsert upserts rows new = none) : S.firstUpsert upserts before new = none := by
  unfold firstUpsert at h ⊢
  rw [List.findSome?_eq_none_iff] at h ⊢
  intro upsert hmem
  have hnone := Option.map_eq_none_iff.mp (h upsert hmem)
  unfold clashAt at hnone ⊢
  rw [List.find?_eq_none] at hnone
  rw [Option.map_eq_none_iff, List.find?_eq_none]
  exact fun row hrow => hnone row (hsub row hrow)

/-- Such a table keeps its rows under every statement that does not replace one. -/
theorem AppendOnly.execute_keeps [DecidableEq ρ] (h : S.AppendOnly) {statement : DataStatement ρ}
    (hsafe : ¬S.Displaces before statement) :
    ∀ row ∈ before, row ∈ S.execute before statement := by
  apply execute_holds (P := fun rows => ∀ row ∈ before, row ∈ rows) fun _ hrow => hrow
  cases statement with
  | insert resolution upserts given =>
    refine each_holds (fun _ hrow => hrow) fun rows new hgiven hrows => ?_
    apply insertRow_holds hrows
    · intro _ _ _ _ _ _ _ _
      rw [h.updateRow]
      trivial
    · intro hcheck hfirst hclear row hrow
      by_cases hnew : row = new
      · exact mem_addRow.mpr (.inr hnew)
      · refine mem_addRow.mpr (.inl ⟨hrows row hrow, ?_⟩)
        rcases hclear with rfl | hclear
        · by_contra hconflict
          exact hsafe ⟨new, hgiven, hcheck, firstUpsert_mono hrows hfirst, row, hrow, hnew,
            by simpa using hconflict⟩
        · exact hclear row (hrows row hrow)
  | update resolution selects set =>
    refine each_holds (fun _ hrow => hrow) fun rows old _ hrows => ?_
    split
    · rw [h.updateRow]
      trivial
    · exact hrows
  | delete selects =>
    refine each_holds (fun _ hrow => hrow) fun rows old _ hrows => ?_
    rw [h.deleteRow]
    trivial

/-- A single row that replaces another and refers to what exists removes the other. -/
theorem execute_displaces [DecidableEq ρ] {upserts : List (Upsert ρ)}
    (h : S.Displaces before (.insert .replace upserts [new])) (hreferences : S.references new) :
    ∃ row ∈ before, row ∉ S.execute before (.insert .replace upserts [new]) := by
  obtain ⟨new', hgiven, hcheck, hfirst, row, hrow, hne, hconflict⟩ := h
  obtain rfl := List.mem_singleton.mp hgiven
  have hinsert : S.insertRow .replace upserts before new' = .running (S.addRow before new') := by
    simp [insertRow, hcheck, hfirst]
  have hfinish : ∀ row ∈ S.addRow before new', row ∈ before ∨ S.references row = true := by
    intro row hmem
    rcases mem_addRow.mp hmem with ⟨hbefore, -⟩ | rfl
    · exact .inl hbefore
    · exact .inr hreferences
  refine ⟨row, hrow, ?_⟩
  simp only [execute, run, each, hinsert, finish, if_pos hfinish]
  rw [mem_addRow, hconflict]
  simp [hne]

end Schema

end Kit
