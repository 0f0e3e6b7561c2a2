import BleUsageMeter.Kit.Run
import BleUsageMeter.Kit.Table
import BleUsageMeter.Backend.Db

/-! `backend/schema.sql`: the table `usage_reports` as it is declared, for any values.  "An accepted
report is evidence", and the triggers refuse every change and deletion of a row; a `REPLACE` goes
around them. -/

namespace BleUsageMeter.Backend

open Kit

/-- A row of `usage_reports` with its id; `none` is `NULL`. -/
structure UsageReportsRow (V : Type) where
  id : V
  deviceId : Option V
  count : Option V
  sequence : Option V
  windowStart : Option V
  windowEnd : Option V
  signature : Option V
  receivedAt : Option V
deriving DecidableEq

variable {V : Type} [DecidableEq V]

/-- `CREATE TABLE usage_reports`, for the ids that `devices` has. -/
def usageReportsTable (registered : V → Bool) : Schema (UsageReportsRow V) V where
  rowid := UsageReportsRow.id
  uniques := [fun row => do return [← row.deviceId, ← row.sequence]]
  check row := row.deviceId.isSome && row.count.isSome && row.sequence.isSome &&
    row.windowStart.isSome && row.windowEnd.isSome && row.signature.isSome && row.receivedAt.isSome
  references row := row.deviceId.all registered
  updateRaises _ _ := true
  deleteRaises _ := true

/-- A statement against `usage_reports`, with the devices that are registered by then. -/
structure ReportStatement (V : Type) where
  registered : V → Bool
  statement : DataStatement (UsageReportsRow V)

namespace ReportStatement

def step (rows : List (UsageReportsRow V)) (e : ReportStatement V) :
    Option (List (UsageReportsRow V)) :=
  some ((usageReportsTable e.registered).execute rows e.statement)

/-- The statement is no `INSERT OR REPLACE` that replaces another row. -/
def Keeps (rows : List (UsageReportsRow V)) (e : ReportStatement V) : Prop :=
  ¬(usageReportsTable e.registered).Displaces rows e.statement

omit [DecidableEq V] in
theorem usageReports_appendOnly (registered : V → Bool) :
    (usageReportsTable registered).AppendOnly :=
  ⟨fun _ _ => rfl, fun _ => rfl⟩

theorem run_keeps {es : List (ReportStatement V)} {s t : List (UsageReportsRow V)}
    (h : Run step Keeps s es t) : ∀ row ∈ s, row ∈ t := by
  intro row hrow
  refine h.preserves hrow fun t e u ht hkeeps hstep => ?_
  obtain rfl := Option.some.inj hstep
  exact (usageReports_appendOnly e.registered).execute_keeps hkeeps row ht

/-- An `INSERT OR REPLACE` of one row, of a registered device, keeps the stored reports exactly when
it replaces none. -/
theorem replace_keeps_iff {registered : V → Bool} {rows : List (UsageReportsRow V)}
    {upserts : List (Upsert (UsageReportsRow V))} {new : UsageReportsRow V}
    (hdevice : new.deviceId.all registered = true) :
    (∀ row ∈ rows,
        row ∈ (usageReportsTable registered).execute rows (.insert .replace upserts [new])) ↔
      Keeps rows ⟨registered, .insert .replace upserts [new]⟩ := by
  constructor
  · intro hkept hdisplaces
    obtain ⟨row, hrow, hgone⟩ := Schema.execute_displaces hdisplaces hdevice
    exact hgone (hkept row hrow)
  · exact (usageReports_appendOnly registered).execute_keeps

end ReportStatement

/-! ### The `INSERT` of `post_report` -/

/-- A row as it is stored under an id. -/
def ReportRow.stored (id : Nat) (row : ReportRow) : UsageReportsRow SqlValue where
  id := .integer id
  deviceId := some (.text row.deviceId)
  count := some (.integer row.count)
  sequence := some (.integer row.sequence)
  windowStart := some (.text row.windowStart)
  windowEnd := some (.text row.windowEnd)
  signature := some (.text row.signature)
  receivedAt := some (.text row.receivedAt)

namespace Db

variable {db : Db} {row : ReportRow}

/-- The rows with their ids, which count from 1. -/
def storedReports (db : Db) : List (UsageReportsRow SqlValue) :=
  db.usageReports.mapIdx fun i row => row.stored (i + 1)

def registered (db : Db) : SqlValue → Bool
  | .text id => (db.devices.get? id).isSome
  | _ => false

/-- The next row clashes with a stored one exactly on the `UNIQUE` constraint. -/
theorem stored_conflicts (db : Db) (row : ReportRow) (registered : SqlValue → Bool) :
    (∃ stored ∈ db.storedReports, (usageReportsTable registered).conflicts
      (row.stored (db.usageReports.length + 1)) stored = true) ↔
      row.key ∈ db.usageReports.map ReportRow.key := by
  have hkeys : (usageReportsTable registered).keys =
    [fun row => some [row.id], fun row => do return [← row.deviceId, ← row.sequence]] := rfl
  simp only [storedReports, List.mem_mapIdx, Schema.conflicts, hkeys, List.any_cons, List.any_nil,
    Bool.or_false, Bool.or_eq_true, Schema.clash, Bool.and_eq_true, decide_eq_true_eq, List.mem_map]
  constructor
  · rintro ⟨_, ⟨i, hi, rfl⟩, ⟨-, hid⟩ | ⟨-, hkey⟩⟩
    · simp [ReportRow.stored] at hid
      omega
    · simp [ReportRow.stored] at hkey
      exact ⟨_, List.getElem_mem hi, by simp [ReportRow.key, hkey]⟩
  · rintro ⟨other, hother, hkey⟩
    obtain ⟨i, hi, rfl⟩ := List.getElem_of_mem hother
    obtain ⟨hdevice, hsequence⟩ := Prod.mk.inj hkey
    exact ⟨_, ⟨i, hi, rfl⟩, .inr ⟨rfl, by simp [ReportRow.stored, hdevice, hsequence]⟩⟩

/-- `insertReport` is what the statement does to the declared table. -/
theorem insertReport_executes (hbind : Bindable row.count ∧ Bindable row.sequence) :
    (usageReportsTable db.registered).execute db.storedReports
        (.insert .abort [] [row.stored (db.usageReports.length + 1)]) =
      match db.insertReport row with
      | .ok after => after.storedReports
      | .error _ => db.storedReports := by
  have hreferences : (usageReportsTable db.registered).references
      (row.stored (db.usageReports.length + 1)) = (db.devices.get? row.deviceId).isSome := rfl
  rw [Schema.execute_insert rfl]
  by_cases hconflict : row.key ∈ db.usageReports.map ReportRow.key ∨
      (db.devices.get? row.deviceId).isSome = false
  · rw [if_pos (by rwa [stored_conflicts, hreferences]),
      insertReport_conflict hbind (hconflict.imp_right (by simp))]
  · rw [if_neg (by rwa [stored_conflicts, hreferences])]
    obtain ⟨hunique, hdevice⟩ := not_or.mp hconflict
    obtain ⟨after, hinsert, hreports, -⟩ :=
      insertReport_appends hbind hunique (Bool.of_not_eq_false hdevice)
    rw [hinsert]
    simp only [storedReports, hreports, List.mapIdx_append, List.mapIdx_cons, List.mapIdx_nil,
      Nat.zero_add]

end Db

end BleUsageMeter.Backend
