import BleUsageMeter.Kit.Dict
import BleUsageMeter.Kit.Python

/-! `backend/schema.sql` and `backend/db.py`: the tables, the statements that write them, and a
connection with its transaction.  A statement that fails leaves the tables as they were. -/

namespace BleUsageMeter.Backend

open Kit

/-- A row of `devices`, under its `device_id`. -/
structure Device where
  publicKey : String
  label : Option String
  registeredAt : String
  lastAcceptedSequence : Int := -1
  lastAcceptedCount : Int := 0
deriving DecidableEq

/-- A row of `usage_reports`, in the order of the ids. -/
structure ReportRow where
  deviceId : String
  count : Int
  sequence : Int
  windowStart : String
  windowEnd : String
  signature : String
  receivedAt : String
deriving DecidableEq

/-- The columns of the `UNIQUE` constraint. -/
def ReportRow.key (row : ReportRow) : String × Int := (row.deviceId, row.sequence)

/-- What a column may hold, whatever its declared type. -/
inductive SqlValue
  | null
  | integer (n : Int)
  | text (s : String)
  | blob (bytes : List UInt8)
deriving DecidableEq

/-- A row of `policies`, under its `device_id`. -/
structure PolicyRow where
  active : SqlValue
  quotaUnits : SqlValue
  periodDays : SqlValue
  expiresOn : SqlValue
  notes : SqlValue
  active_notNull : active ≠ .null := by decide
deriving DecidableEq

/-- The tables, with the constraints that the schema declares. -/
structure Db where
  devices : Dict String Device
  usageReports : List ReportRow
  policies : Dict String PolicyRow
  unique : (usageReports.map ReportRow.key).Nodup
  references : ∀ row ∈ usageReports, (devices.get? row.deviceId).isSome
  policies_references : ∀ id, (policies.get? id).isSome → (devices.get? id).isSome

namespace Db

/-- The tables after `migrate`. -/
def empty : Db := ⟨.empty, [], .empty, List.nodup_nil, by simp, by simp⟩

/-- An integer that SQLite can bind. -/
def Bindable (n : Int) : Prop := -9223372036854775808 ≤ n ∧ n < 9223372036854775808

instance (n : Int) : Decidable (Bindable n) :=
  inferInstanceAs (Decidable (_ ∧ _))

theorem references_insert {devices : Dict String Device} {id : String} {device : Device}
    {j : String} (h : (devices.get? j).isSome) : ((devices.insert id device).get? j).isSome := by
  rw [Dict.get?_insert]
  split
  · rfl
  · exact h

/-- `INSERT INTO devices`, which fails on the primary key. -/
def insertDevice (id : String) (device : Device) (db : Db) : Except PyException Db :=
  if (db.devices.get? id).isSome then .error .integrityError
  else .ok
    { db with
      devices := db.devices.insert id device
      references := fun row h => references_insert (db.references row h)
      policies_references := fun j h => references_insert (db.policies_references j h) }

/-- `INSERT INTO usage_reports`. -/
def insertReport (row : ReportRow) (db : Db) : Except PyException Db :=
  if ¬(Bindable row.count ∧ Bindable row.sequence) then .error .overflowError
  else if hunique : row.key ∈ db.usageReports.map ReportRow.key then .error .integrityError
  else if hreferences : (db.devices.get? row.deviceId).isSome then .ok
    { db with
      usageReports := db.usageReports ++ [row]
      unique := by
        simp only [List.map_append, List.map_cons, List.map_nil]
        exact db.unique.append (List.nodup_singleton _) (by simpa using hunique)
      references := fun r h => by
        rcases List.mem_append.mp h with h | h
        · exact db.references r h
        · rw [List.mem_singleton.mp h]; exact hreferences }
  else .error .integrityError

def Device.withMarks (sequence count : Int) (device : Device) : Device :=
  { device with lastAcceptedSequence := sequence, lastAcceptedCount := count }

theorem references_modify {devices : Dict String Device} {id j : String} {f : Device → Device}
    (h : (devices.get? j).isSome) : ((devices.modify id f).get? j).isSome := by
  rw [Dict.get?_modify]
  split
  · simpa using h
  · exact h

/-- `UPDATE devices SET last_accepted_sequence = ?, last_accepted_count = ?`. -/
def updateMarks (id : String) (sequence count : Int) (db : Db) : Except PyException Db :=
  if ¬(Bindable sequence ∧ Bindable count) then .error .overflowError
  else .ok
    { db with
      devices := db.devices.modify id (Device.withMarks sequence count)
      references := fun row h => references_modify (db.references row h)
      policies_references := fun j h => references_modify (db.policies_references j h) }

section InsertReport

variable {row : ReportRow} {db : Db}

theorem insertReport_overflow (h : ¬(Bindable row.count ∧ Bindable row.sequence)) :
    db.insertReport row = .error .overflowError := by
  simp only [insertReport, h, not_false_eq_true, if_true]

theorem insertReport_conflict (hbind : Bindable row.count ∧ Bindable row.sequence)
    (h : row.key ∈ db.usageReports.map ReportRow.key ∨ db.devices.get? row.deviceId = none) :
    db.insertReport row = .error .integrityError := by
  unfold insertReport
  rw [if_neg (not_not_intro hbind)]
  split
  · rfl
  · rename_i hunique
    rw [dif_neg (by simp [h.resolve_left hunique])]

theorem insertReport_appends (hbind : Bindable row.count ∧ Bindable row.sequence)
    (hunique : row.key ∉ db.usageReports.map ReportRow.key)
    (hreferences : (db.devices.get? row.deviceId).isSome) :
    ∃ after, db.insertReport row = .ok after ∧
      after.usageReports = db.usageReports ++ [row] ∧ after.devices = db.devices ∧
      after.policies = db.policies := by
  unfold insertReport
  rw [if_neg (not_not_intro hbind), dif_neg hunique, dif_pos hreferences]
  exact ⟨_, rfl, rfl, rfl, rfl⟩

end InsertReport

theorem updateMarks_spec (id : String) {sequence count : Int} (db : Db)
    (hbind : Bindable sequence ∧ Bindable count) :
    ∃ after, db.updateMarks id sequence count = .ok after ∧
      after.usageReports = db.usageReports ∧
      after.devices = db.devices.modify id (Device.withMarks sequence count) ∧
      after.policies = db.policies := by
  unfold updateMarks
  rw [if_neg (not_not_intro hbind)]
  exact ⟨_, rfl, rfl, rfl, rfl⟩

/-- The operator's `INSERT` or `UPDATE` of a policy. -/
def setPolicy (id : String) (row : PolicyRow) (db : Db) : Except PyException Db :=
  if h : (db.devices.get? id).isSome then .ok
    { db with
      policies := db.policies.insert id row
      policies_references := fun j hj => by
        rw [Dict.get?_insert] at hj
        split at hj
        · rename_i e; exact e ▸ h
        · exact db.policies_references j hj }
  else .error .integrityError

/-- The rows of one device. -/
def reportsOf (db : Db) (id : String) : List ReportRow :=
  db.usageReports.filter (·.deviceId = id)

end Db

/-- The row that `ORDER BY sequence DESC LIMIT 1` selects. -/
def latest (rows : List ReportRow) : Option ReportRow :=
  rows.foldl (fun best row =>
    match best with
    | none => some row
    | some b => if b.sequence < row.sequence then some row else some b) none

theorem latest_append (rows : List ReportRow) (row : ReportRow) :
    latest (rows ++ [row]) =
      match latest rows with
      | none => some row
      | some b => if b.sequence < row.sequence then some row else some b := by
  simp [latest, List.foldl_append]

theorem latest_eq_none {rows : List ReportRow} (h : latest rows = none) : rows = [] := by
  cases rows using List.reverseRecOn with
  | nil => rfl
  | append_singleton rows row =>
    rw [latest_append] at h
    split at h
    · cases h
    · split at h <;> cases h

theorem latest_mem {rows : List ReportRow} {row : ReportRow} (h : latest rows = some row) :
    row ∈ rows := by
  induction rows using List.reverseRecOn with
  | nil => exact nomatch h
  | append_singleton rows last ih =>
    rw [latest_append] at h
    split at h
    · simp [Option.some.inj h]
    · rename_i b hb
      split at h
      · simp [Option.some.inj h]
      · exact List.mem_append_left _ (ih (hb.trans h))

/-- SQLite's order of byte strings. -/
def bytesLt : List UInt8 → List UInt8 → Bool
  | _, [] => false
  | [], _ :: _ => true
  | a :: s, b :: t => decide (a.toNat < b.toNat) || (decide (a = b) && bytesLt s t)

/-- SQLite's order of texts. -/
def textLt (s t : String) : Bool := bytesLt (utf8 s) (utf8 t)

/-! ### Transactions -/

/-- A connection: the tables as it sees them and, within a transaction, the tables that a rollback
restores. -/
structure Connection where
  db : Db
  saved : Option Db

/-- Code that runs statements on a connection and may raise. -/
abbrev Sql := ExceptT PyException (StateM Connection)

namespace Sql

variable {α β : Type}

/-- The result, or the exception, and the connection after it. -/
def exec (x : Sql α) (conn : Connection) : Except PyException α × Connection := x.run.run conn

theorem exec_pure (a : α) (conn : Connection) : (pure a : Sql α).exec conn = (.ok a, conn) := rfl

theorem exec_throw (e : PyException) (conn : Connection) :
    (throw e : Sql α).exec conn = (.error e, conn) := rfl

theorem exec_bind (x : Sql α) (f : α → Sql β) (conn : Connection) :
    (x >>= f).exec conn =
      match x.exec conn with
      | (.ok a, conn) => (f a).exec conn
      | (.error e, conn) => (.error e, conn) := by
  show (ExceptT.bindCont f (x.run.run conn).1).run (x.run.run conn).2 = _
  unfold exec
  rcases x.run.run conn with ⟨_ | _, _⟩ <;> rfl

theorem exec_tryCatch (x : Sql α) (handle : PyException → Sql α) (conn : Connection) :
    (tryCatch x handle).exec conn =
      match x.exec conn with
      | (.ok a, conn) => (.ok a, conn)
      | (.error e, conn) => (handle e).exec conn := by
  have hcatch : tryCatch x handle = ExceptT.tryCatch x handle := rfl
  rw [hcatch]
  unfold exec ExceptT.tryCatch
  rw [ExceptT.run_mk, StateT.run_bind]
  rcases h : x.run.run conn with ⟨_ | _, _⟩ <;> simp only [ExceptT.run] at h <;> rw [h] <;> rfl

end Sql

/-- The statements of the transaction of `post_report`. -/
inductive Statement
  | begin
  | insert
  | update
  | commit
  | rollback
deriving DecidableEq

namespace Connection

/-- What `BEGIN IMMEDIATE`, `COMMIT` and `ROLLBACK` do, and `effect` for a statement that writes. -/
def apply (statement : Statement) (effect : Db → Except PyException Db) (conn : Connection) :
    Except PyException Connection :=
  match statement with
  | .begin => .ok { conn with saved := some conn.db }
  | .insert | .update => (effect conn.db).map fun db => { conn with db }
  | .commit => .ok { conn with saved := none }
  | .rollback => .ok ⟨conn.saved.getD conn.db, none⟩

/-- `conn.execute`, where an exception of the environment may strike instead. -/
def execute (fault : Option Statement) (statement : Statement)
    (effect : Db → Except PyException Db := .ok) : Sql Unit :=
  if fault = some statement then throw .interrupted
  else do
    match (← get).apply statement effect with
    | .ok conn => set conn
    | .error e => throw e

theorem exec_execute (fault : Option Statement) (statement : Statement)
    (effect : Db → Except PyException Db) (conn : Connection) :
    (execute fault statement effect).exec conn =
      if fault = some statement then (.error .interrupted, conn)
      else
        match conn.apply statement effect with
        | .ok conn => (.ok (), conn)
        | .error e => (.error e, conn) := by
  unfold execute
  split
  · rfl
  · show (match conn.apply statement effect with
      | .ok conn => set conn
      | .error e => throw e : Sql Unit).exec conn = _
    split <;> rfl

section

variable (fault : Option Statement) (effect : Db → Except PyException Db) (conn : Connection)

theorem exec_begin : (execute fault .begin effect).exec conn =
    if fault = some .begin then (.error .interrupted, conn)
    else (.ok (), { conn with saved := some conn.db }) := by
  rw [exec_execute]
  rfl

theorem exec_commit : (execute fault .commit effect).exec conn =
    if fault = some .commit then (.error .interrupted, conn)
    else (.ok (), { conn with saved := none }) := by
  rw [exec_execute]
  rfl

theorem exec_rollback : (execute fault .rollback effect).exec conn =
    if fault = some .rollback then (.error .interrupted, conn)
    else (.ok (), ⟨conn.saved.getD conn.db, none⟩) := by
  rw [exec_execute]
  rfl

theorem exec_write {statement : Statement} (h : statement = .insert ∨ statement = .update) :
    (execute fault statement effect).exec conn =
      if fault = some statement then (.error .interrupted, conn)
      else
        match effect conn.db with
        | .ok db => (.ok (), { conn with db })
        | .error e => (.error e, conn) := by
  rw [exec_execute]
  rcases h with rfl | rfl <;> simp only [apply] <;> cases effect conn.db <;> rfl

end

/-- `conn.close()`, which rolls back an open transaction. -/
def close (conn : Connection) : Db := conn.saved.getD conn.db

end Connection

/-- Runs a request handler on a connection of its own, as `get_conn` provides it. -/
def withConnection {α : Type} (db : Db) (handler : Sql α) : Db × Except PyException α :=
  let (result, conn) := handler.exec ⟨db, none⟩
  (conn.close, result)

section Transaction

variable {α : Type} (fault : Option Statement) (insert update : Db → Except PyException Db)
  (answer conflict : α)

/-- The handler of the exceptions of a transaction: an `IntegrityError` rolls back and has an
answer, and others pass. -/
def recover : PyException → Sql α
  | .integrityError => do
    Connection.execute fault .rollback
    return conflict
  | e => throw e

/-- A transaction of two writes. -/
def transaction : Sql α :=
  tryCatch
    (do
      Connection.execute fault .begin
      Connection.execute fault .insert insert
      Connection.execute fault .update update
      Connection.execute fault .commit
      return answer)
    (recover fault conflict)

/-- What a transaction does when no exception of the environment strikes. -/
def undisturbed (db : Db) : Db × Except PyException α :=
  match insert db >>= update with
  | .ok db => (db, .ok answer)
  | .error .integrityError => (db, .ok conflict)
  | .error e => (db, .error e)

section Undisturbed

variable {insert update} {answer conflict} {db after : Db}

theorem undisturbed_ok {inserted : Db} (hinsert : insert db = .ok inserted)
    (hupdate : update inserted = .ok after) :
    undisturbed insert update answer conflict db = (after, .ok answer) := by
  simp only [undisturbed, hinsert, bind, Except.bind, hupdate]

theorem undisturbed_conflict (h : insert db = .error .integrityError) :
    undisturbed insert update answer conflict db = (db, .ok conflict) := by
  simp only [undisturbed, h, bind, Except.bind]

theorem undisturbed_overflow (h : insert db = .error .overflowError) :
    undisturbed insert update answer conflict db = (db, .error .overflowError) := by
  simp only [undisturbed, h, bind, Except.bind]

end Undisturbed

theorem recover_cases (e : PyException) (conn : Connection) :
    ((recover fault conflict e).exec conn).2.close = conn.close ∧
      ((fault.isSome ∧ ((recover fault conflict e).exec conn).1 = .error .interrupted) ∨
        ((recover fault conflict e).exec conn).1 =
          if e = .integrityError then .ok conflict else .error e) := by
  by_cases he : e = .integrityError
  · subst he
    simp only [recover, Sql.exec_bind, Connection.exec_rollback, Sql.exec_pure, if_true]
    by_cases hfault : fault = some .rollback
    · simp [hfault]
    · simp [hfault, Connection.close]
  · have hthrow : recover fault conflict e = throw e := by cases e <;> first | rfl | contradiction
    rw [hthrow, Sql.exec_throw]
    simp [he]

/-- A transaction leaves the tables as they were and raises, or runs undisturbed. -/
theorem transaction_cases (db : Db) :
    (fault.isSome ∧ withConnection db (transaction fault insert update answer conflict) =
        (db, .error .interrupted)) ∨
      withConnection db (transaction fault insert update answer conflict) =
        undisturbed insert update answer conflict db := by
  have raised : ∀ e (conn : Connection), conn.close = db →
      (fault.isSome ∧ (((recover fault conflict e).exec conn).2.close,
        ((recover fault conflict e).exec conn).1) = (db, .error .interrupted)) ∨
      (((recover fault conflict e).exec conn).2.close,
        ((recover fault conflict e).exec conn).1) =
          (match (.error e : Except PyException Db) with
          | .ok db => (db, .ok answer)
          | .error .integrityError => (db, .ok conflict)
          | .error e => (db, .error e)) := by
    intro e conn hclose
    obtain ⟨hdb, hresult⟩ := recover_cases fault conflict e conn
    rw [hdb, hclose]
    rcases hresult with ⟨hfault, hresult⟩ | hresult
    · exact .inl ⟨hfault, by rw [hresult]⟩
    · right
      rw [hresult]
      cases e <;> rfl
  unfold withConnection transaction undisturbed
  simp only [Sql.exec_tryCatch, Sql.exec_bind, Connection.exec_begin, Connection.exec_commit,
    Sql.exec_pure, Connection.exec_write _ _ _ (.inl rfl), Connection.exec_write _ _ _ (.inr rfl)]
  by_cases hbegin : fault = some .begin
  · simp only [hbegin, if_true, Option.isSome_some, true_and]
    exact .inl rfl
  simp only [hbegin, if_false]
  by_cases hinsert : fault = some .insert
  · simp only [hinsert, if_true, Option.isSome_some, true_and]
    exact .inl rfl
  simp only [hinsert, if_false]
  cases insert db with
  | error e => exact raised e _ rfl
  | ok inserted =>
    simp only [bind, Except.bind]
    by_cases hupdate : fault = some .update
    · simp only [hupdate, if_true, Option.isSome_some, true_and]
      exact .inl rfl
    simp only [hupdate, if_false]
    cases update inserted with
    | error e => exact raised e _ rfl
    | ok updated =>
      by_cases hcommit : fault = some .commit
      · simp only [hcommit, if_true, Option.isSome_some, true_and]
        exact .inl rfl
      · simp only [hcommit, if_false]
        exact .inr rfl

theorem transaction_undisturbed (db : Db) :
    withConnection db (transaction none insert update answer conflict) =
      undisturbed insert update answer conflict db :=
  (transaction_cases none insert update answer conflict db).resolve_left (by simp)

end Transaction

end BleUsageMeter.Backend
