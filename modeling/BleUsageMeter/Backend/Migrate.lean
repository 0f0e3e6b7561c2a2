import BleUsageMeter.Backend.Calls
import BleUsageMeter.Kit.Parties

/-! `migrate` of `backend/db.py`, which `get_conn` runs for every request before its handler.  Each
statement of `schema.sql` is a transaction of its own, the statements of concurrent requests
interleave, and a connection may end between any two of them, as when its process is killed or it
waits in vain for SQLite's lock.  The row of `schema_migrations` is written last, so that a
connection which finds it need not look at the schema. -/

namespace BleUsageMeter.Backend

open Kit

/-- What the statements of `schema.sql` create. -/
inductive SchemaObject
  | schemaMigrations
  | devices
  | usageReports
  | idxUsageReportsDeviceWindow
  | usageReportsNoUpdate
  | usageReportsNoDelete
  | policies
deriving DecidableEq

/-- The table that an index or a trigger is on. -/
def SchemaObject.on? : SchemaObject → Option SchemaObject
  | .idxUsageReportsDeviceWindow => some .usageReports
  | .usageReportsNoUpdate => some .usageReports
  | .usageReportsNoDelete => some .usageReports
  | _ => none

/-- The objects of `schema.sql`, in its order. -/
def schemaSql : List SchemaObject :=
  [.schemaMigrations, .devices, .usageReports, .idxUsageReportsDeviceWindow, .usageReportsNoUpdate,
    .usageReportsNoDelete, .policies]

def schemaVersion : Nat := 1

/-- A database file: its schema, the rows of `schema_migrations`, and the other tables. -/
structure DbFile where
  objects : List SchemaObject
  schemaMigrations : Dict Nat String
  db : Db

namespace DbFile

/-- A file that SQLite has just made. -/
def blank : DbFile := ⟨[], .empty, .empty⟩

/-- `CREATE ... IF NOT EXISTS`, which raises where the table of an index or a trigger is missing. -/
def create (file : DbFile) (o : SchemaObject) : Option DbFile :=
  if o ∈ file.objects then some file
  else if ∀ table ∈ o.on?, table ∈ file.objects then
    some { file with objects := file.objects ++ [o] }
  else none

/-- `SELECT version FROM schema_migrations WHERE version = ?` gives a row. -/
def Recorded (file : DbFile) : Prop := (file.schemaMigrations.get? schemaVersion).isSome

instance (file : DbFile) : Decidable file.Recorded := inferInstanceAs (Decidable (_ = _))

/-- Every statement of `schema.sql` has had its effect. -/
def Complete (file : DbFile) : Prop := ∀ o ∈ schemaSql, o ∈ file.objects

instance (file : DbFile) : Decidable file.Complete :=
  inferInstanceAs (Decidable (∀ o ∈ schemaSql, o ∈ file.objects))

end DbFile

/-- How far the connection of a request has come: the statement of `migrate` that is next, what
remains of the handler, or the end. -/
inductive ConnStage
  | bootstrap
  | lookup
  | script (rest : List SchemaObject)
  | ready
  | serving (handler : Serving)
  | noSuchTable
  | killed

/-- A connection runs its next statement, begins with its handler, or ends. -/
inductive ConnEvent
  | next (now : Datetime)
  | handle (request : Request)
  | kill

/-- The file, and the connections that have been opened. -/
abbrev Connections : Type := Parties DbFile ConnStage

abbrev ConnectionsEvent : Type := PartyEvent Unit ConnEvent

namespace Connections

variable (scheme : SignatureScheme) (py : Pydantic)

/-- The next statement of `migrate`, and those of the handler once `migrate` has returned. -/
def act (_ : Nat) (file : DbFile) (stage : ConnStage) : ConnEvent → Option (DbFile × ConnStage)
  | .next now =>
    match stage with
    | .bootstrap =>
      match file.create .schemaMigrations with
      | some file => some (file, .lookup)
      | none => some (file, .noSuchTable)
    | .lookup =>
      if .schemaMigrations ∈ file.objects then
        if file.Recorded then some (file, .ready) else some (file, .script schemaSql)
      else some (file, .noSuchTable)
    | .script (o :: rest) =>
      match file.create o with
      | some file => some (file, .script rest)
      | none => some (file, .noSuchTable)
    | .script [] =>
      if .schemaMigrations ∈ file.objects then
        let schemaMigrations := file.schemaMigrations.insert schemaVersion (utcnowIso now)
        some ({ file with schemaMigrations }, .ready)
      else some (file, .noSuchTable)
    | .serving (.statement effect next) =>
      if ∀ table ∈ [SchemaObject.devices, .usageReports, .policies], table ∈ file.objects then
        some ({ file with db := effect file.db }, .serving (next file.db))
      else some (file, .noSuchTable)
    | _ => none
  | .handle request =>
    match stage with
    | .ready => some (file, .serving (callTask scheme py (.request request)))
    | _ => none
  | .kill => some (file, .killed)

def step (p : Connections) (e : ConnectionsEvent) : Option Connections :=
  Parties.step (fun _ _ => .bootstrap) (act scheme py) p e

/-- A statement of a handler runs on the whole schema, its triggers included. -/
def OnSchema (p : Connections) : ConnectionsEvent → Prop
  | .act i (.next _) => ∀ handler, p.members[i]? = some (.serving handler) → p.shared.Complete
  | _ => True

/-- The request whose handler connection `i` has begun with. -/
def requestOf (events : List ConnectionsEvent) (i : Nat) : Option Request :=
  events.findSome? fun
    | .act j (.handle request) => if j = i then some request else none
    | _ => none

/-- The connection whose handler runs a statement in an event after `earlier`. -/
def statementOf (earlier : List ConnectionsEvent) : ConnectionsEvent → Option Nat
  | .act i (.next _) => if (requestOf earlier i).isSome then some i else none
  | _ => none

/-- The connections whose handlers ran the statements of a run, in the order in which they ran. -/
def schedule (events : List ConnectionsEvent) : List Nat :=
  events.zipIdx.filterMap fun (event, n) => statementOf (events.take n) event

/-- The handlers that have been begun, on empty tables. -/
def handlers (events : List ConnectionsEvent) : Tasks Nat Db (Except PyException Response) where
  store := .empty
  task i := (requestOf events i).elim (.done (.error .interrupted)) fun request =>
    callTask scheme py (.request request)

end Connections

/-! ### The schema -/

namespace DbFile

variable {file file' : DbFile} {o : SchemaObject}

/-- `schema.sql` creates a table before what is on it. -/
theorem schemaSql_ordered (k : Fin schemaSql.length) :
    ∀ table ∈ (schemaSql.get k).on?, table ∈ schemaSql.take k := by
  revert k
  decide

/-- The file has the object and all that it had, and nothing new where it had the object. -/
structure Makes (file : DbFile) (o : SchemaObject) (file' : DbFile) : Prop where
  made : o ∈ file'.objects
  keeps : file.objects ⊆ file'.objects
  settled : o ∈ file.objects → file'.objects = file.objects
  recorded : file'.schemaMigrations = file.schemaMigrations
  db : file'.db = file.db

theorem create_eq_some (h : ∀ table ∈ o.on?, table ∈ file.objects) :
    ∃ file', file.create o = some file' ∧ Makes file o file' := by
  unfold create
  by_cases hmade : o ∈ file.objects
  · rw [if_pos hmade]
    exact ⟨file, rfl, hmade, fun _ => id, fun _ => rfl, rfl, rfl⟩
  · rw [if_neg hmade, if_pos h]
    exact ⟨_, rfl, by simp, List.subset_append_left _ _, fun hmem => absurd hmem hmade, rfl, rfl⟩

theorem create_db (h : file.create o = some file') : file'.db = file.db := by
  unfold create at h
  split at h
  · rw [← Option.some.inj h]
  · split at h
    · rw [← Option.some.inj h]
    · cases h

theorem Complete.mono (h : file.Complete) (hsub : file.objects ⊆ file'.objects) :
    file'.Complete :=
  fun o ho => hsub (h o ho)

theorem Complete.tables (h : file.Complete) :
    ∀ table ∈ [SchemaObject.devices, .usageReports, .policies], table ∈ file.objects := by
  intro table htable
  apply h
  revert htable
  revert table
  decide

/-- The version is recorded for a whole schema only. -/
def Sound (file : DbFile) : Prop := file.Recorded → file.Complete

theorem blank_sound : blank.Sound := by
  intro h
  cases h

end DbFile

namespace Connections

open DbFile (Complete Sound)

variable {scheme : SignatureScheme} {py : Pydantic} {file file' : DbFile}
  {stage stage' : ConnStage}

/-- What a connection relies on: the objects whose statements it has run are there. -/
def Local (file : DbFile) : ConnStage → Prop
  | .lookup => .schemaMigrations ∈ file.objects
  | .script rest => .schemaMigrations ∈ file.objects ∧
      ∃ k, rest = schemaSql.drop k ∧ ∀ o ∈ schemaSql.take k, o ∈ file.objects
  | .ready | .serving _ => file.Complete
  | .noSuchTable => False
  | .bootstrap | .killed => True

theorem Local.mono (h : Local file stage) (hsub : file.objects ⊆ file'.objects) :
    Local file' stage := by
  cases stage with
  | lookup => exact hsub h
  | script rest =>
    obtain ⟨hmigrations, k, hrest, hmade⟩ := h
    exact ⟨hsub hmigrations, k, hrest, fun o ho => hsub (hmade o ho)⟩
  | ready => exact Complete.mono h hsub
  | serving handler => exact Complete.mono h hsub
  | noSuchTable => exact h
  | bootstrap => trivial
  | killed => trivial

/-- What a step of a connection does to the schema. -/
structure Advances (file file' : DbFile) (stage' : ConnStage) : Prop where
  keeps : file.objects ⊆ file'.objects
  settled : file.Complete → file'.objects = file.objects
  sound : file'.Sound
  relies : Local file' stage'

theorem Advances.same (hsound : file.Sound) (hrelies : Local file stage') :
    Advances file file stage' :=
  ⟨fun _ => id, fun _ => rfl, hsound, hrelies⟩

/-- A `CREATE` statement. -/
theorem Advances.create {o : SchemaObject} (hsound : file.Sound) (h : DbFile.Makes file o file')
    (ho : o ∈ schemaSql) (hrelies : Local file' stage') : Advances file file' stage' := by
  refine ⟨h.keeps, fun hcomplete => h.settled (hcomplete o ho), ?_, hrelies⟩
  intro hrecorded
  rw [DbFile.Recorded, h.recorded] at hrecorded
  exact (hsound hrecorded).mono h.keeps

/-- A statement of the script. -/
theorem create_advances {i : Nat} {now : Datetime} {o : SchemaObject} {rest : List SchemaObject}
    (hsound : file.Sound) (hlocal : Local file (.script (o :: rest)))
    (h : act scheme py i file (.script (o :: rest)) (.next now) = some (file', stage')) :
    Advances file file' stage' := by
  obtain ⟨hmigrations, k, hrest, hdone⟩ := hlocal
  have hlt : k < schemaSql.length := by
    apply Nat.lt_of_not_le
    intro hle
    rw [List.drop_eq_nil_of_le hle] at hrest
    cases hrest
  rw [List.drop_eq_getElem_cons hlt] at hrest
  obtain ⟨rfl, rfl⟩ := List.cons.inj hrest
  have hon : ∀ table ∈ schemaSql[k].on?, table ∈ file.objects := fun table htable =>
    hdone table (DbFile.schemaSql_ordered ⟨k, hlt⟩ table htable)
  obtain ⟨made, hcreate, hmakes⟩ := DbFile.create_eq_some hon
  simp only [act, hcreate] at h
  obtain ⟨rfl, rfl⟩ := Prod.mk.inj (Option.some.inj h)
  refine .create hsound hmakes (List.getElem_mem hlt) ⟨hmakes.keeps hmigrations, k + 1, rfl, ?_⟩
  intro o ho
  rw [List.take_succ_eq_append_getElem hlt] at ho
  rcases List.mem_append.mp ho with ho | ho
  · exact hmakes.keeps (hdone o ho)
  · rw [List.mem_singleton.mp ho]
    exact hmakes.made

/-- The last statement, after the script. -/
theorem record_advances {i : Nat} {now : Datetime} (hlocal : Local file (.script []))
    (h : act scheme py i file (.script []) (.next now) = some (file', stage')) :
    Advances file file' stage' := by
  obtain ⟨hmigrations, k, hrest, hdone⟩ := hlocal
  have hcomplete : file.Complete := by
    intro o ho
    apply hdone
    rw [List.take_of_length_le (List.drop_eq_nil_iff.mp hrest.symm)]
    exact ho
  simp only [act, if_pos hmigrations] at h
  obtain ⟨rfl, rfl⟩ := Prod.mk.inj (Option.some.inj h)
  exact ⟨fun _ => id, fun _ => rfl, fun _ => hcomplete, hcomplete⟩

/-- A statement of a handler. -/
theorem act_statement (h : file.Complete) (i : Nat) (now : Datetime) (effect : Db → Db)
    (next : Db → Serving) : act scheme py i file (.serving (.statement effect next)) (.next now) =
      some ({ file with db := effect file.db }, .serving (next file.db)) := by
  simp only [act]
  rw [if_pos h.tables]

theorem act_advances {i : Nat} {e : ConnEvent} (hsound : file.Sound) (hlocal : Local file stage)
    (h : act scheme py i file stage e = some (file', stage')) :
    Advances file file' stage' := by
  cases e with
  | next now =>
    cases stage with
    | bootstrap =>
      have hon : ∀ table ∈ SchemaObject.schemaMigrations.on?, table ∈ file.objects := nofun
      obtain ⟨made, hcreate, hmakes⟩ := DbFile.create_eq_some hon
      simp only [act, hcreate] at h
      obtain ⟨rfl, rfl⟩ := Prod.mk.inj (Option.some.inj h)
      exact .create hsound hmakes List.mem_cons_self hmakes.made
    | lookup =>
      simp only [act] at h
      rw [if_pos (show .schemaMigrations ∈ file.objects from hlocal)] at h
      split at h
      · rename_i hrecorded
        obtain ⟨rfl, rfl⟩ := Prod.mk.inj (Option.some.inj h)
        exact .same hsound (hsound hrecorded)
      · obtain ⟨rfl, rfl⟩ := Prod.mk.inj (Option.some.inj h)
        exact .same hsound ⟨hlocal, 0, rfl, nofun⟩
    | script rest =>
      cases rest with
      | nil => exact record_advances hlocal h
      | cons o rest => exact create_advances hsound hlocal h
    | serving handler =>
      cases handler with
      | done answer => cases h
      | statement effect next =>
        rw [act_statement hlocal] at h
        obtain ⟨rfl, rfl⟩ := Prod.mk.inj (Option.some.inj h)
        exact ⟨fun _ => id, fun _ => rfl, hsound, hlocal⟩
    | ready => cases h
    | noSuchTable => cases h
    | killed => cases h
  | handle request =>
    cases stage with
    | ready =>
      obtain ⟨rfl, rfl⟩ := Prod.mk.inj (Option.some.inj h)
      exact .same hsound hlocal
    | bootstrap => cases h
    | lookup => cases h
    | script rest => cases h
    | serving handler => cases h
    | noSuchTable => cases h
    | killed => cases h
  | kill =>
    obtain ⟨rfl, rfl⟩ := Prod.mk.inj (Option.some.inj h)
    exact .same hsound trivial

/-! ### Whole runs -/

/-- The version is recorded for a whole schema only, and no connection has met a missing table. -/
structure Safe (p : Connections) : Prop where
  sound : p.shared.Sound
  relies : p.Relies Local

variable {p q : Connections} {events : List ConnectionsEvent}

theorem Safe.advances (h : p.Safe) {i : Nat} {e : ConnEvent}
    (hstep : step scheme py p (.act i e) = some q) :
    ∃ stage', Advances p.shared q.shared stage' := by
  obtain ⟨before, member, after, member', -, hmembers, hact, -⟩ := Parties.step_act hstep
  exact ⟨member', act_advances h.sound (h.relies member (by simp [hmembers])) hact⟩

theorem Safe.after (h : p.Safe) {e : ConnectionsEvent} (hstep : step scheme py p e = some q) :
    q.Safe := by
  have hrelies : q.Relies Local := by
    apply h.relies.step hstep
    · intro _
      trivial
    · rintro i e' t t' rfl ht hact
      have hadvances := act_advances h.sound (h.relies t (List.mem_of_getElem? ht)) hact
      exact ⟨hadvances.relies, fun other hother => hother.mono hadvances.keeps⟩
  cases e with
  | join _ =>
    obtain rfl := Option.some.inj hstep
    exact ⟨h.sound, hrelies⟩
  | act i e =>
    obtain ⟨stage', hadvances⟩ := h.advances hstep
    exact ⟨hadvances.sound, hrelies⟩

theorem Safe.onSchema (h : p.Safe) (e : ConnectionsEvent) : p.OnSchema e := by
  cases e with
  | join _ => trivial
  | act i e =>
    cases e with
    | next now => exact fun handler hmember => h.relies _ (List.mem_of_getElem? hmember)
    | handle request => trivial
    | kill => trivial

/-- No object is lost, and a whole schema stays as it is. -/
def Keeps (file file' : DbFile) : Prop :=
  file.objects ⊆ file'.objects ∧ (file.Complete → file'.objects = file.objects)

theorem Keeps.trans {file'' : DbFile} (h : Keeps file file') (h' : Keeps file' file'') :
    Keeps file file'' :=
  ⟨fun _ ho => h'.1 (h.1 ho), fun hcomplete =>
    (h'.2 (hcomplete.mono h.1)).trans (h.2 hcomplete)⟩

theorem Safe.keeps (h : p.Safe) {e : ConnectionsEvent} (hstep : step scheme py p e = some q) :
    Keeps p.shared q.shared := by
  cases e with
  | join _ =>
    obtain rfl := Option.some.inj hstep
    exact ⟨fun _ => id, fun _ => rfl⟩
  | act i e =>
    obtain ⟨stage', hadvances⟩ := h.advances hstep
    exact ⟨hadvances.keeps, hadvances.settled⟩

theorem Safe.keeps_of_run (h : p.Safe) (hrun : Run (step scheme py) Always p events q) :
    Keeps p.shared q.shared :=
  hrun.relates Safe (fun s t => Keeps s.shared t.shared) h (fun _ => ⟨fun _ => id, fun _ => rfl⟩)
    (fun _ _ _ => .trans) fun _ _ _ hsafe _ hstep => ⟨hsafe.after hstep, hsafe.keeps hstep⟩

/-! ### The handlers behind the migrations -/

/-- The handler has begun, or the connection has ended. -/
def Begun : ConnStage → Prop
  | .bootstrap | .lookup | .script _ | .ready => False
  | .serving _ | .noSuchTable | .killed => True

variable (scheme py) in
/-- The tables are what the statements of the handlers, in the order in which they ran, make of
empty ones, and each handler is as far as its own statements have taken it. -/
structure ServedBy (events : List ConnectionsEvent) (p : Connections) : Prop where
  begun : ∀ i, (requestOf events i).isSome → ∃ stage ∈ p.members[i]?, Begun stage
  called : ∀ i ∈ schedule events, (requestOf events i).isSome
  tables : p.shared.db = ((schedule events).foldl Tasks.step (handlers scheme py events)).store
  progress : ∀ i handler, p.members[i]? = some (.serving handler) →
    (requestOf events i).isSome ∧
      ((schedule events).foldl Tasks.step (handlers scheme py events)).task i = handler

variable {i : Nat} {e : ConnEvent}

/-- A step that neither begins with a handler nor runs a statement of one. -/
structure Quiet (file file' : DbFile) (stage stage' : ConnStage) (e : ConnEvent) : Prop where
  begins : ∀ request, e ≠ .handle request
  runs : ∀ now, e = .next now → ¬Begun stage
  db : file'.db = file.db
  serves : ∀ handler, stage' ≠ .serving handler
  begun : Begun stage → Begun stage'

/-- A statement of `migrate`. -/
theorem migrate_quiet {now : Datetime} (hstage : ¬Begun stage)
    (h : act scheme py i file stage (.next now) = some (file', stage')) :
    file'.db = file.db ∧ ∀ handler, stage' ≠ .serving handler := by
  cases stage with
  | bootstrap =>
    simp only [act] at h
    split at h
    · rename_i made hcreate
      obtain ⟨rfl, rfl⟩ := Prod.mk.inj (Option.some.inj h)
      exact ⟨DbFile.create_db hcreate, nofun⟩
    · obtain ⟨rfl, rfl⟩ := Prod.mk.inj (Option.some.inj h)
      exact ⟨rfl, nofun⟩
  | lookup =>
    simp only [act] at h
    split at h
    · split at h
      · obtain ⟨rfl, rfl⟩ := Prod.mk.inj (Option.some.inj h)
        exact ⟨rfl, nofun⟩
      · obtain ⟨rfl, rfl⟩ := Prod.mk.inj (Option.some.inj h)
        exact ⟨rfl, nofun⟩
    · obtain ⟨rfl, rfl⟩ := Prod.mk.inj (Option.some.inj h)
      exact ⟨rfl, nofun⟩
  | script rest =>
    cases rest with
    | nil =>
      simp only [act] at h
      split at h
      · obtain ⟨rfl, rfl⟩ := Prod.mk.inj (Option.some.inj h)
        exact ⟨rfl, nofun⟩
      · obtain ⟨rfl, rfl⟩ := Prod.mk.inj (Option.some.inj h)
        exact ⟨rfl, nofun⟩
    | cons o rest =>
      simp only [act] at h
      split at h
      · rename_i made hcreate
        obtain ⟨rfl, rfl⟩ := Prod.mk.inj (Option.some.inj h)
        exact ⟨DbFile.create_db hcreate, nofun⟩
      · obtain ⟨rfl, rfl⟩ := Prod.mk.inj (Option.some.inj h)
        exact ⟨rfl, nofun⟩
  | ready => cases h
  | serving handler => exact absurd trivial hstage
  | noSuchTable => exact absurd trivial hstage
  | killed => exact absurd trivial hstage

/-- A step of a connection begins with a handler, runs a statement of one, or leaves the tables as
they are. -/
theorem act_cases (hlocal : Local file stage)
    (h : act scheme py i file stage e = some (file', stage')) :
    (∃ request, e = .handle request ∧ stage = .ready ∧ file' = file ∧
      stage' = .serving (callTask scheme py (.request request))) ∨
    (∃ now effect next, e = .next now ∧ stage = .serving (.statement effect next) ∧
      file'.db = effect file.db ∧ stage' = .serving (next file.db)) ∨
    Quiet file file' stage stage' e := by
  cases e with
  | handle request =>
    cases stage with
    | ready =>
      obtain ⟨rfl, rfl⟩ := Prod.mk.inj (Option.some.inj h)
      exact .inl ⟨request, rfl, rfl, rfl, rfl⟩
    | _ => cases h
  | kill =>
    obtain ⟨rfl, rfl⟩ := Prod.mk.inj (Option.some.inj h)
    exact .inr (.inr ⟨nofun, nofun, rfl, nofun, fun _ => trivial⟩)
  | next now =>
    by_cases hbegun : Begun stage
    · cases stage with
      | serving handler =>
        cases handler with
        | done answer => cases h
        | statement effect next =>
          -- the schema is whole, so that the statement runs
          rw [act_statement hlocal] at h
          obtain ⟨rfl, rfl⟩ := Prod.mk.inj (Option.some.inj h)
          exact .inr (.inl ⟨now, effect, next, rfl, rfl, rfl, rfl⟩)
      | noSuchTable => exact hlocal.elim
      | killed => cases h
      | _ => exact hbegun.elim
    · obtain ⟨hdb, hserves⟩ := migrate_quiet hbegun h
      exact .inr (.inr ⟨nofun, fun _ _ => hbegun, hdb, hserves, fun hb => absurd hb hbegun⟩)

theorem requestOf_snoc (events : List ConnectionsEvent) (event : ConnectionsEvent) (j : Nat) :
    requestOf (events ++ [event]) j = (requestOf events j).or (requestOf [event] j) :=
  List.findSome?_append

theorem schedule_snoc (events : List ConnectionsEvent) (event : ConnectionsEvent) :
    schedule (events ++ [event]) = schedule events ++ (statementOf events event).toList := by
  have hearlier : (events.zipIdx.filterMap fun (earlier, n) =>
      statementOf ((events ++ [event]).take n) earlier) = schedule events := by
    apply List.filterMap_congr
    rintro ⟨earlier, n⟩ hmem
    have hlt : n < events.length := (List.mem_zipIdx' hmem).1
    dsimp only
    rw [List.take_append_of_le_length (by omega)]
  rw [schedule, List.zipIdx_append, List.filterMap_append, hearlier, List.zipIdx_singleton,
    Nat.zero_add]
  cases hstatement : statementOf events event <;> simp [hstatement]

theorem schedule_quiet {event : ConnectionsEvent} (hnone : statementOf events event = none) :
    schedule (events ++ [event]) = schedule events := by
  rw [schedule_snoc, hnone, Option.toList_none, List.append_nil]

/-- The handlers stay the same over an event that begins with none. -/
theorem requestOf_quiet {event : ConnectionsEvent}
    (he : ∀ i request, event ≠ .act i (.handle request)) :
    requestOf (events ++ [event]) = requestOf events := by
  funext j
  have hnone : requestOf [event] j = none := by
    cases event with
    | join _ => rfl
    | act i e =>
      cases e with
      | handle request => exact absurd rfl (he i request)
      | next now => rfl
      | kill => rfl
  rw [requestOf_snoc, hnone, Option.or_none]

theorem requestOf_handle (hnone : requestOf events i = none) (request : Request) (j : Nat) :
    requestOf (events ++ [.act i (.handle request)]) j =
      if j = i then some request else requestOf events j := by
  have hlast : requestOf [.act i (.handle request)] j = if i = j then some request else none := by
    by_cases hij : i = j <;> simp [requestOf, hij]
  rw [requestOf_snoc, hlast]
  by_cases hj : j = i
  · subst hj
    rw [hnone, if_pos rfl]
    rfl
  · rw [if_neg hj, if_neg (Ne.symm hj), Option.or_none]

variable (scheme py) in
/-- The tables stay the same over an event in which no handler begins or runs a statement. -/
theorem served_quiet {event : ConnectionsEvent}
    (he : ∀ i request, event ≠ .act i (.handle request)) (hnone : statementOf events event = none) :
    (schedule (events ++ [event])).foldl Tasks.step (handlers scheme py (events ++ [event])) =
      (schedule events).foldl Tasks.step (handlers scheme py events) := by
  rw [schedule_quiet hnone, handlers, handlers, requestOf_quiet he]

variable (scheme py) in
/-- A handler that begins has run no statement yet. -/
theorem served_handle (hnone : requestOf events i = none) (habsent : i ∉ schedule events)
    (request : Request) :
    (schedule (events ++ [.act i (.handle request)])).foldl Tasks.step
        (handlers scheme py (events ++ [.act i (.handle request)])) =
      let served := (schedule events).foldl Tasks.step (handlers scheme py events)
      ⟨served.store, Function.update served.task i (callTask scheme py (.request request))⟩ := by
  have hhandlers : handlers scheme py (events ++ [.act i (.handle request)]) =
      ⟨.empty, Function.update (handlers scheme py events).task i
        (callTask scheme py (.request request))⟩ := by
    unfold handlers
    congr 1
    funext j
    rw [requestOf_handle hnone]
    by_cases hj : j = i
    · subst hj
      rw [if_pos rfl, Function.update_self]
      rfl
    · rw [if_neg hj, Function.update_of_ne hj]
  rw [schedule_quiet rfl, hhandlers]
  exact Tasks.foldl_update (c := handlers scheme py events) habsent _

/-- A connection that goes on as it began. -/
theorem begun_set {j : Nat} (hstage : p.members[i]? = some stage)
    (hbegun : Begun stage → Begun stage') (h : ∃ member ∈ p.members[j]?, Begun member) :
    ∃ member ∈ (p.members.set i stage')[j]?, Begun member := by
  obtain ⟨member, hmember, hbefore⟩ := h
  by_cases hij : i = j
  · subst hij
    obtain rfl := Option.some.inj (hstage.symm.trans hmember)
    have hlt := (List.getElem?_eq_some_iff.mp hstage).1
    exact ⟨stage', List.getElem?_set_self hlt, hbegun hbefore⟩
  · exact ⟨member, (List.getElem?_set_ne hij).trans hmember, hbefore⟩

/-- A step that is none of a handler. -/
theorem ServedBy.quiet (h : ServedBy scheme py events p) (hstage : p.members[i]? = some stage)
    (hquiet : Quiet p.shared file' stage stage' e) :
    ServedBy scheme py (events ++ [.act i e]) ⟨file', p.members.set i stage'⟩ := by
  have hlt := (List.getElem?_eq_some_iff.mp hstage).1
  have he : ∀ j request, (.act i e : ConnectionsEvent) ≠ .act j (.handle request) :=
    fun j request heq => hquiet.begins request (PartyEvent.act.inj heq).2
  have hnone : statementOf events (.act i e) = none := by
    cases e with
    | next now =>
      apply if_neg
      intro hsome
      obtain ⟨member, hmember, hbegun⟩ := h.begun i hsome
      obtain rfl := Option.some.inj (hstage.symm.trans hmember)
      exact hquiet.runs now rfl hbegun
    | handle request => rfl
    | kill => rfl
  have hsame : requestOf (events ++ [.act i e]) = requestOf events := requestOf_quiet he
  have hserved := served_quiet scheme py he hnone
  refine ⟨fun j hj => ?_, fun j hj => ?_, ?_, fun j handler hj => ?_⟩
  · exact begun_set hstage hquiet.begun (h.begun j (hsame ▸ hj))
  · rw [schedule_quiet hnone] at hj
    rw [hsame]
    exact h.called j hj
  · rw [hserved]
    exact hquiet.db.trans h.tables
  · rw [hserved, hsame]
    by_cases hij : i = j
    · subst hij
      rw [List.getElem?_set_self hlt] at hj
      exact absurd (Option.some.inj hj) (hquiet.serves handler)
    · rw [List.getElem?_set_ne hij] at hj
      exact h.progress j handler hj

theorem ServedBy.join (h : ServedBy scheme py events p) :
    ServedBy scheme py (events ++ [.join ()]) ⟨p.shared, p.members ++ [.bootstrap]⟩ := by
  have he : ∀ j request, (.join () : ConnectionsEvent) ≠ .act j (.handle request) := nofun
  have hnone : statementOf events (.join ()) = none := rfl
  have hsame : requestOf (events ++ [.join ()]) = requestOf events := requestOf_quiet he
  have hserved := served_quiet scheme py he hnone
  refine ⟨fun j hj => ?_, fun j hj => ?_, hserved ▸ h.tables, fun j handler hj => ?_⟩
  · obtain ⟨member, hmember, hbegun⟩ := h.begun j (hsame ▸ hj)
    have hlt := (List.getElem?_eq_some_iff.mp hmember).1
    exact ⟨member, (List.getElem?_append_left hlt).trans hmember, hbegun⟩
  · rw [schedule_quiet hnone] at hj
    rw [hsame]
    exact h.called j hj
  · rw [hserved, hsame]
    rw [List.getElem?_append] at hj
    split at hj
    · exact h.progress j handler hj
    · cases List.mem_singleton.mp (List.mem_of_getElem? hj)

/-- A handler begins. -/
theorem ServedBy.handle (h : ServedBy scheme py events p)
    (hstage : p.members[i]? = some .ready) (request : Request) :
    ServedBy scheme py (events ++ [.act i (.handle request)])
      ⟨p.shared, p.members.set i (.serving (callTask scheme py (.request request)))⟩ := by
  have hlt := (List.getElem?_eq_some_iff.mp hstage).1
  have hnone : requestOf events i = none := by
    cases hrequest : requestOf events i with
    | none => rfl
    | some other =>
      obtain ⟨member, hmember, hbegun⟩ := h.begun i (hrequest ▸ rfl)
      obtain rfl := Option.some.inj (hstage.symm.trans hmember)
      exact hbegun.elim
  have habsent : i ∉ schedule events := by
    intro hmem
    have hsome := h.called i hmem
    rw [hnone] at hsome
    cases hsome
  have hschedule : schedule (events ++ [.act i (.handle request)]) = schedule events :=
    schedule_quiet rfl
  have hrequests := requestOf_handle hnone request
  have hserved := served_handle scheme py hnone habsent request
  have hkeep : ∀ j, (requestOf events j).isSome →
      (requestOf (events ++ [.act i (.handle request)]) j).isSome := by
    intro j hj
    rw [hrequests]
    split
    · rfl
    · exact hj
  refine ⟨fun j hj => ?_, fun j hj => hkeep j (h.called j (hschedule ▸ hj)), ?_,
    fun j handler hj => ?_⟩
  · by_cases hij : i = j
    · subst hij
      exact ⟨_, List.getElem?_set_self hlt, trivial⟩
    · rw [hrequests, if_neg (Ne.symm hij)] at hj
      exact begun_set hstage (fun hready => hready.elim) (h.begun j hj)
  · rw [hserved]
    exact h.tables
  · rw [hserved]
    by_cases hij : i = j
    · subst hij
      rw [List.getElem?_set_self hlt] at hj
      obtain rfl := ConnStage.serving.inj (Option.some.inj hj)
      exact ⟨by rw [hrequests, if_pos rfl]; rfl, Function.update_self _ _ _⟩
    · rw [List.getElem?_set_ne hij] at hj
      obtain ⟨hsome, htask⟩ := h.progress j handler hj
      exact ⟨hkeep j hsome, (Function.update_of_ne (Ne.symm hij) _ _).trans htask⟩

/-- A handler runs a statement. -/
theorem ServedBy.statement (h : ServedBy scheme py events p) {now : Datetime}
    {effect : Db → Db} {next : Db → Serving}
    (hstage : p.members[i]? = some (.serving (.statement effect next)))
    (hdb : file'.db = effect p.shared.db) :
    ServedBy scheme py (events ++ [.act i (.next now)])
      ⟨file', p.members.set i (.serving (next p.shared.db))⟩ := by
  have hlt := (List.getElem?_eq_some_iff.mp hstage).1
  have hsame : requestOf (events ++ [.act i (.next now)]) = requestOf events :=
    requestOf_quiet nofun
  obtain ⟨hbegun, htask⟩ := h.progress i _ hstage
  have hschedule : schedule (events ++ [.act i (.next now)]) = schedule events ++ [i] := by
    rw [schedule_snoc, statementOf, if_pos hbegun]
    rfl
  have hserved : (schedule (events ++ [.act i (.next now)])).foldl Tasks.step
        (handlers scheme py (events ++ [.act i (.next now)])) =
      ⟨effect p.shared.db, Function.update
        ((schedule events).foldl Tasks.step (handlers scheme py events)).task i
        (next p.shared.db)⟩ := by
    rw [hschedule, handlers, hsame, ← handlers, List.foldl_append, List.foldl_cons, List.foldl_nil,
      Tasks.step_statement htask, ← h.tables]
  refine ⟨fun j hj => ?_, fun j hj => ?_, ?_, fun j handler hj => ?_⟩
  · exact begun_set hstage (fun _ => trivial) (h.begun j (hsame ▸ hj))
  · rw [hsame]
    rw [hschedule] at hj
    rcases List.mem_append.mp hj with hj | hj
    · exact h.called j hj
    · rw [List.mem_singleton.mp hj]
      exact hbegun
  · rw [hserved]
    exact hdb
  · rw [hserved, hsame]
    by_cases hij : i = j
    · subst hij
      rw [List.getElem?_set_self hlt] at hj
      obtain rfl := ConnStage.serving.inj (Option.some.inj hj)
      exact ⟨hbegun, Function.update_self _ _ _⟩
    · rw [List.getElem?_set_ne hij] at hj
      obtain ⟨hsome, htask⟩ := h.progress j handler hj
      exact ⟨hsome, (Function.update_of_ne (Ne.symm hij) _ _).trans htask⟩

theorem ServedBy.step {event : ConnectionsEvent} (hsafe : p.Safe)
    (h : ServedBy scheme py events p) (hstep : step scheme py p event = some q) :
    ServedBy scheme py (events ++ [event]) q := by
  cases event with
  | join _ =>
    obtain rfl := Option.some.inj hstep
    exact h.join
  | act i e =>
    simp only [Connections.step, Parties.step] at hstep
    split at hstep
    · cases hstep
    · rename_i stage hstage
      obtain ⟨⟨file', stage'⟩, hact, rfl⟩ := Option.map_eq_some_iff.mp hstep
      have hlocal := hsafe.relies stage (List.mem_of_getElem? hstage)
      rcases act_cases hlocal hact with ⟨request, rfl, rfl, rfl, rfl⟩ |
        ⟨now, effect, next, rfl, rfl, hdb, rfl⟩ | hquiet
      · exact h.handle hstage request
      · exact h.statement hstage hdb
      · exact h.quiet hstage hquiet

/-- A file that no request has opened. -/
def start : Connections := ⟨.blank, []⟩

theorem start_safe : start.Safe := ⟨DbFile.blank_sound, Parties.relies_start _ _⟩

theorem start_served : ServedBy scheme py [] start :=
  ⟨nofun, nofun, rfl, nofun⟩

variable (scheme py) in
/-- What holds after some events of a file that is opened through `get_conn` alone. -/
structure SetUp (events : List ConnectionsEvent) (p : Connections) : Prop where
  recorded : p.shared.Recorded → p.shared.Complete
  no_error : .noSuchTable ∉ p.members
  on_schema : Run (step scheme py) OnSchema start events p
  served : ServedBy scheme py events p
  kept : ∀ later q, Run (step scheme py) Always p later q → p.shared.objects ⊆ q.shared.objects
  settled : ∀ later q, Run (step scheme py) Always p later q → p.shared.Recorded →
    q.shared.objects = p.shared.objects

variable (scheme py) in
/-- However the requests that open a new file interleave, and wherever they are killed, every
statement of a handler runs on the whole schema, and the tables are those that the statements of the
handlers make of empty ones. -/
theorem set_up_of_run (h : Run (step scheme py) Always start events p) :
    SetUp scheme py events p := by
  have hsafe : p.Safe := h.preserves start_safe fun _ _ _ ht _ hstep => ht.after hstep
  refine ⟨hsafe.sound, fun hmem => hsafe.relies _ hmem, ?_, ?_, ?_, ?_⟩
  · exact h.exchange fun _ _ e _ hrun _ _ _ =>
      (hrun.preserves start_safe fun _ _ _ ht _ hst => ht.after hst).onSchema e
  · have htraced : p.Safe ∧ ServedBy scheme py events p := by
      apply h.traces
      · exact ⟨start_safe, start_served⟩
      · exact fun _ _ _ _ ht _ hstep => ⟨ht.1.after hstep, ht.2.step ht.1 hstep⟩
    exact htraced.2
  · exact fun _ _ hrun => (hsafe.keeps_of_run hrun).1
  · exact fun _ _ hrun hrecorded => (hsafe.keeps_of_run hrun).2 (hsafe.sound hrecorded)

/-- Two connections open the file, one is killed within the script, and the other goes on to
register a device, while a third asks for its usage. -/
def sampleConnections : List ConnectionsEvent :=
  [.join (), .join ()] ++ List.replicate 4 (.act 0 (.next .epoch)) ++
    List.replicate 2 (.act 1 (.next .epoch)) ++ [.act 0 .kill, .join ()] ++
    List.replicate 8 (.act 1 (.next .epoch)) ++
    [.act 1 (.handle (.registerDevice sampleRegistration .epoch)), .act 2 (.next .epoch),
      .act 2 (.next .epoch), .act 2 (.handle (.getUsage "d")), .act 1 (.next .epoch),
      .act 2 (.next .epoch), .act 1 (.next .epoch)]

theorem set_up_of_run_sample : ∃ p, p.shared.Recorded ∧
    (p.shared.db.devices.get? "d").isSome ∧ SetUp .sample samplePydantic sampleConnections p := by
  have heval : ((Run.execute (step .sample samplePydantic) start sampleConnections).any fun p =>
      decide p.shared.Recorded && (p.shared.db.devices.get? "d").isSome) = true := by
    decide +kernel
  obtain ⟨p, hrun, hp⟩ := (Option.any_eq_true _ _).mp heval
  obtain ⟨hrecorded, hregistered⟩ := Bool.and_eq_true_iff.mp hp
  exact ⟨p, of_decide_eq_true hrecorded, hregistered,
    set_up_of_run _ _ (Run.of_execute hrun)⟩

end Connections

end BleUsageMeter.Backend
