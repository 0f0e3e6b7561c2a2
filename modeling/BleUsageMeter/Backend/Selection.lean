import BleUsageMeter.Backend.Ledger

/-! `get_conn` of `backend/db.py` as a dependency.  FastAPI takes `db_path`, a parameter with a
default, from the query of the request, so that a client can name the database that serves it.  Two
runs that differ in their queries alone are served alike from `METER_DB` exactly when no query names
another database. -/

namespace BleUsageMeter.Backend

open Kit

/-- What SQLite opens under a path: a file, a database that is gone with the connection, or
nothing. -/
inductive Target
  | file (name : String)
  | temporary
  | unusable (exc : PyException)
deriving DecidableEq

/-- A request with its query, and what its path and its body give: an exception of the validation,
the errors of the fields, or the request. -/
structure HttpRequest where
  query : List (String × String)
  given : Except PyException (Except (List FieldError) Request)

/-- The last query parameter named `db_path`. -/
def HttpRequest.dbPath (r : HttpRequest) : Option String := r.query.reverse.lookup "db_path"

abbrev Answer : Type := Except PyException (Except (List FieldError) Response)

/-- The database that a request opened, and its response. -/
structure Exchange where
  opened : Target
  answer : Answer

/-- The databases on the disk, under the names of their files. -/
abbrev Disk : Type := Dict String Db

/-- A file that is opened for the first time holds the tables of `migrate`. -/
def Disk.db (disk : Disk) (name : String) : Db := (disk.get? name).getD .empty

section

variable (scheme : SignatureScheme) (py : Pydantic) (resolve : String → Target) (meterDb : String)

/-- The endpoints, on an open database. -/
def dispatch (db : Db) (r : HttpRequest) : Db × Answer :=
  match r.given with
  | .error exc => (db, .error exc)
  | .ok (.error errors) => (db, .ok (.error errors))
  | .ok (.ok request) =>
    let (db, answer) := respond scheme py db request
    (db, answer.map .ok)

/-- What `get_conn` opens for a request. -/
def getConn (r : HttpRequest) : Target := resolve (r.dbPath.getD meterDb)

def handle (disk : Disk) (r : HttpRequest) : Disk × Exchange :=
  match getConn resolve meterDb r with
  | .file name =>
    let (db, answer) := dispatch scheme py (disk.db name) r
    (disk.insert name db, ⟨.file name, answer⟩)
  | .temporary => (disk, ⟨.temporary, (dispatch scheme py .empty r).2⟩)
  | .unusable exc => (disk, ⟨.unusable exc, .error exc⟩)

def handleAll : Disk → List HttpRequest → Disk × List Exchange
  | disk, [] => (disk, [])
  | disk, r :: rest =>
    let (disk, exchange) := handle scheme py resolve meterDb disk r
    let (disk, exchanges) := handleAll disk rest
    (disk, exchange :: exchanges)

end

variable {scheme : SignatureScheme} {py : Pydantic} {resolve : String → Target} {meterDb : String}
  {first second : List HttpRequest}

theorem handle_opened (disk : Disk) (r : HttpRequest) :
    (handle scheme py resolve meterDb disk r).2.opened = getConn resolve meterDb r := by
  unfold handle
  split <;> rename_i h <;> rw [h]

/-- Two requests that give the same and open the same are served alike. -/
theorem handle_congr (disk : Disk) {r r' : HttpRequest} (hgiven : r.given = r'.given)
    (hopened : getConn resolve meterDb r = getConn resolve meterDb r') :
    handle scheme py resolve meterDb disk r = handle scheme py resolve meterDb disk r' := by
  simp only [handle, dispatch, hgiven, hopened]

theorem handleAll_opened (disk : Disk) (requests : List HttpRequest) :
    (handleAll scheme py resolve meterDb disk requests).2.map Exchange.opened =
      requests.map (getConn resolve meterDb) := by
  induction requests generalizing disk with
  | nil => rfl
  | cons r rest ih => simp only [handleAll, List.map_cons, handle_opened, ih]

theorem handleAll_congr (disk : Disk)
    (hgiven : first.map HttpRequest.given = second.map HttpRequest.given)
    (hopened : first.map (getConn resolve meterDb) = second.map (getConn resolve meterDb)) :
    handleAll scheme py resolve meterDb disk first =
      handleAll scheme py resolve meterDb disk second := by
  induction first generalizing disk second with
  | nil =>
    obtain rfl := List.map_eq_nil_iff.mp hgiven.symm
    rfl
  | cons r rest ih =>
    cases second with
    | nil => cases hgiven
    | cons r' rest' =>
      obtain ⟨hr, hrest⟩ := List.cons.inj hgiven
      obtain ⟨ho, horest⟩ := List.cons.inj hopened
      simp only [handleAll, handle_congr disk hr ho, ih _ hrest horest]

/-- The query of a request leaves the configured database selected. -/
theorem getConn_eq_iff {r : HttpRequest} : getConn resolve meterDb r = resolve meterDb ↔
    ∀ path ∈ r.dbPath, resolve path = resolve meterDb := by
  unfold getConn
  cases r.dbPath with
  | none => simp
  | some path => simp

/-- Two runs of requests that differ in their queries alone have the same responses, all from the
configured database, exactly when no query names another one. -/
theorem served_alike_iff (scheme : SignatureScheme) (py : Pydantic) (resolve : String → Target)
    (meterDb : String) (disk : Disk) (first second : List HttpRequest)
    (hgiven : first.map HttpRequest.given = second.map HttpRequest.given) :
    ((handleAll scheme py resolve meterDb disk first).2.map Exchange.answer =
        (handleAll scheme py resolve meterDb disk second).2.map Exchange.answer ∧
      ∀ requests ∈ [first, second], ∀ exchange ∈
        (handleAll scheme py resolve meterDb disk requests).2, exchange.opened = resolve meterDb) ↔
    ∀ requests ∈ [first, second], ∀ r ∈ requests, ∀ path ∈ r.dbPath,
      resolve path = resolve meterDb := by
  have hopened : ∀ requests, (∀ exchange ∈ (handleAll scheme py resolve meterDb disk requests).2,
      exchange.opened = resolve meterDb) ↔
        ∀ r ∈ requests, ∀ path ∈ r.dbPath, resolve path = resolve meterDb := by
    intro requests
    simp only [← getConn_eq_iff]
    rw [← List.forall_mem_map (P := (· = resolve meterDb)) (f := Exchange.opened),
      handleAll_opened, List.forall_mem_map]
  simp only [List.mem_cons, List.not_mem_nil, or_false, forall_eq_or_imp, forall_eq, hopened]
  constructor
  · exact fun h => h.2
  · rintro ⟨hfirst, hsecond⟩
    refine ⟨?_, hfirst, hsecond⟩
    have hlength : first.length = second.length := by
      simpa using congrArg List.length hgiven
    have hconfigured : ∀ requests : List HttpRequest,
        (∀ r ∈ requests, ∀ path ∈ r.dbPath, resolve path = resolve meterDb) →
          requests.map (getConn resolve meterDb) =
            List.replicate requests.length (resolve meterDb) := by
      intro requests h
      exact List.map_eq_replicate_iff.mpr fun r hr => getConn_eq_iff.mpr (h r hr)
    have hselected := (hconfigured first hfirst).trans
      (hlength ▸ (hconfigured second hsecond).symm)
    rw [handleAll_congr disk hgiven hselected]

/-! ### A second database -/

/-- The sample device is registered, and its usage is asked for with a query. -/
def usageAfterRegistration (query : List (String × String)) : List HttpRequest :=
  [⟨[], .ok (.ok (.registerDevice sampleRegistration .epoch))⟩, ⟨query, .ok (.ok (.getUsage "d"))⟩]

/-- A query that names no database changes nothing. -/
theorem served_alike_iff_sample :
    (handleAll SignatureScheme.sample samplePydantic .file "meter.db" .empty
        (usageAfterRegistration [])).2.map Exchange.answer =
      (handleAll SignatureScheme.sample samplePydantic .file "meter.db" .empty
        (usageAfterRegistration [("verbose", "1")])).2.map Exchange.answer := by
  have halike := (served_alike_iff SignatureScheme.sample samplePydantic .file "meter.db" .empty
    (usageAfterRegistration []) (usageAfterRegistration [("verbose", "1")]) rfl).mpr
  apply (halike ?_).1
  simp [usageAfterRegistration, HttpRequest.dbPath]

/-- A client that names another file is told that its registered device is unknown. -/
theorem query_selects_database : ¬∀ (resolve : String → Target) meterDb disk first second,
    first.map HttpRequest.given = second.map HttpRequest.given →
      (handleAll SignatureScheme.sample samplePydantic resolve meterDb disk first).2.map
          Exchange.answer =
        (handleAll SignatureScheme.sample samplePydantic resolve meterDb disk second).2.map
          Exchange.answer := by
  intro h
  have hsame := h .file "meter.db" .empty (usageAfterRegistration [])
    (usageAfterRegistration [("db_path", "other.db")]) rfl
  have hdiffers : ¬(handleAll SignatureScheme.sample samplePydantic .file "meter.db" .empty
      (usageAfterRegistration [])).2.map Exchange.answer =
    (handleAll SignatureScheme.sample samplePydantic .file "meter.db" .empty
      (usageAfterRegistration [("db_path", "other.db")])).2.map Exchange.answer := by
    decide +kernel
  exact hdiffers hsame

end BleUsageMeter.Backend
