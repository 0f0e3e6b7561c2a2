import BleUsageMeter.Kit.TwoPhase
import BleUsageMeter.Backend.Verify
import BleUsageMeter.Backend.Policy

/-! `backend/app.py`: the request handlers. -/

namespace BleUsageMeter.Backend

open Kit

def statusForCode : Code → Nat
  | .unknownDevice => 404
  | .badSignature => 401
  | .badSignatureEncoding => 400
  | .replay => 409
  | .countRollback => 409
  | _ => 400

structure UsageResponse where
  deviceId : String
  totalCount : Int
  lastAcceptedSequence : Int
  reports : Nat
deriving DecidableEq

inductive Response
  | rejection (status : Nat) (code : Code) (detail : String)
  | registered (deviceId : String)
  | accepted (deviceId : String) (sequence count : Nat)
  | usage (usage : UsageResponse)
  | license (decision : LicenseDecision)
deriving DecidableEq

def rejection (code : Code) (detail : String) : Response :=
  .rejection (statusForCode code) code detail

/-- `utcnow_iso()` at the clock reading `now`. -/
def utcnowIso (now : Datetime) : String := now.dropMicrosecond.strftimeZ

structure RegisterDeviceRequest where
  deviceId : String
  publicKey : String
  label : Option String
  deviceId_length : 1 ≤ deviceId.length ∧ deviceId.length ≤ 128 := by decide
  publicKey_length : 1 ≤ publicKey.length := by decide

def registerDevice (req : RegisterDeviceRequest) (now : Datetime) (db : Db) :
    Db × Except PyException Response :=
  match Base64.b64decode req.publicKey with
  | .error _ => (db, .ok (rejection .badPublicKey "public_key is not valid base64"))
  | .ok raw =>
    if raw.length ≠ 32 then
      (db, .ok (rejection .badPublicKey "Ed25519 public key must decode to 32 bytes"))
    else if (db.devices.get? req.deviceId).isSome then
      (db, .ok (rejection .deviceExists "device already registered; rotate explicitly"))
    else
      match db.insertDevice req.deviceId
        { publicKey := req.publicKey, label := req.label, registeredAt := utcnowIso now } with
      | .ok db => (db, .ok (.registered req.deviceId))
      | .error e => (db, .error e)

/-- The row that `post_report` stores. -/
def reportRow (report : UsageReport) (now : Datetime) : ReportRow where
  deviceId := report.deviceId
  count := report.count
  sequence := report.sequence
  windowStart := report.windowStart.isoformat
  windowEnd := report.windowEnd.isoformat
  signature := report.signature
  receivedAt := utcnowIso now

def accepted (report : UsageReport) : Response :=
  .accepted report.deviceId report.sequence report.count

/-- The answer to a report whose sequence is already stored. -/
def replayed : Response := rejection .replay "a report with this sequence is already stored"

/-- The transaction of `post_report`: append the report, then advance the marks. -/
def storeReport (report : UsageReport) (now : Datetime) (fault : Option Statement) :
    Sql Response :=
  transaction fault (Db.insertReport (reportRow report now))
    (Db.updateMarks report.deviceId report.sequence report.count) (accepted report) replayed

/-- What `post_report` answers from its read of the device row, if the report does not pass. -/
def screenReport (scheme : SignatureScheme) (db : Db) (report : UsageReport) :
    Option (Except PyException Response) :=
  match verifyReport scheme db report with
  | .error e => some (.error e)
  | .ok result => if result.ok then none else some (.ok (rejection result.code result.detail))

/-- `post_report`.  `fault` is the statement at which an exception of the environment strikes. -/
def postReport (scheme : SignatureScheme) (report : UsageReport) (now : Datetime)
    (fault : Option Statement) (db : Db) : Db × Except PyException Response :=
  match screenReport scheme db report with
  | some answer => (db, answer)
  | none => withConnection db (storeReport report now fault)

def getUsage (deviceId : String) (db : Db) : Response :=
  match db.devices.get? deviceId with
  | none => rejection .unknownDevice "device is not registered"
  | some device => .usage
    { deviceId
      totalCount := device.lastAcceptedCount
      lastAcceptedSequence := device.lastAcceptedSequence
      reports := (db.reportsOf deviceId).length }

def getLicense (py : Pydantic) (deviceId : String) (now : Datetime) (today : Date) (db : Db) :
    Except PyException Response :=
  match db.devices.get? deviceId with
  | none => .ok (.license { allowed := false, reason := .noPolicy, deviceId })
  | some _ => (Policy.decide py db deviceId now today).map .license

/-! ### What a report does -/

/-- The report's count and sequence fit in SQLite's integers. -/
def UsageReport.Storable (report : UsageReport) : Prop :=
  report.count < 2 ^ 63 ∧ report.sequence < 2 ^ 63

instance (report : UsageReport) : Decidable report.Storable :=
  inferInstanceAs (Decidable (_ ∧ _))

/-- A row with the report's device and sequence is stored. -/
def Db.Holds (db : Db) (report : UsageReport) : Prop :=
  (report.deviceId, (report.sequence : Int)) ∈ db.usageReports.map ReportRow.key

instance (db : Db) (report : UsageReport) : Decidable (db.Holds report) :=
  inferInstanceAs (Decidable (_ ∈ _))

/-- `after` is `db` with the report appended and its device's marks advanced. -/
structure Db.Appends (db : Db) (report : UsageReport) (now : Datetime) (after : Db) : Prop where
  usageReports : after.usageReports = db.usageReports ++ [reportRow report now]
  devices : ∀ id, after.devices.get? id =
    if id = report.deviceId then
      (db.devices.get? id).map (Device.withMarks report.sequence report.count)
    else db.devices.get? id
  policies : after.policies = db.policies

theorem UsageReport.storable_iff (report : UsageReport) :
    report.Storable ↔ Db.Bindable report.count ∧ Db.Bindable report.sequence := by
  unfold Storable Db.Bindable
  omega

theorem storeReport_cases (report : UsageReport) (now : Datetime) (db : Db) :
    (¬report.Storable ∧
      withConnection db (storeReport report now none) = (db, .error .overflowError)) ∨
    (report.Storable ∧ (db.Holds report ∨ db.devices.get? report.deviceId = none) ∧
      withConnection db (storeReport report now none) = (db, .ok replayed)) ∨
    (report.Storable ∧ ¬db.Holds report ∧ ∃ device after,
      db.devices.get? report.deviceId = some device ∧ db.Appends report now after ∧
      withConnection db (storeReport report now none) = (after, .ok (accepted report))) := by
  rw [storeReport, transaction_undisturbed]
  by_cases hstorable : report.Storable
  · have hbind : Db.Bindable (reportRow report now).count ∧
        Db.Bindable (reportRow report now).sequence := report.storable_iff.mp hstorable
    right
    by_cases hconflict : db.Holds report ∨ db.devices.get? report.deviceId = none
    · exact .inl ⟨hstorable, hconflict,
        undisturbed_conflict (Db.insertReport_conflict hbind hconflict)⟩
    · right
      obtain ⟨hunique, hdevice⟩ := not_or.mp hconflict
      obtain ⟨device, hdevice⟩ := Option.ne_none_iff_exists'.mp hdevice
      obtain ⟨inserted, hinsert, hreports, hdevices, hpolicies⟩ :=
        Db.insertReport_appends hbind hunique (Option.isSome_of_mem hdevice)
      obtain ⟨after, hupdate, hreports', hdevices', hpolicies'⟩ :=
        Db.updateMarks_spec report.deviceId inserted hbind.symm
      refine ⟨hstorable, hunique, device, after, hdevice, ⟨?_, ?_, ?_⟩,
        undisturbed_ok hinsert hupdate⟩
      · rw [hreports', hreports]
      · intro id
        rw [hdevices', hdevices, Dict.get?_modify]
        rfl
      · rw [hpolicies', hpolicies]
  · exact .inl ⟨hstorable,
      undisturbed_overflow (Db.insertReport_overflow (mt report.storable_iff.mpr hstorable))⟩

variable {scheme : SignatureScheme} {report : UsageReport} {now : Datetime}
  {fault : Option Statement} {db : Db}

theorem screenReport_none_iff : screenReport scheme db report = none ↔ db.Admits scheme report := by
  rw [← verifyReport_ok_iff]
  unfold screenReport
  cases hverify : verifyReport scheme db report with
  | error e => simp
  | ok result => cases hok : result.ok <;> simp [hok]

theorem screenReport_not_accepted {answer : Except PyException Response}
    (h : screenReport scheme db report = some answer) (other : UsageReport) :
    answer ≠ .ok (accepted other) := by
  unfold screenReport at h
  split at h
  · obtain rfl := Option.some.inj h
    exact fun e => nomatch e
  · split at h
    · contradiction
    · obtain rfl := Option.some.inj h
      exact fun e => nomatch e

theorem checkSequence_fail {last : Int} (h : report.sequence ≤ last) :
    ∃ detail, checkSequence report last = .fail .replay detail := ⟨_, if_pos h⟩

/-- An authentic report at or below the mark is answered as a replay. -/
theorem screenReport_replay {device : Device}
    (hdevice : db.devices.get? report.deviceId = some device)
    (hverifies : Verifies scheme report device.publicKey)
    (hle : report.sequence ≤ device.lastAcceptedSequence) :
    ∃ detail, screenReport scheme db report = some (.ok (rejection .replay detail)) := by
  obtain ⟨sig, hsig, hok⟩ := checkSignature_ok_iff.mpr hverifies
  obtain ⟨detail, hfail⟩ := checkSequence_fail hle
  have hverify : verifyReport scheme db report = .ok (.fail .replay detail) := by
    simp [verifyReport, fetchDevice, hdevice, hsig, bind, Except.bind, hok, hfail, pure,
      Except.pure]
  refine ⟨detail, ?_⟩
  simp only [screenReport, hverify, VerifyResult.fail_ok, Bool.false_eq_true, if_false]
  rfl

/-- A report is answered with the tables unchanged, or it is admitted and appended. -/
theorem postReport_cases (scheme : SignatureScheme) (report : UsageReport) (now : Datetime)
    (fault : Option Statement) (db : Db) :
    (∃ answer, postReport scheme report now fault db = (db, answer) ∧
      ∀ other, answer ≠ .ok (accepted other)) ∨
    (db.Admits scheme report ∧ report.Storable ∧ ¬db.Holds report ∧ ∃ after,
      db.Appends report now after ∧
      postReport scheme report now fault db = (after, .ok (accepted report))) := by
  unfold postReport
  cases hscreen : screenReport scheme db report with
  | some answer => exact .inl ⟨answer, rfl, screenReport_not_accepted hscreen⟩
  | none =>
    have hadmits := screenReport_none_iff.mp hscreen
    have hundisturbed := transaction_cases fault (Db.insertReport (reportRow report now))
      (Db.updateMarks report.deviceId report.sequence report.count) (accepted report) replayed db
    rw [← transaction_undisturbed] at hundisturbed
    rcases hundisturbed with ⟨-, hraised⟩ | hundisturbed
    · exact .inl ⟨_, hraised, fun other e => nomatch e⟩
    · have hcases := storeReport_cases report now db
      unfold storeReport at hcases ⊢
      rw [← hundisturbed] at hcases
      rcases hcases with ⟨-, h⟩ | ⟨-, -, h⟩ | ⟨hstorable, hnew, -, after, -, happends, h⟩
      · exact .inl ⟨_, h, fun other e => nomatch e⟩
      · exact .inl ⟨_, h, fun other e => nomatch e⟩
      · exact .inr ⟨hadmits, hstorable, hnew, after, happends, h⟩

theorem postReport_accepted
    (h : (postReport scheme report now fault db).2 = .ok (accepted report)) :
    db.Admits scheme report ∧ report.Storable ∧ ¬db.Holds report ∧
      db.Appends report now (postReport scheme report now fault db).1 := by
  rcases postReport_cases scheme report now fault db with
    ⟨answer, hanswer, hne⟩ | ⟨hadmits, hstorable, hnew, after, happends, hafter⟩
  · rw [hanswer] at h
    exact absurd h (hne report)
  · rw [hafter]
    exact ⟨hadmits, hstorable, hnew, happends⟩

theorem postReport_known (hdevice : (db.devices.get? report.deviceId).isSome) (now : Datetime)
    (fault : Option Statement) (detail : String) :
    (postReport scheme report now fault db).2 ≠ .ok (rejection .unknownDevice detail) := by
  unfold postReport screenReport
  cases hverify : verifyReport scheme db report with
  | error e => simp
  | ok result =>
    by_cases hok : result.ok
    · simp only [hok, if_true, storeReport]
      rcases transaction_cases fault (Db.insertReport (reportRow report now))
        (Db.updateMarks report.deviceId report.sequence report.count) (accepted report) replayed db
        with ⟨-, h⟩ | h
      · simp [h]
      · rw [h, undisturbed]
        split <;> simp [accepted, replayed, rejection]
    · simpa [hok, rejection] using fun _ h => absurd h (verifyReport_known hdevice hverify)

end BleUsageMeter.Backend
