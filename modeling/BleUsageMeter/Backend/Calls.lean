import BleUsageMeter.Kit.Tasks
import BleUsageMeter.Backend.Licence
import BleUsageMeter.Backend.Registration

/-! The request handlers of `backend/app.py` as tasks, one statement for each read of the tables and
one for each transaction, and what their statements may do to the tables.

A transaction is one statement because nobody sees its parts: SQLite gives the write lock to one
connection at a time, and readers see the tables as the last `COMMIT` left them.  A writer waits for
the lock, and here none waits so long that SQLite gives up with `database is locked`; where
`BEGIN IMMEDIATE` does give up, that is the exception that the report itself names. -/

namespace BleUsageMeter.Backend

open Kit

/-- A request, or the operator's change of a policy. -/
inductive Call
  | request (request : Request)
  | setPolicy (id : String) (row : PolicyRow)

def Request.deviceId : Request → String
  | .registerDevice req _ => req.deviceId
  | .postReport report _ _ => report.deviceId
  | .getUsage deviceId => deviceId
  | .getLicense deviceId _ _ => deviceId

def Call.deviceId : Call → String
  | .request r => r.deviceId
  | .setPolicy id _ => id

/-- A call that is being served. -/
abbrev Serving : Type := Task Db (Except PyException Response)

/-! ### The handlers -/

/-- `register_device`: the `SELECT`, and the `INSERT` if nothing answers before. -/
def registerTask (req : RegisterDeviceRequest) (now : Datetime) : Serving :=
  .read fun db =>
    match screenRegistration db req with
    | some answer => .done answer
    | none => .last fun db => storeDevice db req now

/-- `post_report`: the `SELECT` of `fetch_device`, and the transaction, of which the statement
`fault` raises, for instance a `BEGIN IMMEDIATE` that waits too long for the write lock. -/
def reportTask (scheme : SignatureScheme) (report : UsageReport) (now : Datetime)
    (fault : Option Statement) : Serving :=
  .read fun db =>
    match screenReport scheme db report with
    | some answer => .done answer
    | none => .last fun db => withConnection db (storeReport report now fault)

/-- The `COUNT(*)` of `get_usage`. -/
def countTask (deviceId : String) (device : Device) : Serving :=
  .read fun db => .done (.ok (.usage
    { deviceId
      totalCount := device.lastAcceptedCount
      lastAcceptedSequence := device.lastAcceptedSequence
      reports := (db.reportsOf deviceId).length }))

/-- `get_usage`. -/
def usageTask (deviceId : String) : Serving :=
  .read fun db =>
    match db.devices.get? deviceId with
    | none => .done (.ok (rejection .unknownDevice "device is not registered"))
    | some device => countTask deviceId device

section License

variable (deviceId : String) (now : Datetime) (today : Date)

/-- What `decide` returns for a policy and a measured usage. -/
def licenseAnswer (policy : Option PolicyRecord) (used : Option Int) :
    Except PyException Response :=
  .ok (.license { Policy.evaluate policy used today with deviceId })

/-- The second `SELECT` of `usage_in_period`, after one that found `last`. -/
def baselineTask (policy : PolicyRecord) (cutoff : String) (last : ReportRow) : Serving :=
  .read fun db => .done (licenseAnswer deviceId today (some policy)
    (some (max 0 (last.count - baseline cutoff (db.reportsOf deviceId)))))

/-- `usage_in_period`, and the evaluation of what it returns. -/
def periodTask (policy : PolicyRecord) (cutoff : String) : Serving :=
  .read fun db =>
    match latest (db.reportsOf deviceId) with
    | none => .done (licenseAnswer deviceId today (some policy) (some 0))
    | some last => baselineTask deviceId today policy cutoff last

/-- `decide` after its policy is loaded. -/
def measureTask (policy : Option PolicyRecord) : Serving :=
  match policy with
  | none => .done (licenseAnswer deviceId today none none)
  | some policy =>
    match policy.quotaUnits, policy.periodDays with
    | some _, some days =>
      if days ≠ 0 then
        match Policy.cutoff days now with
        | .error e => .done (.error e)
        | .ok cutoff => periodTask deviceId today policy cutoff
      else .done (licenseAnswer deviceId today (some policy) none)
    | _, _ => .done (licenseAnswer deviceId today (some policy) none)

/-- `decide`. -/
def decideTask (py : Pydantic) : Serving :=
  .read fun db =>
    match Policy.loadPolicy py db deviceId with
    | .error _ => .done (.ok (.license { allowed := false, reason := .unevaluable, deviceId }))
    | .ok policy => measureTask deviceId now today policy

/-- `get_license`. -/
def licenseTask (py : Pydantic) : Serving :=
  .read fun db =>
    match db.devices.get? deviceId with
    | none => .done (.ok (.license { allowed := false, reason := .noPolicy, deviceId }))
    | some _ => decideTask deviceId now today py

end License

/-- The statement by which the operator sets a policy.  Its answer is of no use here. -/
def policyTask (id : String) (row : PolicyRow) : Serving :=
  .last fun db =>
    match db.setPolicy id row with
    | .ok after => (after, .ok (.registered id))
    | .error e => (db, .error e)

def callTask (scheme : SignatureScheme) (py : Pydantic) : Call → Serving
  | .request (.registerDevice req now) => registerTask req now
  | .request (.postReport report now fault) => reportTask scheme report now fault
  | .request (.getUsage deviceId) => usageTask deviceId
  | .request (.getLicense deviceId now today) => licenseTask deviceId now today py
  | .setPolicy id row => policyTask id row

section Alone

variable {py : Pydantic} {deviceId : String} {now : Datetime} {today : Date} {db : Db}

theorem baselineTask_alone (policy : PolicyRecord) (cutoff : String) (last : ReportRow) :
    (baselineTask deviceId today policy cutoff last).alone db =
      (db, licenseAnswer deviceId today (some policy)
        (some (max 0 (last.count - baseline cutoff (db.reportsOf deviceId))))) := rfl

theorem periodTask_alone (policy : PolicyRecord) (cutoff : String) :
    (periodTask deviceId today policy cutoff).alone db =
      (db, licenseAnswer deviceId today (some policy)
        (some (Policy.usageAfter cutoff (db.reportsOf deviceId)))) := by
  rw [periodTask, Task.alone_read, Policy.usageAfter]
  cases latest (db.reportsOf deviceId) with
  | none => rfl
  | some last => rfl

/-- `decide` after its policy is loaded, in one go. -/
theorem measureTask_alone (policy : Option PolicyRecord) :
    (measureTask deviceId now today policy).alone db =
      (db, (Policy.measure db deviceId policy now).bind fun used =>
        licenseAnswer deviceId today policy used) := by
  cases policy with
  | none => rfl
  | some policy =>
    simp only [measureTask, Policy.measure]
    cases policy.quotaUnits with
    | none => rfl
    | some quota =>
      cases policy.periodDays with
      | none => rfl
      | some days =>
        dsimp only
        split
        · unfold Policy.usageInPeriod
          cases Policy.cutoff days now with
          | error e => rfl
          | ok cutoff => exact periodTask_alone policy cutoff
        · rfl

theorem decideTask_alone : (decideTask deviceId now today py).alone db =
    (db, (Policy.decide py db deviceId now today).map .license) := by
  rw [decideTask, Task.alone_read, Policy.decide]
  cases Policy.loadPolicy py db deviceId with
  | error e => rfl
  | ok policy =>
    dsimp only
    rw [measureTask_alone]
    cases Policy.measure db deviceId policy now with
    | error e => rfl
    | ok used => rfl

/-- The statements of `decide` after its policy is loaded only read. -/
theorem measureTask_obeys {P : Db → Db → Prop} (hread : ∀ db, P db db)
    (policy : Option PolicyRecord) : (measureTask deviceId now today policy).Obeys P := by
  unfold measureTask
  repeat' split
  all_goals try exact .done _
  refine .read hread fun db => ?_
  cases latest (db.reportsOf deviceId) with
  | none => exact .done _
  | some last => exact .read hread fun _ => .done _

/-- A handler that no other interrupts serves its request. -/
theorem callTask_alone (scheme : SignatureScheme) (py : Pydantic) (db : Db) (request : Request) :
    (callTask scheme py (.request request)).alone db = respond scheme py db request := by
  cases request with
  | registerDevice req now =>
    have hserial := postHandler_serial_device scheme db req now
    rw [respond, ← hserial]
    simp only [callTask, registerTask, Task.alone_read, TwoPhase.serial, postHandler]
    cases screenRegistration db req with
    | some answer => rfl
    | none => rfl
  | postReport report now fault =>
    simp only [callTask, reportTask, Task.alone_read, respond, postReport]
    cases screenReport scheme db report with
    | some answer => rfl
    | none => rfl
  | getUsage deviceId =>
    simp only [callTask, usageTask, Task.alone_read, respond, getUsage]
    cases db.devices.get? deviceId with
    | none => rfl
    | some device => rfl
  | getLicense deviceId now today =>
    simp only [callTask, licenseTask, Task.alone_read, respond, getLicense]
    cases db.devices.get? deviceId with
    | none => rfl
    | some device => exact decideTask_alone

end Alone

/-! ### What a statement does -/

/-- What a statement of a call may do to the tables. -/
inductive Db.Changes (call : Call) (db : Db) : Db → Prop
  | nothing : db.Changes call db
  | device {after : Db} (row : Device) (absent : db.devices.get? call.deviceId = none)
      (marks : row.marks = (-1, 0)) (devices : after.devices = db.devices.insert call.deviceId row)
      (usageReports : after.usageReports = db.usageReports)
      (policies : after.policies = db.policies) : db.Changes call after
  | report {after : Db} (report : UsageReport) (now : Datetime) (new : ¬db.Holds report)
      (deviceId : report.deviceId = call.deviceId) (appends : db.Appends report now after) :
      db.Changes call after
  | policy {after : Db} (id : String) (row : PolicyRow) (sets : call = .setPolicy id row)
      (policies : after.policies = db.policies.insert id row)
      (devices : after.devices = db.devices)
      (usageReports : after.usageReports = db.usageReports) : db.Changes call after

section Changes

variable {scheme : SignatureScheme} {py : Pydantic} {db : Db}

theorem storeDevice_changes (req : RegisterDeviceRequest) (now : Datetime) :
    db.Changes (.request (.registerDevice req now)) (storeDevice db req now).1 := by
  unfold storeDevice Db.insertDevice
  cases hdevice : db.devices.get? req.deviceId with
  | none => exact .device (deviceRow req now) hdevice rfl rfl rfl rfl
  | some device => exact .nothing

theorem storeReport_changes (report : UsageReport) (now : Datetime) (fault : Option Statement) :
    db.Changes (.request (.postReport report now fault))
      (withConnection db (storeReport report now fault)).1 := by
  have hundisturbed := transaction_cases fault (Db.insertReport (reportRow report now))
    (Db.updateMarks report.deviceId report.sequence report.count) (accepted report) replayed db
  rw [← transaction_undisturbed] at hundisturbed
  have hcases := storeReport_cases report now db
  unfold storeReport at hcases ⊢
  rcases hundisturbed with ⟨-, hraised⟩ | hundisturbed
  · rw [hraised]
    exact .nothing
  · rw [hundisturbed]
    rcases hcases with ⟨-, h⟩ | ⟨-, -, h⟩ | ⟨-, hnew, device, after, -, happends, h⟩
    · rw [h]
      exact .nothing
    · rw [h]
      exact .nothing
    · rw [h]
      exact .report report now hnew rfl happends

theorem setPolicy_changes {id : String} {row : PolicyRow} {after : Db}
    (h : db.setPolicy id row = .ok after) : db.Changes (.setPolicy id row) after := by
  unfold Db.setPolicy at h
  split at h
  · obtain rfl := Except.ok.inj h
    exact .policy id row rfl rfl rfl rfl
  · cases h

/-- Every statement of a call changes what the call is about at most. -/
theorem callTask_obeys (scheme : SignatureScheme) (py : Pydantic) (call : Call) :
    (callTask scheme py call).Obeys (Db.Changes call) := by
  have hread : ∀ db : Db, db.Changes call db := fun _ => .nothing
  cases call with
  | setPolicy id row =>
    refine .last fun db => ?_
    cases hset : db.setPolicy id row with
    | ok after => exact setPolicy_changes hset
    | error e => exact .nothing
  | request r =>
    cases r with
    | registerDevice req now =>
      refine .read hread fun db => ?_
      cases screenRegistration db req with
      | some answer => exact .done answer
      | none => exact .last fun db => storeDevice_changes req now
    | postReport report now fault =>
      refine .read hread fun db => ?_
      cases screenReport scheme db report with
      | some answer => exact .done answer
      | none => exact .last fun db => storeReport_changes report now fault
    | getUsage deviceId =>
      refine .read hread fun db => ?_
      cases db.devices.get? deviceId with
      | none => exact .done _
      | some device => exact .read hread fun db => .done _
    | getLicense deviceId now today =>
      refine .read hread fun db => ?_
      cases db.devices.get? deviceId with
      | none => exact .done _
      | some device =>
        refine .read hread fun db => ?_
        cases Policy.loadPolicy py db deviceId with
        | error e => exact .done _
        | ok policy => exact measureTask_obeys hread policy

end Changes

end BleUsageMeter.Backend
