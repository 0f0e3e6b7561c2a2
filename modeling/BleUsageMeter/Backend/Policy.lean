import BleUsageMeter.Backend.Models
import BleUsageMeter.Backend.Db

/-! `backend/policy.py`: the licence decision for a device, from its policy row and the usage that
its stored reports show for the period. -/

namespace BleUsageMeter.Backend

open Kit

inductive Reason
  | ok
  | noPolicy
  | inactive
  | expired
  | overQuota
  | unevaluable
deriving DecidableEq

structure PolicyRecord where
  deviceId : String
  active : Bool := false
  quotaUnits : Option Int := none
  periodDays : Option Int := none
  expiresOn : Option Date := none
  notes : Option String := none
deriving DecidableEq

structure Decision where
  allowed : Bool
  reason : Reason
  usedInPeriod : Option Int := none
  quotaUnits : Option Int := none
  expiresOn : Option Date := none
deriving DecidableEq

structure LicenseDecision extends Decision where
  deviceId : String
deriving DecidableEq

namespace Policy

/-- What may be raised while a policy row is loaded; `decide` catches both. -/
inductive LoadError
  | policyUnevaluable
  | validationError
deriving DecidableEq

/-- Python's `bool(value)`. -/
def truthy : SqlValue → Bool
  | .null => false
  | .integer n => n ≠ 0
  | .text s => s ≠ ""
  | .blob bytes => bytes ≠ []

/-- pydantic's reading of a column into an `Optional[int]`. -/
def optionalInt (py : Pydantic) : SqlValue → Except LoadError (Option Int)
  | .null => .ok none
  | .integer n => .ok (some n)
  | .text s => ((py.intOfText s).map some).elim (.error .validationError) .ok
  | .blob bytes => ((py.intOfBytes bytes).map some).elim (.error .validationError) .ok

/-- pydantic's reading of a column into an `Optional[str]`. -/
def optionalText : SqlValue → Except LoadError (Option String)
  | .null => .ok none
  | .integer _ => .error .validationError
  | .text s => .ok (some s)
  | .blob bytes => ((String.fromUTF8? ⟨bytes.toArray⟩).map some).elim (.error .validationError) .ok

/-- `date.fromisoformat` of a column. -/
def fromIsoformat : SqlValue → Except LoadError Date
  | .text s => (Date.ofIsoformat s).elim (.error .policyUnevaluable) .ok
  | _ => .error .policyUnevaluable

def loadPolicy (py : Pydantic) (db : Db) (deviceId : String) :
    Except LoadError (Option PolicyRecord) :=
  match db.policies.get? deviceId with
  | none => .ok none
  | some row => do
    let expiresOn ← if truthy row.expiresOn then (fromIsoformat row.expiresOn).map some
      else .ok none
    let quotaUnits ← optionalInt py row.quotaUnits
    let periodDays ← optionalInt py row.periodDays
    let notes ← optionalText row.notes
    return some
      { deviceId, active := truthy row.active, quotaUnits, periodDays, expiresOn, notes }

/-- The start of the rolling period, as the text that stored windows are compared with. -/
def cutoff (periodDays : Int) (now : Datetime) : Except PyException String :=
  (now.minusDays periodDays).map fun d => d.strftimeZ

/-- The rows whose window ends before the cutoff, by comparison of the texts. -/
def before (cutoff : String) (rows : List ReportRow) : List ReportRow :=
  rows.filter fun row => textLt row.windowEnd cutoff

/-- The usage that the rows of a device show after a cutoff. -/
def usageAfter (cutoff : String) (rows : List ReportRow) : Int :=
  match latest rows with
  | none => 0
  | some last =>
    let start := ((latest (before cutoff rows)).map (·.count)).getD 0
    max 0 (last.count - start)

def usageInPeriod (db : Db) (deviceId : String) (periodDays : Int) (now : Datetime) :
    Except PyException Int := do
  let cutoff ← cutoff periodDays now
  return usageAfter cutoff (db.reportsOf deviceId)

def evaluate (policy : Option PolicyRecord) (used : Option Int) (today : Date) : Decision :=
  match policy with
  | none => { allowed := false, reason := .noPolicy }
  | some policy =>
    if !policy.active then
      { allowed := false, reason := .inactive, expiresOn := policy.expiresOn }
    else if policy.expiresOn.any (fun expiresOn => expiresOn.lt today) then
      { allowed := false, reason := .expired, expiresOn := policy.expiresOn }
    else
      match policy.quotaUnits with
      | some quota =>
        if policy.periodDays.all (fun days => days ≤ 0) then
          { allowed := false, reason := .unevaluable, quotaUnits := quota }
        else
          match used with
          | none => { allowed := false, reason := .unevaluable, quotaUnits := quota }
          | some used =>
            if quota ≤ used then
              { allowed := false, reason := .overQuota, usedInPeriod := used, quotaUnits := quota
                expiresOn := policy.expiresOn }
            else
              { allowed := true, reason := .ok, usedInPeriod := used, quotaUnits := quota
                expiresOn := policy.expiresOn }
      | none => { allowed := true, reason := .ok, expiresOn := policy.expiresOn }

/-- The usage that `decide` measures before it evaluates a policy. -/
def measure (db : Db) (deviceId : String) (policy : Option PolicyRecord) (now : Datetime) :
    Except PyException (Option Int) :=
  match policy with
  | none => .ok none
  | some policy =>
    match policy.quotaUnits, policy.periodDays with
    | some _, some days =>
      if days ≠ 0 then (usageInPeriod db deviceId days now).map some else .ok none
    | _, _ => .ok none

/-- The decision at the clock reading `now`.  An `OverflowError` of the cutoff is not caught. -/
def decide (py : Pydantic) (db : Db) (deviceId : String) (now : Datetime) (today : Date) :
    Except PyException LicenseDecision :=
  match loadPolicy py db deviceId with
  | .error _ => .ok { allowed := false, reason := .unevaluable, deviceId }
  | .ok policy => do
    let used ← measure db deviceId policy now
    return { evaluate policy used today with deviceId }

end Policy

end BleUsageMeter.Backend
