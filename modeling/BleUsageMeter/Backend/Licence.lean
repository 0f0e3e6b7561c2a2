import BleUsageMeter.Backend.Ledger

/-! What an accepted report does to the licence decision of its device.  The usage of a period is
the latest count less the latest count of a window that ends before the period, and the text of the
claimed window end alone decides on which side a report falls. -/

namespace BleUsageMeter.Backend

open Kit

/-- The devices and the reports are those after a serial run; the operator may have set any
policies. -/
def Db.Reachable (scheme : SignatureScheme) (py : Pydantic) (db : Db) : Prop :=
  ∃ requests served, Run (serve scheme py) Always .empty requests served ∧
    db.devices = served.devices ∧ db.usageReports = served.usageReports

theorem Db.Reachable.consistent {scheme : SignatureScheme} {py : Pydantic} {db : Db}
    (h : db.Reachable scheme py) : db.Consistent := by
  obtain ⟨requests, served, hrun, hdevices, hreports⟩ := h
  have hserved := consistent_of_run hrun
  have hrows : ∀ id, db.reportsOf id = served.reportsOf id := by
    intro id
    rw [Db.reportsOf, hreports]
    rfl
  refine ⟨fun id => hrows id ▸ hserved.increasing id, hreports ▸ hserved.natural, ?_⟩
  intro id device hget
  rw [hdevices] at hget
  rw [hserved.marks hget, hrows]

theorem Db.Reachable.setPolicy {scheme : SignatureScheme} {py : Pydantic} {db : Db}
    (h : db.Reachable scheme py) (id : String) (row : PolicyRow) :
    ((db.setPolicy id row).toOption.getD db).Reachable scheme py := by
  unfold Db.setPolicy
  split
  · exact h
  · exact h

/-- The count that the usage after a cutoff is measured from. -/
def baseline (cutoff : String) (rows : List ReportRow) : Int :=
  ((latest (Policy.before cutoff rows)).map (·.count)).getD 0

section Usage

variable {rows : List ReportRow} {row : ReportRow} {cutoff : String}

theorem latest_concat (h : (rows ++ [row]).Pairwise ReportRow.Precedes) :
    latest (rows ++ [row]) = some row := by
  rw [latest_eq_getLast? h, List.getLast?_concat]

theorem usageAfter_concat (h : (rows ++ [row]).Pairwise ReportRow.Precedes) :
    Policy.usageAfter cutoff (rows ++ [row]) =
      if textLt row.windowEnd cutoff then 0 else max 0 (row.count - baseline cutoff rows) := by
  unfold Policy.usageAfter
  rw [latest_concat h]
  dsimp only
  split
  · rename_i hbefore
    have hfilter : Policy.before cutoff (rows ++ [row]) = Policy.before cutoff rows ++ [row] := by
      simp [Policy.before, hbefore]
    have hsorted : (Policy.before cutoff rows ++ [row]).Pairwise ReportRow.Precedes := by
      rw [← hfilter]; exact h.filter _
    rw [hfilter, latest_concat hsorted]
    simp
  · rename_i hafter
    have hfilter : Policy.before cutoff (rows ++ [row]) = Policy.before cutoff rows := by
      simp [Policy.before, hafter]
    rw [hfilter]
    rfl

/-- A newer row that is not before the cutoff does not lower the usage. -/
theorem usageAfter_le (h : (rows ++ [row]).Pairwise ReportRow.Precedes) :
    Policy.usageAfter cutoff rows ≤ max 0 (row.count - baseline cutoff rows) := by
  unfold Policy.usageAfter
  cases hlatest : latest rows with
  | none => exact Int.le_max_left _ _
  | some last =>
    have hlast : last ∈ rows := latest_mem hlatest
    have hle := ((List.pairwise_append.mp h).2.2 last hlast row (by simp)).2
    show max 0 (last.count - baseline cutoff rows) ≤ _
    omega

end Usage

/-! ### Decisions -/

section Decisions

variable {py : Pydantic} {db : Db} {id : String} {now : Datetime} {today : Date}
  {policy : PolicyRecord} {quota days : Int} {cutoff : String}

/-- A policy that is in force on `today` and limits the units of a period. -/
structure PolicyRecord.Limits (policy : PolicyRecord) (today : Date) (quota days : Int) : Prop where
  active : policy.active = true
  unexpired : policy.expiresOn.any (fun expiresOn => expiresOn.lt today) = false
  quotaUnits : policy.quotaUnits = some quota
  periodDays : policy.periodDays = some days
  positive : 0 < days

/-- The decision of a policy in force when `used` units are used. -/
def quotaDecision (policy : PolicyRecord) (quota used : Int) : Decision :=
  if quota ≤ used then
    { allowed := false, reason := .overQuota, usedInPeriod := used, quotaUnits := quota
      expiresOn := policy.expiresOn }
  else
    { allowed := true, reason := .ok, usedInPeriod := used, quotaUnits := quota
      expiresOn := policy.expiresOn }

theorem evaluate_limits (h : policy.Limits today quota days) (used : Int) :
    Policy.evaluate (some policy) (some used) today = quotaDecision policy quota used := by
  have hpositive : ¬days ≤ 0 := by have := h.positive; omega
  simp [Policy.evaluate, h.active, h.unexpired, h.quotaUnits, h.periodDays, hpositive,
    quotaDecision]

theorem limits_of_overQuota {used : Option Int}
    (h : (Policy.evaluate (some policy) used today).reason = .overQuota) :
    ∃ quota days used', policy.Limits today quota days ∧ used = some used' ∧ quota ≤ used' := by
  unfold Policy.evaluate at h
  dsimp only at h
  split at h
  · cases h
  · rename_i hactive
    split at h
    · cases h
    · rename_i hexpired
      split at h
      · rename_i quota hquota
        split at h
        · cases h
        · rename_i hperiod
          split at h
          · cases h
          · rename_i used'
            split at h
            · rename_i hle
              obtain ⟨days, hdays, hpositive⟩ :
                  ∃ days, policy.periodDays = some days ∧ 0 < days := by
                cases hdays : policy.periodDays with
                | none => simp [hdays] at hperiod
                | some days => exact ⟨days, rfl, by simpa [hdays] using hperiod⟩
              exact ⟨quota, days, used', ⟨by simpa using hactive, by simpa using hexpired, hquota,
                hdays, hpositive⟩, rfl, hle⟩
            · cases h
      · cases h

theorem measure_limits (h : policy.Limits today quota days) :
    Policy.measure db id (some policy) now =
      (Policy.cutoff days now).map fun cutoff =>
        some (Policy.usageAfter cutoff (db.reportsOf id)) := by
  have hne : days ≠ 0 := by have := h.positive; omega
  simp only [Policy.measure, h.quotaUnits, h.periodDays, hne, ne_eq, not_false_eq_true, if_true,
    Policy.usageInPeriod]
  cases Policy.cutoff days now <;> rfl

/-- Under a policy in force the decision compares the usage since the cutoff with the quota. -/
theorem decide_limits (hload : Policy.loadPolicy py db id = .ok (some policy))
    (h : policy.Limits today quota days) (hcutoff : Policy.cutoff days now = .ok cutoff) :
    Policy.decide py db id now today = .ok
      { quotaDecision policy quota (Policy.usageAfter cutoff (db.reportsOf id)) with
        deviceId := id } := by
  simp only [Policy.decide, hload, measure_limits h, hcutoff, Except.map, bind, Except.bind,
    evaluate_limits h, pure, Except.pure]

theorem policy_of_overQuota {decision : LicenseDecision}
    (hdecide : Policy.decide py db id now today = .ok decision)
    (hreason : decision.reason = .overQuota) :
    ∃ policy, Policy.loadPolicy py db id = .ok (some policy) := by
  unfold Policy.decide at hdecide
  split at hdecide
  · obtain rfl := Except.ok.inj hdecide
    cases hreason
  · rename_i policy hload
    cases policy with
    | none =>
      obtain rfl := Except.ok.inj hdecide
      cases hreason
    | some policy => exact ⟨policy, hload⟩

theorem overQuota_inv {decision : LicenseDecision}
    (hload : Policy.loadPolicy py db id = .ok (some policy))
    (hdecide : Policy.decide py db id now today = .ok decision)
    (hreason : decision.reason = .overQuota) :
    ∃ quota days cutoff, policy.Limits today quota days ∧ Policy.cutoff days now = .ok cutoff ∧
      quota ≤ Policy.usageAfter cutoff (db.reportsOf id) := by
  simp only [Policy.decide, hload, bind, Except.bind] at hdecide
  cases hmeasure : Policy.measure db id (some policy) now with
  | error e =>
    rw [hmeasure] at hdecide
    cases hdecide
  | ok used =>
    rw [hmeasure] at hdecide
    obtain rfl := Except.ok.inj hdecide
    obtain ⟨quota, days, used', hlimits, rfl, hle⟩ := limits_of_overQuota hreason
    rw [measure_limits hlimits] at hmeasure
    cases hcutoff : Policy.cutoff days now with
    | error e =>
      rw [hcutoff] at hmeasure
      cases hmeasure
    | ok cutoff =>
      rw [hcutoff] at hmeasure
      obtain rfl := Option.some.inj (Except.ok.inj hmeasure)
      exact ⟨quota, days, cutoff, hlimits, hcutoff, hle⟩

/-- The policies of a database decide how a device's policy loads. -/
theorem loadPolicy_congr {after : Db} (py : Pydantic) (id : String)
    (h : after.policies = db.policies) :
    Policy.loadPolicy py after id = Policy.loadPolicy py db id := by
  rw [Policy.loadPolicy, h]
  rfl

end Decisions

section Denial

variable {scheme : SignatureScheme} {py : Pydantic} {db after : Db} {report : UsageReport}
  {received now : Datetime} {today : Date} {fault : Option Statement} {policy : PolicyRecord}
  {quota days : Int} {denial : LicenseDecision}

theorem usageAfter_append (hdb : db.Consistent) (hadmits : db.Admits scheme report)
    (happends : db.Appends report received after) (cutoff : String) :
    Policy.usageAfter cutoff (after.reportsOf report.deviceId) =
      if textLt report.windowEnd.isoformat cutoff then 0
      else max 0 (report.count - baseline cutoff (db.reportsOf report.deviceId)) := by
  obtain ⟨device, hdevice, -, hadmits⟩ := hadmits
  have hsorted := (hdb.append hdevice hadmits happends).increasing report.deviceId
  rw [Db.reportsOf_append happends, if_pos rfl] at hsorted ⊢
  exact usageAfter_concat hsorted

theorem usageAfter_le_append (hdb : db.Consistent) (hadmits : db.Admits scheme report)
    (happends : db.Appends report received after) (cutoff : String) :
    Policy.usageAfter cutoff (db.reportsOf report.deviceId) ≤
      max 0 (report.count - baseline cutoff (db.reportsOf report.deviceId)) := by
  obtain ⟨device, hdevice, -, hadmits⟩ := hadmits
  have hsorted := (hdb.append hdevice hadmits happends).increasing report.deviceId
  rw [Db.reportsOf_append happends, if_pos rfl] at hsorted
  exact usageAfter_le hsorted

/-- A device over its quota stays denied when a report is accepted, unless the report's window ends
before the period by the comparison of the texts. -/
theorem denial_stays_iff (hdb : db.Reachable scheme py)
    (hload : Policy.loadPolicy py db report.deviceId = .ok (some policy))
    (hquota : policy.quotaUnits = some quota) (hdays : policy.periodDays = some days)
    (hdenial : Policy.decide py db report.deviceId now today = .ok denial)
    (hreason : denial.reason = .overQuota)
    (haccepted : (postReport scheme report received fault db).2 = .ok (accepted report)) :
    (∃ decision, Policy.decide py (postReport scheme report received fault db).1 report.deviceId
      now today = .ok decision ∧ decision.allowed = false) ↔
    ((∃ cutoff, Policy.cutoff days now = .ok cutoff ∧ ¬textLt report.windowEnd.isoformat cutoff) ∨
      quota ≤ 0) := by
  obtain ⟨hadmits, -, -, happends⟩ := postReport_accepted haccepted
  obtain ⟨quota', days', cutoff, hlimits, hcutoff, hle⟩ := overQuota_inv hload hdenial hreason
  obtain rfl := Option.some.inj (hquota.symm.trans hlimits.quotaUnits)
  obtain rfl := Option.some.inj (hdays.symm.trans hlimits.periodDays)
  have hload' := (loadPolicy_congr py report.deviceId happends.policies).trans hload
  have hmore := hle.trans (usageAfter_le_append hdb.consistent hadmits happends cutoff)
  rw [decide_limits hload' hlimits hcutoff, usageAfter_append hdb.consistent hadmits happends,
    hcutoff]
  by_cases hbefore : textLt report.windowEnd.isoformat cutoff
  · by_cases hzero : quota ≤ 0 <;> simp [hbefore, quotaDecision, hzero]
  · simp [hbefore, quotaDecision, hmore]

open SignatureScheme (sample)

def sampleDay (day : Nat) (h : 1 ≤ day ∧ day ≤ 31 := by decide) : Datetime :=
  { Datetime.epoch with
    date := { Datetime.epoch.date with
      year := 2026
      day
      year_pos := by decide
      year_le := by decide
      day_pos := h.1
      day_le := h.2 } }

/-- 50 units in 30 days. -/
def samplePolicy : PolicyRow where
  active := .integer 1
  quotaUnits := .integer 50
  periodDays := .integer 30
  expiresOn := .null
  notes := .null

/-- The sample device has reported 100 units in January and is over its quota. -/
def overQuotaDb : Db :=
  let served := servedAll
    [.registerDevice sampleRegistration .epoch,
      .postReport (sampleReport 100 0 (sampleDay 15)) (sampleDay 15) none]
  (served.setPolicy "d" samplePolicy).toOption.getD served

theorem overQuotaDb_reachable : overQuotaDb.Reachable sample samplePydantic :=
  .setPolicy ⟨_, _, servedAll_run _, rfl, rfl⟩ "d" samplePolicy

theorem overQuotaDb_policy :
    Policy.loadPolicy samplePydantic overQuotaDb "d" = .ok (some
      { deviceId := "d", active := true, quotaUnits := some 50, periodDays := some 30 }) := by
  decide +kernel

theorem overQuotaDb_denied :
    Policy.decide samplePydantic overQuotaDb "d" (sampleDay 20) (sampleDay 20).date = .ok
      { allowed := false, reason := .overQuota, usedInPeriod := some 100, quotaUnits := some 50
        deviceId := "d" } := by
  decide +kernel

/-- A report for the same month meets the condition. -/
theorem denial_stays_iff_sample :
    (∃ decision, Policy.decide samplePydantic
      (postReport sample (sampleReport 120 1 (sampleDay 16)) (sampleDay 20) none overQuotaDb).1
      "d" (sampleDay 20) (sampleDay 20).date = .ok decision ∧ decision.allowed = false) ↔
    ((∃ cutoff, Policy.cutoff 30 (sampleDay 20) = .ok cutoff ∧
      ¬textLt (sampleReport 120 1 (sampleDay 16)).windowEnd.isoformat cutoff) ∨ (50 : Int) ≤ 0) :=
  denial_stays_iff overQuotaDb_reachable overQuotaDb_policy rfl rfl overQuotaDb_denied rfl
    (by decide +kernel)

/-- A report with a higher count and a window of the year 1970 turns the denial into an allow. -/
theorem denial_lifted :
    let after :=
      (postReport sample (sampleReport 120 1 .epoch) (sampleDay 20) none overQuotaDb).1
    overQuotaDb.Reachable sample samplePydantic ∧
      Policy.decide samplePydantic overQuotaDb "d" (sampleDay 20) (sampleDay 20).date = .ok
        { allowed := false, reason := .overQuota, usedInPeriod := some 100, quotaUnits := some 50
          deviceId := "d" } ∧
      (postReport sample (sampleReport 120 1 .epoch) (sampleDay 20) none overQuotaDb).2 =
        .ok (accepted (sampleReport 120 1 .epoch)) ∧
      Policy.decide samplePydantic after "d" (sampleDay 20) (sampleDay 20).date = .ok
        { allowed := true, reason := .ok, usedInPeriod := some 0, quotaUnits := some 50
          deviceId := "d" } := by
  refine ⟨overQuotaDb_reachable, overQuotaDb_denied, ?_, ?_⟩
  · decide +kernel
  · decide +kernel

end Denial

end BleUsageMeter.Backend
