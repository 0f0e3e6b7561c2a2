import BleUsageMeter.Backend.Encoding
import BleUsageMeter.Backend.Licence

/-! What an unsigned detail of a report can change.  The signature covers whole seconds of UTC, and
the stored text keeps the sender's spelling of the window.  Two reports that one signature
authenticates are answered alike; the licence tells them apart exactly when the cutoff text falls
between their spellings and the difference counts. -/

namespace BleUsageMeter.Backend

open Kit

section Congruence

variable {scheme : SignatureScheme} {db : Db} {r r' : UsageReport}

/-- The two reports have the same signed content and the same signature. -/
structure UsageReport.SameSigned (r r' : UsageReport) : Prop where
  deviceId : r.deviceId = r'.deviceId
  count : r.count = r'.count
  sequence : r.sequence = r'.sequence
  canonicalBytes : r.canonicalBytes = r'.canonicalBytes
  signature : r.signature = r'.signature

theorem UsageReport.SameSigned.of_bytes {m : List UInt8} (h : r.canonicalBytes = .ok m)
    (h' : r'.canonicalBytes = .ok m) (hsig : r.signature = r'.signature) : r.SameSigned r' := by
  obtain ⟨hid, hcount, hsequence, -⟩ := UsageReport.canonicalBytes_injective h h'
  exact ⟨hid, hcount, hsequence, h.trans h'.symm, hsig⟩

theorem screenReport_congr (scheme : SignatureScheme) (db : Db) (h : r.SameSigned r') :
    screenReport scheme db r = screenReport scheme db r' := by
  have hsignature : ∀ key, checkSignature scheme r key = checkSignature scheme r' key :=
    fun key => by rw [checkSignature, checkSignature, h.canonicalBytes, h.signature]
  have hsequence : ∀ last, checkSequence r last = checkSequence r' last :=
    fun last => by rw [checkSequence, checkSequence, h.sequence]
  have hcount : ∀ last, checkCountMonotonic r last = checkCountMonotonic r' last :=
    fun last => by rw [checkCountMonotonic, checkCountMonotonic, h.count]
  have hverify : verifyReport scheme db r = verifyReport scheme db r' := by
    simp only [verifyReport, h.deviceId, hsignature, hsequence, hcount]
  rw [screenReport, screenReport, hverify]

end Congruence

section Decisions

variable {py : Pydantic} {db db' : Db} {id : String} {now : Datetime} {today : Date}
  {policy : PolicyRecord}

/-- Without a limit in force the usage plays no part. -/
theorem evaluate_unlimited (h : ¬∃ quota days, policy.Limits today quota days)
    (used used' : Option Int) :
    Policy.evaluate (some policy) used today = Policy.evaluate (some policy) used' today := by
  unfold Policy.evaluate
  dsimp only
  split
  · rfl
  · rename_i hactive
    split
    · rfl
    · rename_i hexpired
      split
      · rename_i quota hquota
        split
        · rfl
        · rename_i hperiod
          exfalso
          cases hdays : policy.periodDays with
          | none => simp [hdays] at hperiod
          | some days =>
            exact h ⟨quota, days, by simpa using hactive, by simpa using hexpired, hquota, hdays,
              by simpa [hdays] using hperiod⟩
      · rfl

/-- Whether the usage can be measured does not depend on the reports. -/
theorem measure_cases (id : String) (policy : Option PolicyRecord) (now : Datetime) :
    (∃ e, ∀ db, Policy.measure db id policy now = .error e) ∨
      ∀ db, ∃ used, Policy.measure db id policy now = .ok used := by
  unfold Policy.measure
  split
  · exact .inr fun _ => ⟨_, rfl⟩
  · split
    · split
      · unfold Policy.usageInPeriod
        rename_i days _ _ _
        cases Policy.cutoff days now with
        | error e => exact .inl ⟨e, fun _ => rfl⟩
        | ok cutoff => exact .inr fun _ => ⟨_, rfl⟩
      · exact .inr fun _ => ⟨_, rfl⟩
    · exact .inr fun _ => ⟨_, rfl⟩

theorem decide_congr (hpolicies : db.policies = db'.policies)
    (hrows : db.reportsOf id = db'.reportsOf id) :
    Policy.decide py db id now today = Policy.decide py db' id now today := by
  simp only [Policy.decide, loadPolicy_congr py id hpolicies, Policy.measure,
    Policy.usageInPeriod, hrows]

theorem quotaDecision_inj {quota used used' : Int}
    (h : quotaDecision policy quota used = quotaDecision policy quota used') : used = used' := by
  have hused : ∀ u, (quotaDecision policy quota u).usedInPeriod = some u := by
    intro u
    unfold quotaDecision
    split <;> rfl
  have hsame := congrArg Decision.usedInPeriod h
  rw [hused, hused] at hsame
  exact Option.some.inj hsame

/-- Tables with the same policies decide alike exactly when every limit in force finds the same
usage in them. -/
theorem decide_eq_iff (hpolicies : db.policies = db'.policies) :
    Policy.decide py db id now today = Policy.decide py db' id now today ↔
      ∀ policy quota days cutoff, Policy.loadPolicy py db id = .ok (some policy) →
        policy.Limits today quota days → Policy.cutoff days now = .ok cutoff →
        Policy.usageAfter cutoff (db.reportsOf id) =
          Policy.usageAfter cutoff (db'.reportsOf id) := by
  have hload' : Policy.loadPolicy py db' id = Policy.loadPolicy py db id :=
    (loadPolicy_congr py id hpolicies).symm
  constructor
  · intro h policy quota days cutoff hload hlimits hcutoff
    rw [decide_limits hload hlimits hcutoff,
      decide_limits (hload'.trans hload) hlimits hcutoff] at h
    exact quotaDecision_inj (congrArg LicenseDecision.toDecision (Except.ok.inj h))
  · intro h
    cases hload : Policy.loadPolicy py db id with
    | error e => simp only [Policy.decide, hload', hload]
    | ok policy =>
      rcases measure_cases id policy now with ⟨e, hmeasure⟩ | hmeasure
      · simp only [Policy.decide, hload', hload, hmeasure, bind, Except.bind]
      · cases policy with
        | none => simp only [Policy.decide, hload', hload, Policy.measure]
        | some policy =>
          by_cases hlimits : ∃ quota days, policy.Limits today quota days
          · obtain ⟨quota, days, hlimits⟩ := hlimits
            obtain ⟨used, hused⟩ := hmeasure db
            rw [measure_limits hlimits] at hused
            cases hcutoff : Policy.cutoff days now with
            | error e =>
              rw [hcutoff] at hused
              cases hused
            | ok cutoff =>
              rw [decide_limits hload hlimits hcutoff,
                decide_limits (hload'.trans hload) hlimits hcutoff,
                h policy quota days cutoff hload hlimits hcutoff]
          · obtain ⟨used, hused⟩ := hmeasure db
            obtain ⟨used', hused'⟩ := hmeasure db'
            simp only [Policy.decide, hload', hload, hused, hused', bind, Except.bind,
              evaluate_unlimited hlimits used used']

end Decisions

/-! ### Two spellings of one signed report -/

section Submissions

variable {scheme : SignatureScheme} {py : Pydantic} {db after after' : Db} {r r' : UsageReport}
  {received now : Datetime} {today : Date}

/-- The answers of `get_usage` and `get_license` for every device. -/
def SameAccounting (py : Pydantic) (now : Datetime) (today : Date) (after after' : Db) : Prop :=
  ∀ id, getUsage id after = getUsage id after' ∧
    getLicense py id now today after = getLicense py id now today after'

/-- No cutoff of a limit in force separates the two spellings of the window end, unless the count
adds nothing to the baseline. -/
def Indistinguishable (py : Pydantic) (db : Db) (now : Datetime) (today : Date)
    (r r' : UsageReport) : Prop :=
  ∀ policy quota days cutoff, Policy.loadPolicy py db r.deviceId = .ok (some policy) →
    policy.Limits today quota days → Policy.cutoff days now = .ok cutoff →
    (textLt r.windowEnd.isoformat cutoff ↔ textLt r'.windowEnd.isoformat cutoff) ∨
      r.count = baseline cutoff (db.reportsOf r.deviceId)

/-- A baseline is a stored count or 0, so it is not above the count of an admitted report. -/
theorem baseline_le (hdb : db.Consistent) (hadmits : db.Admits scheme r) (cutoff : String) :
    baseline cutoff (db.reportsOf r.deviceId) ≤ r.count := by
  obtain ⟨device, hdevice, -, -, hcount⟩ := hadmits
  unfold baseline
  cases hlatest : latest (Policy.before cutoff (db.reportsOf r.deviceId)) with
  | none => simp
  | some row =>
    have hrow : row ∈ db.reportsOf r.deviceId :=
      (List.mem_filter.mp (latest_mem hlatest)).1
    have hle := (le_marksAfter (hdb.increasing _) hrow).2
    rw [← hdb.marks hdevice] at hle
    exact hle.trans hcount

theorem usageAfter_eq_iff (hdb : db.Consistent) (h : r.SameSigned r')
    (hadmits : db.Admits scheme r) (hadmits' : db.Admits scheme r')
    (happends : db.Appends r received after) (happends' : db.Appends r' received after')
    (cutoff : String) :
    Policy.usageAfter cutoff (after.reportsOf r.deviceId) =
        Policy.usageAfter cutoff (after'.reportsOf r.deviceId) ↔
      (textLt r.windowEnd.isoformat cutoff ↔ textLt r'.windowEnd.isoformat cutoff) ∨
        r.count = baseline cutoff (db.reportsOf r.deviceId) := by
  have husage' := usageAfter_append hdb hadmits' happends' cutoff
  rw [← h.deviceId, ← h.count] at husage'
  rw [usageAfter_append hdb hadmits happends, husage']
  have hle := baseline_le hdb hadmits cutoff
  generalize baseline cutoff (db.reportsOf r.deviceId) = base at hle ⊢
  by_cases hbefore : textLt r.windowEnd.isoformat cutoff <;>
    by_cases hbefore' : textLt r'.windowEnd.isoformat cutoff <;>
      simp only [hbefore, hbefore', Bool.false_eq_true, if_true, if_false, true_or, false_or,
        iff_true, iff_false, not_true_eq_false] <;> omega

theorem license_inj {x y : Except PyException LicenseDecision}
    (h : x.map Response.license = y.map Response.license) : x = y := by
  cases x <;> cases y <;> simp_all [Except.map]

theorem stored_accounting_iff (py : Pydantic) (now : Datetime) (today : Date)
    (hdb : db.Consistent) (h : r.SameSigned r')
    (hadmits : db.Admits scheme r) (hadmits' : db.Admits scheme r')
    (happends : db.Appends r received after) (happends' : db.Appends r' received after') :
    SameAccounting py now today after after' ↔ Indistinguishable py db now today r r' := by
  have hpolicies : after.policies = after'.policies :=
    happends.policies.trans happends'.policies.symm
  have hdevices : ∀ id, after.devices.get? id = after'.devices.get? id := by
    intro id
    rw [happends.devices, happends'.devices, h.deviceId, h.sequence, h.count]
  have hlength : ∀ id, (after.reportsOf id).length = (after'.reportsOf id).length := by
    intro id
    rw [Db.reportsOf_append happends, Db.reportsOf_append happends', h.deviceId]
    split <;> simp
  have husage : ∀ id, getUsage id after = getUsage id after' := by
    intro id
    simp only [getUsage, hdevices, hlength]
  have hother : ∀ id, id ≠ r.deviceId → after.reportsOf id = after'.reportsOf id := by
    intro id hne
    rw [Db.reportsOf_append happends, Db.reportsOf_append happends', if_neg hne,
      if_neg (h.deviceId ▸ hne)]
  have hregistered := hadmits
  obtain ⟨device, hdevice, -⟩ := hregistered
  obtain ⟨device', hdevice'⟩ : ∃ device', after.devices.get? r.deviceId = some device' :=
    ⟨_, by rw [happends.devices, if_pos rfl, hdevice]; rfl⟩
  have hlicense : SameAccounting py now today after after' ↔
      Policy.decide py after r.deviceId now today =
        Policy.decide py after' r.deviceId now today := by
    constructor
    · intro hsame
      have hequal := (hsame r.deviceId).2
      rw [getLicense, getLicense, ← hdevices, hdevice'] at hequal
      exact license_inj hequal
    · intro hequal id
      refine ⟨husage id, ?_⟩
      have hdecide : Policy.decide py after id now today =
          Policy.decide py after' id now today := by
        by_cases hid : id = r.deviceId
        · rw [hid, hequal]
        · exact decide_congr hpolicies (hother id hid)
      rw [getLicense, getLicense, ← hdevices, hdecide]
  rw [hlicense, decide_eq_iff hpolicies, Indistinguishable,
    loadPolicy_congr py r.deviceId happends.policies]
  simp only [usageAfter_eq_iff hdb h hadmits hadmits' happends happends']

theorem SameAccounting.refl (py : Pydantic) (now : Datetime) (today : Date) (db : Db) :
    SameAccounting py now today db db := fun _ => ⟨rfl, rfl⟩

/-- What becomes of a report that a consistent database admits. -/
theorem postReport_of_admits (received : Datetime) (hdb : db.Consistent)
    (hadmits : db.Admits scheme r) :
    (¬r.Storable ∧ postReport scheme r received none db = (db, .error .overflowError)) ∨
      (r.Storable ∧ ∃ after, db.Appends r received after ∧
        postReport scheme r received none db = (after, .ok (accepted r))) := by
  have hpost : postReport scheme r received none db =
      withConnection db (storeReport r received none) := by
    simp only [postReport, screenReport_none_iff.mpr hadmits]
  rw [hpost]
  obtain ⟨device, hdevice, -, hnewer, -⟩ := hadmits
  rcases storeReport_cases r received db with
    h | ⟨-, hholds | hnone, -⟩ | ⟨hstorable, -, -, after, -, happends, h⟩
  · exact .inl h
  · have hle := hdb.holds_le hdevice hholds
    omega
  · exact absurd (hdevice.symm.trans hnone) (by simp)
  · exact .inr ⟨hstorable, after, happends, h⟩

/-- Two reports that one signature authenticates are answered alike and leave the same accounting
exactly when nothing is stored or the licence cannot tell their windows apart. -/
theorem spellings_agree_iff {m : List UInt8} (hdb : db.Reachable scheme py)
    (hr : r.canonicalBytes = .ok m) (hr' : r'.canonicalBytes = .ok m)
    (hsignature : r.signature = r'.signature) :
    ((postReport scheme r received none db).2 = (postReport scheme r' received none db).2 ∧
      SameAccounting py now today (postReport scheme r received none db).1
        (postReport scheme r' received none db).1) ↔
    (db.Admits scheme r → r.Storable → Indistinguishable py db now today r r') := by
  have hsame := UsageReport.SameSigned.of_bytes hr hr' hsignature
  have hscreen := screenReport_congr scheme db hsame
  have hstorable : r.Storable ↔ r'.Storable := by
    rw [UsageReport.Storable, UsageReport.Storable, hsame.count, hsame.sequence]
  have haccepted : accepted r = accepted r' := by
    rw [accepted, accepted, hsame.deviceId, hsame.count, hsame.sequence]
  cases hanswer : screenReport scheme db r with
  | some answer =>
    have hnot : ¬db.Admits scheme r := by
      rw [← screenReport_none_iff, hanswer]
      simp
    have hpost : postReport scheme r received none db = (db, answer) := by
      simp only [postReport, hanswer]
    have hpost' : postReport scheme r' received none db = (db, answer) := by
      simp only [postReport, ← hscreen, hanswer]
    rw [hpost, hpost']
    exact ⟨fun _ hadmits => absurd hadmits hnot, fun _ => ⟨rfl, .refl py now today db⟩⟩
  | none =>
    have hadmits := screenReport_none_iff.mp hanswer
    have hadmits' := screenReport_none_iff.mp (hscreen ▸ hanswer)
    rcases postReport_of_admits received hdb.consistent hadmits with
      ⟨hover, h⟩ | ⟨hfits, after, happends, h⟩
    · rcases postReport_of_admits received hdb.consistent hadmits' with
        ⟨-, h'⟩ | ⟨hfits', -⟩
      · rw [h, h']
        exact ⟨fun _ _ hfits => absurd hfits hover, fun _ => ⟨rfl, .refl py now today db⟩⟩
      · exact absurd (hstorable.mpr hfits') hover
    · rcases postReport_of_admits received hdb.consistent hadmits' with
        ⟨hover', -⟩ | ⟨-, after', happends', h'⟩
      · exact absurd (hstorable.mp hfits) hover'
      · have haccounting := stored_accounting_iff py now today hdb.consistent
          hsame hadmits hadmits' happends happends'
        rw [h, h', haccepted]
        exact ⟨fun hequal _ _ => haccounting.mp hequal.2,
          fun hindistinct => ⟨rfl, haccounting.mpr (hindistinct hadmits hfits)⟩⟩

end Submissions

open SignatureScheme (sample)

/-- 1 January 2026, 00:00 UTC, as a clock an hour ahead spells it. -/
def shiftedDay : Datetime :=
  { sampleDay 1 with
    hour := 1
    utcoffset := some 3600
    hour_lt := by decide
    utcoffset_lt := by simp }

theorem shifted_canonicalBytes : (sampleReport 120 1 shiftedDay).canonicalBytes =
    (sampleReport 120 1 (sampleDay 1)).canonicalBytes := by
  decide +kernel

theorem sampleReport_canonicalBytes :
    (sampleReport 120 1 (sampleDay 1)).canonicalBytes = .ok
      (canonicalLayout (utf8 "d") 120 1 1767225600 1767225600) := by
  decide +kernel

theorem spellings_agree_iff_sample :
    ((postReport sample (sampleReport 120 1 (sampleDay 1)) (sampleDay 20) none overQuotaDb).2 =
        (postReport sample (sampleReport 120 1 shiftedDay) (sampleDay 20) none overQuotaDb).2 ∧
      SameAccounting samplePydantic (sampleDay 20) (sampleDay 20).date
        (postReport sample (sampleReport 120 1 (sampleDay 1)) (sampleDay 20) none overQuotaDb).1
        (postReport sample (sampleReport 120 1 shiftedDay) (sampleDay 20) none overQuotaDb).1) ↔
    (overQuotaDb.Admits sample (sampleReport 120 1 (sampleDay 1)) →
      (sampleReport 120 1 (sampleDay 1)).Storable →
      Indistinguishable samplePydantic overQuotaDb (sampleDay 20) (sampleDay 20).date
        (sampleReport 120 1 (sampleDay 1)) (sampleReport 120 1 shiftedDay)) :=
  spellings_agree_iff overQuotaDb_reachable sampleReport_canonicalBytes
    (shifted_canonicalBytes.trans sampleReport_canonicalBytes) (by decide +kernel)

/-- 30 days later the one spelling is before the cutoff and lifts the denial, the other is not. -/
theorem spelling_changes_license :
    let plain := sampleReport 120 1 (sampleDay 1)
    let shifted := sampleReport 120 1 shiftedDay
    let license := fun report => getLicense samplePydantic "d" (sampleDay 31) (sampleDay 31).date
      (postReport sample report (sampleDay 20) none overQuotaDb).1
    overQuotaDb.Reachable sample samplePydantic ∧
      shifted.canonicalBytes = plain.canonicalBytes ∧ shifted.signature = plain.signature ∧
      license plain = .ok (.license
        { allowed := true, reason := .ok, usedInPeriod := some 0, quotaUnits := some 50
          deviceId := "d" }) ∧
      license shifted = .ok (.license
        { allowed := false, reason := .overQuota, usedInPeriod := some 120, quotaUnits := some 50
          deviceId := "d" }) := by
  refine ⟨overQuotaDb_reachable, shifted_canonicalBytes, ?_, ?_, ?_⟩
  · decide +kernel
  · decide +kernel
  · decide +kernel

end BleUsageMeter.Backend
