import BleUsageMeter.Backend.Licence

/-! What happens to a failure of `decide`.  A statement that fails and a policy that does not load
end in a denial; the arithmetic of the cutoff raises an `OverflowError`, which no clause catches. -/

namespace BleUsageMeter.Backend

open Kit

namespace Policy

/-- The statements of `decide`. -/
inductive Query
  | policy
  | latest
  | baseline
deriving DecidableEq

/-- What `usage_in_period` may raise: `sqlite3.Error`, or an exception of the arithmetic. -/
inductive UsageError
  | sqliteError
  | raised (e : PyException)
deriving DecidableEq

/-- `usage_in_period` when the statements that `fails` names raise. -/
def usageInPeriodWith (fails : Query → Bool) (db : Db) (deviceId : String) (periodDays : Int)
    (now : Datetime) : Except UsageError Int :=
  match cutoff periodDays now with
  | .error e => .error (.raised e)
  | .ok cutoff =>
    if fails .latest then .error .sqliteError
    else if latest (db.reportsOf deviceId) = none then .ok 0
    else if fails .baseline then .error .sqliteError
    else .ok (usageAfter cutoff (db.reportsOf deviceId))

/-- The usage that `decide` measures: unknown when a statement fails. -/
def measureWith (fails : Query → Bool) (db : Db) (deviceId : String)
    (policy : Option PolicyRecord) (now : Datetime) : Except PyException (Option Int) :=
  match policy with
  | none => .ok none
  | some policy =>
    match policy.quotaUnits, policy.periodDays with
    | some _, some days =>
      if days ≠ 0 then
        match usageInPeriodWith fails db deviceId days now with
        | .ok used => .ok (some used)
        | .error .sqliteError => .ok none
        | .error (.raised e) => .error e
      else .ok none
    | _, _ => .ok none

/-- `decide` when the statements that `fails` names raise. -/
def decideWith (fails : Query → Bool) (py : Pydantic) (db : Db) (deviceId : String)
    (now : Datetime) (today : Date) : Except PyException LicenseDecision :=
  if fails .policy then .ok { allowed := false, reason := .unevaluable, deviceId }
  else
    match loadPolicy py db deviceId with
    | .error _ => .ok { allowed := false, reason := .unevaluable, deviceId }
    | .ok policy => do
      let used ← measureWith fails db deviceId policy now
      return { evaluate policy used today with deviceId }

/-- The usage of the period is measured for the policy. -/
structure Measures (policy : PolicyRecord) (days : Int) : Prop where
  quotaUnits : policy.quotaUnits ≠ none
  periodDays : policy.periodDays = some days
  nonzero : days ≠ 0

/-- `timedelta` takes the days, and the date that many days before `now` is in the years 1 to
9999. -/
structure Representable (days : Int) (now : Datetime) : Prop where
  timedelta : -999999999 ≤ days ∧ days ≤ 999999999
  date : 1 ≤ now.date.ordinal - days ∧ now.date.ordinal - days ≤ maxOrdinal

section

variable (fails : Query → Bool) (py : Pydantic) (db : Db) (deviceId : String) (now : Datetime)
  (today : Date)

/-- Loading the policy or measuring the usage raises. -/
def Fails : Prop :=
  fails .policy = true ∨ (∃ e, loadPolicy py db deviceId = .error e) ∨
    ∃ policy days e, loadPolicy py db deviceId = .ok (some policy) ∧ Measures policy days ∧
      usageInPeriodWith fails db deviceId days now = .error e

/-- A decision is made, and it is a denial if loading or measuring has failed. -/
def LandsOnDeny : Prop :=
  ∃ decision, decideWith fails py db deviceId now today = .ok decision ∧
    (Fails fails py db deviceId now → decision.allowed = false)

end

variable {fails : Query → Bool} {py : Pydantic} {db : Db} {deviceId : String} {now : Datetime}
  {today : Date} {policy : PolicyRecord} {days : Int}

theorem usageInPeriodWith_none (db : Db) (deviceId : String) (days : Int) (now : Datetime) :
    usageInPeriodWith (fun _ => false) db deviceId days now =
      (usageInPeriod db deviceId days now).mapError .raised := by
  unfold usageInPeriodWith usageInPeriod
  cases cutoff days now with
  | error e => rfl
  | ok cutoff =>
    cases hlatest : latest (db.reportsOf deviceId) with
    | none =>
      have husage : usageAfter cutoff (db.reportsOf deviceId) = 0 := by
        unfold usageAfter
        rw [hlatest]
      simp [bind, Except.bind, pure, Except.pure, Except.mapError, husage]
    | some last => simp [bind, Except.bind, pure, Except.pure, Except.mapError]

/-- The usage of a policy that is measured. -/
theorem measureWith_measures (h : Measures policy days) :
    measureWith fails db deviceId (some policy) now =
      match usageInPeriodWith fails db deviceId days now with
      | .ok used => .ok (some used)
      | .error .sqliteError => .ok none
      | .error (.raised e) => .error e := by
  obtain ⟨quota, hquota⟩ := Option.ne_none_iff_exists'.mp h.quotaUnits
  simp only [measureWith, hquota, h.periodDays, h.nonzero, ne_eq, not_false_eq_true, if_true]

/-- The usage of any other policy is left unknown. -/
theorem measure_unmeasured (h : ¬∃ days, Measures policy days) :
    measureWith fails db deviceId (some policy) now = .ok none ∧
      measure db deviceId (some policy) now = .ok none := by
  obtain ⟨id, active, quotaUnits, periodDays, expiresOn, notes⟩ := policy
  cases quotaUnits with
  | none => exact ⟨rfl, rfl⟩
  | some quota =>
    cases periodDays with
    | none => exact ⟨rfl, rfl⟩
    | some days =>
      have hzero : ¬days ≠ 0 := fun hne => h ⟨days, by simp, rfl, hne⟩
      exact ⟨if_neg hzero, if_neg hzero⟩

theorem decideWith_none (py : Pydantic) (db : Db) (deviceId : String) (now : Datetime)
    (today : Date) :
    decideWith (fun _ => false) py db deviceId now today = decide py db deviceId now today := by
  have hmeasure : ∀ policy, measureWith (fun _ => false) db deviceId policy now =
      measure db deviceId policy now := by
    intro policy
    cases policy with
    | none => rfl
    | some policy =>
      by_cases hmeasured : ∃ days, Measures policy days
      · obtain ⟨days, hmeasures⟩ := hmeasured
        obtain ⟨quota, hquota⟩ := Option.ne_none_iff_exists'.mp hmeasures.quotaUnits
        rw [measureWith_measures hmeasures, usageInPeriodWith_none]
        simp only [measure, hquota, hmeasures.periodDays, hmeasures.nonzero, ne_eq,
          not_false_eq_true, if_true]
        cases usageInPeriod db deviceId days now <;> rfl
      · obtain ⟨hwith, hnone⟩ := measure_unmeasured hmeasured
        rw [hwith, hnone]
  cases hload : loadPolicy py db deviceId with
  | error e => simp only [decideWith, decide, hload, Bool.false_eq_true, if_false]
  | ok policy => simp only [decideWith, decide, hload, hmeasure, Bool.false_eq_true, if_false]

theorem cutoff_isOk_iff : (∃ text, cutoff days now = .ok text) ↔ Representable days now := by
  have hlocal : now.localSeconds =
      now.date.ordinal * 86400 + (now.hour * 3600 + now.minute * 60 + now.second) := rfl
  have := now.hour_lt
  have := now.minute_lt
  have := now.second_lt
  unfold cutoff Datetime.minusDays
  by_cases hdelta : -999999999 ≤ days ∧ days ≤ 999999999
  · rw [if_pos hdelta]
    by_cases hdate : 1 ≤ now.date.ordinal - days ∧ now.date.ordinal - days ≤ maxOrdinal
    · obtain ⟨start, hstart⟩ : ∃ start, now.addSeconds (-days * 86400) = .ok start :=
        Datetime.addSeconds_isOk (by omega) (by omega)
      rw [hstart]
      exact ⟨fun _ => ⟨hdelta, hdate⟩, fun _ => ⟨_, rfl⟩⟩
    · rw [Datetime.addSeconds_isError (by omega)]
      exact ⟨(fun ⟨_, h⟩ => by cases h), fun h => absurd h.date hdate⟩
  · rw [if_neg hdelta]
    exact ⟨(fun ⟨_, h⟩ => by cases h), fun h => absurd h.timedelta hdelta⟩

/-- The arithmetic of the cutoff is all that raises while the usage is measured. -/
theorem usageInPeriodWith_cases (fails : Query → Bool) (db : Db) (deviceId : String) (days : Int)
    (now : Datetime) :
    (¬Representable days now ∧ ∃ e, usageInPeriodWith fails db deviceId days now =
      .error (.raised e)) ∨
    (Representable days now ∧ (usageInPeriodWith fails db deviceId days now =
      .error .sqliteError ∨ ∃ used, usageInPeriodWith fails db deviceId days now = .ok used)) := by
  unfold usageInPeriodWith
  cases hcutoff : cutoff days now with
  | error e =>
    refine .inl ⟨fun hrepresentable => ?_, e, rfl⟩
    obtain ⟨text, htext⟩ := cutoff_isOk_iff.mpr hrepresentable
    rw [hcutoff] at htext
    cases htext
  | ok text =>
    refine .inr ⟨cutoff_isOk_iff.mp ⟨text, hcutoff⟩, ?_⟩
    dsimp only
    split
    · exact .inl rfl
    · split
      · exact .inr ⟨_, rfl⟩
      · split
        · exact .inl rfl
        · exact .inr ⟨_, rfl⟩

/-- Without a usage, a policy with a quota does not allow. -/
theorem evaluate_unknown (hquota : policy.quotaUnits ≠ none) :
    (evaluate (some policy) none today).allowed = false := by
  obtain ⟨quota, hquota⟩ := Option.ne_none_iff_exists'.mp hquota
  unfold evaluate
  simp only [hquota]
  split
  · rfl
  · split
    · rfl
    · split <;> rfl

theorem decideWith_unloaded (h : fails .policy = true ∨ ∃ e, loadPolicy py db deviceId = .error e) :
    decideWith fails py db deviceId now today =
      .ok { allowed := false, reason := .unevaluable, deviceId } := by
  unfold decideWith
  rcases h with hquery | ⟨e, hload⟩
  · rw [if_pos hquery]
  · split
    · rfl
    · rw [hload]

theorem decideWith_loaded {loaded : Option PolicyRecord} (hquery : fails .policy = false)
    (hload : loadPolicy py db deviceId = .ok loaded) :
    decideWith fails py db deviceId now today =
      (measureWith fails db deviceId loaded now).map fun used =>
        { evaluate loaded used today with deviceId } := by
  unfold decideWith
  rw [if_neg (by simp [hquery]), hload]
  dsimp only
  cases measureWith fails db deviceId loaded now <;> rfl

/-- Every failure lands on deny exactly when the policy that is measured has a period whose cutoff
is a date. -/
theorem landsOnDeny_iff : LandsOnDeny fails py db deviceId now today ↔
    ∀ policy days, fails .policy = false → loadPolicy py db deviceId = .ok (some policy) →
      Measures policy days → Representable days now := by
  constructor
  · rintro ⟨decision, hdecide, -⟩ policy days hquery hload hmeasures
    rcases usageInPeriodWith_cases fails db deviceId days now with ⟨-, e, he⟩ | ⟨h, -⟩
    · rw [decideWith_loaded hquery hload, measureWith_measures hmeasures, he] at hdecide
      cases hdecide
    · exact h
  · intro h
    by_cases hfails : fails .policy = true ∨ ∃ e, loadPolicy py db deviceId = .error e
    · exact ⟨_, decideWith_unloaded hfails, fun _ => rfl⟩
    · obtain ⟨hquery, hloads⟩ := not_or.mp hfails
      have hquery : fails .policy = false := by simpa using hquery
      obtain ⟨loaded, hload⟩ : ∃ loaded, loadPolicy py db deviceId = .ok loaded := by
        cases hload : loadPolicy py db deviceId with
        | error e => exact absurd ⟨e, hload⟩ hloads
        | ok loaded => exact ⟨loaded, rfl⟩
      -- a failure that is left is one of the measurement
      have hleft : Fails fails py db deviceId now → ∃ policy days e, loaded = some policy ∧
          Measures policy days ∧ usageInPeriodWith fails db deviceId days now = .error e := by
        rintro (hpolicy | hload' | ⟨policy, days, e, hload', hmeasures, he⟩)
        · exact absurd (.inl hpolicy) hfails
        · exact absurd hload' hloads
        · exact ⟨policy, days, e, Except.ok.inj (hload.symm.trans hload'), hmeasures, he⟩
      unfold LandsOnDeny
      rw [decideWith_loaded hquery hload]
      rcases loaded with _ | policy
      · exact ⟨_, rfl, fun hfailed => by obtain ⟨_, _, _, hnone, -⟩ := hleft hfailed; cases hnone⟩
      · by_cases hmeasured : ∃ days, Measures policy days
        · obtain ⟨days, hmeasures⟩ := hmeasured
          rw [measureWith_measures hmeasures]
          rcases usageInPeriodWith_cases fails db deviceId days now with
            ⟨hnot, -⟩ | ⟨-, herror | ⟨used, hused⟩⟩
          · exact absurd (h policy days hquery hload hmeasures) hnot
          · rw [herror]
            exact ⟨_, rfl, fun _ => evaluate_unknown hmeasures.quotaUnits⟩
          · rw [hused]
            refine ⟨_, rfl, fun hfailed => ?_⟩
            obtain ⟨policy', days', e, hsame, hmeasures', he⟩ := hleft hfailed
            obtain rfl := Option.some.inj hsame
            obtain rfl := Option.some.inj (hmeasures.periodDays.symm.trans hmeasures'.periodDays)
            cases hused.symm.trans he
        · rw [(measure_unmeasured hmeasured).1]
          refine ⟨_, rfl, fun hfailed => ?_⟩
          obtain ⟨policy', days, e, hsame, hmeasures, -⟩ := hleft hfailed
          obtain rfl := Option.some.inj hsame
          exact absurd ⟨days, hmeasures⟩ hmeasured

open SignatureScheme (sample)

/-- The sample device with a period of a million days. -/
def longPeriodDb : Db :=
  (overQuotaDb.setPolicy "d" { samplePolicy with periodDays := .integer 1000000 }).toOption.getD
    overQuotaDb

/-- The period of a million days begins before the year 1, and `decide` raises. -/
theorem decide_raises : longPeriodDb.Reachable sample samplePydantic ∧
    Policy.decide samplePydantic longPeriodDb "d" (sampleDay 20) (sampleDay 20).date =
      .error .overflowError := by
  refine ⟨.setPolicy overQuotaDb_reachable "d" _, ?_⟩
  decide +kernel

end Policy

end BleUsageMeter.Backend
