import BleUsageMeter.Backend.Licence

/-! `policy.py` says that it fails closed.  The columns of a policy row pass through SQLite's
affinities, Python's truth values and pydantic before they are evaluated, and an allow rests on the
row as it was read.  A decision is as the row says exactly when no column of a row that permits use
is misread on this way. -/

namespace BleUsageMeter.Backend

open Kit Policy

/-- The value is of the kind that an `INTEGER` column declares. -/
def SqlValue.IsInteger : SqlValue → Prop
  | .null | .integer _ => True
  | .text _ | .blob _ => False

/-- The value is a text that is a date and nothing else. -/
def SqlValue.IsDate : SqlValue → Prop
  | .text s => ∃ date : Date, date.IsWritten s
  | .null | .integer _ | .blob _ => False

namespace PolicyRow

variable (py : Pydantic) (row : PolicyRow) (db : Db) (deviceId : String) (now : Datetime)
  (today : Date)

/-- The row says, column by column, that the device may be used. -/
structure Clears : Prop where
  active : ∃ n, row.active = .integer n ∧ n ≠ 0
  expiresOn : row.expiresOn = .null ∨ ∃ s, ∃ expiry : Date,
    row.expiresOn = .text s ∧ expiry.IsWritten s ∧ expiry.lt today = false
  quota : row.quotaUnits = .null ∨ ∃ quota days used, row.quotaUnits = .integer quota ∧
    row.periodDays = .integer days ∧ 0 < days ∧
    usageInPeriod db deviceId days now = .ok used ∧ used < quota

/-- The row, as Python and pydantic read it, permits use. -/
structure Permits : Prop where
  active : truthy row.active = true
  expiresOn : truthy row.expiresOn = true →
    ∃ expiry, fromIsoformat row.expiresOn = .ok expiry ∧ expiry.lt today = false
  notes : ∃ notes, optionalText row.notes = .ok notes
  quota : ∃ quota period, optionalInt py row.quotaUnits = .ok quota ∧
    optionalInt py row.periodDays = .ok period ∧ ∀ units ∈ quota, ∃ days ∈ period, 0 < days ∧
      ∃ used, usageInPeriod db deviceId days now = .ok used ∧ used < units

/-- The columns hold what they are read as: `active` and the quota no text or blob, and `expires_on`
`NULL` or a text that is a date from its first character to its last. -/
structure Exact : Prop where
  active : row.active.IsInteger
  expiresOn : row.expiresOn = .null ∨ row.expiresOn.IsDate
  quotaUnits : row.quotaUnits.IsInteger
  periodDays : row.quotaUnits = .null ∨ row.periodDays.IsInteger

end PolicyRow

namespace Policy

variable {py : Pydantic} {db : Db} {deviceId : String} {now : Datetime} {today : Date}
  {row : PolicyRow} {policy : Option PolicyRecord} {record : PolicyRecord}

/-- An allow is for a row that says so. -/
def FailsClosed (py : Pydantic) (db : Db) (deviceId : String) (now : Datetime) (today : Date) :
    Prop :=
  ∀ d, decide py db deviceId now today = .ok d → d.allowed = true →
    ∃ row, db.policies.get? deviceId = some row ∧ row.Clears db deviceId now today

/-! ### What is allowed -/

theorem loadPolicy_none (h : db.policies.get? deviceId = none) :
    loadPolicy py db deviceId = .ok none := by
  rw [loadPolicy, h]

/-- The columns that are read after `expires_on`. -/
theorem record_eq_ok {expiry : Except LoadError (Option Date)} :
    (do
      let expiresOn ← expiry
      let quotaUnits ← optionalInt py row.quotaUnits
      let periodDays ← optionalInt py row.periodDays
      let notes ← optionalText row.notes
      return some
        { deviceId, active := truthy row.active, quotaUnits, periodDays, expiresOn, notes }
        : Except LoadError (Option PolicyRecord)) = .ok policy ↔
    ∃ expiresOn quotaUnits periodDays notes, expiry = .ok expiresOn ∧
      optionalInt py row.quotaUnits = .ok quotaUnits ∧
      optionalInt py row.periodDays = .ok periodDays ∧ optionalText row.notes = .ok notes ∧
      policy = some
        { deviceId, active := truthy row.active, quotaUnits, periodDays, expiresOn, notes } := by
  simp only [bind_eq_ok, pure, Except.pure, Except.ok.injEq]
  constructor
  · rintro ⟨expiresOn, hexpires, quotaUnits, hquota, periodDays, hperiod, notes, hnotes, rfl⟩
    exact ⟨expiresOn, quotaUnits, periodDays, notes, hexpires, hquota, hperiod, hnotes, rfl⟩
  · rintro ⟨expiresOn, quotaUnits, periodDays, notes, hexpires, hquota, hperiod, hnotes, rfl⟩
    exact ⟨expiresOn, hexpires, quotaUnits, hquota, periodDays, hperiod, notes, hnotes, rfl⟩

theorem loadPolicy_some (h : db.policies.get? deviceId = some row) :
    loadPolicy py db deviceId = .ok policy ↔ ∃ expiresOn quotaUnits periodDays notes,
      (if truthy row.expiresOn then (fromIsoformat row.expiresOn).map some else .ok none) =
        .ok expiresOn ∧ optionalInt py row.quotaUnits = .ok quotaUnits ∧
      optionalInt py row.periodDays = .ok periodDays ∧ optionalText row.notes = .ok notes ∧
      policy = some
        { deviceId, active := truthy row.active, quotaUnits, periodDays, expiresOn, notes } := by
  simp only [loadPolicy, h]
  by_cases htruthy : truthy row.expiresOn = true
  · rw [if_pos htruthy, if_pos htruthy]
    exact record_eq_ok
  · rw [if_neg htruthy, if_neg htruthy]
    exact record_eq_ok

theorem evaluate_allowed_iff {used : Option Int} :
    (evaluate (some record) used today).allowed = true ↔ record.active = true ∧
      record.expiresOn.any (fun expiresOn => expiresOn.lt today) = false ∧
      ∀ units ∈ record.quotaUnits, ∃ days ∈ record.periodDays, 0 < days ∧
        ∃ units' ∈ used, units' < units := by
  obtain ⟨id, active, quotaUnits, periodDays, expiresOn, notes⟩ := record
  dsimp only [evaluate]
  cases active with
  | false => simp
  | true =>
    cases hexpired : expiresOn.any fun expiresOn => expiresOn.lt today with
    | true => simp
    | false =>
      cases quotaUnits with
      | none => simp
      | some units =>
        cases periodDays with
        | none => simp
        | some days =>
          by_cases hpos : days ≤ 0
          · simp [hpos]
          · cases used with
            | none => simp [hpos]
            | some units' =>
              by_cases hle : units ≤ units'
              · simp [hpos, hle]
              · simp [hpos, hle]
                omega

theorem measure_units {units days : Int} (hunits : units ∈ record.quotaUnits)
    (hdays : days ∈ record.periodDays) (hpos : 0 < days) :
    measure db deviceId (some record) now = (usageInPeriod db deviceId days now).map some := by
  have hne : days ≠ 0 := by omega
  simp only [measure, Option.mem_def.mp hunits, Option.mem_def.mp hdays, hne, ne_eq,
    not_false_eq_true, if_true]

theorem permits_of_allowed {d : LicenseDecision} (h : db.policies.get? deviceId = some row)
    (hdecide : decide py db deviceId now today = .ok d) (hallowed : d.allowed = true) :
    row.Permits py db deviceId now today := by
  unfold decide at hdecide
  split at hdecide
  · obtain rfl := Except.ok.inj hdecide
    cases hallowed
  · rename_i policy hload
    obtain ⟨expiresOn, quotaUnits, periodDays, notes, hexpires, hquota, hperiod, hnotes, rfl⟩ :=
      (loadPolicy_some h).mp hload
    obtain ⟨used, hmeasure, hd⟩ := bind_eq_ok.mp hdecide
    obtain rfl := Except.ok.inj hd
    obtain ⟨hactive, hexpired, hunits⟩ := evaluate_allowed_iff.mp hallowed
    refine ⟨hactive, ?_, ⟨notes, hnotes⟩, quotaUnits, periodDays, hquota, hperiod, ?_⟩
    · intro htruthy
      rw [if_pos htruthy] at hexpires
      obtain ⟨expiry, hdate, rfl⟩ := map_eq_ok.mp hexpires
      exact ⟨expiry, hdate, hexpired⟩
    · intro units hlimit
      obtain ⟨days, hdays, hpos, used', hused, hlt⟩ := hunits units hlimit
      rw [measure_units hlimit hdays hpos] at hmeasure
      obtain ⟨usage, husage, rfl⟩ := map_eq_ok.mp hmeasure
      obtain rfl := Option.some.inj hused
      exact ⟨days, hdays, hpos, usage, husage, hlt⟩

/-- What is measured for a policy whose quota, if it has one, is not used up. -/
theorem exists_measure (hunits : ∀ units ∈ record.quotaUnits, ∃ days ∈ record.periodDays,
      0 < days ∧ ∃ used, usageInPeriod db deviceId days now = .ok used ∧ used < units) :
    ∃ used, measure db deviceId (some record) now = .ok used ∧
      ∀ units ∈ record.quotaUnits, ∃ days ∈ record.periodDays, 0 < days ∧
        ∃ units' ∈ used, units' < units := by
  cases hquota : record.quotaUnits with
  | none => exact ⟨none, by simp only [measure, hquota], by simp⟩
  | some units =>
    obtain ⟨days, hdays, hpos, usage, husage, hlt⟩ := hunits units hquota
    refine ⟨some usage, ?_, ?_⟩
    · rw [measure_units hquota hdays hpos, husage]
      rfl
    · rintro _ ⟨⟩
      exact ⟨days, hdays, hpos, usage, rfl, hlt⟩

/-- A row is allowed exactly when it permits use as it is read. -/
theorem decide_allowed_iff (h : db.policies.get? deviceId = some row) :
    (∃ d, decide py db deviceId now today = .ok d ∧ d.allowed = true) ↔
      row.Permits py db deviceId now today := by
  constructor
  · rintro ⟨d, hdecide, hallowed⟩
    exact permits_of_allowed h hdecide hallowed
  · rintro ⟨hactive, hexpires, ⟨notes, hnotes⟩, quotaUnits, periodDays, hquota, hperiod, hunits⟩
    obtain ⟨expiresOn, hread, hexpired⟩ : ∃ expiresOn,
        (if truthy row.expiresOn then (fromIsoformat row.expiresOn).map some else .ok none) =
          .ok expiresOn ∧ expiresOn.any (fun expiry => expiry.lt today) = false := by
      by_cases htruthy : truthy row.expiresOn = true
      · obtain ⟨expiry, hdate, hexpired⟩ := hexpires htruthy
        exact ⟨some expiry, by rw [if_pos htruthy, hdate]; rfl, hexpired⟩
      · exact ⟨none, if_neg htruthy, rfl⟩
    let policy : PolicyRecord :=
      { deviceId, active := truthy row.active, quotaUnits, periodDays, expiresOn, notes }
    have hload : loadPolicy py db deviceId = .ok (some policy) :=
      (loadPolicy_some h).mpr
        ⟨expiresOn, quotaUnits, periodDays, notes, hread, hquota, hperiod, hnotes, rfl⟩
    obtain ⟨used, hmeasure, hspare⟩ :
        ∃ used, measure db deviceId (some policy) now = .ok used ∧
          ∀ units ∈ policy.quotaUnits, ∃ days ∈ policy.periodDays, 0 < days ∧
            ∃ units' ∈ used, units' < units := exists_measure hunits
    have hallowed : (evaluate (some policy) used today).allowed = true :=
      evaluate_allowed_iff.mpr ⟨hactive, hexpired, hspare⟩
    refine ⟨{ evaluate (some policy) used today with deviceId }, ?_, hallowed⟩
    simp only [decide, hload, hmeasure, bind, Except.bind]
    rfl

end Policy

/-! ### What is misread -/

theorem Policy.truthy_text {s : String} (h : s ≠ "") : truthy (.text s) = true :=
  decide_eq_true h

namespace PolicyRow

variable {py : Pydantic} {row : PolicyRow} {db : Db} {deviceId : String} {now : Datetime}
  {today : Date}

theorem Clears.exact (h : row.Clears db deviceId now today) : row.Exact where
  active := by
    obtain ⟨n, hn, -⟩ := h.active
    rw [hn]
    trivial
  expiresOn := by
    rcases h.expiresOn with hnull | ⟨s, expiry, hs, hwritten, -⟩
    · exact .inl hnull
    · right
      rw [hs]
      exact ⟨expiry, hwritten⟩
  quotaUnits := by
    rcases h.quota with hnull | ⟨quota, days, used, hquota, -⟩
    · rw [hnull]
      trivial
    · rw [hquota]
      trivial
  periodDays := by
    rcases h.quota with hnull | ⟨quota, days, used, -, hdays, -⟩
    · exact .inl hnull
    · right
      rw [hdays]
      trivial

/-- A row that is read as it is says what it permits. -/
theorem Permits.clears (h : row.Permits py db deviceId now today) (hexact : row.Exact) :
    row.Clears db deviceId now today where
  active := by
    have hactive := h.active
    have hinteger := hexact.active
    cases hvalue : row.active with
    | null => simp [hvalue, truthy] at hactive
    | integer n => exact ⟨n, rfl, by simpa [hvalue, truthy] using hactive⟩
    | text s => simp [hvalue, SqlValue.IsInteger] at hinteger
    | blob bytes => simp [hvalue, SqlValue.IsInteger] at hinteger
  expiresOn := by
    rcases hexact.expiresOn with hnull | hdate
    · exact .inl hnull
    · cases hvalue : row.expiresOn with
      | text s =>
        rw [hvalue] at hdate
        obtain ⟨date, hwritten⟩ := hdate
        have hparse := hwritten.ofIsoformat
        obtain ⟨expiry, hread, hexpired⟩ :=
          h.expiresOn (hvalue ▸ truthy_text (Date.ne_empty_of_ofIsoformat hparse))
        rw [hvalue, fromIsoformat, hparse] at hread
        obtain rfl := Except.ok.inj hread
        exact .inr ⟨s, date, rfl, hwritten, hexpired⟩
      | null => exact .inl rfl
      | integer n => simp [hvalue, SqlValue.IsDate] at hdate
      | blob bytes => simp [hvalue, SqlValue.IsDate] at hdate
  quota := by
    obtain ⟨quota, period, hquota, hperiod, hused⟩ := h.quota
    have hunits := hexact.quotaUnits
    cases hvalue : row.quotaUnits with
    | null => exact .inl rfl
    | text s => simp [hvalue, SqlValue.IsInteger] at hunits
    | blob bytes => simp [hvalue, SqlValue.IsInteger] at hunits
    | integer units =>
      right
      rw [hvalue] at hquota
      obtain rfl := Except.ok.inj hquota
      obtain ⟨days, hdays, hpos, used, husage, hlt⟩ := hused units rfl
      have hinteger := hexact.periodDays.resolve_left (by simp [hvalue])
      cases hcolumn : row.periodDays with
      | null =>
        rw [hcolumn] at hperiod
        obtain rfl := Except.ok.inj hperiod
        cases hdays
      | text s => simp [hcolumn, SqlValue.IsInteger] at hinteger
      | blob bytes => simp [hcolumn, SqlValue.IsInteger] at hinteger
      | integer n =>
        rw [hcolumn] at hperiod
        obtain rfl := Except.ok.inj hperiod
        obtain rfl := Option.some.inj hdays
        exact ⟨units, n, used, rfl, rfl, hpos, husage, hlt⟩

end PolicyRow

namespace Policy

/-- Whatever the row, the reports and the date, a decision fails closed exactly when a row that
permits use is read as it is. -/
theorem failsClosed_iff_exact (py : Pydantic) (db : Db) (deviceId : String) (now : Datetime)
    (today : Date) : FailsClosed py db deviceId now today ↔
      ∀ row, db.policies.get? deviceId = some row → row.Permits py db deviceId now today →
        row.Exact := by
  constructor
  · intro h row hrow hpermits
    obtain ⟨d, hdecide, hallowed⟩ := (decide_allowed_iff hrow).mpr hpermits
    obtain ⟨row', hrow', hclears⟩ := h d hdecide hallowed
    obtain rfl := Option.some.inj (hrow.symm.trans hrow')
    exact hclears.exact
  · intro h d hdecide hallowed
    cases hrow : db.policies.get? deviceId with
    | none =>
      rw [decide, loadPolicy_none hrow] at hdecide
      obtain rfl := Except.ok.inj hdecide
      cases hallowed
    | some row =>
      have hpermits := (decide_allowed_iff hrow).mp ⟨d, hdecide, hallowed⟩
      exact ⟨row, rfl, hpermits.clears (h row hrow hpermits)⟩

/-! ### Rows that are misread -/

theorem not_failsClosed (row : PolicyRow) (hrow : db.policies.get? deviceId = some row)
    (hinexact : ¬row.Exact)
    (hallowed : (decide py db deviceId now today).toOption.any (·.allowed) = true) :
    ¬FailsClosed py db deviceId now today := by
  intro h
  obtain ⟨d, hdecide, hallowed⟩ := (Option.any_eq_true _ _).mp hallowed
  obtain ⟨row', hrow', hclears⟩ := h d (ok_of_toOption hdecide) hallowed
  obtain rfl := Option.some.inj (hrow.symm.trans hrow')
  exact hinexact hclears.exact

/-- A policy without a quota. -/
def unlimitedPolicy (active expiresOn : SqlValue) (h : active ≠ .null := by decide) : PolicyRow :=
  ⟨active, .null, .null, expiresOn, .null, h⟩

theorem not_exact_of_text {active : SqlValue} {h : active ≠ .null} (s : String)
    (hrest : (Date.parseIso s.toList).map Prod.snd ≠ some []) :
    ¬(unlimitedPolicy active (.text s) h).Exact := by
  intro hexact
  rcases hexact.expiresOn with hnull | ⟨date, hwritten⟩
  · cases hnull
  · exact hrest (congrArg (Option.map Prod.snd) hwritten)

/-- The sample device with a policy. -/
def policyDb (row : PolicyRow) : Db :=
  let served := servedAll [.registerDevice sampleRegistration .epoch]
  (served.setPolicy "d" row).toOption.getD served

/-- A text that is no number counts as activated, a blank expiry date as none, and what follows the
day in a text of ten characters is not looked at. -/
theorem misread_rows_allowed :
    ¬FailsClosed samplePydantic (policyDb (unlimitedPolicy (.text "abc") .null)) "d" .epoch
        Datetime.epoch.date ∧
      ¬FailsClosed samplePydantic (policyDb (unlimitedPolicy (.integer 1) (.text ""))) "d" .epoch
        Datetime.epoch.date ∧
      ¬FailsClosed samplePydantic (policyDb (unlimitedPolicy (.integer 1) (.text "20990101xx"))) "d"
        .epoch Datetime.epoch.date := by
  refine ⟨?_, ?_, ?_⟩
  · apply not_failsClosed (unlimitedPolicy (.text "abc") .null)
    · decide +kernel
    · exact fun h => h.active
    · decide +kernel
  · apply not_failsClosed (unlimitedPolicy (.integer 1) (.text ""))
    · decide +kernel
    · exact not_exact_of_text "" (by decide)
    · decide +kernel
  · apply not_failsClosed (unlimitedPolicy (.integer 1) (.text "20990101xx"))
    · decide +kernel
    · exact not_exact_of_text "20990101xx" (by decide)
    · decide +kernel

end Policy

end BleUsageMeter.Backend
