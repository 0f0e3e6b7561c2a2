import BleUsageMeter.Backend.Period

/-! The usage of a rolling period over the tables of a serial run.  It is never negative before its
clamp and at most the last accepted count; a longer period measures at least as much, and time that
passes without reports never measures more. -/

namespace BleUsageMeter.Backend

open Kit

/-- The usage after a cutoff, without the `max(0, ...)`. -/
def Policy.unclampedAfter (cutoff : String) (rows : List ReportRow) : Int :=
  match latest rows with
  | none => 0
  | some last => last.count - ((latest (before cutoff rows)).map (·.count)).getD 0

/-- `usage_in_period` without its `max(0, ...)`. -/
def Policy.unclampedInPeriod (db : Db) (deviceId : String) (periodDays : Int) (now : Datetime) :
    Except PyException Int := do
  let cutoff ← cutoff periodDays now
  return unclampedAfter cutoff (db.reportsOf deviceId)

/-- The cutoff of a period, with a year of four digits. -/
structure FourDigitCutoff (days : Int) (now start : Datetime) : Prop where
  minusDays : now.minusDays days = .ok start
  year : 1000 ≤ start.date.year

/-- Time passes on a clock. -/
structure Passes (now later : Datetime) : Prop where
  utcoffset : later.utcoffset = now.utcoffset
  instant : now.instant ≤ later.instant

/-- The usage of a device lies in its bounds and is ordered as the periods and the clock are. -/
structure UsageOrdered (db : Db) (id : String) (device : Device) : Prop where
  unclamped : ∀ cutoff, Policy.usageAfter cutoff (db.reportsOf id) =
    Policy.unclampedAfter cutoff (db.reportsOf id)
  measured : ∀ days now, Policy.usageInPeriod db id days now =
    Policy.unclampedInPeriod db id days now
  bounds : ∀ days now used, Policy.usageInPeriod db id days now = .ok used →
    0 ≤ used ∧ used ≤ device.lastAcceptedCount
  monotone : ∀ days longer now start earlier, days ≤ longer →
    FourDigitCutoff days now start → FourDigitCutoff longer now earlier →
    ∃ used more, Policy.usageInPeriod db id days now = .ok used ∧
      Policy.usageInPeriod db id longer now = .ok more ∧ used ≤ more
  antitone : ∀ days now later start next, Passes now later →
    FourDigitCutoff days now start → FourDigitCutoff days later next →
    ∃ used less, Policy.usageInPeriod db id days now = .ok used ∧
      Policy.usageInPeriod db id days later = .ok less ∧ less ≤ used

theorem maxCount_mono {rows others : List ReportRow} (h : rows ⊆ others) :
    maxCount rows ≤ maxCount others :=
  maxCount_le (maxCount_nonneg others) fun _ hrow => le_maxCount (h hrow)

theorem before_subset_rows (cutoff : String) (rows : List ReportRow) :
    Policy.before cutoff rows ⊆ rows :=
  List.filter_sublist.subset

theorem unclampedAfter_eq (cutoff : String) (rows : List ReportRow) :
    Policy.unclampedAfter cutoff rows =
      highestCount rows - highestCount (Policy.before cutoff rows) := by
  unfold Policy.unclampedAfter
  cases hlatest : latest rows with
  | none =>
    obtain rfl := latest_eq_none hlatest
    rfl
  | some last => simp only [highestCount, hlatest, Option.map_some, Option.getD_some]

section

variable {db : Db} {id : String} {device : Device} {days : Int} {now start : Datetime}

/-- The units since a cutoff are those above the greatest count before it. -/
theorem Db.Consistent.unclampedAfter_eq (hdb : db.Consistent) (id cutoff : String) :
    Policy.unclampedAfter cutoff (db.reportsOf id) =
      maxCount (db.reportsOf id) - maxCount (Policy.before cutoff (db.reportsOf id)) := by
  have hsorted := hdb.increasing id
  have hnatural : ∀ row ∈ db.reportsOf id, 0 ≤ row.count :=
    fun row hrow => (hdb.natural row (List.mem_of_mem_filter hrow)).2
  have hbefore : highestCount (Policy.before cutoff (db.reportsOf id)) = maxCount _ :=
    highestCount_eq (hsorted.sublist List.filter_sublist) fun row hrow =>
      hnatural row (before_subset_rows _ _ hrow)
  rw [Backend.unclampedAfter_eq, highestCount_eq hsorted hnatural, hbefore]

/-- The clamp of `usage_in_period` changes nothing. -/
theorem Db.Consistent.usageAfter_eq (hdb : db.Consistent) (id cutoff : String) :
    Policy.usageAfter cutoff (db.reportsOf id) =
      Policy.unclampedAfter cutoff (db.reportsOf id) := by
  have hle := maxCount_mono (before_subset_rows cutoff (db.reportsOf id))
  have hunits := hdb.unclampedAfter_eq id cutoff
  rw [Backend.unclampedAfter_eq] at hunits
  rw [Backend.usageAfter_eq, Backend.unclampedAfter_eq]
  omega

theorem Db.Consistent.usageInPeriod_unclamped (hdb : db.Consistent) (id : String) (days : Int)
    (now : Datetime) :
    Policy.usageInPeriod db id days now = Policy.unclampedInPeriod db id days now := by
  simp only [Policy.usageInPeriod, Policy.unclampedInPeriod, hdb.usageAfter_eq]

theorem usageInPeriod_eq (h : now.minusDays days = .ok start) :
    Policy.usageInPeriod db id days now =
      .ok (Policy.usageAfter start.strftimeZ (db.reportsOf id)) := by
  simp only [Policy.usageInPeriod, Policy.cutoff, h]
  rfl

/-- The start of a period is written as many days before the clock. -/
theorem FourDigitCutoff.localSeconds (h : FourDigitCutoff days now start) :
    (start.localSeconds : Int) = now.localSeconds - days * 86400 := by
  have hminus := h.minusDays
  unfold Datetime.minusDays at hminus
  split at hminus
  · have hseconds := (Datetime.addSeconds_spec hminus).1
    omega
  · cases hminus

/-- A year of four digits leaves the comparison to the clock readings. -/
theorem writtenBefore_iff {windowEnd cutoff : Datetime} (h : 1000 ≤ cutoff.date.year) :
    WrittenBefore windowEnd cutoff ↔ windowEnd.localSeconds ≤ cutoff.localSeconds := by
  rw [WrittenBefore, if_neg (by omega), if_neg (by omega), if_neg (by omega)]

theorem Passes.localSeconds {later : Datetime} (h : Passes now later) :
    now.localSeconds ≤ later.localSeconds := by
  have hinstant := h.instant
  have hmicro := later.microsecond_lt
  rw [Datetime.instant, Datetime.instant, h.utcoffset] at hinstant
  omega

variable {scheme : SignatureScheme} {py : Pydantic} {a b : Datetime}

theorem Db.Reachable.before_subset (hdb : db.Reachable scheme py) (id : String)
    (ha : 1000 ≤ a.date.year) (hb : 1000 ≤ b.date.year) (hle : a.localSeconds ≤ b.localSeconds) :
    Policy.before a.strftimeZ (db.reportsOf id) ⊆ Policy.before b.strftimeZ (db.reportsOf id) := by
  obtain ⟨reqs, hreqs⟩ := hdb.requests
  rw [reportsOf_eq hreqs, before_eq, before_eq]
  apply List.map_subset
  intro req hreq
  obtain ⟨hmem, hwritten⟩ := List.mem_filter.mp hreq
  refine List.mem_filter.mpr ⟨hmem, ?_⟩
  rw [decide_eq_true_eq, writtenBefore_iff ha] at hwritten
  rw [decide_eq_true_eq, writtenBefore_iff hb]
  exact Nat.le_trans hwritten hle

theorem Db.Reachable.usageAfter_antitone (hdb : db.Reachable scheme py) (id : String)
    (ha : 1000 ≤ a.date.year) (hb : 1000 ≤ b.date.year) (hle : a.localSeconds ≤ b.localSeconds) :
    Policy.usageAfter b.strftimeZ (db.reportsOf id) ≤
      Policy.usageAfter a.strftimeZ (db.reportsOf id) := by
  have hbaseline := maxCount_mono (hdb.before_subset id ha hb hle)
  rw [hdb.consistent.usageAfter_eq, hdb.consistent.usageAfter_eq,
    hdb.consistent.unclampedAfter_eq, hdb.consistent.unclampedAfter_eq]
  omega

theorem Db.Consistent.usageInPeriod_bounds (hdb : db.Consistent)
    (hdevice : db.devices.get? id = some device) {used : Int}
    (h : Policy.usageInPeriod db id days now = .ok used) :
    0 ≤ used ∧ used ≤ device.lastAcceptedCount := by
  obtain ⟨cutoff, -, hused⟩ := bind_eq_ok.mp h
  obtain rfl := Except.ok.inj hused
  have hle := maxCount_mono (before_subset_rows cutoff (db.reportsOf id))
  have hpos := maxCount_nonneg (Policy.before cutoff (db.reportsOf id))
  rw [hdb.usageAfter_eq, hdb.unclampedAfter_eq, hdb.count_eq_maxCount hdevice]
  omega

/-- A device that is over its quota has been accepted with that many units. -/
theorem Db.Consistent.overQuota_le (hdb : db.Consistent) {today : Date}
    {decision : LicenseDecision}
    (h : getLicense py id now today db = .ok (.license decision))
    (hreason : decision.reason = .overQuota) :
    ∃ quota device, decision.quotaUnits = some quota ∧ db.devices.get? id = some device ∧
      quota ≤ device.lastAcceptedCount := by
  unfold getLicense at h
  split at h
  · obtain rfl := Response.license.inj (Except.ok.inj h)
    cases hreason
  · rename_i device hdevice
    cases hdecide : Policy.decide py db id now today with
    | error e =>
      rw [hdecide] at h
      cases h
    | ok decided =>
      rw [hdecide] at h
      obtain rfl := Response.license.inj (Except.ok.inj h)
      obtain ⟨policy, hload⟩ := policy_of_overQuota hdecide hreason
      obtain ⟨quota, days, cutoff, hlimits, hcutoff, hle⟩ := overQuota_inv hload hdecide hreason
      rw [decide_limits hload hlimits hcutoff] at hdecide
      obtain rfl := Except.ok.inj hdecide
      have hused : Policy.usageInPeriod db id days now =
          .ok (Policy.usageAfter cutoff (db.reportsOf id)) := by
        rw [Policy.usageInPeriod, hcutoff]
        rfl
      refine ⟨quota, device, ?_, hdevice, ?_⟩
      · rw [quotaDecision, if_pos hle]
      · exact hle.trans (hdb.usageInPeriod_bounds hdevice hused).2

/-- The usage of every device, in the tables of every serial run. -/
theorem usage_ordered (hdb : db.Reachable scheme py) (hdevice : db.devices.get? id = some device) :
    UsageOrdered db id device where
  unclamped := hdb.consistent.usageAfter_eq id
  measured := hdb.consistent.usageInPeriod_unclamped id
  bounds _ _ _ h := hdb.consistent.usageInPeriod_bounds hdevice h
  monotone days longer now start earlier hdays hstart hearlier := by
    refine ⟨_, _, usageInPeriod_eq hstart.minusDays, usageInPeriod_eq hearlier.minusDays, ?_⟩
    apply hdb.usageAfter_antitone id hearlier.year hstart.year
    have hfrom := hstart.localSeconds
    have hto := hearlier.localSeconds
    omega
  antitone days now later start next hpasses hstart hnext := by
    refine ⟨_, _, usageInPeriod_eq hstart.minusDays, usageInPeriod_eq hnext.minusDays, ?_⟩
    apply hdb.usageAfter_antitone id hstart.year hnext.year
    have hclock := hpasses.localSeconds
    have hfrom := hstart.localSeconds
    have hto := hnext.localSeconds
    omega

/-- Two reports in January. -/
theorem usage_ordered_sample :
    let db := reportedDb (januaryReports (sampleDay 1) (sampleDay 15))
    ∃ device, db.devices.get? "d" = some device ∧ UsageOrdered db "d" device := by
  have hregistered : ((reportedDb (januaryReports (sampleDay 1) (sampleDay 15))).devices.get?
      "d").isSome := by decide +kernel
  obtain ⟨device, hdevice⟩ := Option.isSome_iff_exists.mp hregistered
  exact ⟨device, hdevice, usage_ordered (reportedDb_reachable _) hdevice⟩

end

end BleUsageMeter.Backend
