import BleUsageMeter.Backend.Licence
import BleUsageMeter.Backend.Race
import BleUsageMeter.Backend.WallClock

/-! The usage of a period against the instants of the window ends.  The code takes the latest count
before the cutoff by the text of the window ends; the result is that of the instants unless a
report that adds units stands on the wrong side of the cutoff. -/

namespace BleUsageMeter.Backend

open Kit

/-- The row of an accepted report. -/
def ReportRequest.row (req : ReportRequest) : ReportRow := reportRow req.report req.now

/-- The tables of a serial run hold the rows of accepted reports. -/
theorem Db.Reachable.requests {scheme : SignatureScheme} {py : Pydantic} {db : Db}
    (h : db.Reachable scheme py) :
    ∃ reqs : List ReportRequest, db.usageReports = reqs.map ReportRequest.row := by
  obtain ⟨requests, served, hrun, -, hreports⟩ := h
  rw [hreports]
  apply hrun.preserves
  · exact ⟨[], rfl⟩
  · rintro t request u ⟨reqs, hreqs⟩ - hstep
    obtain rfl := Option.some.inj hstep
    rcases respond_cases scheme py t request with
      hsame | ⟨id, device, -, -, -, hrows, -⟩ | ⟨report, now, -, -, happends, -⟩
    · exact ⟨reqs, by rw [hsame, hreqs]⟩
    · exact ⟨reqs, by rw [hrows, hreqs]⟩
    · refine ⟨reqs ++ [⟨report, now⟩], ?_⟩
      rw [happends.usageReports, hreqs, List.map_append]
      rfl

/-- The count of the row with the highest sequence, 0 when there is none. -/
def highestCount (rows : List ReportRow) : Int := ((latest rows).map (·.count)).getD 0

theorem usageAfter_eq (cutoff : String) (rows : List ReportRow) :
    Policy.usageAfter cutoff rows =
      max 0 (highestCount rows - highestCount (Policy.before cutoff rows)) := by
  unfold Policy.usageAfter
  cases hlatest : latest rows with
  | none =>
    obtain rfl := latest_eq_none hlatest
    rfl
  | some last =>
    simp only [highestCount, hlatest, Option.map_some, Option.getD_some]

/-- In the history of a device the highest sequence has the greatest count. -/
theorem highestCount_eq {rows : List ReportRow} (h : rows.Pairwise ReportRow.Precedes)
    (hnatural : ∀ row ∈ rows, 0 ≤ row.count) : highestCount rows = maxCount rows := by
  induction rows using List.reverseRecOn with
  | nil => rfl
  | append_singleton rows row _ =>
    have hlatest := latest_concat h
    have hbelow : ∀ other ∈ rows ++ [row], other.count ≤ row.count := by
      intro other hother
      have := le_marksAfter h hother
      rw [marksAfter_concat] at this
      exact this.2
    have hmem : row ∈ rows ++ [row] := by simp
    rw [highestCount, hlatest]
    exact Int.le_antisymm (le_maxCount hmem) (maxCount_le (hnatural row hmem) hbelow)

theorem maxCount_nonneg (rows : List ReportRow) : 0 ≤ maxCount rows := by
  induction rows with
  | nil => exact Int.le_refl 0
  | cons row rows ih => exact Int.le_trans ih (Int.le_max_right _ _)

theorem maxCount_le_iff (rows others : List ReportRow) :
    maxCount rows ≤ maxCount others ↔
      ∀ row ∈ rows, row.count ≤ 0 ∨ ∃ other ∈ others, row.count ≤ other.count := by
  constructor
  · intro hle row hrow
    by_contra hnone
    push Not at hnone
    have hlt : maxCount others ≤ row.count - 1 :=
      maxCount_le (by omega) fun other hother => by have := hnone.2 other hother; omega
    have := le_maxCount hrow
    omega
  · intro h
    refine maxCount_le (maxCount_nonneg others) ?_
    intro row hrow
    rcases h row hrow with hzero | ⟨other, hother, hle⟩
    · exact Int.le_trans hzero (maxCount_nonneg others)
    · exact Int.le_trans hle (le_maxCount hother)

/-- The reports of one device. -/
def ofDevice (id : String) (reqs : List ReportRequest) : List ReportRequest :=
  reqs.filter (·.report.deviceId = id)

/-- The units of a device since an instant, by the instants of the window ends. -/
def unitsSince (start : Int) (reqs : List ReportRequest) : Int :=
  highestCount (reqs.map ReportRequest.row) -
    highestCount ((reqs.filter fun req => req.report.windowEnd.instant < start).map
      ReportRequest.row)

/-- A report whose window end is on different sides of the cutoff as text and as an instant adds no
units: the other side has a report with at least its count, or its count is 0. -/
structure SidesMatch (cutoff : Datetime) (reqs : List ReportRequest) : Prop where
  late : ∀ req ∈ reqs, WrittenBefore req.report.windowEnd cutoff →
    cutoff.instant ≤ req.report.windowEnd.instant →
    req.report.count = 0 ∨ ∃ other ∈ reqs, other.report.windowEnd.instant < cutoff.instant ∧
      req.report.count ≤ other.report.count
  early : ∀ req ∈ reqs, req.report.windowEnd.instant < cutoff.instant →
    ¬WrittenBefore req.report.windowEnd cutoff →
    req.report.count = 0 ∨ ∃ other ∈ reqs, WrittenBefore other.report.windowEnd cutoff ∧
      req.report.count ≤ other.report.count

section Usage

variable {scheme : SignatureScheme} {py : Pydantic} {db : Db} {reqs : List ReportRequest}
  {id : String} {now start cutoff : Datetime} {days : Int}

theorem reportsOf_eq (h : db.usageReports = reqs.map ReportRequest.row) :
    db.reportsOf id = (ofDevice id reqs).map ReportRequest.row := by
  rw [Db.reportsOf, h, List.filter_map]
  rfl

theorem before_eq (cutoff : Datetime) (reqs : List ReportRequest) :
    Policy.before cutoff.strftimeZ (reqs.map ReportRequest.row) =
      (reqs.filter fun req => WrittenBefore req.report.windowEnd cutoff).map ReportRequest.row := by
  have hside : (fun row : ReportRow => textLt row.windowEnd cutoff.strftimeZ) ∘ ReportRequest.row =
      fun req => decide (WrittenBefore req.report.windowEnd cutoff) := by
    funext req
    have hwindow : req.row.windowEnd = req.report.windowEnd.isoformat := rfl
    rw [Function.comp_apply, hwindow, Bool.eq_iff_iff, textLt_iff_writtenBefore, decide_eq_true_eq]
  rw [Policy.before, List.filter_map, hside]

theorem maxCount_filter_le_iff (p q : ReportRequest → Prop) [DecidablePred p] [DecidablePred q]
    (reqs : List ReportRequest) :
    maxCount ((reqs.filter fun req => p req).map ReportRequest.row) ≤
      maxCount ((reqs.filter fun req => q req).map ReportRequest.row) ↔
    ∀ req ∈ reqs, p req → req.report.count = 0 ∨
      ∃ other ∈ reqs, q other ∧ req.report.count ≤ other.report.count := by
  have hcount : ∀ req : ReportRequest, req.row.count = (req.report.count : Int) := fun _ => rfl
  rw [maxCount_le_iff]
  constructor
  · intro h req hreq hp
    have hmem : req.row ∈ (reqs.filter fun req => p req).map ReportRequest.row :=
      List.mem_map_of_mem (List.mem_filter.mpr ⟨hreq, by simpa using hp⟩)
    rcases h req.row hmem with hzero | ⟨row, hrow, hle⟩
    · rw [hcount] at hzero
      exact .inl (by omega)
    · obtain ⟨other, hother, rfl⟩ := List.mem_map.mp hrow
      obtain ⟨hother, hq⟩ := List.mem_filter.mp hother
      rw [hcount, hcount] at hle
      exact .inr ⟨other, hother, by simpa using hq, by omega⟩
  · intro h row hrow
    obtain ⟨req, hreq, rfl⟩ := List.mem_map.mp hrow
    obtain ⟨hreq, hp⟩ := List.mem_filter.mp hreq
    rcases h req hreq (by simpa using hp) with hzero | ⟨other, hother, hq, hle⟩
    · exact .inl (by rw [hcount, hzero]; exact Int.le_refl 0)
    · refine .inr ⟨other.row, List.mem_map_of_mem (List.mem_filter.mpr ⟨hother, by simpa using hq⟩),
        ?_⟩
      rw [hcount, hcount]
      omega

theorem sidesMatch_iff (cutoff : Datetime) (reqs : List ReportRequest) : SidesMatch cutoff reqs ↔
    maxCount ((reqs.filter fun req => WrittenBefore req.report.windowEnd cutoff).map
      ReportRequest.row) =
    maxCount ((reqs.filter fun req => req.report.windowEnd.instant < cutoff.instant).map
      ReportRequest.row) := by
  rw [le_antisymm_iff, maxCount_filter_le_iff, maxCount_filter_le_iff]
  constructor
  · intro h
    refine ⟨fun req hreq hwritten => ?_, fun req hreq hbefore => ?_⟩
    · by_cases hbefore : req.report.windowEnd.instant < cutoff.instant
      · exact .inr ⟨req, hreq, hbefore, Nat.le_refl _⟩
      · exact h.late req hreq hwritten (by omega)
    · by_cases hwritten : WrittenBefore req.report.windowEnd cutoff
      · exact .inr ⟨req, hreq, hwritten, Nat.le_refl _⟩
      · exact h.early req hreq hbefore hwritten
  · rintro ⟨hlate, hearly⟩
    exact ⟨fun req hreq hwritten _ => hlate req hreq hwritten,
      fun req hreq hbefore _ => hearly req hreq hbefore⟩

/-- The stored text of the window ends gives the usage of the instants exactly when no report that
adds units is on the wrong side of the cutoff. -/
theorem usageInPeriod_iff (hdb : db.Reachable scheme py)
    (hreqs : db.usageReports = reqs.map ReportRequest.row)
    (hstart : now.minusDays days = .ok start) :
    Policy.usageInPeriod db id days now =
        .ok (unitsSince start.dropMicrosecond.instant (ofDevice id reqs)) ↔
      SidesMatch start.dropMicrosecond (ofDevice id reqs) := by
  have hrows : db.reportsOf id = (ofDevice id reqs).map ReportRequest.row := reportsOf_eq hreqs
  have hsorted := hdb.consistent.increasing id
  rw [hrows] at hsorted
  -- the rows that a filter keeps are a history of their own
  have hhighest : ∀ kept : List ReportRequest, kept.Sublist (ofDevice id reqs) →
      highestCount (kept.map ReportRequest.row) = maxCount (kept.map ReportRequest.row) := by
    intro kept hkept
    refine highestCount_eq (hsorted.sublist (hkept.map _)) fun row hrow => ?_
    obtain ⟨req, -, rfl⟩ := List.mem_map.mp hrow
    exact Int.natCast_nonneg req.report.count
  have hle : ∀ kept : List ReportRequest, kept.Sublist (ofDevice id reqs) →
      maxCount (kept.map ReportRequest.row) ≤
        maxCount ((ofDevice id reqs).map ReportRequest.row) := by
    intro kept hkept
    exact maxCount_le (maxCount_nonneg _) fun row hrow => le_maxCount ((hkept.map _).subset hrow)
  have husage : Policy.usageInPeriod db id days now = .ok (Policy.usageAfter
      start.dropMicrosecond.strftimeZ ((ofDevice id reqs).map ReportRequest.row)) := by
    simp only [Policy.usageInPeriod, Policy.cutoff, hstart, hrows]
    rfl
  rw [husage, usageAfter_eq, before_eq, sidesMatch_iff, unitsSince,
    hhighest _ (List.Sublist.refl _), hhighest _ List.filter_sublist,
    hhighest _ List.filter_sublist, Except.ok.injEq]
  have hwritten := hle _ (List.filter_sublist
    (p := fun req => WrittenBefore req.report.windowEnd start.dropMicrosecond))
  omega

end Usage

/-! ### A window that ends at the cutoff -/

section Sample

open SignatureScheme (sample)

/-- Two reports, 40 units by `first` and 100 by `last`. -/
def januaryReports (first last : Datetime) : List ReportRequest :=
  [⟨sampleReport 40 0 first, first⟩, ⟨sampleReport 100 1 last, last⟩]

/-- The tables when some reports of the sample device have been posted. -/
def reportedDb (reqs : List ReportRequest) : Db :=
  servedAll (.registerDevice sampleRegistration .epoch ::
    reqs.map fun req => .postReport req.report req.now none)

theorem reportedDb_reachable (reqs : List ReportRequest) :
    (reportedDb reqs).Reachable sample samplePydantic :=
  ⟨_, _, servedAll_run _, rfl, rfl⟩

theorem januaryReports_stored :
    (reportedDb (januaryReports (sampleDay 1) (sampleDay 15))).usageReports =
      (januaryReports (sampleDay 1) (sampleDay 15)).map ReportRequest.row := by
  decide +kernel

/-- A window that ends a day before the cutoff is in the baseline of both. -/
theorem usageInPeriod_iff_sample :
    let reqs := januaryReports (sampleDay 1) (sampleDay 15)
    Policy.usageInPeriod (reportedDb reqs) "d" 29 (sampleDay 31) =
        .ok (unitsSince (sampleDay 2).dropMicrosecond.instant (ofDevice "d" reqs)) ↔
      SidesMatch (sampleDay 2).dropMicrosecond (ofDevice "d" reqs) :=
  usageInPeriod_iff (reportedDb_reachable _) januaryReports_stored (by decide +kernel)

/-- A window that ends exactly at the cutoff is taken for one before it: its offset sorts below the
`Z` of the cutoff. -/
theorem window_at_cutoff :
    let reqs := januaryReports (sampleDay 1) (sampleDay 15)
    (reportedDb reqs).Reachable sample samplePydantic ∧
      (reportedDb reqs).usageReports = reqs.map ReportRequest.row ∧
      (sampleDay 31).minusDays 30 = .ok (sampleDay 1) ∧
      Policy.usageInPeriod (reportedDb reqs) "d" 30 (sampleDay 31) = .ok 60 ∧
      unitsSince (sampleDay 1).dropMicrosecond.instant (ofDevice "d" reqs) = 100 := by
  refine ⟨reportedDb_reachable _, januaryReports_stored, ?_, ?_, ?_⟩
  · decide +kernel
  · rw [Policy.usageInPeriod, reportsOf_eq januaryReports_stored]
    decide +kernel
  · decide +kernel

end Sample

end BleUsageMeter.Backend
