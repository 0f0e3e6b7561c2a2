import BleUsageMeter.Kit.Run
import BleUsageMeter.Backend.App

/-! The marks of a device and its stored reports say the same thing: `Db.Consistent` ties them
together, and every run of requests served one after another keeps it. -/

namespace BleUsageMeter.Backend

open Kit

def Device.marks (device : Device) : Int × Int :=
  (device.lastAcceptedSequence, device.lastAcceptedCount)

/-- The marks that belong to the rows of a device, the oldest row first. -/
def marksAfter (rows : List ReportRow) : Int × Int :=
  match rows.getLast? with
  | none => (-1, 0)
  | some row => (row.sequence, row.count)

/-- Row `b` may follow row `a` in the history of a device. -/
def ReportRow.Precedes (a b : ReportRow) : Prop := a.sequence < b.sequence ∧ a.count ≤ b.count

structure Db.Consistent (db : Db) : Prop where
  increasing : ∀ id, (db.reportsOf id).Pairwise ReportRow.Precedes
  natural : ∀ row ∈ db.usageReports, 0 ≤ row.sequence ∧ 0 ≤ row.count
  marks : ∀ {id device}, db.devices.get? id = some device →
    device.marks = marksAfter (db.reportsOf id)

@[simp] theorem marksAfter_nil : marksAfter [] = (-1, 0) := rfl

@[simp] theorem marksAfter_concat (rows : List ReportRow) (row : ReportRow) :
    marksAfter (rows ++ [row]) = (row.sequence, row.count) := by
  simp [marksAfter]

/-- In an increasing history the last row is the one with the highest sequence. -/
theorem latest_eq_getLast? {rows : List ReportRow} (h : rows.Pairwise ReportRow.Precedes) :
    latest rows = rows.getLast? := by
  induction rows using List.reverseRecOn with
  | nil => rfl
  | append_singleton rows row ih =>
    obtain ⟨hrows, -, hlast⟩ := List.pairwise_append.mp h
    rw [latest_append, ih hrows, List.getLast?_concat]
    cases hl : rows.getLast? with
    | none => rfl
    | some last =>
      have := (hlast last (List.mem_of_getLast? hl) row (by simp)).1
      simp [this]

theorem precedes_le {rows : List ReportRow} (h : rows.Pairwise ReportRow.Precedes)
    {a b : ReportRow} (ha : a ∈ rows) (hb : b ∈ rows) (hle : a.sequence ≤ b.sequence) :
    a.count ≤ b.count := by
  induction h with
  | nil => simp at ha
  | cons hfirst _ ih =>
    rcases List.mem_cons.mp ha with rfl | ha'
    · rcases List.mem_cons.mp hb with rfl | hb'
      · exact Int.le_refl _
      · exact (hfirst b hb').2
    · rcases List.mem_cons.mp hb with rfl | hb'
      · have := (hfirst a ha').1
        omega
      · exact ih ha' hb'

/-- The marks bound every row of the history. -/
theorem le_marksAfter {rows : List ReportRow} (h : rows.Pairwise ReportRow.Precedes)
    {row : ReportRow} (hrow : row ∈ rows) :
    row.sequence ≤ (marksAfter rows).1 ∧ row.count ≤ (marksAfter rows).2 := by
  induction rows using List.reverseRecOn with
  | nil => simp at hrow
  | append_singleton rows last _ =>
    obtain ⟨-, -, hlast⟩ := List.pairwise_append.mp h
    rw [marksAfter_concat]
    rcases List.mem_append.mp hrow with hrow | hrow
    · have := hlast row hrow last (by simp)
      exact ⟨this.1.le, this.2⟩
    · rw [List.mem_singleton.mp hrow]
      exact ⟨Int.le_refl _, Int.le_refl _⟩

/-- The greatest count of some rows, 0 when there are none. -/
def maxCount (rows : List ReportRow) : Int := (rows.map (·.count)).foldr max 0

theorem maxCount_le {rows : List ReportRow} {bound : Int} (h0 : 0 ≤ bound)
    (h : ∀ row ∈ rows, row.count ≤ bound) : maxCount rows ≤ bound := by
  induction rows with
  | nil => exact h0
  | cons row rows ih =>
    exact Int.max_le.mpr ⟨h row (by simp), ih fun r hr => h r (by simp [hr])⟩

theorem le_maxCount {rows : List ReportRow} {row : ReportRow} (h : row ∈ rows) :
    row.count ≤ maxCount rows := by
  induction rows with
  | nil => simp at h
  | cons first rows ih =>
    rcases List.mem_cons.mp h with rfl | h
    · exact Int.le_max_left _ _
    · exact Int.le_trans (ih h) (Int.le_max_right _ _)

namespace Db

variable {scheme : SignatureScheme} {py : Pydantic} {db after : Db} {report : UsageReport}
  {now : Datetime}

theorem reportsOf_append (h : db.Appends report now after) (id : String) :
    after.reportsOf id =
      db.reportsOf id ++ if id = report.deviceId then [reportRow report now] else [] := by
  have hid : (reportRow report now).deviceId = report.deviceId := rfl
  unfold reportsOf
  rw [h.usageReports, List.filter_append, List.filter_cons, hid]
  by_cases e : report.deviceId = id
  · simp [e]
  · have e' : id ≠ report.deviceId := fun e' => e e'.symm
    simp [e, e']

/-- Appending a report that its device admits keeps the tables consistent. -/
theorem Consistent.append (hdb : db.Consistent) {device : Device}
    (hdevice : db.devices.get? report.deviceId = some device) (hadmits : device.Admits report)
    (h : db.Appends report now after) : after.Consistent where
  increasing id := by
    rw [reportsOf_append h]
    refine List.pairwise_append.mpr ⟨hdb.increasing id, by split <;> simp, ?_⟩
    intro a ha b hb
    split at hb
    · rename_i hid
      subst hid
      obtain rfl := List.mem_singleton.mp hb
      have hle := le_marksAfter (hdb.increasing _) ha
      rw [← hdb.marks hdevice] at hle
      exact ⟨Int.lt_of_le_of_lt hle.1 hadmits.1, Int.le_trans hle.2 hadmits.2⟩
    · simp at hb
  natural row hrow := by
    rw [h.usageReports, List.mem_append] at hrow
    rcases hrow with hrow | hrow
    · exact hdb.natural row hrow
    · obtain rfl := List.mem_singleton.mp hrow
      simp [reportRow]
  marks {id device'} hget := by
    rw [h.devices] at hget
    rw [reportsOf_append h]
    by_cases hid : id = report.deviceId
    · subst hid
      rw [if_pos rfl, hdevice] at hget
      obtain rfl := Option.some.inj hget
      rw [if_pos rfl, marksAfter_concat]
      rfl
    · rw [if_neg hid] at hget
      rw [if_neg hid, List.append_nil, hdb.marks hget]

theorem Consistent.holds_le (hdb : db.Consistent) {device : Device}
    (hdevice : db.devices.get? report.deviceId = some device) (h : db.Holds report) :
    report.sequence ≤ device.lastAcceptedSequence := by
  obtain ⟨row, hrow, hkey⟩ := List.mem_map.mp h
  obtain ⟨hid, hseq⟩ := Prod.mk.inj hkey
  have hmem : row ∈ db.reportsOf report.deviceId :=
    List.mem_filter.mpr ⟨hrow, by simpa using hid⟩
  have hle := (le_marksAfter (hdb.increasing _) hmem).1
  rw [← hdb.marks hdevice] at hle
  exact hseq ▸ hle

theorem consistent_empty : empty.Consistent where
  increasing _ := List.Pairwise.nil
  natural row h := by simp [empty] at h
  marks h := by simp [empty] at h

end Db

/-! ### Serial runs -/

/-- A request, with the clock readings it makes and, for a report, the statement of its transaction
at which an exception strikes. -/
inductive Request
  | registerDevice (req : RegisterDeviceRequest) (now : Datetime)
  | postReport (report : UsageReport) (now : Datetime) (fault : Option Statement)
  | getUsage (deviceId : String)
  | getLicense (deviceId : String) (now : Datetime) (today : Date)

section Serial

variable (scheme : SignatureScheme) (py : Pydantic)

def respond (db : Db) : Request → Db × Except PyException Response
  | .registerDevice req now => registerDevice req now db
  | .postReport report now fault => postReport scheme report now fault db
  | .getUsage deviceId => (db, .ok (getUsage deviceId db))
  | .getLicense deviceId now today => (db, getLicense py deviceId now today db)

/-- The tables after a request. -/
def serve (db : Db) (request : Request) : Option Db := some (respond scheme py db request).1

/-- The tables that a request may leave: as they were, or with a device added, or with a report
appended that its device admits. -/
theorem respond_cases (db : Db) (request : Request) :
    (respond scheme py db request).1 = db ∨
    (∃ id device, db.devices.get? id = none ∧ device.marks = (-1, 0) ∧
      (respond scheme py db request).1.devices = db.devices.insert id device ∧
      (respond scheme py db request).1.usageReports = db.usageReports ∧
      (respond scheme py db request).2 = .ok (.registered id)) ∨
    (∃ report now, db.Admits scheme report ∧ ¬db.Holds report ∧
      db.Appends report now (respond scheme py db request).1 ∧
      (respond scheme py db request).2 = .ok (accepted report)) := by
  cases request with
  | registerDevice req now =>
    simp only [respond, registerDevice]
    split
    · exact .inl rfl
    · split
      · exact .inl rfl
      · split
        · exact .inl rfl
        · rename_i habsent
          have hinsert : ∃ device after, device.marks = (-1, 0) ∧ db.insertDevice req.deviceId
              { publicKey := req.publicKey, label := req.label, registeredAt := utcnowIso now } =
                .ok after ∧ after.devices = db.devices.insert req.deviceId device ∧
              after.usageReports = db.usageReports := by
            unfold Db.insertDevice
            rw [if_neg habsent]
            exact ⟨_, _, rfl, rfl, rfl, rfl⟩
          obtain ⟨device, after, hmarks, hinsert, hdevices, hreports⟩ := hinsert
          rw [hinsert]
          exact .inr (.inl ⟨req.deviceId, device, by simpa using habsent, hmarks, hdevices,
            hreports, rfl⟩)
  | postReport report now fault =>
    rcases postReport_cases scheme report now fault db with
      ⟨answer, h, -⟩ | ⟨hadmits, -, hnew, after, happends, h⟩
    · exact .inl (congrArg Prod.fst h)
    · have hafter : (respond scheme py db (.postReport report now fault)).1 = after :=
        congrArg Prod.fst h
      exact .inr (.inr ⟨report, now, hadmits, hnew, hafter ▸ happends, congrArg Prod.snd h⟩)
  | getUsage deviceId => exact .inl rfl
  | getLicense deviceId now today => exact .inl rfl

variable {scheme py} {db : Db} {requests : List Request}

theorem Db.Consistent.insertDevice {after : Db} (hdb : db.Consistent) {id : String}
    {device : Device} (habsent : db.devices.get? id = none) (hmarks : device.marks = (-1, 0))
    (hdevices : after.devices = db.devices.insert id device)
    (hreports : after.usageReports = db.usageReports) : after.Consistent where
  increasing j := by
    rw [Db.reportsOf, hreports]
    exact hdb.increasing j
  natural row := by
    rw [hreports]
    exact hdb.natural row
  marks {j other} hget := by
    have hrows : after.reportsOf j = db.reportsOf j := by rw [Db.reportsOf, hreports]; rfl
    rw [hdevices, Dict.get?_insert] at hget
    rw [hrows]
    split at hget
    · rename_i hj
      subst hj
      obtain rfl := Option.some.inj hget
      have hnone : db.reportsOf j = [] := by
        apply List.filter_eq_nil_iff.mpr
        intro row hrow hid
        have hsome := db.references row hrow
        rw [of_decide_eq_true hid, habsent] at hsome
        contradiction
      rw [hnone, hmarks, marksAfter_nil]
    · exact hdb.marks hget

variable (py) in
theorem respond_consistent (hdb : db.Consistent) (request : Request) :
    (respond scheme py db request).1.Consistent := by
  rcases respond_cases scheme py db request with
    h | ⟨id, device, habsent, hmarks, hdevices, hreports, -⟩ |
      ⟨report, now, ⟨device, hdevice, -, hadmits⟩, -, happends, -⟩
  · rw [h]; exact hdb
  · exact hdb.insertDevice habsent hmarks hdevices hreports
  · exact hdb.append hdevice hadmits happends

theorem consistent_of_run (h : Run (serve scheme py) Always .empty requests db) : db.Consistent :=
  h.preserves Db.consistent_empty fun _ request _ hdb _ hstep =>
    Option.some.inj hstep ▸ respond_consistent py hdb request

/-- A rejection or an exception. -/
def Refused : Except PyException Response → Prop
  | .ok (.rejection _ _ _) => True
  | .ok _ => False
  | .error _ => True

theorem respond_refused {request : Request} (h : Refused (respond scheme py db request).2) :
    (respond scheme py db request).1 = db := by
  rcases respond_cases scheme py db request with
    hsame | ⟨id, device, -, -, -, -, hanswer⟩ | ⟨report, now, -, -, -, hanswer⟩
  · exact hsame
  · rw [hanswer] at h; exact h.elim
  · rw [hanswer] at h; exact h.elim

/-- A registered device stays registered with its key. -/
def Db.KeepsKeys (db later : Db) : Prop :=
  ∀ id device, db.devices.get? id = some device →
    ∃ device', later.devices.get? id = some device' ∧ device'.publicKey = device.publicKey

theorem respond_keepsKeys (db : Db) (request : Request) :
    db.KeepsKeys (respond scheme py db request).1 := by
  intro id device hget
  rcases respond_cases scheme py db request with
    h | ⟨j, new, habsent, -, hdevices, -, -⟩ | ⟨report, now, -, -, happends, -⟩
  · exact ⟨device, by rw [h, hget], rfl⟩
  · have hne : id ≠ j := fun e => by rw [e, habsent] at hget; contradiction
    exact ⟨device, by rw [hdevices, Dict.get?_insert_ne _ _ hne, hget], rfl⟩
  · rw [happends.devices, hget]
    split
    · exact ⟨_, rfl, rfl⟩
    · exact ⟨_, rfl, rfl⟩

theorem keepsKeys_of_run {start : Db} (h : Run (serve scheme py) Always start requests db) :
    start.KeepsKeys db := by
  apply h.relates (fun _ => True) Db.KeepsKeys trivial
  · exact fun _ _ device hget => ⟨device, hget, rfl⟩
  · intro s t u hst htu id device hget
    obtain ⟨d1, hd1, hk1⟩ := hst id device hget
    obtain ⟨d2, hd2, hk2⟩ := htu id d1 hd1
    exact ⟨d2, hd2, hk2.trans hk1⟩
  · intro t request u _ _ hstep
    exact ⟨trivial, Option.some.inj hstep ▸ respond_keepsKeys t request⟩

theorem Db.Consistent.marks_eq_start_iff (hdb : db.Consistent) {id : String} {device : Device}
    (hget : db.devices.get? id = some device) :
    device.marks = (-1, 0) ↔ db.reportsOf id = [] := by
  rw [hdb.marks hget]
  constructor
  · intro h
    by_contra hne
    obtain ⟨row, hrow⟩ := List.exists_mem_of_ne_nil _ hne
    have hle := (le_marksAfter (hdb.increasing id) hrow).1
    have := (hdb.natural row (List.mem_filter.mp hrow).1).1
    rw [h] at hle
    exact absurd (Int.le_trans this hle) (by decide)
  · intro h
    rw [h, marksAfter_nil]

theorem Db.Consistent.marks_eq_latest (hdb : db.Consistent) {id : String} {device : Device}
    (hget : db.devices.get? id = some device) {row : ReportRow}
    (hrow : latest (db.reportsOf id) = some row) : device.marks = (row.sequence, row.count) := by
  rw [latest_eq_getLast? (hdb.increasing id)] at hrow
  rw [hdb.marks hget, marksAfter, hrow]

theorem Db.Consistent.count_eq_maxCount (hdb : db.Consistent) {id : String} {device : Device}
    (hget : db.devices.get? id = some device) :
    device.lastAcceptedCount = maxCount (db.reportsOf id) := by
  have hmarks := hdb.marks hget
  have hcount : device.lastAcceptedCount = (marksAfter (db.reportsOf id)).2 := by rw [← hmarks]; rfl
  rw [hcount]
  cases hrow : latest (db.reportsOf id) with
  | none =>
    rw [latest_eq_none hrow]
    rfl
  | some row =>
    have hmem : row ∈ db.reportsOf id := latest_mem hrow
    have heq : marksAfter (db.reportsOf id) = (row.sequence, row.count) := by
      rw [← hmarks, hdb.marks_eq_latest hget hrow]
    refine Int.le_antisymm ?_ (maxCount_le ?_ fun r hr => (le_marksAfter (hdb.increasing id) hr).2)
    · rw [heq]; exact le_maxCount hmem
    · rw [heq]; exact (hdb.natural row (List.mem_filter.mp hmem).1).2

variable (scheme py) in
/-- What the tables say about their devices, and what requests may do to them. -/
structure Db.Agrees (db : Db) : Prop where
  marks_start : ∀ id device, db.devices.get? id = some device →
    (device.marks = (-1, 0) ↔ db.reportsOf id = [])
  marks_latest : ∀ id device, db.devices.get? id = some device →
    ∀ row, latest (db.reportsOf id) = some row → device.marks = (row.sequence, row.count)
  counts_increase : ∀ id, ∀ a ∈ db.reportsOf id, ∀ b ∈ db.reportsOf id,
    a.sequence ≤ b.sequence → a.count ≤ b.count
  usage : ∀ id device, db.devices.get? id = some device → getUsage id db = .usage
    { deviceId := id
      totalCount := maxCount (db.reportsOf id)
      lastAcceptedSequence := device.lastAcceptedSequence
      reports := (db.reportsOf id).length }
  refused_unchanged : ∀ request, Refused (respond scheme py db request).2 →
    (respond scheme py db request).1.devices = db.devices ∧
    (respond scheme py db request).1.usageReports = db.usageReports
  keys_stay : ∀ requests later, Run (serve scheme py) Always db requests later →
    ∀ id device, db.devices.get? id = some device →
      ∃ device', later.devices.get? id = some device' ∧ device'.publicKey = device.publicKey

variable (scheme py) in
/-- The marks and the rows agree after every serial run, whatever transactions of it fail. -/
theorem serial_run_agrees (h : Run (serve scheme py) Always .empty requests db) :
    db.Agrees scheme py where
  marks_start _ _ hget := (consistent_of_run h).marks_eq_start_iff hget
  marks_latest _ _ hget _ hrow := (consistent_of_run h).marks_eq_latest hget hrow
  counts_increase id _ ha _ hb hle := precedes_le ((consistent_of_run h).increasing id) ha hb hle
  usage id _ hget := by rw [getUsage, hget, ← (consistent_of_run h).count_eq_maxCount hget]
  refused_unchanged _ hrefused := by rw [respond_refused hrefused]; exact ⟨rfl, rfl⟩
  keys_stay _ _ hrun := keepsKeys_of_run hrun

end Serial

/-! ### A sample device -/

section Sample

open SignatureScheme (sample)

def samplePydantic : Pydantic where
  intOfText _ := none
  intOfBytes _ := none
  datetimeOfInt t := (Datetime.fromTimestamp t).toOption
  datetimeOfText _ := none
  datetimeOfInt_seconds t d _ _ h := by rw [h]; rfl

def sampleRegistration : RegisterDeviceRequest where
  deviceId := "d"
  publicKey := Base64.b64encode (sample.publicKey (0 : UInt8))
  label := none

/-- A report of the sample device for a window of no length. -/
def sampleReport (count sequence : Nat) (window : Datetime) : UsageReport :=
  UsageReport.signed sample (0 : UInt8)
    { deviceId := "d"
      count
      sequence
      windowStart := window
      windowEnd := window
      signature := "-"
      ordered := window.lt_self }

/-- The tables after some requests. -/
def servedAll (requests : List Request) : Db :=
  requests.foldl (fun db request => (respond sample samplePydantic db request).1) .empty

theorem servedAll_run (requests : List Request) :
    Run (serve sample samplePydantic) Always .empty requests (servedAll requests) := by
  induction requests using List.reverseRecOn with
  | nil => exact .nil
  | append_singleton requests request ih =>
    apply Run.snoc ih trivial
    simp only [servedAll, List.foldl_append]
    rfl

/-- The first report fails at its second write, the next is accepted, and so is one that follows. -/
def sampleRequests : List Request :=
  [.registerDevice sampleRegistration .epoch,
    .postReport (sampleReport 5 0 .epoch) .epoch (some .update),
    .postReport (sampleReport 7 1 .epoch) .epoch none,
    .postReport (sampleReport 9 4 .epoch) .epoch none]

theorem serial_run_agrees_sample :
    (servedAll sampleRequests).Agrees sample samplePydantic ∧
      getUsage "d" (servedAll sampleRequests) = .usage
        { deviceId := "d", totalCount := 9, lastAcceptedSequence := 4, reports := 2 } :=
  ⟨serial_run_agrees sample samplePydantic (servedAll_run sampleRequests), by decide +kernel⟩

end Sample

end BleUsageMeter.Backend
