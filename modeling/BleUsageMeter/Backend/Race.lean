import BleUsageMeter.Backend.Ledger

/-! Reports that are posted at once.  A request reads its device row before its transaction begins,
so the marks may have moved when the transaction runs.  The `UNIQUE` constraint still accepts a
sequence at most once; the marks and serializability hold exactly when every transaction that
stores a report finds it still fresh. -/

namespace BleUsageMeter.Backend

open Kit

structure ReportRequest where
  report : UsageReport
  now : Datetime

/-- `post_report` as its read of the device row and its transaction. -/
def reportHandler (scheme : SignatureScheme) :
    TwoPhase Db ReportRequest (Except PyException Response) where
  check db req := screenReport scheme db req.report
  act db req := withConnection db (storeReport req.report req.now none)

/-- A response without the detail text of a rejection. -/
def Response.outcome : Response → Response
  | .rejection status code _ => .rejection status code ""
  | response => response

theorem reportHandler_serial (scheme : SignatureScheme) (db : Db) (req : ReportRequest) :
    (reportHandler scheme).serial db req = postReport scheme req.report req.now none db := by
  simp only [TwoPhase.serial, reportHandler, postReport]
  split <;> rename_i h <;> simp only [h]

section Steps

variable {scheme : SignatureScheme} {db after : Db} {report : UsageReport} {now : Datetime}

variable (scheme) in
/-- The report's device is registered and the report verifies under its key. -/
def Db.Authentic (db : Db) (req : ReportRequest) : Prop :=
  ∃ device, db.devices.get? req.report.deviceId = some device ∧
    Verifies scheme req.report device.publicKey

/-- The report can be stored and, unless its sequence is stored already, its device still admits
it. -/
def Db.Fresh (db : Db) (req : ReportRequest) : Prop :=
  req.report.Storable ∧ (¬db.Holds req.report →
    ∀ device, db.devices.get? req.report.deviceId = some device → device.Admits req.report)

variable {req other : ReportRequest}

theorem Db.Authentic.of_screen (h : (reportHandler scheme).check db req = none) :
    db.Authentic scheme req := by
  obtain ⟨device, hdevice, hverifies, -⟩ := screenReport_none_iff.mp h
  exact ⟨device, hdevice, hverifies⟩

theorem Db.Authentic.append (h : db.Authentic scheme req)
    (happends : db.Appends other.report other.now after) : after.Authentic scheme req := by
  obtain ⟨device, hdevice, hverifies⟩ := h
  unfold Db.Authentic
  rw [happends.devices, hdevice]
  split
  · exact ⟨_, rfl, hverifies⟩
  · exact ⟨device, rfl, hverifies⟩

theorem act_cases (h : db.Authentic scheme req) :
    (¬req.report.Storable ∧ (reportHandler scheme).act db req = (db, .error .overflowError)) ∨
    (req.report.Storable ∧ db.Holds req.report ∧
      (reportHandler scheme).act db req = (db, .ok replayed)) ∨
    (req.report.Storable ∧ ¬db.Holds req.report ∧ ∃ after, db.Appends req.report req.now after ∧
      (reportHandler scheme).act db req = (after, .ok (accepted req.report))) := by
  obtain ⟨device, hdevice, -⟩ := h
  rcases storeReport_cases req.report req.now db with
    h | ⟨hstorable, hholds | hnone, h⟩ | ⟨hstorable, hnew, -, after, -, happends, h⟩
  · exact .inl h
  · exact .inr (.inl ⟨hstorable, hholds, h⟩)
  · exact absurd (hdevice.symm.trans hnone) (by simp)
  · exact .inr (.inr ⟨hstorable, hnew, after, happends, h⟩)

theorem inert_of_not_storable (h : ¬req.report.Storable) : (reportHandler scheme).Inert req := by
  refine ⟨.error .overflowError, ?_⟩
  intro db
  rcases storeReport_cases req.report req.now db with
    ⟨-, hact⟩ | ⟨hstorable, -⟩ | ⟨hstorable, -⟩
  · exact hact
  · exact absurd hstorable h
  · exact absurd hstorable h

/-- A fresh transaction does what handling the whole request at that moment would do. -/
theorem serial_agrees (hdb : db.Consistent) (hauth : db.Authentic scheme req)
    (hfresh : db.Fresh req) :
    ((reportHandler scheme).serial db req).1 = ((reportHandler scheme).act db req).1 ∧
      ((reportHandler scheme).serial db req).2.map Response.outcome =
        ((reportHandler scheme).act db req).2.map Response.outcome := by
  obtain ⟨device, hdevice, hverifies⟩ := hauth
  by_cases hholds : db.Holds req.report
  · obtain ⟨detail, hscreen⟩ :=
      screenReport_replay hdevice hverifies (hdb.holds_le hdevice hholds)
    have hcheck : (reportHandler scheme).check db req =
      some (.ok (rejection .replay detail)) := hscreen
    rcases act_cases ⟨device, hdevice, hverifies⟩ with
      ⟨hstorable, -⟩ | ⟨-, -, hact⟩ | ⟨-, hnew, -⟩
    · exact absurd hfresh.1 hstorable
    · simp only [TwoPhase.serial, hcheck, hact]
      exact ⟨trivial, rfl⟩
    · exact absurd hholds hnew
  · have hcheck : (reportHandler scheme).check db req = none :=
      screenReport_none_iff.mpr ⟨device, hdevice, hverifies, hfresh.2 hholds device hdevice⟩
    simp only [TwoPhase.serial, hcheck]
    exact ⟨trivial, trivial⟩

theorem reportHandler_validates :
    (reportHandler scheme).Validates Db.Consistent (Db.Authentic scheme) Db.Fresh
      (Except.map Response.outcome) where
  check_auth _ hcheck := .of_screen hcheck
  act_inv {db req} hdb hauth hfresh := by
    rcases act_cases hauth with ⟨-, h⟩ | ⟨-, -, h⟩ | ⟨-, hnew, after, happends, h⟩
    · rw [h]; exact hdb
    · rw [h]; exact hdb
    · obtain ⟨device, hdevice, -⟩ := hauth
      rw [h]
      exact hdb.append hdevice (hfresh.2 hnew device hdevice) happends
  act_auth {db req other} _ hauth _ hother := by
    rcases act_cases hauth with ⟨-, h⟩ | ⟨-, -, h⟩ | ⟨-, -, after, happends, h⟩
    · rw [h]; exact hother
    · rw [h]; exact hother
    · rw [h]; exact hother.append happends
  agrees hdb hauth hfresh := serial_agrees hdb hauth hfresh

/-- No mark of `db` is above that of `after`. -/
def Db.MarksLe (db after : Db) : Prop :=
  ∀ id device, db.devices.get? id = some device → ∃ device', after.devices.get? id = some device' ∧
    device.lastAcceptedSequence ≤ device'.lastAcceptedSequence ∧
    device.lastAcceptedCount ≤ device'.lastAcceptedCount

theorem Db.MarksLe.refl (db : Db) : db.MarksLe db :=
  fun _ device h => ⟨device, h, Int.le_refl _, Int.le_refl _⟩

theorem Db.MarksLe.trans {a b c : Db} (hab : a.MarksLe b) (hbc : b.MarksLe c) : a.MarksLe c := by
  intro id device hdevice
  obtain ⟨d1, h1, hsequence1, hcount1⟩ := hab id device hdevice
  obtain ⟨d2, h2, hsequence2, hcount2⟩ := hbc id d1 h1
  exact ⟨d2, h2, hsequence1.trans hsequence2, hcount1.trans hcount2⟩

theorem Db.MarksLe.of_append {device : Device}
    (hdevice : db.devices.get? report.deviceId = some device) (hadmits : device.Admits report)
    (happends : db.Appends report now after) : db.MarksLe after := by
  intro id old hold
  rw [happends.devices]
  split
  · rename_i hid
    subst hid
    obtain rfl := Option.some.inj (hdevice.symm.trans hold)
    exact ⟨_, by rw [hold]; rfl, hadmits.1.le, hadmits.2⟩
  · exact ⟨old, hold, Int.le_refl _, Int.le_refl _⟩

theorem act_marksLe (hauth : db.Authentic scheme req)
    (hfresh : req.report.Storable → ¬db.Holds req.report →
      ∀ device, db.devices.get? req.report.deviceId = some device → device.Admits req.report) :
    db.MarksLe ((reportHandler scheme).act db req).1 := by
  rcases act_cases hauth with ⟨-, h⟩ | ⟨-, -, h⟩ | ⟨hstorable, hnew, after, happends, h⟩
  · rw [h]; exact .refl _
  · rw [h]; exact .refl _
  · obtain ⟨device, hdevice, -⟩ := hauth
    rw [h]
    exact .of_append hdevice (hfresh hstorable hnew device hdevice) happends

theorem Db.Consistent.holds_of_eq (hdb : db.Consistent) {device : Device}
    (hdevice : db.devices.get? report.deviceId = some device)
    (h : device.lastAcceptedSequence = report.sequence) : db.Holds report := by
  have hmarks := congrArg Prod.fst (hdb.marks hdevice)
  cases hlast : (db.reportsOf report.deviceId).getLast? with
  | none =>
    simp only [Device.marks, marksAfter, hlast] at hmarks
    omega
  | some row =>
    simp only [Device.marks, marksAfter, hlast] at hmarks
    obtain ⟨hmem, hid⟩ := List.mem_filter.mp (List.mem_of_getLast? hlast)
    refine List.mem_map.mpr ⟨row, hmem, ?_⟩
    rw [ReportRow.key, of_decide_eq_true hid, ← hmarks, h]

/-- A new report that does not lower its device's marks is admitted. -/
theorem Db.Consistent.admits_of_marksLe (hdb : db.Consistent) {device : Device}
    (hdevice : db.devices.get? report.deviceId = some device) (hnew : ¬db.Holds report)
    (happends : db.Appends report now after) (hle : db.MarksLe after) : device.Admits report := by
  obtain ⟨device', hdevice', hseq, hcount⟩ := hle _ _ hdevice
  rw [happends.devices, if_pos rfl, hdevice] at hdevice'
  obtain rfl := Option.some.inj hdevice'
  have hne : device.lastAcceptedSequence ≠ report.sequence :=
    fun e => hnew (hdb.holds_of_eq hdevice e)
  exact ⟨lt_of_le_of_ne hseq hne, hcount⟩

end Steps

/-! ### Runs of concurrent requests -/

section Runs

variable {ι : Type} [DecidableEq ι] (scheme : SignatureScheme) (req : ι → ReportRequest)

/-- When the transaction of `i` stores its report, the marks still admit it. -/
def FreshAtCommit (c : Conf ι Db (Except PyException Response)) (i : ι) : Prop :=
  c.phase i = .checked → (req i).report.Storable → ¬c.store.Holds (req i).report →
    ∀ device, c.store.devices.get? (req i).report.deviceId = some device →
      device.Admits (req i).report

/-- The next step of `i` lowers no mark. -/
def MarksKept (c : Conf ι Db (Except PyException Response)) (i : ι) : Prop :=
  ∀ d, (reportHandler scheme).step req c i = some d → c.store.MarksLe d.store

/-- Handling the finished requests one after another in some order gives the same tables and, up to
the detail texts of rejections, the same responses. -/
def Serializable (db : Db) (c : Conf ι Db (Except PyException Response)) : Prop :=
  ∃ order : List ι, order.Nodup ∧ (∀ i, i ∈ order ↔ ∃ answer, c.phase i = .done answer) ∧
    ((reportHandler scheme).serialRun req db order).1 = c.store ∧
    ∀ i x, (i, x) ∈ ((reportHandler scheme).serialRun req db order).2 →
      ∃ y, c.phase i = .done y ∧ y.map Response.outcome = x.map Response.outcome

variable {scheme req} {db : Db} {schedule : List ι} {c : Conf ι Db (Except PyException Response)}
  {i : ι}

omit [DecidableEq ι] in
theorem FreshAtCommit.validated (h : FreshAtCommit req c i) :
    (reportHandler scheme).Validated req Db.Fresh c i := by
  intro hphase
  by_cases hstorable : (req i).report.Storable
  · exact .inr ⟨hstorable, h hphase hstorable⟩
  · exact .inl (inert_of_not_storable hstorable)

theorem linear_of_fresh (hdb : db.Consistent)
    (h : Run ((reportHandler scheme).step req) (FreshAtCommit req) (TwoPhase.start db) schedule c) :
    TwoPhase.Linear (reportHandler scheme) req Db.Consistent (Db.Authentic scheme)
      (Except.map Response.outcome) db c :=
  TwoPhase.linear_of_run reportHandler_validates hdb (h.weaken fun _ _ hok => hok.validated)

/-- A step between authentic requests lowers no mark exactly when it is fresh. -/
theorem marksKept_iff_fresh (hdb : c.store.Consistent)
    (hauth : c.phase i = .checked → c.store.Authentic scheme (req i)) :
    MarksKept scheme req c i ↔ FreshAtCommit req c i := by
  constructor
  · intro hkept hphase hstorable hnew device hdevice
    rcases act_cases (hauth hphase) with ⟨hover, -⟩ | ⟨-, hholds, -⟩ | ⟨-, -, after, happends, h⟩
    · exact absurd hstorable hover
    · exact absurd hholds hnew
    · obtain ⟨d, hstep⟩ : ∃ d, (reportHandler scheme).step req c i = some d :=
        ⟨_, TwoPhase.step_checked hphase⟩
      have hle := hkept d hstep
      rw [(TwoPhase.step_act hstep hphase).1, h] at hle
      exact hdb.admits_of_marksLe hdevice hnew happends hle
  · intro hfresh d hstep
    by_cases hphase : c.phase i = .checked
    · rw [(TwoPhase.step_act hstep hphase).1]
      exact act_marksLe (hauth hphase) (hfresh hphase)
    · rw [(TwoPhase.step_check hstep hphase).2.1]
      exact .refl _

/-- Requests that are posted at once keep all marks from falling and are serializable exactly when
every transaction that stores a report finds it still fresh. -/
theorem serializable_iff_fresh (hdb : db.Consistent) (hquiet : ∀ i, c.phase i ≠ .checked) :
    (Run ((reportHandler scheme).step req) (MarksKept scheme req) (TwoPhase.start db) schedule c ∧
      Serializable scheme req db c) ↔
    Run ((reportHandler scheme).step req) (FreshAtCommit req) (TwoPhase.start db) schedule c := by
  constructor
  · rintro ⟨hkept, -⟩
    apply hkept.exchange
    intro _ t j _ _ hfresh hok _
    have hlinear := linear_of_fresh hdb hfresh
    exact (marksKept_iff_fresh hlinear.inv (hlinear.auth j)).mp hok
  · intro hfresh
    refine ⟨hfresh.exchange ?_, ?_⟩
    · intro _ t j _ hrun _ hok _
      have hlinear := linear_of_fresh hdb hrun
      exact (marksKept_iff_fresh hlinear.inv (hlinear.auth j)).mpr hok
    · exact TwoPhase.linearizable reportHandler_validates hdb
        (hfresh.weaken fun _ _ hok => hok.validated) hquiet

end Runs

/-! ### Two reports that overtake each other -/

section Sample

open SignatureScheme (sample)

/-- The two reports of the sample device: the first has the lower sequence and the lower count. -/
def overtaking (second : Bool) : ReportRequest :=
  if second then ⟨sampleReport 20 2 .epoch, .epoch⟩ else ⟨sampleReport 10 1 .epoch, .epoch⟩

def registered : Db := servedAll [.registerDevice sampleRegistration .epoch]

theorem registered_consistent : registered.Consistent := consistent_of_run (servedAll_run _)

def sampleMarks (c : Conf Bool Db (Except PyException Response)) : Option (Int × Int) :=
  (c.store.devices.get? "d").map Device.marks

/-- Checks that come before both transactions do no harm when the lower sequence commits first. -/
theorem serializable_iff_fresh_sample :
    ∃ c : Conf Bool Db (Except PyException Response), sampleMarks c = some (2, 20) ∧
      ((Run ((reportHandler sample).step overtaking) (MarksKept sample overtaking)
          (TwoPhase.start registered) [true, false, false, true] c ∧
        Serializable sample overtaking registered c) ↔
      Run ((reportHandler sample).step overtaking) (FreshAtCommit overtaking)
        (TwoPhase.start registered) [true, false, false, true] c) := by
  have heval : ((Run.execute ((reportHandler sample).step overtaking) (TwoPhase.start registered)
      [true, false, false, true]).any fun c =>
        decide (∀ i, c.phase i ≠ .checked) && decide (sampleMarks c = some (2, 20))) = true := by
    decide +kernel
  obtain ⟨c, -, heval⟩ := (Option.any_eq_true _ _).mp heval
  simp only [Bool.and_eq_true, decide_eq_true_eq] at heval
  exact ⟨c, heval.2, serializable_iff_fresh registered_consistent heval.1⟩

theorem serialRun_consistent {ι : Type} {scheme : SignatureScheme} {req : ι → ReportRequest}
    {db : Db} (hdb : db.Consistent) (order : List ι) :
    ((reportHandler scheme).serialRun req db order).1.Consistent := by
  induction order using List.reverseRecOn with
  | nil => exact hdb
  | append_singleton order i ih =>
    rw [TwoPhase.serialRun_concat, reportHandler_serial]
    exact respond_consistent samplePydantic ih
      (.postReport (req i).report (req i).now none)

/-- Both reports pass the check; the second commits first.  The first then moves the marks back. -/
theorem overtaken_marks :
    ∃ t c : Conf Bool Db (Except PyException Response),
      Run ((reportHandler sample).step overtaking) Always (TwoPhase.start registered)
        [false, true, true] t ∧
      Run ((reportHandler sample).step overtaking) Always t [false] c ∧
      (∀ i, c.phase i ≠ .checked) ∧
      sampleMarks t = some (2, 20) ∧ sampleMarks c = some (1, 10) ∧
      ¬Serializable sample overtaking registered c := by
  have heval : ((Run.execute ((reportHandler sample).step overtaking) (TwoPhase.start registered)
      [false, true, true]).any fun t => decide (sampleMarks t = some (2, 20)) &&
        (Run.execute ((reportHandler sample).step overtaking) t [false]).any fun c =>
          decide (∀ i, c.phase i ≠ .checked) && decide (sampleMarks c = some (1, 10)) &&
          decide ((c.store.reportsOf "d").map (·.sequence) = [2, 1])) = true := by
    decide +kernel
  obtain ⟨t, ht, heval⟩ := (Option.any_eq_true _ _).mp heval
  obtain ⟨hmarks, heval⟩ := Bool.and_eq_true_iff.mp heval
  obtain ⟨c, hc, heval⟩ := (Option.any_eq_true _ _).mp heval
  simp only [Bool.and_eq_true, decide_eq_true_eq] at hmarks heval
  refine ⟨t, c, .of_execute ht, .of_execute hc, heval.1.1, hmarks, heval.1.2, ?_⟩
  rintro ⟨order, -, -, hstore, -⟩
  have hconsistent : c.store.Consistent := hstore ▸ serialRun_consistent registered_consistent order
  -- the rows stand in the order of the commits, and their sequences fall
  have hsorted : ((c.store.reportsOf "d").map (·.sequence)).Pairwise (· < ·) :=
    List.pairwise_map.mpr ((hconsistent.increasing "d").imp fun h => h.1)
  rw [heval.2] at hsorted
  exact absurd hsorted (by decide)

end Sample

/-! ### At most once -/

section AtMostOnce

variable {ι : Type} [DecidableEq ι]

/-- The response to `i` is an acceptance. -/
def AcceptedIn (req : ι → ReportRequest) (c : Conf ι Db (Except PyException Response)) (i : ι) :
    Prop :=
  c.phase i = .done (.ok (accepted (req i).report))

/-- What a run from `db` has established: accepted requests have rows of their own, which were not
stored before. -/
structure StoredOnce (req : ι → ReportRequest) (db : Db)
    (c : Conf ι Db (Except PyException Response)) : Prop where
  kept : ∀ key ∈ db.usageReports.map ReportRow.key, key ∈ c.store.usageReports.map ReportRow.key
  stored : ∀ i, AcceptedIn req c i → c.store.Holds (req i).report
  fresh : ∀ i, AcceptedIn req c i → ¬db.Holds (req i).report
  unique : ∀ i j, AcceptedIn req c i → AcceptedIn req c j →
    (req i).report.deviceId = (req j).report.deviceId →
    (req i).report.sequence = (req j).report.sequence → i = j

variable {scheme : SignatureScheme} {req : ι → ReportRequest} {db : Db} {schedule : List ι}
  {c d : Conf ι Db (Except PyException Response)} {i : ι}

omit [DecidableEq ι] in
/-- A step that stores nothing accepts nothing. -/
theorem StoredOnce.same (h : StoredOnce req db c) (hstore : d.store = c.store)
    (hother : ∀ j, j ≠ i → d.phase j = c.phase j) (hrefused : ¬AcceptedIn req d i) :
    StoredOnce req db d := by
  have hsame : ∀ j, AcceptedIn req d j → AcceptedIn req c j := by
    intro j hj
    have hne : j ≠ i := fun e => hrefused (e ▸ hj)
    rwa [AcceptedIn, ← hother j hne]
  refine ⟨?_, ?_, fun j hj => h.fresh j (hsame j hj), ?_⟩
  · rw [hstore]; exact h.kept
  · intro j hj
    rw [hstore]
    exact h.stored j (hsame j hj)
  · intro j k hj hk
    exact h.unique j k (hsame j hj) (hsame k hk)

/-- A step that stores the report of `i`. -/
theorem StoredOnce.append (h : StoredOnce req db c) (hnew : ¬c.store.Holds (req i).report)
    (happends : c.store.Appends (req i).report (req i).now d.store)
    (hother : ∀ j, j ≠ i → d.phase j = c.phase j) : StoredOnce req db d := by
  have hkeys : d.store.usageReports.map ReportRow.key =
      c.store.usageReports.map ReportRow.key ++
        [((req i).report.deviceId, ((req i).report.sequence : Int))] := by
    rw [happends.usageReports, List.map_append]
    rfl
  have hsame : ∀ j, j ≠ i → AcceptedIn req d j → AcceptedIn req c j := by
    intro j hne hj
    rwa [AcceptedIn, ← hother j hne]
  -- a request accepted before has a row, and the report of `i` had none
  have hclash : ∀ j, j ≠ i → AcceptedIn req d j →
      (req j).report.deviceId = (req i).report.deviceId →
      (req j).report.sequence = (req i).report.sequence → False := by
    intro j hji hj hid hseq
    have hstored := h.stored j (hsame j hji hj)
    rw [Db.Holds, hid, hseq] at hstored
    exact hnew hstored
  refine ⟨?_, ?_, ?_, ?_⟩
  · intro key hkey
    rw [hkeys]
    exact List.mem_append_left _ (h.kept key hkey)
  · intro j hj
    unfold Db.Holds
    rw [hkeys]
    by_cases hji : j = i
    · subst hji; simp
    · exact List.mem_append_left _ (h.stored j (hsame j hji hj))
  · intro j hj
    by_cases hji : j = i
    · subst hji
      exact fun hholds => hnew (h.kept _ hholds)
    · exact h.fresh j (hsame j hji hj)
  · intro j k hj hk hid hseq
    by_cases hji : j = i
    · by_cases hki : k = i
      · rw [hji, hki]
      · rw [hji] at hid hseq
        exact (hclash k hki hk hid.symm hseq.symm).elim
    · by_cases hki : k = i
      · rw [hki] at hid hseq
        exact (hclash j hji hj hid hseq).elim
      · exact h.unique j k (hsame j hji hj) (hsame k hki hk) hid hseq

/-- A transaction accepts its report and appends it, or changes nothing. -/
theorem act_outcome (scheme : SignatureScheme) (db : Db) (req : ReportRequest) :
    (((reportHandler scheme).act db req).1 = db ∧
      ((reportHandler scheme).act db req).2 ≠ .ok (accepted req.report)) ∨
    (¬db.Holds req.report ∧
      db.Appends req.report req.now ((reportHandler scheme).act db req).1 ∧
      ((reportHandler scheme).act db req).2 = .ok (accepted req.report)) := by
  have hact : (reportHandler scheme).act db req =
    withConnection db (storeReport req.report req.now none) := rfl
  rw [hact]
  rcases storeReport_cases req.report req.now db with
    ⟨-, h⟩ | ⟨-, -, h⟩ | ⟨-, hnew, -, after, -, happends, h⟩
  · rw [h]; exact .inl ⟨rfl, fun e => nomatch e⟩
  · rw [h]; exact .inl ⟨rfl, fun e => nomatch e⟩
  · rw [h]; exact .inr ⟨hnew, happends, rfl⟩

theorem step_refused (hstep : (reportHandler scheme).step req c i = some d)
    (hrefused : ¬AcceptedIn req d i) : d.store = c.store := by
  by_cases hphase : c.phase i = .checked
  · obtain ⟨hstore, hanswer, -⟩ := TwoPhase.step_act hstep hphase
    rcases act_outcome scheme c.store (req i) with ⟨hsame, -⟩ | ⟨-, -, haccepted⟩
    · rw [hstore, hsame]
    · exact absurd (by rw [AcceptedIn, hanswer, haccepted]) hrefused
  · exact (TwoPhase.step_check hstep hphase).2.1

theorem step_storedOnce (h : StoredOnce req db c)
    (hstep : (reportHandler scheme).step req c i = some d) : StoredOnce req db d := by
  by_cases hphase : c.phase i = .checked
  · obtain ⟨hstore, hanswer, hother⟩ := TwoPhase.step_act hstep hphase
    rcases act_outcome scheme c.store (req i) with ⟨hsame, hne⟩ | ⟨hnew, happends, -⟩
    · apply h.same (i := i) (hstore.trans hsame) hother
      intro haccepted
      apply hne
      rw [AcceptedIn, hanswer] at haccepted
      exact Phase.done.inj haccepted
    · rw [← hstore] at happends
      exact h.append hnew happends hother
  · obtain ⟨-, hstore, hcheck, hother⟩ := TwoPhase.step_check hstep hphase
    apply h.same (i := i) hstore hother
    intro haccepted
    rw [AcceptedIn] at haccepted
    rcases hcheck with ⟨hchecked, -⟩ | ⟨answer, hdone, hscreen⟩
    · rw [hchecked] at haccepted
      cases haccepted
    · rw [hdone] at haccepted
      exact screenReport_not_accepted hscreen _ (Phase.done.inj haccepted)

theorem storedOnce_of_run
    (h : Run ((reportHandler scheme).step req) Always (TwoPhase.start db) schedule c) :
    StoredOnce req db c := by
  have hnone : ∀ i, ¬AcceptedIn req (TwoPhase.start db) i := by
    intro i hi
    cases hi
  refine h.preserves ?_ fun _ _ _ ht _ hstep => step_storedOnce ht hstep
  exact ⟨fun _ hkey => hkey, fun i hi => absurd hi (hnone i), fun i hi => absurd hi (hnone i),
    fun i _ hi => absurd hi (hnone i)⟩

variable (scheme req db c) in
/-- What holds of the sequences of the reports at every moment of a run from `db`. -/
structure AtMostOnce : Prop where
  once : ∀ i j, AcceptedIn req c i → AcceptedIn req c j →
    (req i).report.deviceId = (req j).report.deviceId →
    (req i).report.sequence = (req j).report.sequence → i = j
  one_row : ∀ i, AcceptedIn req c i → (c.store.usageReports.map ReportRow.key).count
    ((req i).report.deviceId, ((req i).report.sequence : Int)) = 1
  not_before : ∀ i, AcceptedIn req c i → ¬db.Holds (req i).report
  loses_check : ∀ i d device, (reportHandler scheme).step req c i = some d →
    c.phase i ≠ .checked → c.store.devices.get? (req i).report.deviceId = some device →
    Verifies scheme (req i).report device.publicKey →
    (req i).report.sequence ≤ device.lastAcceptedSequence →
    (∃ detail, d.phase i = .done (.ok (rejection .replay detail))) ∧ d.store = c.store
  loses_unique : ∀ i d, (reportHandler scheme).step req c i = some d → c.phase i = .checked →
    (req i).report.Storable → c.store.Holds (req i).report →
    d.phase i = .done (.ok replayed) ∧ d.store = c.store
  refused_unchanged : ∀ i d, (reportHandler scheme).step req c i = some d →
    ¬AcceptedIn req d i → d.store = c.store

/-- However requests interleave, a sequence of a device is accepted at most once. -/
theorem accepted_at_most_once
    (h : Run ((reportHandler scheme).step req) Always (TwoPhase.start db) schedule c) :
    AtMostOnce scheme req db c where
  once := (storedOnce_of_run h).unique
  one_row i hi := List.count_eq_one_of_mem c.store.unique ((storedOnce_of_run h).stored i hi)
  not_before := (storedOnce_of_run h).fresh
  loses_check i d device hstep hphase hdevice hverifies hle := by
    obtain ⟨-, hstore, hcheck, -⟩ := TwoPhase.step_check hstep hphase
    obtain ⟨detail, hscreen⟩ := screenReport_replay hdevice hverifies hle
    have hscreen : (reportHandler scheme).check c.store (req i) =
      some (.ok (rejection .replay detail)) := hscreen
    rw [hscreen] at hcheck
    rcases hcheck with ⟨-, hnone⟩ | ⟨answer, hdone, hanswer⟩
    · cases hnone
    · exact ⟨⟨detail, by rw [hdone, ← Option.some.inj hanswer]⟩, hstore⟩
  loses_unique i d hstep hphase hstorable hholds := by
    obtain ⟨hstore, hanswer, -⟩ := TwoPhase.step_act hstep hphase
    have hact : (reportHandler scheme).act c.store (req i) = (c.store, .ok replayed) := by
      rcases storeReport_cases (req i).report (req i).now c.store with
        ⟨hover, -⟩ | ⟨-, -, h⟩ | ⟨-, hnew, -⟩
      · exact absurd hstorable hover
      · exact h
      · exact absurd hholds hnew
    rw [hstore, hanswer, hact]
    exact ⟨rfl, rfl⟩
  refused_unchanged i d hstep hrefused := step_refused hstep hrefused

end AtMostOnce

/-- Two requests that carry the same report. -/
def duplicated (_ : Bool) : ReportRequest := ⟨sampleReport 5 0 .epoch, .epoch⟩

theorem accepted_at_most_once_sample :
    ∃ c : Conf Bool Db (Except PyException Response),
      AtMostOnce SignatureScheme.sample duplicated registered c ∧ AcceptedIn duplicated c false ∧
        c.phase true = .done (.ok replayed) := by
  have heval : ((Run.execute ((reportHandler SignatureScheme.sample).step duplicated)
      (TwoPhase.start registered) [true, false, false, true]).any fun c =>
        decide (c.phase false = .done (.ok (accepted (duplicated false).report))) &&
        decide (c.phase true = .done (.ok replayed))) = true := by
    decide +kernel
  obtain ⟨c, hc, heval⟩ := (Option.any_eq_true _ _).mp heval
  simp only [Bool.and_eq_true, decide_eq_true_eq] at heval
  exact ⟨c, accepted_at_most_once (.of_execute hc), heval.1, heval.2⟩

end BleUsageMeter.Backend
