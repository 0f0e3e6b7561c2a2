import BleUsageMeter.Gateway.Backoff
import BleUsageMeter.Gateway.Delivery

/-! `cmd_report` of `gateway/cli.py` as a whole, from the key file to the exit code, against the
backend and over a network that loses requests and responses.  "Nothing to unwind; the count is
already durable in SQLite": whatever the network does, the counts and the log of the gateway are as
before.  An exit code of 0 means that the backend has accepted every count. -/

namespace BleUsageMeter.Gateway

open Kit
open Backend (Db Device Value Pydantic UsageReport)

/-- What `Signer.from_file` raises. -/
inductive KeyError
  | notFound
  | raised (e : PyException)

variable {scheme : SignatureScheme}

/-- `Signer.from_file`.  `file` is what the key file holds, if there is one, and `loadPem` is
`load_pem_private_key`, which gives no secret for a key that is not Ed25519. -/
def Signer.fromFile (loadPem : List UInt8 → Except PyException (Option scheme.Secret))
    (file : Option (List UInt8)) : Except KeyError (Signer scheme) :=
  match file with
  | none => .error .notFound
  | some data =>
    if utf8 "REPLACE_ME" <:+: data then .error (.raised .valueError)
    else
      match loadPem data with
      | .error e => .error (.raised e)
      | .ok none => .error (.raised .typeError)
      | .ok (some key) => .ok ⟨key⟩

/-- A line that `run_all` prints. -/
structure ReportLine where
  deviceId : String
  count : Nat
  sequence : Nat
  delivered : Bool
  attempts : Int

/-- How the command ends. -/
inductive Ending
  | exit (code : Nat) (lines : List ReportLine)
  | raised (e : PyException)

section

variable (py : Pydantic) (wire : Dict String Value → Dict String Value)
  (network : String → Nat → Attempt) (cfg : GatewayConfig)

/-- The tuple of a row, in the report `seq` made at `now`. -/
def GatewayConfig.tuple (seq : Nat) (now : Int) (row : String × Nat) : ReportTuple :=
  ⟨row.1, row.2, seq, now - cfg.reportIntervalSec, now⟩

/-- `run_all`.  `network d` says what becomes of the attempts for device `d`. -/
def runAll (signer : Signer scheme) (seq : Nat) (now : Int) :
    List (String × Nat) → Db → Db × Except PyException (List ReportLine)
  | [], db => (db, .ok [])
  | row :: rest, db =>
    match buildPayload signer (cfg.tuple seq now row) with
    | .error e => (db, .error e)
    | .ok payload =>
      let res := cfg.reporter.post
        (fun k db => clientPost py wire scheme payload db (network row.1 k)) db
      let (db, lines) := runAll signer seq now rest res.server
      (db, lines.map (⟨row.1, row.2, seq, res.delivered, res.attempts⟩ :: ·))

/-- The number of the next report from a store. -/
def nextNumber (store : Store) : Nat := (Counter.load store).nextSequence.1

/-- `cmd_report`, at the clock reading `now`. -/
def cmdReport (loadPem : List UInt8 → Except PyException (Option scheme.Secret))
    (file : Option (List UInt8)) (now : Int) (w : World) : World × Ending :=
  match Signer.fromFile loadPem file with
  | .error .notFound | .error (.raised .valueError) => (w, .exit 2 [])
  | .error (.raised e) => (w, .raised e)
  | .ok signer =>
    let (seq, counter) := (Counter.load w.store).nextSequence
    match w.store.checkSequence seq with
    | .error e => (w, .raised e)
    | .ok _ =>
      let store := w.store.writeSequence seq
      match runAll py wire network cfg signer seq now counter.snapshot w.db with
      | (db, .error e) => (⟨store, db⟩, .raised e)
      | (db, .ok lines) =>
        let failures := lines.countP fun line => !line.delivered
        (⟨store, db⟩, .exit (if failures = 0 then 0 else 1) lines)

end

variable {py : Pydantic} {wire : Dict String Value → Dict String Value} {db after : Db}
  {payload body : Dict String Value} {report : UsageReport} {signer : Signer scheme}
  {cfg : GatewayConfig}

/-! ### One report -/

/-- The backend takes a body as a new report, or it refuses it whenever it is sent. -/
theorem refuses_or_stores (py : Pydantic) (scheme : SignatureScheme) (body : Dict String Value)
    (db : Db) : Refuses py scheme body db ∨
      ∃ report, UsageReport.validate py body = .ok (.ok report) ∧ db.Admits scheme report ∧
        report.Storable ∧ ¬db.Holds report ∧ Stores py scheme body report db := by
  cases hbody : UsageReport.validate py body with
  | error e =>
    refine .inl fun now => ?_
    rw [serve, hbody]
    exact ⟨rfl, show 300 ≤ 500 by omega⟩
  | ok read =>
    cases read with
    | error errors =>
      refine .inl fun now => ?_
      rw [serve, hbody]
      exact ⟨rfl, show 300 ≤ 422 by omega⟩
    | ok report =>
      by_cases hadmits : db.Admits scheme report
      · rcases stores_or_refuses hbody hadmits with ⟨hstorable, hholds, hstores⟩ | ⟨-, hrefuses⟩
        · exact .inr ⟨report, rfl, hadmits, hstorable, hholds, hstores⟩
        · exact .inl hrefuses
      · refine .inl fun now => ?_
        rw [serve_eq hbody, Backend.postReport]
        cases hscreen : Backend.screenReport scheme db report with
        | none => exact absurd (Backend.screenReport_none_iff.mp hscreen) hadmits
        | some answer =>
          refine ⟨rfl, ?_⟩
          unfold Backend.screenReport at hscreen
          split at hscreen
          · obtain rfl := Option.some.inj hscreen
            exact show 300 ≤ 500 by omega
          · rename_i result _
            split at hscreen
            · cases hscreen
            · obtain rfl := Option.some.inj hscreen
              show 300 ≤ Backend.statusForCode result.code
              cases result.code <;> decide

/-- The loop of `post` with its delays left out. -/
theorem postLoop_eq (py : Pydantic) (wire : Dict String Value → Dict String Value)
    (scheme : SignatureScheme) (payload : Dict String Value) (network : Nat → Attempt)
    (rep : Reporter) (attempts : List Nat) (delay : Int) (db : Db) :
    postLoop py wire network rep.maxAttempts.toNat scheme payload attempts db =
      let res := rep.postLoop (fun k db => clientPost py wire scheme payload db (network k))
        attempts delay db
      (res.server, ⟨res.delivered, res.status, res.attempts.toNat⟩) := by
  induction attempts generalizing delay db with
  | nil => rfl
  | cons attempt rest ih =>
    have hagain : ∀ db, postLoop py wire network rep.maxAttempts.toNat scheme payload rest db =
        let res := rep.again attempt delay fun delay => rep.postLoop
          (fun k db => clientPost py wire scheme payload db (network k)) rest delay db
        (res.server, ⟨res.delivered, res.status, res.attempts.toNat⟩) := by
      intro db
      rw [Reporter.again]
      split
      · exact ih _ db
      · exact ih _ db
    rw [postLoop, Reporter.postLoop]
    cases hpost : clientPost py wire scheme payload db (network attempt) with
    | mk db' response =>
      cases response with
      | none => exact hagain db'
      | some status =>
        simp only [settled]
        split
        · rfl
        · split
          · rfl
          · exact hagain db'

/-- What becomes of a report: the backend refuses it, or it stores it at the first attempt that
arrives, and the gateway learns of that if the attempt is answered. -/
theorem post_cases (rep : Reporter) (network : Nat → Attempt) (payload : Dict String Value)
    (db : Db) {res : Posted Db}
    (h : rep.post (fun k db => clientPost py wire scheme payload db (network k)) db = res) :
    (Refuses py scheme (wire payload) db ∧ res.server = db ∧ res.delivered = false) ∨
    ∃ report, UsageReport.validate py (wire payload) = .ok (.ok report) ∧
      db.Admits scheme report ∧ report.Storable ∧ ¬db.Holds report ∧
      ((((List.range' 1 rep.maxAttempts.toNat).map network).find? Attempt.Reaches = none ∧
        res.server = db ∧ res.delivered = false) ∨
      (∃ now, ((List.range' 1 rep.maxAttempts.toNat).map network).find? Attempt.Reaches =
          some (.responseLost now) ∧
        db.Appends report now res.server ∧ res.delivered = false) ∨
      (∃ now, ((List.range' 1 rep.maxAttempts.toNat).map network).find? Attempt.Reaches =
          some (.answered now) ∧
        db.Appends report now res.server ∧ res.delivered = true)) := by
  have hloop := postLoop_eq py wire scheme payload network rep
    (List.range' 1 rep.maxAttempts.toNat) rep.baseDelay db
  rw [Reporter.post] at h
  rw [h] at hloop
  rcases refuses_or_stores py scheme (wire payload) db with
    hrefuses | ⟨report, hbody, hadmits, hstorable, hholds, hstores⟩
  · exact .inl ⟨hrefuses, postLoop_refused hrefuses hloop⟩
  · exact .inr ⟨report, hbody, hadmits, hstorable, hholds, postLoop_stored hstores hloop⟩

/-- A report that the backend reads in a payload of the tuple says what the tuple says. -/
def Carries (py : Pydantic) (wire : Dict String Value → Dict String Value) (signer : Signer scheme)
    (r : ReportTuple) : Prop :=
  ∀ payload report, buildPayload signer r = .ok payload →
    UsageReport.validate py (wire payload) = .ok (.ok report) →
      report.deviceId = r.deviceId ∧ (report.count : Int) = r.count ∧
        (report.sequence : Int) = r.sequence

/-- As it is, a payload carries nothing else, because the backend reads no report in it. -/
theorem carries_id (signer : Signer scheme) (r : ReportTuple) : Carries py id signer r := by
  intro payload report hpayload hread
  exact absurd hread (UsageReport.validate_unsigned (buildPayload_unsigned hpayload) report)

theorem sign_eq_ok {r : ReportTuple} {sig : List UInt8} (h : signer.sign r = .ok sig) :
    ∃ m, canonicalBytes r = .ok m ∧ sig = scheme.sign signer.key m := by
  rw [Signer.sign] at h
  cases hbytes : canonicalBytes r with
  | error e =>
    rw [hbytes] at h
    cases h
  | ok m =>
    rw [hbytes] at h
    exact ⟨m, rfl, (Except.ok.inj h).symm⟩

theorem Understood.carries {r : ReportTuple} (h : Understood signer py wire r) :
    Carries py wire signer r := by
  obtain ⟨payload, sig, report, hpayload, hsign, hread, hbytes, hsig, -⟩ := h
  intro payload' report' hpayload' hread'
  obtain rfl := Except.ok.inj (hpayload.symm.trans hpayload')
  obtain rfl := Except.ok.inj (Except.ok.inj (hread.symm.trans hread'))
  obtain ⟨m, hm, -⟩ := sign_eq_ok hsign
  have hcarried : Message.CarriedBy ⟨r, sig, .empty⟩ report := ⟨⟨m, hbytes.trans hm, hm⟩, hsig⟩
  obtain ⟨hdevice, hcount, hsequence⟩ := hcarried.fields
  exact ⟨hdevice.symm, hcount.symm, hsequence.symm⟩

/-! ### All reports of a run -/

/-- What the reports of some rows may do to the tables: other devices are as before, and at most one
row is appended for each device, in the order of the rows. -/
structure Extends (seq : Nat) (rows : List (String × Nat)) (db after : Db) : Prop where
  others : ∀ id ∉ rows.map Prod.fst, after.devices.get? id = db.devices.get? id
  policies : after.policies = db.policies
  stored : ∃ stored, after.usageReports = db.usageReports ++ stored ∧
    (stored.map fun row => (row.deviceId, row.count, row.sequence)).Sublist
      (rows.map fun row => (row.1, (row.2 : Int), (seq : Int)))

/-- The backend has accepted the count in report `seq`. -/
def Accepts (db : Db) (seq : Nat) (deviceId : String) (count : Nat) : Prop :=
  ∃ device, db.devices.get? deviceId = some device ∧ device.marks = ((seq : Int), (count : Int))

variable {seq : Nat} {now : Int} {row : String × Nat} {rows : List (String × Nat)}
  {network : String → Nat → Attempt}

theorem Extends.refl (seq : Nat) (rows : List (String × Nat)) (db : Db) : Extends seq rows db db :=
  ⟨fun _ _ => rfl, rfl, [], (List.append_nil _).symm, List.nil_sublist _⟩

theorem Extends.trans {mid : Db} (h : Extends seq [row] db mid)
    (hrest : Extends seq rows mid after) : Extends seq (row :: rows) db after where
  others id hid := by
    rw [List.map_cons, List.mem_cons, not_or] at hid
    rw [hrest.others id hid.2, h.others id (by simpa using hid.1)]
  policies := hrest.policies.trans h.policies
  stored := by
    obtain ⟨first, hfirst, hsub⟩ := h.stored
    obtain ⟨later, hlater, hsubLater⟩ := hrest.stored
    refine ⟨first ++ later, by rw [hlater, hfirst, List.append_assoc], ?_⟩
    rw [List.map_append]
    exact hsub.append hsubLater

/-- A report that carries a row and is appended. -/
theorem Extends.of_appends {received : Datetime} (h : db.Appends report received after)
    (hid : report.deviceId = row.1) (hcount : (report.count : Int) = row.2)
    (hsequence : (report.sequence : Int) = seq) : Extends seq [row] db after where
  others id hother := by
    rw [h.devices, if_neg]
    rintro rfl
    exact hother (by simp [hid])
  policies := h.policies
  stored := by
    refine ⟨_, h.usageReports, ?_⟩
    simp only [List.map_cons, List.map_nil, Backend.reportRow, hid, hcount, hsequence]
    exact List.Sublist.refl _

theorem accepts_of_appends {received : Datetime} (hadmits : db.Admits scheme report)
    (h : db.Appends report received after) (hid : report.deviceId = row.1)
    (hcount : (report.count : Int) = row.2) (hsequence : (report.sequence : Int) = seq) :
    Accepts after seq row.1 row.2 := by
  obtain ⟨device, hdevice, -⟩ := hadmits
  refine ⟨Db.Device.withMarks report.sequence report.count device, ?_, ?_⟩
  · rw [h.devices, hid, if_pos rfl, ← hid, hdevice]
    rfl
  · rw [← hcount, ← hsequence]
    rfl

/-- The report of one row. -/
theorem post_extends (rep : Reporter) {r : ReportTuple}
    (hpayload : buildPayload signer r = .ok payload) (hid : r.deviceId = row.1)
    (hcount : r.count = row.2) (hsequence : r.sequence = seq)
    (hcarries : Carries py wire signer r) (network : Nat → Attempt) (db : Db) :
    let res := rep.post (fun k db => clientPost py wire scheme payload db (network k)) db
    Extends seq [row] db res.server ∧
      (res.delivered = true → Accepts res.server seq row.1 row.2) := by
  intro res
  have hpost : rep.post (fun k db => clientPost py wire scheme payload db (network k)) db = res :=
    rfl
  rcases post_cases rep network payload db hpost with
    ⟨-, hdb, hundelivered⟩ | ⟨report, hread, hadmits, -, -, hcases⟩
  · rw [hdb]
    exact ⟨.refl _ _ _, fun h => by rw [hundelivered] at h; cases h⟩
  · obtain ⟨hdevice, hrcount, hrsequence⟩ := hcarries payload report hpayload hread
    rw [hid] at hdevice
    rw [hcount] at hrcount
    rw [hsequence] at hrsequence
    rcases hcases with ⟨-, hdb, hundelivered⟩ | ⟨received, -, happends, -⟩ |
      ⟨received, -, happends, -⟩
    · rw [hdb]
      exact ⟨.refl _ _ _, fun h => by rw [hundelivered] at h; cases h⟩
    · exact ⟨.of_appends happends hdevice hrcount hrsequence,
        fun _ => accepts_of_appends hadmits happends hdevice hrcount hrsequence⟩
    · exact ⟨.of_appends happends hdevice hrcount hrsequence,
        fun _ => accepts_of_appends hadmits happends hdevice hrcount hrsequence⟩

/-- What `run_all` does to the tables, by induction on the rows, and what the lines that it prints
say of them. -/
theorem runAll_extends (hnodup : (rows.map Prod.fst).Nodup)
    (hcarries : ∀ row ∈ rows, Carries py wire signer (cfg.tuple seq now row)) {db : Db}
    {result : Db × Except PyException (List ReportLine)}
    (h : runAll py wire network cfg signer seq now rows db = result) :
    Extends seq rows db result.1 ∧ ∀ lines, result.2 = .ok lines →
      (lines.map fun line => (line.deviceId, line.count)) = rows ∧
      ∀ line ∈ lines, line.sequence = seq ∧
        (line.delivered = true → Accepts result.1 seq line.deviceId line.count) := by
  induction rows generalizing db result with
  | nil =>
    subst h
    refine ⟨.refl _ _ _, fun lines hlines => ?_⟩
    obtain rfl := Except.ok.inj hlines
    exact ⟨rfl, List.forall_mem_nil _⟩
  | cons row rest ih =>
    rw [List.map_cons, List.nodup_cons] at hnodup
    rw [List.forall_mem_cons] at hcarries
    rw [runAll] at h
    cases hpayload : buildPayload signer (cfg.tuple seq now row) with
    | error e =>
      rw [hpayload] at h
      subst h
      exact ⟨.refl _ _ _, fun lines hlines => by cases hlines⟩
    | ok payload =>
      obtain ⟨hfirst, hdelivered⟩ := post_extends cfg.reporter hpayload rfl rfl rfl hcarries.1
        (network row.1) db
      rw [hpayload] at h
      dsimp only at h
      cases hrest : runAll py wire network cfg signer seq now rest (cfg.reporter.post
          (fun k db => clientPost py wire scheme payload db (network row.1 k)) db).server with
      | mk last later =>
        obtain ⟨hextends, hlines⟩ := ih hnodup.2 hcarries.2 hrest
        rw [hrest] at h
        subst h
        refine ⟨hfirst.trans hextends, fun lines heq => ?_⟩
        cases later with
        | error e => cases heq
        | ok later =>
          obtain rfl := Except.ok.inj heq
          obtain ⟨hrows, hall⟩ := hlines later rfl
          refine ⟨by rw [List.map_cons, hrows], ?_⟩
          rw [List.forall_mem_cons]
          refine ⟨⟨rfl, fun hd => ?_⟩, hall⟩
          obtain ⟨device, hdevice, hmarks⟩ := hdelivered hd
          exact ⟨device, (hextends.others _ hnodup.1).trans hdevice, hmarks⟩

/-! ### When all is delivered -/

/-- The first attempt that arrives is answered. -/
def Answered (network : Nat → Attempt) (maxAttempts : Nat) : Prop :=
  ∃ received, ((List.range' 1 maxAttempts).map network).find? Attempt.Reaches =
    some (.answered received)

/-- The backend is ready for the report of a row. -/
def Ready (py : Pydantic) (wire : Dict String Value → Dict String Value) (cfg : GatewayConfig)
    (signer : Signer scheme) (seq : Nat) (now : Int) (db : Db) (row : String × Nat) : Prop :=
  ∃ payload report, buildPayload signer (cfg.tuple seq now row) = .ok payload ∧
    UsageReport.validate py (wire payload) = .ok (.ok report) ∧ report.deviceId = row.1 ∧
    db.Admits scheme report ∧ report.Storable ∧ ¬db.Holds report

/-- The report of another device does not change that. -/
theorem Ready.later {other : String × Nat} (h : Ready py wire cfg signer seq now db row)
    (hextends : Extends seq [other] db after) (hne : row.1 ≠ other.1) :
    Ready py wire cfg signer seq now after row := by
  obtain ⟨payload, report, hpayload, hread, hid, ⟨device, hdevice, hverifies⟩, hstorable,
    hholds⟩ := h
  refine ⟨payload, report, hpayload, hread, hid, ⟨device, ?_, hverifies⟩, hstorable, ?_⟩
  · rw [hextends.others _ (by simp [hid, hne]), hdevice]
  · obtain ⟨stored, hstored, hsub⟩ := hextends.stored
    intro hafter
    obtain ⟨held, hheld, hkey⟩ := List.mem_map.mp hafter
    rw [hstored, List.mem_append] at hheld
    rcases hheld with hheld | hheld
    · exact hholds (List.mem_map.mpr ⟨held, hheld, hkey⟩)
    · have hother := hsub.subset (List.mem_map_of_mem hheld)
      simp only [List.map_cons, List.map_nil, List.mem_singleton, Prod.mk.injEq] at hother
      have hdevice := congrArg Prod.fst hkey
      exact hne (hid.symm.trans (hdevice.symm.trans hother.1))

/-- The report that the backend is ready for is delivered just where the first attempt that arrives
is answered. -/
theorem Ready.delivered_iff (h : Ready py wire cfg signer seq now db row)
    (hpayload : buildPayload signer (cfg.tuple seq now row) = .ok payload) (rep : Reporter)
    (network : Nat → Attempt) :
    (rep.post (fun k db => clientPost py wire scheme payload db (network k)) db).delivered = true ↔
      Answered network rep.maxAttempts.toNat := by
  obtain ⟨payload', report, hpayload', hread, -, hadmits, hnew⟩ := h
  obtain rfl := Except.ok.inj (hpayload.symm.trans hpayload')
  unfold Answered
  generalize hpost :
    rep.post (fun k db => clientPost py wire scheme payload db (network k)) db = res
  rcases post_cases rep network payload db hpost with
    ⟨hrefuses, -⟩ | ⟨-, -, -, -, -, ⟨hfind, -, hres⟩ | ⟨_, hfind, -, hres⟩ | ⟨_, hfind, -, hres⟩⟩
  · rcases stores_or_refuses hread hadmits with ⟨-, -, hstores⟩ | ⟨hold, -⟩
    · have hstatus := (hstores .epoch).2.1
      have hrefused := (hrefuses .epoch).2
      omega
    · exact absurd hnew hold
  · rw [hfind, hres]
    simp
  · rw [hfind, hres]
    simp
  · rw [hfind, hres]
    simp

/-- All rows are delivered just where the network answers for each, by induction on the rows. -/
theorem runAll_delivers_iff (hnodup : (rows.map Prod.fst).Nodup)
    (hcarries : ∀ row ∈ rows, Carries py wire signer (cfg.tuple seq now row)) {db : Db}
    (hready : ∀ row ∈ rows, Ready py wire cfg signer seq now db row)
    (network : String → Nat → Attempt) :
    ∃ lines, (runAll py wire network cfg signer seq now rows db).2 = .ok lines ∧
      ((∀ line ∈ lines, line.delivered = true) ↔
        ∀ row ∈ rows, Answered (network row.1) cfg.retryMaxAttempts.toNat) := by
  induction rows generalizing db with
  | nil => exact ⟨[], rfl, by simp⟩
  | cons row rest ih =>
    rw [List.map_cons, List.nodup_cons] at hnodup
    rw [List.forall_mem_cons] at hcarries hready
    obtain ⟨payload, -, hpayload, -⟩ := id hready.1
    obtain ⟨hfirst, -⟩ := post_extends cfg.reporter hpayload rfl rfl rfl hcarries.1
      (network row.1) db
    have hdelivered := hready.1.delivered_iff hpayload cfg.reporter (network row.1)
    obtain ⟨lines, hlines, hall⟩ := ih hnodup.2 hcarries.2 fun other hother =>
      (hready.2 other hother).later hfirst fun heq =>
        hnodup.1 (heq ▸ List.mem_map_of_mem hother)
    refine ⟨_, by rw [runAll, hpayload]; exact congrArg (Except.map _) hlines, ?_⟩
    rw [List.forall_mem_cons, List.forall_mem_cons, hall, hdelivered]
    rfl

/-! ### The command -/

variable {loadPem : List UInt8 → Except PyException (Option scheme.Secret)}
  {file : Option (List UInt8)} {w : World}

theorem snapshot_load (store : Store) :
    (Counter.load store).nextSequence.2.snapshot = store.counters.entries := by
  simp [Counter.nextSequence, Counter.snapshot, Counter.load, Store.loadCounters]

theorem checkSequence_nextNumber (store : Store) :
    store.checkSequence (nextNumber store) = .ok () := by
  rw [Store.checkSequence, if_neg]
  rw [nextNumber, Counter.nextSequence, Counter.load, Counter.restoreSequence]
  split <;> simp only [Counter.sequence_ofCounts] at * <;> omega

/-- With a key, the command saves the next number and reports every row. -/
theorem cmdReport_eq (hkey : Signer.fromFile loadPem file = .ok signer) (now : Int) :
    cmdReport py wire network cfg loadPem file now w =
      let ran := runAll py wire network cfg signer (nextNumber w.store) now
        w.store.counters.entries w.db
      (⟨w.store.writeSequence (nextNumber w.store), ran.1⟩,
        match ran.2 with
        | .error e => .raised e
        | .ok lines =>
          .exit (if (lines.countP fun line => !line.delivered) = 0 then 0 else 1) lines) := by
  have hsnapshot := snapshot_load w.store
  have hcheck := checkSequence_nextNumber w.store
  rw [nextNumber] at hcheck
  rw [cmdReport, hkey]
  dsimp only
  rw [hcheck, hsnapshot, nextNumber]
  dsimp only
  split <;> rename_i heq <;> rw [heq]

theorem failures_eq_zero_iff (lines : List ReportLine) :
    (lines.countP fun line => !line.delivered) = 0 ↔ ∀ line ∈ lines, line.delivered = true := by
  rw [List.countP_eq_zero]
  simp

/-- What the command leaves behind, and what its exit code says, with what was made of the key
file. -/
structure Reported (key : Except KeyError (Signer scheme)) (w : World)
    (outcome : World × Ending) : Prop where
  counters : outcome.1.store.counters = w.store.counters
  events : outcome.1.store.events = w.store.events
  tables : Extends (nextNumber w.store) w.store.counters.entries w.db outcome.1.db
  keyless : ∀ e, key = .error e → outcome.1 = w
  keyed : ∀ signer, key = .ok signer →
    outcome.1.store.sequence = some (nextNumber w.store : Int)
  cannot_sign : (∃ lines, outcome.2 = .exit 2 lines) ↔
    key = .error .notFound ∨ key = .error (.raised .valueError)
  escapes : ∀ e ≠ .valueError, key = .error (.raised e) → outcome.2 = .raised e
  lines : ∀ code lines, outcome.2 = .exit code lines → code ≠ 2 →
      (lines.map fun line => (line.deviceId, line.count)) = w.store.counters.entries ∧
      (code = 0 ∨ code = 1) ∧ (code = 0 ↔ ∀ line ∈ lines, line.delivered = true) ∧
      ∀ line ∈ lines, line.delivered = true →
        Accepts outcome.1.db (nextNumber w.store) line.deviceId line.count
  accepted : ∀ lines, outcome.2 = .exit 0 lines → ∀ d n, w.store.counters.get? d = some n →
    Accepts outcome.1.db (nextNumber w.store) d n

/-- Nothing has happened before there is a key. -/
theorem reported_keyless {key : Except KeyError (Signer scheme)} {e : KeyError}
    (hkey : key = .error e) {ending : Ending}
    (hexit : ∀ code lines, ending = .exit code lines → code = 2)
    (htwo : (∃ lines, ending = .exit 2 lines) ↔ e = .notFound ∨ e = .raised .valueError)
    (hraised : ∀ exc ≠ .valueError, e = .raised exc → ending = .raised exc) :
    Reported key w (w, ending) where
  counters := rfl
  events := rfl
  tables := .refl _ _ _
  keyless _ _ := rfl
  keyed signer hok := by
    rw [hkey] at hok
    cases hok
  cannot_sign := by
    rw [htwo, hkey, Except.error.injEq, Except.error.injEq]
  escapes exc hne herror := by
    rw [hkey] at herror
    exact hraised exc hne (Except.error.inj herror)
  lines code lines hending hne := absurd (hexit code lines hending) hne
  accepted lines hending := absurd (hexit 0 lines hending) (by decide)

/-- Without a key the command changes nothing.  It exits with 2 or with the exception that
`from_file` raised. -/
theorem cmdReport_keyless {e : KeyError} (hkey : Signer.fromFile loadPem file = .error e)
    (now : Int) : Reported (Signer.fromFile loadPem file) w
      (cmdReport py wire network cfg loadPem file now w) := by
  have hexit : ∀ code lines, Ending.exit 2 [] = .exit code lines → code = 2 := fun _ _ h =>
    (Ending.exit.inj h).1.symm
  rw [cmdReport, hkey]
  split
  · rename_i heq
    obtain rfl := Except.error.inj heq
    exact reported_keyless rfl hexit (iff_of_true ⟨[], rfl⟩ (.inl rfl)) nofun
  · rename_i heq
    obtain rfl := Except.error.inj heq
    refine reported_keyless rfl hexit (iff_of_true ⟨[], rfl⟩ (.inr rfl)) fun exc hne h => ?_
    exact absurd (KeyError.raised.inj h).symm hne
  · rename_i exc hother heq
    obtain rfl := Except.error.inj heq
    refine reported_keyless rfl nofun (iff_of_false nofun ?_) fun exc' _ h => ?_
    · rintro (h | h)
      · cases h
      · exact hother (KeyError.raised.inj h)
    · rw [KeyError.raised.inj h]
  · rename_i heq
    cases heq

/-- Whatever the network loses, the counts and the log stay as they are, the backend gains at most
one row for each device, and an exit code of 0 means that it has accepted every count. -/
theorem cmdReport_reported (py : Pydantic) (wire : Dict String Value → Dict String Value)
    (network : String → Nat → Attempt) (cfg : GatewayConfig)
    (loadPem : List UInt8 → Except PyException (Option scheme.Secret)) (file : Option (List UInt8))
    (now : Int) (w : World)
    (hcarries : ∀ signer, Signer.fromFile loadPem file = .ok signer →
      ∀ row ∈ w.store.counters.entries,
        Carries py wire signer (cfg.tuple (nextNumber w.store) now row)) :
    Reported (Signer.fromFile loadPem file) w
      (cmdReport py wire network cfg loadPem file now w) := by
  cases hkey : Signer.fromFile loadPem file with
  | error e => exact hkey ▸ cmdReport_keyless hkey now
  | ok signer =>
    rw [cmdReport_eq hkey]
    cases hran : runAll py wire network cfg signer (nextNumber w.store) now
        w.store.counters.entries w.db with
    | mk last result =>
      obtain ⟨hextends, hlines⟩ :=
        runAll_extends w.store.counters.nodup (hcarries signer hkey) hran
      cases result with
      | error e =>
        exact ⟨rfl, rfl, hextends, nofun, fun _ _ => rfl, iff_of_false nofun (by simp), nofun,
          nofun, nofun⟩
      | ok lines =>
        obtain ⟨hrows, hall⟩ := hlines lines rfl
        have hexit : ∀ {code : Nat} {printed : List ReportLine},
            Ending.exit (if (lines.countP fun line => !line.delivered) = 0 then 0 else 1) lines =
              .exit code printed → printed = lines ∧ (code = 0 ∨ code = 1) ∧
                (code = 0 ↔ ∀ line ∈ lines, line.delivered = true) := by
          intro code printed h
          obtain ⟨rfl, rfl⟩ := Ending.exit.inj h
          rw [← failures_eq_zero_iff]
          refine ⟨rfl, ?_, ?_⟩ <;> split <;> simp_all
        refine ⟨rfl, rfl, hextends, nofun, fun _ _ => rfl, ?_, nofun, fun code printed h _ => ?_,
          fun printed h d n hd => ?_⟩
        · refine iff_of_false ?_ (by simp)
          rintro ⟨printed, h⟩
          obtain ⟨-, hcode, -⟩ := hexit h
          omega
        · obtain ⟨rfl, hcode, hiff⟩ := hexit h
          exact ⟨hrows, hcode, hiff, fun line hline => (hall line hline).2⟩
        · obtain ⟨rfl, -, hiff⟩ := hexit h
          have hrow := (Dict.mem_entries_iff _).mpr hd
          rw [← hrows] at hrow
          obtain ⟨line, hline, heq⟩ := List.mem_map.mp hrow
          obtain ⟨rfl, rfl⟩ := Prod.mk.inj heq
          exact (hall line hline).2 (hiff.mp rfl line hline)

/-- The backend is ready for a row of a device that is registered under the gateway's key, when the
store covers its marks. -/
theorem Ready.of_covers (hdb : w.db.Consistent) (hcovers : w.store.Covers signer w.db)
    (hrow : w.store.counters.get? row.1 = some row.2)
    (hrange : (cfg.tuple (nextNumber w.store) now row).InRange)
    (hunderstood : Understood signer py wire (cfg.tuple (nextNumber w.store) now row))
    {device : Device} (hdevice : w.db.devices.get? row.1 = some device)
    (howns : signer.Owns device) :
    Ready py wire cfg signer (nextNumber w.store) now w.db row := by
  have hcarries := hunderstood.carries
  obtain ⟨payload, sig, report, hpayload, hsign, hread, hbytes, hsig, -⟩ := hunderstood
  obtain ⟨hid, hcount, hsequence⟩ := hcarries payload report hpayload hread
  obtain ⟨m, hm, rfl⟩ := sign_eq_ok hsign
  obtain ⟨hmark, hlow⟩ := hcovers row.1 device hdevice howns
  have hnext : w.store.loadSequence < nextNumber w.store :=
    Sender.lt_nextSequence (.ofCounts w.store.loadCounters) w.store.loadSequence
  have hadmits : device.Admits report := by
    rw [Store.count, hrow, Option.getD_some] at hlow
    simp only [GatewayConfig.tuple] at hcount hsequence
    exact ⟨by omega, by omega⟩
  have hdevice' : w.db.devices.get? report.deviceId = some device := by rw [hid]; exact hdevice
  refine ⟨payload, report, hpayload, hread, hid, ⟨device, hdevice', ?_, hadmits⟩, ?_, ?_⟩
  · exact ⟨_, _, m, howns, hsig, hbytes.trans hm, scheme.verify_sign _ _⟩
  · have hcountLt := hrange.count.2
    have hsequenceLt := hrange.sequence.2
    exact ⟨by omega, by omega⟩
  · intro hholds
    have hle := hdb.holds_le hdevice' hholds
    have hlt := hadmits.1
    omega

/-- When all devices are registered under the gateway's key and its store covers their marks, the
command exits with 0 just where the network answers the first attempt that arrives for each. -/
theorem cmdReport_exit_zero_iff (hkey : Signer.fromFile loadPem file = .ok signer)
    (hdb : w.db.Consistent) (hcovers : w.store.Covers signer w.db)
    (hrows : ∀ row ∈ w.store.counters.entries,
      (cfg.tuple (nextNumber w.store) now row).InRange ∧
      Understood signer py wire (cfg.tuple (nextNumber w.store) now row) ∧
      ∃ device, w.db.devices.get? row.1 = some device ∧ signer.Owns device)
    (network : String → Nat → Attempt) :
    (∃ lines, (cmdReport py wire network cfg loadPem file now w).2 = .exit 0 lines) ↔
      ∀ row ∈ w.store.counters.entries,
        Answered (network row.1) cfg.retryMaxAttempts.toNat := by
  have hready : ∀ row ∈ w.store.counters.entries,
      Ready py wire cfg signer (nextNumber w.store) now w.db row := by
    intro row hrow
    obtain ⟨hrange, hunderstood, device, hdevice, howns⟩ := hrows row hrow
    exact .of_covers hdb hcovers ((Dict.mem_entries_iff _).mp hrow) hrange hunderstood hdevice howns
  obtain ⟨lines, hlines, hall⟩ := runAll_delivers_iff w.store.counters.nodup
    (fun row hrow => (hrows row hrow).2.1.carries) hready network
  rw [cmdReport_eq hkey, ← hall]
  dsimp only
  rw [hlines]
  rw [← failures_eq_zero_iff]
  constructor
  · rintro ⟨printed, h⟩
    by_contra hne
    simp [hne] at h
  · intro h
    exact ⟨lines, by simp [h]⟩

/-! ### A run that is answered -/

/-- A store with one unit of the sample device, and the backend where it is registered. -/
def sampleReporting : World :=
  ⟨{ Store.empty with counters := Dict.empty.insert "d" 1 }, sampleWorld.db⟩

/-- The key file of the sample signer. -/
def sampleLoadPem (_ : List UInt8) : Except PyException (Option SignatureScheme.sample.Secret) :=
  .ok (some (0 : UInt8))

theorem sampleLoadPem_key : Signer.fromFile sampleLoadPem (some []) = .ok sampleSigner := rfl

theorem sampleReporting_covered : sampleReporting.store.Covers sampleSigner sampleReporting.db := by
  intro id device hdevice _
  have hmarks : ∀ row ∈ sampleWorld.db.devices.entries, row.2.marks = (-1, 0) := by decide +kernel
  have hmark := hmarks _ ((Dict.mem_entries_iff _).mpr hdevice)
  obtain ⟨hsequence, hcount⟩ := Prod.mk.inj hmark
  rw [hsequence, hcount]
  exact ⟨by decide, Int.natCast_nonneg _⟩

theorem sampleReporting_registered : ∃ device,
    sampleReporting.db.devices.get? "d" = some device ∧ sampleSigner.Owns device := by
  have heval : ((sampleReporting.db.devices.get? "d").any fun device =>
      decide (sampleSigner.Owns device)) = true := by
    decide +kernel
  obtain ⟨device, hdevice, howns⟩ := (Option.any_eq_true _ _).mp heval
  exact ⟨device, hdevice, of_decide_eq_true howns⟩

theorem sampleReporting_inRange {cfg : GatewayConfig} (hinterval : cfg.reportIntervalSec = 300) :
    ∀ row ∈ sampleReporting.store.counters.entries,
      (cfg.tuple (nextNumber sampleReporting.store) 300 row).InRange := by
  have hrange : (⟨"d", 1, 1, 0, 300⟩ : ReportTuple).InRange :=
    ⟨by decide, by decide, by decide, by decide⟩
  intro row hrow
  obtain rfl : row = ("d", 1) := List.mem_singleton.mp hrow
  rw [GatewayConfig.tuple, hinterval]
  exact hrange

theorem cmdReport_reported_sample : ∃ cfg : GatewayConfig,
    Reported (Signer.fromFile sampleLoadPem (some [])) sampleReporting
      (cmdReport Backend.samplePydantic withSignature (fun _ _ => .responseLost .epoch) cfg
        sampleLoadPem (some []) 300 sampleReporting) := by
  obtain ⟨cfg, -, -, -, hinterval⟩ := sampleFiles_loaded "d" (by simp)
  refine ⟨cfg, cmdReport_reported _ _ _ _ _ _ _ _ fun signer _ row hrow => ?_⟩
  have hrange := sampleReporting_inRange hinterval row hrow
  exact (renamed_payload_understood signer Backend.samplePydantic hrange).carries

theorem cmdReport_exit_zero_iff_sample : ∃ (cfg : GatewayConfig) (lines : List ReportLine),
    (cmdReport Backend.samplePydantic withSignature (fun _ _ => .answered .epoch) cfg
      sampleLoadPem (some []) 300 sampleReporting).2 = .exit 0 lines := by
  obtain ⟨cfg, hload, -, -, hinterval⟩ := sampleFiles_loaded "d" (by simp)
  have hreporter := Reporter.reporter_of_defaults hload rfl rfl (forall_of_all (by decide))
  have hattempts : cfg.retryMaxAttempts = 8 := congrArg Reporter.maxAttempts hreporter
  refine ⟨cfg, (cmdReport_exit_zero_iff sampleLoadPem_key
    (Backend.consistent_of_run (Backend.servedAll_run _)) sampleReporting_covered ?_ _).mpr ?_⟩
  · intro row hrow
    have hrange := sampleReporting_inRange hinterval row hrow
    obtain rfl : row = ("d", 1) := List.mem_singleton.mp hrow
    exact ⟨hrange, renamed_payload_understood sampleSigner _ hrange, sampleReporting_registered⟩
  · intro row _
    rw [hattempts]
    exact ⟨.epoch, rfl⟩

end BleUsageMeter.Gateway
