import BleUsageMeter.Backend.Race
import BleUsageMeter.Gateway.Reporter
import BleUsageMeter.Gateway.Reports

/-! The gateway and the backend together.  The network may lose, repeat, delay and reorder signed
reports, and the backend handles each one that arrives in one step.  `Linked` ties the marks of the
backend to the reports that the gateway has signed: a report that arrives in time is never refused
as a replay or a rollback. -/

namespace BleUsageMeter.Gateway

open Kit
open Backend (Db Device UsageReport Response)

/-- The report has the bytes and the signature of the message, under whatever names its fields
travelled. -/
structure Message.CarriedBy (m : Message) (report : UsageReport) : Prop where
  bytes : ∃ bytes, report.canonicalBytes = .ok bytes ∧ canonicalBytes m.tuple = .ok bytes
  signature : Base64.b64decode report.signature = .ok m.signature

structure System where
  sender : Sender
  db : Db
  /-- The reports that have arrived so far. -/
  arrived : List UsageReport

inductive SystemEvent
  | sender (e : SenderEvent)
  | deliver (report : UsageReport) (now : Datetime)

namespace System

variable {scheme : SignatureScheme} (signer : Signer scheme) (matcher : Matcher)
  (reportInterval : Int)

def step (s : System) : SystemEvent → Option System
  | .sender e =>
    (s.sender.step signer matcher reportInterval e).map fun sender => { s with sender }
  | .deliver report now =>
    some { s with
      db := (Backend.postReport scheme report now none s.db).1
      arrived := s.arrived ++ [report] }

/-- A report that arrives and verifies under the key of the gateway is one that it signed. -/
def Unforged (s : System) : SystemEvent → Prop
  | .sender _ => True
  | .deliver report _ => ∀ key, Backend.loadPublicKey key = .ok signer.publicKeyBytes →
      Backend.Verifies scheme report key → ∃ m ∈ s.sender.sent, m.CarriedBy report

/-- The gateway has loaded `store`, and nothing has been signed or has arrived. -/
def start (db : Db) (store : Store) : System := ⟨.start store, db, []⟩

end System

/-- The device is registered under the key of the gateway. -/
def Signer.Owns {scheme : SignatureScheme} (signer : Signer scheme) (device : Device) : Prop :=
  Backend.loadPublicKey device.publicKey = .ok signer.publicKeyBytes

instance {scheme : SignatureScheme} (signer : Signer scheme) : DecidablePred signer.Owns :=
  fun _ => inferInstanceAs (Decidable (_ = _))

/-- The store that `deployment.md` seeds from the backend's record of a device. -/
def Store.seeded (deviceId : String) (usage : Backend.UsageResponse) : Store where
  counters := Dict.empty.insert deviceId usage.totalCount.toNat
  events := []
  sequence := some usage.lastAcceptedSequence

/-- The stores on which a gateway is put into operation.  Nothing has been accepted yet from any
device of the gateway but the one that is seeded. -/
inductive Commissioned {scheme : SignatureScheme} (signer : Signer scheme) (db : Db) : Store → Prop
  | fresh (hfresh : ∀ id device, db.devices.get? id = some device → signer.Owns device →
        device.marks = (-1, 0)) :
      Commissioned signer db .empty
  | seeded (deviceId : String) (usage : Backend.UsageResponse)
      (husage : Backend.getUsage deviceId db = .usage usage)
      (hfresh : ∀ id device, id ≠ deviceId → db.devices.get? id = some device →
        signer.Owns device → device.marks = (-1, 0)) :
      Commissioned signer db (.seeded deviceId usage)

def Stale (code : Backend.Code) : Prop := code = .replay ∨ code = .countRollback

instance : DecidablePred Stale := fun _ => inferInstanceAs (Decidable (_ ∨ _))

/-- The answer refuses a report as a replay or a rollback. -/
def RefusedAsStale : Except PyException Response → Prop
  | .ok (.rejection _ code _) => Stale code
  | _ => False

/-! ### What the store covers -/

/-- The marks of the gateway's devices are covered by the store. -/
def Store.Covers {scheme : SignatureScheme} (store : Store) (signer : Signer scheme) (db : Db) :
    Prop :=
  ∀ id device, db.devices.get? id = some device → signer.Owns device →
    device.lastAcceptedSequence ≤ store.loadSequence ∧
      device.lastAcceptedCount ≤ store.count id

theorem marks_nonneg {db : Db} (hdb : db.Consistent) {id : String} {device : Device}
    (hdevice : db.devices.get? id = some device) :
    -1 ≤ device.lastAcceptedSequence ∧ 0 ≤ device.lastAcceptedCount := by
  have hmarks := hdb.marks hdevice
  have hsequence : device.lastAcceptedSequence = (Backend.marksAfter (db.reportsOf id)).1 :=
    congrArg Prod.fst hmarks
  have hcount : device.lastAcceptedCount = (Backend.marksAfter (db.reportsOf id)).2 :=
    congrArg Prod.snd hmarks
  unfold Backend.marksAfter at hsequence hcount
  split at hsequence
  · simp_all
  · rename_i row hrow
    rw [hrow] at hcount
    have := hdb.natural row (List.mem_filter.mp (List.mem_of_getLast? hrow)).1
    dsimp only at hsequence hcount
    omega

theorem sequence_le_of_rows {db : Db} (hdb : db.Consistent) {id : String} {device : Device}
    (hdevice : db.devices.get? id = some device) {bound : Nat}
    (hrows : ∀ row ∈ db.reportsOf id, row.sequence ≤ bound) :
    device.lastAcceptedSequence ≤ bound := by
  have hsequence : device.lastAcceptedSequence = (Backend.marksAfter (db.reportsOf id)).1 :=
    congrArg Prod.fst (hdb.marks hdevice)
  unfold Backend.marksAfter at hsequence
  split at hsequence
  · dsimp only at hsequence
    omega
  · rename_i row hrow
    rw [hsequence]
    exact hrows row (List.mem_of_getLast? hrow)

theorem usage_marks {db : Db} {deviceId : String} {usage : Backend.UsageResponse}
    (h : Backend.getUsage deviceId db = .usage usage) :
    ∃ device, db.devices.get? deviceId = some device ∧
      usage.totalCount = device.lastAcceptedCount ∧
      usage.lastAcceptedSequence = device.lastAcceptedSequence := by
  unfold Backend.getUsage at h
  split at h
  · cases h
  · rename_i device hdevice
    obtain rfl := Response.usage.inj h
    exact ⟨device, hdevice, rfl, rfl⟩

theorem Commissioned.covers {scheme : SignatureScheme} {signer : Signer scheme} {db : Db}
    {store : Store} (h : Commissioned signer db store) (hdb : db.Consistent) :
    store.Covers signer db := by
  intro id device hdevice howns
  cases h with
  | fresh hfresh =>
    obtain ⟨hsequence, hcount⟩ := Prod.mk.inj (hfresh id device hdevice howns)
    rw [hsequence, hcount]
    exact ⟨by decide, Int.natCast_nonneg _⟩
  | seeded deviceId usage husage hfresh =>
    obtain ⟨source, hsource, htotal, hlast⟩ := usage_marks husage
    have hload : (Store.seeded deviceId usage).loadSequence = source.lastAcceptedSequence := hlast
    obtain ⟨hsequence0, hcount0⟩ := marks_nonneg hdb hsource
    rw [hload]
    by_cases hid : id = deviceId
    · subst hid
      obtain rfl := Option.some.inj (hsource.symm.trans hdevice)
      refine ⟨Int.le_refl _, ?_⟩
      simp only [Store.count, Store.seeded, Dict.get?_insert_self, Option.getD_some, htotal]
      omega
    · obtain ⟨hsequence, hcount⟩ := Prod.mk.inj (hfresh id device hid hdevice howns)
      rw [hsequence, hcount]
      exact ⟨hsequence0, Int.natCast_nonneg _⟩

/-! ### Reports and messages -/

theorem Message.CarriedBy.fields {m : Message} {report : UsageReport} (h : m.CarriedBy report) :
    m.tuple.deviceId = report.deviceId ∧ m.tuple.count = report.count ∧
      m.tuple.sequence = report.sequence := by
  obtain ⟨⟨bytes, hreport, htuple⟩, -⟩ := h
  obtain ⟨-, hc, hq, s, e, hs, he, rfl⟩ := Backend.canonicalMessage_eq_ok_iff.mp hreport
  obtain ⟨⟨-, hc', hq', hs', he'⟩, hbytes⟩ := canonicalBytes_eq_ok_iff.mp htuple
  have hslt := hs.lt
  have helt := he.lt
  obtain ⟨hdevice, hcount, hsequence, -, -⟩ := Backend.canonicalLayout_injective hc
    (by omega) hq (by omega) hslt (by omega) helt (by omega) hbytes
  exact ⟨(utf8_injective hdevice).symm, by omega, by omega⟩

section Stale

variable {scheme : SignatureScheme} {db : Db} {report : UsageReport} {device : Device}

theorem checkSignature_not_stale {key : String} {result : Backend.VerifyResult}
    (h : Backend.checkSignature scheme report key = .ok result) : ¬Stale result.code := by
  have hcode : ∀ code ∈ [Backend.Code.ok, .badRegisteredKey, .badSignatureEncoding, .badSignature],
      ¬Stale code := by decide
  exact hcode _ (Backend.checkSignature_code h)

/-- A report that its device admits is not refused by the gate as stale. -/
theorem verifyReport_not_stale (hdevice : db.devices.get? report.deviceId = some device)
    (hadmits : device.Admits report) {result : Backend.VerifyResult}
    (h : Backend.verifyReport scheme db report = .ok result) : ¬Stale result.code := by
  have hsequence : Backend.checkSequence report device.lastAcceptedSequence = .pass :=
    if_neg (by have := hadmits.1; omega)
  have hcount : Backend.checkCountMonotonic report device.lastAcceptedCount = .pass :=
    if_neg (by have := hadmits.2; omega)
  simp only [Backend.verifyReport, Backend.fetchDevice, hdevice] at h
  obtain ⟨sig, hsig, hresult⟩ := bind_eq_ok.mp h
  rw [hsequence, hcount] at hresult
  split at hresult
  · obtain rfl := Except.ok.inj hresult
    exact checkSignature_not_stale hsig
  · obtain rfl := Except.ok.inj hresult
    decide

theorem screenReport_not_stale (hdevice : db.devices.get? report.deviceId = some device)
    (hadmits : device.Admits report) {answer : Except PyException Response}
    (h : Backend.screenReport scheme db report = some answer) : ¬RefusedAsStale answer := by
  unfold Backend.screenReport at h
  split at h
  · obtain rfl := Option.some.inj h
    exact id
  · rename_i result hresult
    split at h
    · cases h
    · obtain rfl := Option.some.inj h
      exact verifyReport_not_stale hdevice hadmits hresult

/-- A new report that its device admits is never refused as stale. -/
theorem postReport_not_stale (hdb : db.Consistent)
    (hdevice : db.devices.get? report.deviceId = some device) (hadmits : device.Admits report)
    (now : Datetime) : ¬RefusedAsStale (Backend.postReport scheme report now none db).2 := by
  unfold Backend.postReport
  cases hscreen : Backend.screenReport scheme db report with
  | some answer => exact screenReport_not_stale hdevice hadmits hscreen
  | none =>
    rcases Backend.storeReport_cases report now db with
      ⟨-, h⟩ | ⟨-, hholds | hnone, h⟩ | ⟨-, -, _, after, -, -, h⟩
    · rw [h]
      exact id
    · have := hdb.holds_le hdevice hholds
      have := hadmits.1
      omega
    · exact absurd (hdevice.symm.trans hnone) (by simp)
    · rw [h]
      exact id

end Stale

/-! ### Marks and messages -/

theorem Sender.step_sent {scheme : SignatureScheme} {signer : Signer scheme} {matcher : Matcher}
    {reportInterval : Int} {s u : Sender} {e : SenderEvent}
    (h : s.step signer matcher reportInterval e = some u) : ∀ m ∈ s.sent, m ∈ u.sent := by
  intro m hm
  rcases step_cases h with ⟨_, _, -, -, rfl⟩ | ⟨-, -, rfl⟩ | ⟨_, _, -, -, rfl⟩ |
    ⟨_, _, -, -, rfl⟩ | ⟨_, _, _, -, -, rfl⟩ | ⟨-, rfl⟩
  all_goals first | exact hm | exact List.mem_append_left _ hm

namespace System

variable {scheme : SignatureScheme} {signer : Signer scheme} {matcher : Matcher}
  {reportInterval : Int} {db : Db} {store : Store} {s u : System}

/-- The marks are those of a report that was signed and has arrived. -/
def Accepted (s : System) (id : String) (device : Device) : Prop :=
  ∃ m ∈ s.sender.sent, m.tuple.deviceId = id ∧
    device.marks = (m.tuple.sequence, (m.origin.count id : Int)) ∧
    ∃ report ∈ s.arrived, m.CarriedBy report

variable (signer) in
/-- Every device of the gateway has the marks it started with or those of an accepted report. -/
structure Linked (db : Db) (store : Store) (s : System) : Prop where
  orderly : s.sender.Orderly store
  consistent : s.db.Consistent
  marks : ∀ {id device}, s.db.devices.get? id = some device → signer.Owns device →
    (∃ first, db.devices.get? id = some first ∧ signer.Owns first ∧
      device.marks = first.marks) ∨ s.Accepted id device

theorem start_linked (hdb : db.Consistent) (store : Store) :
    (start db store).Linked signer db store :=
  ⟨Sender.start_orderly store, hdb, fun h howns => .inl ⟨_, h, howns, rfl⟩⟩

theorem Accepted.grow {id : String} {device : Device} (h : s.Accepted id device)
    (hsent : ∀ m ∈ s.sender.sent, m ∈ u.sender.sent) (harrived : ∀ r ∈ s.arrived, r ∈ u.arrived) :
    u.Accepted id device := by
  obtain ⟨m, hm, hid, hmarks, report, hreport, hcarried⟩ := h
  exact ⟨m, hsent m hm, hid, hmarks, report, harrived report hreport, hcarried⟩

theorem Linked.deliver (h : s.Linked signer db store) {report : UsageReport} {now : Datetime}
    (hok : Unforged signer s (.deliver report now)) :
    Linked signer db store { s with
      db := (Backend.postReport scheme report now none s.db).1
      arrived := s.arrived ++ [report] } := by
  have hgrow : ∀ r ∈ s.arrived, r ∈ s.arrived ++ [report] := fun r => List.mem_append_left _
  rcases Backend.postReport_cases scheme report now none s.db with
    ⟨answer, hpost, -⟩ | ⟨⟨device, hdevice, hverifies, hadmits⟩, -, -, after, happends, hpost⟩
  · rw [hpost]
    exact ⟨h.orderly, h.consistent, fun hget howns => (h.marks hget howns).imp_right fun ha =>
      ha.grow (fun _ hm => hm) hgrow⟩
  · rw [hpost]
    refine ⟨h.orderly, h.consistent.append hdevice hadmits happends, ?_⟩
    intro id current hget howns
    rw [happends.devices] at hget
    split at hget
    · rename_i hid
      subst hid
      rw [hdevice] at hget
      obtain rfl := Option.some.inj hget
      obtain ⟨m, hm, hcarried⟩ := hok device.publicKey howns hverifies
      obtain ⟨hid, hcount, hsequence⟩ := hcarried.fields
      refine .inr ⟨m, hm, hid, ?_, report, by simp, hcarried⟩
      rw [← hid, ← (h.orderly.sent m hm).count, hcount, hsequence]
      rfl
    · exact (h.marks hget howns).imp_right fun ha => ha.grow (fun _ hm => hm) hgrow

theorem Linked.step (h : s.Linked signer db store) {e : SystemEvent} (hok : Unforged signer s e)
    (hstep : s.step signer matcher reportInterval e = some u) : u.Linked signer db store := by
  cases e with
  | sender e =>
    obtain ⟨sender, hsender, rfl⟩ := Option.map_eq_some_iff.mp hstep
    refine ⟨h.orderly.step hsender, h.consistent, ?_⟩
    intro id device hget howns
    exact (h.marks hget howns).imp_right fun ha =>
      ha.grow (Sender.step_sent hsender) fun _ hr => hr
  | deliver report now =>
    obtain rfl := Option.some.inj hstep
    exact h.deliver hok

theorem linked_of_run (hdb : db.Consistent) {events : List SystemEvent}
    (h : Run (step signer matcher reportInterval) (Unforged signer) (start db store) events s) :
    s.Linked signer db store :=
  h.preserves (start_linked hdb store) fun _ _ _ ht hok hstep => ht.step hok hstep

/-- No accepted count is above the persisted one. -/
theorem Linked.count_le (h : s.Linked signer db store) (hcovers : store.Covers signer db)
    {id : String} {device : Device} (hget : s.db.devices.get? id = some device)
    (howns : signer.Owns device) : device.lastAcceptedCount ≤ s.sender.meter.store.count id := by
  rcases h.marks hget howns with ⟨first, hfirst, hfirstOwns, hmarks⟩ | ⟨m, hm, -, hmarks, -⟩
  · have hcount : device.lastAcceptedCount = first.lastAcceptedCount := congrArg Prod.snd hmarks
    rw [hcount]
    exact Int.le_trans (hcovers id first hfirst hfirstOwns).2
      (Int.ofNat_le.mpr (h.orderly.counts id))
  · have hcount : device.lastAcceptedCount = m.origin.count id := congrArg Prod.snd hmarks
    rw [hcount]
    exact Int.ofNat_le.mpr ((h.orderly.sent m hm).before_store id)

/-- A device admits a message that arrives for the first time and before any later one has been
accepted. -/
theorem Linked.admits (h : s.Linked signer db store) (hcovers : store.Covers signer db)
    {m : Message} (hm : m ∈ s.sender.sent) {report : UsageReport} (hcarried : m.CarriedBy report)
    (hfirst : ∀ other ∈ s.arrived, ¬m.CarriedBy other)
    (hlatest : ∀ row ∈ s.db.reportsOf report.deviceId, row.sequence ≤ report.sequence)
    {device : Device} (hget : s.db.devices.get? report.deviceId = some device)
    (howns : signer.Owns device) : device.Admits report := by
  obtain ⟨hid, hcount, hsequence⟩ := hcarried.fields
  have hbetween := h.orderly.sent m hm
  rcases h.marks hget howns with
    ⟨first, hstart, hstartOwns, hmarks⟩ | ⟨n, hn, hdevice, hmarks, other, hother, hcopy⟩
  · obtain ⟨hseq, hcnt⟩ := Prod.mk.inj hmarks
    obtain ⟨hseqCovered, hcntCovered⟩ := hcovers _ first hstart hstartOwns
    have hgt := hbetween.sequence_gt
    have hgrown : (store.count report.deviceId : Int) ≤ m.tuple.count := by
      rw [hbetween.count, hid]
      exact Int.ofNat_le.mpr (hbetween.after_start _)
    exact ⟨by omega, by omega⟩
  · obtain ⟨hseq, hcnt⟩ := Prod.mk.inj hmarks
    have hsame : n.tuple.deviceId = m.tuple.deviceId := hdevice.trans hid.symm
    have hle := sequence_le_of_rows h.consistent hget hlatest
    have hne : n.tuple.sequence ≠ m.tuple.sequence := fun e =>
      hfirst other hother (h.orderly.eq_of_sequence hn hm hsame e ▸ hcopy)
    have hcounts := h.orderly.count_le hn hm hsame (by omega)
    have hread : n.tuple.count = n.origin.count report.deviceId := by
      rw [(h.orderly.sent n hn).count, hdevice]
    exact ⟨by omega, by omega⟩

theorem step_marksLe {e : SystemEvent}
    (hstep : s.step signer matcher reportInterval e = some u) : s.db.MarksLe u.db := by
  cases e with
  | sender e =>
    obtain ⟨sender, -, rfl⟩ := Option.map_eq_some_iff.mp hstep
    exact .refl _
  | deliver report now =>
    obtain rfl := Option.some.inj hstep
    rcases Backend.postReport_cases scheme report now none s.db with
      ⟨answer, hpost, -⟩ | ⟨⟨device, hdevice, -, hadmits⟩, -, -, after, happends, hpost⟩
    · rw [hpost]
      exact .refl _
    · rw [hpost]
      exact .of_append hdevice hadmits happends

variable (signer matcher reportInterval) in
/-- What holds of the backend's marks, with `db` the tables at the start. -/
structure Honest (db : Db) (s : System) : Prop where
  marks_kept : ∀ events u, Run (step signer matcher reportInterval) (Unforged signer) s events u →
    s.db.MarksLe u.db
  count_le : ∀ id device, s.db.devices.get? id = some device → signer.Owns device →
    device.lastAcceptedCount ≤ s.sender.meter.store.count id
  count_read : ∀ id device, s.db.devices.get? id = some device → signer.Owns device →
    (∃ first, db.devices.get? id = some first ∧ device.marks = first.marks) ∨
      s.Accepted id device
  in_time : ∀ m ∈ s.sender.sent, ∀ report, m.CarriedBy report →
    (∀ other ∈ s.arrived, ¬m.CarriedBy other) →
    (∀ row ∈ s.db.reportsOf report.deviceId, row.sequence ≤ report.sequence) →
    ∀ device, s.db.devices.get? report.deviceId = some device → signer.Owns device →
      (Backend.checkSequence report device.lastAcceptedSequence).ok = true ∧
      (Backend.checkCountMonotonic report device.lastAcceptedCount).ok = true ∧
      ∀ now, ¬RefusedAsStale (Backend.postReport scheme report now none s.db).2

variable (signer matcher reportInterval) in
/-- A gateway that is put into operation on a fresh or a seeded store is never wedged, whatever
crashes and whatever the network loses, repeats or reorders. -/
theorem honest_of_run (hdb : db.Consistent) (hstart : Commissioned signer db store)
    {events : List SystemEvent}
    (h : Run (step signer matcher reportInterval) (Unforged signer) (start db store) events s) :
    s.Honest signer matcher reportInterval db := by
  have hcovers := hstart.covers hdb
  have hlinked := linked_of_run hdb h
  refine ⟨?_, fun _ _ hget howns => hlinked.count_le hcovers hget howns, ?_, ?_⟩
  · intro _ _ hrun
    exact hrun.relates (fun _ => True) (fun s u => s.db.MarksLe u.db) trivial (fun _ => .refl _)
      (fun _ _ _ => .trans) fun _ _ _ _ _ hstep => ⟨trivial, step_marksLe hstep⟩
  · intro id device hget howns
    rcases hlinked.marks hget howns with ⟨first, hfirst, -, hmarks⟩ | haccepted
    · exact .inl ⟨first, hfirst, hmarks⟩
    · exact .inr haccepted
  · intro m hm report hcarried hfirst hlatest device hget howns
    have hadmits := hlinked.admits hcovers hm hcarried hfirst hlatest hget howns
    exact ⟨Backend.checkSequence_ok.mpr hadmits.1, Backend.checkCountMonotonic_ok.mpr hadmits.2,
      fun now => postReport_not_stale hlinked.consistent hget hadmits now⟩

/-! ### A first delivery -/

/-- The gateway counts a unit of the sample device and signs a report of it. -/
def sampleEvents : List SystemEvent :=
  [.sender (.pipeline (.handle Meter.sampleWrite)), .sender (.pipeline .increment),
    .sender (.pipeline .saveCounter), .sender .loadCounters, .sender .loadSequence,
    .sender .checkSequence, .sender (.writeSequence 0)]

theorem registered_fresh (id : String) (device : Device)
    (h : Backend.registered.devices.get? id = some device) : device.marks = (-1, 0) := by
  have heval : ∀ entry ∈ Backend.registered.devices.entries, entry.2.marks = (-1, 0) := by
    decide +kernel
  exact heval (id, device) ((Dict.mem_entries_iff _).mpr h)

theorem honest_of_run_sample :
    ∃ (s : System) (device : Device), s.db.devices.get? "d" = some device ∧
      sampleSigner.Owns device ∧ device.marks = (1, 1) ∧
      s.Honest sampleSigner (.ofRules [Meter.sampleRule]) 0 Backend.registered := by
  have heval : ((Run.execute (step sampleSigner (.ofRules [Meter.sampleRule]) 0)
      (start Backend.registered .empty) sampleEvents).any fun s => s.sender.sent.any fun m =>
        decide ((canonicalBytes m.tuple).toOption.isSome) &&
        decide ((Backend.sampleReport 1 1 .epoch).canonicalBytes = canonicalBytes m.tuple) &&
        decide (Base64.b64decode (Backend.sampleReport 1 1 .epoch).signature = .ok m.signature) &&
        ((Backend.postReport SignatureScheme.sample (Backend.sampleReport 1 1 .epoch)
          .epoch none s.db).1.devices.get? "d").any fun device =>
            decide (sampleSigner.Owns device) && decide (device.marks = (1, 1))) = true := by
    decide +kernel
  obtain ⟨s, hrun, hs⟩ := (Option.any_eq_true _ _).mp heval
  obtain ⟨m, hm, hcarried⟩ := List.any_eq_true.mp hs
  simp only [Bool.and_eq_true, decide_eq_true_eq] at hcarried
  obtain ⟨⟨⟨hbytes, hsame⟩, hsignature⟩, hmarked⟩ := hcarried
  obtain ⟨device, hdevice, hmarked⟩ := (Option.any_eq_true _ _).mp hmarked
  simp only [Bool.and_eq_true, decide_eq_true_eq] at hmarked
  obtain ⟨howns, hmarks⟩ := hmarked
  have hcarried : m.CarriedBy (Backend.sampleReport 1 1 .epoch) := by
    cases htuple : canonicalBytes m.tuple with
    | error e => simp [htuple, Except.toOption] at hbytes
    | ok bytes => exact ⟨⟨bytes, hsame.trans htuple, htuple⟩, hsignature⟩
  have hsent : Run (step sampleSigner (.ofRules [Meter.sampleRule]) 0)
      (Unforged sampleSigner) (start Backend.registered .empty) sampleEvents s :=
    Run.of_execute_allowed (fun u e he => by
      simp only [sampleEvents, List.mem_cons, List.not_mem_nil, or_false] at he
      rcases he with rfl | rfl | rfl | rfl | rfl | rfl | rfl <;> trivial) hrun
  have hdeliver : Unforged sampleSigner s (.deliver (Backend.sampleReport 1 1 .epoch) .epoch) :=
    fun _ _ _ => ⟨m, hm, hcarried⟩
  have hstart : Commissioned sampleSigner Backend.registered .empty :=
    .fresh fun id device h _ => registered_fresh id device h
  exact ⟨_, device, hdevice, howns, hmarks, honest_of_run sampleSigner _ 0
    Backend.registered_consistent hstart (hsent.snoc hdeliver rfl)⟩

end System

end BleUsageMeter.Gateway
