import BleUsageMeter.Backend.Encoding
import BleUsageMeter.Backend.Ledger

/-! Requests that end in an unhandled exception.  The handlers catch an invalid signature and a
violated constraint; comparing, encoding and binding raise other exceptions, and `answered_iff`
says for which bodies and tables they do. -/

namespace BleUsageMeter.Backend

open Kit

section

variable (scheme : SignatureScheme) (py : Pydantic) (body : Body) (now : Datetime) (db : Db)

/-- `POST /reports` from the body on: the errors of its fields, or the response. -/
def submit : Db × Except PyException (Except (List FieldError) Response) :=
  match UsageReport.validate py body.toDict with
  | .error e => (db, .error e)
  | .ok (.error errors) => (db, .ok (.error errors))
  | .ok (.ok report) =>
    let (db, answer) := postReport scheme report now none db
    (db, answer.map .ok)

/-- The windows are both naive or both aware; a report that the code gets to encode fits in 64 bits
and into the time after 1970; a report that it gets to store fits in SQLite's integers. -/
structure Harmless : Prop where
  comparable : body.windowEnd.utcoffset.isSome = body.windowStart.utcoffset.isSome
  encodable : ∀ report, body.Gives report →
    ∀ device, db.devices.get? report.deviceId = some device →
      (∃ pub, loadPublicKey device.publicKey = .ok pub) →
      (∃ sig, Base64.b64decode report.signature = .ok sig) → report.Encodable
  storable : ∀ report, body.Gives report → db.Admits scheme report → report.Storable

end

variable {scheme : SignatureScheme} {py : Pydantic} {body : Body} {now : Datetime} {db : Db}
  {report other : UsageReport}

theorem Body.Gives.unique (h : body.Gives report) (h' : body.Gives other) : other = report := by
  obtain ⟨⟩ := report
  obtain ⟨⟩ := other
  obtain ⟨rfl, rfl, rfl, rfl, rfl, rfl⟩ := h
  obtain ⟨h1, h2, h3, h4, h5, h6⟩ := h'
  simp only at h1 h2 h3 h4 h5 h6
  subst h1 h2 h3 h4 h5 h6
  rfl

theorem verifyReport_raises_iff : (∃ e, verifyReport scheme db report = .error e) ↔
    ∃ device, db.devices.get? report.deviceId = some device ∧
      (∃ pub, loadPublicKey device.publicKey = .ok pub) ∧
      (∃ sig, Base64.b64decode report.signature = .ok sig) ∧ ¬report.Encodable := by
  rw [← UsageReport.canonicalBytes_ok_iff]
  simp only [verifyReport_error_iff, checkSignature_error_iff]
  constructor
  · rintro ⟨e, device, hdevice, hkey, hsig, hbytes⟩
    exact ⟨device, hdevice, hkey, hsig, fun ⟨m, hm⟩ => nomatch hbytes.symm.trans hm⟩
  · rintro ⟨device, hdevice, hkey, hsig, hbytes⟩
    cases h : report.canonicalBytes with
    | error e => exact ⟨e, device, hdevice, hkey, hsig, rfl⟩
    | ok m => exact absurd ⟨m, h⟩ hbytes

/-- `post_report` raises when the gate does, or when it stores integers that do not fit. -/
theorem postReport_raises_iff :
    (∃ e, (postReport scheme report now none db).2 = .error e) ↔
      (∃ e, verifyReport scheme db report = .error e) ∨
        (db.Admits scheme report ∧ ¬report.Storable) := by
  cases hverify : verifyReport scheme db report with
  | error e =>
    have hscreen : screenReport scheme db report = some (.error e) := by rw [screenReport, hverify]
    simp only [postReport, hscreen]
    exact ⟨fun _ => .inl ⟨e, rfl⟩, fun _ => ⟨e, rfl⟩⟩
  | ok result =>
    cases hok : result.ok with
    | false =>
      have hscreen : screenReport scheme db report =
          some (.ok (rejection result.code result.detail)) := by
        rw [screenReport, hverify]
        simp only [hok, Bool.false_eq_true, if_false]
      have hnot : ¬db.Admits scheme report := by
        rw [← screenReport_none_iff, hscreen]
        intro h
        cases h
      simp only [postReport, hscreen]
      constructor
      · rintro ⟨e, he⟩
        cases he
      · rintro (⟨e, he⟩ | ⟨hadmits, -⟩)
        · cases he
        · exact absurd hadmits hnot
    | true =>
      have hadmits : db.Admits scheme report := verifyReport_ok_iff.mp ⟨result, hverify, hok⟩
      have hscreen := screenReport_none_iff.mpr hadmits
      simp only [postReport, hscreen]
      constructor
      · rintro ⟨e, he⟩
        refine .inr ⟨hadmits, ?_⟩
        intro hstorable
        rcases storeReport_cases report now db with ⟨hover, -⟩ | ⟨-, -, h⟩ | ⟨-, -, _, _, -, -, h⟩
        · exact hover hstorable
        · rw [h] at he; cases he
        · rw [h] at he; cases he
      · rintro (⟨e, he⟩ | ⟨-, hover⟩)
        · cases he
        · rcases storeReport_cases report now db with ⟨-, h⟩ | ⟨hstorable, -⟩ | ⟨hstorable, -⟩
          · exact ⟨_, congrArg Prod.snd h⟩
          · exact absurd hstorable hover
          · exact absurd hstorable hover

variable (scheme py body now db) in
/-- A request is answered exactly when it is harmless; the gate's verdict is right in any case. -/
theorem answered_iff_harmless :
    ((∃ answer, (submit scheme py body now db).2 = .ok answer) ∧
      ∀ report, body.Gives report →
        ((∃ result, verifyReport scheme db report = .ok result ∧ result.ok = true) ↔
          ∃ device, db.devices.get? report.deviceId = some device ∧
            Verifies scheme report device.publicKey ∧
            device.lastAcceptedSequence < report.sequence ∧
            device.lastAcceptedCount ≤ report.count)) ↔
      Harmless scheme body db := by
  have hverdict : ∀ report, body.Gives report →
      ((∃ result, verifyReport scheme db report = .ok result ∧ result.ok = true) ↔
        db.Admits scheme report) := fun _ _ => verifyReport_ok_iff
  refine (and_iff_left hverdict).trans ?_
  cases hlt : body.windowEnd.lt body.windowStart with
  | error e =>
    have hvalidate := Body.validate_raises py body hlt
    constructor
    · rintro ⟨answer, h⟩
      rw [submit, hvalidate] at h
      cases h
    · intro h
      obtain ⟨late, hlate⟩ := Datetime.lt_isOk_iff.mpr h.comparable
      exact nomatch hlt.symm.trans hlate
  | ok late =>
    obtain ⟨result, hvalidate, hgives⟩ := Body.validate_returns py body hlt
    have hcomparable := Datetime.lt_isOk_iff.mp ⟨late, hlt⟩
    cases result with
    | error errors =>
      have hnone : ∀ report, ¬body.Gives report := by
        intro report h
        rw [(Body.validate_eq_ok_iff py body).mpr h] at hvalidate
        cases hvalidate
      refine ⟨fun _ => ⟨hcomparable, fun r h => absurd h (hnone r), fun r h => absurd h (hnone r)⟩,
        fun _ => ⟨.error errors, by rw [submit, hvalidate]⟩⟩
    | ok report =>
      have hgives := hgives report rfl
      have hanswer : (∃ answer, (submit scheme py body now db).2 = .ok answer) ↔
          ¬∃ e, (postReport scheme report now none db).2 = .error e := by
        rw [submit, hvalidate]
        cases h : (postReport scheme report now none db).2 <;> simp [h, Except.map]
      rw [hanswer, postReport_raises_iff, verifyReport_raises_iff]
      constructor
      · intro h
        refine ⟨hcomparable, ?_, ?_⟩
        · intro r hr device hdevice hkey hsig
          obtain rfl := hgives.unique hr
          by_contra hover
          exact h (.inl ⟨device, hdevice, hkey, hsig, hover⟩)
        · intro r hr hadmits
          obtain rfl := hgives.unique hr
          by_contra hover
          exact h (.inr ⟨hadmits, hover⟩)
      · rintro h (⟨device, hdevice, hkey, hsig, hover⟩ | ⟨hadmits, hover⟩)
        · exact hover (h.encodable report hgives device hdevice hkey hsig)
        · exact hover (h.storable report hgives hadmits)

/-- A body for the sample device, from the epoch to `windowEnd`. -/
def sampleBody (count : Nat) (windowEnd : Datetime) (signature : String) : Body :=
  { deviceId := "d", count, sequence := 0, windowStart := .epoch, windowEnd, signature }

def naiveEpoch : Datetime := { Datetime.epoch with utcoffset := none, utcoffset_lt := by simp }

/-- A naive window end after an aware start, a count of 65 bits that nobody signed, and a signed
count of 64 bits. -/
theorem unanswered_bodies :
    let db := servedAll [.registerDevice sampleRegistration .epoch]
    let respond := fun body => (submit SignatureScheme.sample samplePydantic body .epoch db).2
    respond (sampleBody 1 naiveEpoch "AAAA") =
        .error .typeError ∧
      respond (sampleBody (2 ^ 64) .epoch "AAAA") = .error .overflowError ∧
      respond (sampleBody (2 ^ 63) .epoch (sampleReport (2 ^ 63) 0 .epoch).signature) =
        .error .overflowError := by
  decide +kernel

end BleUsageMeter.Backend
