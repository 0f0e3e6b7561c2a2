import BleUsageMeter.Kit.Base64
import BleUsageMeter.Backend.Encoding
import BleUsageMeter.Backend.Ledger
import BleUsageMeter.Gateway.Signer

/-! `Reporter.build_payload` of `gateway/reporter.py`, and what the backend reads in it.  The two
sides sign and verify the same bytes, but the payload carries the signature under the name `sig`
and the backend requires `signature`: no payload is accepted as it is, and every payload would be
with that one field renamed. -/

namespace BleUsageMeter.Gateway

open Kit
open Backend (Value Pydantic UsageReport)

variable {scheme : SignatureScheme} (signer : Signer scheme) (py : Pydantic)

def buildPayload (r : ReportTuple) : Except PyException (Dict String Value) := do
  let sig ← signer.sign r
  return (((((Dict.empty.insert "device_id" (.str r.deviceId)).insert "count" (.int r.count)).insert
    "sequence" (.int r.sequence)).insert "window_start" (.int r.windowStart)).insert
    "window_end" (.int r.windowEnd)).insert "sig" (.str (Base64.b64encode sig))

/-- The payload, changed by `send` on its way, is accepted as a report that says what `r` says and
has the signature of `r`. -/
def Understood (send : Dict String Value → Dict String Value) (r : ReportTuple) : Prop :=
  ∃ payload sig report, buildPayload signer r = .ok payload ∧ signer.sign r = .ok sig ∧
    UsageReport.validate py (send payload) = .ok (.ok report) ∧
    report.canonicalBytes = canonicalBytes r ∧ Base64.b64decode report.signature = .ok sig ∧
    Backend.checkSignature scheme report (Base64.b64encode signer.publicKeyBytes) = .ok .pass

/-- The tuples that a gateway within its documented limits reports. -/
structure ReportTuple.InRange (r : ReportTuple) : Prop where
  deviceId : 1 ≤ r.deviceId.length ∧ r.deviceId.length ≤ 128
  count : 0 ≤ r.count ∧ r.count < 2 ^ 63
  sequence : 0 ≤ r.sequence ∧ r.sequence < 2 ^ 63
  window : 0 ≤ r.windowStart ∧ r.windowStart ≤ r.windowEnd ∧ r.windowEnd ≤ 20000000000

/-- The payload with its signature also under the name that the backend requires. -/
def withSignature (payload : Dict String Value) : Dict String Value :=
  match payload.get? "sig" with
  | some sig => payload.insert "signature" sig
  | none => payload

variable {signer py} {r : ReportTuple}

/-- The gateway signs the layout that the backend verifies. -/
theorem canonicalBytes_eq_ok_iff {m : List UInt8} :
    canonicalBytes r = .ok m ↔ r.Packable ∧
      m = Backend.canonicalLayout (utf8 r.deviceId) r.count.toNat r.sequence.toNat
        r.windowStart.toNat r.windowEnd.toNat :=
  canonicalBytes_ok_iff

theorem buildPayload_unsigned {payload : Dict String Value}
    (h : buildPayload signer r = .ok payload) : payload.get? "signature" = none := by
  obtain ⟨sig, -, hpayload⟩ := bind_eq_ok.mp h
  obtain rfl := Except.ok.inj hpayload
  simp [Dict.get?_insert]

/-- The backend accepts no payload that the gateway builds. -/
theorem payload_not_understood (signer : Signer scheme) (py : Pydantic) (r : ReportTuple) :
    ¬Understood signer py id r := by
  rintro ⟨payload, sig, report, hpayload, -, hread, -⟩
  exact UsageReport.validate_unsigned (buildPayload_unsigned hpayload) report hread

def sampleSigner : Signer SignatureScheme.sample := ⟨(0 : UInt8)⟩

/-- Already the payload of a first report for an hour is refused. -/
theorem sample_payload_refused :
    ¬∀ r : ReportTuple, r.InRange → Understood sampleSigner Backend.samplePydantic id r := by
  intro h
  obtain ⟨payload, sig, report, hpayload, -, hread, -⟩ := h ⟨"d", 1, 1, 0, 3600⟩
    ⟨by decide, by decide, by decide, by decide⟩
  exact UsageReport.validate_unsigned (buildPayload_unsigned hpayload) report hread

/-! ### The renamed payload -/

/-- Pydantic reads the second `t` as a time whose canonical seconds are `t`. -/
theorem window_read (py : Pydantic) {t : Int} (h0 : 0 ≤ t) (h : t ≤ 20000000000) :
    ∃ d, Backend.parseDatetime py (.int t) = .ok d ∧ d.utcoffset = some 0 ∧
      d.instant = Datetime.epoch.instant + t * 1000000 ∧
      Backend.canonicalUnixSeconds d = .ok t := by
  obtain ⟨d, hd⟩ := Datetime.fromTimestamp_isOk h0 h
  obtain ⟨hseconds, hoffset, hinstant⟩ := Datetime.fromTimestamp_spec hd
  have hepoch : Datetime.epoch.localSeconds = 62135683200 := by decide
  have hmax : (maxOrdinal + 1 : Nat) = 3652060 := rfl
  refine ⟨d, ?_, hoffset, hinstant, ?_⟩
  · simp [Backend.parseDatetime, py.datetimeOfInt_seconds t d (by omega) h hd]
  · rw [Backend.canonicalUnixSeconds_ok (by rw [hoffset, Option.getD_some]; omega)
      (by rw [hoffset, Option.getD_some, hmax]; omega), hinstant, Int.add_comm, Int.add_sub_cancel,
      Datetime.truncSeconds_whole]

/-- With the signature renamed, the backend understands every payload. -/
theorem renamed_payload_understood (signer : Signer scheme) (py : Pydantic) (h : r.InRange) :
    Understood signer py withSignature r := by
  obtain ⟨hwindow0, hle, hlimit⟩ := h.window
  obtain ⟨s, hreadStart, hutcStart, hinstantStart, hsecondsStart⟩ :=
    window_read py hwindow0 (Int.le_trans hle hlimit)
  obtain ⟨e, hreadEnd, hutcEnd, hinstantEnd, hsecondsEnd⟩ :=
    window_read py (Int.le_trans hwindow0 hle) hlimit
  have hlength := utf8_length_le r.deviceId
  have hid := h.deviceId.2
  have hcount := h.count
  have hsequence := h.sequence
  have hbytes := (canonicalBytes_eq_ok_iff (r := r)).mpr
    ⟨⟨by omega, by omega, by omega, by omega, by omega⟩, rfl⟩
  let sig := scheme.sign signer.key (Backend.canonicalLayout (utf8 r.deviceId) r.count.toNat
    r.sequence.toNat r.windowStart.toNat r.windowEnd.toNat)
  have hsign : signer.sign r = .ok sig := by rw [Signer.sign, hbytes]; rfl
  have hordered : e.lt s = .ok false := by
    have hnot : ¬e.instant < s.instant := by omega
    simp only [Datetime.lt, hutcStart, hutcEnd, hnot, decide_false]
  let report : UsageReport :=
    { deviceId := r.deviceId
      count := r.count.toNat
      sequence := r.sequence.toNat
      windowStart := s
      windowEnd := e
      signature := Base64.b64encode sig
      deviceId_length := h.deviceId
      signature_length := Backend.signature_length_pos _ _
      ordered := hordered }
  have hcanonical : report.canonicalBytes = canonicalBytes r := by
    rw [hbytes]
    apply Backend.canonicalMessage_eq_ok_iff.mpr
    refine ⟨?_, ?_, ?_, _, _, .of_eq hsecondsStart hwindow0 (by omega),
      .of_eq hsecondsEnd (by omega) (by omega), rfl⟩
    · show (utf8 r.deviceId).length < _
      omega
    · show r.count.toNat < _
      omega
    · show r.sequence.toNat < _
      omega
  refine ⟨_, sig, report, by rw [buildPayload, hsign]; rfl, hsign, ?_, hcanonical,
    Base64.b64decode_b64encode sig, ?_⟩
  · apply UsageReport.validate_eq_ok <;>
      simp [withSignature, Backend.field, Dict.get?_insert, Backend.parseNat, hcount.1,
        hsequence.1, hreadStart, hreadEnd, report]
  · exact Backend.checkSignature_pass ⟨_, sig, _, Backend.loadPublicKey_publicKey signer.key,
      Base64.b64decode_b64encode sig, hcanonical.trans hbytes, scheme.verify_sign signer.key _⟩

end BleUsageMeter.Gateway
