import BleUsageMeter.Kit.Base64
import BleUsageMeter.Kit.Signature
import BleUsageMeter.Backend.Models
import BleUsageMeter.Backend.Db

/-! `backend/verify.py`: the gate that a report passes before it is stored.  It authenticates the
report first and then judges its freshness against the device's marks. -/

namespace BleUsageMeter.Backend

open Kit

/-- The codes of results and rejections. -/
inductive Code
  | ok
  | unknownDevice
  | badSignature
  | badSignatureEncoding
  | badRegisteredKey
  | replay
  | countRollback
  | badPublicKey
  | deviceExists
deriving DecidableEq

structure VerifyResult where
  ok : Bool
  code : Code := .ok
  detail : String := ""
deriving DecidableEq

namespace VerifyResult

def pass : VerifyResult := { ok := true }

def fail (code : Code) (detail : String) : VerifyResult := { ok := false, code, detail }

@[simp] theorem pass_ok : pass.ok = true := rfl

@[simp] theorem fail_ok (code : Code) (detail : String) : (fail code detail).ok = false := rfl

end VerifyResult

/-- The raw bytes of a registered key, or the text of the exception. -/
def loadPublicKey (b64Key : String) : Except String (List UInt8) := do
  let raw ← Base64.b64decode b64Key
  if raw.length ≠ 32 then throw "Ed25519 public key must decode to 32 bytes"
  return raw

variable (scheme : SignatureScheme)

def checkSignature (report : UsageReport) (publicKey : String) :
    Except PyException VerifyResult :=
  match loadPublicKey publicKey with
  | .error exc => .ok (.fail .badRegisteredKey ("stored key unusable: " ++ exc))
  | .ok pub =>
    match Base64.b64decode report.signature with
    | .error _ => .ok (.fail .badSignatureEncoding "signature is not valid base64")
    | .ok sig => do
      let message ← report.canonicalBytes
      if scheme.verify pub message sig then return .pass
      return .fail .badSignature "signature does not match the registered key"

def checkSequence (report : UsageReport) (lastAcceptedSequence : Int) : VerifyResult :=
  if report.sequence ≤ lastAcceptedSequence then
    .fail .replay ("sequence " ++ toString report.sequence ++ " <= last accepted " ++
      toString lastAcceptedSequence)
  else .pass

def checkCountMonotonic (report : UsageReport) (lastAcceptedCount : Int) : VerifyResult :=
  if report.count < lastAcceptedCount then
    .fail .countRollback ("count " ++ toString report.count ++ " below last accepted " ++
      toString lastAcceptedCount)
  else .pass

def fetchDevice (db : Db) (deviceId : String) : Option Device := db.devices.get? deviceId

def verifyReport (db : Db) (report : UsageReport) : Except PyException VerifyResult :=
  match fetchDevice db report.deviceId with
  | none => .ok (.fail .unknownDevice "device is not registered")
  | some device => do
    let sig ← checkSignature scheme report device.publicKey
    if !sig.ok then return sig
    let seq := checkSequence report device.lastAcceptedSequence
    if !seq.ok then return seq
    return checkCountMonotonic report device.lastAcceptedCount

/-- The report's signature verifies under a registered key. -/
def Verifies (report : UsageReport) (publicKey : String) : Prop :=
  ∃ pub sig message, loadPublicKey publicKey = .ok pub ∧
    Base64.b64decode report.signature = .ok sig ∧ report.canonicalBytes = .ok message ∧
    scheme.verify pub message sig = true

/-- The report is newer than the device's marks and does not lower its count. -/
def Device.Admits (device : Device) (report : UsageReport) : Prop :=
  device.lastAcceptedSequence < report.sequence ∧ device.lastAcceptedCount ≤ report.count

instance (device : Device) (report : UsageReport) : Decidable (device.Admits report) :=
  inferInstanceAs (Decidable (_ ∧ _))

/-- What `verify_report` asks of a report, in terms of the tables. -/
def Db.Admits (db : Db) (report : UsageReport) : Prop :=
  ∃ device, db.devices.get? report.deviceId = some device ∧
    Verifies scheme report device.publicKey ∧ device.Admits report

theorem checkSequence_ok {report : UsageReport} {last : Int} :
    (checkSequence report last).ok = true ↔ last < report.sequence := by
  unfold checkSequence
  split <;> simp <;> omega

theorem checkCountMonotonic_ok {report : UsageReport} {last : Int} :
    (checkCountMonotonic report last).ok = true ↔ last ≤ report.count := by
  unfold checkCountMonotonic
  split <;> simp <;> omega

variable {scheme} {db : Db} {report : UsageReport} {key : String}

theorem checkSignature_ok_iff :
    (∃ result, checkSignature scheme report key = .ok result ∧ result.ok = true) ↔
      Verifies scheme report key := by
  unfold checkSignature Verifies
  cases hkey : loadPublicKey key with
  | error exc => simp
  | ok pub =>
    cases hsig : Base64.b64decode report.signature with
    | error exc => simp
    | ok sig =>
      cases hmessage : report.canonicalBytes with
      | error e => simp [bind, Except.bind]
      | ok message =>
        by_cases hverify : scheme.verify pub message sig = true <;>
          simp [bind, Except.bind, pure, Except.pure, hverify]

theorem checkSignature_pass (h : Verifies scheme report key) :
    checkSignature scheme report key = .ok .pass := by
  obtain ⟨pub, sig, message, hpub, hsig, hmessage, hverify⟩ := h
  simp [checkSignature, hpub, hsig, hmessage, hverify, bind, Except.bind, pure, Except.pure]

/-- Authentication raises only when the report has no canonical bytes. -/
theorem checkSignature_error_iff {e : PyException} :
    checkSignature scheme report key = .error e ↔
      (∃ pub, loadPublicKey key = .ok pub) ∧
        (∃ sig, Base64.b64decode report.signature = .ok sig) ∧
        report.canonicalBytes = .error e := by
  unfold checkSignature
  cases hkey : loadPublicKey key with
  | error exc => simp
  | ok pub =>
    cases hsig : Base64.b64decode report.signature with
    | error exc => simp
    | ok sig =>
      cases hmessage : report.canonicalBytes with
      | error e' => simp [bind, Except.bind]
      | ok message =>
        by_cases hverify : scheme.verify pub message sig = true <;>
          simp [bind, Except.bind, pure, Except.pure, hverify]

theorem verifyReport_ok_iff :
    (∃ result, verifyReport scheme db report = .ok result ∧ result.ok = true) ↔
      db.Admits scheme report := by
  unfold verifyReport fetchDevice Db.Admits Device.Admits
  cases hdevice : db.devices.get? report.deviceId with
  | none => simp
  | some device =>
    simp only [Option.some.injEq, exists_eq_left', ← checkSignature_ok_iff]
    cases hsig : checkSignature scheme report device.publicKey with
    | error e => simp [bind, Except.bind]
    | ok sig =>
      rw [← checkSequence_ok, ← checkCountMonotonic_ok]
      cases hok : sig.ok <;> cases hseq : (checkSequence report device.lastAcceptedSequence).ok <;>
        simp [bind, Except.bind, pure, Except.pure, hok, hseq]

theorem verifyReport_error_iff {e : PyException} :
    verifyReport scheme db report = .error e ↔
      ∃ device, db.devices.get? report.deviceId = some device ∧
        checkSignature scheme report device.publicKey = .error e := by
  unfold verifyReport fetchDevice
  cases hdevice : db.devices.get? report.deviceId with
  | none => simp
  | some device =>
    simp only [Option.some.injEq, exists_eq_left']
    cases hsig : checkSignature scheme report device.publicKey with
    | error e => simp [bind, Except.bind]
    | ok sig =>
      simp only [bind, Except.bind, pure, Except.pure]
      split <;> try split
      all_goals simp

/-- The codes of authentication. -/
theorem checkSignature_code {result : VerifyResult}
    (h : checkSignature scheme report key = .ok result) :
    result.code ∈ [Code.ok, .badRegisteredKey, .badSignatureEncoding, .badSignature] := by
  unfold checkSignature at h
  split at h
  · obtain rfl := Except.ok.inj h
    simp [VerifyResult.fail]
  · split at h
    · obtain rfl := Except.ok.inj h
      simp [VerifyResult.fail]
    · obtain ⟨message, -, hresult⟩ := bind_eq_ok.mp h
      split at hresult <;> obtain rfl := Except.ok.inj hresult <;>
        simp [VerifyResult.fail, VerifyResult.pass]

/-- A report for a registered device is not refused as one for an unknown device. -/
theorem verifyReport_known (hdevice : (db.devices.get? report.deviceId).isSome)
    {result : VerifyResult} (h : verifyReport scheme db report = .ok result) :
    result.code ≠ .unknownDevice := by
  obtain ⟨device, hdevice⟩ := Option.isSome_iff_exists.mp hdevice
  simp only [verifyReport, fetchDevice, hdevice] at h
  obtain ⟨sig, hsig, hresult⟩ := bind_eq_ok.mp h
  split at hresult
  · obtain rfl := Except.ok.inj hresult
    have := checkSignature_code hsig
    intro hunknown
    simp [hunknown] at this
  · split at hresult <;> obtain rfl := Except.ok.inj hresult
    · unfold checkSequence
      split <;> simp [VerifyResult.fail, VerifyResult.pass]
    · unfold checkCountMonotonic
      split <;> simp [VerifyResult.fail, VerifyResult.pass]

/-! ### Signed reports -/

theorem signature_length_pos (secret : scheme.Secret) (message : List UInt8) :
    1 ≤ (Base64.b64encode (scheme.sign secret message)).length := by
  have hne : scheme.sign secret message ≠ [] := by
    intro e
    have := scheme.sign_length secret message
    simp [e] at this
  have := Base64.b64encode_ne_empty hne
  rw [Nat.one_le_iff_ne_zero, ne_eq, String.length_eq_zero_iff]
  exact this

variable (scheme) in
/-- `draft` with the signature of its canonical bytes. -/
def UsageReport.signed (secret : scheme.Secret) (draft : UsageReport) : UsageReport :=
  { draft with
    signature := Base64.b64encode
      (scheme.sign secret (draft.canonicalBytes.toOption.getD []))
    signature_length := signature_length_pos secret _ }

theorem loadPublicKey_publicKey (secret : scheme.Secret) :
    loadPublicKey (Base64.b64encode (scheme.publicKey secret)) = .ok (scheme.publicKey secret) := by
  simp [loadPublicKey, Base64.b64decode_b64encode, bind, Except.bind, scheme.publicKey_length,
    pure, Except.pure]

end BleUsageMeter.Backend
