import BleUsageMeter.Kit.Python
import BleUsageMeter.Kit.Signature

/-! `gateway/signer.py`: the bytes that the gateway signs. -/

namespace BleUsageMeter.Gateway

open Kit

def domain : List UInt8 := utf8 "ble-usage-meter/report/v1"

def formatVersion : UInt8 := 1

structure ReportTuple where
  deviceId : String
  count : Int
  sequence : Int
  windowStart : Int
  windowEnd : Int
deriving DecidableEq

/-- A `Q` field of `struct.pack`, big-endian. -/
def packQ (n : Int) : Except PyException (List UInt8) :=
  if 0 ≤ n ∧ n < 256 ^ 8 then .ok (bigEndian 8 n.toNat) else .error .structError

def canonicalBytes (r : ReportTuple) : Except PyException (List UInt8) := do
  let dev := utf8 r.deviceId
  if dev.length > 0xFFFF then throw .valueError
  let count ← packQ r.count
  let sequence ← packQ r.sequence
  let windowStart ← packQ r.windowStart
  let windowEnd ← packQ r.windowEnd
  return domain ++ [formatVersion] ++ bigEndian 2 dev.length ++ dev ++ count ++ sequence ++
    windowStart ++ windowEnd

structure Signer (scheme : SignatureScheme) where
  key : scheme.Secret

namespace Signer

variable {scheme : SignatureScheme} (signer : Signer scheme)

def publicKeyBytes : List UInt8 := scheme.publicKey signer.key

def sign (r : ReportTuple) : Except PyException (List UInt8) :=
  (canonicalBytes r).map (scheme.sign signer.key)

end Signer

theorem packQ_eq_ok_iff {n : Int} {bytes : List UInt8} :
    packQ n = .ok bytes ↔ (0 ≤ n ∧ n < 256 ^ 8) ∧ bytes = bigEndian 8 n.toNat := by
  unfold packQ
  by_cases h : 0 ≤ n ∧ n < 256 ^ 8
  · rw [if_pos h, Except.ok.injEq]
    exact ⟨fun e => ⟨h, e.symm⟩, fun e => e.2.symm⟩
  · rw [if_neg h]
    exact ⟨fun e => (nomatch e), fun e => absurd e.1 h⟩

/-- The tuples that have canonical bytes: every field fits its place. -/
structure ReportTuple.Packable (r : ReportTuple) : Prop where
  deviceId : (utf8 r.deviceId).length < 256 ^ 2
  count : 0 ≤ r.count ∧ r.count < 256 ^ 8
  sequence : 0 ≤ r.sequence ∧ r.sequence < 256 ^ 8
  windowStart : 0 ≤ r.windowStart ∧ r.windowStart < 256 ^ 8
  windowEnd : 0 ≤ r.windowEnd ∧ r.windowEnd < 256 ^ 8

theorem canonicalBytes_ok_iff {r : ReportTuple} {m : List UInt8} :
    canonicalBytes r = .ok m ↔ r.Packable ∧ m = domain ++ [formatVersion] ++
      bigEndian 2 (utf8 r.deviceId).length ++ utf8 r.deviceId ++ bigEndian 8 r.count.toNat ++
      bigEndian 8 r.sequence.toNat ++ bigEndian 8 r.windowStart.toNat ++
      bigEndian 8 r.windowEnd.toNat := by
  unfold canonicalBytes
  by_cases hlong : 0xFFFF < (utf8 r.deviceId).length
  · simp only [gt_iff_lt, hlong, if_true, bind_eq_ok]
    constructor
    · rintro ⟨_, hthrow, -⟩
      cases hthrow
    · rintro ⟨hpackable, -⟩
      have := hpackable.deviceId
      omega
  · simp only [gt_iff_lt, hlong, if_false, bind_eq_ok, packQ_eq_ok_iff, pure, Except.pure,
      Except.ok.injEq]
    constructor
    · rintro ⟨_, ⟨hcount, rfl⟩, _, ⟨hsequence, rfl⟩, _, ⟨hstart, rfl⟩, _, ⟨hend, rfl⟩, hm⟩
      exact ⟨⟨by omega, hcount, hsequence, hstart, hend⟩, hm.symm⟩
    · rintro ⟨⟨-, hcount, hsequence, hstart, hend⟩, hm⟩
      exact ⟨_, ⟨hcount, rfl⟩, _, ⟨hsequence, rfl⟩, _, ⟨hstart, rfl⟩, _, ⟨hend, rfl⟩, hm.symm⟩

theorem sign_isOk_iff {scheme : SignatureScheme} {signer : Signer scheme} {r : ReportTuple} :
    (∃ sig, signer.sign r = .ok sig) ↔ r.Packable := by
  constructor
  · rintro ⟨sig, h⟩
    cases hbytes : canonicalBytes r with
    | error e =>
      rw [Signer.sign, hbytes] at h
      cases h
    | ok bytes => exact (canonicalBytes_ok_iff.mp hbytes).1
  · intro h
    have hbytes := canonicalBytes_ok_iff.mpr ⟨h, rfl⟩
    exact ⟨_, by rw [Signer.sign, hbytes]; rfl⟩

end BleUsageMeter.Gateway
