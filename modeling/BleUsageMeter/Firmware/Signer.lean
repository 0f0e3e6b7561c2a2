import Mathlib.Data.UInt
import BleUsageMeter.Kit.Python
import BleUsageMeter.Kit.Signature
import BleUsageMeter.Kit.Wire

/-! `firmware/esp32/signer.cpp`: the bytes that the firmware signs, and how they are read back. -/

namespace BleUsageMeter.Firmware

open Kit

def kFormatVersion : UInt8 := 1

def kDomain : List UInt8 := utf8 "ble-usage-meter/report/v1"

/-- A report.  The device id is the bytes of a `std::string`. -/
structure ReportTuple where
  deviceId : List UInt8
  count : UInt64
  sequence : UInt64
  windowStart : UInt64
  windowEnd : UInt64
deriving DecidableEq

def putU64Be (out : List UInt8) (v : UInt64) : List UInt8 :=
  ([7, 6, 5, 4, 3, 2, 1, 0] : List UInt64).foldl
    (fun out i => out ++ [((v >>> (i * 8)) &&& 0xFF).toUInt8]) out

/-- The length in two bytes, reduced to them, and then the string. -/
def putLpString (out s : List UInt8) : List UInt8 :=
  let n := UInt16.ofNat s.length
  out ++ [((n >>> 8) &&& 0xFF).toUInt8] ++ [(n &&& 0xFF).toUInt8] ++ s

def canonicalBytes (r : ReportTuple) : List UInt8 :=
  let out := kDomain ++ [kFormatVersion]
  let out := putLpString out r.deviceId
  let out := putU64Be out r.count
  let out := putU64Be out r.sequence
  let out := putU64Be out r.windowStart
  putU64Be out r.windowEnd

/-- libsodium's Ed25519: the secret key of a seed, and a detached signature, with nothing where a
function returns an error.  A signature that is made is the one of the scheme. -/
structure Sodium (scheme : SignatureScheme) where
  seedKeypair : Vector UInt8 32 → Option scheme.Secret
  signDetached : scheme.Secret → List UInt8 → Option (Vector UInt8 64)
  signs : ∀ secret message sig, signDetached secret message = some sig →
    sig.toList = scheme.sign secret message

structure Signer where
  seed : Vector UInt8 32
  pub : List UInt8
  ready : Bool

namespace Signer

def new : Signer := ⟨.replicate 32 0, List.replicate 32 0, false⟩

variable {scheme : SignatureScheme} (sodium : Sodium scheme)

/-- `load_seed`.  A seed without a key pair is zeroed, but a signer that was ready stays so. -/
def loadSeed (s : Signer) (seed : Vector UInt8 32) : Bool × Signer :=
  match sodium.seedKeypair seed with
  | none => (false, { s with seed := .replicate 32 0 })
  | some secret => (true, ⟨seed, scheme.publicKey secret, true⟩)

def publicKey (s : Signer) : Option (List UInt8) := if s.ready then some s.pub else none

/-- `sign`, which derives the key pair again. -/
def sign (s : Signer) (r : ReportTuple) : Option (Vector UInt8 64) :=
  if s.ready then
    match sodium.seedKeypair s.seed with
    | none => none
    | some secret => sodium.signDetached secret (canonicalBytes r)
  else none

end Signer

/-- Ed25519 with the sample scheme, where the first byte of a seed is the secret. -/
def Sodium.sample : Sodium .sample where
  seedKeypair seed := some (seed.get 0)
  signDetached secret message := some ⟨(SignatureScheme.sample.sign secret message).toArray,
    SignatureScheme.sample.sign_length secret message⟩
  signs secret message sig h := by
    obtain rfl := Option.some.inj h
    rfl

/-- The domain, the version, two length bytes, that many bytes of the id, and four integers. -/
def readReport : Reader ReportTuple := do
  .expect kDomain
  .expect [kFormatVersion]
  let length ← .nat 2
  let deviceId ← .bytes length
  let count ← .nat 8
  let sequence ← .nat 8
  let windowStart ← .nat 8
  let windowEnd ← .nat 8
  return ⟨deviceId, .ofNat count, .ofNat sequence, .ofNat windowStart, .ofNat windowEnd⟩

theorem byte_shiftRight (v : UInt64) {i : UInt64} (h : i.toNat < 64) :
    ((v >>> i) &&& 0xFF).toUInt8 = UInt8.ofNat (v.toNat / 2 ^ i.toNat) := by
  have hmask : (0xFF : UInt64).toNat = 2 ^ 8 - 1 := rfl
  apply UInt8.toNat_inj.mp
  rw [UInt64.toNat_toUInt8, UInt64.toNat_and, UInt64.toNat_shiftRight, UInt8.toNat_ofNat',
    Nat.mod_eq_of_lt h, Nat.shiftRight_eq_div_pow, hmask, Nat.and_two_pow_sub_one_eq_mod,
    Nat.mod_mod]

theorem putU64Be_eq (out : List UInt8) (v : UInt64) :
    putU64Be out v = out ++ bigEndian 8 v.toNat := by
  have hbyte : ∀ i ∈ ([7, 6, 5, 4, 3, 2, 1, 0] : List UInt64),
      ((v >>> (i * 8)) &&& 0xFF).toUInt8 = UInt8.ofNat (v.toNat / 2 ^ (i * 8).toNat) := by
    have hsmall : ∀ i ∈ ([7, 6, 5, 4, 3, 2, 1, 0] : List UInt64), (i * 8).toNat < 64 :=
      forall_of_all (by decide)
    exact fun i hi => byte_shiftRight v (hsmall i hi)
  simp only [List.forall_mem_cons] at hbyte
  obtain ⟨h7, h6, h5, h4, h3, h2, h1, h0, -⟩ := hbyte
  simp only [putU64Be, List.foldl_cons, List.foldl_nil, h7, h6, h5, h4, h3, h2, h1, h0, bigEndian,
    Nat.div_div_eq_div_mul, List.append_assoc, List.nil_append]
  simp

theorem putLpString_eq (out : List UInt8) {s : List UInt8} (h : s.length < 256 ^ 2) :
    putLpString out s = out ++ bigEndian 2 s.length ++ s := by
  have hmask : (0xFF : UInt16).toNat = 2 ^ 8 - 1 := rfl
  have hlength : (UInt16.ofNat s.length).toNat = s.length := by
    rw [UInt16.toNat_ofNat', Nat.mod_eq_of_lt (by omega)]
  have hhigh : ((UInt16.ofNat s.length >>> 8) &&& 0xFF).toUInt8 = UInt8.ofNat (s.length / 256) := by
    apply UInt8.toNat_inj.mp
    rw [UInt16.toNat_toUInt8, UInt16.toNat_and, UInt16.toNat_shiftRight, hlength, hmask,
      Nat.and_two_pow_sub_one_eq_mod, Nat.shiftRight_eq_div_pow, UInt8.toNat_ofNat', Nat.mod_mod]
    rfl
  have hlow : (UInt16.ofNat s.length &&& 0xFF).toUInt8 = UInt8.ofNat s.length := by
    apply UInt8.toNat_inj.mp
    rw [UInt16.toNat_toUInt8, UInt16.toNat_and, hlength, hmask, Nat.and_two_pow_sub_one_eq_mod,
      UInt8.toNat_ofNat', Nat.mod_mod]
  simp only [putLpString, hhigh, hlow, bigEndian, List.append_assoc, List.nil_append]

/-- The layout of the bytes of an id that fits its length prefix. -/
theorem canonicalBytes_eq {r : ReportTuple} (h : r.deviceId.length < 256 ^ 2) :
    canonicalBytes r = kDomain ++ [kFormatVersion] ++ bigEndian 2 r.deviceId.length ++ r.deviceId ++
      bigEndian 8 r.count.toNat ++ bigEndian 8 r.sequence.toNat ++
      bigEndian 8 r.windowStart.toNat ++ bigEndian 8 r.windowEnd.toNat := by
  simp only [canonicalBytes, putU64Be_eq, putLpString_eq _ h]

/-- The bytes of a report are read back as the report, whatever follows them. -/
theorem readReport_takes {r : ReportTuple} (h : r.deviceId.length < 256 ^ 2) :
    readReport.Takes (canonicalBytes r) r := by
  have hfits : ∀ v : UInt64, v.toNat < 256 ^ 8 := fun v => v.toNat_lt
  rw [canonicalBytes_eq h]
  simp only [List.append_assoc]
  apply (Reader.takes_expect kDomain).bind
  apply (Reader.takes_expect [kFormatVersion]).bind
  apply (Reader.takes_nat h).bind
  apply (Reader.takes_bytes r.deviceId).bind
  apply (Reader.takes_nat (hfits r.count)).bind
  apply (Reader.takes_nat (hfits r.sequence)).bind
  apply (Reader.takes_nat (hfits r.windowStart)).bind
  rw [← List.append_nil (bigEndian 8 r.windowEnd.toNat)]
  apply (Reader.takes_nat (hfits r.windowEnd)).bind
  simp only [UInt64.ofNat_toNat]
  exact .pure r

end BleUsageMeter.Firmware
