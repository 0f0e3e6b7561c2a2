import BleUsageMeter.Backend.Encoding
import BleUsageMeter.Firmware.Signer
import BleUsageMeter.Gateway.Signer

/-! The three encoders of a report, `canonical_bytes` of the gateway and of the firmware and
`canonical_message` of the backend: "the exact bytes that are signed and verified".  They give the
same bytes, which are read back as the report. -/

namespace BleUsageMeter.Gateway

open Kit

/-- The last second of the year 9999, in Unix time. -/
def maxTimestamp : Nat := 253402300799

/-- A report that all sides can sign. -/
structure SignableReport where
  deviceId : String
  count : Nat
  sequence : Nat
  windowStart : Nat
  windowEnd : Nat
  deviceId_le : (utf8 deviceId).length ≤ 65535
  count_lt : count < 2 ^ 64
  sequence_lt : sequence < 2 ^ 64
  windowStart_le : windowStart ≤ maxTimestamp
  windowEnd_le : windowEnd ≤ maxTimestamp

namespace SignableReport

variable (r : SignableReport)

/-- The report as the gateway has it. -/
def gateway : ReportTuple := ⟨r.deviceId, r.count, r.sequence, r.windowStart, r.windowEnd⟩

/-- The report as the firmware has it. -/
def firmware : Firmware.ReportTuple :=
  ⟨utf8 r.deviceId, .ofNat r.count, .ofNat r.sequence, .ofNat r.windowStart, .ofNat r.windowEnd⟩

/-- The bytes that the backend verifies, for the windows in UTC. -/
def backend : Except PyException (List UInt8) := do
  let windowStart ← Datetime.fromTimestamp r.windowStart
  let windowEnd ← Datetime.fromTimestamp r.windowEnd
  Backend.canonicalMessage r.deviceId r.count r.sequence windowStart windowEnd

/-- The bytes of the report. -/
def bytes : List UInt8 :=
  Backend.canonicalLayout (utf8 r.deviceId) r.count r.sequence r.windowStart r.windowEnd

theorem gateway_bytes : canonicalBytes r.gateway = .ok r.bytes := by
  obtain ⟨deviceId, count, sequence, windowStart, windowEnd, hdevice, hcount, hsequence, hstart,
    hend⟩ := r
  have hmax : maxTimestamp = 253402300799 := rfl
  apply canonicalBytes_ok_iff.mpr
  refine ⟨⟨?_, ?_, ?_, ?_, ?_⟩, rfl⟩ <;> simp only [gateway] <;> omega

theorem firmware_bytes : Firmware.canonicalBytes r.firmware = r.bytes := by
  obtain ⟨deviceId, count, sequence, windowStart, windowEnd, hdevice, hcount, hsequence, hstart,
    hend⟩ := r
  have hmax : maxTimestamp = 253402300799 := rfl
  have hword : ∀ n < 2 ^ 64, (UInt64.ofNat n).toNat = n := fun n hn => by
    rw [UInt64.toNat_ofNat', Nat.mod_eq_of_lt hn]
  rw [Firmware.canonicalBytes_eq (by simp only [firmware]; omega)]
  simp only [firmware, hword count hcount, hword sequence hsequence,
    hword windowStart (by omega), hword windowEnd (by omega)]
  rfl

theorem unixSeconds_fromTimestamp {t : Nat} (h : t ≤ maxTimestamp) :
    ∃ d, Datetime.fromTimestamp t = .ok d ∧ Backend.UnixSeconds d t := by
  have hmax : maxTimestamp = 253402300799 := rfl
  have hepoch : Datetime.epoch.localSeconds = 62135683200 := by decide
  have hordinal : (maxOrdinal + 1 : Nat) = 3652060 := rfl
  obtain ⟨d, hd⟩ : ∃ d, Datetime.fromTimestamp t = .ok d :=
    Datetime.addSeconds_isOk (by omega) (by omega)
  obtain ⟨hlocal, hoffset, hinstant⟩ := Datetime.fromTimestamp_spec hd
  refine ⟨d, hd, ?_, by omega⟩
  rw [Backend.canonicalUnixSeconds_ok]
  · rw [hinstant, add_sub_cancel_left, Datetime.truncSeconds_whole]
  · rw [hlocal, hoffset, Option.getD_some]
    omega
  · rw [hlocal, hoffset, Option.getD_some]
    omega

theorem backend_bytes : r.backend = .ok r.bytes := by
  obtain ⟨windowStart, hstart, hstartSeconds⟩ := unixSeconds_fromTimestamp r.windowStart_le
  obtain ⟨windowEnd, hend, hendSeconds⟩ := unixSeconds_fromTimestamp r.windowEnd_le
  have hdevice := r.deviceId_le
  refine bind_eq_ok.mpr ⟨windowStart, hstart, bind_eq_ok.mpr ⟨windowEnd, hend, ?_⟩⟩
  exact Backend.canonicalMessage_eq_ok_iff.mpr ⟨by omega, r.count_lt, r.sequence_lt, _, _,
    hstartSeconds, hendSeconds, rfl⟩

/-- The bytes are read back as the report, whatever follows them. -/
theorem readReport_takes : Firmware.readReport.Takes r.bytes r.firmware := by
  have hdevice : r.firmware.deviceId.length < 256 ^ 2 := Nat.lt_succ_of_le r.deviceId_le
  rw [← r.firmware_bytes]
  exact Firmware.readReport_takes hdevice

theorem firmware_injective {r r' : SignableReport} (h : r.firmware = r'.firmware) : r = r' := by
  obtain ⟨deviceId, count, sequence, windowStart, windowEnd, hdevice, hcount, hsequence, hstart,
    hend⟩ := r
  obtain ⟨deviceId', count', sequence', windowStart', windowEnd', hdevice', hcount', hsequence',
    hstart', hend'⟩ := r'
  have hmax : maxTimestamp = 253402300799 := rfl
  have hword : ∀ m n : Nat, m < 2 ^ 64 → n < 2 ^ 64 → UInt64.ofNat m = UInt64.ofNat n → m = n := by
    intro m n hm hn heq
    have := congrArg UInt64.toNat heq
    rwa [UInt64.toNat_ofNat', UInt64.toNat_ofNat', Nat.mod_eq_of_lt hm, Nat.mod_eq_of_lt hn] at this
  simp only [firmware, Firmware.ReportTuple.mk.injEq] at h
  obtain ⟨hid, hc, hq, hs, he⟩ := h
  obtain rfl := utf8_injective hid
  obtain rfl := hword _ _ hcount hcount' hc
  obtain rfl := hword _ _ hsequence hsequence' hq
  obtain rfl := hword _ _ (by omega) (by omega) hs
  obtain rfl := hword _ _ (by omega) (by omega) he
  rfl

/-- All sides sign the same bytes, which are read back as the report and are those of no other. -/
theorem encoders_agree (r : SignableReport) : ∃ m,
    canonicalBytes r.gateway = .ok m ∧ r.backend = .ok m ∧
      Firmware.canonicalBytes r.firmware = m ∧
      Firmware.readReport.decode m = some r.firmware ∧
      (∀ rest, Firmware.readReport (m ++ rest) = some (r.firmware, rest)) ∧
      ∀ r' : SignableReport, canonicalBytes r'.gateway = .ok m → r' = r := by
  refine ⟨r.bytes, r.gateway_bytes, r.backend_bytes, r.firmware_bytes, r.readReport_takes.decode,
    r.readReport_takes, ?_⟩
  intro r' hbytes
  have hsame : r'.bytes = r.bytes := Except.ok.inj (r'.gateway_bytes.symm.trans hbytes)
  have hread := r'.readReport_takes
  rw [hsame] at hread
  exact firmware_injective (Option.some.inj (hread.decode.symm.trans r.readReport_takes.decode))

end SignableReport

end BleUsageMeter.Gateway
