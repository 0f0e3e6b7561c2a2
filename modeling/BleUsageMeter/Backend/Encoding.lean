import BleUsageMeter.Backend.Models

/-! What the canonical bytes of a report say, and which reports have any. -/

namespace BleUsageMeter.Backend

open Kit

/-- The bytes of a message whose fields are given as naturals. -/
def canonicalLayout (did : List UInt8) (count sequence windowStart windowEnd : Nat) : List UInt8 :=
  canonicalDomain ++ [canonicalFormatVersion] ++ bigEndian 2 did.length ++ did ++
    bigEndian 8 count ++ bigEndian 8 sequence ++ bigEndian 8 windowStart ++ bigEndian 8 windowEnd

theorem canonicalLayout_injective {did did' : List UInt8} {c c' q q' s s' e e' : Nat}
    (hc : c < 256 ^ 8) (hc' : c' < 256 ^ 8) (hq : q < 256 ^ 8) (hq' : q' < 256 ^ 8)
    (hs : s < 256 ^ 8) (hs' : s' < 256 ^ 8) (he : e < 256 ^ 8) (he' : e' < 256 ^ 8)
    (h : canonicalLayout did c q s e = canonicalLayout did' c' q' s' e') :
    did = did' ∧ c = c' ∧ q = q' ∧ s = s' ∧ e = e' := by
  unfold canonicalLayout at h
  obtain ⟨h, hend⟩ := List.append_inj' h (by simp)
  obtain ⟨h, hstart⟩ := List.append_inj' h (by simp)
  obtain ⟨h, hsequence⟩ := List.append_inj' h (by simp)
  obtain ⟨h, hcount⟩ := List.append_inj' h (by simp)
  simp only [List.append_assoc] at h
  obtain ⟨-, h⟩ := List.append_inj h rfl
  obtain ⟨-, h⟩ := List.append_inj h rfl
  obtain ⟨-, hdid⟩ := List.append_inj h (by simp)
  exact ⟨hdid, bigEndian_injective hc hc' hcount, bigEndian_injective hq hq' hsequence,
    bigEndian_injective hs hs' hstart, bigEndian_injective he he' hend⟩

/-- The whole Unix seconds of a window end, when they can be signed. -/
structure UnixSeconds (value : Datetime) (seconds : Nat) : Prop where
  eq : canonicalUnixSeconds value = .ok (seconds : Int)
  lt : seconds < 256 ^ 8

theorem UnixSeconds.of_eq {value : Datetime} {t : Int} (h : canonicalUnixSeconds value = .ok t)
    (h0 : 0 ≤ t) (hlt : t < 256 ^ 8) : UnixSeconds value t.toNat :=
  ⟨by rw [h, Int.toNat_of_nonneg h0], by omega⟩

theorem canonicalMessage_eq_ok_iff {deviceId : String} {count sequence : Nat}
    {windowStart windowEnd : Datetime} {m : List UInt8} :
    canonicalMessage deviceId count sequence windowStart windowEnd = .ok m ↔
      (utf8 deviceId).length < 256 ^ 2 ∧ count < 256 ^ 8 ∧ sequence < 256 ^ 8 ∧
        ∃ s e, UnixSeconds windowStart s ∧ UnixSeconds windowEnd e ∧
          m = canonicalLayout (utf8 deviceId) count sequence s e := by
  unfold canonicalMessage
  by_cases hlong : 0xFFFF < (utf8 deviceId).length
  · simp only [hlong, if_true, bind_eq_ok]
    constructor
    · rintro ⟨_, hthrow, -⟩
      cases hthrow
    · rintro ⟨hlength, -⟩
      omega
  · simp only [hlong, if_false, bind_eq_ok, toBytes_eq_ok_iff, pure, Except.pure, Except.ok.injEq,
      Int.toNat_natCast]
    constructor
    · rintro ⟨_, ⟨-, hlength, rfl⟩, _, ⟨-, hcount, rfl⟩, _, ⟨-, hsequence, rfl⟩, s, hs, _,
        ⟨hs0, hslt, rfl⟩, e, he, _, ⟨he0, helt, rfl⟩, hm⟩
      exact ⟨by omega, by omega, by omega, s.toNat, e.toNat, .of_eq hs hs0 hslt,
        .of_eq he he0 helt, by rw [canonicalLayout, hm]⟩
    · rintro ⟨hlength, hcount, hsequence, s, e, hs, he, rfl⟩
      have hslt := hs.lt
      have helt := he.lt
      exact ⟨_, ⟨by omega, by omega, rfl⟩, _, ⟨by omega, by omega, rfl⟩, _,
        ⟨by omega, by omega, rfl⟩, s, hs.eq, _, ⟨by omega, by omega, rfl⟩, e, he.eq, _,
        ⟨by omega, by omega, rfl⟩, by rw [canonicalLayout, Int.toNat_natCast, Int.toNat_natCast]⟩

/-- Reports with the same canonical bytes have the same device, count and sequence, and the same
whole seconds. -/
theorem UsageReport.canonicalBytes_injective {r r' : UsageReport} {m : List UInt8}
    (h : r.canonicalBytes = .ok m) (h' : r'.canonicalBytes = .ok m) :
    r.deviceId = r'.deviceId ∧ r.count = r'.count ∧ r.sequence = r'.sequence ∧
      ∃ s e, UnixSeconds r.windowStart s ∧ UnixSeconds r'.windowStart s ∧
        UnixSeconds r.windowEnd e ∧ UnixSeconds r'.windowEnd e := by
  obtain ⟨-, hc, hq, s, e, hs, he, rfl⟩ := canonicalMessage_eq_ok_iff.mp h
  obtain ⟨-, hc', hq', s', e', hs', he', hm⟩ := canonicalMessage_eq_ok_iff.mp h'
  obtain ⟨hdid, hcount, hsequence, rfl, rfl⟩ :=
    canonicalLayout_injective hc hc' hq hq' hs.lt hs'.lt he.lt he'.lt hm
  exact ⟨utf8_injective hdid, hcount, hsequence, s, e, hs, hs', he, he'⟩

/-! ### Reports without canonical bytes -/

/-- The window end is after the last second before 1970, and its UTC time is before year 10000. -/
def Encodable (value : Datetime) : Prop :=
  -1000000 < value.instant - Datetime.epoch.instant ∧
    value.localSeconds - value.utcoffset.getD 0 < (maxOrdinal + 1 : Nat) * 86400

instance (value : Datetime) : Decidable (Encodable value) := inferInstanceAs (Decidable (_ ∧ _))

/-- The integers of the report fit in 64 bits and its window can be signed. -/
structure UsageReport.Encodable (r : UsageReport) : Prop where
  count : r.count < 2 ^ 64
  sequence : r.sequence < 2 ^ 64
  windowStart : Backend.Encodable r.windowStart
  windowEnd : Backend.Encodable r.windowEnd

theorem canonicalUnixSeconds_ok {value : Datetime}
    (hlow : 86400 ≤ value.localSeconds - value.utcoffset.getD 0)
    (hhigh : value.localSeconds - value.utcoffset.getD 0 < (maxOrdinal + 1 : Nat) * 86400) :
    canonicalUnixSeconds value =
      .ok (Datetime.truncSeconds (value.instant - Datetime.epoch.instant)) := by
  unfold canonicalUnixSeconds
  by_cases hnaive : value.utcoffset = none
  · have hutc : value.replaceUtc.astimezoneUtc = .ok value.replaceUtc := rfl
    simp only [hnaive, if_true, hutc, bind, Except.bind, pure, Except.pure, Datetime.timestampInt,
      Datetime.replaceUtc_instant hnaive]
  · obtain ⟨utc, hutc⟩ := Datetime.astimezoneUtc_isOk hlow hhigh
    simp only [hnaive, if_false, hutc, bind, Except.bind, pure, Except.pure, Datetime.timestampInt,
      Datetime.astimezoneUtc_instant hutc]

theorem canonicalUnixSeconds_error {value : Datetime}
    (h : ¬(86400 ≤ value.localSeconds - value.utcoffset.getD 0 ∧
      value.localSeconds - value.utcoffset.getD 0 < (maxOrdinal + 1 : Nat) * 86400)) :
    canonicalUnixSeconds value = .error .overflowError := by
  have hbounds := value.localSeconds_bounds
  have haware : value.utcoffset ≠ none := by
    intro e
    rw [e, Option.getD_none] at h
    omega
  unfold canonicalUnixSeconds
  simp only [haware, if_false, Datetime.astimezoneUtc_isError h, bind, Except.bind]

theorem unixSeconds_iff_encodable {value : Datetime} :
    (∃ s, UnixSeconds value s) ↔ Encodable value := by
  have hepoch : Datetime.epoch.instant = 62135683200000000 := by decide
  have hmicro := value.microsecond_lt
  have hinstant : value.instant =
    (value.localSeconds - value.utcoffset.getD 0) * 1000000 + value.microsecond := rfl
  constructor
  · rintro ⟨s, hs, -⟩
    by_cases hrange : 86400 ≤ value.localSeconds - value.utcoffset.getD 0 ∧
        value.localSeconds - value.utcoffset.getD 0 < (maxOrdinal + 1 : Nat) * 86400
    · rw [canonicalUnixSeconds_ok hrange.1 hrange.2] at hs
      have hnonneg : 0 ≤ Datetime.truncSeconds (value.instant - Datetime.epoch.instant) := by
        rw [Except.ok.inj hs]
        omega
      exact ⟨(Datetime.truncSeconds_nonneg_iff _).mp hnonneg, hrange.2⟩
    · rw [canonicalUnixSeconds_error hrange] at hs
      cases hs
  · rintro ⟨hepochLe, hhigh⟩
    have hlow : 86400 ≤ value.localSeconds - value.utcoffset.getD 0 := by omega
    have hmax : (maxOrdinal + 1 : Nat) = 3652060 := rfl
    rw [hmax] at hhigh
    have hle := Datetime.truncSeconds_le (value.instant - Datetime.epoch.instant)
    exact ⟨_, .of_eq (canonicalUnixSeconds_ok hlow (by rw [hmax]; exact hhigh))
      ((Datetime.truncSeconds_nonneg_iff _).mpr hepochLe) (by omega)⟩

theorem UsageReport.canonicalBytes_ok_iff {r : UsageReport} :
    (∃ m, r.canonicalBytes = .ok m) ↔ r.Encodable := by
  constructor
  · rintro ⟨m, hm⟩
    obtain ⟨-, hcount, hsequence, s, e, hs, he, -⟩ := canonicalMessage_eq_ok_iff.mp hm
    exact ⟨hcount, hsequence, unixSeconds_iff_encodable.mp ⟨s, hs⟩,
      unixSeconds_iff_encodable.mp ⟨e, he⟩⟩
  · rintro ⟨hcount, hsequence, hstart, hend⟩
    obtain ⟨s, hs⟩ := unixSeconds_iff_encodable.mpr hstart
    obtain ⟨e, he⟩ := unixSeconds_iff_encodable.mpr hend
    have hlength := utf8_length_le r.deviceId
    have hid := r.deviceId_length.2
    exact ⟨_, canonicalMessage_eq_ok_iff.mpr
      ⟨by omega, hcount, hsequence, s, e, hs, he, rfl⟩⟩

end BleUsageMeter.Backend
