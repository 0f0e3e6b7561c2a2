import BleUsageMeter.Kit.Base64
import BleUsageMeter.Kit.Json
import BleUsageMeter.Firmware.Signer

/-! `firmware/esp32/reporter.cpp`: the text of a report.  "JSON is transport only": the device id is
printed between quotes as it is, and the text is cut at the size of the buffer. -/

namespace BleUsageMeter.Firmware

open Kit
open Kit.Json (Plain Field Denotes weight total)

/-- `mbedtls_base64_encode` with the size of the buffer: what it writes, or nothing where it returns
an error.  With room for the digits and a NUL it writes base64. -/
structure Mbedtls where
  base64Encode : Nat → List UInt8 → Option (List UInt8)
  encodes : ∀ room data, 4 * ((data.length + 2) / 3) + 1 ≤ room →
    base64Encode room data = some (utf8 (Base64.b64encode data))

/-- The encoder that fails where the room is too small. -/
def Mbedtls.standard : Mbedtls where
  base64Encode room data :=
    if 4 * ((data.length + 2) / 3) + 1 ≤ room then some (utf8 (Base64.b64encode data)) else none
  encodes _ _ h := if_pos h

/-- What `%s` prints of the bytes of a string: those before the first NUL. -/
def cStr (bytes : List UInt8) : List UInt8 := bytes.takeWhile (· ≠ 0)

/-- `%llu`. -/
def decimal (v : UInt64) : List UInt8 := utf8 (String.ofList (Nat.toDigits 10 v.toNat))

def b64 (m : Mbedtls) (data : List UInt8) : List UInt8 :=
  let outLen := 4 * ((data.length + 2) / 3) + 1
  match m.base64Encode outLen data with
  | none => []
  | some out => out

/-- `sizeof(buf)`. -/
def kBodySize : Nat := 512

/-- What the format of `build_body` prints without a limit. -/
def printed (m : Mbedtls) (r : ReportTuple) (sig : Vector UInt8 64) : List UInt8 :=
  utf8 "\x7b\"device_id\":\"" ++ cStr r.deviceId ++ utf8 "\",\"count\":" ++ decimal r.count ++
    utf8 ",\"sequence\":" ++ decimal r.sequence ++
    utf8 ",\"window_start\":" ++ decimal r.windowStart ++
    utf8 ",\"window_end\":" ++ decimal r.windowEnd ++
    utf8 ",\"sig\":\"" ++ cStr (b64 m sig.toList) ++ utf8 "\"\x7d"

/-- `snprintf` into the buffer, and the string of what is in it. -/
def buildBody (m : Mbedtls) (r : ReportTuple) (sig : Vector UInt8 64) : List UInt8 :=
  let n := (printed m r sig).length
  -- where an `int` does not hold the length, `snprintf` returns a negative number
  if 2 ^ 31 ≤ n then []
  else (printed m r sig).take (if n < kBodySize then n else kBodySize - 1)

/-! ### C strings -/

theorem utf8_eq_flatMap (s : String) : utf8 s = s.toList.flatMap String.utf8EncodeChar := by
  rw [utf8, String.toUTF8_eq_toByteArray, ← String.utf8Encode_toList, List.utf8Encode,
    List.toList_data_toByteArray]

theorem zero_ne_ofNat {n : Nat} (h : n % 256 ≠ 0) : (0 : UInt8) ≠ UInt8.ofNat n := by
  intro hzero
  have hvalue := congrArg UInt8.toNat hzero
  rw [UInt8.toNat_ofNat'] at hvalue
  exact h hvalue.symm

/-- Only the NUL has a byte 0 in UTF-8. -/
theorem zero_mem_utf8EncodeChar {c : Char} (h : (0 : UInt8) ∈ String.utf8EncodeChar c) :
    c = Char.ofNat 0 := by
  unfold String.utf8EncodeChar at h
  dsimp only at h
  split at h
  · rename_i hle
    have hzero : c.toNat % 256 = 0 := by
      have hvalue := congrArg UInt8.toNat (List.mem_singleton.mp h)
      rw [UInt8.toNat_ofNat'] at hvalue
      exact hvalue.symm
    have hsmall : c.toNat ≤ 127 := hle
    have hnul : c.toNat = 0 := by omega
    rw [← Char.ofNat_toNat c, hnul]
  · exfalso
    split at h
    · simp only [List.mem_cons, List.not_mem_nil, or_false] at h
      rcases h with h | h <;> exact zero_ne_ofNat (by omega) h
    · split at h
      · simp only [List.mem_cons, List.not_mem_nil, or_false] at h
        rcases h with h | h | h <;> exact zero_ne_ofNat (by omega) h
      · simp only [List.mem_cons, List.not_mem_nil, or_false] at h
        rcases h with h | h | h | h <;> exact zero_ne_ofNat (by omega) h

theorem cStr_utf8 {s : String} (h : Char.ofNat 0 ∉ s.toList) : cStr (utf8 s) = utf8 s := by
  apply List.takeWhile_eq_self_iff.mpr
  intro byte hbyte
  rw [utf8_eq_flatMap] at hbyte
  obtain ⟨c, hc, hmem⟩ := List.mem_flatMap.mp hbyte
  have hne : byte ≠ 0 := by
    rintro rfl
    exact h (zero_mem_utf8EncodeChar hmem ▸ hc)
  simpa using hne

theorem cStr_length_le (bytes : List UInt8) : (cStr bytes).length ≤ bytes.length :=
  (List.takeWhile_prefix _).length_le

/-- A string with a NUL is printed in part. -/
theorem cStr_length_lt {s : String} (h : Char.ofNat 0 ∈ s.toList) :
    (cStr (utf8 s)).length < (utf8 s).length := by
  have hzero : (0 : UInt8) ∈ utf8 s := by
    rw [utf8_eq_flatMap]
    exact List.mem_flatMap.mpr ⟨_, h, by decide⟩
  rcases Nat.lt_or_eq_of_le (cStr_length_le (utf8 s)) with hlt | heq
  · exact hlt
  · have hself : cStr (utf8 s) = utf8 s := (List.takeWhile_prefix _).eq_of_length heq
    have hnone := List.takeWhile_eq_self_iff.mp hself 0 hzero
    exact absurd hnone (by decide)

/-! ### The text as an object -/

/-- A report with the device id as the backend has it, and its signature. -/
structure SignedReport where
  deviceId : String
  count : UInt64
  sequence : UInt64
  windowStart : UInt64
  windowEnd : UInt64
  sig : Vector UInt8 64

theorem base64_plain (bytes : List UInt8) : ∀ c ∈ Base64.encodeChars bytes, Plain c := by
  have hdigit : ∀ v < 64, Plain (Base64.digit v) := by decide
  intro c hc
  rcases Base64.mem_encodeChars hc with rfl | ⟨v, hv, rfl⟩
  · decide
  · exact hdigit v hv

/-- A member whose value is a natural. -/
def natField (key : String) (h : key.toList.all fun c => decide (Plain c)) (n : Nat) : Field :=
  ⟨key.toList, Nat.toDigits 10 n, .int n,
    fun c hc => of_decide_eq_true (List.all_eq_true.mp h c hc), Json.writes_nat n⟩

/-- A member whose value is a string that stands for itself. -/
def textField (key : String) (h : key.toList.all fun c => decide (Plain c)) {y : List Char}
    (hy : ∀ c ∈ y, Plain c) : Field :=
  ⟨key.toList, '"' :: (y ++ ['"']), .str (String.ofList y),
    fun c hc => of_decide_eq_true (List.all_eq_true.mp h c hc), Json.writes_string hy⟩

namespace SignedReport

variable (r : SignedReport)

/-- What the firmware has of the report. -/
def tuple : ReportTuple := ⟨utf8 r.deviceId, r.count, r.sequence, r.windowStart, r.windowEnd⟩

/-- What the text is to say. -/
def fields : List (String × Json) :=
  [("device_id", .str r.deviceId), ("count", .int r.count.toNat),
    ("sequence", .int r.sequence.toNat), ("window_start", .int r.windowStart.toNat),
    ("window_end", .int r.windowEnd.toNat), ("sig", .str (Base64.b64encode r.sig.toList))]

/-- The members after the device id and the count. -/
def laterFields : List Field :=
  [natField "sequence" rfl r.sequence.toNat, natField "window_start" rfl r.windowStart.toNat,
    natField "window_end" rfl r.windowEnd.toNat, textField "sig" rfl (base64_plain r.sig.toList)]

/-- The text with the device id between quotes. -/
def text : List Char :=
  '\x7b' :: '"' :: ("device_id".toList ++ '"' :: ':' :: '"' :: (r.deviceId.toList ++ '"' :: ',' ::
    Json.fieldsText (natField "count" rfl r.count.toNat) r.laterFields))

theorem fields_eq : r.fields = ("device_id", .str r.deviceId) ::
    (natField "count" rfl r.count.toNat :: r.laterFields).map Field.member := by
  simp [fields, laterFields, natField, textField, Field.member, Base64.b64encode]

theorem fields_eq_ofList :
    r.fields = (String.ofList "device_id".toList, .str (String.ofList r.deviceId.toList)) ::
      (natField "count" rfl r.count.toNat :: r.laterFields).map Field.member := by
  rw [String.ofList_toList, String.ofList_toList, fields_eq]

theorem cStr_b64 (m : Mbedtls) (sig : Vector UInt8 64) :
    cStr (b64 m sig.toList) = utf8 (Base64.b64encode sig.toList) := by
  have hencoded : b64 m sig.toList = utf8 (Base64.b64encode sig.toList) := by
    rw [b64]
    simp only [m.encodes _ _ (Nat.le_refl _)]
  rw [hencoded]
  apply cStr_utf8
  intro hnul
  rw [Base64.b64encode, String.toList_ofList] at hnul
  exact absurd (base64_plain _ _ hnul).control (by decide)

/-- The characters after the device id. -/
def afterId : List Char :=
  '"' :: ',' :: Json.fieldsText (natField "count" rfl r.count.toNat) r.laterFields

theorem printed_eq (m : Mbedtls) : printed m r.tuple r.sig =
    utf8 "\x7b\"device_id\":\"" ++ cStr (utf8 r.deviceId) ++ utf8 (String.ofList r.afterId) := by
  have hafter : String.ofList r.afterId = "\",\"count\":" ++
      String.ofList (Nat.toDigits 10 r.count.toNat) ++ ",\"sequence\":" ++
      String.ofList (Nat.toDigits 10 r.sequence.toNat) ++ ",\"window_start\":" ++
      String.ofList (Nat.toDigits 10 r.windowStart.toNat) ++ ",\"window_end\":" ++
      String.ofList (Nat.toDigits 10 r.windowEnd.toNat) ++ ",\"sig\":\"" ++
      Base64.b64encode r.sig.toList ++ "\"\x7d" := by
    apply String.toList_inj.mp
    simp only [String.toList_append, String.toList_ofList, afterId, laterFields, Json.fieldsText,
      natField, textField, Base64.b64encode, List.cons_append, List.append_assoc]
    rfl
  rw [hafter, printed, cStr_b64]
  simp only [utf8_append, decimal, tuple, List.append_assoc]

/-- The bytes of the device id and the digits of the integers. -/
def room : Nat :=
  (utf8 r.deviceId).length + (Nat.toDigits 10 r.count.toNat).length +
    (Nat.toDigits 10 r.sequence.toNat).length + (Nat.toDigits 10 r.windowStart.toNat).length +
    (Nat.toDigits 10 r.windowEnd.toNat).length

theorem total_fields : 1 + total r.fields = r.room + 164 := by
  have hsig : weight (Base64.encodeChars r.sig.toList) = 88 := by
    have hascii := List.all_eq_true.mp (Base64.encodeChars_ascii r.sig.toList)
    rw [Json.weight_ascii fun c hc => of_decide_eq_true (hascii c hc), Base64.encodeChars_length,
      Vector.length_toList]
  have hnames : weight "device_id".toList = 9 ∧ weight "count".toList = 5 ∧
      weight "sequence".toList = 8 ∧ weight "window_start".toList = 12 ∧
      weight "window_end".toList = 10 ∧ weight "sig".toList = 3 := by decide
  obtain ⟨hid, hcount, hsequence, hstart, hend, hname⟩ := hnames
  simp only [fields, Json.total_cons, Json.memberWidth, Json.width, Base64.b64encode,
    String.toList_ofList, Int.natAbs_natCast, hid, hcount, hsequence, hstart, hend, hname, hsig,
    room, Json.utf8_length_eq]
  show 1 + (_ + (_ + (_ + (_ + (_ + (_ + 0)))))) = _
  omega

theorem weight_text : weight r.text = r.room + 164 := by
  have hone : '\x7b'.utf8Size = 1 ∧ '"'.utf8Size = 1 ∧ ':'.utf8Size = 1 ∧ ','.utf8Size = 1 :=
    ⟨rfl, rfl, rfl, rfl⟩
  obtain ⟨hbrace, hquote, hcolon, hcomma⟩ := hone
  rw [← total_fields, fields_eq]
  simp only [text, Json.weight_cons, Json.weight_append, Json.weight_fieldsText, Json.total_cons,
    Json.memberWidth, Json.width, hbrace, hquote, hcolon, hcomma]
  omega

theorem utf8_text : utf8 (String.ofList r.text) =
    utf8 "\x7b\"device_id\":\"" ++ utf8 r.deviceId ++ utf8 (String.ofList r.afterId) := by
  rw [← utf8_append, ← utf8_append]
  apply congrArg utf8
  apply String.toList_inj.mp
  simp only [String.toList_append, String.toList_ofList, text, afterId, List.append_assoc]
  rfl

theorem utf8_text_length : (utf8 (String.ofList r.text)).length = r.room + 164 := by
  rw [Json.utf8_length_eq, String.toList_ofList, weight_text]

theorem printed_length_lt (m : Mbedtls) (h : Char.ofNat 0 ∈ r.deviceId.toList) :
    (printed m r.tuple r.sig).length < (utf8 (String.ofList r.text)).length := by
  have hlt := cStr_length_lt h
  rw [printed_eq, utf8_text]
  simp only [List.length_append]
  omega

theorem printed_of_not_mem (m : Mbedtls) (h : Char.ofNat 0 ∉ r.deviceId.toList) :
    printed m r.tuple r.sig = utf8 (String.ofList r.text) := by
  rw [printed_eq, cStr_utf8 h, utf8_text]

theorem text_eq_objectText (h : ∀ c ∈ r.deviceId.toList, Plain c) :
    r.text = Json.objectText (textField "device_id" rfl h)
      (natField "count" rfl r.count.toNat :: r.laterFields) := by
  simp only [text, Json.objectText, Json.fieldsText, textField, List.cons_append,
    List.append_assoc, List.nil_append]

theorem fields_nodup : (r.fields.map Prod.fst).Nodup :=
  show ["device_id", "count", "sequence", "window_start", "window_end", "sig"].Nodup by decide

end SignedReport

/-! ### What is read of the body -/

/-- The body is the text of a JSON value, and every value it is the text of maps the keys as these
members do. -/
def Received (body : List UInt8) (fields : List (String × Json)) : Prop :=
  (∃ text v, utf8 text = body ∧ Denotes text.toList v) ∧
    ∀ text v, utf8 text = body → Denotes text.toList v → v.Holds fields

/-- A body from which the members are read is no shorter than the text of them. -/
theorem Received.room_le {r : SignedReport} {body : List UInt8} (h : Received body r.fields) :
    r.room + 164 ≤ body.length := by
  obtain ⟨⟨text, v, hbody, hdenotes⟩, hall⟩ := h
  obtain ⟨ms, rfl, hmap⟩ := hall text v hbody hdenotes
  have hroom := hdenotes.total_le
  have hfields := (Json.total_of_holds r.fields_nodup hmap).1
  rw [← r.total_fields, ← hbody, Json.utf8_length_eq]
  omega

theorem buildBody_length (m : Mbedtls) (r : ReportTuple) (sig : Vector UInt8 64) :
    (buildBody m r sig).length ≤ 511 ∧ (buildBody m r sig).length ≤ (printed m r sig).length := by
  unfold buildBody
  dsimp only
  split
  · exact ⟨Nat.zero_le _, Nat.zero_le _⟩
  · rw [List.length_take, kBodySize]
    split <;> omega

/-- Without a NUL in the device id, and with room for all of it, the body is the whole text. -/
theorem buildBody_eq_text (m : Mbedtls) {r : SignedReport}
    (hnul : Char.ofNat 0 ∉ r.deviceId.toList) (hroom : r.room ≤ 347) :
    buildBody m r.tuple r.sig = utf8 (String.ofList r.text) := by
  have hprinted := r.printed_of_not_mem m hnul
  have hfits : (printed m r.tuple r.sig).length ≤ 511 := by
    rw [hprinted, r.utf8_text_length]
    omega
  rw [buildBody, kBodySize, if_neg (by omega), if_pos (by omega), List.take_length, hprinted]

/-- A body from which the report is read has room for all of it. -/
theorem Received.buildBody_eq {m : Mbedtls} {r : SignedReport}
    (h : Received (buildBody m r.tuple r.sig) r.fields) :
    r.room ≤ 347 ∧ buildBody m r.tuple r.sig = utf8 (String.ofList r.text) := by
  have hlength := r.utf8_text_length
  have hroom := h.room_le
  obtain ⟨hcut, hle⟩ := buildBody_length m r.tuple r.sig
  have hnul : Char.ofNat 0 ∉ r.deviceId.toList := by
    intro hmem
    have hlt := r.printed_length_lt m hmem
    omega
  exact ⟨by omega, buildBody_eq_text m hnul (by omega)⟩

/-- The text takes no more room than its members need, so nothing in the device id is an escape. -/
theorem Received.plain {m : Mbedtls} {r : SignedReport}
    (h : Received (buildBody m r.tuple r.sig) r.fields) : ∀ c ∈ r.deviceId.toList, Plain c := by
  obtain ⟨-, hbody⟩ := h.buildBody_eq
  obtain ⟨⟨text, v, htext, hdenotes⟩, hall⟩ := h
  have hholds := hall text v htext hdenotes
  rw [hbody] at htext
  obtain rfl := utf8_injective htext
  have hnodup := r.fields_nodup
  have hweight : weight r.text ≤ 1 + total r.fields := by
    rw [r.weight_text, r.total_fields]
  rw [String.toList_ofList] at hdenotes
  rw [r.fields_eq_ofList] at hholds hnodup hweight
  have hkey : ∀ c ∈ "device_id".toList, Plain c := forall_of_all (by decide)
  exact Json.plain_of_holds hkey hnodup hdenotes hholds hweight

theorem received_of_plain (m : Mbedtls) {r : SignedReport}
    (hplain : ∀ c ∈ r.deviceId.toList, Plain c) (hroom : r.room ≤ 347) :
    Received (buildBody m r.tuple r.sig) r.fields := by
  have hnul : Char.ofNat 0 ∉ r.deviceId.toList := by
    intro hmem
    exact absurd (hplain _ hmem).control (by decide)
  rw [buildBody_eq_text m hnul hroom]
  have hdenotes : Denotes (String.ofList r.text).toList (.object r.fields) := by
    rw [String.toList_ofList, r.text_eq_objectText hplain, r.fields_eq_ofList]
    exact Json.denotes_objectText _ _
  refine ⟨⟨_, _, rfl, hdenotes⟩, fun text v hbody hv => ?_⟩
  obtain rfl := utf8_injective hbody
  rw [hv.unique hdenotes]
  exact Json.holds_object r.fields_nodup

/-- The body is read as the report just where every character of the device id stands for itself
and the device id and the integers take 347 bytes at most. -/
theorem received_iff (m : Mbedtls) (r : SignedReport) :
    Received (buildBody m r.tuple r.sig) r.fields ↔
      (∀ c ∈ r.deviceId.toList, Plain c) ∧ r.room ≤ 347 := by
  constructor
  · intro h
    exact ⟨h.plain, h.buildBody_eq.1⟩
  · rintro ⟨hplain, hroom⟩
    exact received_of_plain m hplain hroom

/-- A report of this device. -/
def sampleReport (deviceId : String) : SignedReport where
  deviceId := deviceId
  count := 7
  sequence := 3
  windowStart := 100
  windowEnd := 160
  sig := Vector.replicate 64 0

theorem received_iff_sample :
    Received (buildBody .standard (sampleReport "dev-1").tuple (sampleReport "dev-1").sig)
      (sampleReport "dev-1").fields :=
  (received_iff .standard (sampleReport "dev-1")).mpr ⟨forall_of_all (by decide), by decide⟩

/-- A device id of 128 characters with three bytes each. -/
def wideId : String := String.ofList (List.replicate 128 '€')

theorem wideId_length : wideId.length = 128 :=
  String.length_ofList.trans List.length_replicate

theorem utf8_wideId_length : (utf8 wideId).length = 384 := by
  rw [Json.utf8_length_eq]
  unfold wideId
  rw [String.toList_ofList, weight, List.map_replicate, List.sum_replicate]
  rfl

/-- A quotation mark ends the device id early, and a wide device id leaves no room for the rest. -/
theorem body_not_received :
    ((1 ≤ "a\"b".length ∧ "a\"b".length ≤ 128) ∧
      ¬ Received (buildBody .standard (sampleReport "a\"b").tuple (sampleReport "a\"b").sig)
        (sampleReport "a\"b").fields) ∧
    (1 ≤ wideId.length ∧ wideId.length ≤ 128) ∧
      ¬ Received (buildBody .standard (sampleReport wideId).tuple (sampleReport wideId).sig)
        (sampleReport wideId).fields := by
  have hlength := wideId_length
  refine ⟨⟨by decide, fun h => ?_⟩, by omega, fun h => ?_⟩
  · exact absurd (h.plain '"' (by decide)).quote (by decide)
  · have hroom := h.buildBody_eq.1
    have hid := utf8_wideId_length
    simp only [SignedReport.room, sampleReport, hid] at hroom
    omega

end BleUsageMeter.Firmware
