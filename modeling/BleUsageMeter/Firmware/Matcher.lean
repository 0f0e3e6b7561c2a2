import Mathlib.Data.UInt
import BleUsageMeter.Kit.Text

/-! `firmware/esp32/event_matcher.cpp`: the event that an observed write stands for. -/

namespace BleUsageMeter.Firmware

open Kit

/-- A UUID in big-endian byte order. -/
structure Uuid128 where
  b : Vector UInt8 16
deriving DecidableEq

/-- The Bluetooth base UUID. -/
def kBaseUuid : Vector UInt8 16 :=
  #v[0x00, 0x00, 0x00, 0x00, 0x00, 0x00, 0x10, 0x00, 0x80, 0x00, 0x00, 0x80, 0x5F, 0x9B, 0x34, 0xFB]

def uuidFrom16 (shortUuid : UInt16) : Uuid128 :=
  ⟨(kBaseUuid.set 2 (shortUuid >>> 8).toUInt8).set 3 shortUuid.toUInt8⟩

def hexNibble (c : Char) : Option Nat := hexValue c

/-- The loop of `uuid_from_string`: `hi` is a first digit without its second, `out` has the bytes
written so far. -/
def readUuid : List Char → Option Nat → List UInt8 → Option Uuid128
  | [], hi, out =>
    if h : out.length = 16 then
      if hi = none then some ⟨⟨out.toArray, by simpa using h⟩⟩ else none
    else none
  | c :: rest, hi, out =>
    if c = '-' then readUuid rest hi out
    else
      match hexNibble c, hi with
      | none, _ => none
      | some d, none => readUuid rest (some d) out
      | some d, some hi =>
        if 16 ≤ out.length then none else readUuid rest none (out ++ [UInt8.ofNat (16 * hi + d)])

/-- The UUID that a C string spells, or that its four digits stand for. -/
def uuidFromString (s : String) : Option Uuid128 :=
  let chars := s.toList.takeWhile (· ≠ Char.ofNat 0)
  if chars.length = 4 then
    (chars.foldlM (fun v c => (hexNibble c).map fun d => 16 * v + d) 0).map fun v =>
      uuidFrom16 (UInt16.ofNat v)
  else readUuid chars none []

structure EventRule where
  service : Uuid128
  characteristic : Uuid128
  payloadPrefix : List UInt8
  event : String
deriving DecidableEq

/-- One complete value.  The payload is the bytes behind the pointer. -/
structure ObservedWrite where
  peerAddr : String
  service : Uuid128
  characteristic : Uuid128
  payload : List UInt8
deriving DecidableEq

structure MatchResult where
  matched : Bool := false
  event : String := ""
deriving DecidableEq

/-- `EventMatcher::match`: the first rule that fits. -/
def matchWrite (service characteristic : Uuid128) (payload : List UInt8) :
    List EventRule → MatchResult
  | [] => {}
  | rule :: rest =>
    if rule.service ≠ service then matchWrite service characteristic payload rest
    else if rule.characteristic ≠ characteristic then
      matchWrite service characteristic payload rest
    else if rule.payloadPrefix ≠ [] ∧ (payload.length < rule.payloadPrefix.length ∨
        payload.take rule.payloadPrefix.length ≠ rule.payloadPrefix) then
      matchWrite service characteristic payload rest
    else { matched := true, event := rule.event }

/-- The rule is for the characteristic that is written and its prefix is that of the payload. -/
def EventRule.Fits (rule : EventRule) (service characteristic : Uuid128) (payload : List UInt8) :
    Prop :=
  rule.service = service ∧ rule.characteristic = characteristic ∧ rule.payloadPrefix <+: payload

instance (rule : EventRule) (service characteristic : Uuid128) (payload : List UInt8) :
    Decidable (rule.Fits service characteristic payload) :=
  inferInstanceAs (Decidable (_ ∧ _ ∧ _))

theorem matchWrite_eq (service characteristic : Uuid128) (payload : List UInt8)
    (rules : List EventRule) : matchWrite service characteristic payload rules =
      match (rules.find? fun rule => rule.Fits service characteristic payload) with
      | some rule => { matched := true, event := rule.event }
      | none => {} := by
  induction rules with
  | nil => rfl
  | cons rule rest ih =>
    have hprefix : rule.payloadPrefix <+: payload ↔ ¬(rule.payloadPrefix ≠ [] ∧
        (payload.length < rule.payloadPrefix.length ∨
          payload.take rule.payloadPrefix.length ≠ rule.payloadPrefix)) := by
      constructor
      · rintro hfits ⟨-, hshort | hdiffer⟩
        · exact Nat.not_lt.mpr hfits.length_le hshort
        · exact hdiffer (List.prefix_iff_eq_take.mp hfits).symm
      · intro hfits
        by_cases hempty : rule.payloadPrefix = []
        · simp [hempty]
        · rw [List.prefix_iff_eq_take]
          simp_all
    have hfits : rule.Fits service characteristic payload ↔
        rule.service = service ∧ rule.characteristic = characteristic ∧ _ :=
      and_congr_right fun _ => and_congr_right fun _ => hprefix
    rw [List.find?_cons, matchWrite, ih]
    split
    · rename_i hservice
      rw [decide_eq_false fun h => hservice h.1]
    · split
      · rename_i hcharacteristic
        rw [decide_eq_false fun h => hcharacteristic h.2.1]
      · split
        · rename_i hother
          rw [decide_eq_false fun h => (hfits.mp h).2.2 hother]
        · rename_i hservice hcharacteristic hother
          rw [decide_eq_true (hfits.mpr ⟨not_not.mp hservice, not_not.mp hcharacteristic, hother⟩)]

/-- A write is matched when some rule fits, whatever the rule is called. -/
theorem matchWrite_matched {service characteristic : Uuid128} {payload : List UInt8}
    {rules : List EventRule} : (matchWrite service characteristic payload rules).matched = true ↔
      ∃ rule ∈ rules, rule.Fits service characteristic payload := by
  have hfound : (rules.find? fun rule => rule.Fits service characteristic payload).isSome ↔
      ∃ rule ∈ rules, rule.Fits service characteristic payload := by
    simp
  rw [← hfound, matchWrite_eq]
  split
  · rename_i rule hrule
    simp [hrule]
  · rename_i hnone
    simp [hnone]

/-! ### UUIDs as text -/

/-- The digits of `size` bytes from `start` on. -/
def Uuid128.group (u : Uuid128) (start size : Nat) : List Char :=
  ((u.b.toList.drop start).take size).flatMap hexByte

/-- The lower-case form with hyphens in their places, in which a BLE stack spells UUIDs. -/
def Uuid128.text (u : Uuid128) : String :=
  String.ofList (['-'].intercalate
    [u.group 0 4, u.group 4 2, u.group 6 2, u.group 8 2, u.group 10 6])

theorem readUuid_hyphen (rest : List Char) (hi : Option Nat) (out : List UInt8) :
    readUuid ('-' :: rest) hi out = readUuid rest hi out := by
  simp [readUuid]

theorem readUuid_byte (byte : UInt8) (rest : List Char) {out : List UInt8}
    (h : out.length < 16) :
    readUuid (hexByte byte ++ rest) none out = readUuid rest none (out ++ [byte]) := by
  have hne : ∀ n, hexDigit n ≠ '-' := fun n => ne_hyphen_of_mem _ (hexDigit_mem n)
  have hbyte : UInt8.ofNat (16 * (byte.toNat / 16) + byte.toNat % 16) = byte := by
    rw [Nat.div_add_mod, UInt8.ofNat_toNat]
  simp [hexByte, readUuid, hne, hexNibble, hexValue_digit, hbyte, Nat.not_le.mpr h]

theorem readUuid_bytes (bytes : List UInt8) (rest : List Char) {out : List UInt8}
    (h : out.length + bytes.length ≤ 16) :
    readUuid (bytes.flatMap hexByte ++ rest) none out = readUuid rest none (out ++ bytes) := by
  induction bytes generalizing out with
  | nil => simp
  | cons byte bytes ih =>
    simp only [List.length_cons] at h
    rw [List.flatMap_cons, List.append_assoc, readUuid_byte _ _ (by omega),
      ih (by rw [List.length_append]; simp; omega), List.append_assoc, List.singleton_append]

theorem readUuid_group (u : Uuid128) {start size : Nat} (h : start + size ≤ 16)
    (rest : List Char) :
    readUuid (u.group start size ++ rest) none (u.b.toList.take start) =
      readUuid rest none (u.b.toList.take (start + size)) := by
  have hlength : u.b.toList.length = 16 := by simp
  rw [Uuid128.group, readUuid_bytes _ _ (by simp; omega), List.take_add]

theorem Uuid128.toList_text (u : Uuid128) : u.text.toList = u.group 0 4 ++ '-' :: (u.group 4 2 ++
    '-' :: (u.group 6 2 ++ '-' :: (u.group 8 2 ++ '-' :: u.group 10 6))) := by
  simp [text, List.intercalate, List.intersperse]

theorem readUuid_text (u : Uuid128) : readUuid u.text.toList none [] = some u := by
  have hlength : u.b.toList.length = 16 := by simp
  have hnil : ([] : List UInt8) = u.b.toList.take 0 := rfl
  rw [u.toList_text, hnil, readUuid_group u (by omega), readUuid_hyphen,
    readUuid_group u (by omega), readUuid_hyphen, readUuid_group u (by omega), readUuid_hyphen,
    readUuid_group u (by omega), readUuid_hyphen, ← List.append_nil (u.group 10 6),
    readUuid_group u (by omega), List.take_of_length_le (by omega)]
  obtain ⟨b, hb⟩ := u
  simp [readUuid, hb]

theorem flatMap_hexByte_length (bytes : List UInt8) :
    (bytes.flatMap hexByte).length = 2 * bytes.length := by
  induction bytes with
  | nil => rfl
  | cons byte bytes ih =>
    rw [List.flatMap_cons, List.length_append, ih, List.length_cons, hexByte]
    simp only [List.length_cons, List.length_nil]
    omega

theorem Uuid128.group_length (u : Uuid128) {start size : Nat} (h : start + size ≤ 16) :
    (u.group start size).length = 2 * size := by
  rw [group, flatMap_hexByte_length, List.length_take, List.length_drop, Vector.length_toList]
  omega

theorem Uuid128.mem_group {u : Uuid128} {start size : Nat} {c : Char}
    (h : c ∈ u.group start size) : c ∈ hexDigits := by
  obtain ⟨byte, -, hc⟩ := List.mem_flatMap.mp h
  rcases List.mem_pair.mp hc with rfl | rfl <;> apply hexDigit_mem

theorem Uuid128.count_group (u : Uuid128) (start size : Nat) :
    (u.group start size).count '-' = 0 :=
  List.count_eq_zero.mpr fun h => ne_hyphen_of_mem _ (mem_group h) rfl

theorem Uuid128.text_spells (u : Uuid128) : SpellsUuid u.text where
  length := by
    rw [← String.length_toList, u.toList_text]
    simp [u.group_length]
  hyphens := by
    rw [u.toList_text]
    simp [count_group]
  digits c hc := by
    rw [u.toList_text] at hc
    simp only [List.mem_append, List.mem_cons] at hc
    have := @mem_group u
    grind

/-- A text of a UUID's length and characters is read digit by digit. -/
theorem uuidFromString_spelled {s : String} (h : SpellsUuid s) :
    uuidFromString s = readUuid s.toList none [] := by
  have hnul : ∀ c ∈ hexDigits, c ≠ Char.ofNat 0 := forall_of_all (by decide)
  have hchars : s.toList.takeWhile (· ≠ Char.ofNat 0) = s.toList := by
    apply List.takeWhile_eq_self_iff.mpr
    intro c hc
    rcases h.digits c hc with rfl | hdigit
    · decide
    · simpa using hnul c hdigit
  have hlength : s.toList.length = 36 := String.length_toList.trans h.length
  rw [uuidFromString]
  simp only [hchars, hlength]
  rfl

theorem uuidFromString_text (u : Uuid128) : uuidFromString u.text = some u := by
  rw [uuidFromString_spelled u.text_spells, readUuid_text]

theorem readUuid_isSome {chars : List Char}
    (hchars : ∀ c ∈ chars, c = '-' ∨ (hexValue c).isSome)
    {hi : Option Nat} {out : List UInt8}
    (h : 2 * out.length + (if hi = none then 0 else 1) + chars.countP (· ≠ '-') = 32) :
    (readUuid chars hi out).isSome := by
  induction chars generalizing hi out with
  | nil =>
    cases hi with
    | none =>
      simp only [if_true, List.countP_nil] at h
      simp [readUuid, show out.length = 16 by omega]
    | some d =>
      simp only [reduceCtorEq, if_false, List.countP_nil] at h
      omega
  | cons c rest ih =>
    have hrest := fun c hc => hchars c (List.mem_cons_of_mem _ hc)
    by_cases hc : c = '-'
    · subst hc
      rw [readUuid_hyphen]
      exact ih hrest (by simpa using h)
    · have hdigit := (hchars c List.mem_cons_self).resolve_left hc
      obtain ⟨d, hd⟩ := Option.isSome_iff_exists.mp hdigit
      rw [List.countP_cons_of_pos (by simpa using hc)] at h
      cases hi with
      | none =>
        simp only [readUuid, hc, if_false, hexNibble, hd]
        apply ih hrest
        simp only [if_true, reduceCtorEq, if_false] at h ⊢
        omega
      | some hi =>
        simp only [reduceCtorEq, if_false] at h
        simp only [readUuid, hc, if_false, hexNibble, hd, show ¬16 ≤ out.length by omega]
        apply ih hrest
        simp only [if_true, List.length_append, List.length_singleton]
        omega

/-- Wherever the hyphens stand, the firmware reads the text. -/
theorem uuidFromString_isSome {s : String} (h : SpellsUuid s) : (uuidFromString s).isSome := by
  rw [uuidFromString_spelled h]
  apply readUuid_isSome fun c hc => (h.digits c hc).imp_right (hexValue_isSome c)
  have hcount := List.length_eq_countP_add_countP (· == '-') (l := s.toList)
  have hhyphens := h.hyphens
  rw [String.length_toList, h.length] at hcount
  rw [List.count] at hhyphens
  have hsame : s.toList.countP (fun c => decide (c ≠ '-')) =
      s.toList.countP (fun c => decide ¬(c == '-') = true) := by
    apply List.countP_congr
    simp
  simp only [List.length_nil, if_true]
  omega

end BleUsageMeter.Firmware
