import Mathlib.Data.Nat.Digits.Defs
import BleUsageMeter.Gateway.Billing
import BleUsageMeter.Gateway.Uuids

/-! The UUID that an accepted text denotes, and when its normal form is the canonical text of that
UUID.  A full form is taken over with its hyphens wherever they are. -/

namespace BleUsageMeter.Gateway

open Kit

/-- The last 96 bits of the Bluetooth base UUID. -/
def baseUuid : Nat := 0x00001000800000805F9B34FB

/-- The UUID that a text denotes by its digits: 16 and 32 bits stand in the Bluetooth base UUID. -/
def denotedUuid (text : String) : Nat :=
  let digits := uuidDigits text
  let value := Nat.ofDigits 16 digits.reverse
  if digits.length = 4 ∨ digits.length = 8 then value * 2 ^ 96 + baseUuid else value

/-- A full form has its hyphens after 8, 4, 4 and 4 digits. -/
def Placed (text : String) : Prop :=
  (strip text).length = uuidLen → ∀ i ∈ [8, 13, 18, 23], (strip text).toList[i]? = some '-'

/-! ### Padding and letter case -/

theorem uuidDigits_append (s t : String) : uuidDigits (s ++ t) = uuidDigits s ++ uuidDigits t := by
  rw [uuidDigits, String.toList_append, List.filterMap_append, uuidDigits, uuidDigits]

theorem uuidDigits_lower (s : String) : uuidDigits (lower s) = uuidDigits s := by
  have hlower : hexValue ∘ Char.toLower = hexValue := funext hexValue_toLower
  rw [uuidDigits, lower, String.toList_map, List.filterMap_map, hlower, uuidDigits]

theorem not_isSpace {s : String} (h : SpellsUuid s) : ∀ c ∈ s.toList, isSpace c = false := by
  have hdigits : ∀ c ∈ hexDigits, isSpace c = false := forall_of_all (by decide)
  intro c hc
  rcases h.digits c hc with rfl | hdigit
  · decide
  · exact hdigits c hdigit

theorem strip_spelled {s : String} (h : SpellsUuid s) : strip s = s := by
  have hfirst : s.toList.dropWhile isSpace = s.toList := by
    rw [List.dropWhile_eq_self_iff]
    intro hlength
    rw [not_isSpace h _ (List.getElem_mem hlength)]
    exact Bool.false_ne_true
  have hlast : s.toList.rdropWhile isSpace = s.toList := by
    rw [List.rdropWhile_eq_self_iff]
    intro hne
    rw [not_isSpace h _ (List.getLast_mem hne)]
    exact Bool.false_ne_true
  rw [strip, hfirst, hlast, String.ofList_toList]

theorem normaliseUuid_spelled {s : String} (h : SpellsUuid s) : normaliseUuid (.str s) = .ok s := by
  have hchars : s.toList.all fun c => isHex c || c == '-' := by
    rw [List.all_eq_true]
    intro c hc
    rcases h.digits c hc with rfl | hdigit
    · rfl
    · rw [isHex_iff.mpr hdigit, Bool.true_or]
  simp only [normaliseUuid, Yaml.text, strip_spelled h, lower_spelled h]
  rw [if_neg fun hshort => absurd (hshort.1.symm.trans h.length) (by decide),
    if_neg fun hshort => absurd (hshort.1.symm.trans h.length) (by decide),
    if_neg (by simp [h.length, h.hyphens, uuidLen]), if_neg (not_not.mpr hchars)]

/-! ### What the normal form denotes -/

/-- The digits of a short form, with those of the base UUID around them. -/
theorem denotedUuid_short {digits : List Nat} {pad : Nat} {text s : String}
    (htext : uuidDigits text = digits) (hlength : digits.length = 4 ∨ digits.length = 8)
    (hpad : pad + digits.length = 8)
    (hs : uuidDigits s = List.replicate pad 0 ++ digits ++
      uuidDigits "-0000-1000-8000-00805f9b34fb") : denotedUuid s = denotedUuid text := by
  have hbase : uuidDigits "-0000-1000-8000-00805f9b34fb" =
      [0, 0, 0, 0, 1, 0, 0, 0, 8, 0, 0, 0, 0, 0, 8, 0, 5, 15, 9, 11, 3, 4, 15, 11] := by decide
  have htail : Nat.ofDigits 16 (List.reverse
      [0, 0, 0, 0, 1, 0, 0, 0, 8, 0, 0, 0, 0, 0, 8, 0, 5, 15, 9, 11, 3, 4, 15, 11]) = baseUuid := by
    decide
  have hlong : (uuidDigits s).length = 32 := by
    rw [hs, hbase, List.length_append, List.length_append, List.length_replicate, hpad]
    rfl
  have hvalue : Nat.ofDigits 16 (uuidDigits s).reverse =
      Nat.ofDigits 16 digits.reverse * 2 ^ 96 + baseUuid := by
    rw [hs, hbase, List.reverse_append, List.reverse_append, List.reverse_replicate,
      Nat.ofDigits_append, Nat.ofDigits_append_replicate_zero, htail, Nat.mul_comm, Nat.add_comm]
    rfl
  simp only [denotedUuid, hlong, hvalue, htext, if_pos hlength]
  rfl

theorem denotedUuid_normalised {raw : Yaml} {s : String} (h : normaliseUuid raw = .ok s) :
    denotedUuid s = denotedUuid raw.text := by
  have hraw : uuidDigits (lower (strip raw.text)) = uuidDigits raw.text := by
    rw [uuidDigits_lower, uuidDigits_strip]
  have hdigits : (lower (strip raw.text)).toList.all isHex →
      (uuidDigits raw.text).length = (lower (strip raw.text)).length := by
    intro hall
    rw [← hraw]
    exact length_filterMap_hexValue fun c hc => isHex_iff.mp (List.all_eq_true.mp hall c hc)
  rcases normaliseUuid_cases h with ⟨hlength, hall, rfl⟩ | ⟨hlength, hall, rfl⟩ | ⟨-, rfl⟩
  · have hfour := (hdigits hall).trans hlength
    have hpad : 4 + (uuidDigits raw.text).length = 8 := by rw [hfour]
    refine denotedUuid_short rfl (.inl hfour) hpad ?_
    rw [uuidDigits_append, uuidDigits_append, hraw]
    rfl
  · have height := (hdigits hall).trans hlength
    have hpad : 0 + (uuidDigits raw.text).length = 8 := by rw [height]
    refine denotedUuid_short rfl (.inr height) hpad ?_
    rw [uuidDigits_append, hraw]
    rfl
  · simp only [denotedUuid, hraw]

theorem denotedUuid_injective {s t : String} (hs : CanonicalUuid s) (ht : CanonicalUuid t)
    (h : denotedUuid s = denotedUuid t) : s = t := by
  have hvalue : ∀ {s}, CanonicalUuid s →
      denotedUuid s = Nat.ofDigits 16 (uuidDigits s).reverse := by
    intro s hs
    simp only [denotedUuid, hs.digits_length]
    rfl
  apply hs.eq_of_digits ht
  rw [hvalue hs, hvalue ht] at h
  apply List.reverse_injective
  apply Nat.ofDigits_inj_of_len_eq (by decide) _ _ _ h
  · rw [List.length_reverse, List.length_reverse, hs.digits_length, ht.digits_length]
  · exact fun n hn => uuidDigits_lt n (List.mem_reverse.mp hn)
  · exact fun n hn => uuidDigits_lt n (List.mem_reverse.mp hn)

/-! ### Where the hyphens are -/

theorem canonical_short {s : String} (hlength : s.length = 8)
    (hspells : SpellsUuid (s ++ "-0000-1000-8000-00805f9b34fb")) :
    CanonicalUuid (s ++ "-0000-1000-8000-00805f9b34fb") := by
  have hbase : ∀ i ∈ [8, 13, 18, 23],
      8 ≤ i ∧ "-0000-1000-8000-00805f9b34fb".toList[i - 8]? = some '-' := forall_of_all (by decide)
  apply hspells.canonical_iff.mpr
  intro i hi
  obtain ⟨hge, hhyphen⟩ := hbase i hi
  rw [← String.length_toList] at hlength
  rw [String.toList_append, List.getElem?_append_right (by omega), hlength, hhyphen]

theorem lower_length (s : String) : (lower s).length = s.length := by
  rw [← String.length_toList, lower, String.toList_map, List.length_map, String.length_toList]

theorem canonical_iff_placed {raw : Yaml} {s : String} (h : normaliseUuid raw = .ok s) :
    CanonicalUuid s ↔ Placed raw.text := by
  have hspells := normaliseUuid_spells h
  rw [Placed, ← lower_length]
  rcases normaliseUuid_cases h with ⟨hlength, -, rfl⟩ | ⟨hlength, -, rfl⟩ | ⟨-, rfl⟩
  · refine iff_of_true (canonical_short ?_ hspells) fun hfull => ?_
    · rw [String.length_append, hlength]
      rfl
    · cases hlength.symm.trans hfull
  · refine iff_of_true (canonical_short hlength hspells) fun hfull => ?_
    cases hlength.symm.trans hfull
  · have hfull : (lower (strip raw.text)).length = uuidLen := hspells.length
    rw [hspells.canonical_iff, forall_prop_of_true hfull]
    refine forall₂_congr fun i _ => ?_
    rw [lower, String.toList_map, List.getElem?_map, Option.map_eq_some_iff]
    constructor
    · rintro ⟨c, hc, hlower⟩
      rw [hc, (toLower_eq_iff (.inl rfl)).mp hlower]
    · intro hc
      exact ⟨'-', hc, rfl⟩

theorem normaliseUuid_eq_iff {a b : Yaml} {s t : String} (hs : normaliseUuid a = .ok s)
    (ht : normaliseUuid b = .ok t) (ha : Placed a.text) (hb : Placed b.text) :
    s = t ↔ denotedUuid a.text = denotedUuid b.text := by
  rw [← denotedUuid_normalised hs, ← denotedUuid_normalised ht]
  have hcanonical := (canonical_iff_placed hs).mpr ha
  have hcanonical' := (canonical_iff_placed ht).mpr hb
  exact ⟨congrArg denotedUuid, denotedUuid_injective hcanonical hcanonical'⟩

/-! ### Rules on the same UUIDs -/

/-- What an item is about: the UUIDs that it denotes, and its prefix. -/
def denotedKey (item : Yaml) : Option (Nat × Nat × List UInt8) := do
  let service ← item.field "service"
  let characteristic ← item.field "characteristic"
  let payloadPrefix ← (parsePrefix ((item.field "prefix").getD .null)).toOption
  return (denotedUuid service.text, denotedUuid characteristic.text, payloadPrefix)

/-- The UUIDs of an item have their hyphens in their places. -/
def ItemPlaced (item : Yaml) : Prop :=
  ∀ key ∈ ["service", "characteristic"], ∀ raw, item.field key = some raw → Placed raw.text

/-- The denoted key of a rule's key. -/
def keyDenoted (key : String × String × List UInt8) : Option (Nat × Nat × List UInt8) :=
  some (denotedUuid key.1, denotedUuid key.2.1, key.2.2)

theorem denotedKey_readFrom {item : Yaml} {rule : EventRule} (h : rule.ReadFrom item) :
    denotedKey item = keyDenoted rule.key := by
  obtain ⟨service, hservice, hs⟩ := h.service
  obtain ⟨characteristic, hcharacteristic, hc⟩ := h.characteristic
  simp [denotedKey, hservice, hcharacteristic, h.payloadPrefix, keyDenoted, EventRule.key,
    denotedUuid_normalised hs, denotedUuid_normalised hc, Except.toOption]

theorem canonical_readFrom {item : Yaml} {rule : EventRule} (h : rule.ReadFrom item)
    (hplaced : ItemPlaced item) :
    CanonicalUuid rule.service ∧ CanonicalUuid rule.characteristic := by
  obtain ⟨service, hservice, hs⟩ := h.service
  obtain ⟨characteristic, hcharacteristic, hc⟩ := h.characteristic
  exact ⟨(canonical_iff_placed hs).mpr (hplaced _ (by simp) _ hservice),
    (canonical_iff_placed hc).mpr (hplaced _ (by simp) _ hcharacteristic)⟩

theorem canonical_rules {items : List Yaml} {rules : List EventRule}
    (hread : List.Forall₂ (fun item rule => rule.ReadFrom item) items rules)
    (hplaced : ∀ item ∈ items, ItemPlaced item) :
    ∀ rule ∈ rules, CanonicalUuid rule.service ∧ CanonicalUuid rule.characteristic := by
  induction hread with
  | nil => exact fun rule hrule => nomatch hrule
  | cons hrule _ ih =>
    rw [List.forall_mem_cons] at hplaced ⊢
    exact ⟨canonical_readFrom hrule hplaced.1, ih hplaced.2⟩

/-- Items that denote the same UUIDs and have the same prefix are not accepted together. -/
theorem loadEvents_distinct {doc : Yaml} {rules : List EventRule} (h : loadEvents doc = .ok rules)
    (hplaced : ∀ item ∈ eventItems doc, ItemPlaced item) :
    ((eventItems doc).map denotedKey).Nodup := by
  obtain ⟨hread, hnodup⟩ := loadEvents_read h
  have hcanonical := canonical_rules hread hplaced
  have hkeys : (eventItems doc).map denotedKey =
      (rules.map EventRule.key).map keyDenoted := by
    rw [List.map_map, ← List.forall₂_eq_eq_eq, List.forall₂_map_left_iff,
      List.forall₂_map_right_iff]
    exact hread.imp fun item rule hrule => denotedKey_readFrom hrule
  rw [hkeys]
  apply hnodup.map_on
  intro x hx y hy hsame
  obtain ⟨r, hr, rfl⟩ := List.mem_map.mp hx
  obtain ⟨r', hr', rfl⟩ := List.mem_map.mp hy
  simp only [keyDenoted, Option.some.injEq, Prod.mk.injEq] at hsame
  obtain ⟨hservice, hcharacteristic, hprefix⟩ := hsame
  have hs := denotedUuid_injective (hcanonical r hr).1 (hcanonical r' hr').1 hservice
  have hc := denotedUuid_injective (hcanonical r hr).2 (hcanonical r' hr').2 hcharacteristic
  exact Prod.ext hs (Prod.ext hc hprefix)

/-- Two accepted texts have canonical normal forms, which normalising leaves alone and which are
the same exactly when the texts denote the same UUID, if and only if both texts have their hyphens
in their places; and a file in which all have them is accepted without two items that are about
the same. -/
theorem normal_forms_iff {a b : Yaml} {s t : String} (hs : normaliseUuid a = .ok s)
    (ht : normaliseUuid b = .ok t) :
    (CanonicalUuid s ∧ CanonicalUuid t ∧ normaliseUuid (.str s) = .ok s ∧
        normaliseUuid (.str t) = .ok t ∧
        (s = t ↔ denotedUuid a.text = denotedUuid b.text) ↔ Placed a.text ∧ Placed b.text) ∧
      ∀ (doc : Yaml) (rules : List EventRule), loadEvents doc = .ok rules →
        (∀ item ∈ eventItems doc, ItemPlaced item) →
        ((eventItems doc).map denotedKey).Nodup := by
  refine ⟨⟨?_, ?_⟩, fun doc rules => loadEvents_distinct⟩
  · rintro ⟨hcanonical, hcanonical', -⟩
    exact ⟨(canonical_iff_placed hs).mp hcanonical, (canonical_iff_placed ht).mp hcanonical'⟩
  · rintro ⟨ha, hb⟩
    exact ⟨(canonical_iff_placed hs).mpr ha, (canonical_iff_placed ht).mpr hb,
      normaliseUuid_spelled (normaliseUuid_spells hs),
      normaliseUuid_spelled (normaliseUuid_spells ht), normaliseUuid_eq_iff hs ht ha hb⟩

theorem normalise_sampleUuid : normaliseUuid (.str sampleUuid) = .ok sampleUuid := by
  apply ok_of_toOption
  decide +kernel

/-- A short form, and the full form of the same UUID in capitals with a blank before it; and the
example's rules. -/
theorem normal_forms_iff_sample :
    denotedUuid "fff0" = denotedUuid " 0000FFF0-0000-1000-8000-00805F9B34FB" ∧
      ((eventItems sampleEvents).map denotedKey).Nodup := by
  have hcanonical : CanonicalUuid sampleUuid := by
    apply (normaliseUuid_spells normalise_sampleUuid).canonical_iff.mpr
    exact forall_of_all (by decide)
  have hshort : normaliseUuid (.str "fff0") = .ok sampleUuid := by
    apply ok_of_toOption
    decide +kernel
  have hplaced := (canonical_iff_placed hshort).mp hcanonical
  have hfull : normaliseUuid (.str " 0000FFF0-0000-1000-8000-00805F9B34FB") = .ok sampleUuid := by
    apply ok_of_toOption
    decide +kernel
  obtain ⟨hforms, hdistinct⟩ := normal_forms_iff hshort hfull
  constructor
  · have hplaced' := (canonical_iff_placed hfull).mp hcanonical
    exact (hforms.mpr ⟨hplaced, hplaced'⟩).2.2.2.2.mp rfl
  · have hplaced' := (canonical_iff_placed normalise_sampleUuid).mp hcanonical
    have hitem : ∀ event payloadPrefix text, ItemPlaced (.mapping [("event", event),
        ("service", .str "fff0"), ("characteristic", .str sampleUuid),
        ("prefix", payloadPrefix)] text) := by
      intro event payloadPrefix text key hkey raw hraw
      rcases List.mem_cons.mp hkey with rfl | hkey
      · obtain rfl := Option.some.inj hraw
        exact hplaced
      · obtain rfl := List.mem_singleton.mp hkey
        obtain rfl := Option.some.inj hraw
        exact hplaced'
    apply hdistinct sampleEvents sampleRules sampleEvents_loaded
    exact List.forall_mem_cons.mpr ⟨hitem _ _ _,
      List.forall_mem_singleton.mpr (hitem _ _ _)⟩

/-- The UUID of the sample with its third hyphen one place to the left. -/
def displacedUuid : String := "0000fff0-0000-100-08000-00805f9b34fb"

/-- Two rules on one UUID. -/
def doubledEvents : Yaml := .mapping
  [("events", .list [
      .mapping [("event", .str "work_unit"), ("service", .str sampleUuid),
        ("characteristic", .str sampleUuid)] "\x7b...\x7d",
      .mapping [("event", .str "work_unit"), ("service", .str displacedUuid),
        ("characteristic", .str sampleUuid)] "\x7b...\x7d"]
      "[...]")] "\x7b...\x7d"

theorem displaced_hyphen_accepted :
    (loadEvents doubledEvents).toOption.isSome ∧
      ¬((eventItems doubledEvents).map denotedKey).Nodup ∧
      ¬∀ (a b : Yaml) (s t : String), normaliseUuid a = .ok s → normaliseUuid b = .ok t →
        CanonicalUuid s ∧ CanonicalUuid t ∧ normaliseUuid (.str s) = .ok s ∧
          normaliseUuid (.str t) = .ok t ∧
          (s = t ↔ denotedUuid a.text = denotedUuid b.text) := by
  have hdisplaced : normaliseUuid (.str displacedUuid) = .ok displacedUuid := by
    apply ok_of_toOption
    decide +kernel
  have hsame : denotedUuid sampleUuid = denotedUuid displacedUuid := by decide +kernel
  refine ⟨by decide +kernel, ?_, ?_⟩
  · decide +kernel
  · intro h
    have hforms := h _ _ _ _ normalise_sampleUuid hdisplaced
    exact absurd (hforms.2.2.2.2.mpr hsame) (by decide)

end BleUsageMeter.Gateway
