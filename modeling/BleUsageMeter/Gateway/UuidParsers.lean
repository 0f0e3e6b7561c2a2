import BleUsageMeter.Gateway.UuidForms
import BleUsageMeter.Kit.Nibbles

/-! The UUIDs of an event mapping as `gateway/config.py` and `firmware/esp32/event_matcher.cpp` read
them.  "Both sides must agree on what counts": they do on four digits and on 32 digits with four
hyphens, and they differ on eight digits, on other numbers of hyphens and behind a NUL. -/

namespace BleUsageMeter

open Kit

/-! ### The reader of the firmware -/

namespace Firmware

/-- Only digits, of either letter case, and hyphens. -/
def Dashed (chars : List Char) : Prop := ∀ c ∈ chars, c = '-' ∨ (hexValue c).isSome

theorem readUuid_nil_eq (hi : Option Nat) (out : List UInt8) (u : Uuid128) :
    readUuid [] hi out = some u ↔
      u.b.toList.flatMap nibbles = out.flatMap nibbles ++ hi.toList := by
  have hsixteen : u.b.toList.length = 16 := Vector.length_toList
  constructor
  · intro h
    rw [readUuid] at h
    split at h
    · split at h
      · rename_i hlength hnone
        obtain rfl := Option.some.inj h
        rw [hnone, Option.toList_none, List.append_nil]
        rfl
      · cases h
    · cases h
  · intro h
    have hlength := congrArg List.length h
    rw [List.length_append, length_flatMap_nibbles, length_flatMap_nibbles, hsixteen] at hlength
    cases hi with
    | some d =>
      rw [Option.toList_some, List.length_singleton] at hlength
      omega
    | none =>
      rw [Option.toList_none, List.append_nil] at h
      obtain rfl := flatMap_nibbles_injective h
      rw [readUuid, dif_pos hsixteen, if_pos rfl]
      rfl

/-- The loop reads digits and hyphens only, and the bytes are what all digits spell. -/
theorem readUuid_eq_some_iff {chars : List Char} {hi : Option Nat} {out : List UInt8}
    {u : Uuid128} (hhi : ∀ d ∈ hi, d < 16) : readUuid chars hi out = some u ↔
      Dashed chars ∧ u.b.toList.flatMap nibbles =
        out.flatMap nibbles ++ hi.toList ++ chars.filterMap hexValue := by
  induction chars generalizing hi out with
  | nil =>
    rw [readUuid_nil_eq, List.filterMap_nil, List.append_nil]
    exact ⟨fun h => ⟨List.forall_mem_nil _, h⟩, And.right⟩
  | cons c rest ih =>
    rw [Dashed, List.forall_mem_cons]
    by_cases hhyphen : c = '-'
    · subst hhyphen
      rw [readUuid_hyphen, ih hhi, List.filterMap_cons_none rfl]
      simp [Dashed]
    · cases hvalue : hexValue c with
      | none =>
        simp [readUuid, hhyphen, hexNibble, hvalue]
      | some d =>
        have hd := (hexValue_bounds hvalue).1
        rw [List.filterMap_cons_some hvalue]
        cases hi with
        | none =>
          have hstep : readUuid (c :: rest) none out = readUuid rest (some d) out := by
            simp [readUuid, hhyphen, hexNibble, hvalue]
          rw [hstep, ih (by simpa using hd)]
          simp [Dashed]
        | some hi =>
          have hbyte := nibbles_ofNat (hhi hi rfl) hd
          by_cases hfull : 16 ≤ out.length
          · have hstep : readUuid (c :: rest) (some hi) out = none := by
              simp [readUuid, hhyphen, hexNibble, hvalue, hfull]
            rw [hstep]
            refine iff_of_false (by simp) fun h => ?_
            have hlength := congrArg List.length h.2
            simp only [List.length_append, length_flatMap_nibbles, Vector.length_toList,
              Option.toList_some, List.length_cons] at hlength
            omega
          · have hstep : readUuid (c :: rest) (some hi) out =
                readUuid rest none (out ++ [UInt8.ofNat (16 * hi + d)]) := by
              simp [readUuid, hhyphen, hexNibble, hvalue, hfull]
            rw [hstep, ih (by simp), List.flatMap_append, List.flatMap_singleton, hbyte]
            simp [Dashed]

/-- The number whose big-endian bytes these are. -/
def Uuid128.value (u : Uuid128) : Nat := ofBigEndian u.b.toList

theorem value_uuidFrom16 {v : Nat} (h : v < 2 ^ 16) :
    (uuidFrom16 (UInt16.ofNat v)).value = v * 2 ^ 96 + 0x00001000800000805F9B34FB := by
  have hbytes : (uuidFrom16 (UInt16.ofNat v)).b.toList = ([0x00, 0x00,
      (UInt16.ofNat v >>> 8).toUInt8, (UInt16.ofNat v).toUInt8, 0x00, 0x00, 0x10, 0x00, 0x80, 0x00,
      0x00, 0x80, 0x5F, 0x9B, 0x34, 0xFB] : List UInt8) := rfl
  have hword : (UInt16.ofNat v).toNat = v := UInt16.toNat_ofNat_of_lt' h
  have hhigh : (UInt16.ofNat v >>> 8).toUInt8.toNat = v / 256 := by
    rw [UInt16.toNat_toUInt8, UInt16.toNat_shiftRight, hword]
    simp [Nat.shiftRight_eq_div_pow]
    omega
  have hlow : (UInt16.ofNat v).toUInt8.toNat = v % 256 := by
    rw [UInt16.toNat_toUInt8, hword]
  simp only [Uuid128.value, hbytes, ofBigEndian, List.foldl_cons, List.foldl_nil, hhigh, hlow]
  simp
  omega

/-- The number of four digits, with the digits before them. -/
theorem foldlM_hexNibble {chars : List Char} {acc v : Nat} :
    chars.foldlM (fun v c => (hexNibble c).map fun d => 16 * v + d) acc = some v ↔
      (∀ c ∈ chars, (hexValue c).isSome) ∧
        v = 16 ^ chars.length * acc + Nat.ofDigits 16 (chars.filterMap hexValue).reverse := by
  induction chars generalizing acc with
  | nil =>
    rw [List.foldlM_nil, Option.pure_def, Option.some_inj, List.length_nil, Nat.pow_zero,
      Nat.one_mul]
    exact ⟨fun h => ⟨List.forall_mem_nil _, h.symm⟩, fun h => h.2.symm⟩
  | cons c rest ih =>
    rw [List.foldlM_cons, List.forall_mem_cons, hexNibble]
    cases hvalue : hexValue c with
    | none => simp
    | some d =>
      rw [Option.map_some, Option.bind_eq_bind, Option.bind_some, ih,
        List.filterMap_cons_some hvalue]
      simp only [Option.isSome_some, true_and]
      refine and_congr_right fun hdigits => ?_
      have hlength : (rest.filterMap hexValue).length = rest.length :=
        List.filterMap_length_eq_length.mpr hdigits
      rw [List.reverse_cons, Nat.ofDigits_append, Nat.ofDigits_singleton, List.length_reverse,
        hlength, List.length_cons, Nat.pow_succ, Nat.mul_add, ← Nat.mul_assoc, Nat.mul_comm _ d]
      omega

/-- The characters before the first NUL, which are all that a C string has. -/
def untilNul (s : String) : List Char := s.toList.takeWhile (· ≠ Char.ofNat 0)

/-- Four digits, or 32 with hyphens anywhere. -/
def ReadableForm (chars : List Char) : Prop :=
  (chars.length = 4 ∧ ∀ c ∈ chars, (hexValue c).isSome) ∨
    Dashed chars ∧ (chars.filterMap hexValue).length = 32

theorem uuidFromString_short {s : String} (h : (untilNul s).length = 4) :
    uuidFromString s = ((untilNul s).foldlM
      (fun v c => (hexNibble c).map fun d => 16 * v + d) 0).map fun v =>
        uuidFrom16 (UInt16.ofNat v) :=
  if_pos h

theorem uuidFromString_long {s : String} (h : (untilNul s).length ≠ 4) :
    uuidFromString s = readUuid (untilNul s) none [] :=
  if_neg h

theorem length_digits_le (chars : List Char) :
    (chars.filterMap hexValue).length ≤ chars.length :=
  List.length_filterMap_le _ _

theorem Dashed.digits_length {chars : List Char} (h : Dashed chars) :
    (chars.filterMap hexValue).length = chars.countP (· ≠ '-') := by
  rw [List.length_filterMap_eq_countP]
  apply List.countP_congr
  intro c hc
  rcases h c hc with rfl | hdigit
  · decide
  · have hne : c ≠ '-' := by
      rintro rfl
      cases hdigit
    simp [hdigit, hne]

/-- Every character is a hyphen or a digit. -/
theorem Dashed.length {chars : List Char} (h : Dashed chars) :
    chars.length = chars.count '-' + (chars.filterMap hexValue).length := by
  rw [h.digits_length, List.length_eq_countP_add_countP (· == '-'), List.count]
  congr 2
  funext c
  simp

theorem uuidFromString_isSome_iff (s : String) :
    (∃ u, uuidFromString s = some u) ↔ ReadableForm (untilNul s) := by
  by_cases hfour : (untilNul s).length = 4
  · have hle := length_digits_le (untilNul s)
    rw [uuidFromString_short hfour]
    simp only [Option.map_eq_some_iff, foldlM_hexNibble]
    constructor
    · rintro ⟨-, -, ⟨hdigits, -⟩, -⟩
      exact .inl ⟨hfour, hdigits⟩
    · rintro (⟨-, hdigits⟩ | ⟨-, hlong⟩)
      · exact ⟨_, _, ⟨hdigits, rfl⟩, rfl⟩
      · omega
  · rw [uuidFromString_long hfour]
    constructor
    · rintro ⟨u, hu⟩
      obtain ⟨hdashed, hspell⟩ := (readUuid_eq_some_iff (by simp)).mp hu
      have hlength := congrArg List.length hspell
      rw [length_flatMap_nibbles, Vector.length_toList] at hlength
      exact .inr ⟨hdashed, by simpa using hlength.symm⟩
    · rintro (⟨hshort, -⟩ | ⟨hdashed, hlong⟩)
      · exact absurd hshort hfour
      · apply Option.isSome_iff_exists.mp
        apply readUuid_isSome hdashed
        rw [← hdashed.digits_length, hlong]
        rfl

/-- What is read is what the digits denote. -/
theorem uuidFromString_value {s : String} {u : Uuid128} (hnul : untilNul s = s.toList)
    (h : uuidFromString s = some u) : u.value = Gateway.denotedUuid s := by
  by_cases hfour : (untilNul s).length = 4
  · rw [uuidFromString_short hfour] at h
    obtain ⟨v, hv, rfl⟩ := Option.map_eq_some_iff.mp h
    obtain ⟨hdigits, hvalue⟩ := foldlM_hexNibble.mp hv
    rw [hnul] at hfour hdigits hvalue
    rw [Nat.mul_zero, Nat.zero_add] at hvalue
    have hlength : (uuidDigits s).length = 4 :=
      (List.filterMap_length_eq_length.mpr hdigits).trans hfour
    have hlt : v < 2 ^ 16 := by
      have hbound := Nat.ofDigits_lt_base_pow_length (b := 16) (l := (uuidDigits s).reverse)
        (by decide) fun n hn => uuidDigits_lt n (List.mem_reverse.mp hn)
      rw [List.length_reverse, hlength] at hbound
      rw [hvalue]
      exact hbound
    rw [value_uuidFrom16 hlt, hvalue, Gateway.denotedUuid]
    simp only [hlength, true_or, if_true]
    rfl
  · rw [uuidFromString_long hfour, hnul] at h
    obtain ⟨-, hspell⟩ := (readUuid_eq_some_iff (by simp)).mp h
    rw [List.flatMap_nil, Option.toList_none, List.nil_append, List.nil_append] at hspell
    have hlength := congrArg List.length hspell
    rw [length_flatMap_nibbles, Vector.length_toList] at hlength
    have hlong : (uuidDigits s).length = 32 := hlength.symm
    rw [Uuid128.value, ← ofDigits_flatMap_nibbles, hspell, Gateway.denotedUuid]
    simp only [hlong]
    rfl

end Firmware

namespace Gateway

open Firmware (Dashed ReadableForm untilNul uuidFromString Uuid128)

/-! ### The reader of the gateway -/

theorem isHex_toLower (c : Char) : isHex c.toLower = (hexValue c).isSome := by
  have hsmall : ∀ n < 128, isHex (Char.ofNat n).toLower = (hexValue (Char.ofNat n)).isSome := by
    decide
  rcases Nat.lt_or_ge c.toNat 128 with hlt | hge
  · simpa using hsmall c.toNat hlt
  · have hnone : ∀ d : Char, 128 ≤ d.toNat → hexValue d = none := by
      intro d hd
      cases hvalue : hexValue d with
      | none => rfl
      | some n =>
        have hbounds := hexValue_bounds hvalue
        omega
    have hsame : c.toLower = c := (toLower_eq_self_or_lt c).resolve_right (by omega)
    rw [hsame, hnone c hge, Option.isSome_none, Bool.eq_false_iff]
    intro hhex
    have hsome := hexValue_isSome c (isHex_iff.mp hhex)
    rw [hnone c hge] at hsome
    cases hsome

theorem all_isHex_lower (s : String) :
    (lower s).toList.all isHex ↔ ∀ c ∈ s.toList, (hexValue c).isSome := by
  rw [lower, String.toList_map, List.all_map, List.all_eq_true]
  simp only [Function.comp_apply, isHex_toLower]

theorem all_dashed_lower (s : String) :
    ((lower s).toList.all fun c => isHex c || c == '-') ↔ Dashed s.toList := by
  rw [lower, String.toList_map, List.all_map, List.all_eq_true]
  refine forall₂_congr fun c _ => ?_
  simp only [Function.comp_apply, isHex_toLower, Bool.or_eq_true, beq_iff_eq,
    toLower_eq_iff (.inl rfl), or_comm]

theorem count_hyphen_lower (s : String) : (lower s).toList.count '-' = s.toList.count '-' := by
  rw [lower, String.toList_map, List.count_eq_countP, List.count_eq_countP, List.countP_map]
  refine List.countP_congr fun c _ => ?_
  simp only [Function.comp_apply, beq_iff_eq, toLower_eq_iff (.inl rfl)]

/-- Four or eight digits, or 32 with four hyphens anywhere. -/
def NormalisableForm (s : String) : Prop :=
  ((s.length = 4 ∨ s.length = 8) ∧ ∀ c ∈ s.toList, (hexValue c).isSome) ∨
    Dashed s.toList ∧ s.length = uuidLen ∧ s.toList.count '-' = 4

theorem normaliseUuid_ok_iff {s : String} (h : strip s = s) :
    (∃ t, normaliseUuid (.str s) = .ok t) ↔ NormalisableForm s := by
  have hlength := lower_length s
  have hdigits := all_isHex_lower s
  have hdashed := all_dashed_lower s
  have hcount := count_hyphen_lower s
  simp only [normaliseUuid, Yaml.text, h]
  generalize lower s = low at hlength hdigits hdashed hcount ⊢
  rw [NormalisableForm, ← hlength, ← hdigits, ← hdashed, ← hcount]
  by_cases hfour : low.length = 4 ∧ low.toList.all isHex
  · rw [if_pos hfour]
    exact iff_of_true ⟨_, rfl⟩ (.inl ⟨.inl hfour.1, hfour.2⟩)
  · rw [if_neg hfour]
    by_cases height : low.length = 8 ∧ low.toList.all isHex
    · rw [if_pos height]
      exact iff_of_true ⟨_, rfl⟩ (.inl ⟨.inr height.1, height.2⟩)
    · rw [if_neg height]
      have hshort : ¬((low.length = 4 ∨ low.length = 8) ∧ low.toList.all isHex) := by
        rintro ⟨hfour' | height', hall⟩
        · exact hfour ⟨hfour', hall⟩
        · exact height ⟨height', hall⟩
      by_cases hother : low.length ≠ uuidLen ∨ low.toList.count '-' ≠ 4
      · rw [if_pos hother]
        refine iff_of_false (by simp) ?_
        rintro (hform | ⟨-, hfull⟩)
        · exact hshort hform
        · exact hother.elim (· hfull.1) (· hfull.2)
      · rw [if_neg hother]
        rw [not_or, not_not, not_not] at hother
        by_cases hall : low.toList.all fun c => isHex c || c == '-'
        · rw [if_neg (not_not.mpr hall)]
          exact iff_of_true ⟨_, rfl⟩ (.inr ⟨hall, hother⟩)
        · rw [if_pos hall]
          refine iff_of_false (by simp) ?_
          rintro (hform | ⟨hall', -⟩)
          · exact hshort hform
          · exact hall hall'

/-! ### Both readers -/

/-- Both accept the text or neither does, and what both accept is the same 128 bits. -/
structure ReadAlike (s : String) : Prop where
  accepted : (∃ t, normaliseUuid (.str s) = .ok t) ↔ ∃ u, uuidFromString s = some u
  value : ∀ t u, normaliseUuid (.str s) = .ok t → uuidFromString s = some u →
    denotedUuid t = u.value

/-- What both accept is the UUID of the same attributes: the gateway compares texts and the
firmware bytes. -/
def SelectAlike (s : String) : Prop :=
  ∀ t u, normaliseUuid (.str s) = .ok t → uuidFromString s = some u →
    ∀ observed : Uuid128, t = observed.text ↔ u = observed

/-- Not eight digits, no other number of hyphens than four among 32 digits, and nothing behind a
NUL that ends what the firmware accepts. -/
structure CommonForm (s : String) : Prop where
  eight : ¬(s.length = 8 ∧ ∀ c ∈ s.toList, (hexValue c).isSome)
  hyphens : Dashed s.toList → (uuidDigits s).length = 32 → s.toList.count '-' = 4
  terminated : Char.ofNat 0 ∈ s.toList → ¬ReadableForm (untilNul s)

theorem untilNul_eq {s : String} (h : Char.ofNat 0 ∉ s.toList) : untilNul s = s.toList := by
  apply List.takeWhile_eq_self_iff.mpr
  intro c hc
  have hne : c ≠ Char.ofNat 0 := fun e => h (e ▸ hc)
  simpa using hne

theorem NormalisableForm.dashed {s : String} (h : NormalisableForm s) : Dashed s.toList := by
  rcases h with ⟨-, hdigits⟩ | ⟨hdashed, -⟩
  · exact fun c hc => .inr (hdigits c hc)
  · exact hdashed

theorem nul_notMem_of_dashed {s : String} (h : Dashed s.toList) : Char.ofNat 0 ∉ s.toList := by
  intro hmem
  rcases h _ hmem with hnul | hnul <;> exact absurd hnul (by decide)

/-- A full form has 32 digits when it has four hyphens. -/
theorem length_iff_hyphens {s : String} (h : Dashed s.toList)
    (hdigits : (uuidDigits s).length = 32) : s.length = uuidLen ↔ s.toList.count '-' = 4 := by
  have hlength := h.length
  rw [String.length_toList, ← uuidDigits, hdigits] at hlength
  rw [hlength, uuidLen]
  omega

theorem digits_of_full {s : String} (h : Dashed s.toList) (hfull : s.length = uuidLen)
    (hcount : s.toList.count '-' = 4) : (uuidDigits s).length = 32 := by
  have hlength := h.length
  rw [String.length_toList, ← uuidDigits, hfull, hcount, uuidLen] at hlength
  omega

theorem commonForm_iff (s : String) :
    (NormalisableForm s ↔ ReadableForm (untilNul s)) ↔ CommonForm s := by
  by_cases hnul : Char.ofNat 0 ∈ s.toList
  · have hother : ¬NormalisableForm s := fun h => nul_notMem_of_dashed h.dashed hnul
    have hdashed : ¬Dashed s.toList := fun h => nul_notMem_of_dashed h hnul
    rw [iff_false_left hother]
    refine ⟨fun h => ⟨?_, fun h' => absurd h' hdashed, fun _ => h⟩, fun h => h.terminated hnul⟩
    exact fun height => hdashed fun c hc => .inr (height.2 c hc)
  · have hle := Firmware.length_digits_le s.toList
    rw [String.length_toList] at hle
    rw [untilNul_eq hnul]
    constructor
    · intro h
      refine ⟨?_, ?_, fun h' => absurd h' hnul⟩
      · rintro ⟨height, hdigits⟩
        rcases h.mp (.inl ⟨.inr height, hdigits⟩) with ⟨hfour, -⟩ | ⟨-, hlong⟩
        · rw [String.length_toList] at hfour
          omega
        · omega
      · intro hdashed hlong
        rcases h.mpr (.inr ⟨hdashed, hlong⟩) with ⟨hshort, -⟩ | ⟨-, -, hcount⟩
        · rw [uuidDigits] at hlong
          omega
        · exact hcount
    · rintro ⟨height, hhyphens, -⟩
      constructor
      · rintro (⟨hfour | height', hdigits⟩ | ⟨hdashed, hfull, hcount⟩)
        · exact .inl ⟨String.length_toList.trans hfour, hdigits⟩
        · exact absurd ⟨height', hdigits⟩ height
        · exact .inr ⟨hdashed, digits_of_full hdashed hfull hcount⟩
      · rintro (⟨hfour, hdigits⟩ | ⟨hdashed, hlong⟩)
        · exact .inl ⟨.inl (String.length_toList.symm.trans hfour), hdigits⟩
        · have hcount := hhyphens hdashed hlong
          exact .inr ⟨hdashed, (length_iff_hyphens hdashed hlong).mpr hcount, hcount⟩

/-- What both accept has no NUL. -/
theorem value_of_accepted {s t : String} {u : Uuid128} (h : strip s = s)
    (ht : normaliseUuid (.str s) = .ok t) (hu : uuidFromString s = some u) :
    denotedUuid t = u.value := by
  have hform := (normaliseUuid_ok_iff h).mp ⟨t, ht⟩
  have hnul := untilNul_eq (nul_notMem_of_dashed hform.dashed)
  rw [Firmware.uuidFromString_value hnul hu]
  exact denotedUuid_normalised ht

theorem readAlike_iff_common {s : String} (h : strip s = s) : ReadAlike s ↔ CommonForm s := by
  rw [← commonForm_iff, ← normaliseUuid_ok_iff h, ← Firmware.uuidFromString_isSome_iff]
  exact ⟨ReadAlike.accepted, fun haccepted => ⟨haccepted, fun t u => value_of_accepted h⟩⟩

/-- The canonical text of the gateway is the text of the bytes of the firmware. -/
theorem eq_text_of_canonical {s t : String} {u : Uuid128} (h : strip s = s)
    (ht : normaliseUuid (.str s) = .ok t) (hu : uuidFromString s = some u)
    (hcanonical : CanonicalUuid t) : t = u.text := by
  have hread := Firmware.uuidFromString_text u
  have hnul := nul_notMem_of_dashed fun c hc =>
    (u.text_spells.digits c hc).imp_right (hexValue_isSome c)
  apply denotedUuid_injective hcanonical u.canonical_text
  rw [value_of_accepted h ht hu, Firmware.uuidFromString_value (untilNul_eq hnul) hread]

theorem selectAlike_iff {s : String} (h : strip s = s) (hcommon : CommonForm s) :
    SelectAlike s ↔ (Dashed s.toList → (uuidDigits s).length = 32 → Placed s) := by
  constructor
  · intro hselect hdashed hlong
    have hform := (commonForm_iff s).mpr hcommon
    have hread : ReadableForm (untilNul s) := by
      rw [untilNul_eq (nul_notMem_of_dashed hdashed)]
      exact .inr ⟨hdashed, hlong⟩
    obtain ⟨t, ht⟩ := (normaliseUuid_ok_iff h).mpr (hform.mpr hread)
    obtain ⟨u, hu⟩ := (Firmware.uuidFromString_isSome_iff s).mpr hread
    obtain rfl := (hselect t u ht hu u).mpr rfl
    exact (canonical_iff_placed ht).mp u.canonical_text
  · intro hplaced t u ht hu observed
    have hcanonical : CanonicalUuid t := by
      rw [canonical_iff_placed ht]
      rcases (normaliseUuid_ok_iff h).mp ⟨t, ht⟩ with ⟨hshort, -⟩ | ⟨hdashed, hfull, hcount⟩
      · intro hfull
        rw [Yaml.text, h, uuidLen] at hfull
        omega
      · exact hplaced hdashed (digits_of_full hdashed hfull hcount)
    rw [eq_text_of_canonical h ht hu hcanonical]
    exact ⟨Uuid128.text_injective, congrArg Uuid128.text⟩

/-- The readers agree on the texts of a common form, and then also on the attributes that they
select where a full form has its hyphens in their places. -/
theorem readAlike_iff {s : String} (h : strip s = s) :
    (ReadAlike s ↔ CommonForm s) ∧
      (ReadAlike s ∧ SelectAlike s ↔ CommonForm s ∧
        (Dashed s.toList → (uuidDigits s).length = 32 → Placed s)) := by
  rw [readAlike_iff_common h]
  exact ⟨Iff.rfl, and_congr_right (selectAlike_iff h)⟩

/-- A short form, and the full form of the example. -/
theorem readAlike_iff_sample :
    ReadAlike "fff0" ∧ ReadAlike sampleUuid ∧ SelectAlike sampleUuid := by
  have hnul : ∀ {s : String}, (s.toList.all fun c => decide (c ≠ Char.ofNat 0)) →
      Char.ofNat 0 ∉ s.toList :=
    fun hall hmem => forall_of_all hall _ hmem rfl
  have hstrip : strip sampleUuid = sampleUuid := by decide +kernel
  have hcommon : CommonForm sampleUuid :=
    ⟨fun h => absurd h.1 (by decide), fun _ _ => by decide, fun h => absurd h (hnul (by decide))⟩
  have hplaced : Placed sampleUuid := by
    rw [Placed, hstrip]
    exact fun _ => forall_of_all (by decide)
  constructor
  · refine (readAlike_iff (by decide +kernel)).1.mpr ⟨fun h => absurd h.1 (by decide), ?_, ?_⟩
    · exact fun _ hlong => absurd hlong (by decide)
    · exact fun h => absurd h (hnul (by decide))
  · exact (readAlike_iff hstrip).2.mpr ⟨hcommon, fun _ _ => hplaced⟩

/-- The gateway alone takes eight digits, and the firmware alone takes 32 without a hyphen and
what stands before a NUL. -/
theorem parsers_disagree :
    (uuidFromString "0000fff0" = none ∧ ¬ReadAlike "0000fff0") ∧
      ((uuidFromString "0000fff000001000800000805f9b34fb").isSome ∧
        ¬ReadAlike "0000fff000001000800000805f9b34fb") ∧
      ((uuidFromString "fff0\x00-").isSome ∧ ¬ReadAlike "fff0\x00-") := by
  have hdiffer : ∀ {s : String}, strip s = s → ¬CommonForm s → ¬ReadAlike s :=
    fun hstrip hother h => hother ((readAlike_iff_common hstrip).mp h)
  refine ⟨⟨by decide +kernel, ?_⟩, ⟨by decide +kernel, ?_⟩, ⟨by decide +kernel, ?_⟩⟩
  · refine hdiffer (by decide +kernel) fun h => h.eight ⟨by decide, ?_⟩
    exact forall_of_all (by decide)
  · refine hdiffer (by decide +kernel) fun h => ?_
    exact absurd (h.hyphens (forall_of_all (by decide)) (by decide)) (by decide)
  · refine hdiffer (by decide +kernel) fun h => h.terminated (by decide) (.inl ⟨by decide, ?_⟩)
    exact forall_of_all (by decide)

end Gateway

end BleUsageMeter
