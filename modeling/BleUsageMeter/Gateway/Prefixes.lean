import BleUsageMeter.Gateway.UuidParsers

/-! The payload prefixes that `_parse_prefix` reads.  A setting is a prefix in hexadecimal, and an
empty prefix fits every write; a setting of separators and a `0x` only becomes one. -/

namespace BleUsageMeter.Gateway

open Kit

/-- The text without a leading `0x` of either letter case. -/
def unmarked : List Char → List Char
  | '0' :: 'x' :: rest => rest
  | '0' :: 'X' :: rest => rest
  | chars => chars

/-- What is left of a setting without its blanks and colons and then without a leading `0x`. -/
def remaining (s : String) : List Char := unmarked (s.toList.filter fun c => c ≠ ' ' ∧ c ≠ ':')

/-- The setting is read as the bytes that are left of it, or refused; it is not the empty
prefix. -/
structure PrefixRead (s : String) : Prop where
  accepted : (∃ bytes, parsePrefix (.str s) = .ok bytes) ↔
    remaining s ≠ [] ∧ (remaining s).length % 2 = 0 ∧ ∀ c ∈ remaining s, (hexValue c).isSome
  spelled : ∀ bytes, parsePrefix (.str s) = .ok bytes →
    bytes.flatMap nibbles = (remaining s).filterMap hexValue
  refused : ∀ e, parsePrefix (.str s) = .error e → e = .config (.notHex (.str s))
  bounded : parsePrefix (.str s) ≠ .ok []

/-- A spelling of some bytes: digits of either letter case after a `0x` or none, and blanks and
colons anywhere. -/
def PrefixSpelling (bytes : List UInt8) (s : String) : Prop :=
  ∃ mark ∈ [[], ['0', 'x'], ['0', 'X']], ∃ digits : List Char,
    (s.toList.filter fun c => c ≠ ' ' ∧ c ≠ ':') = mark ++ digits ∧
      (∀ c ∈ digits, (hexValue c).isSome) ∧ digits.filterMap hexValue = bytes.flatMap nibbles

theorem toLower_eq_x_iff {c : Char} : c.toLower = 'x' ↔ c = 'x' ∨ c = 'X' := by
  have hsmall : ∀ n < 91, (Char.ofNat n).toLower = 'x' ↔
      Char.ofNat n = 'x' ∨ Char.ofNat n = 'X' := by decide
  rcases toLower_eq_self_or_lt c with h | h
  · have hne : c ≠ 'X' := by
      rintro rfl
      exact absurd h (by decide)
    rw [h, or_iff_left hne]
  · simpa using hsmall c.toNat h

theorem toLower_eq_zero_iff {c : Char} : c.toLower = '0' ↔ c = '0' := by
  have hsmall : ∀ n < 91, (Char.ofNat n).toLower = '0' ↔ Char.ofNat n = '0' := by decide
  rcases toLower_eq_self_or_lt c with h | h
  · rw [h]
  · simpa using hsmall c.toNat h

/-- The text that the code tests is what is left, in lower case. -/
theorem lower_unmarked (chars : List Char) :
    (if ['0', 'x'].isPrefixOf (chars.map Char.toLower) then (chars.map Char.toLower).drop 2
      else chars.map Char.toLower) = (unmarked chars).map Char.toLower := by
  fun_cases unmarked chars with
  | case1 rest => rfl
  | case2 rest => rfl
  | case3 chars hsmall hcapital =>
    rw [if_neg]
    intro hmark
    obtain ⟨rest, hrest⟩ := List.isPrefixOf_iff_prefix.mp hmark
    obtain ⟨a, tail, rfl, ha, htail⟩ := List.map_eq_cons_iff.mp hrest.symm
    obtain ⟨b, rest', rfl, hb, -⟩ := List.map_eq_cons_iff.mp htail
    obtain rfl := toLower_eq_zero_iff.mp ha
    rcases toLower_eq_x_iff.mp hb with rfl | rfl
    · exact hsmall rest' rfl
    · exact hcapital rest' rfl

theorem filterMap_hexValue_lower (chars : List Char) :
    (chars.map Char.toLower).filterMap hexValue = chars.filterMap hexValue := by
  have hlower : hexValue ∘ Char.toLower = hexValue := funext hexValue_toLower
  rw [List.filterMap_map, hlower]

theorem parsePrefix_str {s : String} (h : s ≠ "") :
    parsePrefix (.str s) =
      if (remaining s).length % 2 ≠ 0 ∨ ¬((remaining s).map Char.toLower).all isHex then
        .error (.config (.notHex (.str s)))
      else (fromHex ((remaining s).map Char.toLower)).mapError .raised := by
  have hlength : (remaining s).length = ((remaining s).map Char.toLower).length := by simp
  rw [hlength, remaining, ← lower_unmarked]
  unfold parsePrefix
  split
  · rename_i hnull
    cases hnull
  · rename_i hempty
    exact absurd (Yaml.str.inj hempty) h
  · rename_i hbytes
    cases hbytes
  · rfl

theorem parsePrefix_empty : parsePrefix (.str "") = .ok [] := rfl

theorem all_isHex_iff (chars : List Char) :
    (chars.map Char.toLower).all isHex ↔ ∀ c ∈ chars, (hexValue c).isSome := by
  rw [List.all_map, List.all_eq_true]
  simp only [Function.comp_apply, isHex_toLower]

/-- An even number of digits is read, and nothing else is. -/
theorem parsePrefix_eq_ok_iff {s : String} (h : s ≠ "") {bytes : List UInt8} :
    parsePrefix (.str s) = .ok bytes ↔ (∀ c ∈ remaining s, (hexValue c).isSome) ∧
      bytes.flatMap nibbles = (remaining s).filterMap hexValue := by
  have hread : fromHex ((remaining s).map Char.toLower) = .ok bytes ↔ _ := fromHex_eq_ok_iff
  rw [filterMap_hexValue_lower, List.forall_mem_map] at hread
  simp only [hexValue_toLower] at hread
  rw [parsePrefix_str h, ← hread]
  split
  · rename_i hother
    refine iff_of_false nofun fun hok => ?_
    obtain ⟨hdigits, hspell⟩ := hread.mp hok
    rcases hother with hodd | hchars
    · have hlength := congrArg List.length hspell
      rw [length_flatMap_nibbles, List.filterMap_length_eq_length.mpr hdigits] at hlength
      omega
    · exact hchars ((all_isHex_iff _).mpr hdigits)
  · cases fromHex ((remaining s).map Char.toLower) with
    | error e => exact iff_of_false nofun nofun
    | ok bytes' => rw [Except.mapError, Except.ok.injEq, Except.ok.injEq]

theorem parsePrefix_accepts_iff {s : String} (h : s ≠ "") :
    (∃ bytes, parsePrefix (.str s) = .ok bytes) ↔
      (remaining s).length % 2 = 0 ∧ ∀ c ∈ remaining s, (hexValue c).isSome := by
  simp only [parsePrefix_eq_ok_iff h]
  constructor
  · rintro ⟨bytes, hdigits, hspell⟩
    have hlength := congrArg List.length hspell
    rw [length_flatMap_nibbles, List.filterMap_length_eq_length.mpr hdigits] at hlength
    exact ⟨by omega, hdigits⟩
  · rintro ⟨heven, hdigits⟩
    obtain ⟨bytes, hbytes⟩ := exists_fromHex heven hdigits
    exact ⟨bytes, fromHex_eq_ok_iff.mp hbytes⟩

theorem remaining_spelled {bytes : List UInt8} {s : String} (h : PrefixSpelling bytes s) :
    (∀ c ∈ remaining s, (hexValue c).isSome) ∧
      bytes.flatMap nibbles = (remaining s).filterMap hexValue := by
  obtain ⟨mark, hmark, digits, hs, hdigits, hspell⟩ := h
  have hrest : remaining s = digits := by
    rw [remaining, hs]
    simp only [List.mem_cons, List.not_mem_nil, or_false] at hmark
    rcases hmark with rfl | rfl | rfl
    · rw [List.nil_append]
      fun_cases unmarked digits with
      | case1 rest => exact absurd (hdigits 'x' (by simp)) (by decide)
      | case2 rest => exact absurd (hdigits 'X' (by simp)) (by decide)
      | case3 => rfl
    · rfl
    · rfl
  rw [hrest]
  exact ⟨hdigits, hspell.symm⟩

theorem parsePrefix_spelled {bytes : List UInt8} {s : String} (h : PrefixSpelling bytes s) :
    parsePrefix (.str s) = .ok bytes := by
  have hrest := remaining_spelled h
  by_cases hs : s = ""
  · subst hs
    have hnil : bytes = [] := flatMap_nibbles_injective hrest.2
    rw [hnil, parsePrefix_empty]
  · exact (parsePrefix_eq_ok_iff hs).mpr hrest

theorem parsePrefix_nil_iff {s : String} : parsePrefix (.str s) = .ok [] ↔ remaining s = [] := by
  by_cases hs : s = ""
  · subst hs
    exact iff_of_true rfl rfl
  · rw [parsePrefix_eq_ok_iff hs]
    constructor
    · rintro ⟨hdigits, hspell⟩
      have hlength := List.filterMap_length_eq_length.mpr hdigits
      rw [← hspell] at hlength
      exact List.length_eq_zero_iff.mp hlength.symm
    · intro hnil
      rw [hnil]
      exact ⟨nofun, rfl⟩

/-- A setting is read as it should be exactly when something is left of it; and every spelling of
some bytes is read as these bytes. -/
theorem prefixRead_iff (s : String) :
    (PrefixRead s ↔ remaining s ≠ []) ∧
      ∀ bytes, PrefixSpelling bytes s → parsePrefix (.str s) = .ok bytes := by
  refine ⟨⟨fun h hnil => h.bounded (parsePrefix_nil_iff.mpr hnil), fun hne => ?_⟩,
    fun bytes => parsePrefix_spelled⟩
  have hs : s ≠ "" := by
    rintro rfl
    exact hne rfl
  refine ⟨?_, fun bytes hbytes => ((parsePrefix_eq_ok_iff hs).mp hbytes).2,
    fun e => parsePrefix_error, fun hnil => hne (parsePrefix_nil_iff.mp hnil)⟩
  rw [parsePrefix_accepts_iff hs]
  exact ⟨fun h => ⟨hne, h⟩, And.right⟩

/-- A `0x` alone becomes the prefix that fits every write of the characteristic, and so do
separators. -/
theorem bare_mark_matches_any :
    (parsePrefix (.str "0x") = .ok [] ∧ ¬PrefixRead "0x") ∧
      (parsePrefix (.str " : ") = .ok [] ∧ ¬PrefixRead " : ") := by
  have hnil : ∀ {s : String}, remaining s = [] →
      parsePrefix (.str s) = .ok [] ∧ ¬PrefixRead s :=
    fun hrest => ⟨parsePrefix_nil_iff.mpr hrest, fun h => h.bounded (parsePrefix_nil_iff.mpr hrest)⟩
  exact ⟨hnil (by decide), hnil (by decide)⟩

end BleUsageMeter.Gateway
