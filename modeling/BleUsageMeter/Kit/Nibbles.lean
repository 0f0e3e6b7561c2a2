import Mathlib.Data.List.Induction
import Mathlib.Data.Nat.Digits.Defs
import BleUsageMeter.Kit.BigEndian
import BleUsageMeter.Kit.Uuid

/-! Bytes as pairs of hexadecimal digits, the higher one first. -/

namespace Kit

def nibbles (byte : UInt8) : List Nat := [byte.toNat / 16, byte.toNat % 16]

theorem nibbles_ofNat {high low : Nat} (hhigh : high < 16) (hlow : low < 16) :
    nibbles (UInt8.ofNat (16 * high + low)) = [high, low] := by
  have hvalue : (UInt8.ofNat (16 * high + low)).toNat = 16 * high + low := by
    rw [UInt8.toNat_ofNat']
    omega
  have hdiv : (16 * high + low) / 16 = high := by omega
  have hmod : (16 * high + low) % 16 = low := by omega
  rw [nibbles, hvalue, hdiv, hmod]

theorem nibbles_injective {a b : UInt8} (h : nibbles a = nibbles b) : a = b := by
  obtain ⟨hhigh, hrest⟩ := List.cons.inj h
  have hlow := List.head_eq_of_cons_eq hrest
  apply UInt8.toNat_inj.mp
  omega

theorem length_flatMap_nibbles (bytes : List UInt8) :
    (bytes.flatMap nibbles).length = 2 * bytes.length := by
  induction bytes with
  | nil => rfl
  | cons byte bytes ih =>
    rw [List.flatMap_cons, List.length_append, ih, nibbles, List.length_cons]
    simp only [List.length_cons, List.length_nil]
    omega

theorem flatMap_nibbles_injective {a b : List UInt8}
    (h : a.flatMap nibbles = b.flatMap nibbles) : a = b := by
  induction a generalizing b with
  | nil =>
    have hlength := congrArg List.length h
    rw [length_flatMap_nibbles, length_flatMap_nibbles] at hlength
    exact (List.length_eq_zero_iff.mp (by simpa using hlength.symm)).symm
  | cons byte bytes ih =>
    cases b with
    | nil => cases h
    | cons byte' bytes' =>
      rw [List.flatMap_cons, List.flatMap_cons] at h
      obtain ⟨hbyte, hbytes⟩ := List.append_inj h rfl
      rw [nibbles_injective hbyte, ih hbytes]

theorem exists_nibbles {digits : List Nat} (heven : digits.length % 2 = 0)
    (hdigits : ∀ n ∈ digits, n < 16) : ∃ bytes : List UInt8, bytes.flatMap nibbles = digits := by
  match digits, heven with
  | [], _ => exact ⟨[], rfl⟩
  | high :: low :: rest, heven =>
    rw [List.forall_mem_cons, List.forall_mem_cons] at hdigits
    obtain ⟨hhigh, hlow, hrest⟩ := hdigits
    have hlength : rest.length % 2 = 0 := by
      rw [List.length_cons, List.length_cons] at heven
      omega
    obtain ⟨bytes, hbytes⟩ := exists_nibbles hlength hrest
    refine ⟨UInt8.ofNat (16 * high + low) :: bytes, ?_⟩
    rw [List.flatMap_cons, nibbles_ofNat hhigh hlow, hbytes]
    rfl

/-- The digits spell the number that the bytes spell. -/
theorem ofDigits_flatMap_nibbles (bytes : List UInt8) :
    Nat.ofDigits 16 (bytes.flatMap nibbles).reverse = ofBigEndian bytes := by
  induction bytes using List.reverseRecOn with
  | nil => rfl
  | append_singleton bytes byte ih =>
    have hsnoc : ofBigEndian (bytes ++ [byte]) = ofBigEndian bytes * 256 + byte.toNat := by
      rw [ofBigEndian, List.foldl_append]
      rfl
    rw [hsnoc, ← ih, List.flatMap_append, List.reverse_append, Nat.ofDigits_append]
    simp only [List.flatMap_cons, List.flatMap_nil, List.append_nil, nibbles, List.reverse_cons,
      List.reverse_nil, List.nil_append, List.cons_append, Nat.ofDigits_cons, Nat.ofDigits_nil,
      List.length_cons, List.length_nil]
    omega

theorem fromHex_pair {high low : Char} {h l : Nat} (hhigh : hexValue high = some h)
    (hlow : hexValue low = some l) (rest : List Char) : fromHex (high :: low :: rest) =
      (fromHex rest).map (UInt8.ofNat (16 * h + l) :: ·) := by
  rw [fromHex, hhigh, hlow]
  cases fromHex rest <;> rfl

theorem fromHex_pair_error {high low : Char} {rest : List Char}
    (hnone : ∀ h l, hexValue high = some h → hexValue low = some l → False) :
    fromHex (high :: low :: rest) = .error .valueError := by
  unfold fromHex
  split
  · rename_i h l hhigh hlow
    exact (hnone h l hhigh hlow).elim
  · rfl

/-- `bytes.fromhex` reads digits only, and the bytes are what they spell. -/
theorem fromHex_eq_ok_iff {chars : List Char} {bytes : List UInt8} :
    fromHex chars = .ok bytes ↔
      (∀ c ∈ chars, (hexValue c).isSome) ∧ bytes.flatMap nibbles = chars.filterMap hexValue := by
  induction chars using fromHex.induct generalizing bytes with
  | case1 =>
    refine ⟨fun h => ?_, fun h => ?_⟩
    · cases h
      exact ⟨nofun, rfl⟩
    · rw [flatMap_nibbles_injective (b := []) h.2]
      rfl
  | case2 high low rest h l hlow hhigh ih =>
    have hbyte := nibbles_ofNat (hexValue_bounds hhigh).1 (hexValue_bounds hlow).1
    have hvalues :
        (high :: low :: rest).filterMap hexValue = [h, l] ++ rest.filterMap hexValue := by
      rw [List.filterMap_cons_some hhigh, List.filterMap_cons_some hlow]
      rfl
    simp only [fromHex_pair hhigh hlow, hvalues, map_eq_ok, List.forall_mem_cons, hhigh, hlow,
      Option.isSome_some, true_and]
    constructor
    · rintro ⟨tail, htail, rfl⟩
      obtain ⟨hdigits, hspell⟩ := ih.mp htail
      exact ⟨hdigits, by rw [List.flatMap_cons, hbyte, hspell]⟩
    · rintro ⟨hdigits, hspell⟩
      cases bytes with
      | nil => cases hspell
      | cons byte tail =>
        obtain ⟨hfirst, htail⟩ := List.append_inj hspell rfl
        refine ⟨tail, ih.mpr ⟨hdigits, htail⟩, ?_⟩
        rw [nibbles_injective (hfirst.trans hbyte.symm)]
  | case3 high low rest hnone =>
    rw [fromHex_pair_error hnone]
    refine iff_of_false nofun fun h => ?_
    obtain ⟨hdigits, -⟩ := h
    obtain ⟨h, hhigh⟩ := Option.isSome_iff_exists.mp (hdigits high (by simp))
    obtain ⟨l, hlow⟩ := Option.isSome_iff_exists.mp (hdigits low (by simp))
    exact hnone h l hhigh hlow
  | case4 c =>
    refine iff_of_false nofun fun h => ?_
    obtain ⟨hdigits, hspell⟩ := h
    obtain ⟨n, hn⟩ := Option.isSome_iff_exists.mp (hdigits c (by simp))
    have hodd := congrArg List.length hspell
    rw [length_flatMap_nibbles, List.filterMap_cons_some hn, List.filterMap_nil,
      List.length_singleton] at hodd
    omega

/-- An even number of digits is read. -/
theorem exists_fromHex {chars : List Char} (heven : chars.length % 2 = 0)
    (hdigits : ∀ c ∈ chars, (hexValue c).isSome) : ∃ bytes, fromHex chars = .ok bytes := by
  have hlength := List.filterMap_length_eq_length.mpr hdigits
  obtain ⟨bytes, hbytes⟩ := exists_nibbles (hlength ▸ heven) fun n hn => by
    obtain ⟨c, -, hc⟩ := List.mem_filterMap.mp hn
    exact (hexValue_bounds hc).1
  exact ⟨bytes, fromHex_eq_ok_iff.mpr ⟨hdigits, hbytes⟩⟩

end Kit
