import BleUsageMeter.Kit.Uuid
import BleUsageMeter.Firmware.Matcher
import BleUsageMeter.Gateway.Config

/-! UUIDs as the gateway and the firmware have them: a canonical text and its 128 bits determine
each other. -/

namespace BleUsageMeter

open Kit
open Firmware (Uuid128 readUuid uuidFromString)
open Gateway (lower)

namespace Firmware.Uuid128

theorem canonical_text (u : Uuid128) : CanonicalUuid u.text := by
  apply canonical_of_groups (String.toList_ofList ..)
  · simp [u.group_length]
  · simp only [List.forall_mem_cons]
    refine ⟨?_, ?_, ?_, ?_, ?_, by simp⟩ <;> exact fun c hc => mem_group hc

theorem text_injective {u v : Uuid128} (h : u.text = v.text) : u = v := by
  have hread := uuidFromString_text u
  rw [h, uuidFromString_text] at hread
  exact (Option.some.inj hread).symm

end Firmware.Uuid128

theorem exists_uuid_text {s : String} (h : CanonicalUuid s) :
    ∃ u : Uuid128, u.text = s := by
  obtain ⟨a, b, c, d, e, ha, hb, hc, hd, he, hs⟩ := h.exists_bytes
  have hlength : (a ++ b ++ c ++ d ++ e).length = 16 := by
    simp [ha, hb, hc, hd, he]
  refine ⟨⟨⟨(a ++ b ++ c ++ d ++ e).toArray, by simpa using hlength⟩⟩, ?_⟩
  apply String.toList_inj.mp
  rw [hs, Uuid128.text, String.toList_ofList]
  simp only [Uuid128.group, Vector.toList_mk, List.map_cons, List.map_nil]
  congr
  all_goals simp (disch := omega) [List.drop_append, List.drop_eq_nil_of_le,
    List.take_of_length_le, ha, hb, hc, hd]

/-! ### Letter case -/

/-- Lower case changes the capital letters only. -/
theorem toLower_eq_self_or_lt (c : Char) : c.toLower = c ∨ c.toNat < 91 := by
  by_cases h : c.val ≥ 'A'.val ∧ c.val ≤ 'Z'.val
  · have hle : c.toNat ≤ 90 := h.2
    exact .inr (by omega)
  · exact .inl (dif_neg h)

theorem hexValue_toLower (c : Char) : hexValue c.toLower = hexValue c := by
  have hsmall : ∀ n < 91, hexValue (Char.ofNat n).toLower = hexValue (Char.ofNat n) := by decide
  rcases toLower_eq_self_or_lt c with h | h
  · rw [h]
  · simpa using hsmall c.toNat h

theorem toLower_eq_iff {c d : Char} (hd : d = '-' ∨ d = Char.ofNat 0) :
    c.toLower = d ↔ c = d := by
  have hsmall : ∀ n < 91, ((Char.ofNat n).toLower = '-' ↔ Char.ofNat n = '-') ∧
      ((Char.ofNat n).toLower = Char.ofNat 0 ↔ Char.ofNat n = Char.ofNat 0) := by decide
  rcases toLower_eq_self_or_lt c with h | h
  · rw [h]
  · have hc := hsmall c.toNat h
    rw [Char.ofNat_toNat] at hc
    rcases hd with rfl | rfl
    · exact hc.1
    · exact hc.2

theorem readUuid_toLower (chars : List Char) (hi : Option Nat) (out : List UInt8) :
    readUuid (chars.map Char.toLower) hi out = readUuid chars hi out := by
  induction chars generalizing hi out with
  | nil => rfl
  | cons c rest ih =>
    simp only [List.map_cons, readUuid, Firmware.hexNibble, hexValue_toLower,
      toLower_eq_iff (.inl rfl), ih]

/-- The firmware reads a UUID in any letter case. -/
theorem uuidFromString_lower (s : String) : uuidFromString (lower s) = uuidFromString s := by
  have hchars : (lower s).toList.takeWhile (· ≠ Char.ofNat 0) =
      (s.toList.takeWhile (· ≠ Char.ofNat 0)).map Char.toLower := by
    rw [lower, String.toList_map, List.takeWhile_map]
    congr 2
    funext c
    simp only [Function.comp_apply, ne_eq, toLower_eq_iff (.inr rfl)]
  simp only [uuidFromString, hchars, List.length_map, List.foldlM_map, readUuid_toLower,
    Firmware.hexNibble, hexValue_toLower]

/-- A canonical text in any letter case is read as the UUID whose text it is. -/
theorem exists_uuid_of_lower {s : String} (h : CanonicalUuid (lower s)) :
    ∃ u, uuidFromString s = some u ∧ u.text = lower s := by
  obtain ⟨u, hu⟩ := exists_uuid_text h
  refine ⟨u, ?_, hu⟩
  rw [← uuidFromString_lower, ← hu, Firmware.uuidFromString_text]

end BleUsageMeter
