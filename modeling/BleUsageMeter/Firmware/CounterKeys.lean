import BleUsageMeter.Kit.Text
import BleUsageMeter.Firmware.Storage

/-! The keys of the counts: "hash the device id into a short stable key".  Two devices share a key
exactly when their hashes are equal, and then the count of one passes for the count of the other. -/

namespace BleUsageMeter.Firmware

open Kit

/-- The number that some hexadecimal digits spell. -/
def readHex (text : List Char) : Nat :=
  text.foldl (fun n c => 16 * n + (hexValue c).getD 0) 0

theorem hexValue_digitChar : ∀ d : Fin 16, hexValue (Nat.digitChar d) = some d.val := by decide

theorem readHex_toDigits (n : Nat) : readHex (Nat.toDigits 16 n) = n := by
  induction n using Nat.strong_induction_on with
  | _ n ih =>
    rcases Nat.lt_or_ge n 16 with hlt | hge
    · rw [Nat.toDigits_of_lt_base hlt]
      simp [readHex, hexValue_digitChar ⟨n, hlt⟩]
    · have hlast : hexValue (Nat.digitChar (n % 16)) = some (n % 16) :=
        hexValue_digitChar ⟨n % 16, Nat.mod_lt n (by decide)⟩
      have hread := ih (n / 16) (by omega)
      rw [readHex] at hread
      rw [Nat.toDigits_of_base_le (by decide) hge, readHex, List.foldl_append, hread,
        List.foldl_cons, List.foldl_nil, hlast, Option.getD_some]
      omega

/-- Leading zeros do not change the number. -/
theorem readHex_digits (width n : Nat) : readHex (digits 16 width n) = n := by
  have hzeros : ∀ k, (List.replicate k '0').foldl
      (fun n c => 16 * n + (hexValue c).getD 0) 0 = 0 := by
    intro k
    induction k with
    | zero => rfl
    | succ k ih => rw [List.replicate_succ', List.foldl_append, ih]; rfl
  have hread := readHex_toDigits n
  unfold readHex at hread ⊢
  rw [digits, List.foldl_append, hzeros, hread]

/-- Two devices have the same key exactly when their hashes are equal. -/
theorem counterKey_eq_iff {d1 d2 : String} :
    counterKey d1 = counterKey d2 ↔ fnv1a (utf8 d1) = fnv1a (utf8 d2) := by
  constructor
  · intro h
    have hdigits := List.tail_eq_of_cons_eq (String.ofList_injective h)
    have hread := congrArg readHex hdigits
    rw [readHex_digits, readHex_digits] at hread
    exact UInt32.toNat_inj.mp hread
  · intro h
    rw [counterKey, h]
    rfl

namespace Storage

variable {s : Storage} {d1 d2 : String} {c : Nat}

/-- Saving a count for `d1` changes nothing for `d2`: neither the count that is loaded nor that a
count which is no lower can be saved. -/
structure Spares (s : Storage) (d1 : String) (c : Nat) (d2 : String) : Prop where
  load : (s.saveCounter d1 c .success).2.loadCounter d2 .success = s.loadCounter d2 .success
  save : ∀ stored c2, s.loadCounter d2 .success = .ok stored → stored ≤ c2 →
    ((s.saveCounter d1 c .success).2.saveCounter d2 c2 .success).1 ≠ .error .invalidArg

theorem loadCounter_success (s : Storage) (deviceId : String) :
    s.loadCounter deviceId .success = .ok ((s.nvs.u64.get? (counterKey deviceId)).getD 0) := rfl

/-- With all calls succeeding only a count below the stored one is refused. -/
theorem saveCounter_refused (s : Storage) (deviceId : String) (count : Nat) :
    (s.saveCounter deviceId count .success).1 = .error .invalidArg ↔
      s.ready = true ∧ count < (s.nvs.u64.get? (counterKey deviceId)).getD 0 := by
  cases hready : s.ready with
  | false => simp [saveCounter, hready]
  | true =>
    rcases hget : s.nvs.u64.get? (counterKey deviceId) with _ | existing
    · simp [saveCounter, raise, peek, put, Outcomes.success, hready, hget]
    · by_cases h : count < existing <;>
        simp [saveCounter, raise, peek, put, Outcomes.success, hready, hget, h]

theorem saveCounter_not_ready (h : s.ready = false) (deviceId : String) (count : Nat) :
    s.saveCounter deviceId count .success = (.error .invalidState, s) := by
  simp [saveCounter, h]

theorem get?_saveCounter (h : s.ready = true) (d1 d2 : String) (c : Nat) :
    ((s.saveCounter d1 c .success).2.nvs.u64.get? (counterKey d2)).getD 0 =
      if counterKey d1 = counterKey d2 then max c ((s.nvs.u64.get? (counterKey d2)).getD 0)
      else (s.nvs.u64.get? (counterKey d2)).getD 0 := by
  rw [saveCounter_success s d1 c h]
  by_cases hkey : counterKey d1 = counterKey d2
  · rw [if_pos hkey, hkey]
    split
    · omega
    · rw [written, Dict.get?_insert_self, Option.getD_some]
      omega
  · rw [if_neg hkey]
    split
    · rfl
    · rw [written, Dict.get?_insert_ne _ _ (Ne.symm hkey)]

/-- The count of one device leaves the other alone exactly when their hashes differ or the count is
not above what the other has stored. -/
theorem spares_iff (s : Storage) (d1 : String) (c : Nat) (d2 : String) :
    s.Spares d1 c d2 ↔ s.ready = false ∨ fnv1a (utf8 d1) ≠ fnv1a (utf8 d2) ∨
      ∃ stored, s.loadCounter d2 .success = .ok stored ∧ c ≤ stored := by
  cases hready : s.ready with
  | false =>
    refine iff_of_true ⟨?_, ?_⟩ (.inl rfl)
    · rw [saveCounter_not_ready hready]
    · intro stored c2 _ _ hrefused
      rw [saveCounter_not_ready hready, saveCounter_refused, hready] at hrefused
      cases hrefused.1
  | true =>
    have hget := get?_saveCounter hready d1 d2 c
    simp only [counterKey_eq_iff] at hget
    simp only [loadCounter_success, Bool.true_eq_false, false_or, Except.ok.injEq, exists_eq_left']
    constructor
    · rintro ⟨hload, -⟩
      by_cases hhash : fnv1a (utf8 d1) = fnv1a (utf8 d2)
      · rw [loadCounter_success, loadCounter_success, hget, if_pos hhash] at hload
        have := Except.ok.inj hload
        exact .inr (by omega)
      · exact .inl hhash
    · intro hspared
      have hsame : ((s.saveCounter d1 c .success).2.nvs.u64.get? (counterKey d2)).getD 0 =
          (s.nvs.u64.get? (counterKey d2)).getD 0 := by
        rw [hget]
        split
        · rename_i hhash
          have := hspared.resolve_left (not_not_intro hhash)
          omega
        · rfl
      refine ⟨?_, ?_⟩
      · rw [loadCounter_success, loadCounter_success, hsame]
      · intro stored c2 hstored hle hrefused
        rw [loadCounter_success] at hstored
        obtain rfl := Except.ok.inj hstored
        obtain ⟨-, hlt⟩ := (saveCounter_refused _ d2 c2).mp hrefused
        rw [hsame] at hlt
        omega

/-- Two addresses of one manufacturer have one hash: a count of the first is loaded for the second
and keeps it from saving its own. -/
theorem shared_hash :
    let s : Storage := ⟨.empty, 0, true⟩
    let d1 := "a4:c1:38:01:a8:3d"
    let d2 := "a4:c1:38:05:48:48"
    let saved := (s.saveCounter d1 5 .success).2
    d1 ≠ d2 ∧ fnv1a (utf8 d1) = fnv1a (utf8 d2) ∧ s.loadCounter d2 .success = .ok 0 ∧
      saved.loadCounter d2 .success = .ok 5 ∧
      (saved.saveCounter d2 3 .success).1 = .error .invalidArg ∧ ¬s.Spares d1 5 d2 := by
  intro s d1 d2 saved
  have hhash : fnv1a (utf8 d1) = fnv1a (utf8 d2) := by decide +kernel
  have hget : (saved.nvs.u64.get? (counterKey d2)).getD 0 = 5 := by
    rw [get?_saveCounter rfl, if_pos (counterKey_eq_iff.mpr hhash)]
    rfl
  have hload : saved.loadCounter d2 .success = .ok 5 := by rw [loadCounter_success, hget]
  refine ⟨by decide, hhash, rfl, hload, ?_, ?_⟩
  · exact (saveCounter_refused saved d2 3).mpr ⟨rfl, by rw [hget]; decide⟩
  · intro hspares
    have hsame : saved.loadCounter d2 .success = .ok 0 := hspares.load
    rw [hload] at hsame
    cases hsame

end Storage

end BleUsageMeter.Firmware
