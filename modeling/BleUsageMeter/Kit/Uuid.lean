import BleUsageMeter.Kit.Text

/-! The 8-4-4-4-12 form of a UUID, and digits two by two as bytes. -/

namespace Kit

/-- The text is a UUID of lower-case digits with its hyphens in their places. -/
structure CanonicalUuid (s : String) : Prop where
  lengths : (s.toList.splitOn '-').map List.length = [8, 4, 4, 4, 12]
  digits : ∀ group ∈ s.toList.splitOn '-', ∀ c ∈ group, c ∈ hexDigits

theorem exists_hexDigit : ∀ c ∈ hexDigits, ∃ n, hexDigit n = c := forall_of_all (by decide)

theorem exists_hexByte {high low : Char} (hhigh : high ∈ hexDigits) (hlow : low ∈ hexDigits) :
    ∃ byte, hexByte byte = [high, low] := by
  obtain ⟨h, rfl⟩ := exists_hexDigit high hhigh
  obtain ⟨l, rfl⟩ := exists_hexDigit low hlow
  have hvalue : (UInt8.ofNat (16 * h + l)).toNat = 16 * h + l := by
    rw [UInt8.toNat_ofNat']
    omega
  refine ⟨UInt8.ofNat (16 * h + l), ?_⟩
  simp only [hexByte, hvalue, List.cons.injEq, and_true]
  refine ⟨congrArg hexDigit (Fin.ext ?_), congrArg hexDigit (Fin.ext ?_)⟩
  · show (16 * h.val + l.val) / 16 = h.val
    omega
  · show (16 * h.val + l.val) % 16 = l.val
    omega

theorem exists_bytes {n : Nat} {digits : List Char} (hlength : digits.length = 2 * n)
    (hdigits : ∀ c ∈ digits, c ∈ hexDigits) :
    ∃ bytes : List UInt8, bytes.length = n ∧ bytes.flatMap hexByte = digits := by
  induction n generalizing digits with
  | zero => exact ⟨[], rfl, (List.length_eq_zero_iff.mp hlength).symm⟩
  | succ n ih =>
    match digits, hlength with
    | high :: low :: rest, hlength =>
      obtain ⟨hhigh, hlow, hrest⟩ :
          high ∈ hexDigits ∧ low ∈ hexDigits ∧ ∀ c ∈ rest, c ∈ hexDigits := by
        simpa using hdigits
      obtain ⟨byte, hbyte⟩ := exists_hexByte hhigh hlow
      obtain ⟨bytes, hbytes, hflat⟩ := ih (by simp only [List.length_cons] at hlength; omega) hrest
      refine ⟨byte :: bytes, by simp [hbytes], ?_⟩
      rw [List.flatMap_cons, hbyte, hflat]
      rfl

theorem canonical_of_groups {s : String} {groups : List (List Char)}
    (hs : s.toList = ['-'].intercalate groups)
    (hlengths : groups.map List.length = [8, 4, 4, 4, 12])
    (hdigits : ∀ group ∈ groups, ∀ c ∈ group, c ∈ hexDigits) : CanonicalUuid s := by
  have hne : groups ≠ [] := by
    rintro rfl
    cases hlengths
  have hsplit : s.toList.splitOn '-' = groups := by
    rw [hs]
    apply List.splitOn_intercalate _ _ hne
    exact fun group hgroup hmem => ne_hyphen_of_mem _ (hdigits group hgroup _ hmem) rfl
  exact ⟨hsplit ▸ hlengths, hsplit ▸ hdigits⟩

theorem CanonicalUuid.exists_groups {s : String} (h : CanonicalUuid s) :
    ∃ a b c d e : List Char,
      a.length = 8 ∧ b.length = 4 ∧ c.length = 4 ∧ d.length = 4 ∧ e.length = 12 ∧
      (∀ group ∈ [a, b, c, d, e], ∀ x ∈ group, x ∈ hexDigits) ∧
      s.toList = ['-'].intercalate [a, b, c, d, e] := by
  have hjoin : ['-'].intercalate (s.toList.splitOn '-') = s.toList := List.intercalate_splitOn '-'
  obtain ⟨hlengths, hdigits⟩ := h
  generalize s.toList.splitOn '-' = groups at hjoin hlengths hdigits
  obtain ⟨a, b, c, d, e, rfl⟩ : ∃ a b c d e, groups = [a, b, c, d, e] := by
    have hfive := congrArg List.length hlengths
    rw [List.length_map] at hfive
    match groups, hfive with
    | [a, b, c, d, e], _ => exact ⟨a, b, c, d, e, rfl⟩
  simp only [List.map_cons, List.map_nil, List.cons.injEq, and_true] at hlengths
  obtain ⟨ha, hb, hc, hd, he⟩ := hlengths
  exact ⟨a, b, c, d, e, ha, hb, hc, hd, he, hdigits, hjoin.symm⟩

theorem CanonicalUuid.exists_bytes {s : String} (h : CanonicalUuid s) :
    ∃ a b c d e : List UInt8,
      a.length = 4 ∧ b.length = 2 ∧ c.length = 2 ∧ d.length = 2 ∧ e.length = 6 ∧
      s.toList = ['-'].intercalate ([a, b, c, d, e].map (·.flatMap hexByte)) := by
  obtain ⟨a, b, c, d, e, ha, hb, hc, hd, he, hdigits, hs⟩ := h.exists_groups
  simp only [List.forall_mem_cons] at hdigits
  obtain ⟨a', ha', rfl⟩ := Kit.exists_bytes (n := 4) ha hdigits.1
  obtain ⟨b', hb', rfl⟩ := Kit.exists_bytes (n := 2) hb hdigits.2.1
  obtain ⟨c', hc', rfl⟩ := Kit.exists_bytes (n := 2) hc hdigits.2.2.1
  obtain ⟨d', hd', rfl⟩ := Kit.exists_bytes (n := 2) hd hdigits.2.2.2.1
  obtain ⟨e', he', rfl⟩ := Kit.exists_bytes (n := 6) he hdigits.2.2.2.2.1
  exact ⟨a', b', c', d', e', ha', hb', hc', hd', he', hs⟩

/-! ### Hyphens -/

theorem mem_intercalate {groups : List (List Char)} {group : List Char} {c : Char}
    (hgroup : group ∈ groups) (hc : c ∈ group) : c ∈ ['-'].intercalate groups := by
  induction groups with
  | nil => cases hgroup
  | cons first rest ih =>
    cases rest with
    | nil =>
      obtain rfl := List.mem_singleton.mp hgroup
      rwa [List.intercalate_singleton]
    | cons next rest =>
      rw [List.intercalate_cons_cons]
      rcases List.mem_cons.mp hgroup with rfl | hgroup
      · exact List.mem_append_left _ (List.mem_append_left _ hc)
      · exact List.mem_append_right _ (ih hgroup)

theorem length_le_count_intercalate (group : List Char) (rest : List (List Char)) :
    rest.length ≤ (['-'].intercalate (group :: rest)).count '-' := by
  induction rest generalizing group with
  | nil => exact Nat.zero_le _
  | cons next rest ih =>
    have := ih next
    rw [List.intercalate_cons_cons, List.count_append, List.count_append,
      List.count_singleton_self, List.length_cons]
    omega

/-- No group has a hyphen when there are only those between the groups. -/
theorem hyphen_not_mem {groups : List (List Char)}
    (h : (['-'].intercalate groups).count '-' < groups.length) :
    ∀ group ∈ groups, '-' ∉ group := by
  induction groups with
  | nil => cases h
  | cons first rest ih =>
    cases rest with
    | nil =>
      rw [List.intercalate_singleton, List.length_singleton] at h
      intro group hgroup
      obtain rfl := List.mem_singleton.mp hgroup
      exact List.count_eq_zero.mp (by omega)
    | cons next rest =>
      have hrest := length_le_count_intercalate next rest
      rw [List.intercalate_cons_cons, List.count_append, List.count_append,
        List.count_singleton_self] at h
      simp only [List.length_cons] at h ih
      intro group hgroup
      rcases List.mem_cons.mp hgroup with rfl | hgroup
      · exact List.count_eq_zero.mp (by omega)
      · exact ih (by omega) group hgroup

theorem SpellsUuid.canonical_of_groups {s : String} (h : SpellsUuid s)
    {groups : List (List Char)} (hs : s.toList = ['-'].intercalate groups)
    (hlengths : groups.map List.length = [8, 4, 4, 4, 12]) : CanonicalUuid s := by
  apply Kit.canonical_of_groups hs hlengths
  intro group hgroup c hc
  have hfive : groups.length = 5 := by
    rw [← List.length_map, hlengths]
    rfl
  have hnone : '-' ∉ group := by
    apply hyphen_not_mem _ group hgroup
    rw [← hs, h.hyphens, hfive]
    omega
  have hmem : c ∈ s.toList := hs ▸ mem_intercalate hgroup hc
  refine (h.digits c hmem).resolve_left ?_
  rintro rfl
  exact hnone hc

theorem take_hyphen_drop {chars : List Char} {i : Nat} (h : chars[i]? = some '-') :
    chars = chars.take i ++ '-' :: chars.drop (i + 1) := by
  obtain ⟨hi, hget⟩ := List.getElem?_eq_some_iff.mp h
  rw [← hget, List.getElem_cons_drop, List.take_append_drop]

/-- Of the texts with a UUID's characters, the canonical ones are those with the hyphens in their
places. -/
theorem SpellsUuid.canonical_iff {s : String} (h : SpellsUuid s) :
    CanonicalUuid s ↔ ∀ i ∈ [8, 13, 18, 23], s.toList[i]? = some '-' := by
  constructor
  · intro hcanonical
    obtain ⟨a, b, c, d, e, ha, hb, hc, hd, he, -, hs⟩ := hcanonical.exists_groups
    rw [hs]
    simp [List.intercalate_cons_cons, List.getElem?_append, ha, hb, hc, hd]
  · intro hhyphens
    have hat : ∀ start, start + 4 ∈ [8, 13, 18, 23] →
        s.toList.drop start = (s.toList.drop start).take 4 ++ '-' :: s.toList.drop (start + 5) := by
      intro start hstart
      have hhyphen : (s.toList.drop start)[4]? = some '-' := by
        rw [List.getElem?_drop]
        exact hhyphens _ hstart
      have hsplit := take_hyphen_drop hhyphen
      rwa [List.drop_drop] at hsplit
    have hs : s.toList = ['-'].intercalate [s.toList.take 8, (s.toList.drop 9).take 4,
        (s.toList.drop 14).take 4, (s.toList.drop 19).take 4, s.toList.drop 24] := by
      simp only [List.intercalate_cons_cons, List.intercalate_singleton, List.append_assoc,
        List.singleton_append]
      rw [← hat 19 (by simp), ← hat 14 (by simp), ← hat 9 (by simp),
        ← take_hyphen_drop (hhyphens 8 (by simp))]
    have hlength : s.toList.length = 36 := h.length
    exact h.canonical_of_groups hs (by simp [hlength])

/-! ### Digits -/

/-- The values of the digits in a text, whatever stands between them. -/
def uuidDigits (s : String) : List Nat := s.toList.filterMap hexValue

theorem hexValue_bounds {c : Char} {n : Nat} (h : hexValue c = some n) :
    n < 16 ∧ 48 ≤ c.toNat ∧ c.toNat ≤ 102 := by
  unfold hexValue at h
  split at h
  · rename_i hc
    have hge : 48 ≤ c.toNat := hc.1
    have hle : c.toNat ≤ 57 := hc.2
    have hn : c.toNat - 48 = n := Option.some.inj h
    omega
  · split at h
    · rename_i hc
      have hge : 97 ≤ c.toNat := hc.1
      have hle : c.toNat ≤ 102 := hc.2
      have hn : c.toNat - 97 + 10 = n := Option.some.inj h
      omega
    · split at h
      · rename_i hc
        have hge : 65 ≤ c.toNat := hc.1
        have hle : c.toNat ≤ 70 := hc.2
        have hn : c.toNat - 65 + 10 = n := Option.some.inj h
        omega
      · cases h

theorem hexValue_space {c : Char} (h : isSpace c = true) : hexValue c = none := by
  cases hvalue : hexValue c with
  | none => rfl
  | some n =>
    obtain ⟨-, hge, hle⟩ := hexValue_bounds hvalue
    simp only [isSpace, Bool.or_eq_true, Bool.and_eq_true, decide_eq_true_eq, beq_iff_eq] at h
    omega

theorem filterMap_hexValue_dropWhile (chars : List Char) :
    (chars.dropWhile isSpace).filterMap hexValue = chars.filterMap hexValue := by
  induction chars with
  | nil => rfl
  | cons c rest ih =>
    by_cases hspace : isSpace c = true
    · rw [List.dropWhile_cons_of_pos hspace, ih, List.filterMap_cons_none (hexValue_space hspace)]
    · rw [List.dropWhile_cons_of_neg hspace]

theorem uuidDigits_strip (s : String) : uuidDigits (strip s) = uuidDigits s := by
  rw [uuidDigits, strip, String.toList_ofList, List.rdropWhile, List.filterMap_reverse,
    filterMap_hexValue_dropWhile, ← List.filterMap_reverse, List.reverse_reverse,
    filterMap_hexValue_dropWhile, uuidDigits]

theorem uuidDigits_lt {s : String} : ∀ n ∈ uuidDigits s, n < 16 := by
  intro n hn
  obtain ⟨c, -, hc⟩ := List.mem_filterMap.mp hn
  exact (hexValue_bounds hc).1

theorem map_filterMap_hexValue {digits : List Char} (h : ∀ c ∈ digits, c ∈ hexDigits) :
    (digits.filterMap hexValue).map (hexDigits.getD · '-') = digits := by
  have hvalue : ∀ c ∈ hexDigits, (hexValue c).map (hexDigits.getD · '-') = some c :=
    forall_of_all (by decide)
  induction digits with
  | nil => rfl
  | cons c rest ih =>
    obtain ⟨n, hn, hc⟩ := Option.map_eq_some_iff.mp (hvalue c (h c List.mem_cons_self))
    rw [List.filterMap_cons_some hn, List.map_cons, hc,
      ih fun d hd => h d (List.mem_cons_of_mem _ hd)]

theorem length_filterMap_hexValue {digits : List Char} (h : ∀ c ∈ digits, c ∈ hexDigits) :
    (digits.filterMap hexValue).length = digits.length := by
  rw [← List.length_map, map_filterMap_hexValue h]

theorem filterMap_hexValue_intercalate (groups : List (List Char)) :
    (['-'].intercalate groups).filterMap hexValue = groups.flatten.filterMap hexValue := by
  have hhyphen : ['-'].filterMap hexValue = [] := rfl
  induction groups with
  | nil => rfl
  | cons group rest ih =>
    cases rest with
    | nil => rw [List.intercalate_singleton, List.flatten_singleton]
    | cons next rest =>
      rw [List.intercalate_cons_cons, List.flatten_cons, List.filterMap_append,
        List.filterMap_append, List.filterMap_append, ih, hhyphen, List.append_nil]

theorem uuidDigits_splitOn (s : String) :
    uuidDigits s = (s.toList.splitOn '-').flatten.filterMap hexValue := by
  have hjoin : ['-'].intercalate (s.toList.splitOn '-') = s.toList := List.intercalate_splitOn '-'
  rw [uuidDigits, ← filterMap_hexValue_intercalate, hjoin]

theorem CanonicalUuid.flatten_digits {s : String} (h : CanonicalUuid s) :
    ∀ c ∈ (s.toList.splitOn '-').flatten, c ∈ hexDigits := by
  intro c hc
  obtain ⟨group, hgroup, hc⟩ := List.mem_flatten.mp hc
  exact h.digits group hgroup c hc

theorem CanonicalUuid.digits_length {s : String} (h : CanonicalUuid s) :
    (uuidDigits s).length = 32 := by
  rw [uuidDigits_splitOn, length_filterMap_hexValue h.flatten_digits, List.length_flatten,
    h.lengths]
  rfl

theorem CanonicalUuid.eq_of_digits {s t : String} (hs : CanonicalUuid s) (ht : CanonicalUuid t)
    (h : uuidDigits s = uuidDigits t) : s = t := by
  rw [uuidDigits_splitOn, uuidDigits_splitOn] at h
  have hflatten : (s.toList.splitOn '-').flatten = (t.toList.splitOn '-').flatten := by
    rw [← map_filterMap_hexValue hs.flatten_digits, h, map_filterMap_hexValue ht.flatten_digits]
  have hgroups : s.toList.splitOn '-' = t.toList.splitOn '-' :=
    List.eq_iff_flatten_eq.mpr ⟨hflatten, hs.lengths.trans ht.lengths.symm⟩
  have hjoin : ['-'].intercalate (s.toList.splitOn '-') = s.toList := List.intercalate_splitOn '-'
  apply String.toList_inj.mp
  rw [← hjoin, hgroups]
  exact List.intercalate_splitOn '-'

end Kit
