import BleUsageMeter.Kit.Datetime
import BleUsageMeter.Backend.Db

/-! What the comparison of a stored window with a cutoff compares.  Both texts begin with the date
and the time as written; what follows, a fraction, an offset or nothing, is below the cutoff's `Z`.
So the offset and the fraction play no part, and a window at the second of the cutoff is before
it. -/

namespace BleUsageMeter.Backend

open Kit

/-- The bytes of the last `width` decimal digits. -/
def digitBytes : Nat → Nat → List UInt8
  | 0, _ => []
  | width + 1, n => digitBytes width (n / 10) ++ [UInt8.ofNat (48 + n % 10)]

theorem utf8_digitChar : ∀ d : Fin 10,
    utf8 (String.ofList [Nat.digitChar d]) = [UInt8.ofNat (48 + d.val)] := by decide

theorem digitBytes_zero (width : Nat) : digitBytes width 0 = List.replicate width 48 := by
  induction width with
  | zero => rfl
  | succ width ih =>
    rw [digitBytes, Nat.zero_div, ih, List.replicate_succ']
    rfl

theorem utf8_zeros (k : Nat) :
    utf8 (String.ofList (List.replicate k '0')) = List.replicate k 48 := by
  induction k with
  | zero => rfl
  | succ k ih =>
    rw [List.replicate_succ', String.ofList_append, utf8_append, ih, List.replicate_succ']
    rfl

theorem utf8_pad {width n : Nat} (hn : n < 10 ^ (width + 1)) :
    utf8 (Datetime.pad (width + 1) n) = digitBytes (width + 1) n := by
  unfold Datetime.pad
  dsimp only
  induction width generalizing n with
  | zero =>
    have hlt : n < 10 := by simpa using hn
    rw [Nat.toDigits_of_lt_base hlt]
    have hdigit := utf8_digitChar ⟨n, hlt⟩
    simpa [digitBytes, Nat.mod_eq_of_lt hlt] using hdigit
  | succ width ih =>
    have hdigit : utf8 (String.ofList [Nat.digitChar (n % 10)]) = [UInt8.ofNat (48 + n % 10)] :=
      utf8_digitChar ⟨n % 10, Nat.mod_lt n (by decide)⟩
    rcases Nat.lt_or_ge n 10 with hlt | hge
    · have hzero : n / 10 = 0 := Nat.div_eq_of_lt hlt
      rw [Nat.mod_eq_of_lt hlt] at hdigit
      rw [Nat.toDigits_of_lt_base hlt, List.length_singleton, String.ofList_append, utf8_append,
        utf8_zeros, hdigit, digitBytes, hzero, digitBytes_zero, Nat.mod_eq_of_lt hlt]
      rfl
    · have hprefix := ih (n := n / 10) (by omega)
      rw [Nat.toDigits_of_base_le (by decide) hge, List.length_append, List.length_singleton,
        Nat.add_sub_add_right, ← List.append_assoc, String.ofList_append, utf8_append, hprefix,
        hdigit]
      rfl

theorem digit_toNat (n : Nat) : (UInt8.ofNat (48 + n % 10)).toNat = 48 + n % 10 := by
  rw [UInt8.toNat_ofNat', Nat.mod_eq_of_lt (by omega)]

/-- Digits of one width compare as the numbers do. -/
theorem bytesLt_digits {width m n : Nat} (hm : m < 10 ^ width) (hn : n < 10 ^ width)
    (s t : List UInt8) : bytesLt (digitBytes width m ++ s) (digitBytes width n ++ t) = true ↔
      m < n ∨ (m = n ∧ bytesLt s t = true) := by
  induction width generalizing m n s t with
  | zero =>
    obtain rfl : m = 0 := by simpa using hm
    obtain rfl : n = 0 := by simpa using hn
    simp [digitBytes]
  | succ width ih =>
    have hsame : UInt8.ofNat (48 + m % 10) = UInt8.ofNat (48 + n % 10) ↔ m % 10 = n % 10 := by
      rw [← UInt8.toNat_inj, digit_toNat, digit_toNat]
      omega
    rw [digitBytes, digitBytes, List.append_assoc, List.append_assoc,
      ih (by omega) (by omega)]
    simp only [List.cons_append, List.nil_append, bytesLt, digit_toNat, hsame, Bool.or_eq_true,
      decide_eq_true_eq, Bool.and_eq_true]
    constructor
    · rintro (hlt | ⟨heq, hlt | ⟨hmod, hrest⟩⟩)
      · exact .inl (by omega)
      · exact .inl (by omega)
      · exact .inr ⟨by omega, hrest⟩
    · rintro (hlt | ⟨rfl, hrest⟩)
      · omega
      · exact .inr ⟨rfl, .inr ⟨rfl, hrest⟩⟩

theorem bytesLt_cons (b : UInt8) (s t : List UInt8) :
    bytesLt (b :: s) (b :: t) = bytesLt s t := by
  simp [bytesLt]

/-! ### Dates and times -/

theorem digitBytes_add (width rest n : Nat) :
    digitBytes (width + rest) n = digitBytes width (n / 10 ^ rest) ++ digitBytes rest n := by
  induction rest generalizing n with
  | zero => simp [digitBytes]
  | succ rest ih =>
    have hdiv : n / 10 / 10 ^ rest = n / 10 ^ (rest + 1) := by
      rw [Nat.div_div_eq_div_mul, Nat.pow_succ']
    rw [← Nat.add_assoc, digitBytes, ih, hdiv, List.append_assoc, digitBytes]

theorem bytesLt_digit_hyphen (width n : Nat) (s t : List UInt8) :
    bytesLt (digitBytes (width + 1) n ++ s) (45 :: t) = false := by
  induction width generalizing n s with
  | zero =>
    have hhyphen : (45 : UInt8).toNat = 45 := rfl
    have hne : UInt8.ofNat (48 + n % 10) ≠ 45 := by
      rw [ne_eq, ← UInt8.toNat_inj, digit_toNat, hhyphen]
      omega
    have hle : ¬48 + n % 10 < 45 := by omega
    simp only [digitBytes, List.nil_append, List.cons_append, bytesLt, digit_toNat, hhyphen, hle,
      hne, decide_false, Bool.false_and, Bool.or_false]
  | succ width ih =>
    rw [digitBytes, List.append_assoc]
    exact ih _ _

/-- What stands after the year in the text of a date and time. -/
def sinceYear (d : Datetime) (rest : List UInt8) : List UInt8 :=
  45 :: (digitBytes 2 d.date.month ++ 45 :: (digitBytes 2 d.date.day ++
    84 :: (digitBytes 2 d.hour ++ 58 :: (digitBytes 2 d.minute ++
      58 :: (digitBytes 2 d.second ++ rest)))))

theorem daysInMonth_le (leap : Bool) (month : Nat) : daysInMonth leap month ≤ 31 := by
  unfold daysInMonth
  split
  · split <;> decide
  all_goals decide

theorem fields_fit (d : Datetime) : d.date.month < 10 ^ 2 ∧ d.date.day < 10 ^ 2 ∧
    d.hour < 10 ^ 2 ∧ d.minute < 10 ^ 2 ∧ d.second < 10 ^ 2 := by
  have hmonth := d.date.month_le
  have hday := Nat.le_trans d.date.day_le (daysInMonth_le _ _)
  have hhour := d.hour_lt
  have hminute := d.minute_lt
  have hsecond := d.second_lt
  omega

theorem bytesLt_sinceYear (a b : Datetime) (s t : List UInt8) :
    bytesLt (sinceYear a s) (sinceYear b t) = true ↔
      a.date.month < b.date.month ∨ (a.date.month = b.date.month ∧
        (a.date.day < b.date.day ∨ (a.date.day = b.date.day ∧
          (a.hour < b.hour ∨ (a.hour = b.hour ∧ (a.minute < b.minute ∨ (a.minute = b.minute ∧
            (a.second < b.second ∨ (a.second = b.second ∧ bytesLt s t = true))))))))) := by
  obtain ⟨amonth, aday, ahour, aminute, asecond⟩ := fields_fit a
  obtain ⟨bmonth, bday, bhour, bminute, bsecond⟩ := fields_fit b
  simp only [sinceYear, bytesLt_cons, bytesLt_digits amonth bmonth, bytesLt_digits aday bday,
    bytesLt_digits ahour bhour, bytesLt_digits aminute bminute, bytesLt_digits asecond bsecond]

/-- Years of four digits make the order of the texts that of the clock readings. -/
theorem bytesLt_clock (a b : Datetime) (s t : List UInt8) :
    bytesLt (digitBytes 4 a.date.year ++ sinceYear a s)
        (digitBytes 4 b.date.year ++ sinceYear b t) = true ↔
      a.localSeconds < b.localSeconds ∨
        (a.localSeconds = b.localSeconds ∧ bytesLt s t = true) := by
  have hlocal : ∀ d : Datetime, d.localSeconds =
      d.date.ordinal * 86400 + (d.hour * 3600 + d.minute * 60 + d.second) := fun _ => rfl
  have := a.hour_lt
  have := a.minute_lt
  have := a.second_lt
  have := b.hour_lt
  have := b.minute_lt
  have := b.second_lt
  rw [bytesLt_digits (by have := a.date.year_le; omega) (by have := b.date.year_le; omega),
    bytesLt_sinceYear, hlocal, hlocal]
  rcases Date.lt_trichotomy a.date b.date with hlt | heq | hlt
  · have hord := Date.ordinal_lt hlt
    simp only [Date.lt, Bool.or_eq_true, Bool.and_eq_true, decide_eq_true_eq] at hlt
    omega
  · rw [heq]
    by_cases hrest : bytesLt s t = true
    · simp only [hrest, lt_irrefl, true_and, and_true, false_or]
      omega
    · simp only [hrest, lt_irrefl, true_and, Bool.false_eq_true, and_false, false_or, or_false]
      omega
  · have hord := Date.ordinal_lt hlt
    simp only [Date.lt, Bool.or_eq_true, Bool.and_eq_true, decide_eq_true_eq] at hlt
    omega

/-! ### The two texts -/

/-- A number of `width + 1` digits has no zeros to write. -/
theorem pad_one {width n : Nat} (h : 10 ^ width ≤ n) :
    Datetime.pad 1 n = Datetime.pad (width + 1) n := by
  have hlength : width + 1 ≤ (Nat.toDigits 10 n).length := by
    rcases Nat.eq_zero_or_pos width with rfl | hpos
    · exact Nat.length_toDigits_pos
    · have := Nat.length_toDigits_le_iff (n := n) (by decide : 1 < 10) hpos
      omega
  unfold Datetime.pad
  dsimp only
  rw [Nat.sub_eq_zero_of_le hlength, Nat.sub_eq_zero_of_le (by omega)]

/-- What `isoformat` writes after the seconds. -/
def isoSuffix (d : Datetime) : String :=
  (if d.microsecond = 0 then "" else "." ++ Datetime.pad 6 d.microsecond) ++
    match d.utcoffset with
    | none => ""
    | some o => Datetime.offsetText o

theorem utf8_sinceYear (d : Datetime) (rest : String) :
    utf8 ("-" ++ Datetime.pad 2 d.date.month ++ "-" ++ Datetime.pad 2 d.date.day ++ "T" ++
      Datetime.pad 2 d.hour ++ ":" ++ Datetime.pad 2 d.minute ++ ":" ++ Datetime.pad 2 d.second ++
      rest) = sinceYear d (utf8 rest) := by
  have hmarks : utf8 "-" = [45] ∧ utf8 "T" = [84] ∧ utf8 ":" = [58] := by decide
  obtain ⟨hmonth, hday, hhour, hminute, hsecond⟩ := fields_fit d
  simp only [utf8_append, utf8_pad hmonth, utf8_pad hday, utf8_pad hhour, utf8_pad hminute,
    utf8_pad hsecond, hmarks, sinceYear, List.append_assoc, List.cons_append, List.nil_append]

theorem utf8_isoformat (d : Datetime) :
    utf8 d.isoformat = digitBytes 4 d.date.year ++ sinceYear d (utf8 (isoSuffix d)) := by
  have hyear : d.date.year < 10 ^ 4 := by have := d.date.year_le; omega
  rw [← utf8_sinceYear, ← utf8_pad hyear, ← utf8_append]
  cases hoffset : d.utcoffset with
  | none => simp only [Datetime.isoformat, isoSuffix, hoffset, String.append_assoc]
  | some o => simp only [Datetime.isoformat, isoSuffix, hoffset, String.append_assoc]

theorem utf8_strftimeZ (d : Datetime) :
    utf8 d.strftimeZ = utf8 (Datetime.pad 1 d.date.year) ++ sinceYear d [90] := by
  have hmark : utf8 "Z" = [90] := by decide
  rw [← hmark, ← utf8_sinceYear, ← utf8_append]
  simp only [Datetime.strftimeZ, String.append_assoc]

theorem isoSuffix_lt (d : Datetime) : bytesLt (utf8 (isoSuffix d)) [90] = true := by
  have hmarks : utf8 "." = [46] ∧ utf8 "-" = [45] ∧ utf8 "+" = [43] ∧ utf8 "" = [] := by decide
  have hlow : bytesLt [] [90] = true ∧ (∀ s, bytesLt (46 :: s) [90] = true) ∧
      (∀ s, bytesLt (45 :: s) [90] = true) ∧ ∀ s, bytesLt (43 :: s) [90] = true := by
    refine ⟨rfl, ?_, ?_, ?_⟩ <;> intro s <;> simp [bytesLt]
  unfold isoSuffix
  split
  · split
    · simp only [utf8_append, hmarks, List.append_nil, hlow]
    · unfold Datetime.offsetText
      dsimp only
      split <;> simp only [utf8_append, hmarks, List.nil_append, List.cons_append, hlow]
  · simp only [utf8_append, hmarks, List.cons_append, hlow]

/-- A window end is below a cutoff's text when it is written no later than the cutoff's second.  A
cutoff year of fewer digits is compared with as many digits of the window's. -/
def WrittenBefore (windowEnd cutoff : Datetime) : Prop :=
  if cutoff.date.year < 10 then windowEnd.date.year / 1000 < cutoff.date.year
  else if cutoff.date.year < 100 then windowEnd.date.year / 100 < cutoff.date.year
  else if cutoff.date.year < 1000 then windowEnd.date.year / 10 < cutoff.date.year
  else windowEnd.localSeconds ≤ cutoff.localSeconds

/-- A year of `width` digits is compared with as many digits of a year of four. -/
theorem bytesLt_short (width rest : Nat) {year cutoffYear : Nat}
    (hwidth : width + 1 + (rest + 1) = 4) (hyear : year ≤ 9999) (hlow : 10 ^ width ≤ cutoffYear)
    (hhigh : cutoffYear < 10 ^ (width + 1)) (s t : List UInt8) :
    bytesLt (digitBytes 4 year ++ s) (utf8 (Datetime.pad 1 cutoffYear) ++ 45 :: t) = true ↔
      year / 10 ^ (rest + 1) < cutoffYear := by
  have hhead : year / 10 ^ (rest + 1) < 10 ^ (width + 1) := by
    rw [Nat.div_lt_iff_lt_mul (Nat.pow_pos (by decide)), ← Nat.pow_add, hwidth]
    omega
  rw [pad_one hlow, utf8_pad hhigh, ← hwidth, digitBytes_add, List.append_assoc,
    bytesLt_digits hhead hhigh, bytesLt_digit_hyphen]
  simp

theorem textLt_iff_writtenBefore (windowEnd cutoff : Datetime) :
    textLt windowEnd.isoformat cutoff.strftimeZ = true ↔ WrittenBefore windowEnd cutoff := by
  have hyear := windowEnd.date.year_le
  have hpos := cutoff.date.year_pos
  rw [textLt, utf8_isoformat, utf8_strftimeZ]
  unfold WrittenBefore
  split
  · rename_i hlt
    exact bytesLt_short 0 2 rfl hyear hpos hlt _ _
  · split
    · exact bytesLt_short 1 1 rfl hyear (by omega) (by omega) _ _
    · split
      · exact bytesLt_short 2 0 rfl hyear (by omega) (by omega) _ _
      · have hfits : cutoff.date.year < 10 ^ (3 + 1) := by have := cutoff.date.year_le; omega
        have hfour : 10 ^ 3 ≤ cutoff.date.year := by omega
        rw [pad_one hfour, utf8_pad hfits, bytesLt_clock]
        simp only [isoSuffix_lt, and_true]
        omega

instance (windowEnd cutoff : Datetime) : Decidable (WrittenBefore windowEnd cutoff) :=
  decidable_of_iff _ (textLt_iff_writtenBefore windowEnd cutoff)

end BleUsageMeter.Backend
