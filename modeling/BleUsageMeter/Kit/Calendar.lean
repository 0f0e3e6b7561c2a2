import Mathlib.Data.Nat.Basic

/-! The proleptic Gregorian calendar of Python's `datetime` module: dates from 1 January of year 1
to 31 December of year 9999, and the ordinals that number them from 1. -/

namespace Kit

def isLeap (year : Nat) : Bool := year % 4 = 0 && (year % 100 ≠ 0 || year % 400 = 0)

/-- The days of the years before `year`. -/
def daysBeforeYear (year : Nat) : Nat :=
  (year - 1) * 365 + (year - 1) / 4 - (year - 1) / 100 + (year - 1) / 400

def daysInMonth (leap : Bool) : Nat → Nat
  | 2 => if leap then 29 else 28
  | 4 | 6 | 9 | 11 => 30
  | _ => 31

/-- The days of a year before its month `month`. -/
def daysBeforeMonth (leap : Bool) : Nat → Nat
  | 0 | 1 => 0
  | 2 => 31
  | 3 => 59 + leap.toNat
  | 4 => 90 + leap.toNat
  | 5 => 120 + leap.toNat
  | 6 => 151 + leap.toNat
  | 7 => 181 + leap.toNat
  | 8 => 212 + leap.toNat
  | 9 => 243 + leap.toNat
  | 10 => 273 + leap.toNat
  | 11 => 304 + leap.toNat
  | _ => 334 + leap.toNat

/-- A date from year 1 to year 9999. -/
structure Date where
  year : Nat
  month : Nat
  day : Nat
  year_pos : 1 ≤ year := by decide
  year_le : year ≤ 9999 := by decide
  month_pos : 1 ≤ month := by decide
  month_le : month ≤ 12 := by decide
  day_pos : 1 ≤ day := by decide
  day_le : day ≤ daysInMonth (isLeap year) month := by decide
deriving DecidableEq

/-- The number of days from the day before 1 January of year 1: Python's `toordinal`. -/
def Date.ordinal (d : Date) : Nat :=
  daysBeforeYear d.year + daysBeforeMonth (isLeap d.year) d.month + d.day

/-- The ordinal of 31 December of year 9999. -/
def maxOrdinal : Nat := 3652059

/-- The month and the day of the day of a year with `n` days of the year before it. -/
def monthDay (leap : Bool) (n : Nat) : Nat × Nat :=
  let month := (n + 50) / 32
  let preceding := daysBeforeMonth leap month
  if n < preceding then
    (month - 1, n - (preceding - daysInMonth leap (month - 1)) + 1)
  else (month, n - preceding + 1)

/-- The year, the month and the day with ordinal `ordinal`: Python's `_ord2ymd`. -/
def ordinalToYmd (ordinal : Nat) : Nat × Nat × Nat :=
  let n := ordinal - 1
  let n400 := n / 146097
  let n := n % 146097
  let n100 := n / 36524
  let n := n % 36524
  let n4 := n / 1461
  let n := n % 1461
  let n1 := n / 365
  let n := n % 365
  let year := n400 * 400 + 1 + n100 * 100 + n4 * 4 + n1
  if n1 = 4 ∨ n100 = 4 then (year - 1, 12, 31)
  else (year, monthDay (n1 = 3 && (n4 ≠ 24 || n100 = 3)) n)

/-- The date with ordinal `ordinal`: Python's `fromordinal`. -/
def Date.ofOrdinal (ordinal : Nat) : Option Date :=
  let ymd := ordinalToYmd ordinal
  if h : 1 ≤ ymd.1 ∧ ymd.1 ≤ 9999 ∧ 1 ≤ ymd.2.1 ∧ ymd.2.1 ≤ 12 ∧ 1 ≤ ymd.2.2 ∧
      ymd.2.2 ≤ daysInMonth (isLeap ymd.1) ymd.2.1 ∧ 1 ≤ ordinal then
    some ⟨ymd.1, ymd.2.1, ymd.2.2, h.1, h.2.1, h.2.2.1, h.2.2.2.1, h.2.2.2.2.1, h.2.2.2.2.2.1⟩
  else none

/-- `n` decimal digits at the head of a text, and the text after them. -/
def parseDigits (n : Nat) (chars : List Char) : Option (Nat × List Char) :=
  let digits := chars.take n
  if digits.length = n ∧ digits.all Char.isDigit then
    some (digits.foldl (fun value c => 10 * value + (c.toNat - '0'.toNat)) 0, chars.drop n)
  else none

/-- The date of a day of an ISO week, whose weeks start on Monday and whose first week holds the
first Thursday of the year. -/
def Date.ofIsoWeek (year week day : Nat) : Option Date :=
  let firstDay := daysBeforeYear year + 1
  let firstWeekday := (firstDay + 6) % 7
  let monday := firstDay + (if firstWeekday > 3 then 7 else 0)
  let long := firstWeekday = 3 ∨ (firstWeekday = 2 ∧ isLeap year)
  if 1 ≤ year ∧ year ≤ 9999 ∧ 1 ≤ week ∧ (week ≤ 52 ∨ (week = 53 ∧ long)) ∧ 1 ≤ day ∧ day ≤ 7 then
    Date.ofOrdinal (monday + ((week - 1) * 7 + day - 1) - firstWeekday)
  else none

/-- The text after the separator of a form with hyphens, or after none. -/
def separator (hyphens : Bool) (rest : List Char) : Option (List Char) :=
  if hyphens then (if rest.head? = some '-' then some rest.tail else none) else some rest

/-- The calendar date or week date at the head of a text, with or without hyphens, and the text
after it. -/
def Date.parseIso (chars : List Char) : Option (Date × List Char) := do
  let (year, rest) ← parseDigits 4 chars
  let hyphens := rest.head? = some '-'
  let rest ← separator hyphens rest
  if rest.head? = some 'W' then
    let (week, rest) ← parseDigits 2 rest.tail
    if rest = [] then (Date.ofIsoWeek year week 1).map (·, rest)
    else
      let (day, rest) ← parseDigits 1 (← separator hyphens rest)
      (Date.ofIsoWeek year week day).map (·, rest)
  else
    let (month, rest) ← parseDigits 2 rest
    let (day, rest) ← parseDigits 2 (← separator hyphens rest)
    if h : 1 ≤ year ∧ year ≤ 9999 ∧ 1 ≤ month ∧ month ≤ 12 ∧ 1 ≤ day ∧
        day ≤ daysInMonth (isLeap year) month then
      some (⟨year, month, day, h.1, h.2.1, h.2.2.1, h.2.2.2.1, h.2.2.2.2.1, h.2.2.2.2.2⟩, rest)
    else none

/-- `date.fromisoformat`.  The text has 7, 8 or 10 bytes in UTF-8, of which nothing after the day is
looked at. -/
def Date.ofIsoformat (text : String) : Option Date :=
  if text.utf8ByteSize = 7 ∨ text.utf8ByteSize = 8 ∨ text.utf8ByteSize = 10 then
    (Date.parseIso text.toList).map Prod.fst
  else none

/-- The text is the date in one of the forms and nothing else. -/
def Date.IsWritten (d : Date) (text : String) : Prop := Date.parseIso text.toList = some (d, [])

/-- `a < b`, which compares year, month and day in turn. -/
def Date.lt (a b : Date) : Bool :=
  a.year < b.year || (a.year = b.year && (a.month < b.month ||
    (a.month = b.month && a.day < b.day)))

/-- `rest` comes after `n` characters of one byte each. -/
def ReadsTo (n : Nat) (chars rest : List Char) : Prop :=
  ∃ read, chars = read ++ rest ∧ read.length = n ∧ ∀ c ∈ read, c.utf8Size = 1

section Reading

variable {n m value : Nat} {chars rest last : List Char} {c : Char}

theorem ReadsTo.trans (h : ReadsTo n chars rest) (hrest : ReadsTo m rest last) :
    ReadsTo (n + m) chars last := by
  obtain ⟨read, rfl, rfl, hread⟩ := h
  obtain ⟨more, rfl, rfl, hmore⟩ := hrest
  refine ⟨read ++ more, by simp, by simp, fun c hc => ?_⟩
  exact (List.mem_append.mp hc).elim (hread c) (hmore c)

theorem readsTo_tail (hc : c.utf8Size = 1) (h : chars.head? = some c) :
    ReadsTo 1 chars chars.tail := by
  cases chars with
  | nil => cases h
  | cons first rest =>
    obtain rfl := Option.some.inj h
    exact ⟨[first], rfl, rfl, by simpa using hc⟩

theorem parseDigits_reads (h : parseDigits n chars = some (value, rest)) :
    ReadsTo n chars rest := by
  unfold parseDigits at h
  dsimp only at h
  split at h
  · rename_i hdigits
    obtain ⟨-, rfl⟩ := Prod.mk.inj (Option.some.inj h)
    refine ⟨chars.take n, (List.take_append_drop n chars).symm, hdigits.1, fun c hc => ?_⟩
    have hdigit := List.all_eq_true.mp hdigits.2 c hc
    simp only [Char.isDigit, Bool.and_eq_true, decide_eq_true_eq] at hdigit
    exact Char.utf8Size_eq_one_iff.mpr (Nat.le_trans hdigit.2 (by decide))
  · cases h

theorem separator_reads {hyphens : Bool} (h : separator hyphens chars = some rest) :
    ReadsTo hyphens.toNat chars rest := by
  unfold separator at h
  split at h
  · rename_i hyphen
    split at h
    · rename_i hhead
      obtain rfl := Option.some.inj h
      rw [hyphen]
      exact readsTo_tail rfl hhead
    · cases h
  · rename_i hnone
    obtain rfl := Option.some.inj h
    rw [Bool.eq_false_iff.mpr hnone]
    exact ⟨[], rfl, rfl, by simp⟩

/-- A text that is a date and nothing else has as many bytes as one of the forms. -/
theorem Date.parseIso_reads {d : Date} (h : Date.parseIso chars = some (d, [])) :
    ReadsTo 7 chars [] ∨ ReadsTo 8 chars [] ∨ ReadsTo 10 chars [] := by
  unfold Date.parseIso at h
  simp only [Option.bind_eq_bind, Option.bind_eq_some_iff] at h
  obtain ⟨⟨year, rest⟩, hyear, later, hseparated, h⟩ := h
  have hread := (parseDigits_reads hyear).trans (separator_reads hseparated)
  generalize decide (rest.head? = some '-') = hyphens at hread h
  split at h
  · rename_i hweek
    obtain ⟨⟨week, rest⟩, hparsed, h⟩ := Option.bind_eq_some_iff.mp h
    have hread := (hread.trans (readsTo_tail rfl hweek)).trans (parseDigits_reads hparsed)
    dsimp only at h
    split at h
    · rename_i hend
      subst hend
      cases hyphens with
      | false => exact .inl hread
      | true => exact .inr (.inl hread)
    · obtain ⟨later, hseparated, h⟩ := Option.bind_eq_some_iff.mp h
      obtain ⟨⟨day, rest⟩, hparsed, h⟩ := Option.bind_eq_some_iff.mp h
      obtain ⟨date, _, hpair⟩ := Option.map_eq_some_iff.mp h
      obtain rfl := (Prod.mk.inj hpair).2
      have hread := (hread.trans (separator_reads hseparated)).trans (parseDigits_reads hparsed)
      cases hyphens with
      | false => exact .inr (.inl hread)
      | true => exact .inr (.inr hread)
  · obtain ⟨⟨month, rest⟩, hmonth, h⟩ := Option.bind_eq_some_iff.mp h
    obtain ⟨later, hseparated, h⟩ := Option.bind_eq_some_iff.mp h
    obtain ⟨⟨day, rest⟩, hday, h⟩ := Option.bind_eq_some_iff.mp h
    dsimp only at h
    split at h
    · obtain rfl := (Prod.mk.inj (Option.some.inj h)).2
      have hread := ((hread.trans (parseDigits_reads hmonth)).trans
        (separator_reads hseparated)).trans (parseDigits_reads hday)
      cases hyphens with
      | false => exact .inr (.inl hread)
      | true => exact .inr (.inr hread)
    · cases h

theorem utf8ByteSize_of_ascii {s : String} (h : ∀ c ∈ s.toList, c.utf8Size = 1) :
    s.utf8ByteSize = s.toList.length := by
  induction s using String.push_induction with
  | empty => rfl
  | push b c ih =>
    rw [String.toList_push] at h ⊢
    rw [String.utf8ByteSize_push, ih fun c hc => h c (List.mem_append_left _ hc),
      h c (List.mem_append_right _ (List.mem_singleton_self c)), List.length_append]
    rfl

/-- A date that is written is read. -/
theorem Date.IsWritten.ofIsoformat {d : Date} {text : String} (h : d.IsWritten text) :
    Date.ofIsoformat text = some d := by
  have hsize : ∀ n, ReadsTo n text.toList [] → text.utf8ByteSize = n := by
    rintro n ⟨read, htext, rfl, hascii⟩
    rw [List.append_nil] at htext
    rw [utf8ByteSize_of_ascii (htext ▸ hascii), htext]
  rw [Date.ofIsoformat, if_pos, h]
  · rfl
  · exact (Date.parseIso_reads h).imp (hsize 7) (Or.imp (hsize 8) (hsize 10))

theorem Date.ne_empty_of_ofIsoformat {d : Date} {text : String}
    (h : Date.ofIsoformat text = some d) : text ≠ "" := by
  rintro rfl
  have hempty : Date.ofIsoformat "" = none := by decide
  rw [hempty] at h
  cases h

end Reading

theorem monthDay_spec : ∀ leap : Bool, ∀ n < 365 + leap.toNat,
    1 ≤ (monthDay leap n).1 ∧ (monthDay leap n).1 ≤ 12 ∧ 1 ≤ (monthDay leap n).2 ∧
      (monthDay leap n).2 ≤ daysInMonth leap (monthDay leap n).1 ∧
      daysBeforeMonth leap (monthDay leap n).1 + (monthDay leap n).2 = n + 1 := by
  decide +kernel

/-- Days before a year given by its place in the 400, 100 and 4 year cycles. -/
theorem daysBeforeYear_cycles {a b c e : Nat} (hb : b ≤ 3) (hc : c ≤ 24) (he : e ≤ 3) :
    daysBeforeYear (a * 400 + 1 + b * 100 + c * 4 + e) =
      146097 * a + 36524 * b + 1461 * c + 365 * e := by
  unfold daysBeforeYear
  omega

theorem isLeap_cycles {a b c e : Nat} (hb : b ≤ 3) (hc : c ≤ 24) (he : e ≤ 3) :
    isLeap (a * 400 + 1 + b * 100 + c * 4 + e) = (e = 3 && (c ≠ 24 || b = 3)) := by
  rw [Bool.eq_iff_iff]
  simp only [isLeap, Bool.and_eq_true, decide_eq_true_eq, Bool.or_eq_true, ne_eq]
  omega

/-- The year, the month and the day of an ordinal are those of a date with that ordinal. -/
theorem ordinalToYmd_spec {ordinal : Nat} (hpos : 1 ≤ ordinal) (hmax : ordinal ≤ maxOrdinal) :
    let ymd := ordinalToYmd ordinal
    1 ≤ ymd.1 ∧ ymd.1 ≤ 9999 ∧ 1 ≤ ymd.2.1 ∧ ymd.2.1 ≤ 12 ∧ 1 ≤ ymd.2.2 ∧
      ymd.2.2 ≤ daysInMonth (isLeap ymd.1) ymd.2.1 ∧
      daysBeforeYear ymd.1 + daysBeforeMonth (isLeap ymd.1) ymd.2.1 + ymd.2.2 = ordinal := by
  unfold maxOrdinal at hmax
  simp only [ordinalToYmd]
  generalize ha : (ordinal - 1) / 146097 = a
  generalize hr : (ordinal - 1) % 146097 = r
  generalize hb : r / 36524 = b
  generalize hs : r % 36524 = s
  generalize hc : s / 1461 = c
  generalize ht : s % 1461 = t
  generalize he : t / 365 = e
  generalize hn : t % 365 = n
  split
  · rename_i last
    -- 31 December of a leap year: the last day of a cycle of 4 or of 400 years
    obtain ⟨b', c', hb', hc', hleap, hyear, hn'⟩ : ∃ b' c', b' ≤ 3 ∧ c' ≤ 24 ∧
        (c' ≠ 24 ∨ b' = 3) ∧
        a * 400 + 1 + b * 100 + c * 4 + e - 1 = a * 400 + 1 + b' * 100 + c' * 4 + 3 ∧
        ordinal = 146097 * a + 36524 * b' + 1461 * c' + 365 * 3 + 366 := by
      by_cases h4 : b = 4
      · exact ⟨3, 24, by omega, by omega, by omega, by omega, by omega⟩
      · exact ⟨b, c, by omega, by omega, by omega, by omega, by omega⟩
    have hl : isLeap (a * 400 + 1 + b' * 100 + c' * 4 + 3) = true := by
      rw [isLeap_cycles hb' hc' (by omega)]
      simpa using hleap
    simp only [hyear, hl, daysBeforeYear_cycles hb' hc' (Nat.le_refl 3), daysInMonth,
      daysBeforeMonth, Bool.toNat_true]
    omega
  · rename_i inner
    have hb3 : b ≤ 3 := by omega
    have hc24 : c ≤ 24 := by omega
    have he3 : e ≤ 3 := by omega
    dsimp only
    rw [isLeap_cycles hb3 hc24 he3, daysBeforeYear_cycles hb3 hc24 he3]
    obtain ⟨h1, h2, h3, h4, h5⟩ :=
      monthDay_spec (e = 3 && (c ≠ 24 || b = 3)) n (by omega)
    refine ⟨by omega, by omega, h1, h2, h3, h4, by omega⟩

theorem Date.ofOrdinal_isSome {ordinal : Nat} (hpos : 1 ≤ ordinal) (hmax : ordinal ≤ maxOrdinal) :
    ∃ d, Date.ofOrdinal ordinal = some d := by
  obtain ⟨h1, h2, h3, h4, h5, h6, -⟩ := ordinalToYmd_spec hpos hmax
  exact ⟨_, dif_pos ⟨h1, h2, h3, h4, h5, h6, hpos⟩⟩

theorem daysBeforeYear_le {year : Nat} (h : year ≤ 10000) : daysBeforeYear year ≤ maxOrdinal := by
  unfold daysBeforeYear maxOrdinal
  omega

/-- A multiple of `k` closes a cycle of `k` years. -/
theorem div_pred (year k : Nat) (hyear : 1 ≤ year) :
    year / k = (year - 1) / k + if year % k = 0 then 1 else 0 := by
  obtain ⟨m, rfl⟩ : ∃ m, year = m + 1 := ⟨year - 1, by omega⟩
  rw [Nat.add_sub_cancel, Nat.succ_div]
  simp only [Nat.dvd_iff_mod_eq_zero]

theorem daysBeforeYear_succ {year : Nat} (h : 1 ≤ year) :
    daysBeforeYear (year + 1) = daysBeforeYear year + 365 + (isLeap year).toNat := by
  have h4 := div_pred year 4 h
  have h100 := div_pred year 100 h
  have h400 := div_pred year 400 h
  have hle : (year - 1) / 100 ≤ (year - 1) / 4 := Nat.div_le_div_left (by decide) (by decide)
  have hleap : (isLeap year).toNat + (if year % 100 = 0 then 1 else 0) =
      (if year % 4 = 0 then 1 else 0) + if year % 400 = 0 then 1 else 0 := by
    have hdvd : year % 400 = 0 → year % 100 = 0 := by omega
    have hdvd' : year % 100 = 0 → year % 4 = 0 := by omega
    by_cases h1 : year % 4 = 0 <;> by_cases h2 : year % 100 = 0 <;>
      by_cases h3 : year % 400 = 0 <;> simp_all [isLeap]
  simp only [daysBeforeYear, Nat.add_sub_cancel]
  omega

theorem daysBeforeMonth_le : ∀ leap : Bool, ∀ month ≤ 12, 1 ≤ month →
    daysBeforeMonth leap month + daysInMonth leap month ≤ 365 + leap.toNat := by
  decide

theorem Date.ordinal_pos (d : Date) : 1 ≤ d.ordinal := by
  have := d.day_pos
  unfold Date.ordinal
  omega

theorem Date.ordinal_le (d : Date) : d.ordinal ≤ maxOrdinal := by
  have h1 := daysBeforeMonth_le (isLeap d.year) d.month d.month_le d.month_pos
  have h2 := daysBeforeYear_succ d.year_pos
  have h3 : daysBeforeYear (d.year + 1) ≤ maxOrdinal :=
    daysBeforeYear_le (by have := d.year_le; omega)
  have h4 := d.day_le
  unfold Date.ordinal
  omega

theorem Date.ordinal_ofOrdinal {ordinal : Nat} {d : Date} (hmax : ordinal ≤ maxOrdinal)
    (h : Date.ofOrdinal ordinal = some d) : d.ordinal = ordinal := by
  unfold Date.ofOrdinal at h
  simp only at h
  split at h
  · rename_i valid
    obtain rfl := Option.some.inj h
    exact (ordinalToYmd_spec valid.2.2.2.2.2.2 hmax).2.2.2.2.2.2
  · contradiction

theorem daysBeforeYear_mono {a b : Nat} (h : a ≤ b) : daysBeforeYear a ≤ daysBeforeYear b := by
  induction h with
  | refl => exact Nat.le_refl _
  | @step year _ ih =>
    rcases Nat.eq_zero_or_pos year with rfl | hpos
    · exact ih
    · have next : daysBeforeYear year ≤ daysBeforeYear (year + 1) := by
        rw [daysBeforeYear_succ hpos]
        omega
      exact Nat.le_trans ih next

theorem daysBeforeMonth_lt : ∀ leap : Bool, ∀ later ≤ 12, ∀ month < later, 1 ≤ month →
    daysBeforeMonth leap month + daysInMonth leap month ≤ daysBeforeMonth leap later := by
  decide

theorem Date.ordinal_le_year (d : Date) : d.ordinal ≤ daysBeforeYear (d.year + 1) := by
  have hmonth := daysBeforeMonth_le (isLeap d.year) d.month d.month_le d.month_pos
  have hyear := daysBeforeYear_succ d.year_pos
  have hday := d.day_le
  unfold Date.ordinal
  omega

theorem Date.ordinal_lt {a b : Date} (h : a.lt b = true) : a.ordinal < b.ordinal := by
  simp only [Date.lt, Bool.or_eq_true, Bool.and_eq_true, decide_eq_true_eq] at h
  have hday := b.day_pos
  rcases h with hyear | ⟨hyear, hmonth | ⟨hmonth, hlt⟩⟩
  · have hle := a.ordinal_le_year
    have hmono : daysBeforeYear (a.year + 1) ≤ daysBeforeYear b.year := daysBeforeYear_mono hyear
    have hb : daysBeforeYear b.year < b.ordinal := by
      unfold Date.ordinal
      omega
    omega
  · have hle := daysBeforeMonth_lt (isLeap b.year) b.month b.month_le a.month hmonth a.month_pos
    have ha := a.day_le
    rw [hyear] at ha
    simp only [Date.ordinal, hyear]
    omega
  · simp only [Date.ordinal, hyear, hmonth]
    omega

theorem Date.lt_trichotomy (a b : Date) : a.lt b = true ∨ a = b ∨ b.lt a = true := by
  cases a
  cases b
  simp only [Date.lt, Bool.or_eq_true, Bool.and_eq_true, decide_eq_true_eq, Date.mk.injEq]
  omega

end Kit
