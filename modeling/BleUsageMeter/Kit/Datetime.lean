import BleUsageMeter.Kit.Calendar
import BleUsageMeter.Kit.Python

/-! Python's `datetime` values: naive or with a UTC offset of whole seconds.  Arithmetic that leaves
the years 1 to 9999 raises, as does comparing a naive value with an aware one.  `timestamp` is a
double in Python; `truncSeconds` rounds to the nearest double before it truncates. -/

namespace Kit

/-- A `datetime`.  `utcoffset` is in seconds and absent for a naive value. -/
structure Datetime where
  date : Date
  hour : Nat
  minute : Nat
  second : Nat
  microsecond : Nat
  utcoffset : Option Int
  hour_lt : hour < 24 := by decide
  minute_lt : minute < 60 := by decide
  second_lt : second < 60 := by decide
  microsecond_lt : microsecond < 1000000 := by decide
  utcoffset_lt : ∀ o ∈ utcoffset, -86400 < o ∧ o < 86400 := by decide
deriving DecidableEq

namespace Datetime

/-- The seconds from the day before year 1 to the date and time as written. -/
def localSeconds (d : Datetime) : Nat :=
  d.date.ordinal * 86400 + (d.hour * 3600 + d.minute * 60 + d.second)

/-- The instant, in microseconds, with a naive value read as UTC. -/
def instant (d : Datetime) : Int :=
  (d.localSeconds - d.utcoffset.getD 0) * 1000000 + d.microsecond

/-- `a < b`. -/
def lt (a b : Datetime) : Except PyException Bool :=
  match a.utcoffset, b.utcoffset with
  | none, none | some _, some _ => .ok (decide (a.instant < b.instant))
  | _, _ => .error .typeError

/-- The date and time `n` seconds later, with the same offset. -/
def addSeconds (d : Datetime) (n : Int) : Except PyException Datetime :=
  let total := d.localSeconds + n
  if 86400 ≤ total ∧ total < (maxOrdinal + 1 : Nat) * 86400 then
    let t := total.toNat
    match Date.ofOrdinal (t / 86400) with
    | some date =>
      .ok { d with
        date
        hour := t % 86400 / 3600
        minute := t % 3600 / 60
        second := t % 60
        hour_lt := by omega
        minute_lt := by omega
        second_lt := by omega }
    | none => .error .overflowError
  else .error .overflowError

/-- `d - timedelta(days=days)`. -/
def minusDays (d : Datetime) (days : Int) : Except PyException Datetime :=
  if -999999999 ≤ days ∧ days ≤ 999999999 then d.addSeconds (-days * 86400)
  else .error .overflowError

/-- `d.replace(tzinfo=timezone.utc)`. -/
def replaceUtc (d : Datetime) : Datetime :=
  { d with utcoffset := some 0, utcoffset_lt := by simp }

/-- `d.replace(microsecond=0)`. -/
def dropMicrosecond (d : Datetime) : Datetime :=
  { d with microsecond := 0, microsecond_lt := by decide }

/-- `d.astimezone(timezone.utc)` for an aware `d`. -/
def astimezoneUtc (d : Datetime) : Except PyException Datetime :=
  match d.utcoffset with
  | some 0 => .ok d
  | some o => (d.addSeconds (-o)).map replaceUtc
  | none => .ok d

/-- 1 January 1970, the start of Unix time. -/
def epoch : Datetime where
  date := { year := 1970, month := 1, day := 1 }
  hour := 0
  minute := 0
  second := 0
  microsecond := 0
  utcoffset := some 0

/-- The whole seconds of `micros` microseconds, rounded to the nearest double and then truncated.
Only a value within half a unit in the last place of the next second is rounded up to it. -/
def truncSeconds (micros : Int) : Int :=
  let n := micros.natAbs
  let whole := n / 1000000
  let missing := 1000000 - n % 1000000
  let magnitude :=
    if n % 1000000 ≠ 0 ∧ missing * 2 ^ (53 - whole.log2) ≤ 1000000 then whole + 1 else whole
  if 0 ≤ micros then magnitude else -magnitude

/-- `int(d.timestamp())` for an aware `d`. -/
def timestampInt (d : Datetime) : Int := truncSeconds (d.instant - epoch.instant)

/-- `datetime.fromtimestamp(t, timezone.utc)` for whole seconds. -/
def fromTimestamp (t : Int) : Except PyException Datetime := epoch.addSeconds t

/-- `n` in decimal, with zeros to at least `width` digits. -/
def pad (width n : Nat) : String :=
  let digits := Nat.toDigits 10 n
  String.ofList (List.replicate (width - digits.length) '0' ++ digits)

def offsetText (o : Int) : String :=
  let n := o.natAbs
  (if o < 0 then "-" else "+") ++ pad 2 (n / 3600) ++ ":" ++ pad 2 (n % 3600 / 60) ++
    if n % 60 = 0 then "" else ":" ++ pad 2 (n % 60)

/-- `d.isoformat()`. -/
def isoformat (d : Datetime) : String :=
  pad 4 d.date.year ++ "-" ++ pad 2 d.date.month ++ "-" ++ pad 2 d.date.day ++ "T" ++
    pad 2 d.hour ++ ":" ++ pad 2 d.minute ++ ":" ++ pad 2 d.second ++
    (if d.microsecond = 0 then "" else "." ++ pad 6 d.microsecond) ++
    match d.utcoffset with
    | none => ""
    | some o => offsetText o

/-- `d.strftime("%Y-%m-%dT%H:%M:%SZ")`.  glibc's `%Y` writes no leading zeros. -/
def strftimeZ (d : Datetime) : String :=
  pad 1 d.date.year ++ "-" ++ pad 2 d.date.month ++ "-" ++ pad 2 d.date.day ++ "T" ++
    pad 2 d.hour ++ ":" ++ pad 2 d.minute ++ ":" ++ pad 2 d.second ++ "Z"

theorem lt_self (d : Datetime) : d.lt d = .ok false := by
  unfold lt
  cases d.utcoffset <;> simp

/-- A comparison raises exactly when one value is naive and the other aware. -/
theorem lt_isOk_iff {a b : Datetime} :
    (∃ late, a.lt b = .ok late) ↔ a.utcoffset.isSome = b.utcoffset.isSome := by
  unfold lt
  cases a.utcoffset <;> cases b.utcoffset <;> simp

theorem addSeconds_spec {d e : Datetime} {n : Int} (h : d.addSeconds n = .ok e) :
    (e.localSeconds : Int) = d.localSeconds + n ∧ e.microsecond = d.microsecond ∧
      e.utcoffset = d.utcoffset := by
  unfold addSeconds at h
  simp only at h
  split at h
  · rename_i range
    split at h
    · rename_i date hdate
      obtain rfl := Except.ok.inj h
      have hord := Date.ordinal_ofOrdinal (by omega) hdate
      refine ⟨?_, rfl, rfl⟩
      simp only [localSeconds, hord] at range ⊢
      omega
    · contradiction
  · contradiction

theorem addSeconds_isOk {d : Datetime} {n : Int} (hlow : 86400 ≤ d.localSeconds + n)
    (hhigh : d.localSeconds + n < (maxOrdinal + 1 : Nat) * 86400) :
    ∃ e, d.addSeconds n = .ok e := by
  obtain ⟨date, hdate⟩ : ∃ date, Date.ofOrdinal ((d.localSeconds + n).toNat / 86400) = some date :=
    Date.ofOrdinal_isSome (by omega) (by omega)
  unfold addSeconds
  simp only [hlow, hhigh, and_self, if_true, hdate]
  exact ⟨_, rfl⟩

theorem addSeconds_isError {d : Datetime} {n : Int}
    (h : ¬(86400 ≤ d.localSeconds + n ∧ d.localSeconds + n < (maxOrdinal + 1 : Nat) * 86400)) :
    d.addSeconds n = .error .overflowError := by
  unfold addSeconds
  simp only [h, if_false]

theorem localSeconds_bounds (d : Datetime) :
    86400 ≤ d.localSeconds ∧ d.localSeconds < (maxOrdinal + 1) * 86400 := by
  have hpos := d.date.ordinal_pos
  have hle := d.date.ordinal_le
  have hhour := d.hour_lt
  have hminute := d.minute_lt
  have hsecond := d.second_lt
  unfold localSeconds
  omega

@[simp] theorem replaceUtc_localSeconds (d : Datetime) :
    d.replaceUtc.localSeconds = d.localSeconds := rfl

@[simp] theorem replaceUtc_microsecond (d : Datetime) :
    d.replaceUtc.microsecond = d.microsecond := rfl

@[simp] theorem replaceUtc_utcoffset (d : Datetime) : d.replaceUtc.utcoffset = some 0 := rfl

theorem replaceUtc_instant {d : Datetime} (h : d.utcoffset = none) :
    d.replaceUtc.instant = d.instant := by
  simp [instant, h]

/-- Conversion to UTC succeeds unless it leaves the years 1 to 9999. -/
theorem astimezoneUtc_isOk {d : Datetime} (hlow : 86400 ≤ d.localSeconds - d.utcoffset.getD 0)
    (hhigh : d.localSeconds - d.utcoffset.getD 0 < (maxOrdinal + 1 : Nat) * 86400) :
    ∃ e, d.astimezoneUtc = .ok e := by
  unfold astimezoneUtc
  split
  · exact ⟨d, rfl⟩
  · rename_i o _ ho
    rw [ho, Option.getD_some] at hlow hhigh
    obtain ⟨e, he⟩ : ∃ e, d.addSeconds (-o) = .ok e := addSeconds_isOk (by omega) (by omega)
    exact ⟨e.replaceUtc, by rw [he]; rfl⟩
  · exact ⟨d, rfl⟩

theorem astimezoneUtc_isError {d : Datetime}
    (h : ¬(86400 ≤ d.localSeconds - d.utcoffset.getD 0 ∧
      d.localSeconds - d.utcoffset.getD 0 < (maxOrdinal + 1 : Nat) * 86400)) :
    d.astimezoneUtc = .error .overflowError := by
  have hbounds := d.localSeconds_bounds
  unfold astimezoneUtc
  split
  · rename_i ho
    rw [ho, Option.getD_some] at h
    omega
  · rename_i o _ ho
    rw [ho, Option.getD_some] at h
    rw [addSeconds_isError (by omega)]
    rfl
  · rename_i ho
    rw [ho, Option.getD_none] at h
    omega

theorem astimezoneUtc_instant {d e : Datetime} (h : d.astimezoneUtc = .ok e) :
    e.instant = d.instant := by
  unfold astimezoneUtc at h
  split at h
  · rw [Except.ok.inj h]
  · rename_i o _ ho
    cases hadd : d.addSeconds (-o) with
    | error ex => rw [hadd] at h; contradiction
    | ok f =>
      rw [hadd] at h
      obtain rfl := Except.ok.inj h
      obtain ⟨hs, hm, -⟩ := addSeconds_spec hadd
      simp [instant, ho, hs, hm, Int.sub_eq_add_neg]
  · rw [Except.ok.inj h]

/-- Timestamps of the next centuries are read. -/
theorem fromTimestamp_isOk {t : Int} (h0 : 0 ≤ t) (h : t ≤ 20000000000) :
    ∃ d, fromTimestamp t = .ok d := by
  have hepoch : epoch.localSeconds = 62135683200 := by decide
  have hmax : (maxOrdinal + 1 : Nat) = 3652060 := rfl
  exact addSeconds_isOk (by omega) (by omega)

theorem fromTimestamp_spec {t : Int} {d : Datetime} (h : fromTimestamp t = .ok d) :
    (d.localSeconds : Int) = epoch.localSeconds + t ∧ d.utcoffset = some 0 ∧
      d.instant = epoch.instant + t * 1000000 := by
  obtain ⟨hseconds, hmicro, hoffset⟩ := addSeconds_spec h
  have hinstant : epoch.instant = epoch.localSeconds * 1000000 := by decide
  refine ⟨hseconds, hoffset, ?_⟩
  rw [hinstant, instant, hseconds, hoffset, hmicro]
  simp only [epoch, Option.getD_some]
  omega

theorem truncSeconds_whole (n : Int) : truncSeconds (n * 1000000) = n := by
  have habs : (n * 1000000).natAbs = n.natAbs * 1000000 := by simp [Int.natAbs_mul]
  have hmod : n.natAbs * 1000000 % 1000000 = 0 := by omega
  simp only [truncSeconds, habs, hmod, ne_eq, not_true_eq_false, false_and, if_false]
  split <;> omega

theorem truncSeconds_le (micros : Int) : truncSeconds micros ≤ micros.natAbs / 1000000 + 1 := by
  unfold truncSeconds
  dsimp only
  split <;> split <;> omega

/-- Truncation is toward zero, so it gives a negative number exactly from one second before the
epoch on down, up to the rounding. -/
theorem truncSeconds_nonneg_iff (micros : Int) : 0 ≤ truncSeconds micros ↔ -1000000 < micros := by
  have hpow : 2 ^ 53 ≤ (2 ^ (53 - (micros.natAbs / 1000000).log2) : Nat) ∨
      1000000 ≤ micros.natAbs := by
    by_cases h : micros.natAbs < 1000000
    · left
      rw [Nat.div_eq_of_lt h]
      simp
    · exact .inr (by omega)
  simp only [truncSeconds]
  generalize 2 ^ (53 - (micros.natAbs / 1000000).log2) = p at hpow
  by_cases h0 : 0 ≤ micros
  · simp only [h0, if_true]
    constructor
    · intro _; omega
    · intro _; split <;> omega
  · simp only [h0, if_false]
    rcases hpow with hpow | hpow
    · have hround : ¬(micros.natAbs % 1000000 ≠ 0 ∧
          (1000000 - micros.natAbs % 1000000) * p ≤ 1000000) := by
        rintro ⟨-, hle⟩
        have hpos : 1 ≤ 1000000 - micros.natAbs % 1000000 := by omega
        have := Nat.mul_le_mul hpos hpow
        omega
      simp only [hround, if_false]
      omega
    · split <;> omega

end Datetime

end Kit
