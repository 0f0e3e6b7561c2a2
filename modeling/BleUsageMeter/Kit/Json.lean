import Mathlib.Algebra.BigOperators.Group.List.Basic
import Mathlib.Data.List.Perm.Subperm
import BleUsageMeter.Kit.Dict
import BleUsageMeter.Kit.Text

/-! JSON texts: a decoder for whole texts, and the least number of UTF-8 bytes in which a text can
hold the members of an object.  The decoder's recursion is bounded by a number, and a text denotes
what it is decoded to with any bound. -/

namespace Kit

/-- A JSON value.  A number with a fraction or an exponent is kept as it is written. -/
inductive Json
  | null
  | bool (b : Bool)
  | int (n : Int)
  | float (literal : String)
  | str (s : String)
  | array (items : List Json)
  | object (members : List (String × Json))

namespace Json

def isBlank (c : Char) : Bool := c == ' ' || c == '\t' || c == '\n' || c == '\r'

def skip (s : List Char) : List Char := s.dropWhile isBlank

/-! ### Strings -/

/-- The character that a letter after a backslash stands for. -/
def escaped : Char → Option Char
  | '"' => some '"'
  | '\\' => some '\\'
  | '/' => some '/'
  | 'b' => some (Char.ofNat 8)
  | 'f' => some (Char.ofNat 12)
  | 'n' => some '\n'
  | 'r' => some '\r'
  | 't' => some '\t'
  | _ => none

def hex4 (a b c d : Char) : Option Nat := do
  let a ← hexValue a
  let b ← hexValue b
  let c ← hexValue c
  let d ← hexValue d
  return 4096 * a + 256 * b + 16 * c + d

/-- What stands after a backslash: the character, and how many characters denote it. -/
def unescape : List Char → Option (Char × Nat)
  | 'u' :: a :: b :: c :: d :: rest =>
    match hex4 a b c d with
    | none => none
    | some n =>
      if n < 0xD800 ∨ 0xE000 ≤ n then some (Char.ofNat n, 5)
      else
        match rest with
        | '\\' :: 'u' :: a' :: b' :: c' :: d' :: _ =>
          match hex4 a' b' c' d' with
          | none => none
          | some m =>
            if n < 0xDC00 ∧ 0xDC00 ≤ m ∧ m < 0xE000 then
              some (Char.ofNat (0x10000 + 0x400 * (n - 0xD800) + (m - 0xDC00)), 11)
            else none
        | _ => none
  | e :: _ => (escaped e).map fun c => (c, 1)
  | [] => none

/-- The characters of a string up to its closing quote, and the text after it.  The first number
counts the characters of an escape that are still to be passed over. -/
def stringBody : Nat → List Char → Option (List Char × List Char)
  | _, [] => none
  | n + 1, _ :: rest => stringBody n rest
  | 0, c :: rest =>
    if c = '"' then some ([], rest)
    else if c = '\\' then
      match unescape rest with
      | none => none
      | some (d, n) => (stringBody n rest).map fun (y, rest) => (d :: y, rest)
    else if c.toNat < 0x20 then none
    else (stringBody 0 rest).map fun (y, rest) => (c :: y, rest)

/-! ### Numbers -/

/-- An integer without a sign and without leading zeros. -/
def integer (s : List Char) : Option (Nat × List Char) :=
  let digits := s.takeWhile Char.isDigit
  if digits = [] ∨ (digits.head? = some '0' ∧ digits ≠ ['0']) then none
  else some (Nat.ofDigitChars 10 digits 0, s.dropWhile Char.isDigit)

/-- The text after one digit or more. -/
def afterDigits (s : List Char) : Option (List Char) :=
  if s.takeWhile Char.isDigit = [] then none else some (s.dropWhile Char.isDigit)

/-- The text after a fraction, if there is one. -/
def fraction : List Char → Option (List Char)
  | '.' :: rest => afterDigits rest
  | s => some s

/-- The text after an exponent, if there is one. -/
def exponent : List Char → Option (List Char)
  | c :: rest =>
    if c = 'e' ∨ c = 'E' then
      match rest with
      | '+' :: rest => afterDigits rest
      | '-' :: rest => afterDigits rest
      | rest => afterDigits rest
    else some (c :: rest)
  | [] => some []

def number (s : List Char) : Option (Json × List Char) :=
  let unsigned := if s.head? = some '-' then s.tail else s
  match integer unsigned with
  | none => none
  | some (n, rest) =>
    match (fraction rest).bind exponent with
    | none => none
    | some rest' =>
      if rest'.length = rest.length then
        some (.int (if s.head? = some '-' then -n else n), rest')
      else some (.float (String.ofList (s.take (s.length - rest'.length))), rest')

/-! ### Values -/

mutual

/-- A value at the head of a text, and the text after it. -/
def value : Nat → List Char → Option (Json × List Char)
  | 0, _ => none
  | fuel + 1, s =>
    match s with
    | '"' :: rest => (stringBody 0 rest).map fun (y, rest) => (.str (String.ofList y), rest)
    | '\x7b' :: rest =>
      if (skip rest).head? = some '\x7d' then some (.object [], (skip rest).tail)
      else (members fuel (skip rest)).map fun (fields, rest) => (.object fields, rest)
    | '[' :: rest =>
      if (skip rest).head? = some ']' then some (.array [], (skip rest).tail)
      else (elements fuel (skip rest)).map fun (items, rest) => (.array items, rest)
    | 't' :: 'r' :: 'u' :: 'e' :: rest => some (.bool true, rest)
    | 'f' :: 'a' :: 'l' :: 's' :: 'e' :: rest => some (.bool false, rest)
    | 'n' :: 'u' :: 'l' :: 'l' :: rest => some (.null, rest)
    | s => number s

/-- The elements of an array up to its closing bracket. -/
def elements : Nat → List Char → Option (List Json × List Char)
  | 0, _ => none
  | fuel + 1, s =>
    match value fuel s with
    | none => none
    | some (v, rest) =>
      match skip rest with
      | ']' :: rest => some ([v], rest)
      | ',' :: rest => (elements fuel (skip rest)).map fun (items, rest) => (v :: items, rest)
      | _ => none

/-- The members of an object up to its closing brace. -/
def members : Nat → List Char → Option (List (String × Json) × List Char)
  | 0, _ => none
  | fuel + 1, s =>
    match s with
    | '"' :: rest =>
      match stringBody 0 rest with
      | none => none
      | some (key, rest) =>
        match skip rest with
        | ':' :: rest =>
          match value fuel (skip rest) with
          | none => none
          | some (v, rest) =>
            match skip rest with
            | '\x7d' :: rest => some ([(String.ofList key, v)], rest)
            | ',' :: rest =>
              (members fuel (skip rest)).map fun (fields, rest) =>
                ((String.ofList key, v) :: fields, rest)
            | _ => none
        | _ => none
    | _ => none

end

/-- The text is one JSON value, with nothing but blanks around it. -/
def Denotes (text : List Char) (v : Json) : Prop :=
  ∃ fuel rest, value fuel (skip text) = some (v, rest) ∧ skip rest = []

/-! ### The size of a text -/

/-- The length in UTF-8. -/
def weight (s : List Char) : Nat := (s.map Char.utf8Size).sum

@[simp] theorem weight_nil : weight [] = 0 := rfl

@[simp] theorem weight_cons (c : Char) (s : List Char) : weight (c :: s) = c.utf8Size + weight s :=
  List.sum_cons

@[simp] theorem weight_append (s t : List Char) : weight (s ++ t) = weight s + weight t := by
  rw [weight, List.map_append, List.sum_append, weight, weight]

theorem length_le_weight (s : List Char) : s.length ≤ weight s := by
  induction s with
  | nil => exact Nat.le_refl 0
  | cons c s ih =>
    have := c.utf8Size_pos
    rw [List.length_cons, weight_cons]
    omega

theorem lt_weight_cons (c : Char) (s : List Char) : weight s < weight (c :: s) := by
  have := c.utf8Size_pos
  rw [weight_cons]
  omega

theorem weight_tail_le (s : List Char) : weight s.tail ≤ weight s := by
  cases s with
  | nil => exact Nat.le_refl _
  | cons c s => exact Nat.le_of_lt (lt_weight_cons c s)

theorem weight_dropWhile (p : Char → Bool) (s : List Char) :
    weight (s.takeWhile p) + weight (s.dropWhile p) = weight s := by
  rw [← weight_append, List.takeWhile_append_dropWhile]

theorem weight_skip_le (s : List Char) : weight (skip s) ≤ weight s := by
  have := weight_dropWhile isBlank s
  rw [skip]
  omega

theorem utf8_length_eq (s : String) : (utf8 s).length = weight s.toList := by
  rw [utf8_length]
  induction s using String.push_induction with
  | empty => rfl
  | push b c ih =>
    rw [String.utf8ByteSize_push, ih, String.toList_push, weight_append, weight_cons, weight_nil]
    rfl

/-- A character that stands for itself in a string. -/
structure Plain (c : Char) : Prop where
  quote : c ≠ '"'
  backslash : c ≠ '\\'
  control : 0x20 ≤ c.toNat

instance (c : Char) : Decidable (Plain c) :=
  decidable_of_iff (c ≠ '"' ∧ c ≠ '\\' ∧ 0x20 ≤ c.toNat)
    ⟨fun h => ⟨h.1, h.2.1, h.2.2⟩, fun h => ⟨h.quote, h.backslash, h.control⟩⟩

theorem escaped_size {e c : Char} (h : escaped e = some c) : c.utf8Size = 1 := by
  unfold escaped at h
  split at h
  case h_9 => cases h
  all_goals
    obtain rfl := Option.some.inj h
    rfl

/-- An escape is no shorter than what it denotes. -/
theorem unescape_size {s : List Char} {c : Char} {n : Nat} (h : unescape s = some (c, n)) :
    n ≤ s.length ∧ c.utf8Size ≤ n := by
  have hfour := c.utf8Size_le_four
  unfold unescape at h
  split at h
  · split at h
    · cases h
    · split at h
      · obtain ⟨-, rfl⟩ := Prod.mk.inj (Option.some.inj h)
        simp only [List.length_cons]
        omega
      · split at h
        · split at h
          · cases h
          · split at h
            · obtain ⟨-, rfl⟩ := Prod.mk.inj (Option.some.inj h)
              simp only [List.length_cons]
              omega
            · cases h
        · cases h
  · obtain ⟨d, hd, hpair⟩ := Option.map_eq_some_iff.mp h
    obtain ⟨rfl, rfl⟩ := Prod.mk.inj hpair
    rw [escaped_size hd, List.length_cons]
    omega
  · cases h

/-- The text up to the closing quote, which is no shorter than what it denotes, and as long only
where every character stands for itself. -/
def Quotes (s y rest : List Char) : Prop :=
  ∃ content, s = content ++ '"' :: rest ∧ weight y ≤ weight content ∧
    (weight content ≤ weight y → content = y ∧ ∀ c ∈ y, Plain c)

theorem Quotes.close (rest : List Char) : Quotes ('"' :: rest) [] rest :=
  ⟨[], rfl, Nat.le_refl _, fun _ => ⟨rfl, List.forall_mem_nil _⟩⟩

theorem Quotes.plain {c : Char} {s y rest : List Char} (hc : Plain c) (h : Quotes s y rest) :
    Quotes (c :: s) (c :: y) rest := by
  obtain ⟨content, rfl, hle, heq⟩ := h
  refine ⟨c :: content, rfl, ?_, fun hge => ?_⟩
  · rw [weight_cons, weight_cons]
    omega
  · rw [weight_cons, weight_cons] at hge
    obtain ⟨rfl, hplain⟩ := heq (by omega)
    exact ⟨rfl, List.forall_mem_cons.mpr ⟨hc, hplain⟩⟩

/-- The backslash makes an escape longer than its character. -/
theorem Quotes.escape {c d : Char} {n : Nat} {s y rest : List Char} (hn : n ≤ s.length)
    (hsize : d.utf8Size ≤ n) (h : Quotes (s.drop n) y rest) : Quotes (c :: s) (d :: y) rest := by
  obtain ⟨content, hcontent, hle, -⟩ := h
  have htake := length_le_weight (s.take n)
  have hone := c.utf8Size_pos
  rw [List.length_take, Nat.min_eq_left hn] at htake
  refine ⟨c :: (s.take n ++ content), ?_, ?_, fun hge => ?_⟩
  · rw [List.cons_append, List.append_assoc, ← hcontent, List.take_append_drop]
  · rw [weight_cons, weight_cons, weight_append]
    omega
  · rw [weight_cons, weight_cons, weight_append] at hge
    omega

theorem stringBody_quotes {s : List Char} {n : Nat} {y rest : List Char}
    (h : stringBody n s = some (y, rest)) : Quotes (s.drop n) y rest := by
  induction s generalizing n y with
  | nil =>
    rw [stringBody] at h
    cases h
  | cons c s ih =>
    cases n with
    | succ n =>
      rw [stringBody] at h
      rw [List.drop_succ_cons]
      exact ih h
    | zero =>
      rw [List.drop_zero]
      rw [stringBody] at h
      split at h
      · rename_i hquote
        obtain ⟨rfl, rfl⟩ := Prod.mk.inj (Option.some.inj h)
        rw [hquote]
        exact .close _
      · rename_i hquote
        split at h
        · split at h
          · cases h
          · rename_i d n hescape
            obtain ⟨⟨y', r⟩, htail, hpair⟩ := Option.map_eq_some_iff.mp h
            obtain ⟨rfl, rfl⟩ := Prod.mk.inj hpair
            obtain ⟨hn, hsize⟩ := unescape_size hescape
            exact .escape hn hsize (ih htail)
        · rename_i hbackslash
          split at h
          · cases h
          · rename_i hcontrol
            obtain ⟨⟨y', r⟩, htail, hpair⟩ := Option.map_eq_some_iff.mp h
            obtain ⟨rfl, rfl⟩ := Prod.mk.inj hpair
            exact .plain ⟨hquote, hbackslash, Nat.not_lt.mp hcontrol⟩ (ih htail)

theorem stringBody_plain {y : List Char} (h : ∀ c ∈ y, Plain c) (rest : List Char) :
    stringBody 0 (y ++ '"' :: rest) = some (y, rest) := by
  induction y with
  | nil => rfl
  | cons c y ih =>
    obtain ⟨hc, hy⟩ := List.forall_mem_cons.mp h
    rw [List.cons_append, stringBody, if_neg hc.quote, if_neg hc.backslash,
      if_neg (Nat.not_lt.mpr hc.control), ih hy]
    rfl

/-! ### Numbers of a decimal text -/

theorem ofDigitChars_lt {digits : List Char} (h : ∀ c ∈ digits, c.isDigit) :
    Nat.ofDigitChars 10 digits 0 < 10 ^ digits.length := by
  induction digits with
  | nil => exact Nat.one_pos
  | cons c rest ih =>
    obtain ⟨hc, hrest⟩ := List.forall_mem_cons.mp h
    have hle : c.toNat ≤ 57 := by
      rw [Char.isDigit, Bool.and_eq_true, decide_eq_true_eq, decide_eq_true_eq] at hc
      exact hc.2
    have hlt := ih hrest
    have hdigit : c.toNat - 48 ≤ 9 := by omega
    rw [Nat.ofDigitChars_cons, Nat.ofDigitChars_eq_ofDigitChars_zero, Nat.mul_zero, Nat.zero_add,
      List.length_cons, Nat.pow_succ]
    have hmul := Nat.mul_le_mul_left (10 ^ rest.length) hdigit
    show 10 ^ rest.length * (c.toNat - 48) + _ < _
    omega

/-- Every text of an integer has its digits. -/
theorem integer_size {s rest : List Char} {n : Nat} (h : integer s = some (n, rest)) :
    (Nat.toDigits 10 n).length + weight rest ≤ weight s := by
  unfold integer at h
  dsimp only at h
  split at h
  · cases h
  · rename_i hform
    obtain ⟨rfl, rfl⟩ := Prod.mk.inj (Option.some.inj h)
    have hne : s.takeWhile Char.isDigit ≠ [] := fun e => hform (.inl e)
    have hpos := List.length_pos_iff.mpr hne
    have hdigits := (Nat.length_toDigits_le_iff (by decide) hpos).mpr
      (ofDigitChars_lt fun c hc => List.mem_takeWhile_imp hc)
    have hweight := length_le_weight (s.takeWhile Char.isDigit)
    have hsplit := weight_dropWhile Char.isDigit s
    omega

theorem afterDigits_le {s rest : List Char} (h : afterDigits s = some rest) :
    weight rest ≤ weight s := by
  unfold afterDigits at h
  split at h
  · cases h
  · obtain rfl := Option.some.inj h
    have := weight_dropWhile Char.isDigit s
    omega

theorem fraction_le {s rest : List Char} (h : fraction s = some rest) :
    weight rest ≤ weight s := by
  unfold fraction at h
  split at h
  · exact (afterDigits_le h).trans (weight_tail_le (_ :: _))
  · obtain rfl := Option.some.inj h
    exact Nat.le_refl _

theorem exponent_le {s rest : List Char} (h : exponent s = some rest) :
    weight rest ≤ weight s := by
  unfold exponent at h
  split at h
  · split at h
    · split at h
      · exact ((afterDigits_le h).trans (weight_tail_le (_ :: _))).trans
          (weight_tail_le (_ :: _ :: _))
      · exact ((afterDigits_le h).trans (weight_tail_le (_ :: _))).trans
          (weight_tail_le (_ :: _ :: _))
      · exact (afterDigits_le h).trans (weight_tail_le (_ :: _))
    · obtain rfl := Option.some.inj h
      exact Nat.le_refl _
  · obtain rfl := Option.some.inj h
    exact Nat.le_refl _

/-- The bytes that every text of the value has; other texts have at least none. -/
def width : Json → Nat
  | .str s => weight s.toList + 2
  | .int n => (Nat.toDigits 10 n.natAbs).length
  | _ => 0

theorem number_width {s rest : List Char} {v : Json} (h : number s = some (v, rest)) :
    v.width + weight rest ≤ weight s := by
  unfold number at h
  dsimp only at h
  split at h
  · cases h
  · rename_i n tail hinteger
    have hunsigned : weight (if s.head? = some '-' then s.tail else s) ≤ weight s := by
      split
      · exact weight_tail_le s
      · exact Nat.le_refl _
    have hsize := integer_size hinteger
    split at h
    · cases h
    · rename_i rest' htail
      obtain ⟨middle, hfraction, hexponent⟩ := Option.bind_eq_some_iff.mp htail
      have hle := (exponent_le hexponent).trans (fraction_le hfraction)
      split at h
      · obtain ⟨rfl, rfl⟩ := Prod.mk.inj (Option.some.inj h)
        have hwidth : (Json.int (if s.head? = some '-' then -↑n else ↑n)).width =
            (Nat.toDigits 10 n).length := by
          rw [width]
          split
          · rw [Int.natAbs_neg, Int.natAbs_natCast]
          · rw [Int.natAbs_natCast]
        omega
      · obtain ⟨rfl, rfl⟩ := Prod.mk.inj (Option.some.inj h)
        show 0 + weight rest' ≤ weight s
        omega

/-! ### Sizes of values -/

/-- The bytes of a member with the comma or the brace behind it. -/
def memberWidth (field : String × Json) : Nat := weight field.1.toList + field.2.width + 4

def total (fields : List (String × Json)) : Nat := (fields.map memberWidth).sum

@[simp] theorem total_cons (field : String × Json) (fields : List (String × Json)) :
    total (field :: fields) = memberWidth field + total fields :=
  List.sum_cons

theorem weight_of_skip {s rest : List Char} {c : Char} (h : skip s = c :: rest) :
    1 + weight rest ≤ weight s := by
  have hle := weight_skip_le s
  have hpos := c.utf8Size_pos
  rw [h, weight_cons] at hle
  omega

theorem string_size {s y rest : List Char} (h : stringBody 0 s = some (y, rest)) :
    weight y + 1 + weight rest ≤ weight s := by
  obtain ⟨content, hcontent, hle, -⟩ := stringBody_quotes h
  rw [List.drop_zero] at hcontent
  have hlt := lt_weight_cons '"' rest
  rw [hcontent, weight_append]
  omega

/-- No decoder leaves more than it was given, and a member takes its width. -/
structure Bounded (fuel : Nat) : Prop where
  value : ∀ {s v rest}, value fuel s = some (v, rest) → v.width + weight rest ≤ weight s
  elements : ∀ {s items rest}, elements fuel s = some (items, rest) → weight rest ≤ weight s
  members : ∀ {s fields rest}, members fuel s = some (fields, rest) →
    total fields + weight rest ≤ weight s

/-- What stands behind an opening bracket and blanks. -/
theorem bracket_size {c : Char} {tail rest : List Char} {v : Json} (hv : v.width = 0)
    (h : weight rest ≤ weight (skip tail)) : v.width + weight rest ≤ weight (c :: tail) := by
  have hlt := lt_weight_cons c tail
  have hskip := weight_skip_le tail
  omega

theorem value_succ_size {fuel : Nat} (ih : Bounded fuel) {s rest : List Char} {v : Json}
    (h : value (fuel + 1) s = some (v, rest)) : v.width + weight rest ≤ weight s := by
  unfold value at h
  split at h
  · rename_i tail
    obtain ⟨⟨y, r⟩, hbody, hpair⟩ := Option.map_eq_some_iff.mp h
    obtain ⟨rfl, rfl⟩ := Prod.mk.inj hpair
    have hsize := string_size hbody
    have hlt := lt_weight_cons '"' tail
    rw [width, String.toList_ofList]
    omega
  · split at h
    · obtain ⟨rfl, rfl⟩ := Prod.mk.inj (Option.some.inj h)
      exact bracket_size rfl (weight_tail_le _)
    · obtain ⟨⟨fields, r⟩, hfields, hpair⟩ := Option.map_eq_some_iff.mp h
      obtain ⟨rfl, rfl⟩ := Prod.mk.inj hpair
      have hle := ih.members hfields
      exact bracket_size rfl (by omega)
  · split at h
    · obtain ⟨rfl, rfl⟩ := Prod.mk.inj (Option.some.inj h)
      exact bracket_size rfl (weight_tail_le _)
    · obtain ⟨⟨items, r⟩, hitems, hpair⟩ := Option.map_eq_some_iff.mp h
      obtain ⟨rfl, rfl⟩ := Prod.mk.inj hpair
      exact bracket_size rfl (ih.elements hitems)
  · obtain ⟨rfl, rfl⟩ := Prod.mk.inj (Option.some.inj h)
    simp only [weight_cons, width]
    omega
  · obtain ⟨rfl, rfl⟩ := Prod.mk.inj (Option.some.inj h)
    simp only [weight_cons, width]
    omega
  · obtain ⟨rfl, rfl⟩ := Prod.mk.inj (Option.some.inj h)
    simp only [weight_cons, width]
    omega
  · exact number_width h

theorem elements_succ_size {fuel : Nat} (ih : Bounded fuel) {s rest : List Char}
    {items : List Json} (h : elements (fuel + 1) s = some (items, rest)) :
    weight rest ≤ weight s := by
  unfold elements at h
  split at h
  · cases h
  · rename_i v tail hvalue
    have hsize := ih.value hvalue
    split at h
    · rename_i r hskip
      have hle := weight_of_skip hskip
      obtain ⟨rfl, rfl⟩ := Prod.mk.inj (Option.some.inj h)
      omega
    · rename_i r hskip
      have hle := weight_of_skip hskip
      obtain ⟨⟨items, r'⟩, hitems, hpair⟩ := Option.map_eq_some_iff.mp h
      obtain ⟨rfl, rfl⟩ := Prod.mk.inj hpair
      have hrest := ih.elements hitems
      have hblank := weight_skip_le r
      omega
    · cases h

/-- What is decoded of the members of an object: a first one, and those behind a comma. -/
theorem members_succ_cases {fuel : Nat} {s rest : List Char} {fields : List (String × Json)}
    (h : members (fuel + 1) s = some (fields, rest)) :
    ∃ tail key afterKey afterColon v afterValue tailFields, s = '"' :: tail ∧
      stringBody 0 tail = some (key, afterKey) ∧ skip afterKey = ':' :: afterColon ∧
      value fuel (skip afterColon) = some (v, afterValue) ∧
      fields = (String.ofList key, v) :: tailFields ∧
      ((tailFields = [] ∧ skip afterValue = '\x7d' :: rest) ∨
        ∃ afterComma, skip afterValue = ',' :: afterComma ∧
          members fuel (skip afterComma) = some (tailFields, rest)) := by
  unfold members at h
  split at h
  · rename_i tail
    split at h
    · cases h
    · rename_i key afterKey hkey
      split at h
      · rename_i afterColon hcolon
        split at h
        · cases h
        · rename_i v afterValue hvalue
          split at h
          · rename_i r hend
            obtain ⟨rfl, rfl⟩ := Prod.mk.inj (Option.some.inj h)
            exact ⟨tail, key, afterKey, afterColon, v, afterValue, [], rfl, hkey, hcolon, hvalue,
              rfl, .inl ⟨rfl, hend⟩⟩
          · rename_i afterComma hcomma
            obtain ⟨⟨tailFields, r⟩, hfields, hpair⟩ := Option.map_eq_some_iff.mp h
            obtain ⟨rfl, rfl⟩ := Prod.mk.inj hpair
            exact ⟨tail, key, afterKey, afterColon, v, afterValue, tailFields, rfl, hkey, hcolon,
              hvalue, rfl, .inr ⟨afterComma, hcomma, hfields⟩⟩
          · cases h
      · cases h
  · cases h

theorem members_succ_size {fuel : Nat} (ih : Bounded fuel) {s rest : List Char}
    {fields : List (String × Json)} (h : members (fuel + 1) s = some (fields, rest)) :
    total fields + weight rest ≤ weight s := by
  obtain ⟨tail, key, afterKey, afterColon, v, afterValue, tailFields, rfl, hkey, hcolon, hvalue,
    rfl, hend⟩ := members_succ_cases h
  have hquote := lt_weight_cons '"' tail
  have hbody := string_size hkey
  have hafter := weight_of_skip hcolon
  have hblank := weight_skip_le afterColon
  have hsize := ih.value hvalue
  have hwidth : memberWidth (String.ofList key, v) = weight key + v.width + 4 := by
    simp only [memberWidth, String.toList_ofList]
  rw [total_cons, hwidth]
  rcases hend with ⟨rfl, hbrace⟩ | ⟨afterComma, hcomma, hfields⟩
  · have hle := weight_of_skip hbrace
    show _ + 0 + _ ≤ _
    omega
  · have hle := weight_of_skip hcomma
    have hskip := weight_skip_le afterComma
    have hrest := ih.members hfields
    omega

theorem bounded (fuel : Nat) : Bounded fuel := by
  induction fuel with
  | zero =>
    refine ⟨?_, ?_, ?_⟩
    · intro s v rest h
      rw [value] at h
      cases h
    · intro s items rest h
      rw [elements] at h
      cases h
    · intro s fields rest h
      rw [members] at h
      cases h
  | succ fuel ih => exact ⟨value_succ_size ih, elements_succ_size ih, members_succ_size ih⟩

/-! ### More room for the recursion -/

/-- The decoders return what they return with less room. -/
structure Extends (fuel : Nat) : Prop where
  value : ∀ {s v rest}, value fuel s = some (v, rest) → Json.value (fuel + 1) s = some (v, rest)
  elements : ∀ {s items rest}, elements fuel s = some (items, rest) →
    Json.elements (fuel + 1) s = some (items, rest)
  members : ∀ {s fields rest}, members fuel s = some (fields, rest) →
    Json.members (fuel + 1) s = some (fields, rest)

theorem map_of_extends {α β : Type} {x x' : Option α} {f : α → β} {b : β}
    (hx : ∀ {a}, x = some a → x' = some a) (h : x.map f = some b) : x'.map f = some b := by
  obtain ⟨a, ha, hb⟩ := Option.map_eq_some_iff.mp h
  exact Option.map_eq_some_iff.mpr ⟨a, hx ha, hb⟩

theorem value_extends {fuel : Nat} (ih : Extends fuel) {s rest : List Char} {v : Json} :
    value (fuel + 1) s = some (v, rest) → value (fuel + 2) s = some (v, rest) := by
  unfold value
  split
  · exact id
  · split
    · exact id
    · exact map_of_extends ih.members
  · split
    · exact id
    · exact map_of_extends ih.elements
  · exact id
  · exact id
  · exact id
  · exact id

theorem elements_extends {fuel : Nat} (ih : Extends fuel) {s rest : List Char}
    {items : List Json} :
    elements (fuel + 1) s = some (items, rest) → elements (fuel + 2) s = some (items, rest) := by
  unfold elements
  cases hvalue : value fuel s with
  | none => exact nofun
  | some found =>
    obtain ⟨v, tail⟩ := found
    rw [ih.value hvalue]
    dsimp only
    split
    · exact id
    · exact map_of_extends ih.elements
    · exact id

theorem members_extends {fuel : Nat} (ih : Extends fuel) {s rest : List Char}
    {fields : List (String × Json)} :
    members (fuel + 1) s = some (fields, rest) → members (fuel + 2) s = some (fields, rest) := by
  intro h
  obtain ⟨tail, key, afterKey, afterColon, v, afterValue, tailFields, rfl, hkey, hcolon, hvalue,
    rfl, hend⟩ := members_succ_cases h
  rw [members]
  simp only [hkey, hcolon, ih.value hvalue]
  rcases hend with ⟨rfl, hbrace⟩ | ⟨afterComma, hcomma, hfields⟩
  · simp only [hbrace]
  · simp only [hcomma, ih.members hfields, Option.map_some]

theorem extends_succ (fuel : Nat) : Extends fuel := by
  induction fuel with
  | zero =>
    refine ⟨?_, ?_, ?_⟩
    · intro s v rest h
      rw [Json.value] at h
      cases h
    · intro s items rest h
      rw [Json.elements] at h
      cases h
    · intro s fields rest h
      rw [Json.members] at h
      cases h
  | succ fuel ih => exact ⟨value_extends ih, elements_extends ih, members_extends ih⟩

theorem value_of_le {fuel fuel' : Nat} (h : fuel ≤ fuel') {s rest : List Char} {v : Json}
    (hvalue : value fuel s = some (v, rest)) : value fuel' s = some (v, rest) := by
  induction h with
  | refl => exact hvalue
  | step _ ih => exact (extends_succ _).value ih

/-- A text denotes one value at most. -/
theorem Denotes.unique {text : List Char} {v w : Json} (hv : Denotes text v) (hw : Denotes text w) :
    v = w := by
  obtain ⟨fuel, rest, hvalue, -⟩ := hv
  obtain ⟨fuel', rest', hvalue', -⟩ := hw
  have h := value_of_le (Nat.le_max_left fuel fuel') hvalue
  rw [value_of_le (Nat.le_max_right fuel fuel') hvalue'] at h
  exact (congrArg Prod.fst (Option.some.inj h)).symm

/-! ### Texts without blanks and escapes -/

/-- The text is read as the value wherever a comma or a brace follows, and it has no byte that the
value does not need. -/
structure Writes (text : List Char) (v : Json) : Prop where
  value : ∀ fuel c rest, c = ',' ∨ c = '\x7d' →
    value (fuel + 1) (text ++ c :: rest) = some (v, c :: rest)
  skip : ∀ rest, skip (text ++ rest) = text ++ rest
  weight : weight text = v.width

theorem skip_cons {c : Char} (h : isBlank c = false) (rest : List Char) :
    skip (c :: rest) = c :: rest :=
  List.dropWhile_cons_of_neg (by simp [h])

theorem weight_ascii {s : List Char} (h : ∀ c ∈ s, c.toNat < 128) : weight s = s.length := by
  induction s with
  | nil => rfl
  | cons c s ih =>
    obtain ⟨hc, hs⟩ := List.forall_mem_cons.mp h
    have hone : c.utf8Size = 1 := Char.utf8Size_eq_one_iff.mpr (Nat.le_of_lt_succ hc)
    rw [weight_cons, hone, ih hs, List.length_cons, Nat.add_comm]

theorem writes_string {y : List Char} (h : ∀ c ∈ y, Plain c) :
    Writes ('"' :: (y ++ ['"'])) (.str (String.ofList y)) where
  value fuel c rest _ := by
    rw [List.cons_append, List.append_assoc, List.singleton_append, Json.value,
      stringBody_plain h]
    rfl
  skip rest := skip_cons (by decide) _
  weight := by
    have hquote : '"'.utf8Size = 1 := rfl
    rw [weight_cons, weight_append, weight_cons, weight_nil, hquote, width, String.toList_ofList]
    omega

theorem toDigits_isDigit (n : Nat) : ∀ c ∈ Nat.toDigits 10 n, c.isDigit :=
  fun _ => Nat.isDigit_of_mem_toDigits (by decide) (by decide)

/-- Only zero begins with a zero. -/
theorem toDigits_head (n : Nat) (h : (Nat.toDigits 10 n).head? = some '0') :
    Nat.toDigits 10 n = ['0'] := by
  induction n using Nat.strong_induction_on with
  | _ n ih =>
    rcases Nat.lt_or_ge n 10 with hlt | hge
    · have hzero : ∀ n < 10, Nat.digitChar n = '0' → n = 0 := by decide
      rw [Nat.toDigits_of_lt_base hlt] at h ⊢
      rw [hzero n hlt (Option.some.inj h)]
      rfl
    · rw [Nat.toDigits_of_base_le (by decide) hge, List.head?_append_of_ne_nil _ (by simp)] at h
      have hquotient := ih (n / 10) (by omega) h
      have hvalue := congrArg (Nat.ofDigitChars 10 · 0) hquotient
      simp only [Nat.ofDigitChars_ten_toDigits] at hvalue
      have hzero : n / 10 = 0 := hvalue
      omega

theorem integer_toDigits (n : Nat) {c : Char} (hc : c.isDigit = false) (rest : List Char) :
    integer (Nat.toDigits 10 n ++ c :: rest) = some (n, c :: rest) := by
  have htake : (Nat.toDigits 10 n ++ c :: rest).takeWhile Char.isDigit = Nat.toDigits 10 n := by
    rw [List.takeWhile_append_of_pos (toDigits_isDigit n),
      List.takeWhile_cons_of_neg (by simp [hc]), List.append_nil]
  have hdrop : (Nat.toDigits 10 n ++ c :: rest).dropWhile Char.isDigit = c :: rest := by
    rw [List.dropWhile_append_of_pos (toDigits_isDigit n),
      List.dropWhile_cons_of_neg (by simp [hc])]
  rw [integer]
  simp only [htake, hdrop, Nat.ofDigitChars_ten_toDigits]
  rw [if_neg]
  rintro (hnil | ⟨hzero, hmore⟩)
  · exact Nat.toDigits_ne_nil hnil
  · exact hmore (toDigits_head n hzero)

theorem number_toDigits (n : Nat) {c : Char} (hc : c = ',' ∨ c = '\x7d') (rest : List Char) :
    number (Nat.toDigits 10 n ++ c :: rest) = some (.int n, c :: rest) := by
  have hhead : (Nat.toDigits 10 n ++ c :: rest).head? ≠ some '-' := by
    intro h
    rw [List.head?_append_of_ne_nil _ (by simp)] at h
    exact absurd (toDigits_isDigit n '-' (List.mem_of_head? h)) (by decide)
  have hdigit : c.isDigit = false := by
    rcases hc with rfl | rfl <;> rfl
  have htail : (fraction (c :: rest)).bind exponent = some (c :: rest) := by
    rcases hc with rfl | rfl <;> rfl
  rw [number]
  simp only [hhead, if_false, integer_toDigits n hdigit rest, htail, if_true]

theorem not_blank_of_isDigit {c : Char} (h : c.isDigit) : isBlank c = false := by
  rw [Bool.eq_false_iff]
  intro hblank
  simp only [isBlank, Bool.or_eq_true, beq_iff_eq] at hblank
  rcases hblank with ((rfl | rfl) | rfl) | rfl <;> exact absurd h (by decide)

theorem writes_nat (n : Nat) : Writes (Nat.toDigits 10 n) (.int n) where
  value fuel c rest hc := by
    obtain ⟨d, tail, hd⟩ := List.exists_cons_of_ne_nil (Nat.toDigits_ne_nil (n := n) (b := 10))
    have hdigit := toDigits_isDigit n d (by simp [hd])
    have hnumber := number_toDigits n hc rest
    rw [hd, List.cons_append] at hnumber ⊢
    rw [Json.value]
    · exact hnumber
    all_goals
      intro rest' hother
      obtain ⟨rfl, -⟩ := List.cons.inj hother
      exact absurd hdigit (by decide)
  skip rest := by
    obtain ⟨d, tail, hd⟩ := List.exists_cons_of_ne_nil (Nat.toDigits_ne_nil (n := n) (b := 10))
    have hdigit := toDigits_isDigit n d (by simp [hd])
    rw [hd, List.cons_append]
    exact skip_cons (not_blank_of_isDigit hdigit) _
  weight := by
    rw [weight_ascii, width, Int.natAbs_natCast]
    intro c hc
    have hle := (Char.isDigit_iff_toNat.mp (toDigits_isDigit n c hc)).2
    have hnine : '9'.toNat = 57 := rfl
    omega

/-- A member as it is written: its key, the text of its value, and its value. -/
structure Field where
  key : List Char
  text : List Char
  value : Json
  plain : ∀ c ∈ key, Plain c
  writes : Writes text value

def Field.member (field : Field) : String × Json := (String.ofList field.key, field.value)

/-- The members of an object and its closing brace. -/
def fieldsText : Field → List Field → List Char
  | field, [] => '"' :: (field.key ++ '"' :: ':' :: (field.text ++ ['\x7d']))
  | field, next :: rest =>
    '"' :: (field.key ++ '"' :: ':' :: (field.text ++ ',' :: fieldsText next rest))

theorem skip_fieldsText (field : Field) (rest : List Field) :
    skip (fieldsText field rest) = fieldsText field rest := by
  cases rest <;> exact skip_cons (by decide) _

theorem members_fieldsText (field : Field) (rest : List Field) :
    members (rest.length + 2) (fieldsText field rest) =
      some ((field :: rest).map Field.member, []) := by
  have hcolon : ∀ t, skip (':' :: t) = ':' :: t := fun t => skip_cons (by decide) t
  have hcomma : ∀ t, skip (',' :: t) = ',' :: t := fun t => skip_cons (by decide) t
  have hbrace : ∀ t, skip ('\x7d' :: t) = '\x7d' :: t := fun t => skip_cons (by decide) t
  induction rest generalizing field with
  | nil =>
    simp only [fieldsText, List.length_nil, members, stringBody_plain field.plain, hcolon,
      field.writes.skip, field.writes.value _ _ _ (.inr rfl), hbrace, List.map_cons, List.map_nil,
      Field.member]
  | cons next rest ih =>
    show members (rest.length + 2 + 1) _ = _
    rw [fieldsText, members]
    simp only [stringBody_plain field.plain, hcolon, field.writes.skip,
      field.writes.value _ _ _ (.inl rfl), hcomma, skip_fieldsText, ih, Option.map_some,
      List.map_cons, Field.member]

/-- An object of these members, in one line. -/
def objectText (field : Field) (rest : List Field) : List Char := '\x7b' :: fieldsText field rest

theorem denotes_objectText (field : Field) (rest : List Field) :
    Denotes (objectText field rest) (.object ((field :: rest).map Field.member)) := by
  refine ⟨rest.length + 3, [], ?_, rfl⟩
  have hopen : skip (objectText field rest) = '\x7b' :: fieldsText field rest :=
    skip_cons (by decide) _
  have hhead : (fieldsText field rest).head? ≠ some '\x7d' := by
    cases rest <;> exact fun h => absurd (Option.some.inj h) (by decide)
  rw [hopen, value]
  simp only [skip_fieldsText, hhead, if_false, members_fieldsText, Option.map_some]

theorem weight_fieldsText (field : Field) (rest : List Field) :
    weight (fieldsText field rest) = total ((field :: rest).map Field.member) := by
  have hone : '"'.utf8Size = 1 ∧ ':'.utf8Size = 1 ∧ ','.utf8Size = 1 ∧ '\x7d'.utf8Size = 1 :=
    ⟨rfl, rfl, rfl, rfl⟩
  obtain ⟨hquote, hcolon, hcomma, hbrace⟩ := hone
  induction rest generalizing field with
  | nil =>
    simp only [fieldsText, weight_cons, weight_append, weight_nil, hquote, hcolon, hbrace,
      field.writes.weight, List.map_cons, List.map_nil, total_cons, memberWidth, Field.member,
      String.toList_ofList]
    show _ = _ + 0
    omega
  | cons next rest ih =>
    simp only [fieldsText, weight_cons, weight_append, hquote, hcolon, hcomma,
      field.writes.weight, ih next, List.map_cons, total_cons, memberWidth, Field.member,
      String.toList_ofList]
    omega

/-! ### Objects as dictionaries -/

/-- An object that maps the keys as these members do; of several values of a key the last one
counts. -/
def Holds (v : Json) (fields : List (String × Json)) : Prop :=
  ∃ ms, v = .object ms ∧ ∀ key, ms.reverse.lookup key = fields.lookup key

theorem lookup_eq_of_mem {fields : List (String × Json)} (h : (fields.map Prod.fst).Nodup)
    {field : String × Json} (hmem : field ∈ fields) : fields.lookup field.1 = some field.2 :=
  (Dict.mem_entries_iff ⟨fields, h⟩).mp hmem

theorem mem_of_lookup_eq {ms : List (String × Json)} {key : String} {v : Json}
    (h : ms.lookup key = some v) : (key, v) ∈ ms := by
  obtain ⟨front, back, rfl, -⟩ := List.lookup_eq_some_iff.mp h
  simp

theorem holds_object {fields : List (String × Json)} (h : (fields.map Prod.fst).Nodup) :
    (Json.object fields).Holds fields := by
  refine ⟨fields, rfl, fun key => ?_⟩
  have hreverse : (fields.reverse.map Prod.fst).Nodup := by
    rw [List.map_reverse]
    exact List.nodup_reverse.mpr h
  apply Option.ext
  intro v
  have hlast : (key, v) ∈ fields.reverse ↔ fields.reverse.lookup key = some v :=
    Dict.mem_entries_iff ⟨fields.reverse, hreverse⟩
  have hfirst : (key, v) ∈ fields ↔ fields.lookup key = some v :=
    Dict.mem_entries_iff ⟨fields, h⟩
  rw [← hlast, List.mem_reverse, hfirst]

theorem total_sublist {l ms : List (String × Json)} (h : l.Sublist ms) :
    total l ≤ total ms ∧ (total ms ≤ total l → l = ms) := by
  induction h with
  | slnil => exact ⟨Nat.le_refl _, fun _ => rfl⟩
  | cons field _ ih =>
    have hpos : 0 < memberWidth field := by
      rw [memberWidth]
      omega
    rw [total_cons]
    exact ⟨by omega, fun h => by omega⟩
  | cons_cons field _ ih =>
    rw [total_cons, total_cons]
    refine ⟨by omega, fun h => ?_⟩
    rw [ih.2 (by omega)]

/-- The members of an object that holds these take no less room, and as much only if they are
these. -/
theorem total_of_holds {fields ms : List (String × Json)} (hnodup : (fields.map Prod.fst).Nodup)
    (h : ∀ key, ms.reverse.lookup key = fields.lookup key) :
    total fields ≤ total ms ∧ (total ms ≤ total fields → ms.Perm fields) := by
  have hsubset : fields ⊆ ms := by
    intro field hfield
    have hlookup := lookup_eq_of_mem hnodup hfield
    rw [← h] at hlookup
    exact List.mem_reverse.mp (mem_of_lookup_eq hlookup)
  obtain ⟨l, hperm, hsub⟩ := (List.Nodup.of_map _ hnodup).subperm hsubset
  have htotal : total l = total fields := (hperm.map memberWidth).sum_nat
  obtain ⟨hle, heq⟩ := total_sublist hsub
  refine ⟨by omega, fun hge => ?_⟩
  obtain rfl := heq (by omega)
  exact hperm

theorem number_scalar {s rest : List Char} {v : Json} (h : number s = some (v, rest)) :
    (∃ n, v = .int n) ∨ ∃ literal, v = .float literal := by
  unfold number at h
  dsimp only at h
  split at h
  · cases h
  · split at h
    · cases h
    · split at h
      · exact .inl ⟨_, (Prod.mk.inj (Option.some.inj h)).1.symm⟩
      · exact .inr ⟨_, (Prod.mk.inj (Option.some.inj h)).1.symm⟩

theorem value_object_cases {fuel : Nat} {s rest : List Char} {ms : List (String × Json)}
    (h : value fuel s = some (.object ms, rest)) :
    ∃ fuel' tail, s = '\x7b' :: tail ∧ ((ms = [] ∧ (skip tail).head? = some '\x7d') ∨
      members fuel' (skip tail) = some (ms, rest)) := by
  cases fuel with
  | zero =>
    rw [value] at h
    cases h
  | succ fuel =>
    unfold value at h
    split at h
    · obtain ⟨_, _, hpair⟩ := Option.map_eq_some_iff.mp h
      cases (Prod.mk.inj hpair).1
    · rename_i tail
      refine ⟨fuel, tail, rfl, ?_⟩
      split at h
      · rename_i hclose
        obtain ⟨hms, -⟩ := Prod.mk.inj (Option.some.inj h)
        exact .inl ⟨(Json.object.inj hms).symm, hclose⟩
      · obtain ⟨⟨fields, r⟩, hfields, hpair⟩ := Option.map_eq_some_iff.mp h
        obtain ⟨hms, rfl⟩ := Prod.mk.inj hpair
        obtain rfl := Json.object.inj hms
        exact .inr hfields
    · split at h
      · cases (Prod.mk.inj (Option.some.inj h)).1
      · obtain ⟨_, _, hpair⟩ := Option.map_eq_some_iff.mp h
        cases (Prod.mk.inj hpair).1
    · cases (Prod.mk.inj (Option.some.inj h)).1
    · cases (Prod.mk.inj (Option.some.inj h)).1
    · cases (Prod.mk.inj (Option.some.inj h)).1
    · rcases number_scalar h with ⟨n, hn⟩ | ⟨literal, hliteral⟩
      · cases hn
      · cases hliteral

/-- A text has room for the members that it denotes. -/
theorem Denotes.total_le {text : List Char} {ms : List (String × Json)}
    (h : Denotes text (.object ms)) : 1 + total ms ≤ weight text := by
  obtain ⟨fuel, rest, hvalue, -⟩ := h
  obtain ⟨fuel', tail, htext, hms⟩ := value_object_cases hvalue
  have hopen := weight_of_skip htext
  rcases hms with ⟨rfl, -⟩ | hmembers
  · show 1 + 0 ≤ weight text
    omega
  · have hsize := (bounded fuel').members hmembers
    have hblank := weight_skip_le tail
    omega

/-- The first member of a text that begins with a key and a string. -/
theorem Denotes.first_member {key s : List Char} {ms : List (String × Json)}
    (hkey : ∀ c ∈ key, Plain c)
    (h : Denotes ('\x7b' :: '"' :: (key ++ '"' :: ':' :: '"' :: s)) (.object ms)) :
    ∃ y rest others, stringBody 0 s = some (y, rest) ∧
      ms = (String.ofList key, .str (String.ofList y)) :: others ∧
      total others + 1 ≤ weight rest := by
  obtain ⟨fuel, rest, hvalue, -⟩ := h
  rw [skip_cons (by decide)] at hvalue
  obtain ⟨fuel', tail, htext, hms⟩ := value_object_cases hvalue
  obtain rfl := (List.cons.inj htext).2
  rw [skip_cons (by decide)] at hms
  rcases hms with ⟨-, hclose⟩ | hmembers
  · exact absurd (Option.some.inj hclose) (by decide)
  · cases fuel' with
    | zero =>
      rw [members] at hmembers
      cases hmembers
    | succ fuel' =>
      obtain ⟨tail, key', afterKey, afterColon, v, afterValue, others, htail, hkey', hcolon, hvalue,
        rfl, hend⟩ := members_succ_cases hmembers
      obtain rfl := (List.cons.inj htail).2
      rw [stringBody_plain hkey] at hkey'
      obtain ⟨rfl, rfl⟩ := Prod.mk.inj (Option.some.inj hkey')
      rw [skip_cons (by decide)] at hcolon
      obtain rfl := (List.cons.inj hcolon).2
      rw [skip_cons (by decide)] at hvalue
      cases fuel' with
      | zero =>
        rw [value] at hvalue
        cases hvalue
      | succ fuel' =>
        rw [value] at hvalue
        obtain ⟨⟨y, r⟩, hbody, hpair⟩ := Option.map_eq_some_iff.mp hvalue
        obtain ⟨rfl, rfl⟩ := Prod.mk.inj hpair
        refine ⟨y, r, others, hbody, rfl, ?_⟩
        rcases hend with ⟨rfl, hbrace⟩ | ⟨afterComma, hcomma, hfields⟩
        · have hle := weight_of_skip hbrace
          show 0 + 1 ≤ weight r
          omega
        · have hle := weight_of_skip hcomma
          have hskip := weight_skip_le afterComma
          have hrest := (bounded _).members hfields
          omega

/-- A text with no more room than its members need has a string that stands for itself. -/
theorem plain_of_holds {key y s : List Char} {fields : List (String × Json)} {v : Json}
    (hkey : ∀ c ∈ key, Plain c)
    (hnodup : (((String.ofList key, Json.str (String.ofList y)) :: fields).map Prod.fst).Nodup)
    (hdenotes : Denotes ('\x7b' :: '"' :: (key ++ '"' :: ':' :: '"' :: s)) v)
    (hholds : v.Holds ((String.ofList key, .str (String.ofList y)) :: fields))
    (hweight : weight ('\x7b' :: '"' :: (key ++ '"' :: ':' :: '"' :: s)) ≤
      1 + total ((String.ofList key, .str (String.ofList y)) :: fields)) :
    ∀ c ∈ y, Plain c := by
  obtain ⟨ms, rfl, hmap⟩ := hholds
  have hroom := hdenotes.total_le
  obtain ⟨y', rest, others, hbody, rfl, hothers⟩ := hdenotes.first_member hkey
  obtain ⟨-, hperm⟩ := total_of_holds hnodup hmap
  have hsame := hperm (by omega)
  have hfirst := hsame.subset List.mem_cons_self
  rw [List.map_cons, List.nodup_cons] at hnodup
  have hy : y' = y := by
    rcases List.mem_cons.mp hfirst with hpair | hlater
    · have hstr := Json.str.inj (Prod.mk.inj hpair).2
      exact String.ofList_injective hstr
    · exact absurd (List.mem_map_of_mem hlater) hnodup.1
  subst hy
  obtain ⟨content, hcontent, -, hplain⟩ := stringBody_quotes hbody
  have htotal : total others = total fields := ((hsame.cons_inv).map memberWidth).sum_nat
  have hone : '\x7b'.utf8Size = 1 ∧ '"'.utf8Size = 1 ∧ ':'.utf8Size = 1 := ⟨rfl, rfl, rfl⟩
  obtain ⟨hbrace, hquote, hcolon⟩ := hone
  rw [List.drop_zero] at hcontent
  simp only [hcontent, weight_cons, weight_append, hbrace, hquote, hcolon, total_cons,
    memberWidth, width, String.toList_ofList] at hweight
  exact (hplain (by omega)).2

end Json

end Kit
