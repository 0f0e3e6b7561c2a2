import Mathlib.Data.UInt

/-! Base64, as Python's `base64` module encodes and strictly decodes it.  `decodeLoop` is the loop
of CPython's `binascii.a2b_base64` in strict mode, with the messages of its errors. -/

namespace Kit.Base64

/-- The base64 digit of a value below 64. -/
def digit (v : Nat) : Char :=
  if v < 26 then Char.ofNat (v + 65)
  else if v < 52 then Char.ofNat (v + 71)
  else if v < 62 then Char.ofNat (v - 4)
  else if v = 62 then '+'
  else '/'

/-- The value of a base64 digit. -/
def value? (c : Char) : Option Nat :=
  if 'A' ≤ c ∧ c ≤ 'Z' then some (c.toNat - 65)
  else if 'a' ≤ c ∧ c ≤ 'z' then some (c.toNat - 71)
  else if '0' ≤ c ∧ c ≤ '9' then some (c.toNat + 4)
  else if c = '+' then some 62
  else if c = '/' then some 63
  else none

def encodeChars : List UInt8 → List Char
  | [] => []
  | [a] => [digit (a.toNat / 4), digit (a.toNat % 4 * 16), '=', '=']
  | [a, b] =>
    [digit (a.toNat / 4), digit (a.toNat % 4 * 16 + b.toNat / 16), digit (b.toNat % 16 * 4), '=']
  | a :: b :: c :: rest =>
    digit (a.toNat / 4) :: digit (a.toNat % 4 * 16 + b.toNat / 16) ::
      digit (b.toNat % 16 * 4 + c.toNat / 64) :: digit (c.toNat % 64) :: encodeChars rest

/-- `base64.b64encode`. -/
def b64encode (bytes : List UInt8) : String := String.ofList (encodeChars bytes)

/-- The decoder's loop: `quad` digits of the current group are read, `left` holds the bits of them
that are not yet in `out`, and `pads` counts the padding characters of the group. -/
def decodeLoop : List Char → (quad left pads : Nat) → (padding : Bool) → List UInt8 →
    Except String (List UInt8)
  | [], quad, _, _, _, out =>
    if quad = 0 then .ok out
    else if quad = 1 then
      .error ("Invalid base64-encoded string: number of data characters (" ++
        toString (out.length / 3 * 4 + 1) ++ ") cannot be 1 more than a multiple of 4")
    else .error "Incorrect padding"
  | c :: rest, quad, left, pads, padding, out =>
    if c = '=' then
      if 2 ≤ quad ∧ 4 ≤ quad + (pads + 1) then
        if rest = [] then .ok out else .error "Excess data after padding"
      else decodeLoop rest quad left (if 2 ≤ quad then pads + 1 else pads) true out
    else
      match value? c with
      | none => .error "Only base64 data is allowed"
      | some v =>
        if padding then .error "Discontinuous padding not allowed"
        else
          match quad with
          | 0 => decodeLoop rest 1 v 0 padding out
          | 1 => decodeLoop rest 2 (v % 16) 0 padding (out ++ [UInt8.ofNat (left * 4 + v / 16)])
          | 2 => decodeLoop rest 3 (v % 4) 0 padding (out ++ [UInt8.ofNat (left * 16 + v / 4)])
          | _ => decodeLoop rest 0 0 0 padding (out ++ [UInt8.ofNat (left * 64 + v)])

/-- `base64.b64decode` with `validate=True`. -/
def b64decode (text : String) : Except String (List UInt8) :=
  if text.toList.all (·.toNat < 128) then
    match text.toList with
    | '=' :: _ => .error "Leading padding not allowed"
    | chars => decodeLoop chars 0 0 0 false []
  else .error "string argument should contain only ASCII characters"

theorem value?_digit : ∀ v < 64, value? (digit v) = some v := by decide

theorem digit_ne_pad : ∀ v < 64, digit v ≠ '=' := by decide

theorem digit_ascii : ∀ v < 64, (digit v).toNat < 128 := by decide

section Loop

variable {v : Nat} (hv : v < 64) (rest : List Char) (left pads : Nat) (out : List UInt8)
include hv

theorem decodeLoop_first :
    decodeLoop (digit v :: rest) 0 left pads false out = decodeLoop rest 1 v 0 false out := by
  rw [decodeLoop]
  simp [digit_ne_pad v hv, value?_digit v hv]

theorem decodeLoop_second :
    decodeLoop (digit v :: rest) 1 left pads false out =
      decodeLoop rest 2 (v % 16) 0 false (out ++ [UInt8.ofNat (left * 4 + v / 16)]) := by
  rw [decodeLoop]
  simp [digit_ne_pad v hv, value?_digit v hv]

theorem decodeLoop_third :
    decodeLoop (digit v :: rest) 2 left pads false out =
      decodeLoop rest 3 (v % 4) 0 false (out ++ [UInt8.ofNat (left * 16 + v / 4)]) := by
  rw [decodeLoop]
  simp [digit_ne_pad v hv, value?_digit v hv]

theorem decodeLoop_fourth :
    decodeLoop (digit v :: rest) 3 left pads false out =
      decodeLoop rest 0 0 0 false (out ++ [UInt8.ofNat (left * 64 + v)]) := by
  rw [decodeLoop]
  simp [digit_ne_pad v hv, value?_digit v hv]

end Loop

theorem decodeLoop_two_pads (left : Nat) (out : List UInt8) :
    decodeLoop ['=', '='] 2 left 0 false out = .ok out := by
  simp [decodeLoop]

theorem decodeLoop_one_pad (left : Nat) (out : List UInt8) :
    decodeLoop ['='] 3 left 0 false out = .ok out := by
  simp [decodeLoop]

theorem ofNat_eq {n : Nat} {a : UInt8} (h : n = a.toNat) : UInt8.ofNat n = a := by
  rw [h, UInt8.ofNat_toNat]

theorem decodeLoop_encodeChars (bytes out : List UInt8) :
    decodeLoop (encodeChars bytes) 0 0 0 false out = .ok (out ++ bytes) := by
  induction bytes using encodeChars.induct generalizing out with
  | case1 => simp [encodeChars, decodeLoop]
  | case2 a =>
    have ha := a.toNat_lt
    rw [encodeChars, decodeLoop_first (by omega), decodeLoop_second (by omega),
      decodeLoop_two_pads, ofNat_eq (a := a) (by omega)]
  | case3 a b =>
    have ha := a.toNat_lt
    have hb := b.toNat_lt
    rw [encodeChars, decodeLoop_first (by omega), decodeLoop_second (by omega),
      decodeLoop_third (by omega), decodeLoop_one_pad, ofNat_eq (a := a) (by omega),
      ofNat_eq (a := b) (by omega), List.append_assoc, List.singleton_append]
  | case4 a b c rest ih =>
    have ha := a.toNat_lt
    have hb := b.toNat_lt
    have hc := c.toNat_lt
    rw [encodeChars, decodeLoop_first (by omega), decodeLoop_second (by omega),
      decodeLoop_third (by omega), decodeLoop_fourth (by omega), ih,
      ofNat_eq (a := a) (by omega), ofNat_eq (a := b) (by omega), ofNat_eq (a := c) (by omega)]
    simp

/-- The encoder writes digits and padding. -/
theorem mem_encodeChars {bytes : List UInt8} {c : Char} (h : c ∈ encodeChars bytes) :
    c = '=' ∨ ∃ v < 64, c = digit v := by
  induction bytes using encodeChars.induct with
  | case1 => cases h
  | case2 a =>
    have ha := a.toNat_lt
    simp only [encodeChars, List.mem_cons, List.not_mem_nil, or_false] at h
    rcases h with rfl | rfl | rfl | rfl
    · exact .inr ⟨_, by omega, rfl⟩
    · exact .inr ⟨_, by omega, rfl⟩
    · exact .inl rfl
    · exact .inl rfl
  | case3 a b =>
    have ha := a.toNat_lt
    have hb := b.toNat_lt
    simp only [encodeChars, List.mem_cons, List.not_mem_nil, or_false] at h
    rcases h with rfl | rfl | rfl | rfl
    · exact .inr ⟨_, by omega, rfl⟩
    · exact .inr ⟨_, by omega, rfl⟩
    · exact .inr ⟨_, by omega, rfl⟩
    · exact .inl rfl
  | case4 a b c rest ih =>
    have ha := a.toNat_lt
    have hb := b.toNat_lt
    have hc := c.toNat_lt
    simp only [encodeChars, List.mem_cons] at h
    rcases h with rfl | rfl | rfl | rfl | hrest
    · exact .inr ⟨_, by omega, rfl⟩
    · exact .inr ⟨_, by omega, rfl⟩
    · exact .inr ⟨_, by omega, rfl⟩
    · exact .inr ⟨_, by omega, rfl⟩
    · exact ih hrest

theorem encodeChars_ascii (bytes : List UInt8) :
    (encodeChars bytes).all (·.toNat < 128) = true := by
  rw [List.all_eq_true]
  intro c hc
  rcases mem_encodeChars hc with rfl | ⟨v, hv, rfl⟩
  · rfl
  · exact decide_eq_true (digit_ascii v hv)

theorem encodeChars_length (bytes : List UInt8) :
    (encodeChars bytes).length = 4 * ((bytes.length + 2) / 3) := by
  induction bytes using encodeChars.induct with
  | case1 => simp [encodeChars]
  | case2 a => simp [encodeChars]
  | case3 a b => simp [encodeChars]
  | case4 a b c rest ih =>
    simp only [encodeChars, List.length_cons, ih]
    omega

theorem encodeChars_head {bytes : List UInt8} {rest : List Char} :
    encodeChars bytes ≠ '=' :: rest := by
  have first : ∀ a : UInt8, digit (a.toNat / 4) ≠ '=' := fun a =>
    digit_ne_pad _ (by have := a.toNat_lt; omega)
  intro h
  match bytes with
  | [] => simp [encodeChars] at h
  | [a] | [a, _] | a :: _ :: _ :: _ =>
    simp only [encodeChars, List.cons.injEq] at h
    exact first a h.1

theorem b64decode_b64encode (bytes : List UInt8) : b64decode (b64encode bytes) = .ok bytes := by
  unfold b64decode b64encode
  rw [String.toList_ofList, encodeChars_ascii, if_pos rfl]
  split
  · rename_i rest h
    exact absurd h encodeChars_head
  · simpa using decodeLoop_encodeChars bytes []

theorem b64encode_ne_empty {bytes : List UInt8} (h : bytes ≠ []) : b64encode bytes ≠ "" := by
  intro e
  have hchars : encodeChars bytes = [] := by
    simpa [b64encode] using congrArg String.toList e
  match bytes with
  | [] => exact h rfl
  | [_] | [_, _] | _ :: _ :: _ :: _ => simp [encodeChars] at hchars

end Kit.Base64
