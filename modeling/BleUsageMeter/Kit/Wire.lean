import Mathlib.Control.Monad.Basic
import BleUsageMeter.Kit.BigEndian

/-! Readers of byte strings.  A reader takes bytes from the front of its input; it takes a string as
a value when it does so whatever follows, which makes the strings of a reader a prefix code. -/

namespace Kit

/-- Code that takes bytes from the front of its input, or fails. -/
abbrev Reader (α : Type) : Type := StateT (List UInt8) Option α

namespace Reader

variable {α β : Type}

/-- The next `n` bytes. -/
def bytes (n : Nat) : Reader (List UInt8) := fun input =>
  if n ≤ input.length then some (input.take n, input.drop n) else none

/-- The bytes of a tag, and no others. -/
def expect (tag : List UInt8) : Reader Unit := do
  if (← bytes tag.length) = tag then pure () else failure

/-- A natural in `width` bytes, most significant first. -/
def nat (width : Nat) : Reader Nat := do
  return ofBigEndian (← bytes width)

/-- The value of an input that the reader takes whole. -/
def decode (r : Reader α) (input : List UInt8) : Option α :=
  match r input with
  | some (a, []) => some a
  | _ => none

/-- The reader takes `input` as `a`, whatever follows. -/
def Takes (r : Reader α) (input : List UInt8) (a : α) : Prop :=
  ∀ rest, r (input ++ rest) = some (a, rest)

variable {r : Reader α} {f : α → Reader β} {input more : List UInt8} {a : α} {b : β}

theorem Takes.pure (a : α) : Takes (Pure.pure a) [] a := fun _ => rfl

theorem Takes.bind (h : r.Takes input a) (hf : (f a).Takes more b) :
    Takes (r >>= f) (input ++ more) b := by
  intro rest
  show (r (input ++ more ++ rest)).bind (fun p => f p.1 p.2) = _
  rw [List.append_assoc, h, Option.bind_some, hf]

theorem takes_bytes (tag : List UInt8) : (bytes tag.length).Takes tag tag := by
  intro rest
  simp [bytes]

theorem takes_expect (tag : List UInt8) : (expect tag).Takes tag () := by
  have h : (expect tag).Takes (tag ++ []) () := by
    apply (takes_bytes tag).bind
    rw [if_pos rfl]
    exact .pure ()
  rwa [List.append_nil] at h

theorem takes_nat {width n : Nat} (h : n < 256 ^ width) :
    (nat width).Takes (bigEndian width n) n := by
  have hbytes := takes_bytes (bigEndian width n)
  rw [bigEndian_length] at hbytes
  have hnat : (nat width).Takes (bigEndian width n ++ []) (ofBigEndian (bigEndian width n)) :=
    hbytes.bind (.pure _)
  rwa [List.append_nil, ofBigEndian_bigEndian, Nat.mod_eq_of_lt h] at hnat

theorem Takes.decode (h : r.Takes input a) : r.decode input = some a := by
  have := h []
  rw [List.append_nil] at this
  rw [Reader.decode, this]

end Reader

end Kit
