import Mathlib.Data.Nat.Basic
import BleUsageMeter.Kit.BigEndian

/-! The exceptions of Python code, and the built-in conversions of integers and strings to bytes. -/

namespace Kit

/-- The exceptions that Python code raises, by class. -/
inductive PyException
  | typeError
  | valueError
  | overflowError
  | structError
  | integrityError
  /-- Any other exception, raised by the environment between two statements. -/
  | interrupted
deriving DecidableEq

/-- `n.to_bytes(width, "big")`. -/
def toBytes (width : Nat) (n : Int) : Except PyException (List UInt8) :=
  if 0 ≤ n ∧ n < 256 ^ width then .ok (bigEndian width n.toNat) else .error .overflowError

/-- `s.encode("utf-8")`. -/
def utf8 (s : String) : List UInt8 := s.toUTF8.data.toList

theorem bind_eq_ok {ε α β : Type} {x : Except ε α} {f : α → Except ε β} {b : β} :
    (x >>= f) = .ok b ↔ ∃ a, x = .ok a ∧ f a = .ok b := by
  cases x <;> simp [bind, Except.bind]

theorem bind_eq_error {ε α β : Type} {x : Except ε α} {f : α → Except ε β} {e : ε} :
    (x >>= f) = .error e ↔ x = .error e ∨ ∃ a, x = .ok a ∧ f a = .error e := by
  cases x <;> simp [bind, Except.bind]

theorem toBytes_eq_ok_iff {width : Nat} {n : Int} {bytes : List UInt8} :
    toBytes width n = .ok bytes ↔ 0 ≤ n ∧ n < 256 ^ width ∧ bytes = bigEndian width n.toNat := by
  unfold toBytes
  split
  · rename_i h
    simp [h.1, h.2, eq_comm]
  · rename_i h
    simp only [reduceCtorEq, false_iff]
    tauto

theorem utf8_injective {s t : String} (h : utf8 s = utf8 t) : s = t := by
  have hdata : s.toUTF8.data = t.toUTF8.data := Array.toList_inj.mp h
  exact String.toByteArray_inj.mp (ByteArray.ext hdata)

theorem utf8_append (s t : String) : utf8 (s ++ t) = utf8 s ++ utf8 t := by
  simp [utf8]

theorem utf8_length (s : String) : (utf8 s).length = s.utf8ByteSize := rfl

theorem utf8_length_le (s : String) : (utf8 s).length ≤ 4 * s.length := by
  rw [utf8_length]
  induction s using String.push_induction with
  | empty => simp
  | push b c ih =>
    have := c.utf8Size_le_four
    rw [String.utf8ByteSize_push, String.length_push]
    omega

theorem map_eq_ok {ε α β : Type} {x : Except ε α} {f : α → β} {b : β} :
    x.map f = .ok b ↔ ∃ a, x = .ok a ∧ f a = b := by
  cases x <;> simp [Except.map]

theorem ok_of_toOption {ε α : Type} {x : Except ε α} {a : α} (h : x.toOption = some a) :
    x = .ok a := by
  cases x with
  | error e => cases h
  | ok b => exact congrArg _ (Option.some.inj h)

/-- What a test finds of each member of a list. -/
theorem forall_of_all {α : Type} {list : List α} {P : α → Prop} [DecidablePred P]
    (h : list.all fun a => decide (P a)) : ∀ a ∈ list, P a := by
  simpa using h

end Kit
