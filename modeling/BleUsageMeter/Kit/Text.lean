import Mathlib.Data.List.DropRight
import BleUsageMeter.Kit.Python

/-! Text as the methods of Python's `str` treat it, and bytes written in hexadecimal. -/

namespace Kit

/-- `str.isspace` of a character. -/
def isSpace (c : Char) : Bool :=
  let n := c.toNat
  (9 ≤ n && n ≤ 13) || (28 ≤ n && n ≤ 32) || n == 0x85 || n == 0xA0 || n == 0x1680 ||
    (0x2000 ≤ n && n ≤ 0x200A) || n == 0x2028 || n == 0x2029 || n == 0x202F || n == 0x205F ||
    n == 0x3000

/-- `s.strip()`. -/
def strip (s : String) : String :=
  String.ofList ((s.toList.dropWhile isSpace).rdropWhile isSpace)

/-- The value of a hexadecimal digit of either case. -/
def hexValue (c : Char) : Option Nat :=
  if '0' ≤ c ∧ c ≤ '9' then some (c.toNat - '0'.toNat)
  else if 'a' ≤ c ∧ c ≤ 'f' then some (c.toNat - 'a'.toNat + 10)
  else if 'A' ≤ c ∧ c ≤ 'F' then some (c.toNat - 'A'.toNat + 10)
  else none

/-- `bytes.fromhex`, for a text without blanks. -/
def fromHex : List Char → Except PyException (List UInt8)
  | [] => .ok []
  | high :: low :: rest => do
    match hexValue high, hexValue low with
    | some h, some l => return UInt8.ofNat (16 * h + l) :: (← fromHex rest)
    | _, _ => throw .valueError
  | [_] => .error .valueError

/-- The digits of the lower-case hexadecimal form. -/
def hexDigits : List Char := "0123456789abcdef".toList

def hexDigit (n : Fin 16) : Char := hexDigits.get ⟨n, by exact n.isLt⟩

/-- The two digits of a byte. -/
def hexByte (byte : UInt8) : List Char :=
  [hexDigit ⟨byte.toNat / 16, by have := byte.toNat_lt; omega⟩,
    hexDigit ⟨byte.toNat % 16, by omega⟩]

/-- The text has the hyphens and the lower-case digits of a UUID, in any order. -/
structure SpellsUuid (s : String) : Prop where
  length : s.length = 36
  hyphens : s.toList.count '-' = 4
  digits : ∀ c ∈ s.toList, c = '-' ∨ c ∈ hexDigits

theorem hexValue_digit : ∀ n : Fin 16, hexValue (hexDigit n) = some n.val := by decide

theorem hexDigit_mem : ∀ n : Fin 16, hexDigit n ∈ hexDigits := by decide

theorem hexValue_isSome : ∀ c ∈ hexDigits, (hexValue c).isSome := forall_of_all (by decide)

theorem toLower_of_mem : ∀ c ∈ hexDigits, c.toLower = c := forall_of_all (by decide)

theorem ne_hyphen_of_mem : ∀ c ∈ hexDigits, c ≠ '-' := forall_of_all (by decide)

end Kit
