import Mathlib.Data.List.Infix
import BleUsageMeter.Kit.BigEndian

/-! Slices of byte strings as Python takes them, cut short at the end of the string, and integers in
them. -/

namespace Kit

variable {α : Type*} {data more : List α} {start stop : Nat}

/-- `data[start:stop]`. -/
def slice (data : List α) (start stop : Nat) : List α := (data.take stop).drop start

theorem slice_length (data : List α) (start stop : Nat) :
    (slice data start stop).length = min stop data.length - start := by
  rw [slice, List.length_drop, List.length_take]

theorem slice_of_prefix (h : data <+: more) (hstop : stop ≤ data.length) (start : Nat) :
    slice more start stop = slice data start stop := by
  obtain ⟨rest, rfl⟩ := h
  rw [slice, slice, List.take_append_of_le_length hstop]

theorem slice_middle {before middle after : List α} (hdata : data = before ++ middle ++ after)
    (hstart : start = before.length) (hstop : stop = start + middle.length) :
    slice data start stop = middle := by
  rw [hdata, hstop, hstart, slice, ← List.length_append, List.take_left, List.drop_left]

theorem slice_slice (data : List α) (start stop m n : Nat) :
    slice (slice data start stop) m n = slice data (start + m) (min stop (start + n)) := by
  rw [slice, slice, slice, List.take_drop, List.take_take, List.drop_drop, Nat.min_comm]

/-- `int.from_bytes(bytes, "little")`. -/
def ofLittleEndian (bytes : List UInt8) : Nat := ofBigEndian bytes.reverse

/-- `n.to_bytes(width, "little")`, for an `n` that fits. -/
def littleEndian (width n : Nat) : List UInt8 := (bigEndian width n).reverse

@[simp] theorem littleEndian_length (width n : Nat) : (littleEndian width n).length = width := by
  rw [littleEndian, List.length_reverse, bigEndian_length]

theorem ofLittleEndian_littleEndian {width n : Nat} (h : n < 256 ^ width) :
    ofLittleEndian (littleEndian width n) = n := by
  rw [ofLittleEndian, littleEndian, List.reverse_reverse, ofBigEndian_bigEndian,
    Nat.mod_eq_of_lt h]

/-- A little-endian field that stands between two strings. -/
theorem ofLittleEndian_slice {data before after : List UInt8} {width n : Nat}
    (hdata : data = before ++ littleEndian width n ++ after) (hstart : start = before.length)
    (hstop : stop = start + width) (hn : n < 256 ^ width) :
    ofLittleEndian (slice data start stop) = n := by
  rw [← littleEndian_length width n] at hstop
  rw [slice_middle hdata hstart hstop, ofLittleEndian_littleEndian hn]

theorem ofBigEndian_slice {data before after : List UInt8} {width n : Nat}
    (hdata : data = before ++ bigEndian width n ++ after) (hstart : start = before.length)
    (hstop : stop = start + width) (hn : n < 256 ^ width) :
    ofBigEndian (slice data start stop) = n := by
  rw [← bigEndian_length width n] at hstop
  rw [slice_middle hdata hstart hstop, ofBigEndian_bigEndian, Nat.mod_eq_of_lt hn]

end Kit
