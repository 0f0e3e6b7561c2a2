import BleUsageMeter.Kit.Dict

/-! `firmware/esp32/counter.cpp`: the counts in memory.  `uint64_t` values are naturals; additions
saturate and the sequence wraps as in the source. -/

namespace BleUsageMeter.Firmware

open Kit

/-- `UINT64_MAX`. -/
def uint64Max : Nat := 0xFFFFFFFFFFFFFFFF

/-- The counts of the devices, in the order of their first entries, and the last sequence. -/
structure Counter where
  entries : Dict String Nat
  sequence : Nat

namespace Counter

def empty : Counter := ⟨.empty, 0⟩

def find (c : Counter) (deviceId : String) : Option Nat := c.entries.get? deviceId

/-- Loads a persisted count, unless it is below the live one. -/
def restore (c : Counter) (deviceId : String) (count : Nat) : Counter :=
  match c.find deviceId with
  | none => { c with entries := c.entries.insert deviceId count }
  | some live => if count < live then c else { c with entries := c.entries.insert deviceId count }

def restoreSequence (c : Counter) (seq : Nat) : Counter :=
  if c.sequence < seq then { c with sequence := seq } else c

/-- The sum, or `UINT64_MAX` where it would wrap. -/
def saturatingAdd (count n : Nat) : Nat := if uint64Max - n < count then uint64Max else count + n

/-- The new count and the counter with it. -/
def increment (c : Counter) (deviceId : String) (n : Nat) : Nat × Counter :=
  let new :=
    match c.find deviceId with
    | none => n
    | some count => saturatingAdd count n
  (new, { c with entries := c.entries.insert deviceId new })

def get (c : Counter) (deviceId : String) : Nat := (c.find deviceId).getD 0

def nextSequence (c : Counter) : Nat × Counter :=
  let sequence := (c.sequence + 1) % (uint64Max + 1)
  (sequence, { c with sequence })

theorem increment_one (c : Counter) (deviceId : String) :
    (c.increment deviceId 1).1 =
      if c.get deviceId < uint64Max then c.get deviceId + 1 else uint64Max := by
  have hmax : uint64Max = 18446744073709551615 := rfl
  unfold increment get saturatingAdd
  cases c.find deviceId with
  | none => simp [hmax]
  | some count =>
    simp only [Option.getD_some]
    split <;> split <;> omega

theorem saturatingAdd_eq (count : Nat) {n : Nat} (h : n ≤ uint64Max) :
    saturatingAdd count n = min (count + n) uint64Max := by
  unfold saturatingAdd
  split <;> omega

theorem get_restore (c : Counter) (deviceId j : String) (count : Nat) :
    (c.restore deviceId count).get j =
      if j = deviceId then max (c.get deviceId) count else c.get j := by
  unfold restore get
  cases hfind : c.find deviceId with
  | none =>
    simp only [find, Dict.get?_insert, Option.getD_none, Nat.zero_max]
    split <;> rfl
  | some live =>
    by_cases hlive : count < live
    · simp only [hlive, if_true, Option.getD_some, Nat.max_eq_left (Nat.le_of_lt hlive)]
      split
      · rename_i hj
        rw [hj, hfind, Option.getD_some]
      · rfl
    · simp only [hlive, if_false, find, Dict.get?_insert, Option.getD_some,
        Nat.max_eq_right (Nat.le_of_not_lt hlive)]
      split <;> rfl

theorem sequence_restore (c : Counter) (deviceId : String) (count : Nat) :
    (c.restore deviceId count).sequence = c.sequence := by
  unfold restore
  cases c.find deviceId with
  | none => rfl
  | some live =>
    dsimp only
    split <;> rfl

theorem restoreSequence_eq (c : Counter) (seq : Nat) :
    c.restoreSequence seq = { c with sequence := max c.sequence seq } := by
  unfold restoreSequence
  split
  · rw [Nat.max_eq_right (by omega)]
  · rw [Nat.max_eq_left (by omega)]

theorem get_increment (c : Counter) (deviceId j : String) {n : Nat} (h : n ≤ uint64Max) :
    (c.increment deviceId n).2.get j =
      if j = deviceId then min (c.get deviceId + n) uint64Max else c.get j := by
  unfold increment get
  cases hfind : c.find deviceId with
  | none =>
    simp only [find, Dict.get?_insert, Option.getD_none, Nat.zero_add, Nat.min_eq_left h]
    split <;> rfl
  | some count =>
    simp only [find, Dict.get?_insert, Option.getD_some, saturatingAdd_eq count h]
    split <;> rfl

theorem find_increment (c : Counter) (deviceId j : String) (n : Nat) :
    (c.increment deviceId n).2.find j =
      if j = deviceId then some (c.increment deviceId n).1 else c.find j :=
  Dict.get?_insert _ _ _ _

end Counter

end BleUsageMeter.Firmware
