import BleUsageMeter.Kit.Dict
import BleUsageMeter.Kit.Python

/-! `gateway/counter.py` and `gateway/store.py`: the counts in memory and the tables behind them.
Counts are naturals, which is what the checks of both files maintain. -/

namespace BleUsageMeter.Gateway

open Kit

/-- The counts in memory and the number of the last report. -/
structure Counter where
  counts : Dict String Nat
  sequence : Nat

namespace Counter

def empty : Counter := ⟨.empty, 0⟩

def get (c : Counter) (deviceId : String) : Nat := (c.counts.get? deviceId).getD 0

/-- Loads a persisted count, unless it is below the live one. -/
def restore (c : Counter) (deviceId : String) (count : Nat) : Counter :=
  if c.get deviceId ≤ count then { c with counts := c.counts.insert deviceId count } else c

def restoreSequence (c : Counter) (sequence : Int) : Counter :=
  if (c.sequence : Int) < sequence then { c with sequence := sequence.toNat } else c

/-- The new count and the counter with it. -/
def increment (c : Counter) (deviceId : String) (n : Nat := 1) (_ : 1 ≤ n := by exact Nat.one_pos) :
    Nat × Counter :=
  let new := c.get deviceId + n
  (new, { c with counts := c.counts.insert deviceId new })

def snapshot (c : Counter) : List (String × Nat) := c.counts.entries

def nextSequence (c : Counter) : Nat × Counter :=
  (c.sequence + 1, { c with sequence := c.sequence + 1 })

end Counter

/-- A row of `events`, in the order of the ids. -/
structure EventRow where
  deviceId : String
  event : String
  sequence : Nat
  service : Option String
  characteristic : Option String
  payloadHead : Option (List UInt8)
deriving DecidableEq

/-- The tables `counters` and `events`, and the value of the key `sequence` in `meta`. -/
structure Store where
  counters : Dict String Nat
  events : List EventRow
  sequence : Option Int

namespace Store

def empty : Store := ⟨.empty, [], none⟩

/-- The persisted count of a device, 0 without a row. -/
def count (s : Store) (deviceId : String) : Nat := (s.counters.get? deviceId).getD 0

/-- The upsert of a count.  The trigger `counters_no_rollback` aborts one that lowers it. -/
def saveCounter (s : Store) (deviceId : String) (count : Nat) : Except PyException Store :=
  if 2 ^ 63 ≤ count then .error .overflowError
  else if count < s.count deviceId then .error .integrityError
  else .ok { s with counters := s.counters.insert deviceId count }

def loadCounters (s : Store) : Dict String Nat := s.counters

def loadSequence (s : Store) : Int := s.sequence.getD 0

/-- The read that `save_sequence` begins with: it refuses a lower sequence. -/
def checkSequence (s : Store) (sequence : Nat) : Except PyException Unit :=
  if (sequence : Int) < s.loadSequence then .error .valueError else .ok ()

/-- The upsert that `save_sequence` ends with. -/
def writeSequence (s : Store) (sequence : Nat) : Store := { s with sequence := some sequence }

def appendEvent (s : Store) (row : EventRow) : Except PyException Store :=
  if 2 ^ 63 ≤ row.sequence then .error .overflowError
  else .ok { s with events := s.events ++ [{ row with
    payloadHead := row.payloadHead.bind fun head =>
      if head = [] then none else some (head.take 16) }] }

end Store

end BleUsageMeter.Gateway
