import BleUsageMeter.Kit.Dict
import BleUsageMeter.Kit.Python

/-! `firmware/esp32/storage_nvs.cpp`: the counts, the sequence and the event log in NVS.  `Outcomes`
says which NVS calls of a function fail, and with which error. -/

namespace BleUsageMeter.Firmware

open Kit

inductive EspErr
  | nvsNotFound
  | nvsNoFreePages
  | nvsNewVersionFound
  | invalidState
  | invalidArg
  | other (code : Nat)
deriving DecidableEq

/-- The NVS calls of a function. -/
inductive NvsCall
  | flashInit
  | flashErase
  | flashReinit
  | nvsOpen
  | nvsGet
  | nvsSet
  | nvsSetHead
  | nvsCommit
deriving DecidableEq

/-- The error that a call returns, if it fails. -/
def Outcomes : Type := NvsCall → Option EspErr

def Outcomes.success : Outcomes := fun _ => none

/-- A slot of the event log.  The texts are C strings of at most 23 bytes. -/
structure LogEntry where
  seq : Nat
  tsUs : Int
  deviceId : List UInt8
  event : List UInt8
  payloadLen : Nat
  payloadHead : List UInt8
deriving DecidableEq

/-- The values of the namespace, by type. -/
structure Nvs where
  u64 : Dict String Nat
  u32 : Dict String Nat
  blobs : Dict String LogEntry

def Nvs.empty : Nvs := ⟨.empty, .empty, .empty⟩

/-- The partition, and what `Storage` keeps in memory. -/
structure Storage where
  nvs : Nvs
  head : Nat
  ready : Bool

def kNvsKeySeq : String := "seq"

def kNvsKeyLogHead : String := "loghead"

def kEventLogCapacity : Nat := 512

/-- `n` in base `base`, with zeros to at least `width` digits. -/
def digits (base width n : Nat) : List Char :=
  let text := Nat.toDigits base n
  List.replicate (width - text.length) '0' ++ text

def slotKey (slot : Nat) : String := String.ofList ('e' :: digits 10 4 (slot % kEventLogCapacity))

/-- The 32-bit FNV-1a hash of some bytes. -/
def fnv1a (bytes : List UInt8) : UInt32 :=
  bytes.foldl (fun h byte => (h ^^^ byte.toUInt32) * 16777619) 2166136261

/-- The key under which the count of a device is stored. -/
def counterKey (deviceId : String) : String :=
  String.ofList ('c' :: digits 16 8 (fnv1a (utf8 deviceId)).toNat)

namespace Storage

/-- `Storage::init` at boot.  A partition that cannot be parsed is erased. -/
def init (nvs : Nvs) (outcomes : Outcomes) : Except EspErr Unit × Storage :=
  let fresh : Storage := ⟨nvs, 0, false⟩
  let opened (storage : Storage) : Except EspErr Unit × Storage :=
    match outcomes .nvsOpen with
    | some err => (.error err, storage)
    | none =>
      let head :=
        match outcomes .nvsGet with
        | some _ => 0
        | none => (storage.nvs.u32.get? kNvsKeyLogHead).getD 0
      (.ok (), { storage with head, ready := true })
  match outcomes .flashInit with
  | none => opened fresh
  | some err =>
    if err = .nvsNoFreePages ∨ err = .nvsNewVersionFound then
      match outcomes .flashErase with
      | some err => (.error err, fresh)
      | none =>
        match outcomes .flashReinit with
        | some err => (.error err, { fresh with nvs := .empty })
        | none => opened { fresh with nvs := .empty }
    else (.error err, fresh)

/-- Reads a `u64`; an absent key or a failing read is `none`. -/
def peek (s : Storage) (key : String) (outcomes : Outcomes) : Option Nat :=
  match outcomes .nvsGet with
  | some _ => none
  | none => s.nvs.u64.get? key

def written (s : Storage) (key : String) (value : Nat) : Storage :=
  { s with nvs := { s.nvs with u64 := s.nvs.u64.insert key value } }

/-- Writes a `u64` and commits it. -/
def put (s : Storage) (key : String) (value : Nat) (outcomes : Outcomes) :
    Except EspErr Unit × Storage :=
  match outcomes .nvsSet with
  | some err => (.error err, s)
  | none =>
    match outcomes .nvsCommit with
    | some err => (.error err, s.written key value)
    | none => (.ok (), s.written key value)

/-- Writes a `u64` that is not below the stored one. -/
def raise (s : Storage) (key : String) (value : Nat) (outcomes : Outcomes) :
    Except EspErr Unit × Storage :=
  if (s.peek key outcomes).any fun existing => decide (value < existing) then
    (.error .invalidArg, s)
  else s.put key value outcomes

/-- Loads a `u64`, 0 where the key is absent. -/
def load (s : Storage) (key : String) (outcomes : Outcomes) : Except EspErr Nat :=
  match outcomes .nvsOpen with
  | some err => .error err
  | none =>
    match outcomes .nvsGet with
    | some .nvsNotFound => .ok 0
    | some err => .error err
    | none => .ok ((s.nvs.u64.get? key).getD 0)

/-- Refuses a count below the stored one. -/
def saveCounter (s : Storage) (deviceId : String) (count : Nat) (outcomes : Outcomes) :
    Except EspErr Unit × Storage :=
  if !s.ready then (.error .invalidState, s)
  else
    match outcomes .nvsOpen with
    | some err => (.error err, s)
    | none => s.raise (counterKey deviceId) count outcomes

def loadCounter (s : Storage) (deviceId : String) (outcomes : Outcomes) : Except EspErr Nat :=
  s.load (counterKey deviceId) outcomes

/-- Refuses a sequence below the stored one. -/
def saveSequence (s : Storage) (seq : Nat) (outcomes : Outcomes) : Except EspErr Unit × Storage :=
  match outcomes .nvsOpen with
  | some err => (.error err, s)
  | none => s.raise kNvsKeySeq seq outcomes

def loadSequence (s : Storage) (outcomes : Outcomes) : Except EspErr Nat :=
  s.load kNvsKeySeq outcomes

def appendEvent (s : Storage) (e : LogEntry) (outcomes : Outcomes) :
    Except EspErr Unit × Storage :=
  if !s.ready then (.error .invalidState, s)
  else
    match outcomes .nvsOpen with
    | some err => (.error err, s)
    | none =>
      match outcomes .nvsSet with
      | some err => (.error err, s)
      | none =>
        let head := (s.head + 1) % 2 ^ 32
        let nvs := { s.nvs with blobs := s.nvs.blobs.insert (slotKey s.head) e }
        match outcomes .nvsSetHead with
        | some err => (.error err, { s with nvs, head })
        | none =>
          let nvs := { nvs with u32 := nvs.u32.insert kNvsKeyLogHead head }
          match outcomes .nvsCommit with
          | some err => (.error err, { s with nvs, head })
          | none => (.ok (), { s with nvs, head })

/-- The newest entries, of which `unread i` says that the read of the `i`-th one fails. -/
def readRecent (s : Storage) (maxEntries : Nat) (outcomes : Outcomes) (unread : Nat → Bool) :
    Except EspErr (List LogEntry) :=
  match outcomes .nvsOpen with
  | some err => .error err
  | none =>
    let n := min (if s.head < maxEntries then s.head else maxEntries) kEventLogCapacity
    .ok ((List.range n).filterMap fun i =>
      if unread i then none else s.nvs.blobs.get? (slotKey (s.head - 1 - i)))

/-! ### What the calls do -/

theorem counterKey_ne_seq (deviceId : String) : counterKey deviceId ≠ kNvsKeySeq := by
  intro h
  have := congrArg String.toList h
  simp [counterKey, kNvsKeySeq] at this

variable (s : Storage)

theorem load_success (key : String) : s.load key .success = .ok ((s.nvs.u64.get? key).getD 0) := rfl

theorem appendEvent_success (e : LogEntry) (h : s.ready = true) :
    (s.appendEvent e .success).2.nvs.u64 = s.nvs.u64 ∧
      (s.appendEvent e .success).2.ready = true := by
  simp [appendEvent, Outcomes.success, h]

/-- The stored value is kept, or raised to `value`. -/
theorem raise_cases (key : String) (value : Nat) (outcomes : Outcomes) :
    (s.raise key value outcomes).2 = s ∨ (s.raise key value outcomes).2 = s.written key value := by
  unfold raise put
  split
  · exact .inl rfl
  · split
    · exact .inl rfl
    · split <;> exact .inr rfl

theorem raise_success (key : String) (value : Nat) :
    (s.raise key value .success).2 =
      if value < (s.nvs.u64.get? key).getD 0 then s else s.written key value := by
  unfold raise put peek Outcomes.success
  cases s.nvs.u64.get? key with
  | none => simp
  | some existing =>
    simp only [Option.any_some, Option.getD_some, decide_eq_true_eq]
    split <;> rfl

theorem saveCounter_success (deviceId : String) (count : Nat) (h : s.ready = true) :
    (s.saveCounter deviceId count .success).2 =
      if count < (s.nvs.u64.get? (counterKey deviceId)).getD 0 then s
      else s.written (counterKey deviceId) count := by
  rw [← raise_success]
  simp [saveCounter, h, Outcomes.success]

theorem saveSequence_counts (seq : Nat) (deviceId : String) :
    (s.saveSequence seq .success).2.nvs.u64.get? (counterKey deviceId) =
        s.nvs.u64.get? (counterKey deviceId) ∧
      (s.saveSequence seq .success).2.ready = s.ready := by
  have hraise : (s.saveSequence seq .success).2 = (s.raise kNvsKeySeq seq .success).2 := rfl
  rw [hraise]
  rcases s.raise_cases kNvsKeySeq seq .success with h | h
  · rw [h]
    exact ⟨rfl, rfl⟩
  · rw [h]
    exact ⟨Dict.get?_insert_ne _ _ (counterKey_ne_seq deviceId), rfl⟩

end Storage

end BleUsageMeter.Firmware
