import BleUsageMeter.Firmware.Counter

/-! The data of `firmware/esp32/counter.h`: a vector of entries that is searched from its front, and
`uint64_t` words.  Every operation on them does what the operation of `Counter` does on a dictionary
of naturals. -/

namespace BleUsageMeter.Firmware

open Kit

structure CounterEntry where
  deviceId : String
  count : UInt64

/-- `entries_` and `sequence_`. -/
structure CounterVector where
  entries : List CounterEntry
  sequence : UInt64

namespace CounterVector

def empty : CounterVector := ⟨[], 0⟩

/-- `UINT64_MAX` as a word. -/
def wordMax : UInt64 := 0xFFFFFFFFFFFFFFFF

/-- Where the first entry of a device stands. -/
def find (v : CounterVector) (deviceId : String) : Option (Fin v.entries.length) :=
  v.entries.findFinIdx? fun e => e.deviceId = deviceId

def pushBack (v : CounterVector) (entry : CounterEntry) : CounterVector :=
  { v with entries := v.entries ++ [entry] }

/-- `e->count = count`. -/
def assign (v : CounterVector) (e : Fin v.entries.length) (count : UInt64) : CounterVector :=
  { v with entries := v.entries.set e { v.entries[e] with count } }

def restore (v : CounterVector) (deviceId : String) (count : UInt64) : CounterVector :=
  match v.find deviceId with
  | none => v.pushBack ⟨deviceId, count⟩
  | some e => if count < v.entries[e].count then v else v.assign e count

def restoreSequence (v : CounterVector) (seq : UInt64) : CounterVector :=
  if v.sequence < seq then { v with sequence := seq } else v

/-- The new count and the counter with it. -/
def increment (v : CounterVector) (deviceId : String) (n : UInt64) : UInt64 × CounterVector :=
  match v.find deviceId with
  | none => (n, v.pushBack ⟨deviceId, n⟩)
  | some e =>
    let new := if wordMax - n < v.entries[e].count then wordMax else v.entries[e].count + n
    (new, v.assign e new)

def get (v : CounterVector) (deviceId : String) : UInt64 :=
  match v.find deviceId with
  | none => 0
  | some e => v.entries[e].count

def nextSequence (v : CounterVector) : UInt64 × CounterVector :=
  (v.sequence + 1, { v with sequence := v.sequence + 1 })

/-- The entry as a pair of the dictionary. -/
def pair (e : CounterEntry) : String × Nat := (e.deviceId, e.count.toNat)

/-- The dictionary and the sequence hold what the words of the vector denote. -/
structure Represents (v : CounterVector) (c : Counter) : Prop where
  entries : c.entries.entries = v.entries.map pair
  sequence : c.sequence = v.sequence.toNat

theorem lookup_pairs (entries : List CounterEntry) (deviceId : String) :
    (entries.map pair).lookup deviceId =
      (entries.findFinIdx? fun e => e.deviceId = deviceId).map fun e => entries[e].count.toNat := by
  induction entries with
  | nil => rfl
  | cons entry rest ih =>
    rw [List.map_cons, pair, Dict.lookup_cons_ite, List.findFinIdx?_cons, ih]
    by_cases h : entry.deviceId = deviceId
    · simp [h]
    · simp [h, Ne.symm h, Option.map_map, Function.comp_def]

/-- Where a device has an entry, a dictionary replaces its value in place. -/
theorem insertEntry_pairs {entries : List CounterEntry} {deviceId : String}
    {e : Fin entries.length} (h : (entries.findFinIdx? fun e => e.deviceId = deviceId) = some e)
    (count : UInt64) :
    Dict.insertEntry deviceId count.toNat (entries.map pair) =
      (entries.set e { entries[e] with count }).map pair := by
  induction entries with
  | nil => exact e.elim0
  | cons entry rest ih =>
    rw [List.findFinIdx?_cons] at h
    rw [List.map_cons, pair, Dict.insertEntry]
    by_cases hid : entry.deviceId = deviceId
    · obtain rfl : 0 = e := by simpa [hid] using h
      simp [hid, pair]
    · rw [if_neg (by simpa using hid)] at h
      obtain ⟨i, hi, rfl⟩ := Option.map_eq_some_iff.mp h
      rw [if_neg hid, ih hi]
      rfl

namespace Represents

variable {v : CounterVector} {c : Counter} {deviceId : String} {count n seq : UInt64}

theorem new : Represents CounterVector.empty Counter.empty := ⟨rfl, rfl⟩

theorem find (h : v.Represents c) (deviceId : String) :
    c.find deviceId = (v.find deviceId).map fun e => v.entries[e].count.toNat := by
  rw [Counter.find, Dict.get?, h.entries, lookup_pairs]
  rfl

theorem get (h : v.Represents c) (deviceId : String) :
    c.get deviceId = (v.get deviceId).toNat := by
  rw [Counter.get, h.find, CounterVector.get]
  cases v.find deviceId <;> rfl

/-- No two entries are of one device. -/
theorem distinct (h : v.Represents c) : (v.entries.map CounterEntry.deviceId).Nodup := by
  have hnodup := c.entries.nodup
  rw [h.entries, List.map_map] at hnodup
  exact hnodup

theorem pushBack (h : v.Represents c) (hfind : v.find deviceId = none) (count : UInt64) :
    (v.pushBack ⟨deviceId, count⟩).Represents
      { c with entries := c.entries.insert deviceId count.toNat } := by
  have habsent : c.entries.get? deviceId = none := by
    have hnone := h.find deviceId
    rwa [hfind] at hnone
  refine ⟨?_, h.sequence⟩
  rw [Dict.entries_insert_absent habsent, h.entries, CounterVector.pushBack, List.map_append]
  rfl

theorem assign (h : v.Represents c) {e : Fin v.entries.length} (hfind : v.find deviceId = some e)
    (count : UInt64) :
    (v.assign e count).Represents
      { c with entries := c.entries.insert deviceId count.toNat } := by
  refine ⟨?_, h.sequence⟩
  show Dict.insertEntry deviceId count.toNat c.entries.entries = _
  rw [h.entries, insertEntry_pairs hfind]
  rfl

theorem restore (h : v.Represents c) (deviceId : String) (count : UInt64) :
    (v.restore deviceId count).Represents (c.restore deviceId count.toNat) := by
  have hlive := h.find deviceId
  rw [CounterVector.restore, Counter.restore, hlive]
  cases hfind : v.find deviceId with
  | none => exact h.pushBack hfind count
  | some e =>
    simp only [Option.map_some, UInt64.lt_iff_toNat_lt]
    split
    · exact h
    · exact h.assign hfind count

theorem restoreSequence (h : v.Represents c) (seq : UInt64) :
    (v.restoreSequence seq).Represents (c.restoreSequence seq.toNat) := by
  simp only [CounterVector.restoreSequence, Counter.restoreSequence, h.sequence,
    UInt64.lt_iff_toNat_lt]
  split
  · exact ⟨h.entries, rfl⟩
  · exact h

/-- The sum of the words saturates where the sum of the naturals does. -/
theorem toNat_saturating (count n : UInt64) :
    (if wordMax - n < count then wordMax else count + n).toNat =
      Counter.saturatingAdd count.toNat n.toNat := by
  have hmax : wordMax.toNat = uint64Max := rfl
  have hval : uint64Max = 18446744073709551615 := rfl
  have hn := n.toNat_lt
  have hle : n ≤ wordMax := by
    rw [UInt64.le_iff_toNat_le, hmax]
    omega
  simp only [Counter.saturatingAdd, UInt64.lt_iff_toNat_lt, UInt64.toNat_sub_of_le _ _ hle, hmax]
  split
  · exact hmax
  · rw [UInt64.toNat_add]
    omega

theorem increment (h : v.Represents c) (deviceId : String) (n : UInt64) :
    (c.increment deviceId n.toNat).1 = (v.increment deviceId n).1.toNat ∧
      (v.increment deviceId n).2.Represents (c.increment deviceId n.toNat).2 := by
  have hlive := h.find deviceId
  rw [CounterVector.increment, Counter.increment, hlive]
  cases hfind : v.find deviceId with
  | none => exact ⟨rfl, h.pushBack hfind n⟩
  | some e =>
    simp only [Option.map_some, ← toNat_saturating]
    exact ⟨trivial, h.assign hfind _⟩

theorem nextSequence (h : v.Represents c) :
    c.nextSequence.1 = v.nextSequence.1.toNat ∧
      v.nextSequence.2.Represents c.nextSequence.2 := by
  have hsum : (c.sequence + 1) % (uint64Max + 1) = (v.sequence + 1).toNat := by
    rw [UInt64.toNat_add, h.sequence]
    rfl
  exact ⟨hsum, h.entries, hsum⟩

end Represents

end CounterVector

end BleUsageMeter.Firmware
