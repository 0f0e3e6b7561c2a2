import BleUsageMeter.Kit.Ring
import BleUsageMeter.Firmware.Persistence

/-! The event log of `storage_nvs.cpp` as a ring: while all NVS calls succeed, and fewer than 2^32
entries have been appended, the newest of them are read back, whatever the reboots in between. -/

namespace BleUsageMeter.Firmware

open Kit

/-- The number that some decimal digits spell. -/
def readDecimal (text : List Char) : Nat :=
  text.foldl (fun n c => 10 * n + (c.toNat - '0'.toNat)) 0

theorem readDecimal_digits : ∀ n < 512, readDecimal (digits 10 4 n) = n := by decide +kernel

theorem slotKey_mod (slot : Nat) : slotKey (slot % kEventLogCapacity) = slotKey slot := by
  rw [slotKey, Nat.mod_mod, slotKey]

theorem slotKey_eq_iff {a b : Nat} :
    slotKey a = slotKey b ↔ a % kEventLogCapacity = b % kEventLogCapacity := by
  constructor
  · intro h
    have hdigits := List.tail_eq_of_cons_eq (String.ofList_injective h)
    have hread := congrArg readDecimal hdigits
    have hcap : ∀ n, n % kEventLogCapacity < 512 := fun n => Nat.mod_lt n (by decide)
    rwa [readDecimal_digits _ (hcap a), readDecimal_digits _ (hcap b)] at hread
  · intro h
    rw [← slotKey_mod a, h, slotKey_mod]

namespace Storage

/-- What is in a slot of the log. -/
def slot (s : Storage) (k : Nat) : Option LogEntry := s.nvs.blobs.get? (slotKey k)

/-- The head of the log that a reboot finds. -/
def savedHead (s : Storage) : Nat := (s.nvs.u32.get? kNvsKeyLogHead).getD 0

/-- The log after a boot of a blank meter. -/
def booted : Storage := ⟨.empty, 0, true⟩

variable {s t : Storage} {e : LogEntry} {entries : List LogEntry}

theorem slot_mod (s : Storage) (k : Nat) : s.slot (k % kEventLogCapacity) = s.slot k := by
  rw [slot, slotKey_mod]
  rfl

theorem slot_insert {blobs : Dict String LogEntry} {k head : Nat} :
    (blobs.insert (slotKey head) e).get? (slotKey k) =
      if k % kEventLogCapacity = head % kEventLogCapacity then some e
      else blobs.get? (slotKey k) := by
  rw [Dict.get?_insert]
  simp only [slotKey_eq_iff]

theorem readRecent_eq (s : Storage) (maxEntries : Nat) :
    s.readRecent maxEntries .success (fun _ => false) =
      .ok ((List.range (min (min s.head maxEntries) kEventLogCapacity)).filterMap fun i =>
        s.slot ((s.head - 1 - i) % kEventLogCapacity)) := by
  have hmin : (if s.head < maxEntries then s.head else maxEntries) = min s.head maxEntries := by
    split <;> omega
  simp only [readRecent, Outcomes.success, hmin, slot, slotKey_mod, Bool.false_eq_true, if_false]

/-- A ring with as many entries as the head says is read from the newest entry on. -/
theorem readRecent_of_ring (h : RingHolds kEventLogCapacity s.slot entries)
    (hhead : s.head = entries.length) (maxEntries : Nat) :
    s.readRecent maxEntries .success (fun _ => false) =
      .ok (entries.take (min kEventLogCapacity maxEntries)) := by
  rw [readRecent_eq, hhead, h.read (by omega) (by omega)]
  rw [Except.ok.injEq, List.take_eq_take_iff]
  omega

/-! ### Runs in which every call succeeds -/

/-- A log that has taken some entries, given newest first. -/
structure Logs (s : Storage) (entries : List LogEntry) : Prop where
  ready : s.ready = true
  head : s.head = entries.length
  savedHead : s.savedHead = entries.length
  ring : RingHolds kEventLogCapacity s.slot entries

theorem booted_logs : booted.Logs [] := ⟨rfl, rfl, rfl, ringHolds_nil⟩

theorem Logs.reboot (h : s.Logs entries) : (init s.nvs .success).2.Logs entries :=
  ⟨rfl, h.savedHead, h.savedHead, h.ring⟩

theorem appendEvent_eq (hready : s.ready = true) :
    s.appendEvent e .success = (.ok (), ⟨{ s.nvs with
      blobs := s.nvs.blobs.insert (slotKey s.head) e
      u32 := s.nvs.u32.insert kNvsKeyLogHead ((s.head + 1) % 2 ^ 32) },
      (s.head + 1) % 2 ^ 32, s.ready⟩) := by
  simp [appendEvent, Outcomes.success, hready]

theorem Logs.append (h : s.Logs entries) (hfew : entries.length + 1 < 2 ^ 32) (e : LogEntry) :
    (s.appendEvent e .success).2.Logs (e :: entries) := by
  have hhead : (s.head + 1) % 2 ^ 32 = (e :: entries).length := by
    rw [h.head, Nat.mod_eq_of_lt hfew, List.length_cons]
  rw [appendEvent_eq h.ready, hhead]
  refine ⟨h.ready, rfl, ?_, h.ring.push ?_ ?_⟩
  · rw [Storage.savedHead, Dict.get?_insert_self, Option.getD_some]
  · rw [slot, slot_insert, h.head, Nat.mod_mod, if_pos rfl]
  · intro k hk hne
    rw [slot, slot_insert, h.head, Nat.mod_eq_of_lt hk, if_neg hne]
    rfl

/-- The entries that were appended, in the order of the calls. -/
def appended (calls : List StorageCall) : List LogEntry :=
  calls.filterMap fun
    | .appendEvent e => some e
    | _ => none

/-- Counts and the sequence are kept apart from the log. -/
theorem Logs.raise (h : s.Logs entries) (key : String) (value : Nat) (outcomes : Outcomes) :
    (s.raise key value outcomes).2.Logs entries := by
  rcases s.raise_cases key value outcomes with hraise | hraise
  · rw [hraise]
    exact h
  · rw [hraise]
    exact ⟨h.ready, h.head, h.savedHead, h.ring⟩

theorem Logs.step (h : s.Logs entries) {call : StorageCall}
    (hfew : entries.length + (appended [call]).length < 2 ^ 32)
    (hstep : s.step (call, .success) = some t) : t.Logs ((appended [call]).reverse ++ entries) := by
  cases call with
  | init =>
    obtain rfl := Option.some.inj hstep
    exact h.reboot
  | saveCounter deviceId count =>
    obtain rfl := Option.some.inj hstep
    have hraise : s.saveCounter deviceId count .success =
        s.raise (counterKey deviceId) count .success := by
      simp [saveCounter, h.ready, Outcomes.success]
    rw [hraise]
    exact h.raise _ _ _
  | saveSequence seq =>
    obtain rfl := Option.some.inj hstep
    exact h.raise _ _ _
  | appendEvent e =>
    obtain rfl := Option.some.inj hstep
    exact h.append hfew e

/-- After fewer than 2^32 appends the log has the entries appended, whatever other calls and reboots
there were. -/
theorem logs_of_run {calls : List (StorageCall × Outcomes)}
    (h : Run step Always booted calls s) (hsuccess : ∀ call ∈ calls, call.2 = .success)
    (hfew : (appended (calls.map Prod.fst)).length < 2 ^ 32) :
    s.Logs (appended (calls.map Prod.fst)).reverse := by
  induction h with
  | nil => exact booted_logs
  | @snoc calls t u call hrun _ hstep ih =>
    have hcall : call.2 = .success := hsuccess call (by simp)
    obtain ⟨call, outcomes⟩ := call
    obtain rfl : outcomes = .success := hcall
    have happended : appended ((calls ++ [(call, Outcomes.success)]).map Prod.fst) =
        appended (calls.map Prod.fst) ++ appended [call] := by
      rw [List.map_append, appended, List.filterMap_append]
      rfl
    rw [happended, List.length_append] at hfew
    have hbefore := ih (fun call hcall => hsuccess call (List.mem_append_left _ hcall)) (by omega)
    rw [happended, List.reverse_append]
    exact hbefore.step (by rw [List.length_reverse]; exact hfew) hstep

/-- Fewer than 2^32 appends, with reboots and other calls between them, leave a log of which the
last entries are read, as many as there are, fit and are asked for, newest first. -/
theorem readRecent_appended {calls : List (StorageCall × Outcomes)}
    (h : Run step Always booted calls s) (hsuccess : ∀ call ∈ calls, call.2 = .success)
    (hfew : (appended (calls.map Prod.fst)).length < 2 ^ 32) (maxEntries : Nat) :
    s.readRecent maxEntries .success (fun _ => false) =
      .ok ((appended (calls.map Prod.fst)).reverse.take
        (min (appended (calls.map Prod.fst)).length (min kEventLogCapacity maxEntries))) := by
  have hlogs := logs_of_run h hsuccess hfew
  rw [readRecent_of_ring hlogs.ring hlogs.head, Except.ok.injEq, List.take_eq_take_iff,
    List.length_reverse]
  omega

def sampleEntry (seq : Nat) : LogEntry := ⟨seq, 0, [100], [97], 2, [0xA0, 0x01]⟩

/-- Two entries, and a reboot between them. -/
theorem readRecent_appended_sample : ∃ s,
    Run step Always booted [(.appendEvent (sampleEntry 0), .success), (.init, .success),
      (.appendEvent (sampleEntry 1), .success)] s ∧
    s.readRecent 5 .success (fun _ => false) = .ok [sampleEntry 1, sampleEntry 0] := by
  have hrun : Run step Always booted [(.appendEvent (sampleEntry 0), .success), (.init, .success),
      (.appendEvent (sampleEntry 1), .success)] _ := .of_execute rfl
  exact ⟨_, hrun, readRecent_appended hrun (by simp) (by decide) 5⟩

end Storage

end BleUsageMeter.Firmware
