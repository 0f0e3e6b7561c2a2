import BleUsageMeter.Kit.Run
import BleUsageMeter.Backend.Verify
import BleUsageMeter.Firmware.Counter
import BleUsageMeter.Firmware.Matcher
import BleUsageMeter.Firmware.Storage

/-! `firmware/esp32/main.cpp`: the writes, report ticks and reboots of a meter.  `record` counts per
peer, but a reboot restores only the count of the meter's own id.  The persisted counts are the
lifetime counts exactly as long as every counted write finds in memory the number of writes counted
before it. -/

namespace BleUsageMeter.Firmware

open Kit

def kMeterDeviceId : String := "REPLACE_ME-meter-0001"

/-- A report that `report_task` hands to the reporter. -/
structure Report where
  deviceId : String
  count : Nat
  sequence : Nat
  windowStart : Nat
  windowEnd : Nat
deriving DecidableEq

/-- The state of a meter, with the peers of all writes counted in its life and the reports made in
its life, the oldest first. -/
structure Meter where
  storage : Storage
  counter : Counter
  windowStart : Nat
  counted : List String
  reported : List Report

inductive Event
  | record (w : ObservedWrite) (tsUs : Int)
  | report (windowEnd : Nat)
  | reboot
deriving DecidableEq

/-- The bytes of a C string copied by `strncpy` into 24 zeroed bytes. -/
def cString (s : String) : List UInt8 := ((utf8 s).takeWhile (· ≠ 0)).take 23

def logEntry (counter : Counter) (w : ObservedWrite) (m : MatchResult) (tsUs : Int) : LogEntry where
  seq := counter.sequence
  tsUs := tsUs
  deviceId := cString w.peerAddr
  event := cString (if m.matched then m.event else "unknown")
  payloadLen := w.payload.length % 2 ^ 16
  payloadHead := w.payload.take 16

/-- The counter that `app_main` restores. -/
def restored (storage : Storage) : Counter :=
  let counter :=
    match storage.loadSequence .success with
    | .ok seq => Counter.empty.restoreSequence seq
    | .error _ => .empty
  match storage.loadCounter kMeterDeviceId .success with
  | .ok c => if 0 < c then counter.restore kMeterDeviceId c else counter
  | .error _ => counter

/-- `app_main` on a partition. -/
def boot (nvs : Nvs) (counted : List String) (reported : List Report) : Meter :=
  let storage := (Storage.init nvs .success).2
  ⟨storage, restored storage, 0, counted, reported⟩

namespace Meter

/-- A new meter, with nothing in NVS. -/
def new : Meter := boot .empty [] []

def log (s : Meter) (w : ObservedWrite) (m : MatchResult) (tsUs : Int) : Meter :=
  { s with storage := (s.storage.appendEvent (logEntry s.counter w m tsUs) .success).2 }

def count (s : Meter) (peerAddr : String) : Meter :=
  let (c, counter) := s.counter.increment peerAddr 1
  { s with
    storage := (s.storage.saveCounter peerAddr c .success).2
    counter
    counted := s.counted ++ [peerAddr] }

/-- Logs every write and counts the matched ones. -/
def record (rules : List EventRule) (s : Meter) (w : ObservedWrite) (tsUs : Int) : Meter :=
  let m := matchWrite w.service w.characteristic w.payload rules
  let s := s.log w m tsUs
  if m.matched then s.count w.peerAddr else s

/-- A tick of `report_task`, with no write between its posts. -/
def report (s : Meter) (windowEnd : Nat) : Meter :=
  let (seq, counter) := s.counter.nextSequence
  { s with
    storage := (s.storage.saveSequence seq .success).2
    counter
    windowStart := windowEnd
    reported := s.reported ++
      counter.entries.entries.map fun e => ⟨e.1, e.2, seq, s.windowStart, windowEnd⟩ }

def step (rules : List EventRule) (s : Meter) : Event → Option Meter
  | .record w tsUs => some (s.record rules w tsUs)
  | .report windowEnd => some (s.report windowEnd)
  | .reboot => some (boot s.storage.nvs s.counted s.reported)

/-- The writes of a device that were counted in the life of the meter. -/
def lifetime (s : Meter) (deviceId : String) : Nat := s.counted.count deviceId

/-- The count persisted for a device, 0 where there is none. -/
def persisted (s : Meter) (deviceId : String) : Nat :=
  (s.storage.nvs.u64.get? (counterKey deviceId)).getD 0

/-- The persisted counts are the lifetime counts, and no reported count is below an earlier one,
which is what `check_count_monotonic` asks. -/
structure Faithful (s : Meter) : Prop where
  persisted : ∀ d ∈ s.counted, s.persisted d = s.lifetime d
  reported : s.reported.Pairwise fun a b => a.deviceId = b.deviceId → a.count ≤ b.count
  accepted : s.reported.Pairwise fun a b => a.deviceId = b.deviceId →
    ∀ r : Backend.UsageReport, r.count = b.count →
      (Backend.checkCountMonotonic r a.count).ok = true

/-- The next step leaves the meter faithful. -/
def StaysFaithful (rules : List EventRule) (s : Meter) (e : Event) : Prop :=
  ∀ u, s.step rules e = some u → u.Faithful

/-- The memory of a device has the writes counted before and room for one more, and any other
device under its key is one write ahead. -/
structure CountsOn (s : Meter) (peerAddr : String) : Prop where
  live : s.counter.get peerAddr = s.lifetime peerAddr
  room : s.counter.get peerAddr < uint64Max
  shared : ∀ d ∈ s.counted, d ≠ peerAddr → counterKey d = counterKey peerAddr →
    s.lifetime d = s.lifetime peerAddr + 1

/-- Every counted write counts on. -/
def Continues (rules : List EventRule) (s : Meter) : Event → Prop
  | .record w _ => (matchWrite w.service w.characteristic w.payload rules).matched = true →
      s.CountsOn w.peerAddr
  | _ => True

/-- What holds along a run in which every write counts on. -/
structure Level (s : Meter) : Prop where
  ready : s.storage.ready = true
  stored : ∀ d ∈ s.counted, s.storage.nvs.u64.get? (counterKey d) = some (s.lifetime d)
  owned : ∀ d v, s.storage.nvs.u64.get? (counterKey d) = some v →
    ∃ owner ∈ s.counted, counterKey owner = counterKey d
  live : ∀ d ∈ s.counted, ∀ n, s.counter.find d = some n → n = s.lifetime d
  live_le : ∀ d n, s.counter.find d = some n → n ≤ s.persisted d
  monotone : s.reported.Pairwise fun a b => a.deviceId = b.deviceId → a.count ≤ b.count
  reported_le : ∀ r ∈ s.reported, r.count ≤ s.persisted r.deviceId ∧
    ∀ n, s.counter.find r.deviceId = some n → r.count ≤ n

variable {rules : List EventRule} {s u : Meter} {e : Event}

theorem Level.faithful (h : s.Level) : s.Faithful where
  persisted d hd := by rw [persisted, h.stored d hd, Option.getD_some]
  reported := h.monotone
  accepted := h.monotone.imp fun hle hdevice r hr =>
    Backend.checkCountMonotonic_ok.mpr (by have := hle hdevice; omega)

/-- A step that counts nothing, makes no report and keeps the persisted counts. -/
theorem Level.keep (h : s.Level) (hready : u.storage.ready = true)
    (hnvs : ∀ d, u.storage.nvs.u64.get? (counterKey d) = s.storage.nvs.u64.get? (counterKey d))
    (hcounted : u.counted = s.counted) (hreported : u.reported = s.reported)
    (hlive : ∀ d n, u.counter.find d = some n →
      s.counter.find d = some n ∨ n = s.persisted d) : u.Level := by
  have hlifetime : ∀ d, u.lifetime d = s.lifetime d := by
    intro d
    rw [lifetime, hcounted, lifetime]
  have hpersisted : ∀ d, u.persisted d = s.persisted d := by
    intro d
    rw [persisted, hnvs, persisted]
  have hstored : ∀ d ∈ s.counted, s.persisted d = s.lifetime d := h.faithful.persisted
  refine ⟨hready, ?_, ?_, ?_, ?_, hreported ▸ h.monotone, ?_⟩
  · intro d hd
    show u.storage.nvs.u64.get? (counterKey d) = some (u.lifetime d)
    rw [hnvs, hlifetime]
    exact h.stored d (hcounted ▸ hd)
  · intro d v hv
    rw [hnvs] at hv
    rw [hcounted]
    exact h.owned d v hv
  · intro d hd n hn
    show n = u.lifetime d
    rw [hcounted] at hd
    rw [hlifetime]
    rcases hlive d n hn with hn | rfl
    · exact h.live d hd n hn
    · exact hstored d hd
  · intro d n hn
    show n ≤ u.persisted d
    rw [hpersisted]
    rcases hlive d n hn with hn | rfl
    · exact h.live_le d n hn
    · exact Nat.le_refl _
  · intro r hr
    rw [hreported] at hr
    rw [hpersisted]
    refine ⟨(h.reported_le r hr).1, ?_⟩
    intro n hn
    rcases hlive _ n hn with hn | rfl
    · exact (h.reported_le r hr).2 n hn
    · exact (h.reported_le r hr).1

theorem Level.announce (h : s.Level) {reports : List Report}
    (hcounts : ∀ r ∈ reports, s.counter.find r.deviceId = some r.count)
    (hdistinct : reports.Pairwise fun a b => a.deviceId ≠ b.deviceId) :
    Level { s with reported := s.reported ++ reports } where
  ready := h.ready
  stored := h.stored
  owned := h.owned
  live := h.live
  live_le := h.live_le
  monotone := by
    refine List.pairwise_append.mpr ⟨h.monotone, hdistinct.imp fun hne e => absurd e hne, ?_⟩
    intro a ha b hb hdevice
    exact (h.reported_le a ha).2 b.count (hdevice ▸ hcounts b hb)
  reported_le r hr := by
    rcases List.mem_append.mp hr with hr | hr
    · exact h.reported_le r hr
    · refine ⟨h.live_le _ _ (hcounts r hr), ?_⟩
      intro n hn
      rw [← Option.some.inj ((hcounts r hr).symm.trans hn)]

theorem Level.report (h : s.Level) (windowEnd : Nat) : (s.report windowEnd).Level := by
  obtain ⟨storage, counter, windowStart, counted, reported⟩ := s
  have hkeep : Level ⟨(storage.saveSequence counter.nextSequence.1 .success).2,
      counter.nextSequence.2, windowEnd, counted, reported⟩ := by
    refine h.keep ?_ (fun d => (storage.saveSequence_counts _ d).1) rfl rfl
      fun d n hn => .inl hn
    rw [(storage.saveSequence_counts _ "").2]
    exact h.ready
  apply hkeep.announce
  · intro r hr
    obtain ⟨⟨d, n⟩, hentry, rfl⟩ := List.mem_map.mp hr
    exact (Dict.mem_entries_iff _).mp hentry
  · exact List.pairwise_map.mpr (List.pairwise_map.mp counter.entries.nodup)

/-- A reboot restores at most the meter's own count, which is then the persisted one. -/
theorem find_restored {storage : Storage} {d : String} {n : Nat}
    (h : (restored storage).find d = some n) :
    d = kMeterDeviceId ∧ n = (storage.nvs.u64.get? (counterKey d)).getD 0 := by
  simp only [restored, Storage.loadSequence, Storage.loadCounter, Storage.load_success] at h
  have hempty : ∀ seq j, (Counter.empty.restoreSequence seq).find j = none := by
    intro seq j
    unfold Counter.restoreSequence
    split <;> rfl
  split at h
  · rw [Counter.restore, hempty] at h
    by_cases hd : d = kMeterDeviceId
    · subst hd
      rw [Counter.find, Dict.get?_insert_self] at h
      exact ⟨rfl, (Option.some.inj h).symm⟩
    · rw [Counter.find, Dict.get?_insert_ne _ _ hd] at h
      cases (hempty _ _).symm.trans h
  · cases (hempty _ _).symm.trans h

theorem Level.reboot (h : s.Level) : (boot s.storage.nvs s.counted s.reported).Level :=
  h.keep rfl (fun _ => rfl) rfl rfl fun _ _ hn => .inr (find_restored hn).2

theorem Level.log (h : s.Level) (w : ObservedWrite) (m : MatchResult) (tsUs : Int) :
    (s.log w m tsUs).Level := by
  obtain ⟨hnvs, hready⟩ := s.storage.appendEvent_success (logEntry s.counter w m tsUs) h.ready
  exact h.keep hready (fun d => congrArg (Dict.get? · (counterKey d)) hnvs) rfl rfl
    fun d n hn => .inl hn

theorem lifetime_count (s : Meter) (peerAddr d : String) :
    (s.count peerAddr).lifetime d = s.lifetime d + if d = peerAddr then 1 else 0 := by
  simp only [lifetime, count, List.count_append, List.count_singleton, beq_iff_eq,
    eq_comm (a := d)]

/-- A counted write raises what is stored under its device's key to the new count. -/
theorem stored_count (hready : s.storage.ready = true) (peerAddr key : String) :
    (s.count peerAddr).storage.nvs.u64.get? key =
      if key = counterKey peerAddr then
        some (max (s.persisted peerAddr) (s.counter.increment peerAddr 1).1)
      else s.storage.nvs.u64.get? key := by
  simp only [count, persisted, s.storage.saveCounter_success _ _ hready]
  by_cases hlow : (s.counter.increment peerAddr 1).1 <
      (s.storage.nvs.u64.get? (counterKey peerAddr)).getD 0
  · rw [if_pos hlow, Nat.max_eq_left hlow.le]
    split
    · rename_i hkey
      subst hkey
      cases hget : s.storage.nvs.u64.get? (counterKey peerAddr) with
      | none => simp [hget] at hlow
      | some v => rfl
    · rfl
  · rw [if_neg hlow, Nat.max_eq_right (Nat.le_of_not_lt hlow)]
    exact Dict.get?_insert _ _ _ _

/-- No device that shares the key is more than one write ahead. -/
theorem Level.persisted_le (h : s.Level) {peerAddr : String} (hok : s.CountsOn peerAddr) :
    s.persisted peerAddr ≤ s.lifetime peerAddr + 1 := by
  rw [persisted]
  cases hget : s.storage.nvs.u64.get? (counterKey peerAddr) with
  | none => simp
  | some v =>
    obtain ⟨owner, howner, hkey⟩ := h.owned peerAddr v hget
    have hv := h.stored owner howner
    rw [hkey, hget] at hv
    rw [Option.getD_some, Option.some.inj hv]
    by_cases hsame : owner = peerAddr
    · rw [hsame]
      omega
    · rw [hok.shared owner howner hsame hkey]

theorem CountsOn.increment {peerAddr : String} (hok : s.CountsOn peerAddr) :
    (s.counter.increment peerAddr 1).1 = s.lifetime peerAddr + 1 := by
  rw [Counter.increment_one, if_pos hok.room, hok.live]

theorem CountsOn.find {peerAddr : String} (hok : s.CountsOn peerAddr) (d : String) :
    (s.count peerAddr).counter.find d =
      if d = peerAddr then some (s.lifetime peerAddr + 1) else s.counter.find d := by
  rw [← hok.increment]
  exact Counter.find_increment _ _ _ _

theorem Level.nvs_count (h : s.Level) {peerAddr : String} (hok : s.CountsOn peerAddr)
    (key : String) : (s.count peerAddr).storage.nvs.u64.get? key =
      if key = counterKey peerAddr then some (s.lifetime peerAddr + 1)
      else s.storage.nvs.u64.get? key := by
  rw [stored_count h.ready, hok.increment, Nat.max_eq_right (h.persisted_le hok)]

theorem Level.persisted_mono (h : s.Level) {peerAddr : String} (hok : s.CountsOn peerAddr)
    (d : String) : s.persisted d ≤ (s.count peerAddr).persisted d := by
  rw [persisted, persisted, h.nvs_count hok]
  split
  · rename_i hkey
    rw [hkey]
    exact h.persisted_le hok
  · exact Nat.le_refl _

theorem lifetime_count_self (s : Meter) (peerAddr : String) :
    (s.count peerAddr).lifetime peerAddr = s.lifetime peerAddr + 1 := by
  rw [lifetime_count, if_pos rfl]

theorem lifetime_count_other {peerAddr d : String} (hd : d ∈ s.counted ++ [peerAddr])
    (hne : d ≠ peerAddr) : d ∈ s.counted ∧ (s.count peerAddr).lifetime d = s.lifetime d := by
  rw [lifetime_count, if_neg hne]
  exact ⟨by simpa [hne] using hd, rfl⟩

theorem Level.count (h : s.Level) {peerAddr : String} (hok : s.CountsOn peerAddr) :
    (s.count peerAddr).Level where
  ready := by
    show (s.storage.saveCounter peerAddr (s.counter.increment peerAddr 1).1 .success).2.ready = true
    rw [s.storage.saveCounter_success _ _ h.ready]
    split
    · exact h.ready
    · exact h.ready
  stored := by
    intro d hd
    show (s.count peerAddr).storage.nvs.u64.get? (counterKey d) =
      some ((s.count peerAddr).lifetime d)
    rw [h.nvs_count hok]
    by_cases hd' : d = peerAddr
    · rw [hd', if_pos rfl, lifetime_count_self]
    · obtain ⟨hmem, hlifetime⟩ := lifetime_count_other hd hd'
      rw [hlifetime]
      split
      · rename_i hkey
        rw [hok.shared d hmem hd' hkey]
      · exact h.stored d hmem
  owned := by
    intro d v hv
    rw [h.nvs_count hok] at hv
    split at hv
    · rename_i hkey
      exact ⟨peerAddr, by simp [Meter.count], hkey.symm⟩
    · obtain ⟨owner, howner, hkey⟩ := h.owned d v hv
      exact ⟨owner, List.mem_append_left _ howner, hkey⟩
  live := by
    intro d hd n hn
    show n = (s.count peerAddr).lifetime d
    rw [hok.find] at hn
    split at hn
    · rename_i hd'
      rw [hd', lifetime_count_self, ← Option.some.inj hn]
    · rename_i hd'
      obtain ⟨hmem, hlifetime⟩ := lifetime_count_other hd hd'
      rw [hlifetime]
      exact h.live d hmem n hn
  live_le := by
    intro d n hn
    show n ≤ (s.count peerAddr).persisted d
    rw [hok.find] at hn
    split at hn
    · rename_i hd'
      rw [persisted, h.nvs_count hok, hd', if_pos rfl, Option.getD_some, Option.some.inj hn]
    · exact Nat.le_trans (h.live_le d n hn) (h.persisted_mono hok d)
  monotone := h.monotone
  reported_le := by
    intro r hr
    obtain ⟨hle, hfound⟩ := h.reported_le r hr
    refine ⟨Nat.le_trans hle (h.persisted_mono hok _), ?_⟩
    intro n hn
    show r.count ≤ n
    rw [hok.find] at hn
    split at hn
    · rename_i hd'
      rw [← Option.some.inj hn]
      exact Nat.le_trans (hd' ▸ hle) (h.persisted_le hok)
    · exact hfound n hn

theorem Level.step (h : s.Level) (hok : Continues rules s e) (hstep : s.step rules e = some u) :
    u.Level := by
  cases e with
  | record w tsUs =>
    obtain rfl := Option.some.inj hstep
    have hlog := h.log w (matchWrite w.service w.characteristic w.payload rules) tsUs
    unfold record
    dsimp only
    split
    · rename_i hmatched
      obtain ⟨hlive, hroom, hshared⟩ := hok hmatched
      exact hlog.count ⟨hlive, hroom, hshared⟩
    · exact hlog
  | report windowEnd =>
    obtain rfl := Option.some.inj hstep
    exact h.report windowEnd
  | reboot =>
    obtain rfl := Option.some.inj hstep
    exact h.reboot

theorem new_level : new.Level where
  ready := rfl
  stored _ hd := nomatch hd
  owned _ _ hv := nomatch hv
  live _ hd := nomatch hd
  live_le _ _ hn := nomatch hn
  monotone := .nil
  reported_le _ hr := nomatch hr

theorem level_of_run {events : List Event}
    (h : Run (step rules) (Continues rules) new events s) : s.Level :=
  h.preserves new_level fun _ _ _ ht hok hstep => ht.step hok hstep

/-- A counted write that leaves the meter faithful counts on. -/
theorem Level.countsOn (h : s.Level) {peerAddr : String} (hfaithful : (s.count peerAddr).Faithful) :
    s.CountsOn peerAddr := by
  have hstored := stored_count h.ready peerAddr
  have hpersisted : ∀ d ∈ (s.count peerAddr).counted, counterKey d = counterKey peerAddr →
      max (s.persisted peerAddr) (s.counter.increment peerAddr 1).1 =
        (s.count peerAddr).lifetime d := by
    intro d hd hkey
    rw [← hfaithful.persisted d hd]
    show _ = ((s.count peerAddr).storage.nvs.u64.get? (counterKey d)).getD 0
    rw [hstored, if_pos hkey, Option.getD_some]
  have hself := hpersisted peerAddr (by simp [Meter.count]) rfl
  rw [lifetime_count_self, Counter.increment_one] at hself
  have hlive : s.counter.get peerAddr ≤ s.persisted peerAddr := by
    rw [Counter.get]
    cases hfind : s.counter.find peerAddr with
    | none => exact Nat.zero_le _
    | some n => exact h.live_le peerAddr n hfind
  have hcounted : s.lifetime peerAddr = 0 ∨ s.persisted peerAddr = s.lifetime peerAddr := by
    by_cases hmem : peerAddr ∈ s.counted
    · exact .inr (h.faithful.persisted peerAddr hmem)
    · exact .inl (List.count_eq_zero.mpr hmem)
  have hmax : 1 < uint64Max := by decide
  have hget : s.counter.get peerAddr = s.lifetime peerAddr ∧
      s.counter.get peerAddr < uint64Max := by
    split at hself <;> omega
  refine ⟨hget.1, hget.2, ?_⟩
  intro d hd hne hkey
  have hshared := hpersisted d (List.mem_append_left _ hd) hkey
  rw [lifetime_count, if_neg hne, Counter.increment_one] at hshared
  omega

theorem Level.continues (h : s.Level) (hok : StaysFaithful rules s e) : Continues rules s e := by
  cases e with
  | record w tsUs =>
    intro hmatched
    have hlog := h.log w (matchWrite w.service w.characteristic w.payload rules) tsUs
    have hfaithful := hok _ rfl
    simp only [record, hmatched, if_true] at hfaithful
    obtain ⟨hlive, hroom, hshared⟩ := hlog.countsOn hfaithful
    exact ⟨hlive, hroom, hshared⟩
  | report windowEnd => trivial
  | reboot => trivial

/-- A meter stays faithful through its life exactly when every counted write counts on. -/
theorem faithful_iff_continues (rules : List EventRule) (events : List Event) (s : Meter) :
    Run (step rules) (StaysFaithful rules) new events s ↔
      Run (step rules) (Continues rules) new events s := by
  constructor
  · exact fun h => h.exchange fun _ _ _ _ _ hrun hok _ => (level_of_run hrun).continues hok
  · exact fun h => h.exchange fun _ _ _ _ hrun _ hok _ v hv =>
      ((level_of_run hrun).step hok hv).faithful

/-! ### Counting on, in events -/

/-- No reboot comes after a counted write of the device. -/
def Uninterrupted (deviceId : String) (s : Meter) : Event → Prop
  | .reboot => deviceId ∉ s.counted
  | _ => True

/-- The memory of a device has all its counted writes when no reboot came after the first. -/
theorem live_of_uninterrupted {events : List Event} {deviceId : String}
    (hother : deviceId ≠ kMeterDeviceId)
    (h : Run (step rules) (Uninterrupted deviceId) new events s) :
    s.counter.get deviceId = min (s.lifetime deviceId) uint64Max := by
  have hrestored : ∀ storage : Storage, (restored storage).get deviceId = 0 := by
    intro storage
    rw [Counter.get]
    cases hfind : (restored storage).find deviceId with
    | none => rfl
    | some n => exact absurd (find_restored hfind).1 hother
  apply h.preserves
  · exact (hrestored _).trans (Nat.zero_min _).symm
  intro t e u ht hok hstep
  cases e with
  | record w tsUs =>
    obtain rfl := Option.some.inj hstep
    unfold record
    dsimp only
    split
    · have hlog : (t.log w (matchWrite w.service w.characteristic w.payload rules) tsUs).lifetime
          deviceId = t.lifetime deviceId := rfl
      rw [lifetime_count, hlog]
      show (t.counter.increment w.peerAddr 1).2.get deviceId = _
      rw [Counter.get_increment _ _ _ (by decide)]
      split
      · rename_i hpeer
        rw [← hpeer, ht]
        omega
      · exact ht
    · exact ht
  | report windowEnd =>
    obtain rfl := Option.some.inj hstep
    exact ht
  | reboot =>
    obtain rfl := Option.some.inj hstep
    have hnever : (boot t.storage.nvs t.counted t.reported).lifetime deviceId = 0 :=
      List.count_eq_zero.mpr hok
    rw [hnever]
    exact (hrestored _).trans (Nat.zero_min _).symm

/-- A write counts on when no reboot came after the first counted write of its device, which shares
its key with no other. -/
theorem countsOn_of_uninterrupted {events : List Event} {deviceId : String}
    (hother : deviceId ≠ kMeterDeviceId)
    (h : Run (step rules) (Uninterrupted deviceId) new events s)
    (hroom : s.lifetime deviceId < uint64Max)
    (hkeys : ∀ d ∈ s.counted, counterKey d = counterKey deviceId → d = deviceId) :
    s.CountsOn deviceId := by
  have hlive := live_of_uninterrupted hother h
  rw [Nat.min_eq_left hroom.le] at hlive
  exact ⟨hlive, hlive ▸ hroom, fun d hd hne hkey => absurd (hkeys d hd hkey) hne⟩

/-! ### A reboot between two units of work -/

def sampleRule : EventRule := ⟨⟨.replicate 16 0⟩, ⟨.replicate 16 0⟩, [], "work_unit"⟩

def sampleWrite : ObservedWrite :=
  ⟨"aa:bb:cc:dd:ee:ff", ⟨.replicate 16 0⟩, ⟨.replicate 16 0⟩, []⟩

/-- Two writes before a reboot and one after it: the last is not persisted, and the count reported
after it is lower than the one before. -/
theorem reboot_loses_count :
    ∃ rules events s, Run (step rules) Always new events s ∧
      ¬(∀ d ∈ s.counted, s.persisted d = s.lifetime d) ∧
      ¬s.reported.Pairwise fun a b => a.deviceId = b.deviceId → a.count ≤ b.count := by
  have heval : ((Run.execute (step [sampleRule]) new
      [.record sampleWrite 0, .record sampleWrite 1, .report 300, .reboot, .record sampleWrite 2,
        .report 600]).any fun s =>
        decide (¬∀ d ∈ s.counted, s.persisted d = s.lifetime d) &&
        decide (¬s.reported.Pairwise fun a b => a.deviceId = b.deviceId → a.count ≤ b.count)) =
          true := by
    decide +kernel
  obtain ⟨s, hrun, hs⟩ := (Option.any_eq_true _ _).mp heval
  simp only [Bool.and_eq_true, decide_eq_true_eq] at hs
  exact ⟨_, _, s, Run.of_execute hrun, hs⟩

end Meter

end BleUsageMeter.Firmware
