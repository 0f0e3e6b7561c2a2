import BleUsageMeter.Kit.Occurrences
import BleUsageMeter.Firmware.Life

/-! What the reports of a board say about the writes it has seen.  The count of a peer is the number
of its matched writes since the last boot, as only the count of the meter's own id is restored.
Reports are never too high: those of one round add up to no more than all the matched writes in the
life of the board and what the partition held at first. -/

namespace BleUsageMeter.Firmware

open Kit

/-- The sum of the counts. -/
def Counter.total (c : Counter) : Nat := (c.entries.entries.map Prod.snd).sum

namespace Counter

theorem total_increment (c : Counter) (deviceId : String) :
    (c.increment deviceId 1).2.total ≤ c.total + 1 := by
  have hsum : (c.increment deviceId 1).2.total + c.get deviceId =
      c.total + (c.increment deviceId 1).1 := c.entries.sum_insert deviceId _
  have hnew := c.increment_one deviceId
  split at hnew <;> omega

theorem increment_le_total (c : Counter) (deviceId : String) :
    (c.increment deviceId 1).1 ≤ (c.increment deviceId 1).2.total := by
  apply List.le_sum_of_mem
  refine List.mem_map.mpr ⟨(deviceId, _), ?_, rfl⟩
  exact (Dict.mem_entries_iff _).mpr (Dict.get?_insert_self _ _ _)

end Counter

namespace Storage

/-- The stored count under the key of a device. -/
def count? (s : Storage) (deviceId : String) : Option Nat := s.nvs.u64.get? (counterKey deviceId)

theorem init_count? {nvs : Nvs} {outcomes : Outcomes} {d : String} {n : Nat}
    (h : (init nvs outcomes).2.count? d = some n) : nvs.u64.get? (counterKey d) = some n := by
  rw [count?] at h
  by_cases herases : Erases (.init, outcomes)
  · rw [init_nvs_of_erases herases] at h
    cases h
  · rwa [init_nvs_of_not_erases herases] at h

theorem appendEvent_count? (s : Storage) (e : LogEntry) (outcomes : Outcomes) (d : String) :
    (s.appendEvent e outcomes).2.count? d = s.count? d := by
  rw [count?, appendEvent_u64, count?]

theorem saveCounter_count? (s : Storage) (deviceId : String) (count : Nat) (outcomes : Outcomes)
    (d : String) : (s.saveCounter deviceId count outcomes).2.count? d = s.count? d ∨
      (s.saveCounter deviceId count outcomes).2.count? d = some count := by
  unfold saveCounter
  split
  · exact .inl rfl
  · split
    · exact .inl rfl
    · rcases s.raise_cases (counterKey deviceId) count outcomes with h | h
      · rw [h]
        exact .inl rfl
      · rw [h, count?, written, Dict.get?_insert]
        split
        · exact .inr rfl
        · exact .inl rfl

theorem saveSequence_count? (s : Storage) (seq : Nat) (outcomes : Outcomes) (d : String) :
    (s.saveSequence seq outcomes).2.count? d = s.count? d := by
  unfold saveSequence
  split
  · rfl
  · rcases s.raise_cases kNvsKeySeq seq outcomes with h | h
    · rw [h]
    · rw [h, count?, written, Dict.get?_insert_ne _ _ (counterKey_ne_seq d), count?]

/-- A count above 0 that is loaded is stored. -/
theorem loadCounter_count? {s : Storage} {deviceId : String} {outcomes : Outcomes} {n : Nat}
    (h : s.loadCounter deviceId outcomes = .ok n) (hpos : 0 < n) : s.count? deviceId = some n := by
  unfold loadCounter load at h
  rw [count?]
  split at h
  · cases h
  · split at h
    · obtain rfl := Except.ok.inj h
      cases hpos
    · cases h
    · cases hget : s.nvs.u64.get? (counterKey deviceId) with
      | none =>
        rw [hget] at h
        obtain rfl := Except.ok.inj h
        cases hpos
      | some count =>
        rw [hget] at h
        exact congrArg some (Except.ok.inj h)

end Storage

/-- A boot restores no more than is stored. -/
theorem restoredBy_total {storage : Storage} {sequence count : Outcomes} {bound : Nat}
    (h : ∀ n, storage.count? kMeterDeviceId = some n → n ≤ bound) :
    (restoredBy storage sequence count).total ≤ bound := by
  obtain ⟨c, hc, hrestored⟩ := restoredBy_cases storage sequence count
  rcases hrestored with heq | ⟨n, hload, hpos, heq⟩
  · rw [heq, Counter.total, hc]
    exact Nat.zero_le _
  · have hfind : c.find kMeterDeviceId = none := by rw [Counter.find, hc, Dict.get?_empty]
    have hsum := (Dict.empty : Dict String Nat).sum_insert kMeterDeviceId n
    have htotal : (c.restore kMeterDeviceId n).total = n := by
      rw [Counter.restore, hfind, Counter.total, hc]
      simpa [Dict.empty, Dict.get?] using hsum
    rw [heq, htotal]
    exact h n (Storage.loadCounter_count? hload hpos)

namespace Board

variable (rules : List EventRule)

/-- A write of the device that matches a rule. -/
def Matches (deviceId : Option String) : BoardEvent → Bool
  | .record w .. => (matchWrite w.service w.characteristic w.payload rules).matched &&
      deviceId.all (· = w.peerAddr)
  | _ => false

/-- The number of matched writes in the life of a board. -/
def shown (events : List BoardEvent) : Nat := events.countP (Matches rules none)

/-- The number of matched writes of a device since the last boot. -/
def sinceBoot (deviceId : String) (events : List BoardEvent) : Nat :=
  events.foldl
    (fun n e =>
      match e with
      | .boot _ => 0
      | e => n + if Matches rules (some deviceId) e then 1 else 0) 0

/-- What the memory and the partition of a board hold after the events of its life. -/
structure Tallied {σ : Type} (initial : Nat) (events : List BoardEvent) (s : Board σ) : Prop where
  peers : s.activity ≠ .halted → ∀ d, d ≠ kMeterDeviceId → s.counter.find d =
    if sinceBoot rules d events = 0 then none else some (min (sinceBoot rules d events) uint64Max)
  total : s.counter.total ≤ initial + shown rules events
  stored : ∀ d count, s.storage.count? d = some count → count ≤ initial + shown rules events

variable {rules} {σ : Type} {scheme : SignatureScheme} {m : Mbedtls} {sodium : Sodium scheme}
  {client : String → List UInt8 → Nat → σ → σ × Exchange} {s u : Board σ} {e : BoardEvent}
  {events : List BoardEvent} {initial : Nat}

theorem shown_concat (events : List BoardEvent) (e : BoardEvent) :
    shown rules (events ++ [e]) = shown rules events + if Matches rules none e then 1 else 0 := by
  rw [shown, List.countP_append, List.countP_singleton, shown]

theorem sinceBoot_boot (d : String) (events : List BoardEvent) (o : BootOutcomes) :
    sinceBoot rules d (events ++ [.boot o]) = 0 := by
  rw [sinceBoot, List.foldl_append]
  rfl

theorem sinceBoot_record (d : String) (events : List BoardEvent) (w : ObservedWrite) (tsUs : Int)
    (log save : Outcomes) : sinceBoot rules d (events ++ [.record w tsUs log save]) =
      sinceBoot rules d events +
        if Matches rules (some d) (.record w tsUs log save) then 1 else 0 := by
  rw [sinceBoot, List.foldl_append]
  rfl

/-- An event that changes neither the counts nor the stored ones. -/
theorem Tallied.unmatched (h : s.Tallied rules initial events) (he : Matches rules none e = false)
    (hsince : ∀ d, sinceBoot rules d (events ++ [e]) = sinceBoot rules d events)
    (hactivity : u.activity = s.activity) (hentries : u.counter.entries = s.counter.entries)
    (hstored : ∀ d, u.storage.count? d = s.storage.count? d) :
    u.Tallied rules initial (events ++ [e]) := by
  have hshown : shown rules (events ++ [e]) = shown rules events := by
    rw [shown_concat, he]
    rfl
  refine ⟨?_, ?_, ?_⟩
  · intro hrunning d hd
    rw [Counter.find, hentries, hsince]
    exact h.peers (hactivity ▸ hrunning) d hd
  · rw [Counter.total, hentries, hshown]
    exact h.total
  · intro d count hcount
    rw [hshown]
    exact h.stored d count (hstored d ▸ hcount)

theorem Tallied.boot (h : s.Tallied rules initial events) (o : BootOutcomes) :
    (s.boot sodium o).Tallied rules initial (events ++ [.boot o]) := by
  have hshown : shown rules (events ++ [.boot o]) = shown rules events := shown_concat _ _
  have hstored : ∀ d n, (Storage.init s.storage.nvs o.init).2.count? d = some n →
      n ≤ initial + shown rules (events ++ [.boot o]) := by
    intro d n hn
    rw [hshown]
    exact h.stored d n (Storage.init_count? hn)
  rcases boot_cases sodium o s with
    ⟨storage, hinit, heq⟩ | ⟨storage, key, signer, hinit, -, -, heq⟩
  · rw [heq]
    exact ⟨fun hrunning => absurd rfl hrunning, hshown ▸ h.total, hinit ▸ hstored⟩
  · rw [hinit] at hstored
    rw [heq]
    refine ⟨fun _ d hd => ?_, restoredBy_total (hstored _), hstored⟩
    rw [sinceBoot_boot, if_pos rfl]
    cases hfind : (restoredBy storage o.sequence o.count).find d with
    | none => rfl
    | some n => exact absurd (restoredBy_find hfind) hd

theorem Tallied.record (h : s.Tallied rules initial events) (hrunning : s.activity ≠ .halted)
    (w : ObservedWrite) (tsUs : Int) (log save : Outcomes) :
    (s.record rules w tsUs log save).Tallied rules initial
      (events ++ [.record w tsUs log save]) := by
  by_cases hmatched : (matchWrite w.service w.characteristic w.payload rules).matched
  · have hshown : shown rules (events ++ [.record w tsUs log save]) = shown rules events + 1 := by
      rw [shown_concat]
      simp [Matches, hmatched]
    have htotal := (s.counter.total_increment w.peerAddr).trans (Nat.succ_le_succ h.total)
    rw [Board.record, if_pos hmatched]
    refine ⟨fun _ d hd => ?_, ?_, ?_⟩
    · have hfind := h.peers hrunning d hd
      have hmax : uint64Max = 18446744073709551615 := rfl
      show (s.counter.increment w.peerAddr 1).2.find d = _
      rw [Counter.find_increment, sinceBoot_record, Counter.increment_one, Counter.get]
      by_cases hpeer : d = w.peerAddr
      · subst hpeer
        simp only [hfind, Matches, hmatched]
        grind
      · simpa [Matches, hpeer] using hfind
    · rw [hshown]
      exact htotal
    · intro d n hn
      rw [hshown]
      rcases Storage.saveCounter_count? _ _ _ save d with hsame | hnew
      · rw [hsame, Storage.appendEvent_count?] at hn
        exact (h.stored d n hn).trans (Nat.le_succ _)
      · obtain rfl := Option.some.inj (hnew.symm.trans hn)
        exact (s.counter.increment_le_total w.peerAddr).trans htotal
  · have hnone : ∀ d, Matches rules d (.record w tsUs log save) = false := by
      simp [Matches, hmatched]
    rw [Board.record, if_neg hmatched]
    refine h.unmatched (hnone none) (fun d => ?_) rfl rfl fun d => ?_
    · rw [sinceBoot_record, hnone]
      rfl
    · exact Storage.appendEvent_count? _ _ _ d

theorem Tallied.step (h : s.Tallied rules initial events)
    (hstep : s.step m sodium rules client e = some u) :
    u.Tallied rules initial (events ++ [e]) := by
  cases e with
  | provision key =>
    obtain rfl := Option.some.inj hstep
    exact h.unmatched rfl (fun d => List.foldl_append) rfl rfl fun _ => rfl
  | boot o =>
    obtain rfl := Option.some.inj hstep
    exact h.boot o
  | record w tsUs log save =>
    rw [Board.step] at hstep
    split at hstep
    · cases hstep
    · rename_i hrunning
      obtain rfl := Option.some.inj hstep
      exact h.record hrunning w tsUs log save
  | tick elapsed save =>
    rw [Board.step] at hstep
    split at hstep
    · obtain rfl := Option.some.inj hstep
      exact h.unmatched rfl (fun d => List.foldl_append) rfl rfl
        fun d => Storage.saveSequence_count? _ _ _ d
    · cases hstep

theorem tallied_of_run {nvs : Nvs}
    (hinitial : ∀ d n, nvs.u64.get? (counterKey d) = some n → n ≤ initial)
    (key : Option (List UInt8)) (server : σ)
    (h : Run (step m sodium rules client) Always (off nvs key server) events s) :
    s.Tallied rules initial events := by
  apply h.traces
  · exact ⟨fun hrunning => absurd rfl hrunning, Nat.zero_le _,
      fun d n hn => (hinitial d n hn).trans (Nat.le_add_right _ _)⟩
  · exact fun _ _ _ _ ht _ hstep => ht.step hstep

/-- The reports of a round. -/
theorem Tallied.batch (h : s.Tallied rules initial events) {elapsed : Nat} {save : Outcomes}
    (hstep : s.step m sodium rules client (.tick elapsed save) = some u) :
    ∃ batch, u.reported = s.reported ++ batch ∧ (batch.map Report.deviceId).Nodup ∧
      (∀ d, d ≠ kMeterDeviceId → ∀ n, (∃ r ∈ batch, r.deviceId = d ∧ r.count = n) ↔
        0 < sinceBoot rules d events ∧ n = min (sinceBoot rules d events) uint64Max) ∧
      (batch.map Report.count).sum ≤ initial + shown rules events := by
  rw [Board.step] at hstep
  split at hstep
  · rename_i hreporting
    obtain rfl := Option.some.inj hstep
    refine ⟨_, rfl, ?_, ?_, ?_⟩
    · rw [List.map_map]
      exact s.counter.entries.nodup
    · intro d hd n
      have hpeers := h.peers (by rw [hreporting]; decide) d hd
      have hentry : (∃ r ∈ s.counter.entries.entries.map fun e =>
          (⟨e.1, e.2, s.counter.nextSequence.1, s.windowStart, s.uptime + elapsed⟩ : Report),
          r.deviceId = d ∧ r.count = n) ↔ s.counter.find d = some n := by
        rw [Counter.find, ← Dict.mem_entries_iff]
        constructor
        · rintro ⟨r, hr, rfl, rfl⟩
          obtain ⟨e, he, rfl⟩ := List.mem_map.mp hr
          exact he
        · intro he
          exact ⟨_, List.mem_map.mpr ⟨(d, n), he, rfl⟩, rfl, rfl⟩
      refine hentry.trans ?_
      rw [hpeers]
      split
      · rename_i hnone
        simp [hnone]
      · rename_i hsome
        simp [Nat.pos_of_ne_zero hsome, eq_comm]
    · rw [List.map_map]
      exact h.total
  · cases hstep

/-- Whatever fails and wherever the board reboots, a round in which no write falls reports each peer
that has written since the last boot with the exact number of its matched writes since then, and no
other peer; and its counts add up to no more than the matched writes in the life of the board, on
top of the largest count that the partition held at first. -/
theorem reports_exact {nvs : Nvs}
    (hinitial : ∀ d n, nvs.u64.get? (counterKey d) = some n → n ≤ initial)
    (key : Option (List UInt8)) (server : σ)
    (h : Run (step m sodium rules client) Always (off nvs key server) events s) {elapsed : Nat}
    {save : Outcomes} (hstep : s.step m sodium rules client (.tick elapsed save) = some u) :
    ∃ batch, u.reported = s.reported ++ batch ∧ (batch.map Report.deviceId).Nodup ∧
      (∀ d, d ≠ kMeterDeviceId → ∀ n, (∃ r ∈ batch, r.deviceId = d ∧ r.count = n) ↔
        0 < sinceBoot rules d events ∧ n = min (sinceBoot rules d events) uint64Max) ∧
      (batch.map Report.count).sum ≤ initial + shown rules events :=
  (tallied_of_run hinitial key server h).batch hstep

/-- A life whose last round comes after a reboot and one write. -/
theorem reports_exact_sample : ∃ s u : Board Nat,
    s.step .standard .sample [Meter.sampleRule] sampleServer (.tick 300 .success) = some u ∧
      s.reported.length = 1 ∧ ∃ batch, u.reported = s.reported ++ batch ∧
        (∃ r ∈ batch, r.deviceId = Meter.sampleWrite.peerAddr ∧ r.count = 1) ∧
        (batch.map Report.count).sum ≤ 2 := by
  have heval : ((Run.execute (step .standard .sample [Meter.sampleRule] sampleServer)
      (off .empty none 0) (sampleLife.take 6)).any fun s =>
        decide (s.reported.length = 1 ∧ s.activity = .reporting)) = true := by
    decide +kernel
  obtain ⟨s, hrun, hs⟩ := (Option.any_eq_true _ _).mp heval
  obtain ⟨hlength, hreporting⟩ := of_decide_eq_true hs
  have hempty : ∀ d n, Nvs.empty.u64.get? (counterKey d) = some n → n ≤ 0 := by
    intro d n hn
    cases hn
  have hstep : s.step .standard .sample [Meter.sampleRule] sampleServer (.tick 300 .success) =
      some (s.tick .standard .sample sampleServer 300 .success) := if_pos hreporting
  obtain ⟨batch, hbatch, -, hpeers, hsum⟩ :=
    reports_exact hempty none 0 (Run.of_execute hrun) hstep
  refine ⟨s, _, hstep, hlength, batch, hbatch, ?_, ?_⟩
  · exact (hpeers _ (by decide) 1).mpr (by decide +kernel)
  · exact hsum.trans (by decide +kernel)

end Board

end BleUsageMeter.Firmware
