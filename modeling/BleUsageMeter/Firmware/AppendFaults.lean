import BleUsageMeter.Firmware.EventLog

/-! Appends to the event log whose NVS calls may fail.  An append that fails before it has written
its slot changes nothing.  One that fails after that has returned an error for an entry that is in
the log, in the place of the oldest one when the ring is full. -/

namespace BleUsageMeter.Firmware

open Kit

namespace Storage

/-- `init` after a reboot, when its NVS calls succeed. -/
def reboot (s : Storage) : Storage := (init s.nvs .success).2

/-- `read_recent`, when its NVS calls succeed. -/
def recent (s : Storage) (maxEntries : Nat) : Except EspErr (List LogEntry) :=
  s.readRecent maxEntries .success fun _ => false

/-- The append gets as far as to write the slot. -/
def Writes (s : Storage) (outcomes : Outcomes) : Prop :=
  s.ready = true ∧ outcomes .nvsOpen = none ∧ outcomes .nvsSet = none

instance (s : Storage) (outcomes : Outcomes) : Decidable (s.Writes outcomes) :=
  inferInstanceAs (Decidable (_ ∧ _ ∧ _))

/-- An append that writes its slot then succeeds, and its head is not the last 32-bit number. -/
def Clean (s : Storage) (outcomes : Outcomes) : Prop :=
  s.Writes outcomes →
    outcomes .nvsSetHead = none ∧ outcomes .nvsCommit = none ∧ s.head + 1 < 2 ^ 32

end Storage

/-- The storage, and the slots whose entry is that of an append that returned `ESP_OK`. -/
structure EventLog where
  storage : Storage
  acked : List Nat

inductive LogEvent
  | append (e : LogEntry) (outcomes : Outcomes)
  | reboot

namespace EventLog

def start : EventLog := ⟨.booted, []⟩

def step (l : EventLog) : LogEvent → Option EventLog
  | .append e outcomes =>
    let slot := l.storage.head % kEventLogCapacity
    let others := if l.storage.Writes outcomes then l.acked.filter (· ≠ slot) else l.acked
    match l.storage.appendEvent e outcomes with
    | (.ok _, storage) => some ⟨storage, slot :: others⟩
    | (.error _, storage) => some ⟨storage, others⟩
  | .reboot => some ⟨l.storage.reboot, l.acked⟩

/-- The ring is full. -/
def Full (l : EventLog) : Prop := ∀ k < kEventLogCapacity, (l.storage.slot k).isSome

/-- An append that returns an error leaves the log as it reads, and costs no entry of an append that
returned `ESP_OK`, even after a reboot and another append, but for the oldest one of a full ring.
One that returns `ESP_OK` has put its entry before the others. -/
structure Atomic (l : EventLog) (e : LogEntry) (outcomes : Outcomes) : Prop where
  unchanged : ∀ err, (l.storage.appendEvent e outcomes).1 = .error err → ∀ maxEntries,
    (l.storage.appendEvent e outcomes).2.recent maxEntries = l.storage.recent maxEntries
  spared : ∀ err, (l.storage.appendEvent e outcomes).1 = .error err → ∀ next, ∀ k ∈ l.acked,
    ((l.storage.appendEvent e outcomes).2.reboot.appendEvent next .success).2.slot k =
      l.storage.slot k ∨ (l.Full ∧ k = l.storage.head % kEventLogCapacity)
  recorded : (l.storage.appendEvent e outcomes).1 = .ok () → ∀ maxEntries,
    (l.storage.appendEvent e outcomes).2.recent maxEntries =
      (l.storage.recent kEventLogCapacity).map fun entries =>
        (e :: entries).take (min kEventLogCapacity maxEntries)

end EventLog

namespace Storage

variable {s : Storage} {e : LogEntry} {outcomes : Outcomes}

theorem appendEvent_not_writes (h : ¬s.Writes outcomes) :
    ∃ err, s.appendEvent e outcomes = (.error err, s) := by
  unfold appendEvent
  cases hready : s.ready with
  | false => exact ⟨_, rfl⟩
  | true =>
    cases hopen : outcomes .nvsOpen with
    | some err => exact ⟨err, rfl⟩
    | none =>
      cases hset : outcomes .nvsSet with
      | some err => exact ⟨err, rfl⟩
      | none => exact absurd ⟨hready, hopen, hset⟩ h

/-- What an append that writes its slot leaves behind. -/
structure Wrote (s : Storage) (e : LogEntry) (outcomes : Outcomes) (t : Storage) : Prop where
  ready : t.ready = s.ready
  head : t.head = (s.head + 1) % 2 ^ 32
  savedHead : t.savedHead =
    if outcomes .nvsSetHead = none then (s.head + 1) % 2 ^ 32 else s.savedHead
  slot : ∀ k, t.slot k =
    if k % kEventLogCapacity = s.head % kEventLogCapacity then some e else s.slot k

theorem appendEvent_writes (h : s.Writes outcomes) :
    s.Wrote e outcomes (s.appendEvent e outcomes).2 ∧
      ((s.appendEvent e outcomes).1 = .ok () ↔
        outcomes .nvsSetHead = none ∧ outcomes .nvsCommit = none) := by
  obtain ⟨hready, hopen, hset⟩ := h
  cases hhead : outcomes .nvsSetHead with
  | some err =>
    have hfails : s.appendEvent e outcomes = (.error err, ⟨{ s.nvs with
        blobs := s.nvs.blobs.insert (slotKey s.head) e }, (s.head + 1) % 2 ^ 32, s.ready⟩) := by
      simp [appendEvent, hready, hopen, hset, hhead]
    rw [hfails]
    refine ⟨⟨rfl, rfl, by simp [hhead, savedHead], fun k => slot_insert⟩, by simp⟩
  | none =>
    have hstate : (s.appendEvent e outcomes).2 = (s.appendEvent e .success).2 ∧
        ((s.appendEvent e outcomes).1 = .ok () ↔ outcomes .nvsCommit = none) := by
      cases hcommit : outcomes .nvsCommit <;>
        simp [appendEvent, Outcomes.success, hready, hopen, hset, hhead, hcommit]
    rw [hstate.1, hstate.2, appendEvent_eq hready]
    refine ⟨⟨rfl, rfl, ?_, fun k => slot_insert⟩, by simp⟩
    rw [if_pos hhead, savedHead, Dict.get?_insert_self, Option.getD_some]

/-- Once a slot has been written the log begins with the entry, whatever the append returns. -/
theorem recent_wrote {t : Storage} (h : s.Wrote e outcomes t)
    (hfilled : ∀ n < s.head, (s.slot n).isSome) (hfew : s.head + 1 < 2 ^ 32) (maxEntries : Nat) :
    t.recent maxEntries = (s.recent kEventLogCapacity).map fun entries =>
      (e :: entries).take (min kEventLogCapacity maxEntries) := by
  obtain ⟨entries, hlength, hring⟩ : ∃ entries : List LogEntry, entries.length = s.head ∧
      RingHolds kEventLogCapacity s.slot entries :=
    exists_ringHolds fun n hn => by rw [slot_mod]; exact hfilled n hn
  have hpush : RingHolds kEventLogCapacity t.slot (e :: entries) := by
    refine hring.push ?_ ?_
    · rw [h.slot, hlength, Nat.mod_mod, if_pos rfl]
    · intro k hk hne
      rw [h.slot, Nat.mod_eq_of_lt hk, if_neg (hlength ▸ hne)]
  have hhead : t.head = (e :: entries).length := by
    rw [h.head, List.length_cons, hlength, Nat.mod_eq_of_lt hfew]
  rw [recent, recent, readRecent_of_ring hpush hhead, readRecent_of_ring hring hlength.symm]
  have htake : (e :: entries).take (min kEventLogCapacity maxEntries) =
      (e :: entries.take kEventLogCapacity).take (min kEventLogCapacity maxEntries) := by
    rw [← List.take_succ_cons, List.take_take]
    congr 1
    omega
  rw [htake, Nat.min_self]
  rfl

end Storage

namespace EventLog

variable {l u : EventLog} {e : LogEntry} {outcomes : Outcomes} {head saved : Nat}

/-- As many entries have been numbered as `head` says, and the last `saved` of them are behind the
persisted head.  The slots of the others belong to appends that returned an error. -/
structure Numbered (l : EventLog) (head saved : Nat) : Prop where
  ready : l.storage.ready = true
  head_eq : l.storage.head = head % 2 ^ 32
  savedHead_eq : l.storage.savedHead = saved % 2 ^ 32
  saved_le : saved ≤ head
  filled : ∀ n < head, (l.storage.slot n).isSome
  acked : ∀ k ∈ l.acked, k < kEventLogCapacity ∧ (∃ n < saved, n % kEventLogCapacity = k) ∧
    ∀ n, saved ≤ n → n < head → n % kEventLogCapacity ≠ k

theorem mod_capacity (n : Nat) : n % 2 ^ 32 % kEventLogCapacity = n % kEventLogCapacity :=
  Nat.mod_mod_of_dvd n (by decide)

theorem start_numbered : start.Numbered 0 0 :=
  ⟨rfl, rfl, rfl, Nat.le_refl 0, fun _ h => (nomatch h), fun _ h => nomatch h⟩

theorem Numbered.reboot (h : l.Numbered head saved) :
    (⟨l.storage.reboot, l.acked⟩ : EventLog).Numbered saved saved where
  ready := rfl
  head_eq := h.savedHead_eq
  savedHead_eq := h.savedHead_eq
  saved_le := Nat.le_refl _
  filled n hn := h.filled n (Nat.lt_of_lt_of_le hn h.saved_le)
  acked k hk := ⟨(h.acked k hk).1, (h.acked k hk).2.1, fun n hle hlt => by omega⟩

/-- An append that has written its slot and fails to number it as saved, or saves it. -/
theorem Numbered.wrote (h : l.Numbered head saved) {t : Storage}
    (hwrote : l.storage.Wrote e outcomes t) {acked : List Nat}
    (hacked : ∀ k ∈ acked, k ∈ l.acked ∧ k ≠ l.storage.head % kEventLogCapacity ∨
      k = l.storage.head % kEventLogCapacity ∧ outcomes .nvsSetHead = none) :
    (⟨t, acked⟩ : EventLog).Numbered (head + 1)
      (if outcomes .nvsSetHead = none then head + 1 else saved) := by
  have hslot : l.storage.head % kEventLogCapacity = head % kEventLogCapacity := by
    rw [h.head_eq, mod_capacity]
  have hle := h.saved_le
  refine ⟨hwrote.ready.trans h.ready, ?_, ?_, ?_, ?_, ?_⟩
  · rw [hwrote.head, h.head_eq, Nat.mod_add_mod]
  · rw [hwrote.savedHead]
    split
    · rw [h.head_eq, Nat.mod_add_mod]
    · exact h.savedHead_eq
  · split <;> omega
  · intro n hn
    rw [hwrote.slot, hslot]
    split
    · rfl
    · rename_i hne
      exact h.filled n (by
        rcases Nat.lt_succ_iff_lt_or_eq.mp hn with hlt | rfl
        · exact hlt
        · exact absurd rfl hne)
  · intro k hk
    rcases hacked k hk with ⟨hmem, hne⟩ | ⟨rfl, hset⟩
    · obtain ⟨hlt, ⟨n, hn, hmod⟩, hlater⟩ := h.acked k hmem
      refine ⟨hlt, ⟨n, by split <;> omega, hmod⟩, ?_⟩
      intro m hm hmlt
      rcases Nat.lt_succ_iff_lt_or_eq.mp hmlt with hmlt | rfl
      · refine hlater m ?_ hmlt
        split at hm <;> omega
      · rw [← hslot]
        exact fun heq => hne heq.symm
    · rw [if_pos hset]
      refine ⟨Nat.mod_lt _ (by decide), ⟨head, Nat.lt_succ_self head, hslot.symm⟩, ?_⟩
      intro m hm hmlt
      omega

theorem Numbered.step (h : l.Numbered head saved) {event : LogEvent}
    (hstep : l.step event = some u) : ∃ head saved, u.Numbered head saved := by
  cases event with
  | reboot =>
    obtain rfl := Option.some.inj hstep
    exact ⟨saved, saved, h.reboot⟩
  | append e outcomes =>
    by_cases hwrites : l.storage.Writes outcomes
    · obtain ⟨hwrote, hok⟩ := l.storage.appendEvent_writes (e := e) hwrites
      simp only [EventLog.step, hwrites, if_true] at hstep
      cases happend : l.storage.appendEvent e outcomes with
      | mk result t =>
        rw [happend] at hstep hwrote hok
        cases result with
        | ok =>
          obtain rfl := Option.some.inj hstep
          refine ⟨_, _, h.wrote hwrote ?_⟩
          intro k hk
          rcases List.mem_cons.mp hk with rfl | hk
          · exact .inr ⟨rfl, (hok.mp rfl).1⟩
          · exact .inl (by simpa using hk)
        | error err =>
          obtain rfl := Option.some.inj hstep
          refine ⟨_, _, h.wrote hwrote ?_⟩
          intro k hk
          exact .inl (by simpa using hk)
    · obtain ⟨err, hsame⟩ := l.storage.appendEvent_not_writes (e := e) hwrites
      simp only [EventLog.step, hwrites, if_false, hsame] at hstep
      obtain rfl := Option.some.inj hstep
      exact ⟨head, saved, h⟩

theorem numbered_of_run {events : List LogEvent} (h : Run step Always start events l) :
    ∃ head saved, l.Numbered head saved := by
  apply h.preserves ⟨0, 0, start_numbered⟩
  rintro t event u ⟨head, saved, ht⟩ - hstep
  exact ht.step hstep

/-- The slot that a reboot and an append write holds no acknowledged entry, unless it is that of the
oldest entry of a full ring. -/
theorem Numbered.saved_slot (h : l.Numbered head saved) {k : Nat} (hk : k ∈ l.acked)
    (hslot : k = saved % kEventLogCapacity) :
    l.Full ∧ k = l.storage.head % kEventLogCapacity := by
  obtain ⟨-, ⟨n, hn, hmod⟩, hlater⟩ := h.acked k hk
  have heq : saved = head := by
    rcases Nat.lt_or_eq_of_le h.saved_le with hlt | heq
    · exact absurd hslot.symm (hlater saved (Nat.le_refl _) hlt)
    · exact heq
  have hturn : kEventLogCapacity ≤ saved := by
    by_contra hlt
    rw [Nat.mod_eq_of_lt (by omega)] at hmod hslot
    omega
  refine ⟨fun j hj => h.filled j (by omega), ?_⟩
  rw [h.head_eq, mod_capacity, ← heq, hslot]

theorem Numbered.filled_head (h : l.Numbered head saved) :
    ∀ n < l.storage.head, (l.storage.slot n).isSome := by
  intro n hn
  rw [h.head_eq] at hn
  exact h.filled n (Nat.lt_of_lt_of_le hn (Nat.mod_le _ _))

theorem Numbered.atomic (h : l.Numbered head saved) (e : LogEntry)
    (hclean : l.storage.Clean outcomes) : l.Atomic e outcomes := by
  by_cases hwrites : l.storage.Writes outcomes
  · obtain ⟨hset, hcommit, hfew⟩ := hclean hwrites
    obtain ⟨hwrote, hok⟩ := l.storage.appendEvent_writes (e := e) hwrites
    have hsucceeds := hok.mpr ⟨hset, hcommit⟩
    refine ⟨?_, ?_, ?_⟩
    · intro err herr
      cases hsucceeds.symm.trans herr
    · intro err herr
      cases hsucceeds.symm.trans herr
    · intro _ maxEntries
      exact Storage.recent_wrote hwrote h.filled_head hfew maxEntries
  · obtain ⟨err, hsame⟩ := l.storage.appendEvent_not_writes (e := e) hwrites
    refine ⟨?_, ?_, ?_⟩
    · intro _ _ maxEntries
      rw [hsame]
    · intro _ _ next k hk
      rw [hsame]
      have hclear : l.storage.reboot.Writes .success := ⟨rfl, rfl, rfl⟩
      have hslot := (Storage.appendEvent_writes (e := next) hclear).1.slot k
      rw [hslot, Nat.mod_eq_of_lt (h.acked k hk).1]
      have hhead : l.storage.reboot.head % kEventLogCapacity = saved % kEventLogCapacity := by
        have hsaved : l.storage.reboot.head = l.storage.savedHead := rfl
        rw [hsaved, h.savedHead_eq, mod_capacity]
      split
      · rename_i hk'
        exact .inr (h.saved_slot hk (hk'.trans hhead))
      · exact .inl rfl
    · intro hok
      rw [hsame] at hok
      cases hok

/-- The log can be read, and is empty at the start and when the head has wrapped around. -/
theorem Numbered.exists_recent (h : l.Numbered head saved) :
    ∃ entries, l.storage.recent kEventLogCapacity = .ok entries ∧
      (entries = [] → l.storage.head = 0) := by
  obtain ⟨entries, hlength, hring⟩ : ∃ entries : List LogEntry,
      entries.length = l.storage.head ∧ RingHolds kEventLogCapacity l.storage.slot entries :=
    exists_ringHolds fun n hn => by rw [Storage.slot_mod]; exact h.filled_head n hn
  refine ⟨_, Storage.readRecent_of_ring hring hlength.symm _, ?_⟩
  intro hnil
  rw [List.take_eq_nil_iff, Nat.min_self] at hnil
  rcases hnil with hcap | rfl
  · cases hcap
  · exact hlength.symm

/-- An append that is not clean is seen to fail, unless its entry is in the log already. -/
theorem Numbered.clean (h : l.Numbered head saved) {e : LogEntry}
    (hnew : ∀ entries, l.storage.recent kEventLogCapacity = .ok entries → e ∉ entries)
    (hatomic : l.Atomic e outcomes) : l.storage.Clean outcomes := by
  intro hwrites
  obtain ⟨hwrote, hok⟩ := l.storage.appendEvent_writes (e := e) hwrites
  obtain ⟨entries, hentries, hnil⟩ := h.exists_recent
  have hbound : l.storage.head < 2 ^ 32 := by
    rw [h.head_eq]
    exact Nat.mod_lt _ (by decide)
  have hfew : l.storage.head + 1 < 2 ^ 32 := by
    by_contra hlast
    -- the head is 0 again, so nothing is read
    have hwrap : l.storage.head + 1 = 2 ^ 32 := by omega
    have hnothing : (l.storage.appendEvent e outcomes).2.recent kEventLogCapacity = .ok [] := by
      rw [Storage.recent, Storage.readRecent_eq, hwrote.head, hwrap, Nat.mod_self]
      rfl
    cases happend : (l.storage.appendEvent e outcomes).1 with
    | ok =>
      have hrecorded := hatomic.recorded happend kEventLogCapacity
      rw [hnothing, hentries] at hrecorded
      cases hrecorded
    | error err =>
      have hunchanged := hatomic.unchanged err happend kEventLogCapacity
      rw [hnothing, hentries] at hunchanged
      have := hnil (Except.ok.inj hunchanged).symm
      omega
  cases happend : (l.storage.appendEvent e outcomes).1 with
  | ok => exact ⟨(hok.mp happend).1, (hok.mp happend).2, hfew⟩
  | error err =>
    have hunchanged := hatomic.unchanged err happend kEventLogCapacity
    rw [Storage.recent_wrote hwrote h.filled_head hfew, hentries] at hunchanged
    have hsame := Except.ok.inj hunchanged
    refine absurd ?_ (hnew entries hentries)
    rw [← hsame]
    exact List.mem_cons_self

/-- In every state of the log, whatever failed before, an append that is clean is atomic.  One that
is not clean is not, if its entry is a new one. -/
theorem append_atomic_iff {events : List LogEvent} (h : Run step Always start events l)
    (e : LogEntry) (outcomes : Outcomes) :
    (l.storage.Clean outcomes → l.Atomic e outcomes) ∧
      ((∀ entries, l.storage.recent kEventLogCapacity = .ok entries → e ∉ entries) →
        l.Atomic e outcomes → l.storage.Clean outcomes) := by
  obtain ⟨head, saved, hnumbered⟩ := numbered_of_run h
  exact ⟨hnumbered.atomic e, hnumbered.clean⟩

/-- Three appends, one that fails before it has written its slot and one that fails after that, a
reboot, and an append over the slot of the failed one. -/
def sampleAppends : List LogEvent :=
  [.append (Storage.sampleEntry 0) .success, .append (Storage.sampleEntry 1) .success,
    .append (Storage.sampleEntry 2) .success,
    .append (Storage.sampleEntry 3) (.failing .nvsSet (.other 1)),
    .append (Storage.sampleEntry 4) (.failing .nvsSetHead (.other 1)), .reboot,
    .append (Storage.sampleEntry 5) .success]

/-- What comes next is atomic, except where it has written its slot and cannot save the head. -/
theorem append_atomic_iff_sample : ∃ l, Run step Always start sampleAppends l ∧
    l.storage.head = 4 ∧ l.acked = [3, 2, 1, 0] ∧
    l.Atomic (Storage.sampleEntry 6) .success ∧
    l.Atomic (Storage.sampleEntry 6) (.failing .nvsSet (.other 1)) ∧
    ¬l.Atomic (Storage.sampleEntry 6) (.failing .nvsSetHead (.other 1)) := by
  have heval : ((Run.execute step start sampleAppends).any fun l =>
      decide (l.storage.ready = true ∧ l.storage.head = 4 ∧ l.acked = [3, 2, 1, 0] ∧
        ∀ entry ∈ (l.storage.recent kEventLogCapacity).toOption.getD [],
          entry ≠ Storage.sampleEntry 6)) = true := by
    decide +kernel
  obtain ⟨l, hrun, hl⟩ := (Option.any_eq_true _ _).mp heval
  obtain ⟨hready, hhead, hacked, hother⟩ := of_decide_eq_true hl
  have hatomic := fun outcomes =>
    append_atomic_iff (Run.of_execute hrun) (Storage.sampleEntry 6) outcomes
  refine ⟨l, .of_execute hrun, hhead, hacked, ?_, ?_, ?_⟩
  · apply (hatomic _).1
    intro _
    rw [hhead]
    decide
  · apply (hatomic _).1
    rintro ⟨-, -, hset⟩
    cases hset
  · intro h
    have hclean := (hatomic _).2 ?_ h ⟨hready, rfl, rfl⟩
    · cases hclean.1
    · intro entries hentries hmem
      rw [hentries] at hother
      exact hother _ hmem rfl

/-- An append returns an error when the new head cannot be written, and its entry is in the log. -/
theorem failed_append_recorded : ¬∀ events l e outcomes,
    Run step Always start events l → l.Atomic e outcomes := by
  intro h
  have hatomic := h [] start (Storage.sampleEntry 0) (.failing .nvsSetHead (.other 1)) .nil
  have hunchanged := hatomic.unchanged (.other 1) rfl 1
  have hafter : (start.storage.appendEvent (Storage.sampleEntry 0)
      (.failing .nvsSetHead (.other 1))).2.recent 1 = .ok [Storage.sampleEntry 0] := rfl
  have hbefore : start.storage.recent 1 = .ok [] := rfl
  rw [hafter, hbefore] at hunchanged
  cases hunchanged

end EventLog

end BleUsageMeter.Firmware
