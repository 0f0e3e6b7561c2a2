import BleUsageMeter.Gateway.Pipeline

/-! Whole calls of `Pipeline.handle`, one after the other.  After any writes the memory has the
number of units of each device over what was loaded, the store has it as far as SQLite can hold it,
and the log has one more row for each write. -/

namespace BleUsageMeter.Gateway

open Kit

/-- The largest integer that SQLite stores. -/
def maxCount : Nat := 2 ^ 63 - 1

/-- SQLite can hold the counts, and the sequence in a row of the log. -/
structure Store.Fits (store : Store) : Prop where
  counts : ∀ d, store.count d ≤ maxCount
  sequence : store.loadSequence ≤ maxCount

theorem Store.empty_fits : empty.Fits := ⟨fun _ => Nat.zero_le _, by decide⟩

theorem Counter.sequence_load (store : Store) :
    (Counter.load store).sequence = store.loadSequence.toNat := by
  rw [load, restoreSequence, sequence_ofCounts]
  split
  · rfl
  · rw [sequence_ofCounts]
    omega

theorem Store.get?_of_count {s : Store} {deviceId : String} {n : Nat}
    (hcount : s.count deviceId = n) (hpos : 0 < n) : s.counters.get? deviceId = some n := by
  rw [count] at hcount
  cases hget : s.counters.get? deviceId with
  | none =>
    rw [hget] at hcount
    exact absurd hcount (Nat.ne_of_lt hpos)
  | some m =>
    rw [hget] at hcount
    exact congrArg some hcount

/-- The number of a device's writes that are units of work. -/
def Matcher.units (matcher : Matcher) (writes : List GattWrite) (deviceId : String) : Nat :=
  writes.countP fun write => write.peerAddr = deviceId ∧ matcher.classify write ≠ unknown

namespace Meter

/-- A call of `handle`, up to its end or to the statement that raises. -/
def handle (matcher : Matcher) (g : Meter) (write : GattWrite) : Meter :=
  let event := matcher.classify write
  match g.store.appendEvent (eventRow g.process.counter event write) with
  | .error _ => g
  | .ok store =>
    if event = unknown then { g with store }
    else
      let (count, counter) := g.process.counter.increment write.peerAddr
      match store.saveCounter write.peerAddr count with
      | .error _ => ⟨store, { g.process with counter }⟩
      | .ok store => ⟨store, { g.process with counter }⟩

/-- A meter that starts on a store. -/
def loaded (store : Store) : Meter := ⟨store, .start store⟩

/-- The state after some calls on a meter that starts on an empty store. -/
def handleAll (matcher : Matcher) (writes : List GattWrite) : Meter :=
  writes.foldl (handle matcher) fresh

/-- A call is made of the steps of the pipeline, and ends with no call in progress. -/
theorem handle_run (matcher : Matcher) {g : Meter} (hidle : g.process.stage = .idle)
    (write : GattWrite) : ∃ events, events <+: [.handle write, .increment, .saveCounter] ∧
      Run (step matcher) Always g events (g.handle matcher write) ∧
      (g.handle matcher write).process.stage = .idle := by
  obtain ⟨store, ⟨counter, stage⟩⟩ := g
  obtain rfl : stage = .idle := hidle
  unfold handle
  dsimp only
  cases happend : store.appendEvent (eventRow counter (matcher.classify write) write) with
  | error exc =>
    refine ⟨[.handle write], by simp, .single trivial ?_, rfl⟩
    simp [step, happend]
  | ok logged =>
    by_cases hunknown : matcher.classify write = unknown
    · refine ⟨[.handle write], by simp, ?_, by simp [hunknown]⟩
      apply Run.single trivial
      rw [hunknown] at happend
      simp [step, happend, hunknown]
    · have hcount : Run (step matcher) Always ⟨store, counter, .idle⟩ [.handle write, .increment]
          ⟨logged, (counter.increment write.peerAddr).2,
            .counted write.peerAddr (counter.increment write.peerAddr).1⟩ := by
        apply Run.cons (t := ⟨logged, counter, .logged write.peerAddr⟩) trivial
        · simp [step, happend, hunknown]
        · exact .single trivial rfl
      simp only [hunknown, if_false]
      cases hsave : logged.saveCounter write.peerAddr (counter.increment write.peerAddr).1 with
      | error exc =>
        refine ⟨_, List.prefix_rfl, hcount.snoc trivial ?_, rfl⟩
        simp [step, hsave]
      | ok saved =>
        refine ⟨_, List.prefix_rfl, hcount.snoc trivial ?_, rfl⟩
        simp [step, hsave]

end Meter

/-- What the log says of a write. -/
def EventRow.entry (row : EventRow) : String × String × Nat :=
  (row.deviceId, row.event, row.sequence)

/-- A row with a sequence that SQLite can hold is added to the log. -/
theorem Store.appendEvent_ok (s : Store) (row : EventRow) (h : row.sequence < 2 ^ 63) :
    ∃ t, s.appendEvent row = .ok t ∧ t.counters = s.counters ∧
      t.events.map EventRow.entry = s.events.map EventRow.entry ++ [row.entry] := by
  refine ⟨_, if_neg (Nat.not_le.mpr h), rfl, ?_⟩
  rw [List.map_append]
  rfl

theorem Store.appendEvent_fits {s t : Store} {row : EventRow} (h : s.appendEvent row = .ok t) :
    row.sequence < 2 ^ 63 := by
  unfold appendEvent at h
  split at h
  · cases h
  · exact Nat.lt_of_not_le ‹_›

namespace Meter

/-- What a meter that started on a store has after some writes. -/
structure Resumed (store : Store) (matcher : Matcher) (writes : List GattWrite) (g : Meter) :
    Prop where
  idle : g.process.stage = .idle
  live : g.process.counter.sequence = store.loadSequence.toNat
  memory : ∀ d, g.process.counter.get d = store.count d + matcher.units writes d
  stored : ∀ d, g.store.counters.get? d =
    if matcher.units writes d = 0 then store.counters.get? d
    else some (min (store.count d + matcher.units writes d) maxCount)
  first : g.store.counters.entries.head?.map Prod.fst =
    (store.counters.entries.head?.map Prod.fst).or
      ((writes.find? fun write => matcher.classify write ≠ unknown).map GattWrite.peerAddr)
  logged : g.store.events.map EventRow.entry = store.events.map EventRow.entry ++
    writes.map fun write => (write.peerAddr, matcher.classify write, store.loadSequence.toNat)

variable {matcher : Matcher} {writes : List GattWrite} {g : Meter} {start : Store}

theorem loaded_resumed (matcher : Matcher) (start : Store) :
    Resumed start matcher [] (loaded start) where
  idle := rfl
  live := Counter.sequence_load start
  memory d := Counter.get_load start d
  stored _ := rfl
  first := Option.or_none.symm
  logged := (List.append_nil _).symm

theorem Resumed.count_eq (h : Resumed start matcher writes g) (hfits : start.Fits) (d : String) :
    g.store.count d = min (start.count d + matcher.units writes d) maxCount := by
  have hbefore := hfits.counts d
  rw [Store.count, h.stored]
  split
  · rename_i hnone
    rw [hnone, Nat.add_zero, Nat.min_eq_left hbefore]
    rfl
  · rfl

theorem units_concat (matcher : Matcher) (writes : List GattWrite) (write : GattWrite)
    (d : String) : matcher.units (writes ++ [write]) d = matcher.units writes d +
      if write.peerAddr = d ∧ matcher.classify write ≠ unknown then 1 else 0 := by
  simp [Matcher.units, List.countP_append, List.countP_singleton]

theorem units_unknown {write : GattWrite} (h : matcher.classify write = unknown) (d : String) :
    matcher.units (writes ++ [write]) d = matcher.units writes d := by
  simp [units_concat, h]

theorem units_counted {write : GattWrite} (h : matcher.classify write ≠ unknown) (d : String) :
    matcher.units (writes ++ [write]) d =
      matcher.units writes d + if d = write.peerAddr then 1 else 0 := by
  simp [units_concat, h, eq_comm]

section Call

-- The store in which a call has logged its write.
variable {write : GattWrite} {store : Store} (h : Resumed start matcher writes g)
  (hcounters : store.counters = g.store.counters)
  (hlogged : store.events.map EventRow.entry = start.events.map EventRow.entry ++
    (writes ++ [write]).map fun write =>
      (write.peerAddr, matcher.classify write, start.loadSequence.toNat))

include h hcounters hlogged

theorem Resumed.skip (hunknown : matcher.classify write = unknown) :
    Resumed start matcher (writes ++ [write]) { g with store } := by
  refine ⟨h.idle, h.live, ?_, ?_, ?_, hlogged⟩
  · intro d
    rw [units_unknown hunknown]
    exact h.memory d
  · intro d
    rw [units_unknown hunknown]
    exact (congrArg (fun c => c.get? d) hcounters).trans (h.stored d)
  · show store.counters.entries.head?.map Prod.fst = _
    rw [hcounters, h.first]
    simp [List.find?_append, hunknown]

variable (hcounted : matcher.classify write ≠ unknown)

include hcounted

theorem Resumed.save
    (hholds : start.count write.peerAddr + matcher.units writes write.peerAddr + 1 ≤ maxCount) :
    Resumed start matcher (writes ++ [write])
      ⟨{ store with
          counters := store.counters.insert write.peerAddr
            (start.count write.peerAddr + matcher.units writes write.peerAddr + 1) },
        { g.process with counter := (g.process.counter.increment write.peerAddr).2 }⟩ := by
  refine ⟨h.idle, h.live, ?_, ?_, ?_, hlogged⟩
  · intro d
    rw [Counter.get_increment, h.memory, units_counted hcounted, Nat.add_assoc]
  · intro d
    show (store.counters.insert _ _).get? d = _
    rw [Dict.get?_insert, hcounters, h.stored, units_counted hcounted]
    by_cases hd : d = write.peerAddr
    · simp [hd, ← Nat.add_assoc, Nat.min_eq_left hholds]
    · simp [hd]
  · show (store.counters.insert _ _).entries.head?.map Prod.fst = _
    rw [Dict.head_insert, hcounters, h.first]
    simp [List.find?_append, hcounted]

/-- A count that SQLite cannot hold stays in memory. -/
theorem Resumed.overflow
    (hlarge : maxCount ≤ start.count write.peerAddr + matcher.units writes write.peerAddr)
    (hfits : start.Fits) :
    Resumed start matcher (writes ++ [write])
      ⟨store, { g.process with counter := (g.process.counter.increment write.peerAddr).2 }⟩ := by
  have hmax : maxCount = 9223372036854775807 := rfl
  have hbefore := hfits.counts write.peerAddr
  refine ⟨h.idle, h.live, ?_, ?_, ?_, hlogged⟩
  · intro d
    rw [Counter.get_increment, h.memory, units_counted hcounted, Nat.add_assoc]
  · intro d
    show store.counters.get? d = _
    rw [hcounters, h.stored, units_counted hcounted]
    by_cases hd : d = write.peerAddr
    · subst hd
      rw [if_pos rfl, if_neg (Nat.succ_ne_zero _), ← Nat.add_assoc, Nat.min_eq_right (by omega),
        Nat.min_eq_right (by omega)]
      split
      · rename_i hnone
        exact Store.get?_of_count (by omega) (by decide)
      · rfl
    · simp [hd]
  · -- A device with that count had it in the store, or has a counted write already.
    show store.counters.entries.head?.map Prod.fst = _
    rw [hcounters, h.first, List.find?_append]
    rcases Nat.eq_zero_or_pos (matcher.units writes write.peerAddr) with hzero | hpos
    · have hcount : start.count write.peerAddr = maxCount := by omega
      have hmem := (Dict.mem_entries_iff _).mpr (Store.get?_of_count hcount (by decide))
      cases hentries : start.counters.entries with
      | nil => exact absurd (hentries ▸ hmem) List.not_mem_nil
      | cons entry rest => rfl
    · obtain ⟨earlier, hearlier, hunit⟩ : ∃ earlier ∈ writes,
          earlier.peerAddr = write.peerAddr ∧ matcher.classify earlier ≠ unknown := by
        simpa using List.countP_pos_iff.mp hpos
      have hfound : (writes.find? fun write => matcher.classify write ≠ unknown).isSome := by
        rw [List.find?_isSome]
        exact ⟨earlier, hearlier, by simpa using hunit.2⟩
      rw [Option.or_of_isSome hfound]

end Call

/-- A call on a meter that has handled some writes. -/
theorem Resumed.handle (h : Resumed start matcher writes g) (hfits : start.Fits)
    (write : GattWrite) : Resumed start matcher (writes ++ [write]) (g.handle matcher write) := by
  have hmax : maxCount = 9223372036854775807 := rfl
  have hsequence := hfits.sequence
  obtain ⟨store, happend, hcounters, hevents⟩ := g.store.appendEvent_ok
    (eventRow g.process.counter (matcher.classify write) write) (by
      show g.process.counter.sequence < 2 ^ 63
      rw [h.live]
      omega)
  have hlogged : store.events.map EventRow.entry = start.events.map EventRow.entry ++
      (writes ++ [write]).map fun write =>
        (write.peerAddr, matcher.classify write, start.loadSequence.toNat) := by
    rw [hevents, h.logged, List.map_append, List.append_assoc]
    simp [EventRow.entry, eventRow, h.live]
  have hcount : (g.process.counter.increment write.peerAddr).1 =
      start.count write.peerAddr + matcher.units writes write.peerAddr + 1 := by
    rw [← h.memory]
    rfl
  have hbefore : store.count write.peerAddr ≤
      start.count write.peerAddr + matcher.units writes write.peerAddr := by
    have hcount := h.count_eq hfits write.peerAddr
    rw [Store.count, ← hcounters] at hcount
    exact hcount.trans_le (Nat.min_le_left _ _)
  unfold Meter.handle
  dsimp only
  rw [happend]
  by_cases hunknown : matcher.classify write = unknown
  · simp only [hunknown, if_true]
    exact h.skip hcounters hlogged hunknown
  · simp only [hunknown, if_false, hcount]
    by_cases hholds :
        start.count write.peerAddr + matcher.units writes write.peerAddr + 1 ≤ maxCount
    · rw [store.saveCounter_ok (by omega) (by omega)]
      exact h.save hcounters hlogged hunknown hholds
    · rw [Store.saveCounter_overflow _ _ (by omega)]
      exact h.overflow hcounters hlogged hunknown (by omega) hfits

theorem resumed (matcher : Matcher) (hfits : start.Fits) (writes : List GattWrite) :
    Resumed start matcher writes (writes.foldl (Meter.handle matcher) (loaded start)) := by
  induction writes using List.reverseRecOn with
  | nil => exact loaded_resumed matcher start
  | append_singleton writes write ih =>
    rw [List.foldl_append]
    exact ih.handle hfits write

theorem Resumed.writeSequence (h : Resumed start matcher writes g) (sequence : Nat) :
    Resumed start matcher writes { g with store := g.store.writeSequence sequence } :=
  ⟨h.idle, h.live, h.memory, h.stored, h.first, h.logged⟩

/-- Writes of one peer are counted for it only. -/
theorem Resumed.count_peer (h : Resumed start matcher writes g) (hfits : start.Fits)
    {address : String} (hpeer : ∀ write ∈ writes, write.peerAddr = address) :
    g.store.count address = min maxCount (start.count address +
        writes.countP fun write => matcher.classify write ≠ unknown) ∧
      ∀ d, d ≠ address → g.store.count d = start.count d := by
  constructor
  · have hunits : matcher.units writes address =
        writes.countP fun write => matcher.classify write ≠ unknown := by
      apply List.countP_congr
      intro write hwrite
      simp [hpeer write hwrite]
    rw [h.count_eq hfits, hunits, Nat.min_comm]
  · intro d hd
    have hunits : matcher.units writes d = 0 := by
      apply List.countP_eq_zero.mpr
      intro write hwrite
      simp [hpeer write hwrite, Ne.symm hd]
    rw [h.count_eq hfits, hunits, Nat.add_zero, Nat.min_eq_left (hfits.counts d)]

/-! ### An empty store -/

/-- What a meter that started on an empty store has after some writes. -/
abbrev Handled (matcher : Matcher) (writes : List GattWrite) (g : Meter) : Prop :=
  Resumed .empty matcher writes g

theorem handled (matcher : Matcher) (writes : List GattWrite) :
    Handled matcher writes (handleAll matcher writes) :=
  resumed matcher Store.empty_fits writes

theorem Handled.memory (h : Handled matcher writes g) (d : String) :
    g.process.counter.get d = matcher.units writes d :=
  (Resumed.memory h d).trans (Nat.zero_add _)

theorem Handled.stored (h : Handled matcher writes g) (d : String) :
    g.store.counters.get? d =
      if matcher.units writes d = 0 then none
      else some (min (matcher.units writes d) maxCount) := by
  have hnone : Store.empty.count d = 0 := rfl
  rw [Resumed.stored h, hnone, Nat.zero_add]
  rfl

theorem Handled.first (h : Handled matcher writes g) :
    g.store.counters.entries.head?.map Prod.fst =
      (writes.find? fun write => matcher.classify write ≠ unknown).map GattWrite.peerAddr :=
  Resumed.first h

theorem Handled.logged (h : Handled matcher writes g) : g.store.events.map EventRow.entry =
    writes.map fun write => (write.peerAddr, matcher.classify write, 0) :=
  Resumed.logged h

theorem Handled.count_eq (h : Handled matcher writes g) (d : String) :
    g.store.count d = min (matcher.units writes d) maxCount := by
  rw [Resumed.count_eq h Store.empty_fits]
  exact congrArg (min · maxCount) (Nat.zero_add _)

theorem handle_sequence (matcher : Matcher) (g : Meter) (write : GattWrite) :
    (g.handle matcher write).store.sequence = g.store.sequence := by
  unfold handle
  dsimp only
  split
  · rfl
  · rename_i store happend
    have hsequence := (Store.appendEvent_eq_ok happend).2.1
    split
    · exact hsequence
    · split
      · exact hsequence
      · rename_i saved hsave
        exact (Store.saveCounter_eq_ok hsave).2.2.1.trans hsequence

theorem handleAll_sequence (matcher : Matcher) (writes : List GattWrite) :
    (handleAll matcher writes).store.sequence = none := by
  induction writes using List.reverseRecOn with
  | nil => rfl
  | append_singleton writes write ih =>
    rw [handleAll, List.foldl_append]
    exact (handle_sequence matcher _ write).trans ih

/-- The first row of the counts is that of the first counted write. -/
theorem Handled.first_row (h : Handled matcher writes g) {d : String} {count : Nat}
    {rest : List (String × Nat)} (hrows : g.store.counters.entries = (d, count) :: rest) :
    (∃ write, writes.find? (fun write => matcher.classify write ≠ unknown) = some write ∧
        write.peerAddr = d) ∧ count = min (matcher.units writes d) maxCount := by
  constructor
  · have hfirst := h.first
    rw [hrows] at hfirst
    exact Option.map_eq_some_iff.mp hfirst.symm
  · have hget := (Dict.mem_entries_iff _).mp (hrows ▸ List.mem_cons_self :
      (d, count) ∈ g.store.counters.entries)
    rw [h.stored] at hget
    split at hget
    · cases hget
    · exact (Option.some.inj hget).symm

theorem Handled.no_rows (h : Handled matcher writes g) (hrows : g.store.counters.entries = []) :
    ∀ write ∈ writes, matcher.classify write = unknown := by
  have hfirst := h.first
  rw [hrows] at hfirst
  have hnone := List.find?_eq_none.mp (Option.map_eq_none_iff.mp hfirst.symm)
  simpa using hnone

theorem Handled.logged_eq (h : Handled matcher writes g) (d : String) :
    g.store.logged d = matcher.units writes d := by
  have hentries : g.store.logged d = (g.store.events.map EventRow.entry).countP
      fun entry => entry.1 = d ∧ entry.2.1 ≠ unknown := by
    rw [List.countP_map]
    rfl
  rw [hentries, h.logged, List.countP_map]
  rfl

/-- A store with counts of the sample device and of another one. -/
def sampleStore : Store := ⟨(Dict.empty.insert "d" 5).insert "e" 2, [], some 3⟩

theorem sampleStore_fits : sampleStore.Fits where
  counts d := by
    simp only [Store.count, sampleStore, Dict.get?_insert]
    split
    · decide
    · split
      · decide
      · exact Nat.zero_le _
  sequence := by decide

end Meter

end BleUsageMeter.Gateway
