import BleUsageMeter.Kit.Run
import BleUsageMeter.Gateway.Matcher
import BleUsageMeter.Gateway.Store

/-! `Pipeline.handle` and `_load` of `gateway/cli.py`, one SQLite statement at a time.  A write is
logged, counted in memory and persisted in three steps, and a crash may come between any two of
them.  No unit is ever counted twice; the counts and the log agree exactly as long as no restart
comes between the log row of a unit and its count. -/

namespace BleUsageMeter.Gateway

open Kit

/-- The counter that `_load` restores from persisted counts. -/
def Counter.ofCounts (counts : Dict String Nat) : Counter :=
  counts.entries.foldl (fun c row => c.restore row.1 row.2) empty

/-- `_load`: the counter restored from the store. -/
def Counter.load (store : Store) : Counter :=
  (ofCounts store.loadCounters).restoreSequence store.loadSequence

/-- How far a call of `handle` has come. -/
inductive Stage
  | idle
  | logged (peerAddr : String)
  | counted (peerAddr : String) (count : Nat)
deriving DecidableEq

/-- The memory of a process that runs the pipeline. -/
structure Process where
  counter : Counter
  stage : Stage

/-- A process that has just loaded its counter. -/
def Process.start (store : Store) : Process := ⟨.load store, .idle⟩

structure Meter where
  store : Store
  process : Process

/-- A meter that starts on an empty store. -/
def Meter.fresh : Meter := ⟨.empty, .start .empty⟩

/-- The row that `handle` logs. -/
def eventRow (counter : Counter) (event : String) (write : GattWrite) : EventRow where
  deviceId := write.peerAddr
  event := event
  sequence := counter.sequence
  service := write.service
  characteristic := write.characteristic
  payloadHead := write.payload.take 16

/-- `handle` begins with a write, and goes on with the other statements of its body.  A restart may
come at any time. -/
inductive Event
  | handle (write : GattWrite)
  | increment
  | saveCounter
  | restart
deriving DecidableEq

namespace Meter

/-- The next statement, when it can run.  A statement that raises ends the call. -/
def step (matcher : Matcher) (g : Meter) : Event → Option Meter
  | .handle write =>
    match g.process.stage with
    | .idle =>
      let event := matcher.classify write
      match g.store.appendEvent (eventRow g.process.counter event write) with
      | .error _ => some g
      | .ok store =>
        some ⟨store, { g.process with
          stage := if event = unknown then .idle else .logged write.peerAddr }⟩
    | _ => none
  | .increment =>
    match g.process.stage with
    | .logged peerAddr =>
      let (count, counter) := g.process.counter.increment peerAddr
      some { g with process := ⟨counter, .counted peerAddr count⟩ }
    | _ => none
  | .saveCounter =>
    match g.process.stage with
    | .counted peerAddr count =>
      match g.store.saveCounter peerAddr count with
      | .error _ => some { g with process := { g.process with stage := .idle } }
      | .ok store => some ⟨store, { g.process with stage := .idle }⟩
    | _ => none
  | .restart => some { g with process := .start g.store }

end Meter

/-! ### Counters and tables -/

namespace Counter

theorem get_increment (c : Counter) (deviceId j : String) (n : Nat) (h : 1 ≤ n) :
    (c.increment deviceId n h).2.get j = c.get j + if j = deviceId then n else 0 := by
  simp only [increment, get, Dict.get?_insert]
  split <;> simp_all

theorem get_restore (c : Counter) (deviceId j : String) (count : Nat) :
    (c.restore deviceId count).get j =
      if j = deviceId then max (c.get deviceId) count else c.get j := by
  unfold restore
  by_cases hle : c.get deviceId ≤ count
  · rw [if_pos hle, Nat.max_eq_right hle]
    simp only [get, Dict.get?_insert]
    split <;> rfl
  · rw [if_neg hle, Nat.max_eq_left (by omega)]
    split
    · rename_i hj
      rw [hj]
    · rfl

@[simp] theorem sequence_restore (c : Counter) (deviceId : String) (count : Nat) :
    (c.restore deviceId count).sequence = c.sequence := by
  unfold restore
  split <;> rfl

theorem counts_restore {c : Counter} {deviceId : String} (h : c.counts.get? deviceId = none)
    (count : Nat) : (c.restore deviceId count).counts = c.counts.insert deviceId count := by
  simp [restore, get, h]

theorem entries_foldl_restore {rows : List (String × Nat)} (hrows : (rows.map Prod.fst).Nodup)
    {c : Counter} (hc : ∀ row ∈ rows, c.counts.get? row.1 = none) :
    (rows.foldl (fun c row => c.restore row.1 row.2) c).counts.entries =
      c.counts.entries ++ rows := by
  induction rows generalizing c with
  | nil => simp
  | cons row rest ih =>
    obtain ⟨deviceId, count⟩ := row
    simp only [List.map_cons, List.nodup_cons] at hrows
    have habsent := hc (deviceId, count) List.mem_cons_self
    have hcounts := counts_restore habsent count
    rw [List.foldl_cons, ih hrows.2, hcounts, Dict.entries_insert_absent habsent,
      List.append_assoc, List.singleton_append]
    intro row hrow
    have hne : row.1 ≠ deviceId := fun e => hrows.1 (e ▸ List.mem_map_of_mem hrow)
    rw [hcounts, Dict.get?_insert_ne _ _ hne]
    exact hc row (List.mem_cons_of_mem _ hrow)

/-- Restoring gives back the persisted counts. -/
@[simp] theorem counts_ofCounts (counts : Dict String Nat) : (ofCounts counts).counts = counts := by
  apply Dict.eq_of_entries
  rw [ofCounts, entries_foldl_restore counts.nodup (by simp [empty])]
  rfl

@[simp] theorem sequence_ofCounts (counts : Dict String Nat) : (ofCounts counts).sequence = 0 := by
  have hrestore : ∀ (rows : List (String × Nat)) (c : Counter),
      (rows.foldl (fun c row => c.restore row.1 row.2) c).sequence = c.sequence := by
    intro rows
    induction rows with
    | nil => exact fun _ => rfl
    | cons row rest ih =>
      intro c
      rw [List.foldl_cons, ih, sequence_restore]
  exact hrestore _ _

@[simp] theorem counts_restoreSequence (c : Counter) (sequence : Int) :
    (c.restoreSequence sequence).counts = c.counts := by
  unfold restoreSequence
  split <;> rfl

theorem restoreSequence_natCast (c : Counter) (sequence : Nat) :
    c.restoreSequence sequence = { c with sequence := max c.sequence sequence } := by
  unfold restoreSequence
  split
  · rw [Nat.max_eq_right (by omega), Int.toNat_natCast]
  · rw [Nat.max_eq_left (by omega)]

@[simp] theorem get_load (store : Store) (j : String) : (load store).get j = store.count j := by
  rw [get, load, counts_restoreSequence, counts_ofCounts, Store.loadCounters, Store.count]

end Counter

namespace Store

/-- The number of rows of a device that are counted units. -/
def logged (s : Store) (deviceId : String) : Nat :=
  s.events.countP fun row => row.deviceId = deviceId ∧ row.event ≠ unknown

theorem appendEvent_eq_ok {s t : Store} {row : EventRow} (h : s.appendEvent row = .ok t) :
    (∀ j, t.count j = s.count j) ∧ t.sequence = s.sequence ∧ ∀ j, t.logged j =
      s.logged j + if row.deviceId = j ∧ row.event ≠ unknown then 1 else 0 := by
  unfold appendEvent at h
  split at h
  · cases h
  · obtain rfl := Except.ok.inj h
    exact ⟨fun _ => rfl, rfl, fun j => by
      simp [logged, List.countP_append, List.countP_singleton]⟩

theorem saveCounter_eq_ok {s t : Store} {deviceId : String} {count : Nat}
    (h : s.saveCounter deviceId count = .ok t) :
    s.count deviceId ≤ count ∧ t.events = s.events ∧ t.sequence = s.sequence ∧
      ∀ j, t.count j = if j = deviceId then count else s.count j := by
  unfold saveCounter at h
  split at h
  · cases h
  · split at h
    · cases h
    · rename_i hle
      obtain rfl := Except.ok.inj h
      refine ⟨Nat.le_of_not_lt hle, rfl, rfl, ?_⟩
      intro j
      simp only [Store.count, Dict.get?_insert]
      split <;> rfl

theorem saveCounter_logged {s t : Store} {deviceId : String} {count : Nat}
    (h : s.saveCounter deviceId count = .ok t) (j : String) : t.logged j = s.logged j := by
  rw [logged, (saveCounter_eq_ok h).2.1, logged]

theorem saveCounter_ok (s : Store) {deviceId : String} {count : Nat}
    (hle : s.count deviceId ≤ count) (hfits : count < 2 ^ 63) :
    s.saveCounter deviceId count = .ok { s with counters := s.counters.insert deviceId count } := by
  rw [saveCounter, if_neg (by omega), if_neg (by omega)]

theorem saveCounter_overflow (s : Store) (deviceId : String) {count : Nat} (h : 2 ^ 63 ≤ count) :
    s.saveCounter deviceId count = .error .overflowError := if_pos h

end Store

namespace Meter

variable {matcher : Matcher} {g u : Meter} {e : Event}

/-- What a step can do. -/
theorem step_cases (h : g.step matcher e = some u) :
    (∃ write, e = .handle write ∧ g.process.stage = .idle ∧ ((∃ exc, g.store.appendEvent
          (eventRow g.process.counter (matcher.classify write) write) = .error exc ∧ u = g) ∨
      ∃ store, g.store.appendEvent
          (eventRow g.process.counter (matcher.classify write) write) = .ok store ∧
        u = ⟨store, { g.process with
          stage := if matcher.classify write = unknown then .idle else .logged write.peerAddr }⟩)) ∨
    (∃ peerAddr, e = .increment ∧ g.process.stage = .logged peerAddr ∧
      u = ⟨g.store, (g.process.counter.increment peerAddr).2,
        .counted peerAddr (g.process.counter.increment peerAddr).1⟩) ∨
    (∃ peerAddr count, e = .saveCounter ∧ g.process.stage = .counted peerAddr count ∧
      ((∃ exc, g.store.saveCounter peerAddr count = .error exc ∧
        u = ⟨g.store, g.process.counter, .idle⟩) ∨
      ∃ store, g.store.saveCounter peerAddr count = .ok store ∧
        u = ⟨store, g.process.counter, .idle⟩)) ∨
    (e = .restart ∧ u = ⟨g.store, .start g.store⟩) := by
  cases e with
  | handle write =>
    simp only [step] at h
    split at h
    · rename_i hidle
      split at h
      · rename_i exc hraise
        exact .inl ⟨write, rfl, hidle, .inl ⟨exc, hraise, (Option.some.inj h).symm⟩⟩
      · rename_i store happend
        exact .inl ⟨write, rfl, hidle, .inr ⟨store, happend, (Option.some.inj h).symm⟩⟩
    · cases h
  | increment =>
    simp only [step] at h
    split at h
    · rename_i peerAddr hlogged
      exact .inr (.inl ⟨peerAddr, rfl, hlogged, (Option.some.inj h).symm⟩)
    · cases h
  | saveCounter =>
    simp only [step] at h
    split at h
    · rename_i peerAddr count hcounted
      refine .inr (.inr (.inl ⟨peerAddr, count, rfl, hcounted, ?_⟩))
      split at h
      · rename_i exc hsave
        exact .inl ⟨exc, hsave, (Option.some.inj h).symm⟩
      · rename_i store hsave
        exact .inr ⟨store, hsave, (Option.some.inj h).symm⟩
    · cases h
  | restart => exact .inr (.inr (.inr ⟨rfl, (Option.some.inj h).symm⟩))

/-! ### Exactness -/

/-- No call is in progress, or an idle process has as many persisted units as logged ones. -/
def Exact (g : Meter) : Prop :=
  g.process.stage = .idle → ∀ deviceId, g.store.count deviceId = g.store.logged deviceId

/-- The device whose unit is logged and not yet counted. -/
def uncounted : Stage → Option String
  | .logged peerAddr => some peerAddr
  | _ => none

/-- The device whose unit is counted and not yet persisted. -/
def unpersisted : Stage → Option String
  | .counted peerAddr _ => some peerAddr
  | _ => none

/-- How far a call is that has logged `event`. -/
theorem uncounted_logged {event peerAddr j : String} :
    uncounted (if event = unknown then .idle else .logged peerAddr) = some j ↔
      peerAddr = j ∧ event ≠ unknown := by
  split
  · rename_i h
    simp [uncounted, h]
  · rename_i h
    simp [uncounted, h]

theorem unpersisted_logged (event peerAddr : String) :
    unpersisted (if event = unknown then .idle else .logged peerAddr) = none := by
  split <;> rfl

/-- The log is ahead of the memory, or the memory of the persisted counts, by the unit in
progress. -/
structure Agrees (g : Meter) : Prop where
  logged : ∀ j, g.store.logged j =
    g.process.counter.get j + if uncounted g.process.stage = some j then 1 else 0
  memory : ∀ j, g.process.counter.get j =
    g.store.count j + if unpersisted g.process.stage = some j then 1 else 0
  saving : ∀ peerAddr count, g.process.stage = .counted peerAddr count →
    count = g.process.counter.get peerAddr

/-- A restart finds no call in progress, and a count that is saved fits in SQLite's integers. -/
def Undisturbed (g : Meter) : Event → Prop
  | .restart => g.process.stage = .idle
  | .saveCounter => ∀ peerAddr count, g.process.stage = .counted peerAddr count → count < 2 ^ 63
  | _ => True

variable (matcher) in
/-- The next step leaves the meter exact. -/
def StaysExact (g : Meter) (e : Event) : Prop := ∀ u, g.step matcher e = some u → u.Exact

theorem Agrees.exact (h : g.Agrees) : g.Exact := by
  intro hidle deviceId
  rw [h.logged, h.memory, hidle]
  rfl

theorem fresh_agrees : fresh.Agrees where
  logged j := by simp [fresh, Process.start, uncounted, Store.logged, Store.count, Store.empty]
  memory j := by simp [fresh, Process.start, unpersisted]
  saving peerAddr count h := nomatch h

theorem Agrees.step (h : g.Agrees) (hok : Undisturbed g e) (hstep : g.step matcher e = some u) :
    u.Agrees := by
  rcases step_cases hstep with ⟨write, rfl, hidle, ⟨exc, -, rfl⟩ | ⟨store, happend, rfl⟩⟩ |
    ⟨peerAddr, rfl, hlogged, rfl⟩ | ⟨peerAddr, count, rfl, hcounted, hsave⟩ | ⟨rfl, rfl⟩
  · exact h
  · obtain ⟨hcount, -, hrows⟩ := Store.appendEvent_eq_ok happend
    refine ⟨?_, ?_, ?_⟩
    · intro j
      show store.logged j = g.process.counter.get j + _
      rw [hrows, h.logged, hidle]
      simp only [uncounted_logged]
      rfl
    · intro j
      show g.process.counter.get j = store.count j + _
      rw [h.memory, hidle, unpersisted_logged, hcount]
      rfl
    · intro _ _ hstage
      dsimp only at hstage
      split at hstage <;> cases hstage
  · refine ⟨?_, ?_, ?_⟩
    · intro j
      show g.store.logged j = (g.process.counter.increment peerAddr).2.get j + _
      rw [h.logged, hlogged, Counter.get_increment]
      simp [uncounted, eq_comm]
    · intro j
      show (g.process.counter.increment peerAddr).2.get j = g.store.count j + _
      rw [Counter.get_increment, h.memory, hlogged]
      simp [unpersisted, eq_comm]
    · intro _ _ hstage
      obtain ⟨rfl, rfl⟩ := Stage.counted.inj hstage
      simp [Counter.increment, Counter.get]
  · have hvalue : count = g.store.count peerAddr + 1 := by
      rw [h.saving _ _ hcounted, h.memory, hcounted]
      simp [unpersisted]
    obtain ⟨exc, hraise, -⟩ | ⟨store, hsave, rfl⟩ := hsave
    · have hle : g.store.count peerAddr ≤ count := by omega
      exact nomatch (g.store.saveCounter_ok hle (hok _ _ hcounted)).symm.trans hraise
    · obtain ⟨-, -, -, hcount⟩ := Store.saveCounter_eq_ok hsave
      refine ⟨?_, ?_, fun _ _ hstage => nomatch hstage⟩
      · intro j
        rw [Store.saveCounter_logged hsave, h.logged, hcounted]
        rfl
      · intro j
        show g.process.counter.get j = store.count j + _
        rw [h.memory, hcount, hcounted]
        by_cases hj : j = peerAddr
        · subst hj
          simp [unpersisted, hvalue]
        · simp [unpersisted, hj, Ne.symm hj]
  · have hidle : g.process.stage = .idle := hok
    refine ⟨?_, ?_, fun _ _ hstage => nomatch hstage⟩
    · intro j
      show g.store.logged j = (Counter.load g.store).get j + 0
      rw [h.logged, h.memory, hidle, Counter.get_load]
      rfl
    · intro j
      show (Counter.load g.store).get j = g.store.count j + 0
      exact Counter.get_load g.store j

theorem agrees_of_run {events : List Event}
    (h : Run (step matcher) Undisturbed fresh events g) : g.Agrees :=
  h.preserves fresh_agrees fun _ _ _ ht hok hstep => ht.step hok hstep

/-- A unit in progress is logged and not yet persisted. -/
theorem Agrees.count_ne (h : g.Agrees) {peerAddr : String}
    (hstage : uncounted g.process.stage = some peerAddr ∨
      unpersisted g.process.stage = some peerAddr) :
    g.store.count peerAddr ≠ g.store.logged peerAddr := by
  rw [h.logged, h.memory]
  rcases hstage with hstage | hstage
  · rw [if_pos hstage]; omega
  · rw [if_pos hstage]; omega

/-- A step from a meter that agrees leaves it exact only when it is undisturbed. -/
theorem Agrees.undisturbed (h : g.Agrees) (hok : StaysExact matcher g e) : Undisturbed g e := by
  cases e with
  | handle write => trivial
  | increment => trivial
  | saveCounter =>
    intro peerAddr count hcounted
    by_contra hlarge
    have hraise := g.store.saveCounter_overflow peerAddr (Nat.le_of_not_lt hlarge)
    have hstep : g.step matcher .saveCounter = some ⟨g.store, g.process.counter, .idle⟩ := by
      simp only [Meter.step, hcounted]
      rw [hraise]
    exact h.count_ne (.inr (by rw [hcounted]; rfl)) (hok _ hstep rfl peerAddr)
  | restart =>
    have hexact : ∀ j, g.store.count j = g.store.logged j := hok ⟨g.store, .start g.store⟩ rfl rfl
    cases hstage : g.process.stage with
    | idle => exact hstage
    | logged peerAddr => exact absurd (hexact peerAddr) (h.count_ne (.inl (by rw [hstage]; rfl)))
    | counted peerAddr count =>
      exact absurd (hexact peerAddr) (h.count_ne (.inr (by rw [hstage]; rfl)))

/-- Whatever the rules, the counts and the log of a run agree whenever no call is in progress
exactly when every restart finds no call in progress and every saved count fits. -/
theorem exact_iff_undisturbed (rules : List EventRule) (events : List Event) (g : Meter) :
    Run (step (.ofRules rules)) (StaysExact (.ofRules rules)) fresh events g ↔
      Run (step (.ofRules rules)) Undisturbed fresh events g := by
  constructor
  · exact fun h => h.exchange fun _ _ _ _ _ hrun hok _ => (agrees_of_run hrun).undisturbed hok
  · exact fun h => h.exchange fun _ _ _ _ hrun _ hok _ v hv =>
      ((agrees_of_run hrun).step hok hv).exact

/-! ### What a crash costs -/

def sampleRule : EventRule := ⟨"s", "c", [], "wash"⟩

def sampleWrite : GattWrite := ⟨"d", "s", "c", []⟩

/-- A meter that restarts when it has just logged a unit of work. -/
theorem crash_loses_unit :
    ¬∀ (rules : List EventRule) (events : List Event) (g : Meter),
      Run (step (.ofRules rules)) Always fresh events g → g.Exact := by
  intro h
  have heval : ((Run.execute (step (.ofRules [sampleRule])) fresh
      [.handle sampleWrite, .restart]).any fun g => decide (g.process.stage = .idle) &&
        decide (g.store.count "d" ≠ g.store.logged "d")) = true := by
    decide +kernel
  obtain ⟨g, hrun, hg⟩ := (Option.any_eq_true _ _).mp heval
  simp only [Bool.and_eq_true, decide_eq_true_eq] at hg
  exact hg.2 (h _ _ _ (Run.of_execute hrun) hg.1 "d")

/-- The memory and the store are never ahead of the log. -/
structure Bounded (g : Meter) : Prop where
  stored : ∀ j, g.store.count j ≤ g.store.logged j
  memory : ∀ j, g.process.counter.get j + (if uncounted g.process.stage = some j then 1 else 0) ≤
    g.store.logged j
  saving : ∀ peerAddr count, g.process.stage = .counted peerAddr count →
    count ≤ g.store.logged peerAddr

theorem Bounded.step (h : g.Bounded) (hstep : g.step matcher e = some u) : u.Bounded := by
  rcases step_cases hstep with ⟨write, rfl, hidle, ⟨exc, -, rfl⟩ | ⟨store, happend, rfl⟩⟩ |
    ⟨peerAddr, rfl, hlogged, rfl⟩ | ⟨peerAddr, count, rfl, hcounted, hsave⟩ | ⟨rfl, rfl⟩
  · exact h
  · obtain ⟨hcount, -, hrows⟩ := Store.appendEvent_eq_ok happend
    refine ⟨?_, ?_, ?_⟩
    · intro j
      show store.count j ≤ store.logged j
      rw [hcount, hrows]
      exact Nat.le_add_right_of_le (h.stored j)
    · intro j
      have hmemory := h.memory j
      rw [hidle] at hmemory
      show g.process.counter.get j + _ ≤ store.logged j
      rw [hrows]
      simp only [uncounted_logged]
      exact Nat.add_le_add_right hmemory _
    · intro _ _ hstage
      dsimp only at hstage
      split at hstage <;> cases hstage
  · have hmemory := h.memory
    simp only [hlogged, uncounted, Option.some.injEq] at hmemory
    refine ⟨h.stored, ?_, ?_⟩
    · intro j
      show (g.process.counter.increment peerAddr).2.get j + _ ≤ g.store.logged j
      rw [Counter.get_increment]
      simpa [uncounted, eq_comm] using hmemory j
    · intro _ _ hstage
      obtain ⟨rfl, rfl⟩ := Stage.counted.inj hstage
      simpa [Counter.increment] using hmemory peerAddr
  · have hmemory := h.memory
    rw [hcounted] at hmemory
    obtain ⟨exc, -, rfl⟩ | ⟨store, hsave, rfl⟩ := hsave
    · exact ⟨h.stored, hmemory, fun _ _ hstage => nomatch hstage⟩
    · obtain ⟨-, -, -, hcount⟩ := Store.saveCounter_eq_ok hsave
      have hrows := Store.saveCounter_logged hsave
      refine ⟨?_, ?_, fun _ _ hstage => nomatch hstage⟩
      · intro j
        show store.count j ≤ store.logged j
        rw [hcount, hrows]
        split
        · rename_i hj
          exact hj ▸ h.saving _ _ hcounted
        · exact h.stored j
      · intro j
        show g.process.counter.get j + 0 ≤ store.logged j
        rw [hrows]
        exact hmemory j
  · refine ⟨h.stored, ?_, fun _ _ hstage => nomatch hstage⟩
    intro j
    show (Counter.load g.store).get j + 0 ≤ g.store.logged j
    rw [Counter.get_load]
    exact h.stored j

theorem fresh_bounded : fresh.Bounded where
  stored j := Nat.zero_le _
  memory j := by simp [fresh, Process.start, uncounted, Store.count, Store.empty]
  saving _ _ hstage := by cases hstage

/-- No logged unit is counted twice, wherever crashes come. -/
theorem never_overcounted {events : List Event} (h : Run (step matcher) Always fresh events g)
    (deviceId : String) : g.store.count deviceId ≤ g.store.logged deviceId :=
  (h.preserves fresh_bounded fun _ _ _ ht _ hstep => ht.step hstep).stored deviceId

end Meter

end BleUsageMeter.Gateway
