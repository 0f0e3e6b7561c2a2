import BleUsageMeter.Kit.Parties
import BleUsageMeter.Gateway.Billing
import BleUsageMeter.Gateway.Reports

/-! Several gateway processes on one store.  Each counts in its own memory, loaded when it starts,
and saves absolute counts; the trigger refuses only a count that is lower than the stored one.  No
process can add to the stored counts more than it handled, and they are exact when every save finds
the count that its process loaded or saved last. -/

namespace BleUsageMeter.Gateway

open Kit

/-- The store, and the processes that have been started. -/
abbrev Sharing : Type := Parties Store Process

/-- A process is started, or process `i` goes on. -/
abbrev SharingEvent : Type := PartyEvent Unit Event

namespace Sharing

-- The rules of each process.
variable (matcher : Nat → Matcher)

/-- The next statement of a process, which does not crash. -/
def act (i : Nat) (store : Store) (process : Process) : Event → Option (Store × Process)
  | .restart => none
  | e => ((⟨store, process⟩ : Meter).step (matcher i) e).map fun g => (g.store, g.process)

def step (p : Sharing) (e : SharingEvent) : Option Sharing :=
  Parties.step (fun store _ => .start store) (act matcher) p e

/-- The write of an event that begins a call for a unit of work of a device. -/
def Units (deviceId : String) : SharingEvent → Bool
  | .act i (.handle write) =>
    decide (write.peerAddr = deviceId ∧ (matcher i).classify write ≠ unknown)
  | _ => false

/-- The number of units of a device that have been handled. -/
def handled (events : List SharingEvent) (deviceId : String) : Nat :=
  events.countP (Units matcher deviceId)

/-- No call is in progress. -/
def Quiet (p : Sharing) : Prop := ∀ process ∈ p.members, process.stage = .idle

/-- The next statement of a process loses no unit: SQLite can hold the sequence of a unit that is
logged, and a save raises the stored count by one. -/
def Lossless (i : Nat) (store : Store) (process : Process) : Event → Prop
  | .handle write => (matcher i).classify write ≠ unknown → process.counter.sequence < 2 ^ 63
  | .saveCounter => ∀ peerAddr count, process.stage = .counted peerAddr count →
      count = store.count peerAddr + 1 ∧ count < 2 ^ 63
  | _ => True

def Undisturbed (p : Sharing) (e : SharingEvent) : Prop := Parties.Allows (Lossless matcher) p e

/-! ### What a process relies on -/

/-- The process has a unit in progress for the device. -/
def Pending (deviceId : String) (process : Process) : Bool :=
  decide (Meter.uncounted process.stage = some deviceId ∨
    Meter.unpersisted process.stage = some deviceId)

/-- The counts of a process are those that it has saved, as far as they can be stored. -/
structure Behind (store : Store) (process : Process) : Prop where
  memory : ∀ d, min (process.counter.get d -
    if Meter.unpersisted process.stage = some d then 1 else 0) maxCount ≤ store.count d
  saving : ∀ d count, process.stage = .counted d count → count = process.counter.get d

theorem behind_start (store : Store) : Behind store (.start store) where
  memory d := by
    simp [Process.start, Meter.unpersisted]
  saving _ _ h := by cases h

theorem Behind.grow {a b : Store} {process : Process} (h : Behind a process)
    (hcounts : ∀ d, a.count d ≤ b.count d) : Behind b process :=
  ⟨fun d => (h.memory d).trans (hcounts d), h.saving⟩

variable {matcher} {store store' : Store} {process process' : Process} {i : Nat} {e : Event}

theorem act_step (h : act matcher i store process e = some (store', process')) :
    e ≠ .restart ∧
      (⟨store, process⟩ : Meter).step (matcher i) e = some ⟨store', process'⟩ := by
  cases e with
  | restart => cases h
  | _ =>
    obtain ⟨g, hg, hpair⟩ := Option.map_eq_some_iff.mp h
    obtain ⟨rfl, rfl⟩ := Prod.mk.inj hpair
    exact ⟨by simp, hg⟩

theorem behind_idle {counter : Counter} (h : ∀ d, min (counter.get d) maxCount ≤ store.count d) :
    Behind store ⟨counter, .idle⟩ where
  memory d := by simpa [Meter.unpersisted] using h d
  saving _ _ hstage := by cases hstage

/-- The count that is raised is not persisted yet. -/
theorem Behind.increment (h : Behind store process) {peerAddr : String}
    (hlogged : process.stage = .logged peerAddr) :
    Behind store ⟨(process.counter.increment peerAddr).2,
      .counted peerAddr (process.counter.increment peerAddr).1⟩ := by
  refine ⟨?_, ?_⟩
  · intro d
    have hmemory := h.memory d
    rw [hlogged] at hmemory
    rw [Counter.get_increment]
    simp only [Meter.unpersisted, Option.some.injEq, reduceCtorEq, if_false,
      Nat.sub_zero] at hmemory ⊢
    by_cases hd : d = peerAddr
    · rw [if_pos hd, if_pos hd.symm, Nat.add_sub_cancel]
      exact hmemory
    · rw [if_neg hd, if_neg (Ne.symm hd)]
      exact hmemory
  · intro d count hstage
    obtain ⟨rfl, rfl⟩ := Stage.counted.inj hstage
    rw [Counter.get_increment, if_pos rfl]
    rfl

/-- Every count but the one that is being saved is stored. -/
theorem Behind.counted (h : Behind store process) {peerAddr : String} {count : Nat}
    (hcounted : process.stage = .counted peerAddr count) (d : String) :
    min (process.counter.get d - if d = peerAddr then 1 else 0) maxCount ≤ store.count d := by
  have hmemory := h.memory d
  simpa only [hcounted, Meter.unpersisted, Option.some.injEq, eq_comm] using hmemory

/-- A count is refused when another process has stored a higher one, or when it is too large. -/
theorem Behind.refused (h : Behind store process) {peerAddr : String} {count : Nat}
    (hcounted : process.stage = .counted peerAddr count) {exc : PyException}
    (hraise : store.saveCounter peerAddr count = .error exc) :
    Behind store ⟨process.counter, .idle⟩ := by
  have hmax : maxCount = 9223372036854775807 := rfl
  apply behind_idle
  intro d
  have hd := h.counted hcounted d
  by_cases hpeer : d = peerAddr
  · subst hpeer
    have hcount := h.saving d count hcounted
    rw [if_pos rfl] at hd
    by_cases hfits : store.count d ≤ count ∧ count < 2 ^ 63
    · cases (store.saveCounter_ok hfits.1 hfits.2).symm.trans hraise
    · rw [not_and_or] at hfits
      omega
  · simpa [hpeer] using hd

theorem Behind.saved (h : Behind store process) {peerAddr : String} {count : Nat}
    (hcounted : process.stage = .counted peerAddr count)
    (hsave : store.saveCounter peerAddr count = .ok store') :
    Behind store' ⟨process.counter, .idle⟩ := by
  obtain ⟨-, -, -, hcounts⟩ := Store.saveCounter_eq_ok hsave
  apply behind_idle
  intro d
  have hd := h.counted hcounted d
  rw [hcounts]
  by_cases hpeer : d = peerAddr
  · rw [if_pos hpeer, h.saving peerAddr count hcounted, hpeer]
    exact Nat.min_le_left _ _
  · rw [if_neg hpeer]
    simpa [hpeer] using hd

theorem Behind.act (h : Behind store process)
    (hact : act matcher i store process e = some (store', process')) :
    Behind store' process' := by
  obtain ⟨hne, hstep⟩ := act_step hact
  rcases Meter.step_cases hstep with ⟨write, -, hidle, ⟨exc, hraise, hu⟩ | ⟨logged, happend, hu⟩⟩ |
    ⟨peerAddr, -, hlogged, hu⟩ | ⟨peerAddr, count, -, hcounted, hsave⟩ | ⟨rfl, -⟩
  · obtain ⟨rfl, rfl⟩ := Meter.mk.inj hu
    exact h
  · obtain ⟨rfl, rfl⟩ := Meter.mk.inj hu
    obtain ⟨hcounts, -, -⟩ := Store.appendEvent_eq_ok happend
    refine ⟨?_, ?_⟩
    · intro d
      have hmemory := h.memory d
      dsimp only at hidle
      rw [hidle] at hmemory
      rw [hcounts]
      split <;> exact hmemory
    · intro d count hstage
      dsimp only at hstage
      split at hstage <;> cases hstage
  · obtain ⟨rfl, rfl⟩ := Meter.mk.inj hu
    exact h.increment hlogged
  · obtain ⟨exc, hraise, hu⟩ | ⟨saved, hsave, hu⟩ := hsave
    · obtain ⟨rfl, rfl⟩ := Meter.mk.inj hu
      exact h.refused hcounted hraise
    · obtain ⟨rfl, rfl⟩ := Meter.mk.inj hu
      exact h.saved hcounted hsave
  · exact absurd rfl hne

theorem act_counts (hact : act matcher i store process e = some (store', process')) (d : String) :
    store.count d ≤ store'.count d :=
  (Meter.step_store (act_step hact).2).1 d

/-! ### What is counted -/

/-- The units of a device that a process has in progress. -/
def inProgress (deviceId : String) (process : Process) : Nat :=
  if Pending deviceId process then 1 else 0

theorem inProgress_counted {peerAddr : String} {count : Nat}
    (hcounted : process.stage = .counted peerAddr count) (d : String) :
    inProgress d process = if d = peerAddr then 1 else 0 := by
  rw [inProgress, Pending, hcounted]
  simp [Meter.uncounted, Meter.unpersisted, eq_comm]

theorem lossless_save {peerAddr : String} {count : Nat}
    (hcounted : process.stage = .counted peerAddr count) :
    Lossless matcher i store process .saveCounter ↔
      count = store.count peerAddr + 1 ∧ count < 2 ^ 63 := by
  constructor
  · exact fun h => h peerAddr count hcounted
  · intro h d n hstage
    obtain ⟨rfl, rfl⟩ := Stage.counted.inj (hcounted.symm.trans hstage)
    exact h

/-- A save ends a unit in progress, and stores it when the count is the next one. -/
theorem save_gap (h : Behind store process) {peerAddr : String} {count : Nat}
    (hcounted : process.stage = .counted peerAddr count)
    (hsave : store.saveCounter peerAddr count = .ok store') :
    (∀ d, store'.count d ≤ store.count d + inProgress d process) ∧
    ((∀ d, store'.count d = store.count d + inProgress d process) ↔
      count = store.count peerAddr + 1 ∧ count < 2 ^ 63) := by
  have hmax : maxCount = 9223372036854775807 := rfl
  have hcount := h.saving peerAddr count hcounted
  have hmemory := h.counted hcounted peerAddr
  rw [if_pos rfl] at hmemory
  obtain ⟨hle, -, -, hcounts⟩ := Store.saveCounter_eq_ok hsave
  have hfits : count < 2 ^ 63 := by
    by_contra hlarge
    cases hsave.symm.trans (store.saveCounter_overflow peerAddr (Nat.le_of_not_lt hlarge))
  refine ⟨?_, ?_, ?_⟩
  · intro d
    rw [hcounts, inProgress_counted hcounted]
    split
    · rename_i hd
      rw [hd]
      omega
    · omega
  · intro hall
    have := hall peerAddr
    rw [hcounts, inProgress_counted hcounted, if_pos rfl, if_pos rfl] at this
    exact ⟨this, hfits⟩
  · rintro ⟨hnext, -⟩ d
    rw [hcounts, inProgress_counted hcounted]
    split
    · rename_i hd
      rw [hd, hnext]
    · rfl

/-- A refused save loses the unit in progress. -/
theorem refused_gap {peerAddr : String} {count : Nat} {exc : PyException}
    (hcounted : process.stage = .counted peerAddr count)
    (hraise : store.saveCounter peerAddr count = .error exc) :
    ¬(count = store.count peerAddr + 1 ∧ count < 2 ^ 63) ∧
      ¬∀ d, store.count d = store.count d + inProgress d process := by
  constructor
  · rintro ⟨hnext, hfits⟩
    cases (store.saveCounter_ok (by omega) hfits).symm.trans hraise
  · intro hall
    have := hall peerAddr
    rw [inProgress_counted hcounted, if_pos rfl] at this
    omega

/-- A unit is in progress from when it is logged. -/
theorem logged_gap {write : GattWrite} {logged : Store} (hidle : process.stage = .idle)
    (happend : store.appendEvent
      (eventRow process.counter ((matcher i).classify write) write) = .ok logged) (d : String) :
    logged.count d + inProgress d { process with
        stage := if (matcher i).classify write = unknown then .idle else .logged write.peerAddr } =
      store.count d + inProgress d process +
        if Units matcher d (.act i (.handle write)) then 1 else 0 := by
  obtain ⟨hcounts, -, -⟩ := Store.appendEvent_eq_ok happend
  rw [hcounts, inProgress, inProgress, Pending, Pending, hidle]
  by_cases hunknown : (matcher i).classify write = unknown <;>
    simp [Units, Meter.uncounted, Meter.unpersisted, hunknown]

theorem incremented_gap {peerAddr : String} (hlogged : process.stage = .logged peerAddr)
    (d : String) :
    store.count d + inProgress d ⟨(process.counter.increment peerAddr).2,
        .counted peerAddr (process.counter.increment peerAddr).1⟩ =
      store.count d + inProgress d process +
        if Units matcher d (.act i .increment) then 1 else 0 := by
  rw [inProgress, inProgress, Pending, Pending, hlogged]
  simp [Units, Meter.uncounted, Meter.unpersisted]

/-- What the stored counts lack of the units handled, apart from those in progress, never falls by
a step of a process, and stays the same by one that loses no unit. -/
theorem act_gap (h : Behind store process)
    (hact : act matcher i store process e = some (store', process')) :
    (∀ d, store'.count d + inProgress d process' ≤ store.count d + inProgress d process +
        if Units matcher d (.act i e) then 1 else 0) ∧
    ((∀ d, store'.count d + inProgress d process' = store.count d + inProgress d process +
        if Units matcher d (.act i e) then 1 else 0) ↔ Lossless matcher i store process e) := by
  obtain ⟨hne, hstep⟩ := act_step hact
  rcases Meter.step_cases hstep with
    ⟨write, rfl, hidle, ⟨exc, hraise, hu⟩ | ⟨logged, happend, hu⟩⟩ |
    ⟨peerAddr, rfl, hlogged, hu⟩ | ⟨peerAddr, count, rfl, hcounted, hsave⟩ | ⟨rfl, -⟩
  · obtain ⟨rfl, rfl⟩ := Meter.mk.inj hu
    refine ⟨fun d => Nat.le_add_right _ _, ?_⟩
    by_cases hunknown : (matcher i).classify write = unknown
    · simp [Units, Lossless, hunknown]
    · apply iff_of_false
      · intro hall
        have := hall write.peerAddr
        simp [Units, hunknown] at this
      · intro hlossless
        obtain ⟨_, hok, -⟩ := store'.appendEvent_ok
          (eventRow process'.counter ((matcher i).classify write) write) (hlossless hunknown)
        cases hok.symm.trans hraise
  · obtain ⟨rfl, rfl⟩ := Meter.mk.inj hu
    have hall := logged_gap hidle happend
    exact ⟨fun d => (hall d).le, iff_of_true hall fun _ => Store.appendEvent_fits happend⟩
  · obtain ⟨rfl, rfl⟩ := Meter.mk.inj hu
    exact ⟨fun d => Nat.le_of_eq (incremented_gap hlogged d),
      iff_of_true (incremented_gap hlogged) trivial⟩
  · have hidle : ∀ d, inProgress d ⟨process.counter, .idle⟩ = 0 := fun _ => rfl
    rw [lossless_save hcounted]
    obtain ⟨exc, hraise, hu⟩ | ⟨saved, hsave, hu⟩ := hsave
    · obtain ⟨rfl, rfl⟩ := Meter.mk.inj hu
      obtain ⟨hlost, hless⟩ := refused_gap hcounted hraise
      exact ⟨fun d => Nat.le_add_right _ _, by simpa [hidle, Units] using iff_of_false hless hlost⟩
    · obtain ⟨rfl, rfl⟩ := Meter.mk.inj hu
      simpa [hidle, Units] using save_gap h hcounted hsave
  · exact absurd rfl hne

variable {p q : Sharing} {events : List SharingEvent} {se : SharingEvent}

theorem relies_step (h : p.Relies Behind) (hstep : step matcher p se = some q) :
    q.Relies Behind := by
  apply h.step hstep
  · exact fun _ => behind_start _
  · intro i e t t' hse ht hact
    refine ⟨?_, fun other hother => hother.grow (act_counts hact)⟩
    exact (h t (List.mem_of_getElem? ht)).act hact

/-- What the stored counts lack never falls by a step, and stays the same by an undisturbed one. -/
theorem step_gap (h : p.Relies Behind) (hstep : step matcher p se = some q) :
    (∀ d, q.shared.count d + q.count (Pending d) ≤
      p.shared.count d + p.count (Pending d) + if Units matcher d se then 1 else 0) ∧
    ((∀ d, q.shared.count d + q.count (Pending d) =
      p.shared.count d + p.count (Pending d) + if Units matcher d se then 1 else 0) ↔
        Undisturbed matcher p se) := by
  cases se with
  | join a =>
    obtain rfl := Option.some.inj hstep
    have hall : ∀ d, (p.members ++ [Process.start p.shared]).countP (Pending d) =
        p.members.countP (Pending d) := by
      intro d
      rw [List.countP_append]
      rfl
    simp [Parties.count, hall, Units, Undisturbed]
  | act i e =>
    obtain ⟨before, process, after, process', rfl, hmembers, hact, hmembers'⟩ :=
      Parties.step_act hstep
    have hprocess : p.members[before.length]? = some process := by simp [hmembers]
    obtain ⟨hle, hiff⟩ := act_gap (h process (List.mem_of_getElem? hprocess)) hact
    have hlossless : Undisturbed matcher p (.act before.length e) ↔
        Lossless matcher before.length p.shared process e := by
      constructor
      · exact fun h => h process hprocess
      · intro h other hother
        obtain rfl := Option.some.inj (hprocess.symm.trans hother)
        exact h
    have hcount : ∀ d, p.count (Pending d) =
        before.countP (Pending d) + after.countP (Pending d) + inProgress d process :=
      fun d => Parties.count_split hmembers
    have hcount' : ∀ d, q.count (Pending d) =
        before.countP (Pending d) + after.countP (Pending d) + inProgress d process' :=
      fun d => Parties.count_split hmembers'
    rw [hlossless, ← hiff]
    constructor
    · intro d
      have := hle d
      rw [hcount, hcount']
      omega
    · apply forall_congr'
      intro d
      rw [hcount, hcount']
      omega

theorem handled_concat (events : List SharingEvent) (se : SharingEvent) (d : String) :
    handled matcher (events ++ [se]) d =
      handled matcher events d + if Units matcher d se then 1 else 0 := by
  rw [handled, List.countP_append, List.countP_singleton, handled]

/-- The stored counts and the units in progress are never more than the units handled, and a run in
which they are as many was undisturbed. -/
theorem run_gap {store : Store} (h : Run (step matcher) Always ⟨store, []⟩ events p) :
    p.Relies Behind ∧
    (∀ d, p.shared.count d + p.count (Pending d) ≤ store.count d + handled matcher events d) ∧
    ((∀ d, p.shared.count d + p.count (Pending d) = store.count d + handled matcher events d) →
      Run (step matcher) (Undisturbed matcher) ⟨store, []⟩ events p) := by
  induction h with
  | nil => exact ⟨Parties.relies_start _ _, fun _ => Nat.le_refl _, fun _ => .nil⟩
  | snoc _ _ hstep ih =>
    obtain ⟨hrelies, hle, hexact⟩ := ih
    obtain ⟨hstepLe, hiff⟩ := step_gap hrelies hstep
    refine ⟨relies_step hrelies hstep, ?_, ?_⟩
    · intro d
      have := hle d
      have := hstepLe d
      rw [handled_concat]
      omega
    · intro hall
      have hboth := fun d => And.intro (hle d) (And.intro (hstepLe d) (hall d))
      simp only [handled_concat] at hboth
      apply Run.snoc (hexact fun d => ?_) (hiff.mp fun d => ?_) hstep
      · have := hboth d
        omega
      · have := hboth d
        omega

theorem run_exact {store : Store}
    (h : Run (step matcher) (Undisturbed matcher) ⟨store, []⟩ events p) :
    p.Relies Behind ∧
      ∀ d, p.shared.count d + p.count (Pending d) = store.count d + handled matcher events d := by
  induction h with
  | nil => exact ⟨Parties.relies_start _ _, fun _ => rfl⟩
  | snoc _ hok hstep ih =>
    obtain ⟨hrelies, hall⟩ := ih
    refine ⟨relies_step hrelies hstep, ?_⟩
    intro d
    rw [(step_gap hrelies hstep).2.mpr hok d, hall, handled_concat]
    omega

/-- Whatever processes are started on whatever store, once all calls have finished the stored
counts are the initial ones and the units handled exactly when no step lost a unit. -/
theorem shared_counts_iff (matcher : Nat → Matcher) (store : Store) (events : List SharingEvent)
    (p : Sharing) (h : Run (step matcher) Always ⟨store, []⟩ events p) (hquiet : p.Quiet) :
    (∀ d, p.shared.count d = store.count d + handled matcher events d) ↔
      Run (step matcher) (Undisturbed matcher) ⟨store, []⟩ events p := by
  have hnone : ∀ d, p.count (Pending d) = 0 := by
    intro d
    apply List.countP_eq_zero.mpr
    intro process hprocess
    simp [Pending, hquiet process hprocess, Meter.uncounted, Meter.unpersisted]
  constructor
  · intro hall
    apply (run_gap h).2.2
    intro d
    rw [hnone, hall, Nat.add_zero]
  · intro hrun d
    have := (run_exact hrun).2 d
    rwa [hnone] at this

/-! ### One process that saves -/

/-- Of all processes only process `i` saves. -/
def OwnSaves (i : Nat) (_ : Sharing) : SharingEvent → Prop
  | .act j .saveCounter => j = i
  | _ => True

/-- The stored counts are at most those that the process has loaded or saved. -/
def Ahead (store : Store) (process : Process) : Prop :=
  ∀ d, store.count d + (if Meter.unpersisted process.stage = some d then 1 else 0) ≤
    process.counter.get d

theorem ahead_start (store : Store) : Ahead store (.start store) := by
  intro d
  simp [Process.start, Meter.unpersisted]

theorem act_counts_eq (hact : act matcher i store process e = some (store', process'))
    (hsaves : e ≠ .saveCounter) (d : String) : store'.count d = store.count d := by
  obtain ⟨hne, hstep⟩ := act_step hact
  rcases Meter.step_cases hstep with ⟨write, -, -, ⟨exc, -, hu⟩ | ⟨logged, happend, hu⟩⟩ |
    ⟨peerAddr, -, -, hu⟩ | ⟨peerAddr, count, rfl, -⟩ | ⟨rfl, -⟩
  · obtain ⟨rfl, rfl⟩ := Meter.mk.inj hu
    rfl
  · obtain ⟨rfl, rfl⟩ := Meter.mk.inj hu
    exact (Store.appendEvent_eq_ok happend).1 d
  · obtain ⟨rfl, rfl⟩ := Meter.mk.inj hu
    rfl
  · exact absurd rfl hsaves
  · exact absurd rfl hne

theorem Ahead.act (h : Ahead store process) (hbehind : Behind store process)
    (hact : act matcher i store process e = some (store', process')) : Ahead store' process' := by
  obtain ⟨hne, hstep⟩ := act_step hact
  have hidle : ∀ counter : Counter, (∀ d, store'.count d ≤ counter.get d) →
      Ahead store' ⟨counter, .idle⟩ := fun counter hle d => by
    simpa [Meter.unpersisted] using hle d
  rcases Meter.step_cases hstep with ⟨write, -, hbegins, ⟨exc, -, hu⟩ | ⟨logged, happend, hu⟩⟩ |
    ⟨peerAddr, -, hlogged, hu⟩ | ⟨peerAddr, count, -, hcounted, hsave⟩ | ⟨rfl, -⟩
  · obtain ⟨rfl, rfl⟩ := Meter.mk.inj hu
    exact h
  · obtain ⟨rfl, rfl⟩ := Meter.mk.inj hu
    intro d
    have hd := h d
    dsimp only at hbegins
    rw [hbegins] at hd
    rw [(Store.appendEvent_eq_ok happend).1]
    dsimp only
    split <;> exact hd
  · obtain ⟨rfl, rfl⟩ := Meter.mk.inj hu
    intro d
    have hd := h d
    dsimp only at hlogged
    rw [hlogged] at hd
    rw [Counter.get_increment]
    simp only [Meter.unpersisted, reduceCtorEq, if_false, Option.some.injEq, eq_comm] at hd ⊢
    split <;> omega
  · have hmemory : ∀ d, store.count d ≤ process.counter.get d :=
      fun d => (Nat.le_add_right _ _).trans (h d)
    obtain ⟨exc, -, hu⟩ | ⟨saved, hsave, hu⟩ := hsave
    · obtain ⟨rfl, rfl⟩ := Meter.mk.inj hu
      exact hidle _ hmemory
    · obtain ⟨rfl, rfl⟩ := Meter.mk.inj hu
      obtain ⟨-, -, -, hcounts⟩ := Store.saveCounter_eq_ok hsave
      apply hidle
      intro d
      rw [hcounts]
      split
      · rename_i hd
        rw [hd, hbehind.saving peerAddr count hcounted]
      · exact hmemory d
  · exact absurd rfl hne

theorem ahead_of_own_saves {start : Sharing} {before : List SharingEvent} {store : Store}
    (hstart : Run (step matcher) Always ⟨store, []⟩ before start)
    (h : Run (step matcher) (OwnSaves start.members.length)
      ⟨start.shared, start.members ++ [.start start.shared]⟩ events p) :
    p.Relies Behind ∧
      ∃ process, p.members[start.members.length]? = some process ∧ Ahead p.shared process := by
  apply h.preserves
  · have hjoin : step matcher start (.join ()) =
        some ⟨start.shared, start.members ++ [.start start.shared]⟩ := rfl
    refine ⟨relies_step (run_gap hstart).1 hjoin, .start start.shared, ?_, ahead_start _⟩
    simp
  · rintro p se q ⟨hrelies, process, hprocess, hahead⟩ hok hstep
    refine ⟨relies_step hrelies hstep, ?_⟩
    cases se with
    | join a =>
      obtain rfl := Option.some.inj hstep
      refine ⟨process, ?_, hahead⟩
      rw [List.getElem?_append_left (List.getElem?_eq_some_iff.mp hprocess).1, hprocess]
    | act j e =>
      obtain ⟨other, other', hother, hact, hmembers⟩ := Parties.step_act_set hstep
      rw [hmembers]
      by_cases hj : j = start.members.length
      · subst hj
        obtain rfl := Option.some.inj (hprocess.symm.trans hother)
        refine ⟨other', ?_, hahead.act (hrelies _ (List.mem_of_getElem? hprocess)) hact⟩
        rw [List.getElem?_set_self (List.getElem?_eq_some_iff.mp hprocess).1]
      · refine ⟨process, by rw [List.getElem?_set_ne hj, hprocess], fun d => ?_⟩
        have hsaves : e ≠ .saveCounter := by
          rintro rfl
          exact hj hok
        rw [act_counts_eq hact hsaves]
        exact hahead d

/-- As long as no other process has saved since it was started, a process loses no unit when it
saves a count that SQLite can hold. -/
theorem lossless_of_own_saves {start : Sharing} {before : List SharingEvent} {store : Store}
    (hstart : Run (step matcher) Always ⟨store, []⟩ before start)
    (h : Run (step matcher) (OwnSaves start.members.length)
      ⟨start.shared, start.members ++ [.start start.shared]⟩ events p)
    (hprocess : p.members[start.members.length]? = some process)
    (hfits : ∀ d count, process.stage = .counted d count → count < 2 ^ 63) :
    Lossless matcher start.members.length p.shared process .saveCounter := by
  intro d count hcounted
  have hmax : maxCount = 9223372036854775807 := rfl
  obtain ⟨hrelies, same, hsame, hahead⟩ := ahead_of_own_saves hstart h
  obtain rfl := Option.some.inj (hprocess.symm.trans hsame)
  have hbehind := hrelies process (List.mem_of_getElem? hprocess)
  have hsaved := hbehind.counted hcounted d
  have hloaded := hahead d
  have hcount := hbehind.saving d count hcounted
  have hlimit := hfits d count hcounted
  rw [hcounted] at hloaded
  simp only [Meter.unpersisted, if_true] at hloaded hsaved
  exact ⟨by omega, hlimit⟩

/-! ### Two processes -/

/-- Process `i` handles a write. -/
def calls (i : Nat) (write : GattWrite) : List SharingEvent :=
  [.act i (.handle write), .act i .increment, .act i .saveCounter]

/-- Two processes are started, and each handles a write. -/
def twoProcesses (write : GattWrite) : List SharingEvent :=
  [.join (), .join ()] ++ calls 0 write ++ calls 1 write

/-- One unit of each of two processes is stored as one unit. -/
theorem twoProcesses_run {write : GattWrite}
    (hcounted : ∀ i, (matcher i).classify write ≠ unknown) :
    handled matcher (twoProcesses write) write.peerAddr = 2 ∧
      ∃ p, Run (step matcher) Always ⟨.empty, []⟩ (twoProcesses write) p ∧ p.Quiet ∧
        p.shared.count write.peerAddr = 1 := by
  have hload : Counter.load ⟨.empty, [], none⟩ = ⟨.empty, 0⟩ := rfl
  have hrun : ∃ p, Run.execute (step matcher) ⟨.empty, []⟩ (twoProcesses write) = some p ∧
      p.Quiet ∧ p.shared.count write.peerAddr = 1 := by
    simp [Run.execute, twoProcesses, calls, step, Parties.step, act, Meter.step, hcounted,
      Store.appendEvent, eventRow, Process.start, hload, Store.empty, Store.saveCounter,
      Counter.increment, Counter.get, Store.count, Quiet]
  obtain ⟨p, hp, hquiet⟩ := hrun
  refine ⟨?_, p, Run.of_execute hp, hquiet⟩
  simp [handled, twoProcesses, calls, Units, hcounted]

theorem shared_counts_iff_sample : ∃ p,
    Run (step fun _ => .ofRules sampleRules) Always ⟨.empty, []⟩ (twoProcesses sampleWork) p ∧
      ¬Run (step fun _ => .ofRules sampleRules) (Undisturbed fun _ => .ofRules sampleRules)
        ⟨.empty, []⟩ (twoProcesses sampleWork) p := by
  obtain ⟨hhandled, p, hrun, hquiet, hcount⟩ :=
    twoProcesses_run fun _ => sampleWork_counted
  refine ⟨p, hrun, ?_⟩
  intro hundisturbed
  have hall := (shared_counts_iff _ _ _ p hrun hquiet).mpr hundisturbed sampleWork.peerAddr
  rw [hcount, hhandled] at hall
  cases hall

/-- The second process overwrites the count of the first with its own. -/
theorem second_process_overwrites : ¬∀ doc rules, loadEvents doc = .ok rules → ∀ store events p,
    Run (step fun _ => .ofRules rules) Always ⟨store, []⟩ events p → p.Quiet →
      ∀ d, p.shared.count d = store.count d + handled (fun _ => .ofRules rules) events d := by
  intro h
  obtain ⟨hhandled, p, hrun, hquiet, hcount⟩ :=
    twoProcesses_run fun _ => sampleWork_counted
  have hall := h _ _ sampleEvents_loaded _ _ p hrun hquiet sampleWork.peerAddr
  rw [hcount, hhandled] at hall
  cases hall

end Sharing

end BleUsageMeter.Gateway
