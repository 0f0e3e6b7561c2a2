import Mathlib.Algebra.Order.BigOperators.Group.List
import Mathlib.Data.List.Sort
import Mathlib.Data.Prod.Lex
import Mathlib.Data.String.Basic
import BleUsageMeter.Kit.Occurrences
import BleUsageMeter.Gateway.Sharing

/-! `cmd_status` of `gateway/cli.py`, which reads the store while gateway processes write to it.
Its `SELECT`s may find four different states of the store.  The counts are read first and the log
is read after them, so the counts that are printed never add up to more than the number of logged
events that is printed above them. -/

namespace BleUsageMeter.Gateway

open Kit

namespace Store

def eventCount (s : Store) : Option String → Nat
  | none => s.events.length
  | some deviceId => s.events.countP fun row => row.deviceId = deviceId

/-- The last rows first.  To SQLite, a negative limit is none. -/
def recentEvents (s : Store) (limit : Int) : Except PyException (List EventRow) :=
  if limit < -2 ^ 63 ∨ 2 ^ 63 ≤ limit then .error .overflowError
  else .ok (if limit < 0 then s.events.reverse else s.events.reverse.take limit.toNat)

end Store

/-- `sorted(snap.items())`. -/
def sortedItems (items : List (String × Nat)) : List (String ×ₗ Nat) :=
  (items.map toLex).insertionSort (· ≤ ·)

/-- What `cmd_status` prints. -/
structure StatusOutput where
  meterId : String
  rules : Nat
  sequence : Nat
  eventsLogged : Nat
  counters : List (String ×ₗ Nat)
  recent : Option (Except PyException (List EventRow))

/-- The states of the store that its `SELECT`s find, in the order of the `SELECT`s. -/
structure StatusReads where
  loadCounters : Store
  loadSequence : Store
  eventCount : Store
  recentEvents : Store

def cmdStatus (cfg : GatewayConfig) (eventsTail : Int) (reads : StatusReads) : StatusOutput :=
  let counter := (Counter.ofCounts reads.loadCounters.loadCounters).restoreSequence
    reads.loadSequence.loadSequence
  { meterId := cfg.meterId
    rules := cfg.rules.length
    sequence := counter.sequence
    eventsLogged := reads.eventCount.eventCount none
    counters := sortedItems counter.snapshot
    recent := if eventsTail = 0 then none else some (reads.recentEvents.recentEvents eventsTail) }

/-! ### The log -/

theorem Store.appendEvent_events {s t : Store} {row : EventRow} (h : s.appendEvent row = .ok t) :
    s.events <+: t.events := by
  unfold Store.appendEvent at h
  split at h
  · cases h
  · obtain rfl := Except.ok.inj h
    exact List.prefix_append _ _

theorem Meter.step_events {matcher : Matcher} {g u : Meter} {e : Event}
    (h : g.step matcher e = some u) : g.store.events <+: u.store.events := by
  rcases Meter.step_cases h with ⟨write, -, -, ⟨exc, -, rfl⟩ | ⟨store, happend, rfl⟩⟩ |
    ⟨peerAddr, -, -, rfl⟩ | ⟨peerAddr, count, -, -, hsave⟩ | ⟨-, rfl⟩
  · exact List.prefix_rfl
  · exact Store.appendEvent_events happend
  · exact List.prefix_rfl
  · obtain ⟨exc, -, rfl⟩ | ⟨store, hsave, rfl⟩ := hsave
    · exact List.prefix_rfl
    · show g.store.events <+: store.events
      rw [(Store.saveCounter_eq_ok hsave).2.1]
  · exact List.prefix_rfl

theorem Store.logged_mono {s t : Store} (h : s.events <+: t.events) (d : String) :
    s.logged d ≤ t.logged d :=
  h.sublist.countP_le

theorem Meter.Bounded.grow {store store' : Store} {process : Process}
    (h : (⟨store, process⟩ : Meter).Bounded) (hlog : store.events <+: store'.events)
    (hstored : ∀ d, store'.count d ≤ store'.logged d) :
    (⟨store', process⟩ : Meter).Bounded where
  stored := hstored
  memory d := (h.memory d).trans (Store.logged_mono hlog d)
  saving d count hstage := (h.saving d count hstage).trans (Store.logged_mono hlog d)

namespace Sharing

variable {matcher : Nat → Matcher} {p q : Sharing} {events : List SharingEvent} {se : SharingEvent}

/-- No stored count and no count in memory is ahead of the log. -/
structure Covered (p : Sharing) : Prop where
  stored : ∀ d, p.shared.count d ≤ p.shared.logged d
  members : p.Relies fun store process => (⟨store, process⟩ : Meter).Bounded

theorem covered_start {store : Store} (h : ∀ d, store.count d ≤ store.logged d) :
    Covered ⟨store, []⟩ :=
  ⟨h, Parties.relies_start _ _⟩

theorem step_events (h : step matcher p se = some q) : p.shared.events <+: q.shared.events := by
  cases se with
  | join a =>
    obtain rfl := Option.some.inj h
    exact List.prefix_rfl
  | act i e =>
    obtain ⟨before, member, after, member', -, -, hact, -⟩ := Parties.step_act h
    exact Meter.step_events (act_step hact).2

theorem Covered.step (h : Covered p) (hstep : step matcher p se = some q) : Covered q := by
  have hact : ∀ i e t t', p.members[i]? = some t →
      act matcher i p.shared t e = some (q.shared, t') →
      (⟨q.shared, t'⟩ : Meter).Bounded := by
    intro i e t t' ht hact
    exact (h.members t (List.mem_of_getElem? ht)).step (act_step hact).2
  refine ⟨?_, h.members.step hstep ?_ ?_⟩
  · cases se with
    | join a =>
      obtain rfl := Option.some.inj hstep
      exact h.stored
    | act i e =>
      obtain ⟨before, member, after, member', rfl, hmembers, hmember, -⟩ := Parties.step_act hstep
      exact (hact _ e member member' (by rw [hmembers]; simp) hmember).stored
  · intro a
    refine ⟨h.stored, ?_, fun _ _ hstage => nomatch hstage⟩
    intro d
    simpa [Process.start, Meter.uncounted] using h.stored d
  · intro i e t t' _ ht hmember
    have hself := hact i e t t' ht hmember
    exact ⟨hself, fun other hother =>
      hother.grow (Meter.step_events (act_step hmember).2) hself.stored⟩

theorem Covered.run (h : Covered p) (hrun : Run (Sharing.step matcher) Always p events q) :
    Covered q ∧ p.shared.events <+: q.shared.events :=
  ⟨hrun.preserves h fun _ _ _ ht _ hstep => ht.step hstep,
    hrun.relates (fun _ => True) (fun p q => p.shared.events <+: q.shared.events) trivial
      (fun _ => List.prefix_rfl) (fun _ _ _ => List.IsPrefix.trans)
      fun _ _ _ _ _ hstep => ⟨trivial, step_events hstep⟩⟩

end Sharing

/-! ### The rows that are printed -/

theorem mem_sortedItems {items : List (String × Nat)} {row : String ×ₗ Nat} :
    row ∈ sortedItems items ↔ ofLex row ∈ items := by
  rw [sortedItems, List.mem_insertionSort, List.mem_map]
  constructor
  · rintro ⟨item, hitem, rfl⟩
    exact hitem
  · intro hitem
    exact ⟨_, hitem, rfl⟩

theorem sortedItems_pairwise (d : Dict String Nat) :
    (sortedItems d.entries).Pairwise fun a b => (ofLex a).1 < (ofLex b).1 := by
  have hkeys : ((sortedItems d.entries).map fun row => (ofLex row).1).Nodup := by
    rw [sortedItems, ((List.perm_insertionSort _ _).map _).nodup_iff, List.map_map]
    exact d.nodup
  have hsorted : (sortedItems d.entries).Pairwise (· ≤ ·) := List.pairwise_insertionSort _ _
  refine (hsorted.and (List.pairwise_map.mp hkeys)).imp ?_
  rintro a b ⟨hle, hne⟩
  exact (Prod.Lex.le_iff.mp hle).resolve_right fun h => hne h.1

/-- The counts of distinct devices that the log covers add up to no more than its length. -/
theorem Store.sum_counts_le {s t : Store} (h : ∀ d, s.count d ≤ t.logged d) :
    (s.counters.entries.map Prod.snd).sum ≤ t.events.length := by
  have hrows : ∀ entry ∈ s.counters.entries, entry.2 ≤ t.logged entry.1 := by
    intro entry hentry
    have hcount : s.count entry.1 = entry.2 := by
      rw [Store.count, s.counters.mem_entries_iff.mp hentry, Option.getD_some]
    exact hcount ▸ h entry.1
  calc (s.counters.entries.map Prod.snd).sum
      ≤ (s.counters.entries.map fun entry => t.logged entry.1).sum := List.sum_le_sum hrows
    _ = ((s.counters.entries.map Prod.fst).map fun d =>
          t.events.countP fun row => row.deviceId = d ∧ row.event ≠ unknown).sum := by
        rw [List.map_map]
        rfl
    _ = t.events.countP fun row =>
          row.deviceId ∈ s.counters.entries.map Prod.fst ∧ row.event ≠ unknown := by
        simpa using sum_countP_key s.counters.nodup EventRow.deviceId
          (fun row => row.event ≠ unknown) t.events
    _ ≤ t.events.length := List.countP_le_length

/-- The last rows are as many as are asked for, unless the log has no more. -/
theorem Store.recentEvents_ok {s : Store} {limit : Int} {rows : List EventRow}
    (h : s.recentEvents limit = .ok rows) :
    rows.reverse <:+ s.events ∧ ((rows.length : Int) = limit ∨ rows.length = s.events.length) := by
  unfold Store.recentEvents at h
  split at h
  · cases h
  · obtain rfl := Except.ok.inj h
    split
    · rw [List.reverse_reverse, List.length_reverse]
      exact ⟨List.suffix_rfl, .inr rfl⟩
    · rw [← List.reverse_prefix, List.reverse_reverse, List.length_take, List.length_reverse]
      exact ⟨List.take_prefix _ _, by omega⟩

/-- Whatever the gateway processes do between the `SELECT`s of `cmd_status`, it prints the stored
counts in the order of the devices.  No count is above the number of logged units of its device, all
of them add up to no more than the number of events that is printed, and the recent events end the
log and lack none of those events, unless fewer were asked for. -/
theorem status_adds_up {matcher : Nat → Matcher} {store : Store}
    (hlog : ∀ d, store.count d ≤ store.logged d) {before e₁ e₂ e₃ : List SharingEvent}
    {p q r s : Sharing} (hp : Run (Sharing.step matcher) Always ⟨store, []⟩ before p)
    (hq : Run (Sharing.step matcher) Always p e₁ q) (hr : Run (Sharing.step matcher) Always q e₂ r)
    (hs : Run (Sharing.step matcher) Always r e₃ s) (cfg : GatewayConfig) (eventsTail : Int) :
    let out := cmdStatus cfg eventsTail ⟨p.shared, q.shared, r.shared, s.shared⟩
    (out.counters.Pairwise fun a b => (ofLex a).1 < (ofLex b).1) ∧
      (∀ d n, toLex (d, n) ∈ out.counters ↔ p.shared.counters.get? d = some n) ∧
      (∀ d n, toLex (d, n) ∈ out.counters → n ≤ p.shared.logged d) ∧
      (out.counters.map fun row => (ofLex row).2).sum ≤ out.eventsLogged ∧
      ∀ rows, out.recent = some (.ok rows) → rows.reverse <:+ s.shared.events ∧
        ((rows.length : Int) = eventsTail ∨ out.eventsLogged ≤ rows.length) := by
  intro out
  obtain ⟨hcovered, -⟩ := (Sharing.covered_start hlog).run hp
  obtain ⟨hq, hpq⟩ := hcovered.run hq
  obtain ⟨hr, hqr⟩ := hq.run hr
  obtain ⟨-, hrs⟩ := hr.run hs
  have hcounters : out.counters = sortedItems p.shared.counters.entries := by
    show sortedItems ((Counter.ofCounts p.shared.loadCounters).restoreSequence _).counts.entries = _
    rw [Counter.counts_restoreSequence, Counter.counts_ofCounts]
    rfl
  have hmem : ∀ d n, toLex (d, n) ∈ out.counters ↔ p.shared.counters.get? d = some n := by
    intro d n
    rw [hcounters, mem_sortedItems]
    exact p.shared.counters.mem_entries_iff
  refine ⟨hcounters ▸ sortedItems_pairwise _, hmem, ?_, ?_, ?_⟩
  · intro d n hrow
    have hcount : p.shared.count d = n := by
      rw [Store.count, (hmem d n).mp hrow, Option.getD_some]
    exact hcount ▸ hcovered.stored d
  · have hlogged : ∀ d, p.shared.count d ≤ r.shared.logged d := fun d =>
      (hcovered.stored d).trans (Store.logged_mono (hpq.trans hqr) d)
    rw [hcounters, sortedItems, ((List.perm_insertionSort _ _).map _).sum_eq, List.map_map]
    exact Store.sum_counts_le hlogged
  · intro rows hrows
    have hrecent : s.shared.recentEvents eventsTail = .ok rows := by
      simp only [out, cmdStatus] at hrows
      split at hrows
      · cases hrows
      · exact Option.some.inj hrows
    obtain ⟨hsuffix, hlength⟩ := Store.recentEvents_ok hrecent
    refine ⟨hsuffix, hlength.imp_right fun hall => ?_⟩
    show r.shared.events.length ≤ rows.length
    exact hall ▸ hrs.length_le

/-- The second process handles a write after the counts are read and before the log is. -/
theorem status_adds_up_sample : ∃ (cfg : GatewayConfig) (p r : Sharing),
    Run (Sharing.step fun _ => .ofRules sampleRules) Always p (Sharing.calls 1 sampleWork) r ∧
      let out := cmdStatus cfg 1 ⟨p.shared, p.shared, r.shared, r.shared⟩
      toLex ("d", 1) ∈ out.counters ∧ out.eventsLogged = 2 ∧
        (out.counters.map fun row => (ofLex row).2).sum ≤ out.eventsLogged := by
  have hload : Counter.load ⟨.empty, [], none⟩ = ⟨.empty, 0⟩ := rfl
  have hwork : (Matcher.ofRules sampleRules).classify sampleWork ≠ unknown := sampleWork_counted
  have hrun : ∃ p r, Run.execute (Sharing.step fun _ => .ofRules sampleRules) ⟨.empty, []⟩
        ([.join (), .join ()] ++ Sharing.calls 0 sampleWork) = some p ∧
      Run.execute (Sharing.step fun _ => .ofRules sampleRules) p (Sharing.calls 1 sampleWork) =
        some r ∧ p.shared.counters.get? sampleWork.peerAddr = some 1 ∧
      r.shared.events.length = 2 := by
    simp [Run.execute, Sharing.calls, Sharing.step, Parties.step, Sharing.act, Meter.step, hwork,
      Store.appendEvent, eventRow, Process.start, hload, Store.empty, Store.saveCounter,
      Counter.increment, Counter.get, Store.count]
  obtain ⟨p, r, hp, hr, hcount, hevents⟩ := hrun
  have hlater : Run (Sharing.step fun _ => .ofRules sampleRules) Always p
      (Sharing.calls 1 sampleWork) r := .of_execute hr
  have hempty : ∀ d, Store.empty.count d ≤ Store.empty.logged d := fun _ => Nat.zero_le _
  obtain ⟨-, hmem, -, hsum, -⟩ := status_adds_up hempty (.of_execute hp) .nil hlater .nil
    ⟨"m", 300, 5, 600, 8, sampleRules, by decide⟩ 1
  exact ⟨_, p, r, hlater, (hmem _ _).mpr hcount, hevents, hsum⟩

end BleUsageMeter.Gateway
