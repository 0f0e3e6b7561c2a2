import BleUsageMeter.Gateway.Pipeline
import BleUsageMeter.Gateway.Signer

/-! `cmd_report` of `gateway/cli.py` beside the pipeline that writes the same store.  A run loads
the counts, loads the sequence, and saves the next sequence before it signs a report for each
device.
The sections from the first load to the save do not overlap; crashes may come between any two
statements.  `Orderly` says how the signed reports relate to the store, whatever is lost. -/

namespace BleUsageMeter.Gateway

open Kit

/-- A signed report.  `origin` is the store from which its run read the counts. -/
structure Message where
  tuple : ReportTuple
  signature : List UInt8
  origin : Store

/-- How far the section of a `cmd_report` run has come, with the counter it has loaded. -/
inductive Reporting
  | idle
  | loaded (counter : Counter) (origin : Store)
  | numbered (counter : Counter) (origin : Store)
  | checked (counter : Counter) (origin : Store)

/-- A meter, the section in progress, and the reports signed so far, the oldest first. -/
structure Sender where
  meter : Meter
  reporting : Reporting
  sent : List Message

inductive SenderEvent
  | pipeline (e : Event)
  | loadCounters
  | loadSequence
  | checkSequence
  | writeSequence (now : Int)
  | crash

variable {scheme : SignatureScheme} (signer : Signer scheme) (matcher : Matcher)
  (reportInterval : Int)

/-- The reports of the rows of a snapshot, up to a row that cannot be signed, which ends the run.  A
run that is stopped while it posts is one whose later reports are lost. -/
def signRows (sequence : Nat) (origin : Store) (now : Int) : List (String × Nat) → List Message
  | [] => []
  | (deviceId, count) :: rest =>
    let tuple : ReportTuple := ⟨deviceId, count, sequence, now - reportInterval, now⟩
    match signer.sign tuple with
    | .ok signature => ⟨tuple, signature, origin⟩ :: signRows sequence origin now rest
    | .error _ => []

def signAll (counter : Counter) (origin : Store) (now : Int) : List Message :=
  signRows signer reportInterval counter.sequence origin now counter.snapshot

namespace Sender

def step (s : Sender) : SenderEvent → Option Sender
  | .pipeline e => (s.meter.step matcher e).map fun meter => { s with meter }
  | .loadCounters =>
    match s.reporting with
    | .idle =>
      some { s with reporting := .loaded (.ofCounts s.meter.store.loadCounters) s.meter.store }
    | _ => none
  | .loadSequence =>
    match s.reporting with
    | .loaded counter origin =>
      let counter := counter.restoreSequence s.meter.store.loadSequence
      some { s with reporting := .numbered counter.nextSequence.2 origin }
    | _ => none
  | .checkSequence =>
    match s.reporting with
    | .numbered counter origin =>
      match s.meter.store.checkSequence counter.sequence with
      | .ok _ => some { s with reporting := .checked counter origin }
      | .error _ => some { s with reporting := .idle }
    | _ => none
  | .writeSequence now =>
    match s.reporting with
    | .checked counter origin =>
      some
        { meter := { s.meter with store := s.meter.store.writeSequence counter.sequence }
          reporting := .idle
          sent := s.sent ++ signAll signer reportInterval counter origin now }
    | _ => none
  | .crash => some { s with reporting := .idle }

variable {signer matcher reportInterval} {s u : Sender} {e : SenderEvent}

/-- What a step can do. -/
theorem step_cases (h : s.step signer matcher reportInterval e = some u) :
    (∃ event meter, e = .pipeline event ∧ s.meter.step matcher event = some meter ∧
      u = { s with meter }) ∨
    (e = .loadCounters ∧ s.reporting = .idle ∧ u = { s with
      reporting := .loaded (.ofCounts s.meter.store.loadCounters) s.meter.store }) ∨
    (∃ counter origin, e = .loadSequence ∧ s.reporting = .loaded counter origin ∧ u = { s with
      reporting :=
        .numbered (counter.restoreSequence s.meter.store.loadSequence).nextSequence.2 origin }) ∨
    (∃ counter origin, e = .checkSequence ∧ s.reporting = .numbered counter origin ∧
      u = { s with reporting := .checked counter origin }) ∨
    (∃ counter origin now, e = .writeSequence now ∧ s.reporting = .checked counter origin ∧
      u =
        { meter := { s.meter with store := s.meter.store.writeSequence counter.sequence }
          reporting := .idle
          sent := s.sent ++ signAll signer reportInterval counter origin now }) ∨
    ((e = .checkSequence ∨ e = .crash) ∧ u = { s with reporting := .idle }) := by
  cases e with
  | pipeline event =>
    obtain ⟨meter, hmeter, rfl⟩ := Option.map_eq_some_iff.mp h
    exact .inl ⟨event, meter, rfl, hmeter, rfl⟩
  | loadCounters =>
    simp only [step] at h
    split at h
    · rename_i hidle
      exact .inr (.inl ⟨rfl, hidle, (Option.some.inj h).symm⟩)
    · cases h
  | loadSequence =>
    simp only [step] at h
    split at h
    · rename_i counter origin hloaded
      exact .inr (.inr (.inl ⟨counter, origin, rfl, hloaded, (Option.some.inj h).symm⟩))
    · cases h
  | checkSequence =>
    simp only [step] at h
    split at h
    · rename_i counter origin hnumbered
      split at h
      · exact .inr (.inr (.inr (.inl
          ⟨counter, origin, rfl, hnumbered, (Option.some.inj h).symm⟩)))
      · exact .inr (.inr (.inr (.inr (.inr ⟨.inl rfl, (Option.some.inj h).symm⟩))))
    · cases h
  | writeSequence now =>
    simp only [step] at h
    split at h
    · rename_i counter origin hchecked
      exact .inr (.inr (.inr (.inr (.inl
        ⟨counter, origin, now, rfl, hchecked, (Option.some.inj h).symm⟩))))
    · cases h
  | crash => exact .inr (.inr (.inr (.inr (.inr ⟨.inr rfl, (Option.some.inj h).symm⟩))))

end Sender

/-- The steps of a run of `cmd_report` that is not stopped. -/
def Sender.reportRun (now : Int) : List SenderEvent :=
  [.loadCounters, .loadSequence, .checkSequence, .writeSequence now]

/-- The first run of `cmd_report` on a store. -/
theorem Sender.first_report {s : Sender} (hidle : s.reporting = .idle)
    (hunsent : s.meter.store.sequence = none) (now : Int) :
    Run.execute (step signer matcher reportInterval) s (reportRun now) = some
      { meter := { s.meter with store := s.meter.store.writeSequence 1 }
        reporting := .idle
        sent := s.sent ++ signRows signer reportInterval 1 s.meter.store now
          s.meter.store.counters.entries } := by
  obtain ⟨meter, reporting, sent⟩ := s
  obtain rfl : reporting = .idle := hidle
  have hload : meter.store.loadSequence = 0 := by
    rw [Store.loadSequence, hunsent]
    rfl
  have hcounter : ((Counter.ofCounts meter.store.loadCounters).restoreSequence
      meter.store.loadSequence).nextSequence.2 = ⟨meter.store.counters, 1⟩ := by
    rw [hload, Counter.restoreSequence, if_neg (by omega)]
    simp [Counter.nextSequence, Store.loadCounters]
  have hcheck : meter.store.checkSequence 1 = .ok () := by
    rw [Store.checkSequence, if_neg (by omega)]
  simp only [reportRun, Run.execute, step, Option.bind_some, hcounter, hcheck]
  rfl

/-- The first run reports the first row, when the clock shows the length of the interval. -/
theorem Sender.first_signed {s : Sender} (hidle : s.reporting = .idle)
    (hunsent : s.meter.store.sequence = none) {d : String} {count : Nat}
    {rest : List (String × Nat)} (hrows : s.meter.store.counters.entries = (d, count) :: rest)
    (hshort : (utf8 d).length < 256 ^ 2) (hcount : (count : Int) < 256 ^ 8)
    (hinterval : 0 ≤ reportInterval ∧ reportInterval < 256 ^ 8) :
    ∃ u, Run.execute (step signer matcher reportInterval) s (reportRun reportInterval) = some u ∧
      ∃ m ∈ u.sent, m.tuple.deviceId = d ∧ m.tuple.count = count := by
  have hreport := first_report signer matcher reportInterval hidle hunsent reportInterval
  have hsigned : ∃ signature, signer.sign ⟨d, count, (1 : Nat), reportInterval - reportInterval,
      reportInterval⟩ = .ok signature :=
    sign_isOk_iff.mpr
      ⟨hshort, ⟨Int.natCast_nonneg _, hcount⟩, by dsimp only; omega, by simp, hinterval⟩
  obtain ⟨signature, hsign⟩ := hsigned
  rw [hrows, signRows, hsign] at hreport
  exact ⟨_, hreport, _, List.mem_append_right _ List.mem_cons_self, rfl, rfl⟩

/-! ### Persisted counts never fall -/

/-- No persisted count of `a` is above that of `b`. -/
def Store.CountsLe (a b : Store) : Prop := ∀ j, a.count j ≤ b.count j

theorem Store.CountsLe.refl (a : Store) : a.CountsLe a := fun _ => Nat.le_refl _

theorem Store.CountsLe.trans {a b c : Store} (hab : a.CountsLe b) (hbc : b.CountsLe c) :
    a.CountsLe c := fun j => Nat.le_trans (hab j) (hbc j)

variable {matcher} {signer} {reportInterval}

theorem Meter.step_store {g u : Meter} {e : Event} (h : g.step matcher e = some u) :
    g.store.CountsLe u.store ∧ u.store.loadSequence = g.store.loadSequence := by
  rcases step_cases h with ⟨write, -, -, ⟨exc, -, rfl⟩ | ⟨store, happend, rfl⟩⟩ |
    ⟨peerAddr, -, -, rfl⟩ | ⟨peerAddr, count, -, -, ⟨exc, -, rfl⟩ | ⟨store, hsave, rfl⟩⟩ | ⟨-, rfl⟩
  · exact ⟨.refl _, rfl⟩
  · obtain ⟨hcount, hsequence, -⟩ := Store.appendEvent_eq_ok happend
    exact ⟨fun j => (hcount j).ge, by rw [Store.loadSequence, hsequence, Store.loadSequence]⟩
  · exact ⟨.refl _, rfl⟩
  · exact ⟨.refl _, rfl⟩
  · obtain ⟨hle, -, hsequence, hcount⟩ := Store.saveCounter_eq_ok hsave
    refine ⟨?_, by rw [Store.loadSequence, hsequence, Store.loadSequence]⟩
    intro j
    rw [hcount]
    split
    · rename_i hj
      exact hj ▸ hle
    · exact Nat.le_refl _
  · exact ⟨.refl _, rfl⟩

/-! ### The order of the signed reports -/

/-- Report `b` may be signed after report `a`. -/
def Message.Precedes (a b : Message) : Prop :=
  a.origin.CountsLe b.origin ∧
    (a.tuple.deviceId = b.tuple.deviceId → a.tuple.sequence < b.tuple.sequence)

/-- The report carries what was persisted for its device, and is between the start and the store. -/
structure Message.Between (start store : Store) (m : Message) : Prop where
  count : m.tuple.count = m.origin.count m.tuple.deviceId
  after_start : start.CountsLe m.origin
  before_store : m.origin.CountsLe store
  sequence_gt : start.loadSequence < m.tuple.sequence
  sequence_le : m.tuple.sequence ≤ store.loadSequence

/-- A section in progress has the counts of its origin, which is not older than any report. -/
structure Sender.Loaded (start : Store) (s : Sender) (counter : Counter) (origin : Store) :
    Prop where
  counts : ∀ j, counter.counts.get? j = origin.counters.get? j
  after_start : start.CountsLe origin
  before_store : origin.CountsLe s.meter.store
  after_sent : ∀ m ∈ s.sent, m.origin.CountsLe origin

structure Sender.Orderly (start : Store) (s : Sender) : Prop where
  counts : start.CountsLe s.meter.store
  sequence : start.loadSequence ≤ s.meter.store.loadSequence
  sent : ∀ m ∈ s.sent, m.Between start s.meter.store
  order : s.sent.Pairwise Message.Precedes
  loaded : ∀ counter origin, s.reporting = .loaded counter origin → s.Loaded start counter origin
  numbered : ∀ counter origin,
    s.reporting = .numbered counter origin ∨ s.reporting = .checked counter origin →
      s.Loaded start counter origin ∧ s.meter.store.loadSequence < counter.sequence

/-- A meter that starts on a store, with no report signed. -/
def Sender.start (store : Store) : Sender := ⟨⟨store, .start store⟩, .idle, []⟩

theorem mem_signRows {sequence : Nat} {origin : Store} {now : Int} {rows : List (String × Nat)}
    {m : Message} (h : m ∈ signRows signer reportInterval sequence origin now rows) :
    m.origin = origin ∧ m.tuple.sequence = sequence ∧
      ∃ count : Nat, m.tuple.count = count ∧ (m.tuple.deviceId, count) ∈ rows := by
  induction rows with
  | nil => cases h
  | cons row rest ih =>
    simp only [signRows] at h
    split at h
    · rcases List.mem_cons.mp h with rfl | h
      · exact ⟨rfl, rfl, row.2, rfl, List.mem_cons_self⟩
      · obtain ⟨horigin, hsequence, count, hcount, hrow⟩ := ih h
        exact ⟨horigin, hsequence, count, hcount, List.mem_cons_of_mem _ hrow⟩
    · cases h

theorem signRows_devices (sequence : Nat) (origin : Store) (now : Int)
    (rows : List (String × Nat)) :
    (signRows signer reportInterval sequence origin now rows).map (fun m => m.tuple.deviceId) <+:
      rows.map Prod.fst := by
  induction rows with
  | nil => exact List.nil_prefix
  | cons row rest ih =>
    simp only [signRows]
    split
    · exact List.cons_prefix_cons.mpr ⟨rfl, ih⟩
    · exact List.nil_prefix

theorem mem_signAll {counter : Counter} {origin : Store} {now : Int} {m : Message}
    (h : m ∈ signAll signer reportInterval counter origin now) :
    m.origin = origin ∧ m.tuple.sequence = counter.sequence ∧
      ∃ count : Nat, m.tuple.count = count ∧
        counter.counts.get? m.tuple.deviceId = some count := by
  obtain ⟨horigin, hsequence, count, hcount, hrow⟩ := mem_signRows h
  exact ⟨horigin, hsequence, count, hcount, (Dict.mem_entries_iff _).mp hrow⟩

/-- The reports of one snapshot are for different devices. -/
theorem signAll_pairwise (counter : Counter) (origin : Store) (now : Int) :
    (signAll signer reportInterval counter origin now).Pairwise fun a b =>
      a.tuple.deviceId ≠ b.tuple.deviceId := by
  apply List.pairwise_map.mp
  exact counter.counts.nodup.sublist (signRows_devices _ _ _ _).sublist

namespace Sender

variable {start : Store} {s u : Sender}

theorem Loaded.grow {counter : Counter} {origin : Store} (h : s.Loaded start counter origin)
    (hcounts : s.meter.store.CountsLe u.meter.store) (hsent : u.sent = s.sent) :
    u.Loaded start counter origin :=
  ⟨h.counts, h.after_start, h.before_store.trans hcounts, hsent ▸ h.after_sent⟩

theorem start_orderly (store : Store) : (Sender.start store).Orderly store where
  counts := .refl _
  sequence := Int.le_refl _
  sent _ hm := nomatch hm
  order := .nil
  loaded _ _ h := nomatch h
  numbered _ _ h := by rcases h with h | h <;> cases h

/-- A step that signs nothing: the counts may grow, and a section may begin, go on or stop. -/
theorem Orderly.same (h : s.Orderly start) (hcounts : s.meter.store.CountsLe u.meter.store)
    (hsequence : u.meter.store.loadSequence = s.meter.store.loadSequence) (hsent : u.sent = s.sent)
    (hloaded : ∀ counter origin, u.reporting = .loaded counter origin →
      u.Loaded start counter origin)
    (hnumbered : ∀ counter origin,
      u.reporting = .numbered counter origin ∨ u.reporting = .checked counter origin →
        u.Loaded start counter origin ∧ u.meter.store.loadSequence < counter.sequence) :
    u.Orderly start where
  counts := h.counts.trans hcounts
  sequence := hsequence ▸ h.sequence
  sent m hm := by
    obtain ⟨hcount, hstart, hstore, hgt, hle⟩ := h.sent m (hsent ▸ hm)
    exact ⟨hcount, hstart, hstore.trans hcounts, hgt, hsequence ▸ hle⟩
  order := hsent ▸ h.order
  loaded := hloaded
  numbered := hnumbered

theorem Orderly.stop (h : s.Orderly start) : Orderly start { s with reporting := .idle } :=
  h.same (.refl _) rfl rfl (fun _ _ e => by cases e) fun _ _ e => by
    rcases e with e | e <;> cases e

theorem Orderly.pipeline (h : s.Orderly start) {e : Event} {meter : Meter}
    (hstep : s.meter.step matcher e = some meter) : Orderly start { s with meter } := by
  obtain ⟨hcounts, hsequence⟩ := Meter.step_store hstep
  refine h.same hcounts hsequence rfl ?_ ?_
  · intro counter origin e
    exact (h.loaded counter origin e).grow hcounts rfl
  · intro counter origin e
    obtain ⟨hloaded, hlt⟩ := h.numbered counter origin e
    exact ⟨hloaded.grow hcounts rfl, hsequence ▸ hlt⟩

/-- The reports that a section signs come after all others. -/
theorem Orderly.sign (h : s.Orderly start) {counter : Counter} {origin : Store}
    (hchecked : s.reporting = .checked counter origin) (now : Int) :
    Orderly start
      { meter := { s.meter with store := s.meter.store.writeSequence counter.sequence }
        reporting := .idle
        sent := s.sent ++ signAll signer reportInterval counter origin now } := by
  obtain ⟨hloaded, hlt⟩ := h.numbered counter origin (.inr hchecked)
  have hwrite : (s.meter.store.writeSequence counter.sequence).loadSequence = counter.sequence :=
    rfl
  have hcounts : s.meter.store.CountsLe (s.meter.store.writeSequence counter.sequence) :=
    fun j => Nat.le_refl _
  refine ⟨h.counts.trans hcounts, ?_, ?_, ?_, fun _ _ e => Reporting.noConfusion e, ?_⟩
  · have := h.sequence
    show start.loadSequence ≤ (s.meter.store.writeSequence counter.sequence).loadSequence
    omega
  · intro m hm
    rcases List.mem_append.mp hm with hm | hm
    · obtain ⟨hcount, hstart, hstore, hgt, hle⟩ := h.sent m hm
      exact ⟨hcount, hstart, hstore.trans hcounts, hgt, by dsimp only; omega⟩
    · obtain ⟨rfl, hsequence, count, hcount, hget⟩ := mem_signAll hm
      refine ⟨?_, hloaded.after_start, hloaded.before_store.trans hcounts, ?_, ?_⟩
      · rw [hloaded.counts] at hget
        rw [hcount, Store.count, hget, Option.getD_some]
      · have := h.sequence
        show start.loadSequence < m.tuple.sequence
        omega
      · show m.tuple.sequence ≤ (s.meter.store.writeSequence counter.sequence).loadSequence
        omega
  · refine List.pairwise_append.mpr ⟨h.order, ?_, ?_⟩
    · apply (signAll_pairwise counter origin now).imp_of_mem
      intro a b ha hb hne
      have horigin := (mem_signAll ha).1.trans (mem_signAll hb).1.symm
      exact ⟨horigin ▸ .refl _, fun e => absurd e hne⟩
    · intro a ha b hb
      obtain ⟨rfl, hsequence, -⟩ := mem_signAll hb
      have hle := (h.sent a ha).sequence_le
      exact ⟨hloaded.after_sent a ha, fun _ => by omega⟩
  · intro _ _ e
    rcases e with e | e <;> cases e

theorem lt_nextSequence (counter : Counter) (sequence : Int) :
    sequence < (counter.restoreSequence sequence).nextSequence.2.sequence := by
  unfold Counter.restoreSequence Counter.nextSequence
  split <;> simp only <;> omega

theorem Orderly.step (h : s.Orderly start) {e : SenderEvent}
    (hstep : s.step signer matcher reportInterval e = some u) : u.Orderly start := by
  rcases step_cases hstep with ⟨event, meter, -, hmeter, rfl⟩ | ⟨-, -, rfl⟩ |
    ⟨counter, origin, -, hloading, rfl⟩ | ⟨counter, origin, -, hnumbered, rfl⟩ |
    ⟨counter, origin, now, -, hchecked, rfl⟩ | ⟨-, rfl⟩
  · exact h.pipeline hmeter
  · refine h.same (.refl _) rfl rfl ?_ ?_
    · intro _ _ e
      obtain ⟨rfl, rfl⟩ := Reporting.loaded.inj e
      exact ⟨fun j => by rw [Counter.counts_ofCounts, Store.loadCounters], h.counts, .refl _,
        fun m hm => (h.sent m hm).before_store⟩
    · intro _ _ e
      rcases e with e | e <;> cases e
  · have hloaded := h.loaded counter origin hloading
    refine h.same (.refl _) rfl rfl (fun _ _ e => by cases e) ?_
    intro _ _ e
    rcases e with e | e
    · obtain ⟨rfl, rfl⟩ := Reporting.numbered.inj e
      refine ⟨⟨?_, hloaded.after_start, hloaded.before_store, hloaded.after_sent⟩,
        lt_nextSequence _ _⟩
      intro j
      simpa [Counter.nextSequence] using hloaded.counts j
    · cases e
  · obtain ⟨hloaded, hlt⟩ := h.numbered counter origin (.inl hnumbered)
    refine h.same (.refl _) rfl rfl (fun _ _ e => by cases e) ?_
    intro _ _ e
    rcases e with e | e
    · cases e
    · obtain ⟨rfl, rfl⟩ := Reporting.checked.inj e
      exact ⟨hloaded.grow (.refl _) rfl, hlt⟩
  · exact h.sign hchecked now
  · exact h.stop

/-- Two reports for one device are the same, or the one with the lower sequence was signed first
and carries no higher count. -/
theorem Orderly.total (h : s.Orderly start) {m n : Message} (hm : m ∈ s.sent) (hn : n ∈ s.sent) :
    m = n ∨ m.Precedes n ∨ n.Precedes m := by
  have hflip : s.sent.Pairwise (flip fun m n => m = n ∨ m.Precedes n ∨ n.Precedes m) :=
    h.order.imp fun h => .inr (.inr h)
  exact List.Pairwise.forall_of_forall_of_flip (fun _ _ => .inl rfl)
    (h.order.imp fun h => .inr (.inl h)) hflip hm hn

theorem Orderly.eq_of_sequence (h : s.Orderly start) {m n : Message} (hm : m ∈ s.sent)
    (hn : n ∈ s.sent) (hdevice : m.tuple.deviceId = n.tuple.deviceId)
    (hsequence : m.tuple.sequence = n.tuple.sequence) : m = n := by
  rcases h.total hm hn with rfl | ⟨-, hlt⟩ | ⟨-, hlt⟩
  · rfl
  · have := hlt hdevice
    omega
  · have := hlt hdevice.symm
    omega

theorem Orderly.count_le (h : s.Orderly start) {m n : Message} (hm : m ∈ s.sent)
    (hn : n ∈ s.sent) (hdevice : m.tuple.deviceId = n.tuple.deviceId)
    (hsequence : m.tuple.sequence < n.tuple.sequence) : m.tuple.count ≤ n.tuple.count := by
  rcases h.total hm hn with rfl | ⟨hcounts, -⟩ | ⟨-, hlt⟩
  · omega
  · rw [(h.sent m hm).count, (h.sent n hn).count, hdevice]
    exact Int.ofNat_le.mpr (hcounts _)
  · have := hlt hdevice.symm
    omega

end Sender

end BleUsageMeter.Gateway
