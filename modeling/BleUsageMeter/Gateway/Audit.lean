import BleUsageMeter.Gateway.Billing
import BleUsageMeter.Gateway.Reporter
import BleUsageMeter.Gateway.Reports

/-! The event log beside the reports.  `deployment.md` has the operator "reconcile against the
append-only event log", in which every row has the sequence of the last report.  A pipeline reads
that sequence once, when it starts, so that all its rows have the sequence 0, and the log tells a
report's units from later ones only for a device that has no later ones. -/

namespace BleUsageMeter.Gateway

open Kit

/-- A whole call of the pipeline, or a step of a `cmd_report` run. -/
inductive AuditEvent
  | handle (write : GattWrite)
  | report (e : SenderEvent)

/-- The number of counted rows of a device with a sequence below `sequence`. -/
def Store.loggedBelow (s : Store) (deviceId : String) (sequence : Int) : Nat :=
  s.events.countP fun row =>
    row.deviceId = deviceId ∧ row.event ≠ unknown ∧ (row.sequence : Int) < sequence

namespace Sender

variable {scheme : SignatureScheme} (signer : Signer scheme) (matcher : Matcher)
  (reportInterval : Int)

def auditStep (s : Sender) : AuditEvent → Option Sender
  | .handle write => some { s with meter := s.meter.handle matcher write }
  | .report (.pipeline _) => none
  | .report e => s.step signer matcher reportInterval e

/-- Every signed report has the count that the log has for it. -/
def Reconciles (s : Sender) : Prop :=
  ∀ m ∈ s.sent,
    m.tuple.count = s.meter.store.loggedBelow m.tuple.deviceId m.tuple.sequence

/-- The next step leaves the reports and the log reconciled. -/
def StaysReconciled (s : Sender) (e : AuditEvent) : Prop :=
  ∀ u, s.auditStep signer matcher reportInterval e = some u → u.Reconciles

/-- A unit of work is of a device without a signed report, and a report is signed for a device
without a unit since the counts were loaded, whose units SQLite can count. -/
def Settled (s : Sender) : AuditEvent → Prop
  | .handle write => matcher.classify write ≠ unknown →
      ∀ m ∈ s.sent, m.tuple.deviceId ≠ write.peerAddr
  | .report (.writeSequence now) => ∀ counter origin, s.reporting = .checked counter origin →
      ∀ m ∈ signAll signer reportInterval counter origin now,
        origin.logged m.tuple.deviceId = s.meter.store.logged m.tuple.deviceId ∧
          origin.logged m.tuple.deviceId < 2 ^ 63
  | _ => True

/-- What holds after the writes of a run. -/
structure Audited (writes : List GattWrite) (s : Sender) : Prop where
  handled : Meter.Handled matcher writes s.meter
  snapshot : ∀ counter origin, s.reporting = .loaded counter origin ∨
    s.reporting = .numbered counter origin ∨ s.reporting = .checked counter origin →
      ∃ seen, seen <+: writes ∧ (∀ d, origin.logged d = matcher.units seen d) ∧
        ∀ d n, counter.counts.get? d = some n → n = min (matcher.units seen d) maxCount
  numbered : ∀ counter origin,
    s.reporting = .numbered counter origin ∨ s.reporting = .checked counter origin →
      1 ≤ counter.sequence
  sent : ∀ m ∈ s.sent, 1 ≤ m.tuple.sequence

variable {signer} {matcher} {reportInterval} {writes : List GattWrite} {s u : Sender}
  {e : AuditEvent}

theorem Audited.handle (h : s.Audited matcher writes) (write : GattWrite) :
    Audited matcher (writes ++ [write]) { s with meter := s.meter.handle matcher write } where
  handled := h.handled.handle Store.empty_fits write
  snapshot counter origin e := by
    obtain ⟨seen, hseen, hsnapshot⟩ := h.snapshot counter origin e
    exact ⟨seen, hseen.trans (List.prefix_append _ _), hsnapshot⟩
  numbered := h.numbered
  sent := h.sent

theorem Audited.stop (h : s.Audited matcher writes) :
    Audited matcher writes { s with reporting := .idle } where
  handled := h.handled
  snapshot _ _ e := by rcases e with e | e | e <;> cases e
  numbered _ _ e := by rcases e with e | e <;> cases e
  sent := h.sent

/-- A step of the reports in a run with the log is one of `cmd_report`. -/
theorem auditStep_report {e : SenderEvent}
    (hstep : s.auditStep signer matcher reportInterval (.report e) = some u) :
    (∀ event, e ≠ .pipeline event) ∧ s.step signer matcher reportInterval e = some u := by
  cases e with
  | pipeline e => cases hstep
  | _ => exact ⟨fun _ he => SenderEvent.noConfusion he, hstep⟩

/-- A step of `cmd_report` handles no write. -/
theorem Audited.report (h : s.Audited matcher writes) {e : SenderEvent}
    (hstep : s.auditStep signer matcher reportInterval (.report e) = some u) :
    u.Audited matcher writes := by
  obtain ⟨hreport, hstep⟩ := auditStep_report hstep
  rcases Sender.step_cases hstep with ⟨event, _, he, -⟩ | ⟨-, -, rfl⟩ |
    ⟨counter, origin, -, hloaded, rfl⟩ | ⟨counter, origin, -, hnumbered, rfl⟩ |
    ⟨counter, origin, now, -, hchecked, rfl⟩ | ⟨-, rfl⟩
  · exact absurd he (hreport event)
  · refine ⟨h.handled, ?_, ?_, h.sent⟩
    · intro _ _ e
      rcases e with e | e | e <;> cases e
      refine ⟨writes, List.prefix_rfl, h.handled.logged_eq, ?_⟩
      intro d n hn
      rw [Counter.counts_ofCounts, Store.loadCounters, h.handled.stored] at hn
      split at hn
      · cases hn
      · exact (Option.some.inj hn).symm
    · intro _ _ e
      rcases e with e | e <;> cases e
  · refine ⟨h.handled, ?_, ?_, h.sent⟩
    · intro _ _ e
      rcases e with e | e | e <;> cases e
      simpa [Counter.nextSequence] using h.snapshot counter origin (.inl hloaded)
    · intro _ _ e
      rcases e with e | e <;> cases e
      exact Nat.succ_le_succ (Nat.zero_le _)
  · refine ⟨h.handled, ?_, ?_, h.sent⟩
    · intro _ _ e
      rcases e with e | e | e <;> cases e
      exact h.snapshot counter origin (.inr (.inl hnumbered))
    · intro _ _ e
      rcases e with e | e <;> cases e
      exact h.numbered counter origin (.inl hnumbered)
  · refine ⟨?_, ?_, ?_, ?_⟩
    · exact h.handled.writeSequence _
    · intro _ _ e
      rcases e with e | e | e <;> cases e
    · intro _ _ e
      rcases e with e | e <;> cases e
    · intro m hm
      rcases List.mem_append.mp hm with hm | hm
      · exact h.sent m hm
      · have hsequence := (mem_signAll hm).2.1
        have := h.numbered counter origin (.inr hchecked)
        omega
  · exact h.stop

theorem Audited.step (h : s.Audited matcher writes)
    (hstep : s.auditStep signer matcher reportInterval e = some u) :
    ∃ writes, u.Audited matcher writes := by
  cases e with
  | handle write =>
    obtain rfl := Option.some.inj hstep
    exact ⟨_, h.handle write⟩
  | report e => exact ⟨_, h.report hstep⟩

theorem start_audited (matcher : Matcher) : (Sender.start .empty).Audited matcher [] where
  handled := Meter.handled matcher []
  snapshot _ _ e := by rcases e with e | e | e <;> cases e
  numbered _ _ e := by rcases e with e | e <;> cases e
  sent m hm := absurd hm List.not_mem_nil

theorem audited_of_run {ok : Sender → AuditEvent → Prop} {events : List AuditEvent}
    (h : Run (auditStep signer matcher reportInterval) ok (.start .empty) events s) :
    ∃ writes, s.Audited matcher writes := by
  induction h with
  | nil => exact ⟨_, start_audited matcher⟩
  | snoc _ _ hstep ih =>
    obtain ⟨writes, ht⟩ := ih
    exact ht.step hstep

/-- Every row has the sequence 0, so that the log gives one number for all reports of a device. -/
theorem Audited.loggedBelow (h : s.Audited matcher writes) {sequence : Int} (hpos : 1 ≤ sequence)
    (d : String) : s.meter.store.loggedBelow d sequence = matcher.units writes d := by
  have hentries : s.meter.store.loggedBelow d sequence =
      (s.meter.store.events.map EventRow.entry).countP fun entry =>
        entry.1 = d ∧ entry.2.1 ≠ unknown ∧ (entry.2.2 : Int) < sequence := by
    rw [List.countP_map]
    rfl
  have hzero : (0 : Int) < sequence := hpos
  rw [hentries, h.handled.logged, List.countP_map]
  simp [Matcher.units, Function.comp_def, hzero]

/-- A report agrees with the log when all units of its device are counted in it. -/
theorem Audited.reconciles_iff (h : s.Audited matcher writes) :
    s.Reconciles ↔ ∀ m ∈ s.sent, m.tuple.count = matcher.units writes m.tuple.deviceId := by
  apply forall_congr'
  intro m
  apply forall_congr'
  intro hm
  rw [h.loggedBelow (h.sent m hm)]

/-- A call keeps the reports and the log reconciled exactly when it counts no unit of a device with
a signed report. -/
theorem Audited.handle_reconciles_iff (h : s.Audited matcher writes) (hbefore : s.Reconciles)
    (write : GattWrite) :
    Reconciles { s with meter := s.meter.handle matcher write } ↔
      (matcher.classify write ≠ unknown → ∀ m ∈ s.sent, m.tuple.deviceId ≠ write.peerAddr) := by
  rw [(h.handle write).reconciles_iff]
  have hcounts := h.reconciles_iff.mp hbefore
  constructor
  · intro hafter hcounted m hm hdevice
    have hcount := (hcounts m hm).symm.trans (hafter m hm)
    rw [Meter.units_concat, if_pos ⟨hdevice.symm, hcounted⟩] at hcount
    omega
  · intro hother m hm
    rw [Meter.units_concat, if_neg fun h => hother h.2 m hm h.1.symm]
    exact hcounts m hm

/-- What a section signs agrees with the log exactly when no unit has come since it loaded. -/
theorem Audited.sign_reconciles_iff (h : s.Audited matcher writes) (hbefore : s.Reconciles)
    {counter : Counter} {origin : Store} (hchecked : s.reporting = .checked counter origin)
    {now : Int} (hafter : u.Audited matcher writes)
    (hsent : u.sent = s.sent ++ signAll signer reportInterval counter origin now) :
    u.Reconciles ↔ ∀ m ∈ signAll signer reportInterval counter origin now,
      origin.logged m.tuple.deviceId = s.meter.store.logged m.tuple.deviceId ∧
        origin.logged m.tuple.deviceId < 2 ^ 63 := by
  have hmax : maxCount = 9223372036854775807 := rfl
  obtain ⟨seen, hseen, hlogged, hcounts⟩ := h.snapshot counter origin (.inr (.inr hchecked))
  have hold := h.reconciles_iff.mp hbefore
  rw [hafter.reconciles_iff, hsent, List.forall_mem_append]
  refine (and_iff_right hold).trans (forall₂_congr fun m hm => ?_)
  obtain ⟨-, -, n, hn, hget⟩ := mem_signAll hm
  have hcount := hcounts _ n hget
  have hle : matcher.units seen m.tuple.deviceId ≤ matcher.units writes m.tuple.deviceId :=
    hseen.sublist.countP_le
  rw [hn, hlogged, h.handled.logged_eq]
  omega

/-- The steps that keep the reports and the log reconciled. -/
theorem Audited.step_reconciles_iff (h : s.Audited matcher writes) (hbefore : s.Reconciles)
    (hstep : s.auditStep signer matcher reportInterval e = some u) :
    u.Reconciles ↔ Settled signer matcher reportInterval s e := by
  cases e with
  | handle write =>
    obtain rfl := Option.some.inj hstep
    exact h.handle_reconciles_iff hbefore write
  | report e =>
    have hafter := h.report hstep
    obtain ⟨hreport, hstep⟩ := auditStep_report hstep
    have hsame (hsent : u.sent = s.sent) : u.Reconciles := by
      rw [hafter.reconciles_iff, hsent]
      exact h.reconciles_iff.mp hbefore
    rcases Sender.step_cases hstep with ⟨event, _, he, -⟩ | ⟨rfl, -, hu⟩ | ⟨_, _, rfl, -, hu⟩ |
      ⟨_, _, rfl, -, hu⟩ | ⟨counter, origin, now, rfl, hchecked, hu⟩ | ⟨rfl | rfl, hu⟩
    · exact absurd he (hreport event)
    · exact iff_of_true (hsame (by rw [hu])) trivial
    · exact iff_of_true (hsame (by rw [hu])) trivial
    · exact iff_of_true (hsame (by rw [hu])) trivial
    · rw [h.sign_reconciles_iff hbefore hchecked hafter (by rw [hu])]
      constructor
      · intro hsettled counter' origin' e
        obtain ⟨rfl, rfl⟩ := Reporting.checked.inj (hchecked.symm.trans e)
        exact hsettled
      · exact fun hsettled => hsettled counter origin hchecked
    · exact iff_of_true (hsame (by rw [hu])) trivial
    · exact iff_of_true (hsame (by rw [hu])) trivial

/-- Whatever the rules, the reports and the log of a run are reconciled in every state exactly when
every unit and every report finds its device settled. -/
theorem reconciles_iff_settled (signer : Signer scheme) (matcher : Matcher) (reportInterval : Int)
    (events : List AuditEvent) (s : Sender) :
    Run (auditStep signer matcher reportInterval) (StaysReconciled signer matcher reportInterval)
        (.start .empty) events s ↔
      Run (auditStep signer matcher reportInterval) (Settled signer matcher reportInterval)
        (.start .empty) events s := by
  have hreconciles : ∀ events s, Run (auditStep signer matcher reportInterval)
      (StaysReconciled signer matcher reportInterval) (.start .empty) events s → s.Reconciles := by
    intro events s h
    cases h with
    | nil => exact fun m hm => absurd hm List.not_mem_nil
    | snoc _ hok hstep => exact hok _ hstep
  constructor
  · intro h
    apply h.exchange
    intro _ t e u hrun _ hok hstep
    obtain ⟨writes, ht⟩ := audited_of_run hrun
    exact (ht.step_reconciles_iff (hreconciles _ _ hrun) hstep).mp (hok u hstep)
  · intro h
    apply h.exchange
    intro _ t e u hrun hrun' hok hstep v hv
    obtain ⟨writes, ht⟩ := audited_of_run hrun
    exact (ht.step_reconciles_iff (hreconciles _ _ hrun') hv).mpr hok

/-! ### A unit after a report -/

/-- The first report after one unit of work. -/
theorem unit_reported (signer : Signer scheme) {write : GattWrite}
    (hcounted : matcher.classify write ≠ unknown)
    (hshort : (utf8 write.peerAddr).length < 256 ^ 2) :
    ∃ s, Run (auditStep signer matcher 300) Always (.start .empty)
        (.handle write :: (reportRun 300).map .report) s ∧
      ∃ m ∈ s.sent, m.tuple.deviceId = write.peerAddr := by
  have hhandled := Meter.handled matcher [write]
  have hmax : maxCount = 9223372036854775807 := rfl
  cases hrows : (Meter.handleAll matcher [write]).store.counters.entries with
  | nil => exact absurd (hhandled.no_rows hrows write List.mem_cons_self) hcounted
  | cons row rest =>
    obtain ⟨⟨first, hfirst, hd⟩, hcount⟩ := hhandled.first_row hrows
    obtain rfl : first = write := by simpa using List.mem_of_find?_eq_some hfirst
    obtain ⟨u, hrun, m, hm, hdevice, -⟩ := first_signed signer matcher 300
      (s := ⟨.handleAll matcher [first], .idle, []⟩) rfl (Meter.handleAll_sequence _ _) hrows
      (hd ▸ hshort) (by omega) (by decide)
    exact ⟨u, .cons trivial rfl (.of_execute hrun), m, hm, hdevice.trans hd.symm⟩

/-- Work, a report, and more work: the log has two units below the sequence of the report of one. -/
theorem late_unit_unreconciled : ¬∀ doc rules, loadEvents doc = .ok rules → ∀ events s,
    Run (auditStep sampleSigner (.ofRules rules) 300) Always (.start .empty) events s →
      s.Reconciles := by
  intro h
  obtain ⟨s, hrun, m, hm, hdevice⟩ :=
    unit_reported sampleSigner sampleWork_counted (by decide +kernel)
  obtain ⟨writes, hs⟩ := audited_of_run hrun
  have hlate := h _ _ sampleEvents_loaded _ _ (hrun.snoc (e := .handle sampleWork) trivial rfl)
  exact (hs.handle_reconciles_iff (h _ _ sampleEvents_loaded _ _ hrun) sampleWork).mp hlate
    sampleWork_counted m hm hdevice

end Sender

end BleUsageMeter.Gateway
