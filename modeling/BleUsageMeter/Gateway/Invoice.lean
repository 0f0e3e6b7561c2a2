import BleUsageMeter.Backend.Rolling
import BleUsageMeter.Gateway.Delivery

/-! What the backend bills beside what a gateway has seen.  Wherever the gateway crashes and
whatever becomes of its reports, no device is billed, or denied over its quota, for more units than
were handled.  As long as no restart comes in the middle of a call, the bill is the number of units
that were logged at some earlier moment. -/

namespace BleUsageMeter.Gateway

open Kit
open Backend (Db Device)

variable {scheme : SignatureScheme} {signer : Signer scheme} {matcher : Matcher}
  {reportInterval : Int}

/-! ### What the log has -/

namespace Meter

variable {g u : Meter} {e : Event}

variable (matcher) in
/-- The event begins a call for a unit of work of the device. -/
def Begins (deviceId : String) : Event → Bool
  | .handle write => decide (write.peerAddr = deviceId ∧ matcher.classify write ≠ unknown)
  | _ => false

/-- A step logs at most the unit of the call that it begins. -/
theorem step_logged_le (h : g.step matcher e = some u) (d : String) :
    u.store.logged d ≤ g.store.logged d + if Begins matcher d e then 1 else 0 := by
  rcases step_cases h with ⟨write, rfl, -, ⟨exc, -, rfl⟩ | ⟨store, happend, rfl⟩⟩ |
    ⟨peerAddr, rfl, -, rfl⟩ | ⟨peerAddr, count, rfl, -, ⟨exc, -, rfl⟩ | ⟨store, hsave, rfl⟩⟩ |
    ⟨rfl, rfl⟩
  · exact Nat.le_add_right _ _
  · obtain ⟨-, -, hrows⟩ := Store.appendEvent_eq_ok happend
    show store.logged d ≤ _
    rw [hrows]
    by_cases hunit : write.peerAddr = d ∧ matcher.classify write ≠ unknown
    · simp [eventRow, Begins, hunit]
    · rw [if_neg (by simpa [eventRow] using hunit)]
      exact Nat.le_add_right _ _
  · exact Nat.le_add_right _ _
  · exact Nat.le_add_right _ _
  · show store.logged d ≤ _
    rw [Store.saveCounter_logged hsave]
    exact Nat.le_add_right _ _
  · exact Nat.le_add_right _ _

/-- The log is ahead of the count by a call in progress at most. -/
theorem Agrees.logged_le (h : g.Agrees) (d : String) :
    g.store.logged d ≤ g.store.count d + 1 := by
  rw [h.logged, h.memory]
  cases g.process.stage with
  | idle => simp [uncounted, unpersisted]
  | logged peerAddr =>
    simp only [uncounted, unpersisted, reduceCtorEq, if_false, Option.some.injEq]
    split <;> omega
  | counted peerAddr count =>
    simp only [uncounted, unpersisted, reduceCtorEq, if_false, Option.some.injEq]
    split <;> omega

theorem Bounded.writeSequence (h : g.Bounded) (sequence : Nat) :
    Bounded { g with store := g.store.writeSequence sequence } :=
  ⟨h.stored, h.memory, h.saving⟩

theorem Agrees.writeSequence (h : g.Agrees) (sequence : Nat) :
    Agrees { g with store := g.store.writeSequence sequence } :=
  ⟨h.logged, h.memory, h.saving⟩

end Meter

/-! ### What the reports read -/

/-- The store from which a section in progress has loaded its counts. -/
def Reporting.origin? : Reporting → Option Store
  | .idle => none
  | .loaded _ origin | .numbered _ origin | .checked _ origin => some origin

namespace Sender

variable {s u : Sender} {e : SenderEvent} {origin : Store}

/-- The section in progress has read the store, or a signed report has. -/
def HasRead (s : Sender) (origin : Store) : Prop :=
  s.reporting.origin? = some origin ∨ ∃ m ∈ s.sent, m.origin = origin

theorem step_hasRead (h : s.step signer matcher reportInterval e = some u)
    (hread : u.HasRead origin) :
    s.HasRead origin ∨ e = .loadCounters ∧ origin = s.meter.store := by
  rcases step_cases h with ⟨event, meter, -, -, rfl⟩ | ⟨hload, -, rfl⟩ |
    ⟨counter, loaded, -, hloading, rfl⟩ | ⟨counter, loaded, -, hnumbered, rfl⟩ |
    ⟨counter, loaded, now, -, hchecked, rfl⟩ | ⟨-, rfl⟩
  · exact .inl hread
  · rcases hread with hreading | hsent
    · exact .inr ⟨hload, (Option.some.inj hreading).symm⟩
    · exact .inl (.inr hsent)
  · exact .inl (hread.imp_left fun hreading => by rw [hloading]; exact hreading)
  · exact .inl (hread.imp_left fun hreading => by rw [hnumbered]; exact hreading)
  · rcases hread with hreading | ⟨m, hm, rfl⟩
    · cases hreading
    · rcases List.mem_append.mp hm with hm | hm
      · exact .inl (.inr ⟨m, hm, rfl⟩)
      · rw [(mem_signAll hm).1]
        exact .inl (.inl (by rw [hchecked]; rfl))
  · rcases hread with hreading | hsent
    · cases hreading
    · exact .inl (.inr hsent)

end Sender

/-! ### The bill -/

namespace System

variable {db : Db} {store : Store} {s u : System} {e : SystemEvent} {events : List SystemEvent}

variable (matcher) in
/-- The number of units of a device for which a call of `handle` has begun. -/
def handled (events : List SystemEvent) (deviceId : String) : Nat :=
  events.countP fun
    | .sender (.pipeline e) => Meter.Begins matcher deviceId e
    | _ => false

/-- A statement of the pipeline does not disturb it. -/
def Calm (s : System) : SystemEvent → Prop
  | .sender (.pipeline e) => s.sender.meter.Undisturbed e
  | _ => True

variable (signer) in
def Steady (s : System) (e : SystemEvent) : Prop := Unforged signer s e ∧ s.Calm e

variable (matcher) in
/-- The counts are not ahead of the log, nor the log of the calls. -/
structure Logged (events : List SystemEvent) (s : System) : Prop where
  bounded : s.sender.meter.Bounded
  logged : ∀ d, s.sender.meter.store.logged d ≤ handled matcher events d

theorem handled_concat (events : List SystemEvent) (e : SystemEvent) (d : String) :
    handled matcher events d ≤ handled matcher (events ++ [e]) d := by
  rw [handled, handled, List.countP_append]
  exact Nat.le_add_right _ _

/-- An event is a statement of the pipeline, or it changes at most the sequence in the store. -/
theorem step_meter (h : s.step signer matcher reportInterval e = some u) :
    (∃ event, e = .sender (.pipeline event) ∧
      s.sender.meter.step matcher event = some u.sender.meter) ∨
    u.sender.meter = s.sender.meter ∨ ∃ sequence, u.sender.meter =
      { s.sender.meter with store := s.sender.meter.store.writeSequence sequence } := by
  cases e with
  | deliver report now =>
    obtain rfl := Option.some.inj h
    exact .inr (.inl rfl)
  | sender e =>
    obtain ⟨sender, hsender, rfl⟩ := Option.map_eq_some_iff.mp h
    rcases Sender.step_cases hsender with ⟨event, meter, rfl, hmeter, rfl⟩ | ⟨-, -, rfl⟩ |
      ⟨_, _, -, -, rfl⟩ | ⟨_, _, -, -, rfl⟩ | ⟨counter, _, _, -, -, rfl⟩ | ⟨-, rfl⟩
    · exact .inl ⟨event, rfl, hmeter⟩
    · exact .inr (.inl rfl)
    · exact .inr (.inl rfl)
    · exact .inr (.inl rfl)
    · exact .inr (.inr ⟨counter.sequence, rfl⟩)
    · exact .inr (.inl rfl)

theorem Logged.step (h : s.Logged matcher events)
    (hstep : s.step signer matcher reportInterval e = some u) :
    u.Logged matcher (events ++ [e]) := by
  rcases step_meter hstep with ⟨event, rfl, hmeter⟩ | hmeter | ⟨sequence, hmeter⟩
  · refine ⟨h.bounded.step hmeter, fun d => ?_⟩
    rw [handled, List.countP_append, List.countP_singleton]
    exact (Meter.step_logged_le hmeter d).trans (Nat.add_le_add_right (h.logged d) _)
  · refine ⟨hmeter ▸ h.bounded, fun d => ?_⟩
    rw [hmeter]
    exact (h.logged d).trans (handled_concat events e d)
  · refine ⟨hmeter ▸ h.bounded.writeSequence sequence, fun d => ?_⟩
    rw [hmeter]
    exact (h.logged d).trans (handled_concat events e d)

theorem logged_of_run {ok : System → SystemEvent → Prop}
    (h : Run (step signer matcher reportInterval) ok (start db .empty) events s) :
    s.Logged matcher events := by
  apply h.traces
  · exact ⟨Meter.fresh_bounded, fun d => Nat.zero_le _⟩
  · exact fun _ _ _ _ ht _ hstep => ht.step hstep

/-- A store that has been read is that at one of the `SELECT`s that load the counts. -/
theorem hasRead_of_run {ok : System → SystemEvent → Prop} {origin : Store}
    (h : Run (step signer matcher reportInterval) ok (start db store) events s)
    (hread : s.sender.HasRead origin) : ∃ seen t, seen ++ [.sender .loadCounters] <+: events ∧
      Run (step signer matcher reportInterval) ok (start db store) seen t ∧
        t.sender.meter.store = origin := by
  induction h with
  | nil =>
    rcases hread with hreading | ⟨m, hm, -⟩
    · cases hreading
    · cases hm
  | snoc hrun hok hstep ih =>
    rename_i es t u e
    have hearlier : t.sender.HasRead origin ∨
        e = .sender .loadCounters ∧ origin = t.sender.meter.store := by
      cases e with
      | deliver report now =>
        obtain rfl := Option.some.inj hstep
        exact .inl hread
      | sender e =>
        obtain ⟨sender, hsender, rfl⟩ := Option.map_eq_some_iff.mp hstep
        exact (Sender.step_hasRead hsender hread).imp_right
          fun hload => ⟨congrArg SystemEvent.sender hload.1, hload.2⟩
    rcases hearlier with hheld | ⟨rfl, rfl⟩
    · obtain ⟨seen, v, hseen, hv⟩ := ih hheld
      exact ⟨seen, v, hseen.trans (List.prefix_append _ _), hv⟩
    · exact ⟨es, t, List.prefix_rfl, hrun, rfl⟩

theorem agrees_of_steady
    (h : Run (step signer matcher reportInterval) (Steady signer) (start db .empty) events s) :
    s.sender.meter.Agrees := by
  apply h.preserves
  · exact Meter.fresh_agrees
  · intro t e u ht hok hstep
    rcases step_meter hstep with ⟨event, rfl, hmeter⟩ | hmeter | ⟨sequence, hmeter⟩
    · exact ht.step hok.2 hmeter
    · exact hmeter ▸ ht
    · exact hmeter ▸ ht.writeSequence sequence

variable {id : String} {device : Device}

/-- Wherever the gateway crashes and whatever becomes of its reports, a device is billed for no more
units than the log shows and calls were made for, and it is denied over its quota only when that
many were handled. -/
theorem billed_le_handled (hdb : db.Consistent)
    (hfresh : ∀ id device, db.devices.get? id = some device → signer.Owns device →
      device.marks = (-1, 0))
    (h : Run (step signer matcher reportInterval) (Unforged signer) (start db .empty) events s)
    (hdevice : s.db.devices.get? id = some device) (howns : signer.Owns device) :
    device.lastAcceptedCount ≤ s.sender.meter.store.logged id ∧
      (∀ usage, Backend.getUsage id s.db = .usage usage →
        usage.totalCount ≤ s.sender.meter.store.logged id) ∧
      s.sender.meter.store.logged id ≤ handled matcher events id ∧
      ∀ py now today decision,
        Backend.getLicense py id now today s.db = .ok (.license decision) →
          decision.reason = .overQuota →
            ∃ quota, decision.quotaUnits = some quota ∧ quota ≤ handled matcher events id := by
  have hlinked := linked_of_run hdb h
  have hlogged := logged_of_run h
  have hcount := hlinked.count_le ((Commissioned.fresh hfresh).covers hdb) hdevice howns
  have hstored := hlogged.bounded.stored id
  have hcalls := hlogged.logged id
  have hbilled : device.lastAcceptedCount ≤ s.sender.meter.store.logged id := by omega
  refine ⟨hbilled, ?_, hcalls, ?_⟩
  · intro usage husage
    obtain ⟨same, hsame, htotal, -⟩ := usage_marks husage
    obtain rfl := Option.some.inj (hdevice.symm.trans hsame)
    exact htotal ▸ hbilled
  · intro py now today decision hdecision hreason
    obtain ⟨quota, same, hquota, hsame, hle⟩ :=
      hlinked.consistent.overQuota_le hdecision hreason
    obtain rfl := Option.some.inj (hdevice.symm.trans hsame)
    exact ⟨quota, hquota, by omega⟩

/-- The marks of a device are those of a report that has arrived, from a section that loaded its
counts in the state `t`, after the events `seen`. -/
def BilledFrom (s : System) (events seen : List SystemEvent) (t : System) (id : String)
    (device : Device) : Prop :=
  seen ++ [.sender .loadCounters] <+: events ∧
    ∃ m ∈ s.sender.sent, m.tuple.deviceId = id ∧ m.origin = t.sender.meter.store ∧
      device.marks = (m.tuple.sequence, m.tuple.count) ∧ ∃ report ∈ s.arrived, m.CarriedBy report

/-- As long as no restart comes in the middle of a call, the bill is the number of units that the
log showed when the report that is billed read the counts, but for a unit in progress then.  Before
a report is accepted, it is that of the empty log at the start. -/
theorem billed_as_logged (hdb : db.Consistent)
    (hfresh : ∀ id device, db.devices.get? id = some device → signer.Owns device →
      device.marks = (-1, 0))
    (h : Run (step signer matcher reportInterval) (Steady signer) (start db .empty) events s)
    (hdevice : s.db.devices.get? id = some device) (howns : signer.Owns device) :
    ∃ seen t, Run (step signer matcher reportInterval) (Steady signer) (start db .empty) seen t ∧
      (seen = [] ∧ device.marks = (-1, 0) ∨ s.BilledFrom events seen t id device) ∧
      device.lastAcceptedCount ≤ t.sender.meter.store.logged id ∧
      t.sender.meter.store.logged id ≤ device.lastAcceptedCount + 1 ∧
      (t.sender.meter.process.stage = .idle →
        device.lastAcceptedCount = t.sender.meter.store.logged id) := by
  have hlinked := linked_of_run hdb (h.weaken fun _ _ hok => hok.1)
  have hread : ∃ seen t,
      Run (step signer matcher reportInterval) (Steady signer) (start db .empty) seen t ∧
      (seen = [] ∧ device.marks = (-1, 0) ∨ s.BilledFrom events seen t id device) ∧
      device.lastAcceptedCount = t.sender.meter.store.count id := by
    rcases hlinked.marks hdevice howns with ⟨first, hfirst, hfirstOwns, hmarks⟩ | haccepted
    · rw [hfresh id first hfirst hfirstOwns] at hmarks
      exact ⟨[], _, .nil, .inl ⟨rfl, hmarks⟩, congrArg Prod.snd hmarks⟩
    · obtain ⟨m, hm, hid, hmarks, harrived⟩ := haccepted
      obtain ⟨seen, t, hseen, hrun, hstore⟩ := hasRead_of_run h (.inr ⟨m, hm, rfl⟩)
      have hsays : (m.origin.count id : Int) = m.tuple.count := by
        rw [← hid]
        exact ((hlinked.orderly.sent m hm).count).symm
      refine ⟨seen, t, hrun, .inr ⟨hseen, m, hm, hid, hstore.symm, ?_, harrived⟩, ?_⟩
      · rw [hmarks, hsays]
      · exact hstore ▸ congrArg Prod.snd hmarks
  obtain ⟨seen, t, hrun, hfrom, hcount⟩ := hread
  have hagrees := agrees_of_steady hrun
  have hstored := (logged_of_run hrun).bounded.stored id
  have hahead := hagrees.logged_le id
  refine ⟨seen, t, hrun, hfrom, by omega, by omega, fun hidle => ?_⟩
  rw [hcount, hagrees.exact hidle id]

/-! ### A unit that is billed -/

/-- The report of the unit arrives. -/
def sampleArrival : List SystemEvent :=
  sampleEvents ++ [.deliver (Backend.sampleReport 1 1 .epoch) .epoch]

theorem sampleArrival_run : ∃ s device, Run (step sampleSigner (.ofRules [Meter.sampleRule]) 0)
    (Steady sampleSigner) (start Backend.registered .empty) sampleArrival s ∧
      s.db.devices.get? "d" = some device ∧ sampleSigner.Owns device ∧
      device.marks = (1, 1) := by
  let next := step sampleSigner (.ofRules [Meter.sampleRule]) 0
  have heval : ((Run.execute next (start Backend.registered .empty) (sampleEvents.take 2)).any
      fun r => decide (r.sender.meter.process.stage = .counted "d" 1) &&
        (next r (.sender (.pipeline .saveCounter))).any fun t =>
          (Run.execute next t (sampleEvents.drop 3)).any fun s => s.sender.sent.any fun m =>
            decide ((canonicalBytes m.tuple).toOption.isSome) &&
            decide ((Backend.sampleReport 1 1 .epoch).canonicalBytes = canonicalBytes m.tuple) &&
            decide (Base64.b64decode (Backend.sampleReport 1 1 .epoch).signature =
              .ok m.signature) &&
            ((Backend.postReport SignatureScheme.sample (Backend.sampleReport 1 1 .epoch)
              .epoch none s.db).1.devices.get? "d").any fun device =>
                decide (sampleSigner.Owns device) && decide (device.marks = (1, 1))) = true := by
    decide +kernel
  obtain ⟨r, hfirst, hr⟩ := (Option.any_eq_true _ _).mp heval
  simp only [Bool.and_eq_true, decide_eq_true_eq] at hr
  obtain ⟨hcounted, hsaved⟩ := hr
  obtain ⟨t, hsave, ht⟩ := (Option.any_eq_true _ _).mp hsaved
  obtain ⟨s, hrest, hs⟩ := (Option.any_eq_true _ _).mp ht
  obtain ⟨m, hm, hcarried⟩ := List.any_eq_true.mp hs
  simp only [Bool.and_eq_true, decide_eq_true_eq] at hcarried
  obtain ⟨⟨⟨hbytes, hsame⟩, hsignature⟩, hmarked⟩ := hcarried
  obtain ⟨device, hdevice, hmarked⟩ := (Option.any_eq_true _ _).mp hmarked
  simp only [Bool.and_eq_true, decide_eq_true_eq] at hmarked
  have hsteady : ∀ u : System, ∀ e ∈ sampleEvents.take 2 ++ sampleEvents.drop 3,
      Steady sampleSigner u e := by
    simp [sampleEvents, Steady, Unforged, Calm, Meter.Undisturbed]
  have hcalm : Steady sampleSigner r (.sender (.pipeline .saveCounter)) := by
    refine ⟨trivial, fun peerAddr count hstage => ?_⟩
    obtain ⟨-, rfl⟩ := Stage.counted.inj (hcounted.symm.trans hstage)
    decide
  have hcarried : m.CarriedBy (Backend.sampleReport 1 1 .epoch) := by
    cases htuple : canonicalBytes m.tuple with
    | error e => simp [htuple, Except.toOption] at hbytes
    | ok bytes => exact ⟨⟨bytes, hsame.trans htuple, htuple⟩, hsignature⟩
  have hsent : Run next (Steady sampleSigner) (start Backend.registered .empty) sampleEvents s :=
    (Run.of_execute_allowed (fun u e he => hsteady u e (List.mem_append_left _ he)) hfirst).trans
      (.cons hcalm hsave
        (Run.of_execute_allowed (fun u e he => hsteady u e (List.mem_append_right _ he)) hrest))
  exact ⟨_, device, hsent.snoc ⟨fun _ _ _ => ⟨m, hm, hcarried⟩, trivial⟩ rfl, hdevice, hmarked⟩

theorem billed_le_handled_sample : ∃ (s : System) (device : Device),
    s.db.devices.get? "d" = some device ∧ device.marks = (1, 1) ∧
      device.lastAcceptedCount ≤ s.sender.meter.store.logged "d" ∧
      s.sender.meter.store.logged "d" ≤ 1 := by
  obtain ⟨s, device, hrun, hdevice, howns, hmarks⟩ := sampleArrival_run
  obtain ⟨hbilled, -, hlogged, -⟩ := billed_le_handled Backend.registered_consistent
    (fun id device h _ => registered_fresh id device h) (hrun.weaken fun _ _ hok => hok.1)
    hdevice howns
  exact ⟨s, device, hdevice, hmarks, hbilled, hlogged.trans (by decide +kernel)⟩

theorem billed_as_logged_sample : ∃ (s : System) (device : Device) (seen : List SystemEvent)
    (t : System), device.marks = (1, 1) ∧ s.BilledFrom sampleArrival seen t "d" device ∧
      device.lastAcceptedCount ≤ t.sender.meter.store.logged "d" ∧
      t.sender.meter.store.logged "d" ≤ device.lastAcceptedCount + 1 := by
  obtain ⟨s, device, hrun, hdevice, howns, hmarks⟩ := sampleArrival_run
  obtain ⟨seen, t, -, hfrom, hle, hge, -⟩ := billed_as_logged Backend.registered_consistent
    (fun id device h _ => registered_fresh id device h) hrun hdevice howns
  rcases hfrom with ⟨-, hfirst⟩ | hfrom
  · rw [hmarks] at hfirst
    cases hfirst
  · exact ⟨s, device, seen, t, hmarks, hfrom, hle, hge⟩

end System

end BleUsageMeter.Gateway
