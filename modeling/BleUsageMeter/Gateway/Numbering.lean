import BleUsageMeter.Kit.Parties
import BleUsageMeter.Gateway.Reporter
import BleUsageMeter.Gateway.Reports

/-! Several runs of `cmd_report` at once.  `next_sequence` says that a number is "never reused",
but a run takes its number from its own memory, and `save_sequence` accepts a number that is stored
already.  The runs sign under numbers of their own as long as each number is new to the store when
it is written there. -/

namespace BleUsageMeter.Gateway

open Kit

/-- How far a run of `cmd_report` has come. -/
inductive ReportStage
  | started
  | loaded (counter : Counter)
  | numbered (counter : Counter)
  | checked (counter : Counter)
  | posting (sequence : Nat) (now : Int) (rows : List (String × Nat))
  | ended

/-- A run of `cmd_report`, and the reports that it has signed. -/
structure ReportRun where
  stage : ReportStage
  signed : List ReportTuple

inductive ReportEvent
  | loadCounters
  | loadSequence
  | checkSequence
  | writeSequence (now : Int)
  | post
  | crash

/-- The store, and the runs that have been started. -/
abbrev Numbering : Type := Parties Store ReportRun

abbrev NumberingEvent : Type := PartyEvent Unit ReportEvent

namespace Numbering

variable {scheme : SignatureScheme} (signer : Signer scheme) (reportInterval : Int)

/-- The next statement of a run.  `post` signs the report of the next row; what becomes of the
report does not matter here. -/
def act (_ : Nat) (store : Store) (r : ReportRun) : ReportEvent → Option (Store × ReportRun)
  | .loadCounters =>
    match r.stage with
    | .started => some (store, { r with stage := .loaded (.ofCounts store.loadCounters) })
    | _ => none
  | .loadSequence =>
    match r.stage with
    | .loaded counter =>
      let counter := counter.restoreSequence store.loadSequence
      some (store, { r with stage := .numbered counter.nextSequence.2 })
    | _ => none
  | .checkSequence =>
    match r.stage with
    | .numbered counter =>
      match store.checkSequence counter.sequence with
      | .ok _ => some (store, { r with stage := .checked counter })
      | .error _ => some (store, { r with stage := .ended })
    | _ => none
  | .writeSequence now =>
    match r.stage with
    | .checked counter =>
      some (store.writeSequence counter.sequence,
        { r with stage := .posting counter.sequence now counter.snapshot })
    | _ => none
  | .post =>
    match r.stage with
    | .posting sequence now ((deviceId, count) :: rows) =>
      let tuple : ReportTuple := ⟨deviceId, count, sequence, now - reportInterval, now⟩
      match signer.sign tuple with
      | .ok _ =>
        some (store, { stage := .posting sequence now rows, signed := r.signed ++ [tuple] })
      | .error _ => some (store, { r with stage := .ended })
    | _ => none
  | .crash => some (store, { r with stage := .ended })

def step (p : Numbering) (e : NumberingEvent) : Option Numbering :=
  Parties.step (fun _ _ => ⟨.started, []⟩) (act signer reportInterval) p e

/-- No two runs have signed reports with the same sequence number. -/
def Distinct (p : Numbering) : Prop :=
  p.members.Pairwise fun a b => ∀ x ∈ a.signed, ∀ y ∈ b.signed, x.sequence ≠ y.sequence

/-- The number that a run writes next. -/
def unwritten : ReportStage → Option Nat
  | .checked counter => some counter.sequence
  | _ => none

/-- A number that is written is above the one in the store. -/
def New (_ : Nat) (store : Store) (r : ReportRun) : ReportEvent → Prop
  | .writeSequence _ => ∀ n ∈ unwritten r.stage, store.loadSequence < n
  | _ => True

instance (i : Nat) (store : Store) (r : ReportRun) : (e : ReportEvent) → Decidable (New i store r e)
  | .writeSequence _ =>
    inferInstanceAs (Decidable (∀ n ∈ unwritten r.stage, store.loadSequence < n))
  | .loadCounters | .loadSequence | .checkSequence | .post | .crash => isTrue trivial

def Fresh (p : Numbering) (e : NumberingEvent) : Prop := Parties.Allows New p e

instance (p : Numbering) (e : NumberingEvent) : Decidable (p.Fresh e) :=
  inferInstanceAs (Decidable (Parties.Allows New p e))

/-! ### The numbers of a run -/

/-- The number under which a run posts. -/
def current : ReportStage → List Int
  | .posting sequence _ _ => [(sequence : Int)]
  | _ => []

/-- The numbers under which a run has signed or goes on to sign. -/
def numbers (r : ReportRun) : List Int := r.signed.map ReportTuple.sequence ++ current r.stage

variable {signer} {reportInterval} {store store' : Store} {r r' : ReportRun} {i : Nat}
  {e : ReportEvent}

theorem mem_numbers_of_silent (r : ReportRun) {stage : ReportStage} (hsilent : current stage = [])
    {n : Int} (h : n ∈ numbers { r with stage }) : n ∈ numbers r := by
  rw [numbers, hsilent, List.append_nil] at h
  exact List.mem_append_left _ h

/-- A step of a run keeps its numbers, or adds the one that it writes. -/
theorem act_numbers (h : act signer reportInterval i store r e = some (store', r'))
    (hnew : New i store r e) : store.loadSequence ≤ store'.loadSequence ∧
      ∀ n ∈ numbers r', n ∈ numbers r ∨ store.loadSequence < n ∧ n ≤ store'.loadSequence := by
  cases e with
  | loadCounters =>
    simp only [act] at h
    split at h
    · obtain ⟨rfl, rfl⟩ := Prod.mk.inj (Option.some.inj h)
      exact ⟨Int.le_refl _, fun n hn => .inl (mem_numbers_of_silent r rfl hn)⟩
    · cases h
  | loadSequence =>
    simp only [act] at h
    split at h
    · obtain ⟨rfl, rfl⟩ := Prod.mk.inj (Option.some.inj h)
      exact ⟨Int.le_refl _, fun n hn => .inl (mem_numbers_of_silent r rfl hn)⟩
    · cases h
  | checkSequence =>
    simp only [act] at h
    split at h
    · split at h <;> obtain ⟨rfl, rfl⟩ := Prod.mk.inj (Option.some.inj h) <;>
        exact ⟨Int.le_refl _, fun n hn => .inl (mem_numbers_of_silent r rfl hn)⟩
    · cases h
  | writeSequence now =>
    simp only [act] at h
    split at h
    · rename_i counter hchecked
      obtain ⟨rfl, rfl⟩ := Prod.mk.inj (Option.some.inj h)
      have hlt := hnew counter.sequence (by rw [hchecked]; rfl)
      have hwrite : (store.writeSequence counter.sequence).loadSequence = counter.sequence := rfl
      refine ⟨by omega, ?_⟩
      intro n hn
      rcases List.mem_append.mp hn with hn | hn
      · exact .inl (List.mem_append_left _ hn)
      · obtain rfl := List.mem_singleton.mp hn
        exact .inr ⟨hlt, hwrite.ge⟩
    · cases h
  | post =>
    simp only [act] at h
    split at h
    · rename_i hposting
      split at h <;> obtain ⟨rfl, rfl⟩ := Prod.mk.inj (Option.some.inj h) <;>
        refine ⟨Int.le_refl _, ?_⟩ <;> intro n hn <;> left
      · simpa [numbers, current, hposting] using hn
      · exact mem_numbers_of_silent r rfl hn
    · cases h
  | crash =>
    obtain ⟨rfl, rfl⟩ := Prod.mk.inj (Option.some.inj h)
    exact ⟨Int.le_refl _, fun n hn => .inl (mem_numbers_of_silent r rfl hn)⟩

/-- The numbers of a run are in the store, or below. -/
def Stored (store : Store) (r : ReportRun) : Prop := ∀ n ∈ numbers r, n ≤ store.loadSequence

/-- The runs of `p` have numbers that are stored and not shared. -/
structure Numbered (p : Numbering) : Prop where
  stored : p.Relies Stored
  apart : p.members.Pairwise fun a b => (numbers a).Disjoint (numbers b)

variable {p q : Numbering} {events : List NumberingEvent} {ne : NumberingEvent}

theorem Numbered.step (h : p.Numbered) (hfresh : p.Fresh ne)
    (hstep : step signer reportInterval p ne = some q) : q.Numbered where
  stored := by
    apply h.stored.step hstep
    · intro _ n hn
      cases hn
    · rintro i e t t' rfl ht hact
      obtain ⟨hle, hnumbers⟩ := act_numbers hact (hfresh t ht)
      constructor
      · intro n hn
        rcases hnumbers n hn with hn | ⟨-, hn⟩
        · exact (h.stored t (List.mem_of_getElem? ht) n hn).trans hle
        · exact hn
      · exact fun other hother n hn => (hother n hn).trans hle
  apart := by
    apply Parties.pairwise_step (fun _ _ hdisjoint => hdisjoint.symm) h.apart hstep
    · intro _ t _ n _ hn
      cases hn
    · rintro i e t t' rfl ht hact other hother hdisjoint n hn hn'
      rcases (act_numbers hact (hfresh t ht)).2 n hn' with hn' | ⟨hlt, -⟩
      · exact hdisjoint hn hn'
      · have := h.stored other hother n hn
        omega

theorem Numbered.distinct (h : p.Numbered) : p.Distinct := by
  apply h.apart.imp
  intro a b hdisjoint x hx y hy heq
  apply hdisjoint (List.mem_append_left _ (List.mem_map_of_mem hx))
  exact heq ▸ List.mem_append_left _ (List.mem_map_of_mem hy)

/-- Whatever the store and the order of the steps, runs that write only numbers above the stored one
never sign under the same number. -/
theorem distinct_of_fresh (signer : Signer scheme) (reportInterval : Int) (store : Store)
    (events : List NumberingEvent) (p : Numbering)
    (h : Run (Numbering.step signer reportInterval) Fresh ⟨store, []⟩ events p) : p.Distinct := by
  apply Numbered.distinct
  exact h.preserves ⟨Parties.relies_start _ _, .nil⟩ fun _ _ _ ht hok hstep => ht.step hok hstep

/-! ### Two runs -/

/-- Run `i` takes its number. -/
def takes (i : Nat) : List NumberingEvent := [.act i .loadCounters, .act i .loadSequence]

/-- Run `i` saves its number and signs one report. -/
def signs (i : Nat) : List NumberingEvent :=
  [.act i .checkSequence, .act i (.writeSequence 300), .act i .post]

/-- A store with one unit of one device. -/
def sampleStore : Store := { Store.empty with counters := Store.empty.counters.insert "d" 1 }

/-- The sequence numbers that each run has signed. -/
def signedNumbers (p : Numbering) : List (List Int) :=
  p.members.map fun r => r.signed.map ReportTuple.sequence

theorem distinct_iff :
    p.Distinct ↔ p.signedNumbers.Pairwise fun a b => ∀ x ∈ a, ∀ y ∈ b, x ≠ y := by
  rw [signedNumbers, List.pairwise_map]
  simp [Distinct]

theorem distinct_of_fresh_sample : ∃ p : Numbering, p.Distinct ∧ p.signedNumbers = [[1], [2]] := by
  have heval : ((Run.execute
      (fun p e => if Fresh p e then step sampleSigner 300 p e else none) ⟨sampleStore, []⟩
      ([.join (), .join ()] ++ takes 0 ++ signs 0 ++ takes 1 ++ signs 1)).any fun p =>
        decide (p.signedNumbers = [[1], [2]])) = true := by
    decide +kernel
  obtain ⟨p, hrun, hp⟩ := (Option.any_eq_true _ _).mp heval
  exact ⟨p, distinct_of_fresh sampleSigner 300 sampleStore _ p (.of_execute_guarded hrun),
    of_decide_eq_true hp⟩

/-- Two runs that take their numbers before either saves its own sign the same number. -/
theorem overlapping_runs : ∃ p : Numbering, Run (step sampleSigner 300) Always ⟨sampleStore, []⟩
    ([.join (), .join ()] ++ takes 0 ++ takes 1 ++ signs 0 ++ signs 1) p ∧
      p.signedNumbers = [[1], [1]] := by
  have heval : ((Run.execute (step sampleSigner 300) ⟨sampleStore, []⟩
      ([.join (), .join ()] ++ takes 0 ++ takes 1 ++ signs 0 ++ signs 1)).any fun p =>
        decide (p.signedNumbers = [[1], [1]])) = true := by
    decide +kernel
  obtain ⟨p, hrun, hp⟩ := (Option.any_eq_true _ _).mp heval
  exact ⟨p, .of_execute hrun, of_decide_eq_true hp⟩

theorem number_reused : ¬∀ store events (p : Numbering),
    Run (step sampleSigner 300) Always ⟨store, []⟩ events p → p.Distinct := by
  intro h
  obtain ⟨p, hrun, hnumbers⟩ := overlapping_runs
  have hdistinct := distinct_iff.mp (h _ _ p hrun)
  rw [hnumbers] at hdistinct
  exact absurd hdistinct (by decide)

end Numbering

end BleUsageMeter.Gateway
