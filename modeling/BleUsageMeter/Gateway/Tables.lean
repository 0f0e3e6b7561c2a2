import Mathlib.Order.Lattice
import BleUsageMeter.Backend.UsageReports

/-! `SCHEMA` of `gateway/store.py`: the tables `events` and `counters` as they are declared, for any
values in SQLite's order.  "A usage log that can be quietly edited is worth nothing as evidence";
the triggers refuse every change of an event and every update that lowers a count. -/

namespace BleUsageMeter.Gateway

open Kit

/-- A row of `events` with its id; `none` is `NULL`. -/
structure EventsRow (V : Type) where
  id : V
  ts : Option V
  deviceId : Option V
  event : Option V
  sequence : Option V
  service : Option V
  characteristic : Option V
  payloadHead : Option V
deriving DecidableEq

/-- `CREATE TABLE events`. -/
def eventsTable {V : Type} : Schema (EventsRow V) V where
  rowid := EventsRow.id
  uniques := []
  check row := row.ts.isSome && row.deviceId.isSome && row.event.isSome && row.sequence.isSome
  references _ := true
  updateRaises _ _ := true
  deleteRaises _ := true

theorem eventsTable_appendOnly {V : Type} : (eventsTable : Schema (EventsRow V) V).AppendOnly :=
  ⟨fun _ _ => rfl, fun _ => rfl⟩

/-- A row of `counters` with its rowid; `none` is `NULL`. -/
structure CountersRow (V : Type) where
  rowid : V
  deviceId : Option V
  count : Option V
  updatedAt : Option V
deriving DecidableEq

variable {V : Type} [LinearOrder V]

/-- `CREATE TABLE counters`, with the value `zero` of its `CHECK`.  A comparison with `NULL` does
not hold. -/
def countersTable (zero : V) : Schema (CountersRow V) V where
  rowid := CountersRow.rowid
  uniques := [fun row => do return [← row.deviceId]]
  check row := row.count.any (fun count => decide (zero ≤ count)) && row.updatedAt.isSome
  references _ := true
  updateRaises old new := old.count.any fun a => new.count.any fun b => decide (b < a)
  deleteRaises _ := false

/-- The step of a table that stands alone. -/
def statementStep {ρ : Type} [DecidableEq ρ] (S : Schema ρ V) (rows : List ρ)
    (statement : DataStatement ρ) : Option (List ρ) :=
  some (S.execute rows statement)

/-- `new` is of the same device and its count is no lower. -/
def CountersRow.NoLower (old new : CountersRow V) : Prop :=
  new.deviceId = old.deviceId ∧ ∃ a b, old.count = some a ∧ new.count = some b ∧ a ≤ b

/-- The count of every device is still there and is no lower. -/
def CountsKept (before rows : List (CountersRow V)) : Prop :=
  ∀ row ∈ before, row.deviceId ≠ none → ∃ new ∈ rows, row.NoLower new

/-- The statement deletes no device, gives no row another device, and replaces only rows of the same
device whose count is no higher. -/
def SparesCounts (zero : V) (rows : List (CountersRow V)) : DataStatement (CountersRow V) → Prop
  | .insert resolution upserts given =>
    (∀ upsert ∈ upserts, ∀ update, upsert.update = some update → ∀ new ∈ given, ∀ old row,
      update old new = some row →
        (old.deviceId ≠ none → row.deviceId = old.deviceId) ∧
        (resolution = .replace → row.rowid = old.rowid ∧ row.deviceId = old.deviceId)) ∧
    (resolution = .replace → ∀ new ∈ given, (countersTable zero).check new = true →
      (∀ row ∈ rows, row.deviceId ≠ none → (countersTable zero).conflicts new row = true →
        row.NoLower new) ∧
      ∀ row ∈ given, row.deviceId ≠ none → (countersTable zero).conflicts new row = true →
        new.deviceId = row.deviceId)
  | .update resolution selects set => ∀ row ∈ rows, selects row = true →
    (row.deviceId ≠ none → (set row).deviceId = row.deviceId) ∧
    (resolution = .replace → ∀ other ∈ rows, other.rowid ≠ row.rowid →
      (countersTable zero).conflicts (set row) other = false ∧
      (selects other = true → (countersTable zero).conflicts (set row) (set other) = false))
  | .delete selects => ∀ row ∈ rows, selects row = true → row.deviceId = none

section Counters

variable {zero : V} {before rows : List (CountersRow V)} {old new : CountersRow V}

theorem CountersRow.NoLower.trans {a b c : CountersRow V} (hab : a.NoLower b) (hbc : b.NoLower c) :
    a.NoLower c := by
  obtain ⟨hid, x, y, hx, hy, hxy⟩ := hab
  obtain ⟨hid', y', z, hy', hz, hyz⟩ := hbc
  obtain rfl := Option.some.inj (hy.symm.trans hy')
  exact ⟨hid'.trans hid, x, z, hx, hz, hxy.trans hyz⟩

theorem count_isSome (h : (countersTable zero).check new = true) : ∃ a, new.count = some a := by
  have hcount := (Bool.and_eq_true_iff.mp h).1
  obtain ⟨a, ha, -⟩ := (Option.any_eq_true _ _).mp hcount
  exact ⟨a, ha⟩

theorem counters_conflicts : (countersTable zero).conflicts new old = true ↔
    new.rowid = old.rowid ∨ (new.deviceId ≠ none ∧ new.deviceId = old.deviceId) := by
  have hkeys : (countersTable zero).keys =
    [fun row => some [row.rowid], fun row => do return [← row.deviceId]] := rfl
  simp only [Schema.conflicts, hkeys, List.any_cons, List.any_nil, Bool.or_false, Schema.clash,
    Bool.or_eq_true, Bool.and_eq_true, decide_eq_true_eq]
  cases new.deviceId with
  | none => simp
  | some a => cases old.deviceId <;> simp

/-- A row that is set without an alarm of the trigger, and keeps its device, is no lower. -/
theorem noLower_of_set (hold : (countersTable zero).check old = true)
    (hnew : (countersTable zero).check new = true)
    (hraises : (countersTable zero).updateRaises old new = false)
    (hdevice : new.deviceId = old.deviceId) : old.NoLower new := by
  obtain ⟨a, ha⟩ := count_isSome hold
  obtain ⟨b, hb⟩ := count_isSome hnew
  refine ⟨hdevice, a, b, ha, hb, ?_⟩
  simpa [countersTable, ha, hb] using hraises

/-- Setting a row in nobody's way keeps the counts, if it keeps the row's. -/
theorem CountsKept.setRow (hvalid : (countersTable zero).Valid rows) (h : CountsKept before rows)
    (hold : old ∈ rows) (hnoLower : old.deviceId ≠ none → old.NoLower new)
    (hclear : ∀ row ∈ rows, row.rowid ≠ old.rowid →
      (countersTable zero).conflicts new row = false) :
    CountsKept before ((countersTable zero).setRow rows old new) := by
  intro row hrow hdevice
  obtain ⟨kept, hkept, hle⟩ := h row hrow hdevice
  by_cases hid : kept.rowid = old.rowid
  · obtain rfl := hvalid.eq_of_rowid hkept hold hid
    have hdevice' : kept.deviceId ≠ none := hle.1 ▸ hdevice
    exact ⟨new, Schema.mem_setRow.mpr (.inl ⟨rfl, kept, hkept, rfl⟩), hle.trans (hnoLower hdevice')⟩
  · exact ⟨kept, Schema.mem_setRow.mpr (.inr ⟨hkept, hid, hclear kept hkept hid⟩), hle⟩

theorem CountsKept.refl (hvalid : (countersTable zero).Valid before) :
    CountsKept before before := by
  intro row hrow _
  obtain ⟨a, ha⟩ := count_isSome (hvalid.checked row hrow)
  exact ⟨row, hrow, rfl, a, a, ha, ha, le_refl a⟩

/-- Every row has the rowid and the device of a row from before the statement or a given one. -/
def Traceable (before given rows : List (CountersRow V)) : Prop :=
  ∀ row ∈ rows, ∃ origin, (origin ∈ before ∨ origin ∈ given) ∧
    origin.rowid = row.rowid ∧ origin.deviceId = row.deviceId

/-- Adding a row keeps the counts when the rows in its way are of its device and no higher. -/
theorem CountsKept.addRow (h : CountsKept before rows)
    (hbefore : ∀ row ∈ before, row.deviceId ≠ none → (countersTable zero).conflicts new row = true →
      row.NoLower new)
    (hdevice : ∀ row ∈ rows, row.deviceId ≠ none → (countersTable zero).conflicts new row = true →
      new.deviceId = row.deviceId) : CountsKept before ((countersTable zero).addRow rows new) := by
  intro row hrow hnull
  obtain ⟨kept, hkept, hle⟩ := h row hrow hnull
  cases hconflict : (countersTable zero).conflicts new kept with
  | false => exact ⟨kept, Schema.mem_addRow.mpr (.inl ⟨hkept, hconflict⟩), hle⟩
  | true =>
    have hsame : new.deviceId = row.deviceId :=
      (hdevice kept hkept (hle.1 ▸ hnull) hconflict).trans hle.1
    have hclash : (countersTable zero).conflicts new row = true :=
      counters_conflicts.mpr (.inr ⟨hsame ▸ hnull, hsame⟩)
    exact ⟨new, Schema.mem_addRow.mpr (.inr rfl), hbefore row hrow hnull hclash⟩

theorem insert_keeps_counts {resolution : Resolution} {upserts : List (Upsert (CountersRow V))}
    {given : List (CountersRow V)} (hvalid : (countersTable zero).Valid before)
    (hspares : SparesCounts zero before (.insert resolution upserts given)) :
    ((countersTable zero).run before (.insert resolution upserts given)).Holds
      (CountsKept before) := by
  obtain ⟨hupserts, hreplace⟩ := hspares
  have hrun : ((countersTable zero).run before (.insert resolution upserts given)).Holds fun rows =>
      (countersTable zero).Valid rows ∧ CountsKept before rows ∧
        (resolution = .replace → Traceable before given rows) := by
    have hstart : Traceable before given before := fun row hrow => ⟨row, .inl hrow, rfl, rfl⟩
    refine each_holds ⟨hvalid, .refl hvalid, fun _ => hstart⟩ fun rows new hgiven hrows => ?_
    apply Schema.insertRow_holds hrows
    · intro upsert hupsert update hupdate old hold row hrow
      obtain ⟨hdevice, hsame⟩ := hupserts upsert hupsert update hupdate new hgiven old row hrow
      obtain ⟨hrows, hkept, htrace⟩ := hrows
      refine Schema.updateRow_holds ⟨hrows, hkept, htrace⟩ fun hraises hcheck hclear => ?_
      have hclear := hclear.resolve_left (by decide)
      refine ⟨hrows.setRow hcheck, hkept.setRow hrows hold ?_ hclear, ?_⟩
      · exact fun hnull => noLower_of_set (hrows.checked old hold) hcheck hraises (hdevice hnull)
      · intro hresolution other hother
        rcases Schema.mem_setRow.mp hother with ⟨rfl, -⟩ | ⟨hmem, -⟩
        · obtain ⟨origin, hmem, hid, horigin⟩ := htrace hresolution old hold
          obtain ⟨hid', hdevice'⟩ := hsame hresolution
          exact ⟨origin, hmem, hid.trans hid'.symm, horigin.trans hdevice'.symm⟩
        · exact htrace hresolution other hmem
    · intro hcheck _ hclear
      obtain ⟨hrows, hkept, htrace⟩ := hrows
      refine ⟨hrows.addRow hcheck, ?_, ?_⟩
      · rcases hclear with hresolution | hclear
        · obtain ⟨hbefore, hothers⟩ := hreplace hresolution new hgiven hcheck
          apply hkept.addRow hbefore
          intro row hrow hnull hconflict
          rcases counters_conflicts.mp hconflict with hid | ⟨-, hdevice⟩
          · obtain ⟨origin, hmem, hid', hdevice'⟩ := htrace hresolution row hrow
            have hclash : (countersTable zero).conflicts new origin = true :=
              counters_conflicts.mpr (.inl (hid.trans hid'.symm))
            rw [← hdevice'] at hnull ⊢
            rcases hmem with hmem | hmem
            · exact (hbefore origin hmem hnull hclash).1
            · exact hothers origin hmem hnull hclash
          · exact hdevice
        · intro row hrow hnull
          obtain ⟨kept, hmem, hle⟩ := hkept row hrow hnull
          exact ⟨kept, Schema.mem_addRow.mpr (.inl ⟨hmem, hclear kept hmem⟩), hle⟩
      · intro hresolution other hother
        rcases Schema.mem_addRow.mp hother with ⟨hmem, -⟩ | rfl
        · exact htrace hresolution other hmem
        · exact ⟨other, .inr hgiven, rfl, rfl⟩
  exact hrun.imp fun rows hrows => hrows.2.1

variable (zero) in
/-- The rows of an `UPDATE` that has come to the end of `done`. -/
structure Updating (before : List (CountersRow V)) (set : CountersRow V → CountersRow V)
    (done rows : List (CountersRow V)) : Prop where
  valid : (countersTable zero).Valid rows
  kept : CountsKept before rows
  waiting : ∀ row ∈ before, row ∉ done → row ∈ rows
  traceable : ∀ row ∈ rows, row ∈ before ∨ ∃ origin ∈ done, row = set origin

theorem Updating.skip {set : CountersRow V → CountersRow V} {done : List (CountersRow V)}
    (h : Updating zero before set done rows) (old : CountersRow V) :
    Updating zero before set (done ++ [old]) rows where
  valid := h.valid
  kept := h.kept
  waiting row hrow hdone := h.waiting row hrow fun hmem => hdone (List.mem_append_left _ hmem)
  traceable row hrow := by
    rcases h.traceable row hrow with hbefore | ⟨origin, horigin, hset⟩
    · exact .inl hbefore
    · exact .inr ⟨origin, List.mem_append_left _ horigin, hset⟩

/-- A row that waits is set, in nobody's way. -/
theorem Updating.set {set : CountersRow V → CountersRow V} {done : List (CountersRow V)}
    (h : Updating zero before set done rows) (hvalid : (countersTable zero).Valid before)
    (hold : old ∈ before) (hdone : old ∉ done)
    (hcheck : (countersTable zero).check (set old) = true)
    (hnoLower : old.deviceId ≠ none → old.NoLower (set old))
    (hclear : ∀ row ∈ rows, row.rowid ≠ old.rowid →
      (countersTable zero).conflicts (set old) row = false) :
    Updating zero before set (done ++ [old]) ((countersTable zero).setRow rows old (set old)) where
  valid := h.valid.setRow hcheck
  kept := h.kept.setRow h.valid (h.waiting old hold hdone) hnoLower hclear
  waiting row hrow hmem := by
    simp only [List.mem_append, List.mem_singleton, not_or] at hmem
    have hid : row.rowid ≠ old.rowid := fun hid => hmem.2 (hvalid.eq_of_rowid hrow hold hid)
    have hrows := h.waiting row hrow hmem.1
    exact Schema.mem_setRow.mpr (.inr ⟨hrows, hid, hclear row hrows hid⟩)
  traceable row hrow := by
    rcases Schema.mem_setRow.mp hrow with ⟨rfl, -⟩ | ⟨hmem, -⟩
    · exact .inr ⟨old, by simp, rfl⟩
    · exact (h.skip old).traceable row hmem

theorem update_keeps_counts {resolution : Resolution} {selects : CountersRow V → Bool}
    {set : CountersRow V → CountersRow V} (hvalid : (countersTable zero).Valid before)
    (hspares : SparesCounts zero before (.update resolution selects set)) :
    ((countersTable zero).run before (.update resolution selects set)).Holds
      (CountsKept before) := by
  have hnodup := hvalid.nodup.filter (fun row => selects row)
  have hrun : ((countersTable zero).run before (.update resolution selects set)).Holds fun rows =>
      ∃ done, Updating zero before set done rows := by
    refine each_traces ⟨hvalid, .refl hvalid, fun _ h _ => h, fun _ h => .inl h⟩ ?_
    intro done old rest rows hlist h
    have hselected : ∀ row, row ∈ done ∨ row = old → row ∈ before ∧ selects row = true := by
      intro row hrow
      refine List.mem_filter.mp ?_
      rw [← hlist]
      simp only [List.mem_append, List.mem_cons]
      exact hrow.imp_right .inl
    obtain ⟨hold, hselects⟩ := hselected old (.inr rfl)
    have hdone : old ∉ done := by
      rw [← hlist] at hnodup
      exact fun hmem => (List.nodup_append.mp hnodup).2.2 old hmem old (by simp) rfl
    have hmem := h.waiting old hold hdone
    obtain ⟨hdevice, hreplace⟩ := hspares old hold hselects
    split
    · rename_i row hcurrent
      obtain ⟨hrow, hid⟩ := Schema.current_spec hcurrent
      obtain rfl := h.valid.eq_of_rowid hrow hmem hid
      refine Schema.updateRow_holds (h.skip row) fun hraises hcheck hclear => ?_
      refine h.set hvalid hold hdone hcheck ?_ ?_
      · intro hnull
        exact noLower_of_set (h.valid.checked row hmem) hcheck hraises (hdevice hnull)
      · rcases hclear with hresolution | hclear
        · intro other hother hne
          rcases h.traceable other hother with hbefore | ⟨origin, horigin, rfl⟩
          · exact (hreplace hresolution other hbefore hne).1
          · obtain ⟨hbefore, hselects'⟩ := hselected origin (.inl horigin)
            have hne' : origin.rowid ≠ row.rowid := fun hid' =>
              hdone (hvalid.eq_of_rowid hbefore hold hid' ▸ horigin)
            exact (hreplace hresolution origin hbefore hne').2 hselects'
        · exact hclear
    · exact h.skip old
  exact hrun.imp fun rows ⟨_, hrows⟩ => hrows.kept

theorem delete_keeps_counts {selects : CountersRow V → Bool}
    (hvalid : (countersTable zero).Valid before)
    (hspares : SparesCounts zero before (.delete selects)) :
    ((countersTable zero).run before (.delete selects)).Holds (CountsKept before) := by
  have hrun : ((countersTable zero).run before (.delete selects)).Holds fun rows =>
      ∀ row ∈ before, row.deviceId ≠ none → row ∈ rows := by
    refine each_holds (fun _ h _ => h) fun rows old hselected hrows => ?_
    obtain ⟨hold, hselects⟩ := List.mem_filter.mp hselected
    refine Schema.deleteRow_holds fun _ row hrow hnull => List.mem_filter.mpr ⟨?_, ?_⟩
    · exact hrows row hrow hnull
    · have hid : row.rowid ≠ old.rowid := by
        intro hid
        obtain rfl := hvalid.eq_of_rowid hrow hold hid
        exact hnull (hspares row hrow hselects)
      exact decide_eq_true hid
  refine hrun.imp fun rows hrows row hrow hnull => ?_
  obtain ⟨a, ha⟩ := count_isSome (hvalid.checked row hrow)
  exact ⟨row, hrows row hrow hnull, rfl, a, a, ha, ha, le_refl a⟩

theorem execute_keeps_counts (hvalid : (countersTable zero).Valid before)
    {statement : DataStatement (CountersRow V)} (hspares : SparesCounts zero before statement) :
    CountsKept before ((countersTable zero).execute before statement) := by
  apply Schema.execute_holds (.refl hvalid)
  cases statement with
  | insert resolution upserts given => exact insert_keeps_counts hvalid hspares
  | update resolution selects set => exact update_keeps_counts hvalid hspares
  | delete selects => exact delete_keeps_counts hvalid hspares

theorem CountsKept.trans {after : List (CountersRow V)} (h : CountsKept before rows)
    (h' : CountsKept rows after) : CountsKept before after := by
  intro row hrow hnull
  obtain ⟨kept, hkept, hle⟩ := h row hrow hnull
  obtain ⟨new, hnew, hle'⟩ := h' kept hkept (hle.1 ▸ hnull)
  exact ⟨new, hnew, hle.trans hle'⟩

theorem run_valid {es : List (DataStatement (CountersRow V))}
    {ok : List (CountersRow V) → DataStatement (CountersRow V) → Prop}
    (hvalid : (countersTable zero).Valid before)
    (h : Run (statementStep (countersTable zero)) ok before es rows) :
    (countersTable zero).Valid rows := by
  refine h.preserves hvalid fun t e u ht _ hstep => ?_
  obtain rfl := Option.some.inj hstep
  exact Schema.execute_valid ht e

theorem run_keeps_counts {es : List (DataStatement (CountersRow V))}
    (hvalid : (countersTable zero).Valid before)
    (h : Run (statementStep (countersTable zero)) (SparesCounts zero) before es rows) :
    CountsKept before rows := by
  induction h with
  | nil => exact .refl hvalid
  | snoc hrun hspares hstep ih =>
    obtain rfl := Option.some.inj hstep
    exact ih.trans (execute_keeps_counts (run_valid hvalid hrun) hspares)

end Counters

/-- The `ON CONFLICT` clause of `save_counter`. -/
def saveCounterUpsert : Upsert (CountersRow V) where
  target := some 1
  update := some fun old new => some { old with count := new.count, updatedAt := new.updatedAt }

/-- The statement of `save_counter` spares the counts, whatever they are. -/
theorem saveCounter_spares (zero : V) (rows : List (CountersRow V)) (row : CountersRow V) :
    SparesCounts zero rows (.insert .abort [saveCounterUpsert] [row]) := by
  refine ⟨?_, fun h => by cases h⟩
  intro upsert hupsert update hupdate new _ old set hset
  obtain rfl := List.mem_singleton.mp hupsert
  obtain rfl := Option.some.inj hupdate
  obtain rfl := Option.some.inj hset
  exact ⟨fun _ => rfl, fun h => by cases h⟩

/-- Reports and events stay as they are in every run that replaces none, and the counts of the
devices stay and never fall in every run whose statements spare them. -/
theorem rows_kept (zero : V) :
    (∀ (es : List (Backend.ReportStatement V)) (s t : List (Backend.UsageReportsRow V)),
      Run Backend.ReportStatement.step Backend.ReportStatement.Keeps s es t → ∀ row ∈ s, row ∈ t) ∧
    (∀ (es : List (DataStatement (EventsRow V))) (s t : List (EventsRow V)),
      Run (statementStep eventsTable) (fun rows e => ¬eventsTable.Displaces rows e) s es t →
        ∀ row ∈ s, row ∈ t) ∧
    ∀ (es : List (DataStatement (CountersRow V))) (s t : List (CountersRow V)),
      (countersTable zero).Valid s →
        Run (statementStep (countersTable zero)) (SparesCounts zero) s es t → CountsKept s t := by
  refine ⟨fun es s t h => Backend.ReportStatement.run_keeps h, ?_, ?_⟩
  · intro es s t h row hrow
    refine h.preserves hrow fun t e u ht hkeeps hstep => ?_
    obtain rfl := Option.some.inj hstep
    exact eventsTable_appendOnly.execute_keeps hkeeps row ht
  · exact fun es s t hvalid h => run_keeps_counts hvalid h

section Sample

def sampleReportsRow (count : Int) : Backend.UsageReportsRow Int :=
  ⟨1, some 7, some count, some 0, some 0, some 0, some 0, some 0⟩

def sampleEventsRow (event : Int) : EventsRow Int :=
  ⟨1, some 0, some 7, some event, some 0, none, none, none⟩

def sampleCountersRow (count : Int) : CountersRow Int := ⟨1, some 7, some count, some 0⟩

/-- An `UPDATE` of a report is refused, an event is added, and a count is raised. -/
theorem rows_kept_sample :
    (∃ t, Run Backend.ReportStatement.step Backend.ReportStatement.Keeps [sampleReportsRow 5]
        [⟨fun _ => true, .update .abort (fun _ => true) fun _ => sampleReportsRow 6⟩] t ∧
      sampleReportsRow 5 ∈ t) ∧
    (∃ t, Run (statementStep eventsTable) (fun rows e => ¬eventsTable.Displaces rows e)
        [sampleEventsRow 1] [.insert .abort [] [{ sampleEventsRow 2 with id := 2 }]] t ∧
      sampleEventsRow 1 ∈ t) ∧
    Run (statementStep (countersTable 0)) (SparesCounts 0) [sampleCountersRow 5]
        [.insert .abort [saveCounterUpsert] [{ sampleCountersRow 6 with rowid := 2 }]]
        [sampleCountersRow 6] ∧
      CountsKept [sampleCountersRow 5] [sampleCountersRow 6] := by
  obtain ⟨hreports, hevents, hcounters⟩ := rows_kept (0 : Int)
  have hreportsRun : Run Backend.ReportStatement.step Backend.ReportStatement.Keeps
      [sampleReportsRow 5]
      [⟨fun _ => true, .update .abort (fun _ => true) fun _ => sampleReportsRow 6⟩]
      [sampleReportsRow 5] := .single id rfl
  have heventsRun : Run (statementStep eventsTable) (fun rows e => ¬eventsTable.Displaces rows e)
      [sampleEventsRow 1] [.insert .abort [] [{ sampleEventsRow 2 with id := 2 }]]
      [sampleEventsRow 1, { sampleEventsRow 2 with id := 2 }] := .single id rfl
  have hcountersRun : Run (statementStep (countersTable 0)) (SparesCounts 0) [sampleCountersRow 5]
      [.insert .abort [saveCounterUpsert] [{ sampleCountersRow 6 with rowid := 2 }]]
      [sampleCountersRow 6] := .single (saveCounter_spares _ _ _) rfl
  refine ⟨⟨_, hreportsRun, hreports _ _ _ hreportsRun _ (by simp)⟩,
    ⟨_, heventsRun, hevents _ _ _ heventsRun _ (by simp)⟩, hcountersRun,
    hcounters _ _ _ ⟨by decide, by simp⟩ hcountersRun⟩

/-- `INSERT OR REPLACE` rewrites a report, an event and a count, and `DELETE` removes a count. -/
theorem rows_replaced :
    (∃ t, Run Backend.ReportStatement.step Always [sampleReportsRow 5]
        [⟨fun _ => true, .insert .replace [] [sampleReportsRow 3]⟩] t ∧ sampleReportsRow 5 ∉ t) ∧
    (∃ t, Run (statementStep eventsTable) Always [sampleEventsRow 1]
        [.insert .replace [] [sampleEventsRow 2]] t ∧ sampleEventsRow 1 ∉ t) ∧
    (∃ t, Run (statementStep (countersTable 0)) Always [sampleCountersRow 5]
        [.insert .replace [] [{ sampleCountersRow 3 with rowid := 2 }]] t ∧
      ¬CountsKept [sampleCountersRow 5] t) ∧
    ∃ t, Run (statementStep (countersTable 0)) Always [sampleCountersRow 5]
        [.delete fun _ => true] t ∧ ¬CountsKept [sampleCountersRow 5] t := by
  refine ⟨⟨[sampleReportsRow 3], .single trivial rfl, by decide⟩,
    ⟨[sampleEventsRow 2], .single trivial rfl, by decide⟩,
    ⟨[{ sampleCountersRow 3 with rowid := 2 }], .single trivial rfl, ?_⟩,
    ⟨[], .single trivial rfl, ?_⟩⟩
  · intro h
    obtain ⟨new, hnew, -, a, b, ha, hb, hle⟩ := h _ (List.mem_singleton_self _) (by decide)
    obtain rfl := List.mem_singleton.mp hnew
    obtain rfl := Option.some.inj ha
    obtain rfl := Option.some.inj hb
    exact absurd hle (by decide)
  · intro h
    obtain ⟨new, hnew, -⟩ := h _ (List.mem_singleton_self _) (by decide)
    cases hnew

end Sample

end BleUsageMeter.Gateway
