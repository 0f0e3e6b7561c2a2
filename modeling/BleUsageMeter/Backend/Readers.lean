import BleUsageMeter.Backend.Isolation

/-! Requests that read in several statements while others write.  Where every report that is stored
is still admitted by its device, the two `SELECT`s of `usage_in_period` do not need to see one state
of the tables: the decision of `get_license` is that of some state in between.  The counts of
`get_usage` are of one state only if no report of the device is stored between its statements. -/

namespace BleUsageMeter.Backend

open Kit

variable {ι : Type} [DecidableEq ι] {scheme : SignatureScheme} {py : Pydantic} {calls : ι → Call}
  {db : Db} {id : String} {es fs : List ι} {i : ι}

/-- Every row that a step adds is above the marks of its device. -/
def Admitted (c : Tasks ι Db (Except PyException Response)) (i : ι) : Prop :=
  ∀ row ∈ (c.step i).store.usageReports, row ∉ c.store.usageReports →
    (c.store.devices.get? row.deviceId).any (fun device =>
      decide (device.lastAcceptedSequence < row.sequence ∧ device.lastAcceptedCount ≤ row.count))

instance (c : Tasks ι Db (Except PyException Response)) (i : ι) : Decidable (Admitted c i) :=
  inferInstanceAs (Decidable (∀ row ∈ _, _ → _))

variable (scheme py calls db) in
/-- The states that the calls lead to when their statements come in this order. -/
abbrev Reaches (es : List ι) (c : Tasks ι Db (Except PyException Response)) : Prop :=
  Run (fun c i => some (Tasks.step c i)) Admitted (serving scheme py db calls) es c

/-- What may happen to a device while a request for it is served. -/
structure Db.Grows (id : String) (db after : Db) : Prop where
  increasing : (after.reportsOf id).Pairwise ReportRow.Precedes
  registered : (db.devices.get? id).isSome → (after.devices.get? id).isSome
  reports : after.reportsOf id = db.reportsOf id ∨
    ∃ row, after.reportsOf id = db.reportsOf id ++ [row]

section Steps

variable {call : Call} {after : Db} {c : Tasks ι Db (Except PyException Response)}

theorem Db.Changes.consistent (h : db.Changes call after) (hdb : db.Consistent)
    (hadmitted : ∀ row ∈ after.usageReports, row ∉ db.usageReports →
      (db.devices.get? row.deviceId).any (fun device =>
        decide (device.lastAcceptedSequence < row.sequence ∧
          device.lastAcceptedCount ≤ row.count))) : after.Consistent := by
  cases h with
  | nothing => exact hdb
  | device row habsent hmarks hdevices hreports _ =>
    exact hdb.insertDevice habsent hmarks hdevices hreports
  | report report now hnew _ happends =>
    have hmem : reportRow report now ∈ after.usageReports := by
      rw [happends.usageReports]
      exact List.mem_append_right _ (List.mem_singleton_self _)
    have hany := hadmitted _ hmem fun hold => hnew (List.mem_map_of_mem hold)
    obtain ⟨device, hdevice, hadmits⟩ := (Option.any_eq_true _ _).mp hany
    exact hdb.append hdevice (of_decide_eq_true hadmits) happends
  | policy other row _ _ hdevices hreports =>
    have hrows := reportsOf_congr hreports
    refine ⟨fun id => hrows id ▸ hdb.increasing id, hreports ▸ hdb.natural, ?_⟩
    intro id device hget
    rw [hdevices] at hget
    rw [hrows, hdb.marks hget]

theorem Db.Changes.reports (h : db.Changes call after) (id : String) :
    after.reportsOf id = db.reportsOf id ∨
      ∃ row, after.reportsOf id = db.reportsOf id ++ [row] := by
  cases h with
  | nothing => exact .inl rfl
  | device row _ _ _ hreports _ => exact .inl (reportsOf_congr hreports id)
  | report report now _ _ happends =>
    rw [Db.reportsOf_append happends]
    split
    · exact .inr ⟨_, rfl⟩
    · exact .inl (List.append_nil _)
  | policy other row _ _ _ hreports => exact .inl (reportsOf_congr hreports id)

theorem Db.Changes.registered (h : db.Changes call after)
    (hknown : (db.devices.get? id).isSome) : (after.devices.get? id).isSome := by
  cases h with
  | nothing => exact hknown
  | device row _ _ hdevices _ _ =>
    rw [hdevices]
    exact Db.references_insert hknown
  | report report now _ _ happends =>
    rw [happends.devices]
    split
    · rw [Option.isSome_map]
      exact hknown
    · exact hknown
  | policy other row _ _ hdevices _ =>
    rw [hdevices]
    exact hknown

theorem Db.Changes.policy_eq (h : db.Changes call after) (hcall : ∀ row, call ≠ .setPolicy id row) :
    after.policies.get? id = db.policies.get? id := by
  cases h with
  | nothing => rfl
  | device row _ _ _ _ hpolicies => rw [hpolicies]
  | report report now _ _ happends => rw [happends.policies]
  | policy other row hsets hpolicies _ _ =>
    have hother : id ≠ other := by
      rintro rfl
      exact hcall row hsets
    rw [hpolicies, Dict.get?_insert_ne _ _ hother]

/-- A step changes the tables as its call may, or not at all. -/
theorem serving_changes (h : Reaches scheme py calls db es c) (i : ι) :
    c.step i = c ∨ c.store.Changes (calls i) (c.step i).store := by
  have hobeys := Tasks.obeys_of_run (P := fun i s t => s.Changes (calls i) t) h
    (fun j => callTask_obeys scheme py (calls j)) i
  exact Tasks.step_obeys hobeys

theorem serving_consistent (hdb : db.Consistent) (h : Reaches scheme py calls db es c) :
    c.store.Consistent := by
  induction h with
  | nil => exact hdb
  | snoc hrun hok hstep ih =>
    obtain rfl := Option.some.inj hstep
    rcases serving_changes hrun _ with hsame | hchanges
    · rw [hsame]
      exact ih
    · exact hchanges.consistent ih hok

end Steps

/-! ### Licence decisions -/

section License

variable {now : Datetime} {today : Date} {policy : PolicyRecord} {cutoff : String} {s t : Db}

variable (py id now) in
/-- `get_license` has come as far as `usage_in_period`. -/
structure Measures (policy : PolicyRecord) (cutoff : String) (s : Db) : Prop where
  registered : (s.devices.get? id).isSome
  load : Policy.loadPolicy py s id = .ok (some policy)
  limits : ∃ quota days, policy.quotaUnits = some quota ∧ policy.periodDays = some days ∧
    days ≠ 0 ∧ Policy.cutoff days now = .ok cutoff

variable (py id now today) in
/-- How far `get_license` has come, and what it knows by then. -/
inductive Reading : Serving → Db → Prop
  | start (s : Db) : Reading (licenseTask id now today py) s
  | load {s : Db} (registered : (s.devices.get? id).isSome) :
      Reading (decideTask id now today py) s
  | period {policy : PolicyRecord} {cutoff : String} {s : Db}
      (measures : Measures py id now policy cutoff s) :
      Reading (periodTask id today policy cutoff) s
  | baseline {policy : PolicyRecord} {cutoff : String} {last : ReportRow} {s : Db}
      (measures : Measures py id now policy cutoff s) (mem : last ∈ s.reportsOf id) :
      Reading (baselineTask id today policy cutoff last) s
  | answered (answer : Except PyException Response) (s : Db) : Reading (.done answer) s

theorem licenseTask_alone_of_registered (h : (s.devices.get? id).isSome) :
    (licenseTask id now today py).alone s = (decideTask id now today py).alone s := by
  obtain ⟨device, hdevice⟩ := Option.isSome_iff_exists.mp h
  rw [licenseTask, Task.alone_read, hdevice]

theorem Measures.measureTask (h : Measures py id now policy cutoff s) :
    measureTask id now today (some policy) = periodTask id today policy cutoff := by
  obtain ⟨quota, days, hquota, hdays, hne, hcutoff⟩ := h.limits
  simp only [Backend.measureTask, hquota, hdays, hne, ne_eq, not_false_eq_true, if_true, hcutoff]

theorem Measures.alone (h : Measures py id now policy cutoff s) :
    ((licenseTask id now today py).alone s).2 = licenseAnswer id today (some policy)
      (some (Policy.usageAfter cutoff (s.reportsOf id))) := by
  rw [licenseTask_alone_of_registered h.registered, decideTask, Task.alone_read, h.load]
  dsimp only
  rw [h.measureTask, periodTask_alone]

theorem Measures.grows (h : Measures py id now policy cutoff s) (hst : s.Grows id t)
    (hpolicy : t.policies.get? id = s.policies.get? id) : Measures py id now policy cutoff t where
  registered := hst.registered h.registered
  load := (loadPolicy_within py hpolicy).trans h.load
  limits := h.limits

/-- A row that is new, and above the one that was found. -/
theorem baseline_concat {rows : List ReportRow} {row last : ReportRow}
    (h : (rows ++ [row]).Pairwise ReportRow.Precedes) (hlast : last ∈ rows) :
    max 0 (last.count - baseline cutoff (rows ++ [row])) =
        max 0 (last.count - baseline cutoff rows) ∨
      max 0 (last.count - baseline cutoff (rows ++ [row])) =
        Policy.usageAfter cutoff (rows ++ [row]) := by
  rw [usageAfter_concat h]
  by_cases hbefore : textLt row.windowEnd cutoff
  · have hfilter : Policy.before cutoff (rows ++ [row]) = Policy.before cutoff rows ++ [row] := by
      simp [Policy.before, hbefore]
    have hsorted : (Policy.before cutoff rows ++ [row]).Pairwise ReportRow.Precedes := by
      rw [← hfilter]
      exact h.filter _
    have hle := ((List.pairwise_append.mp h).2.2 last hlast row (by simp)).2
    right
    rw [if_pos hbefore, baseline, hfilter, latest_concat hsorted]
    simp only [Option.map_some, Option.getD_some]
    omega
  · left
    have hfilter : Policy.before cutoff (rows ++ [row]) = Policy.before cutoff rows := by
      simp [Policy.before, hbefore]
    rw [baseline, hfilter, ← baseline]

theorem reading_measureTask (hregistered : (s.devices.get? id).isSome)
    {policy : Option PolicyRecord} (hload : Policy.loadPolicy py s id = .ok policy) :
    Reading py id now today (measureTask id now today policy) s := by
  cases policy with
  | none => exact .answered _ s
  | some policy =>
    unfold measureTask
    dsimp only
    cases hquota : policy.quotaUnits with
    | none => exact .answered _ s
    | some quota =>
      cases hdays : policy.periodDays with
      | none => exact .answered _ s
      | some days =>
        dsimp only
        split
        · rename_i hne
          cases hcutoff : Policy.cutoff days now with
          | error e => exact .answered _ s
          | ok cutoff =>
            exact .period ⟨hregistered, hload, quota, days, hquota, hdays, hne, hcutoff⟩
        · exact .answered _ s

theorem Reading.own {rest : Serving} (h : Reading py id now today rest s) :
    rest.After s fun t later => t = s ∧ Reading py id now today later s := by
  cases h with
  | start s =>
    refine ⟨rfl, ?_⟩
    dsimp only
    cases hdevice : s.devices.get? id with
    | none => exact .answered _ s
    | some device => exact .load (Option.isSome_of_mem hdevice)
  | load hregistered =>
    refine ⟨rfl, ?_⟩
    dsimp only
    cases hload : Policy.loadPolicy py s id with
    | error e => exact .answered _ s
    | ok policy => exact reading_measureTask hregistered hload
  | period hmeasures =>
    refine ⟨rfl, ?_⟩
    dsimp only
    cases hlatest : latest (s.reportsOf id) with
    | none => exact .answered _ s
    | some last => exact .baseline hmeasures (latest_mem hlatest)
  | baseline hmeasures hlast => exact ⟨rfl, .answered _ s⟩
  | answered answer s => trivial

/-- A change of another call leaves the answer as it is, or makes it that of `get_license` as of
now. -/
theorem Reading.others {rest : Serving} (h : Reading py id now today rest s)
    (hst : s.Grows id t) (hpolicy : t.policies.get? id = s.policies.get? id) :
    Reading py id now today rest t ∧ ((rest.alone t).2 = (rest.alone s).2 ∨
      (rest.alone t).2 = ((licenseTask id now today py).alone t).2) := by
  cases h with
  | start s => exact ⟨.start t, .inr rfl⟩
  | load hregistered =>
    have hregistered' := hst.registered hregistered
    exact ⟨.load hregistered', .inr (by rw [licenseTask_alone_of_registered hregistered'])⟩
  | period hmeasures =>
    have hmeasures' := hmeasures.grows hst hpolicy
    exact ⟨.period hmeasures', .inr (by rw [hmeasures'.alone, periodTask_alone])⟩
  | baseline hmeasures hlast =>
    have hmeasures' := hmeasures.grows hst hpolicy
    have hincreasing := hst.increasing
    rw [hmeasures'.alone, baselineTask_alone, baselineTask_alone]
    rcases hst.reports with hsame | ⟨row, hmore⟩
    · rw [hsame]
      exact ⟨.baseline hmeasures' (hsame ▸ hlast), .inl rfl⟩
    · refine ⟨.baseline hmeasures' (by rw [hmore]; exact List.mem_append_left _ hlast), ?_⟩
      rw [hmore] at hincreasing ⊢
      rcases baseline_concat hincreasing hlast with heq | heq
      · exact .inl (by rw [heq])
      · exact .inr (by rw [heq])
  | answered answer s => exact ⟨.answered answer t, .inl rfl⟩

variable {c : Tasks ι Db (Except PyException Response)} {answer : Except PyException Response}

/-- However the statements of other calls come between, the answer of `get_license` is what it
would be in one of the states that the tables pass through between its first statement and its
last, as long as the policies of the device stay from the first on. -/
theorem license_linearizes (ps qs : List ι) (hdb : db.Consistent)
    (hi : calls i = .request (.getLicense id now today)) (hps : i ∉ ps)
    (hrun : Reaches scheme py calls db (ps ++ i :: qs) c)
    (hpolicy : ∀ j ∈ qs, ∀ row, calls j ≠ .setPolicy id row)
    (hdone : c.task i = .done answer) :
    ∃ ws, ws <+: i :: qs ∧
      (((ps ++ ws).foldl Tasks.step (serving scheme py db calls)).task i).result? = none ∧
      answer = getLicense py id now today
        ((ps ++ ws).foldl Tasks.step (serving scheme py db calls)).store := by
  have hlinearizes : Tasks.Linearizes (licenseTask id now today py) (Reading py id now today)
      fun s t => s.Grows id t ∧ t.policies.get? id = s.policies.get? id :=
    { own := fun _ _ h => h.own
      others := fun _ _ _ h henv => h.others henv.1 henv.2 }
  -- the tables as the first statement finds them
  obtain ⟨first, hearlier, hserved⟩ := hrun.split
  have hfirst : ps.foldl Tasks.step (serving scheme py db calls) = first :=
    Tasks.foldl_of_run hearlier
  have htask : first.task i = licenseTask id now today py := by
    rw [← hfirst, Tasks.foldl_task hps]
    show callTask scheme py (calls i) = _
    rw [hi]
    rfl
  have henv : ∀ fs d j, fs ++ [j] <+: i :: qs →
      Run (fun c i => some (Tasks.step c i)) Admitted first fs d → Admitted d j → j ≠ i →
      d.step j = d ∨ (d.store.Grows id (d.step j).store ∧
        (d.step j).store.policies.get? id = d.store.policies.get? id) := by
    intro fs d j hfs hd hok hji
    have hreaches : Reaches scheme py calls db (ps ++ fs) d := hearlier.trans hd
    rcases serving_changes hreaches j with hsame | hchanges
    · exact .inl hsame
    · have hj : j ∈ qs := by
        have hmem : j ∈ i :: qs := hfs.subset (List.mem_append_right _ (List.mem_singleton_self j))
        exact (List.mem_cons.mp hmem).resolve_left hji
      have hafter := serving_consistent hdb (hreaches.snoc hok rfl)
      exact .inr ⟨⟨hafter.increasing id, hchanges.registered, hchanges.reports id⟩,
        hchanges.policy_eq (hpolicy j hj)⟩
  obtain ⟨ws, hws, hbusy, hanswer⟩ :=
    hlinearizes.of_run hserved htask rfl (.start first.store) henv
  rw [← hfirst, ← List.foldl_append] at hbusy hanswer
  rw [hdone] at hanswer
  refine ⟨ws, hws, hbusy, ?_⟩
  exact hanswer.trans (congrArg Prod.snd (callTask_alone scheme py _ (.getLicense id now today)))

/-- A device over its quota asks for its licence, after its policy was set anew and while a report
for the year 1970 comes in. -/
def sampleReading : Nat → Call
  | 0 => .request (.getLicense "d" (sampleDay 20) (sampleDay 20).date)
  | 1 => .request (.postReport (sampleReport 120 1 .epoch) (sampleDay 20) none)
  | _ => .setPolicy "d" { samplePolicy with quotaUnits := .integer 30 }

theorem license_linearizes_sample : ∃ c answer,
    Reaches .sample samplePydantic sampleReading overQuotaDb ([2] ++ 0 :: [0, 0, 1, 1, 0]) c ∧
    c.task 0 = .done answer ∧ ∃ ws, ws <+: [0, 0, 0, 1, 1, 0] ∧
      ((([2] ++ ws).foldl Tasks.step
        (serving .sample samplePydantic overQuotaDb sampleReading)).task 0).result? = none ∧
      answer = getLicense samplePydantic "d" (sampleDay 20) (sampleDay 20).date
        (([2] ++ ws).foldl Tasks.step
          (serving .sample samplePydantic overQuotaDb sampleReading)).store := by
  have heval : ((Run.execute (fun c i => if Admitted c i then some (Tasks.step c i) else none)
      (serving .sample samplePydantic overQuotaDb sampleReading) [2, 0, 0, 0, 1, 1, 0]).any
        fun c => (c.task 0).result?.isSome) = true := by
    decide +kernel
  obtain ⟨c, hrun, hanswered⟩ := (Option.any_eq_true _ _).mp heval
  have hreaches : Reaches .sample samplePydantic sampleReading overQuotaDb
      ([2] ++ 0 :: [0, 0, 1, 1, 0]) c := Run.of_execute_guarded hrun
  cases htask : c.task 0 with
  | statement effect next =>
    rw [htask] at hanswered
    cases hanswered
  | done answer =>
    have hpolicy : ∀ j ∈ [0, 0, 1, 1, 0], ∀ row, sampleReading j ≠ .setPolicy "d" row := by
      intro j hj row
      have hother : j = 0 ∨ j = 1 := by
        simp only [List.mem_cons, List.not_mem_nil, or_false] at hj
        omega
      rcases hother with rfl | rfl <;> exact Call.noConfusion
    exact ⟨c, answer, hreaches, htask, license_linearizes [2] [0, 0, 1, 1, 0]
      overQuotaDb_reachable.consistent rfl (by decide) hreaches hpolicy htask⟩

end License

/-! ### Usage -/

section Usage

variable {c : Tasks ι Db (Except PyException Response)} {ps qs : List ι} {device : Device}

/-- Rows are only ever added. -/
theorem reportsOf_earlier (h : Reaches scheme py calls db es c) (hps : ps <+: es) (id : String) :
    (ps.foldl Tasks.step (serving scheme py db calls)).store.reportsOf id <+:
      c.store.reportsOf id := by
  induction h with
  | nil =>
    obtain rfl := List.prefix_nil.mp hps
    exact List.prefix_rfl
  | @snoc es d u j hrun hok hstep ih =>
    rcases List.prefix_concat_iff.mp hps with rfl | hps
    · rw [Tasks.foldl_of_run (hrun.snoc hok hstep)]
    · obtain rfl := Option.some.inj hstep
      refine (ih hps).trans ?_
      rcases serving_changes hrun j with hsame | hchanges
      · rw [hsame]
      · rcases hchanges.reports id with hsame | ⟨row, hmore⟩
        · rw [hsame]
        · rw [hmore]
          exact List.prefix_append _ _

/-- Tables with the same marks of a device, one a later state of the other, have the same rows. -/
theorem reportsOf_eq_of_marks {s t : Db} (hs : s.Consistent) (ht : t.Consistent)
    {other : Device} (hdevice : s.devices.get? id = some device)
    (hother : t.devices.get? id = some other) (hmarks : device.marks = other.marks)
    (hearlier : s.reportsOf id <+: t.reportsOf id) : t.reportsOf id = s.reportsOf id := by
  obtain ⟨tail, htail⟩ := hearlier
  rw [hs.marks hdevice, ht.marks hother] at hmarks
  cases tail using List.reverseRecOn with
  | nil => rw [← htail, List.append_nil]
  | append_singleton init last _ =>
    exfalso
    have hlast : last ∈ t.reportsOf id := by
      rw [← htail]
      simp
    have hincreasing := ht.increasing id
    rw [← htail, ← List.append_assoc, marksAfter_concat] at hmarks
    rw [← htail, ← List.append_assoc] at hincreasing
    have hsequence := congrArg Prod.fst hmarks
    cases hrow : (s.reportsOf id).getLast? with
    | none =>
      have hnatural := (ht.natural last (List.mem_of_mem_filter hlast)).1
      simp only [marksAfter, hrow] at hsequence
      omega
    | some row =>
      have hmem : row ∈ s.reportsOf id ++ init :=
        List.mem_append_left _ (List.mem_of_getLast? hrow)
      have hlt := ((List.pairwise_append.mp hincreasing).2.2 row hmem last (by simp)).1
      simp only [marksAfter, hrow] at hsequence
      omega

/-- A usage that is answered is that of a registered device. -/
theorem getUsage_eq {s : Db} {n : Nat} (h : getUsage id s = .usage
    { deviceId := id
      totalCount := device.lastAcceptedCount
      lastAcceptedSequence := device.lastAcceptedSequence
      reports := n }) : ∃ other, s.devices.get? id = some other ∧ other.marks = device.marks ∧
        (s.reportsOf id).length = n := by
  unfold getUsage at h
  cases hdevice : s.devices.get? id with
  | none =>
    rw [hdevice] at h
    cases h
  | some other =>
    rw [hdevice] at h
    injection h with husage
    injection husage with _ hcount hsequence hreports
    exact ⟨other, rfl, Prod.ext hsequence hcount, hreports⟩

theorem usageTask_answers (hi : calls i = .request (.getUsage id)) (hps : i ∉ ps) (hqs : i ∉ qs)
    (hdevice : (ps.foldl Tasks.step (serving scheme py db calls)).store.devices.get? id =
      some device) :
    ((ps ++ i :: (qs ++ [i])).foldl Tasks.step (serving scheme py db calls)).task i =
      .done (.ok (.usage
        { deviceId := id
          totalCount := device.lastAcceptedCount
          lastAcceptedSequence := device.lastAcceptedSequence
          reports := (((ps ++ i :: qs).foldl Tasks.step
            (serving scheme py db calls)).store.reportsOf id).length })) := by
  have hsplit : ps ++ i :: (qs ++ [i]) = (ps ++ i :: qs) ++ [i] := by simp
  have hstart : (ps.foldl Tasks.step (serving scheme py db calls)).task i = usageTask id := by
    rw [Tasks.foldl_task hps]
    show callTask scheme py (calls i) = _
    rw [hi]
    rfl
  have hread : ((ps.foldl Tasks.step (serving scheme py db calls)).step i).task i =
      countTask id device := by
    rw [Tasks.step_statement hstart]
    simp only [Function.update_self, hdevice]
  have hcount : ((ps ++ i :: qs).foldl Tasks.step (serving scheme py db calls)).task i =
      countTask id device := by
    rw [List.foldl_append, List.foldl_cons, Tasks.foldl_task hqs, hread]
  rw [hsplit, List.foldl_append, List.foldl_cons, List.foldl_nil, Tasks.step_statement hcount]
  simp only [Function.update_self]

/-- `get_usage` answers with the marks at its first statement and the number of rows at its second.
They are of one state that the tables pass through just when no report of the device is stored in
between. -/
theorem usage_of_one_state_iff (ps qs : List ι) (hi : calls i = .request (.getUsage id))
    (hps : i ∉ ps) (hqs : i ∉ qs)
    (hdevice : (ps.foldl Tasks.step (serving scheme py db calls)).store.devices.get? id =
      some device) :
    let first := (ps.foldl Tasks.step (serving scheme py db calls)).store
    let second := ((ps ++ i :: qs).foldl Tasks.step (serving scheme py db calls)).store
    let last := (ps ++ i :: (qs ++ [i])).foldl Tasks.step (serving scheme py db calls)
    let answer : Except PyException Response := .ok (.usage
      { deviceId := id
        totalCount := device.lastAcceptedCount
        lastAcceptedSequence := device.lastAcceptedSequence
        reports := (second.reportsOf id).length })
    last.task i = .done answer ∧
      (db.Consistent → Reaches scheme py calls db (ps ++ i :: (qs ++ [i])) last →
        ((∃ ws, ws <+: ps ++ i :: (qs ++ [i]) ∧ answer =
          .ok (getUsage id (ws.foldl Tasks.step (serving scheme py db calls)).store)) ↔
        second.reportsOf id = first.reportsOf id)) := by
  intro first second last answer
  refine ⟨usageTask_answers hi hps hqs hdevice, fun hdb hrun => ?_⟩
  have hsplit : ps ++ i :: (qs ++ [i]) = (ps ++ i :: qs) ++ [i] := by simp
  have hbefore : ps <+: ps ++ i :: qs := List.prefix_append _ _
  have hsecond : ps ++ i :: qs <+: ps ++ i :: (qs ++ [i]) := hsplit ▸ List.prefix_append _ _
  have hreaches : ∀ ws, ws <+: ps ++ i :: (qs ++ [i]) → Reaches scheme py calls db ws
      (ws.foldl Tasks.step (serving scheme py db calls)) := fun ws hws => Tasks.run_earlier hrun hws
  constructor
  · rintro ⟨ws, hws, hanswer⟩
    obtain ⟨other, hother, hmarks, hlength⟩ := getUsage_eq (Except.ok.inj hanswer).symm
    have hrows : (ws.foldl Tasks.step (serving scheme py db calls)).store.reportsOf id =
        second.reportsOf id := by
      rcases List.prefix_or_prefix_of_prefix hws hsecond with hle | hle
      · exact (reportsOf_earlier (hreaches _ hsecond) hle id).eq_of_length hlength
      · exact ((reportsOf_earlier (hreaches _ hws) hle id).eq_of_length hlength.symm).symm
    have hearlier : first.reportsOf id <+: second.reportsOf id :=
      reportsOf_earlier (hreaches _ hsecond) hbefore id
    rw [← hrows] at hearlier ⊢
    exact reportsOf_eq_of_marks (serving_consistent hdb (hreaches _ (hbefore.trans hsecond)))
      (serving_consistent hdb (hreaches _ hws)) hdevice hother hmarks.symm hearlier
  · intro hsame
    refine ⟨ps, hbefore.trans hsecond, ?_⟩
    show answer = .ok (getUsage id first)
    rw [getUsage, hdevice, ← hsame]

/-- The usage of a device is asked for while a report of it comes in. -/
def sampleAsking : Nat → Call
  | 0 => .request (.getUsage "d")
  | _ => .request (.postReport (sampleReport 120 1 .epoch) (sampleDay 20) none)

/-- An answer that no state of the tables gives. -/
theorem usage_of_one_state_iff_sample : ∃ c answer,
    Reaches .sample samplePydantic sampleAsking overQuotaDb ([] ++ 0 :: ([1, 1] ++ [0])) c ∧
    c.task 0 = .done answer ∧ ¬∃ ws, ws <+: [0, 1, 1, 0] ∧ answer = .ok (getUsage "d"
      (ws.foldl Tasks.step (serving .sample samplePydantic overQuotaDb sampleAsking)).store) := by
  have heval : (Run.execute (fun c i => if Admitted c i then some (Tasks.step c i) else none)
      (serving .sample samplePydantic overQuotaDb sampleAsking) [0, 1, 1, 0]).isSome := by
    decide +kernel
  have hregistered : (overQuotaDb.devices.get? "d").isSome := by decide +kernel
  have hstored : ¬([0, 1, 1].foldl Tasks.step
      (serving .sample samplePydantic overQuotaDb sampleAsking)).store.reportsOf "d" =
        overQuotaDb.reportsOf "d" := by
    decide +kernel
  obtain ⟨c, hrun⟩ := Option.isSome_iff_exists.mp heval
  obtain ⟨device, hdevice⟩ := Option.isSome_iff_exists.mp hregistered
  have hreaches : Reaches .sample samplePydantic sampleAsking overQuotaDb
      ([] ++ 0 :: ([1, 1] ++ [0])) c := Run.of_execute_guarded hrun
  obtain rfl := Tasks.foldl_of_run hreaches
  have hasking : sampleAsking 0 = .request (.getUsage "d") := rfl
  obtain ⟨hanswer, hiff⟩ := usage_of_one_state_iff [] [1, 1] hasking List.not_mem_nil (by decide)
    hdevice
  exact ⟨_, _, hreaches, hanswer,
    fun h => hstored ((hiff overQuotaDb_reachable.consistent hreaches).mp h)⟩

end Usage

end BleUsageMeter.Backend
