import BleUsageMeter.Backend.Calls

/-! Devices do not disturb one another.  All that the calls for a device read and write is the
device's own rows, so any two interleavings of calls that agree on one device give this device the
same answers and the same rows, whatever they do to the others.  What the devices do share is
SQLite's write lock: an exception because another call holds it for too long is part of the call
that it ends, and the two interleavings agree on it. -/

namespace BleUsageMeter.Backend

open Kit

/-- What the tables hold of one device. -/
structure DeviceView where
  device : Option Device
  reports : List ReportRow
  policy : Option PolicyRow
deriving DecidableEq

def Db.viewOf (id : String) (db : Db) : DeviceView :=
  ⟨db.devices.get? id, db.reportsOf id, db.policies.get? id⟩

section View

variable {db after s t : Db} {id : String}

theorem viewOf_eq_iff : s.viewOf id = t.viewOf id ↔ s.devices.get? id = t.devices.get? id ∧
    s.reportsOf id = t.reportsOf id ∧ s.policies.get? id = t.policies.get? id := by
  simp [Db.viewOf]

theorem reportsOf_congr (h : s.usageReports = t.usageReports) (id : String) :
    s.reportsOf id = t.reportsOf id := by
  rw [Db.reportsOf, h, Db.reportsOf]

/-- A change of another device. -/
theorem Db.Changes.viewOf {call : Call} (h : db.Changes call after) (hne : id ≠ call.deviceId) :
    after.viewOf id = db.viewOf id := by
  rw [viewOf_eq_iff]
  cases h with
  | nothing => exact ⟨rfl, rfl, rfl⟩
  | device row _ _ hdevices hreports hpolicies =>
    rw [hdevices, hpolicies, Dict.get?_insert_ne _ _ hne]
    exact ⟨rfl, reportsOf_congr hreports id, rfl⟩
  | report report now _ hid happends =>
    rw [happends.devices, happends.policies, Db.reportsOf_append happends, hid, if_neg hne,
      if_neg hne, List.append_nil]
    exact ⟨rfl, rfl, rfl⟩
  | policy other row hcall hpolicies hdevices hreports =>
    have hother : id ≠ other := by
      rw [hcall] at hne
      exact hne
    rw [hdevices, hpolicies, Dict.get?_insert_ne _ _ hother]
    exact ⟨rfl, reportsOf_congr hreports id, rfl⟩

/-! ### Statements on tables that look the same -/

theorem holds_iff (db : Db) (row : ReportRow) : row.key ∈ db.usageReports.map ReportRow.key ↔
    row.key ∈ (db.reportsOf row.deviceId).map ReportRow.key := by
  rw [List.mem_map, List.mem_map]
  constructor
  · rintro ⟨other, hother, hkey⟩
    have hid : other.deviceId = row.deviceId := congrArg Prod.fst hkey
    exact ⟨other, List.mem_filter.mpr ⟨hother, by simpa using hid⟩, hkey⟩
  · rintro ⟨other, hother, hkey⟩
    exact ⟨other, (List.mem_filter.mp hother).1, hkey⟩

/-- A statement that takes tables which look the same to tables which look the same. -/
def Db.Respects (id : String) (effect : Db → Except PyException Db) : Prop :=
  ∀ s t : Db, s.viewOf id = t.viewOf id →
    (effect s).map (Db.viewOf id) = (effect t).map (Db.viewOf id)

theorem insertReport_respects (row : ReportRow) :
    Db.Respects row.deviceId (Db.insertReport row) := by
  intro s t h
  obtain ⟨hdevice, hreports, hpolicy⟩ := viewOf_eq_iff.mp h
  by_cases hbind : Db.Bindable row.count ∧ Db.Bindable row.sequence
  · have hconflict : ∀ db : Db,
        (row.key ∈ db.usageReports.map ReportRow.key ∨ db.devices.get? row.deviceId = none) ↔
        (row.key ∈ (db.reportsOf row.deviceId).map ReportRow.key ∨
          db.devices.get? row.deviceId = none) := fun db => by rw [holds_iff]
    by_cases hs : row.key ∈ s.usageReports.map ReportRow.key ∨
        s.devices.get? row.deviceId = none
    · have ht := (hconflict s).mp hs
      rw [hreports, hdevice, ← hconflict] at ht
      rw [Db.insertReport_conflict hbind hs, Db.insertReport_conflict hbind ht]
    · have ht := mt (hconflict s).mpr hs
      rw [hreports, hdevice, ← hconflict] at ht
      obtain ⟨hsnew, hsknown⟩ := not_or.mp hs
      obtain ⟨htnew, htknown⟩ := not_or.mp ht
      obtain ⟨s', hs', hsreports, hsdevices, hspolicies⟩ :=
        Db.insertReport_appends hbind hsnew (Option.isSome_iff_ne_none.mpr hsknown)
      obtain ⟨t', ht', htreports, htdevices, htpolicies⟩ :=
        Db.insertReport_appends hbind htnew (Option.isSome_iff_ne_none.mpr htknown)
      rw [hs', ht']
      apply congrArg Except.ok
      rw [viewOf_eq_iff, hsdevices, htdevices, hspolicies, htpolicies]
      refine ⟨hdevice, ?_, hpolicy⟩
      unfold Db.reportsOf at hreports ⊢
      rw [hsreports, htreports, List.filter_append, List.filter_append, hreports]
  · rw [Db.insertReport_overflow hbind, Db.insertReport_overflow hbind]

theorem updateMarks_respects (id : String) (sequence count : Int) :
    Db.Respects id (Db.updateMarks id sequence count) := by
  intro s t h
  obtain ⟨hdevice, hreports, hpolicy⟩ := viewOf_eq_iff.mp h
  by_cases hbind : Db.Bindable sequence ∧ Db.Bindable count
  · obtain ⟨s', hs', hsreports, hsdevices, hspolicies⟩ := Db.updateMarks_spec id s hbind
    obtain ⟨t', ht', htreports, htdevices, htpolicies⟩ := Db.updateMarks_spec id t hbind
    rw [hs', ht']
    apply congrArg Except.ok
    rw [viewOf_eq_iff, hsdevices, htdevices, hspolicies, htpolicies, Dict.get?_modify,
      Dict.get?_modify, hdevice, reportsOf_congr hsreports, reportsOf_congr htreports]
    exact ⟨rfl, hreports, hpolicy⟩
  · rw [Db.updateMarks, Db.updateMarks, if_pos hbind, if_pos hbind]

end View

/-! ### Transactions on tables that look the same -/

/-- The connections look the same, and so does what a rollback restores. -/
structure Connection.Same (id : String) (a b : Connection) : Prop where
  db : a.db.viewOf id = b.db.viewOf id
  saved : a.saved.map (Db.viewOf id) = b.saved.map (Db.viewOf id)

theorem Connection.Same.close {id : String} {a b : Connection} (h : a.Same id b) :
    a.close.viewOf id = b.close.viewOf id := by
  have hsaved := h.saved
  unfold Connection.close
  cases ha : a.saved with
  | none =>
    cases hb : b.saved with
    | none => exact h.db
    | some db => simp [ha, hb] at hsaved
  | some db =>
    cases hb : b.saved with
    | none => simp [ha, hb] at hsaved
    | some other => simpa [ha, hb] using hsaved

namespace Sql

variable {α β : Type} {id : String} {x : Sql α}

/-- Code that ends the same way on connections that look the same. -/
def Respects (id : String) (x : Sql α) : Prop :=
  ∀ a b : Connection, a.Same id b →
    (x.exec a).1 = (x.exec b).1 ∧ (x.exec a).2.Same id (x.exec b).2

theorem respects_pure (a : α) : (pure a : Sql α).Respects id := fun _ _ h => ⟨rfl, h⟩

theorem respects_throw (e : PyException) : (throw e : Sql α).Respects id := fun _ _ h => ⟨rfl, h⟩

theorem Respects.bind (hx : x.Respects id) {f : α → Sql β} (hf : ∀ a, (f a).Respects id) :
    (x >>= f).Respects id := by
  intro a b h
  obtain ⟨hresult, hconn⟩ := hx a b h
  rw [exec_bind, exec_bind]
  rcases hxa : x.exec a with ⟨ra, ca⟩
  rcases hxb : x.exec b with ⟨rb, cb⟩
  rw [hxa, hxb] at hresult hconn
  obtain rfl : ra = rb := hresult
  cases ra with
  | ok value => exact hf value ca cb hconn
  | error e => exact ⟨rfl, hconn⟩

theorem Respects.tryCatch (hx : x.Respects id) {handle : PyException → Sql α}
    (hhandle : ∀ e, (handle e).Respects id) : (tryCatch x handle).Respects id := by
  intro a b h
  obtain ⟨hresult, hconn⟩ := hx a b h
  rw [exec_tryCatch, exec_tryCatch]
  rcases hxa : x.exec a with ⟨ra, ca⟩
  rcases hxb : x.exec b with ⟨rb, cb⟩
  rw [hxa, hxb] at hresult hconn
  obtain rfl : ra = rb := hresult
  cases ra with
  | ok value => exact ⟨rfl, hconn⟩
  | error e => exact hhandle e ca cb hconn

theorem respects_execute (fault : Option Statement) (statement : Statement)
    {effect : Db → Except PyException Db} (heffect : Db.Respects id effect) :
    (Connection.execute fault statement effect).Respects id := by
  intro a b h
  rw [Connection.exec_execute, Connection.exec_execute]
  split
  · exact ⟨rfl, h⟩
  · cases statement with
    | begin => exact ⟨rfl, h.db, congrArg some h.db⟩
    | commit => exact ⟨rfl, h.db, rfl⟩
    | rollback => exact ⟨rfl, h.close, rfl⟩
    | insert | update =>
      have hmap := heffect a.db b.db h.db
      simp only [Connection.apply]
      cases ha : effect a.db with
      | ok sa =>
        cases hb : effect b.db with
        | ok sb =>
          rw [ha, hb] at hmap
          exact ⟨rfl, Except.ok.inj hmap, h.saved⟩
        | error e =>
          rw [ha, hb] at hmap
          cases hmap
      | error e =>
        cases hb : effect b.db with
        | ok sb =>
          rw [ha, hb] at hmap
          cases hmap
        | error e' =>
          rw [ha, hb] at hmap
          obtain rfl := Except.error.inj hmap
          exact ⟨rfl, h⟩

theorem respects_ok (id : String) : Db.Respects id .ok := fun _ _ h => congrArg Except.ok h

/-- The transaction of two writes. -/
theorem respects_transaction (fault : Option Statement) {insert update : Db → Except PyException Db}
    (hinsert : Db.Respects id insert) (hupdate : Db.Respects id update) (answer conflict : α) :
    (transaction fault insert update answer conflict).Respects id := by
  refine .tryCatch ?_ fun e => ?_
  · exact (respects_execute fault .begin (respects_ok id)).bind fun _ =>
      (respects_execute fault .insert hinsert).bind fun _ =>
      (respects_execute fault .update hupdate).bind fun _ =>
      (respects_execute fault .commit (respects_ok id)).bind fun _ => respects_pure answer
  · cases e with
    | integrityError =>
      exact (respects_execute fault .rollback (respects_ok id)).bind fun _ =>
        respects_pure conflict
    | _ => exact respects_throw _

theorem Respects.withConnection (hx : x.Respects id) {s t : Db} (h : s.viewOf id = t.viewOf id) :
    (withConnection s x).1.viewOf id = (withConnection t x).1.viewOf id ∧
      (withConnection s x).2 = (withConnection t x).2 := by
  obtain ⟨hresult, hconn⟩ := hx ⟨s, none⟩ ⟨t, none⟩ ⟨h, rfl⟩
  exact ⟨hconn.close, hresult⟩

end Sql

/-! ### Calls -/

section Calls

variable {scheme : SignatureScheme} {py : Pydantic} {s t : Db} {id : String}

theorem storeDevice_viewOf (db : Db) (req : RegisterDeviceRequest) (now : Datetime) :
    (storeDevice db req now).1.viewOf req.deviceId =
      { db.viewOf req.deviceId with
        device := some ((db.devices.get? req.deviceId).getD (deviceRow req now)) } := by
  unfold storeDevice Db.insertDevice
  cases hdevice : db.devices.get? req.deviceId with
  | none =>
    show (⟨(db.devices.insert req.deviceId (deviceRow req now)).get? req.deviceId,
      db.reportsOf req.deviceId, db.policies.get? req.deviceId⟩ : DeviceView) = _
    rw [Dict.get?_insert_self]
    rfl
  | some device =>
    show db.viewOf req.deviceId = _
    rw [Db.viewOf, hdevice]
    rfl

theorem storeDevice_within (req : RegisterDeviceRequest) (now : Datetime)
    (h : s.viewOf req.deviceId = t.viewOf req.deviceId) :
    (storeDevice s req now).1.viewOf req.deviceId = (storeDevice t req now).1.viewOf req.deviceId ∧
      (storeDevice s req now).2 = (storeDevice t req now).2 := by
  have hdevice := (viewOf_eq_iff.mp h).1
  refine ⟨by rw [storeDevice_viewOf, storeDevice_viewOf, h, hdevice], ?_⟩
  unfold storeDevice Db.insertDevice
  rw [hdevice]
  cases t.devices.get? req.deviceId with
  | none => rfl
  | some device => rfl

theorem screenReport_within (scheme : SignatureScheme) (report : UsageReport)
    (h : s.viewOf report.deviceId = t.viewOf report.deviceId) :
    screenReport scheme s report = screenReport scheme t report := by
  rw [screenReport, verifyReport, fetchDevice, (viewOf_eq_iff.mp h).1]
  rfl

theorem screenRegistration_within (req : RegisterDeviceRequest)
    (h : s.viewOf req.deviceId = t.viewOf req.deviceId) :
    screenRegistration s req = screenRegistration t req := by
  rw [screenRegistration, (viewOf_eq_iff.mp h).1]
  rfl

theorem loadPolicy_within (py : Pydantic) (h : s.policies.get? id = t.policies.get? id) :
    Policy.loadPolicy py s id = Policy.loadPolicy py t id := by
  rw [Policy.loadPolicy, h]
  rfl

theorem measureTask_within (now : Datetime) (today : Date) (policy : Option PolicyRecord) :
    (measureTask id now today policy).Within (Db.viewOf id) := by
  unfold measureTask
  repeat' split
  all_goals try exact .done _
  refine .read (fun s t h => ?_) fun db => ?_
  · rw [(viewOf_eq_iff.mp h).2.1]
  · cases latest (db.reportsOf id) with
    | none => exact .done _
    | some last =>
      refine .read (fun s t h => ?_) fun _ => .done _
      rw [(viewOf_eq_iff.mp h).2.1]

theorem usageTask_within (id : String) : (usageTask id).Within (Db.viewOf id) := by
  refine .read (fun s t h => ?_) fun db => ?_
  · rw [(viewOf_eq_iff.mp h).1]
  · cases db.devices.get? id with
    | none => exact .done _
    | some device =>
      refine .read (fun s t h => ?_) fun _ => .done _
      rw [(viewOf_eq_iff.mp h).2.1]

theorem licenseTask_within (py : Pydantic) (now : Datetime) (today : Date) :
    (licenseTask id now today py).Within (Db.viewOf id) := by
  refine .read (fun s t h => ?_) fun db => ?_
  · rw [(viewOf_eq_iff.mp h).1]
  · cases db.devices.get? id with
    | none => exact .done _
    | some device =>
      refine .read (fun s t h => ?_) fun db => ?_
      · rw [loadPolicy_within py (viewOf_eq_iff.mp h).2.2]
      · cases Policy.loadPolicy py db id with
        | error e => exact .done _
        | ok policy => exact measureTask_within now today policy

theorem setPolicy_within (row : PolicyRow) (h : s.viewOf id = t.viewOf id) :
    ((policyTask id row).alone s).1.viewOf id = ((policyTask id row).alone t).1.viewOf id ∧
      ((policyTask id row).alone s).2 = ((policyTask id row).alone t).2 := by
  obtain ⟨hdevice, hreports, hpolicy⟩ := viewOf_eq_iff.mp h
  rw [policyTask, Task.alone_last, Task.alone_last]
  by_cases hknown : (s.devices.get? id).isSome
  · have hknown' : (t.devices.get? id).isSome := hdevice ▸ hknown
    rw [Db.setPolicy, Db.setPolicy, dif_pos hknown, dif_pos hknown']
    refine ⟨?_, rfl⟩
    show (⟨s.devices.get? id, s.reportsOf id, (s.policies.insert id row).get? id⟩ : DeviceView) =
      ⟨t.devices.get? id, t.reportsOf id, (t.policies.insert id row).get? id⟩
    rw [hdevice, hreports, Dict.get?_insert_self, Dict.get?_insert_self]
  · have hunknown : ¬(t.devices.get? id).isSome := hdevice ▸ hknown
    rw [Db.setPolicy, Db.setPolicy, dif_neg hknown, dif_neg hunknown]
    exact ⟨h, rfl⟩

/-- What a call does depends on the rows of its device alone, and so does its answer. -/
theorem callTask_within (scheme : SignatureScheme) (py : Pydantic) (call : Call) :
    (callTask scheme py call).Within (Db.viewOf call.deviceId) := by
  cases call with
  | setPolicy id row =>
    exact .last (fun s t h => (setPolicy_within row h).1) fun s t h => (setPolicy_within row h).2
  | request r =>
    cases r with
    | registerDevice req now =>
      refine .read (fun s t h => ?_) fun db => ?_
      · have hscreen := screenRegistration_within req h
        rw [hscreen]
      · cases screenRegistration db req with
        | some answer => exact .done answer
        | none =>
          exact .last (fun s t h => (storeDevice_within req now h).1)
            fun s t h => (storeDevice_within req now h).2
    | postReport report now fault =>
      have hstore : (storeReport report now fault).Respects report.deviceId :=
        Sql.respects_transaction fault (insertReport_respects (reportRow report now))
          (updateMarks_respects _ _ _) _ _
      refine .read (fun s t h => ?_) fun db => ?_
      · have hscreen := screenReport_within scheme report h
        rw [hscreen]
      · cases screenReport scheme db report with
        | some answer => exact .done answer
        | none =>
          exact .last (fun s t h => (hstore.withConnection h).1)
            fun s t h => (hstore.withConnection h).2
    | getUsage deviceId => exact usageTask_within deviceId
    | getLicense deviceId now today => exact licenseTask_within py now today

variable {ι : Type} [DecidableEq ι]

variable (scheme py) in
/-- The calls before their first statements. -/
def serving (db : Db) (calls : ι → Call) : Tasks ι Db (Except PyException Response) :=
  ⟨db, fun i => callTask scheme py (calls i)⟩

/-- Two interleavings of calls, from tables that look the same for a device: if the calls for the
device are the same and their statements come in the same order, then its rows and all its answers
are the same, whatever is called for other devices and whatever fails there. -/
theorem devices_isolated (scheme : SignatureScheme) (py : Pydantic) (id : String) {db db' : Db}
    (hdb : db.viewOf id = db'.viewOf id) {calls calls' : ι → Call}
    (hcalls : ∀ i, (calls i).deviceId = id ∨ (calls' i).deviceId = id → calls i = calls' i)
    {es fs : List ι} (hschedule : es.filter (fun i => (calls i).deviceId = id) =
      fs.filter fun i => (calls i).deviceId = id) :
    let c := es.foldl Tasks.step (serving scheme py db calls)
    let d := fs.foldl Tasks.step (serving scheme py db' calls')
    c.store.viewOf id = d.store.viewOf id ∧
      ∀ i, (calls i).deviceId = id → c.task i = d.task i := by
  have hstart : Tasks.SameView (Db.viewOf id) (fun i => decide ((calls i).deviceId = id))
      (serving scheme py db calls) (serving scheme py db' calls') := by
    have houtside : ∀ call : Call, call.deviceId ≠ id →
        (callTask scheme py call).Outside (Db.viewOf id) := fun call hne =>
      (callTask_obeys scheme py call).weaken fun s t h => h.viewOf (Ne.symm hne)
    refine ⟨hdb, fun i hi => ?_, fun i hi => ?_, fun i hi => ?_, fun i hi => ?_⟩
    · exact congrArg (callTask scheme py) (hcalls i (.inl (of_decide_eq_true hi)))
    · exact of_decide_eq_true hi ▸ callTask_within scheme py (calls i)
    · exact houtside _ (of_decide_eq_false hi)
    · refine houtside _ fun hid => of_decide_eq_false hi ?_
      rw [hcalls i (.inr hid)]
      exact hid
  have hend := hstart.schedules hschedule
  exact ⟨hend.store, fun i hi => hend.task i (decide_eq_true hi)⟩

/-- A device is registered and reports, with `other` at work on a second device. -/
def sampleCalls (other : Call) : Nat → Call
  | 0 => .request (.registerDevice sampleRegistration .epoch)
  | 1 => .request (.postReport (sampleReport 7 0 .epoch) .epoch none)
  | _ => other

def sampleOther : Call :=
  .request (.registerDevice
    { deviceId := "e", publicKey := Base64.b64encode (SignatureScheme.sample.publicKey (0 : UInt8))
      label := none, publicKey_length := sampleRegistration.publicKey_length } .epoch)

/-- The second device comes between the statements of the first, or reads once at the end. -/
theorem devices_isolated_sample :
    let c := [0, 2, 0, 2, 1, 2, 1].foldl Tasks.step
      (serving .sample samplePydantic .empty (sampleCalls sampleOther))
    let d := [0, 0, 1, 1, 2].foldl Tasks.step
      (serving .sample samplePydantic .empty (sampleCalls (.request (.getUsage "e"))))
    (d.store.viewOf "d").reports.length = 1 ∧ c.store.viewOf "d" = d.store.viewOf "d" := by
  have hother : ¬(("e" : String) = "d" ∨ ("e" : String) = "d") := by decide
  have hcalls : ∀ i : Nat, (sampleCalls sampleOther i).deviceId = "d" ∨
      (sampleCalls (.request (.getUsage "e")) i).deviceId = "d" →
        sampleCalls sampleOther i = sampleCalls (.request (.getUsage "e")) i := by
    intro i hi
    match i with
    | 0 => rfl
    | 1 => rfl
    | i + 2 => exact absurd hi hother
  exact ⟨by decide +kernel,
    (devices_isolated .sample samplePydantic "d" rfl hcalls (by decide)).1⟩

end Calls

end BleUsageMeter.Backend
