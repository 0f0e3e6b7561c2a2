import BleUsageMeter.Backend.Race

/-! Registrations and reports that are posted at once.  `register_device` looks for the device in
one statement and inserts it in another.  The primary key keeps the first key of a device, and every
registration has its structured answer exactly when none inserts a device that has appeared since
it looked. -/

namespace BleUsageMeter.Backend

open Kit

/-- A request that writes. -/
inductive Post
  | device (req : RegisterDeviceRequest) (now : Datetime)
  | report (req : ReportRequest)

/-- The key decodes to the 32 bytes of an Ed25519 public key. -/
def RegisterDeviceRequest.KeyOk (req : RegisterDeviceRequest) : Prop :=
  ∃ raw, Base64.b64decode req.publicKey = .ok raw ∧ raw.length = 32

/-- The answer to a registration of a device that is registered. -/
def deviceExists : Response :=
  rejection .deviceExists "device already registered; rotate explicitly"

/-- `register_device` up to its `INSERT`: what it answers, if it answers. -/
def screenRegistration (db : Db) (req : RegisterDeviceRequest) :
    Option (Except PyException Response) :=
  match Base64.b64decode req.publicKey with
  | .error _ => some (.ok (rejection .badPublicKey "public_key is not valid base64"))
  | .ok raw =>
    if raw.length ≠ 32 then
      some (.ok (rejection .badPublicKey "Ed25519 public key must decode to 32 bytes"))
    else if (db.devices.get? req.deviceId).isSome then some (.ok deviceExists)
    else none

/-- The row that `register_device` inserts. -/
def deviceRow (req : RegisterDeviceRequest) (now : Datetime) : Device :=
  { publicKey := req.publicKey, label := req.label, registeredAt := utcnowIso now }

/-- The `INSERT` of `register_device`. -/
def storeDevice (db : Db) (req : RegisterDeviceRequest) (now : Datetime) :
    Db × Except PyException Response :=
  match db.insertDevice req.deviceId (deviceRow req now) with
  | .ok db => (db, .ok (.registered req.deviceId))
  | .error e => (db, .error e)

/-- `register_device` and `post_report`, each as what it reads first and what it then writes. -/
def postHandler (scheme : SignatureScheme) :
    TwoPhase Db Post (Except PyException Response) where
  check db
    | .device req _ => screenRegistration db req
    | .report req => (reportHandler scheme).check db req
  act db
    | .device req now => storeDevice db req now
    | .report req => (reportHandler scheme).act db req

theorem postHandler_serial_device (scheme : SignatureScheme) (db : Db)
    (req : RegisterDeviceRequest) (now : Datetime) :
    (postHandler scheme).serial db (.device req now) = registerDevice req now db := by
  simp only [TwoPhase.serial, postHandler, screenRegistration, registerDevice]
  cases Base64.b64decode req.publicKey with
  | error e => rfl
  | ok raw =>
    by_cases hlength : raw.length = 32
    · by_cases hexists : (db.devices.get? req.deviceId).isSome
      · simp only [hlength, hexists, ne_eq, not_true_eq_false, if_false, if_true, deviceExists]
      · simp only [hlength, hexists, ne_eq, not_true_eq_false, if_false, Bool.false_eq_true]
        rfl
    · simp only [hlength, ne_eq, not_false_eq_true, if_true]

/-- The stored public key of a device. -/
def Db.keyOf (db : Db) (id : String) : Option String :=
  (db.devices.get? id).map Device.publicKey

section Statements

variable {db : Db} {req : RegisterDeviceRequest} {now : Datetime}

theorem screenRegistration_cases (db : Db) (req : RegisterDeviceRequest) :
    (¬req.KeyOk ∧ ∃ detail,
      screenRegistration db req = some (.ok (rejection .badPublicKey detail))) ∨
    (req.KeyOk ∧ (db.devices.get? req.deviceId).isSome ∧
      screenRegistration db req = some (.ok deviceExists)) ∨
    (req.KeyOk ∧ db.devices.get? req.deviceId = none ∧ screenRegistration db req = none) := by
  unfold screenRegistration RegisterDeviceRequest.KeyOk
  cases Base64.b64decode req.publicKey with
  | error e => exact .inl ⟨by simp, _, rfl⟩
  | ok raw =>
    by_cases hlength : raw.length = 32
    · simp only [hlength, ne_eq, not_true_eq_false, if_false]
      cases hdevice : db.devices.get? req.deviceId with
      | none => exact .inr (.inr ⟨⟨raw, rfl, hlength⟩, rfl, rfl⟩)
      | some device => exact .inr (.inl ⟨⟨raw, rfl, hlength⟩, rfl, rfl⟩)
    · simp only [hlength, ne_eq, not_false_eq_true, if_true]
      refine .inl ⟨?_, _, rfl⟩
      rintro ⟨raw', hraw, hlength'⟩
      exact hlength (Except.ok.inj hraw ▸ hlength')

theorem storeDevice_absent (h : db.devices.get? req.deviceId = none) (now : Datetime) :
    ∃ after, storeDevice db req now = (after, .ok (.registered req.deviceId)) ∧
      after.devices = db.devices.insert req.deviceId (deviceRow req now) := by
  simp only [storeDevice, Db.insertDevice, h, Option.isSome_none, Bool.false_eq_true, if_false]
  exact ⟨_, rfl, rfl⟩

theorem storeDevice_present (h : (db.devices.get? req.deviceId).isSome) (now : Datetime) :
    storeDevice db req now = (db, .error .integrityError) := by
  simp only [storeDevice, Db.insertDevice, h, if_true]

theorem keyOf_insert {after : Db} {id : String} {device : Device}
    (h : after.devices = db.devices.insert id device) (j : String) :
    after.keyOf j = if j = id then some device.publicKey else db.keyOf j := by
  unfold Db.keyOf
  rw [h, Dict.get?_insert]
  split <;> rfl

theorem keyOf_act_report (scheme : SignatureScheme) (db : Db) (req : ReportRequest) (id : String) :
    ((reportHandler scheme).act db req).1.keyOf id = db.keyOf id := by
  rcases act_outcome scheme db req with ⟨hsame, -⟩ | ⟨-, happends, -⟩
  · rw [hsame]
  · unfold Db.keyOf
    rw [happends.devices]
    split
    · rw [Option.map_map]
      rfl
    · rfl

end Statements

section Steps

variable {ι : Type} [DecidableEq ι] {scheme : SignatureScheme} {req : ι → Post} {db : Db}
  {schedule : List ι} {c d : Conf ι Db (Except PyException Response)} {i : ι}

variable (req c d i) in
/-- A step that inserts the device of `i`, which was absent. -/
structure Inserts (r : RegisterDeviceRequest) (now : Datetime) : Prop where
  request : req i = .device r now
  phase : c.phase i = .checked
  absent : c.store.devices.get? r.deviceId = none
  devices : d.store.devices = c.store.devices.insert r.deviceId (deviceRow r now)
  done : d.phase i = .done (.ok (.registered r.deviceId))
  others : ∀ j, j ≠ i → d.phase j = c.phase j

theorem step_device {r : RegisterDeviceRequest} {now : Datetime} (hreq : req i = .device r now)
    (hstep : (postHandler scheme).step req c i = some d) :
    (∀ j, j ≠ i → d.phase j = c.phase j) ∧
    ((c.phase i = .waiting ∧ d.store = c.store ∧ ¬r.KeyOk ∧
        ∃ detail, d.phase i = .done (.ok (rejection .badPublicKey detail))) ∨
      (c.phase i = .waiting ∧ d.store = c.store ∧ r.KeyOk ∧
        (c.store.devices.get? r.deviceId).isSome ∧ d.phase i = .done (.ok deviceExists)) ∨
      (c.phase i = .waiting ∧ d.store = c.store ∧ r.KeyOk ∧ d.phase i = .checked) ∨
      Inserts req c d i r now ∨
      (c.phase i = .checked ∧ (c.store.devices.get? r.deviceId).isSome ∧ d.store = c.store ∧
        d.phase i = .done (.error .integrityError))) := by
  by_cases hphase : c.phase i = .checked
  · obtain ⟨hstore, hdone, hother⟩ := TwoPhase.step_act hstep hphase
    have hact : (postHandler scheme).act c.store (req i) = storeDevice c.store r now := by
      rw [hreq]
      rfl
    rw [hact] at hstore hdone
    refine ⟨hother, .inr (.inr (.inr ?_))⟩
    cases hdevice : c.store.devices.get? r.deviceId with
    | none =>
      obtain ⟨after, hafter, hdevices⟩ := storeDevice_absent hdevice now
      rw [hafter] at hstore hdone
      exact .inl ⟨hreq, hphase, hdevice, by rw [hstore, hdevices], hdone, hother⟩
    | some device =>
      rw [storeDevice_present (Option.isSome_of_mem hdevice) now] at hstore hdone
      exact .inr ⟨hphase, rfl, hstore, hdone⟩
  · obtain ⟨hwaiting, hstore, hcheck, hother⟩ := TwoPhase.step_check hstep hphase
    have hscreen : (postHandler scheme).check c.store (req i) = screenRegistration c.store r := by
      rw [hreq]
      rfl
    rw [hscreen] at hcheck
    refine ⟨hother, ?_⟩
    rcases screenRegistration_cases c.store r with
      ⟨hkey, detail, h⟩ | ⟨hkey, hsome, h⟩ | ⟨hkey, -, h⟩
    · rw [h] at hcheck
      rcases hcheck with ⟨-, hnone⟩ | ⟨answer, hdone, hanswer⟩
      · cases hnone
      · exact .inl ⟨hwaiting, hstore, hkey, detail, by rw [hdone, ← Option.some.inj hanswer]⟩
    · rw [h] at hcheck
      rcases hcheck with ⟨-, hnone⟩ | ⟨answer, hdone, hanswer⟩
      · cases hnone
      · exact .inr (.inl ⟨hwaiting, hstore, hkey, hsome,
          by rw [hdone, ← Option.some.inj hanswer]⟩)
    · rw [h] at hcheck
      rcases hcheck with ⟨hchecked, -⟩ | ⟨answer, -, hanswer⟩
      · exact .inr (.inr (.inl ⟨hwaiting, hstore, hkey, hchecked⟩))
      · cases hanswer

theorem step_report {r : ReportRequest} (hreq : req i = .report r)
    (hstep : (postHandler scheme).step req c i = some d) :
    (∀ j, j ≠ i → d.phase j = c.phase j) ∧ ∀ id, d.store.keyOf id = c.store.keyOf id := by
  by_cases hphase : c.phase i = .checked
  · obtain ⟨hstore, -, hother⟩ := TwoPhase.step_act hstep hphase
    have hact : (postHandler scheme).act c.store (req i) =
        (reportHandler scheme).act c.store r := by
      rw [hreq]
      rfl
    rw [hact] at hstore
    exact ⟨hother, fun id => by rw [hstore, keyOf_act_report]⟩
  · obtain ⟨-, hstore, -, hother⟩ := TwoPhase.step_check hstep hphase
    exact ⟨hother, fun id => by rw [hstore]⟩

/-! ### Exactly one registration of a device -/

/-- The answer to `i` is that it registered the device of `r`. -/
def RegisteredIn (req : ι → Post) (c : Conf ι Db (Except PyException Response)) (i : ι)
    (r : RegisterDeviceRequest) : Prop :=
  (∃ now, req i = .device r now) ∧ c.phase i = .done (.ok (.registered r.deviceId))

variable (scheme req db c) in
/-- What holds of registrations at a moment of a run from `db`. -/
structure WriteOnce : Prop where
  one_winner : ∀ i r now answer, req i = .device r now → r.KeyOk → c.phase i = .done answer →
    db.keyOf r.deviceId = none →
    ∃ j winner, RegisteredIn req c j winner ∧ winner.deviceId = r.deviceId
  no_second : ∀ i j r r', RegisteredIn req c i r → RegisteredIn req c j r' →
    r.deviceId = r'.deviceId → i = j
  none_if_known : ∀ i r, RegisteredIn req c i r → db.keyOf r.deviceId = none
  winner_key : ∀ i r, RegisteredIn req c i r → c.store.keyOf r.deviceId = some r.publicKey
  known_key : ∀ id key, db.keyOf id = some key → c.store.keyOf id = some key
  row_kept : ∀ i r now d, req i = .device r now → (postHandler scheme).step req c i = some d →
    ∀ id device, c.store.devices.get? id = some device → d.store.devices.get? id = some device
  answered : ∀ i r now answer, req i = .device r now → c.phase i = .done answer →
    (r.KeyOk ∧ (answer = .ok (.registered r.deviceId) ∨ answer = .ok deviceExists)) ∨
      (¬r.KeyOk ∧ ∃ detail, answer = .ok (rejection .badPublicKey detail))

/-- The device of a registration that is about to insert is still absent. -/
def InsertsFresh (req : ι → Post) (c : Conf ι Db (Except PyException Response)) (i : ι) : Prop :=
  c.phase i = .checked → ∀ r now, req i = .device r now → c.store.devices.get? r.deviceId = none

variable (req db c) in
/-- The invariant of the runs whose insertions are fresh. -/
structure Registry : Prop where
  no_second : ∀ i j r r', RegisteredIn req c i r → RegisteredIn req c j r' →
    r.deviceId = r'.deviceId → i = j
  none_if_known : ∀ i r, RegisteredIn req c i r → db.keyOf r.deviceId = none
  winner_key : ∀ i r, RegisteredIn req c i r → c.store.keyOf r.deviceId = some r.publicKey
  known_key : ∀ id key, db.keyOf id = some key → c.store.keyOf id = some key
  has_winner : ∀ id key, c.store.keyOf id = some key → db.keyOf id = none →
    ∃ j winner, RegisteredIn req c j winner ∧ winner.deviceId = id
  checked : ∀ i r now, req i = .device r now → c.phase i = .checked → r.KeyOk
  answered : ∀ i r now answer, req i = .device r now → c.phase i = .done answer →
    (r.KeyOk ∧ (answer = .ok (.registered r.deviceId) ∨ answer = .ok deviceExists) ∧
      ∃ key, c.store.keyOf r.deviceId = some key) ∨
    (¬r.KeyOk ∧ ∃ detail, answer = .ok (rejection .badPublicKey detail))

omit [DecidableEq ι] in
theorem start_registry : Registry req db (TwoPhase.start db) := by
  have hnone : ∀ i r, ¬RegisteredIn req (TwoPhase.start db) i r := by
    rintro i r ⟨-, hdone⟩
    cases hdone
  refine ⟨fun i _ r _ h => absurd h (hnone i r), fun i r h => absurd h (hnone i r),
    fun i r h => absurd h (hnone i r), fun _ _ h => h, ?_, ?_, ?_⟩
  · intro id key hkey hnew
    exact absurd (hnew.symm.trans hkey) (by simp)
  · intro i r now _ hchecked
    cases hchecked
  · intro i r now answer _ hdone
    cases hdone

omit [DecidableEq ι] in
/-- A step that registers nothing and keeps the keys. -/
theorem Registry.same (h : Registry req db c) (hkeys : ∀ id, d.store.keyOf id = c.store.keyOf id)
    (hother : ∀ j, j ≠ i → d.phase j = c.phase j) (hbefore : ∀ r, ¬RegisteredIn req c i r)
    (hafter : ∀ r, ¬RegisteredIn req d i r)
    (hchecked : ∀ r now, req i = .device r now → d.phase i = .checked → r.KeyOk)
    (hanswered : ∀ r now answer, req i = .device r now → d.phase i = .done answer →
      (r.KeyOk ∧ answer = .ok deviceExists ∧ ∃ key, c.store.keyOf r.deviceId = some key) ∨
      (¬r.KeyOk ∧ ∃ detail, answer = .ok (rejection .badPublicKey detail))) :
    Registry req db d := by
  have hsame : ∀ j r, RegisteredIn req d j r ↔ RegisteredIn req c j r := by
    intro j r
    by_cases hj : j = i
    · subst hj
      exact iff_of_false (hafter r) (hbefore r)
    · rw [RegisteredIn, RegisteredIn, hother j hj]
  refine ⟨?_, ?_, ?_, ?_, ?_, ?_, ?_⟩
  · intro j k r r' hj hk
    exact h.no_second j k r r' ((hsame j r).mp hj) ((hsame k r').mp hk)
  · intro j r hj
    exact h.none_if_known j r ((hsame j r).mp hj)
  · intro j r hj
    rw [hkeys]
    exact h.winner_key j r ((hsame j r).mp hj)
  · intro id key hkey
    rw [hkeys]
    exact h.known_key id key hkey
  · intro id key hkey hnew
    rw [hkeys] at hkey
    obtain ⟨j, winner, hj, hid⟩ := h.has_winner id key hkey hnew
    exact ⟨j, winner, (hsame j winner).mpr hj, hid⟩
  · intro j r now hreq hphase
    by_cases hj : j = i
    · subst hj
      exact hchecked r now hreq hphase
    · rw [hother j hj] at hphase
      exact h.checked j r now hreq hphase
  · intro j r now answer hreq hphase
    rw [hkeys]
    by_cases hj : j = i
    · subst hj
      rcases hanswered r now answer hreq hphase with ⟨hkey, hanswer, hstored⟩ | hbad
      · exact .inl ⟨hkey, .inr hanswer, hstored⟩
      · exact .inr hbad
    · rw [hother j hj] at hphase
      exact h.answered j r now answer hreq hphase

theorem keyOf_eq_none {id : String} : db.keyOf id = none ↔ db.devices.get? id = none :=
  Option.map_eq_none_iff

section Insertion

variable {r r' : RegisterDeviceRequest} {now : Datetime} {j : ι}

omit [DecidableEq ι] in
theorem Inserts.self (hi : Inserts req c d i r now) (h : RegisteredIn req d i r') : r' = r := by
  obtain ⟨⟨now', hreq'⟩, -⟩ := h
  cases hi.request.symm.trans hreq'
  rfl

omit [DecidableEq ι] in
theorem Inserts.same (hi : Inserts req c d i r now) (hj : j ≠ i) :
    RegisteredIn req d j r' ↔ RegisteredIn req c j r' := by
  rw [RegisteredIn, RegisteredIn, hi.others j hj]

omit [DecidableEq ι] in
theorem Inserts.keyOf (hi : Inserts req c d i r now) (id : String) : d.store.keyOf id =
    if id = r.deviceId then some r.publicKey else c.store.keyOf id :=
  keyOf_insert hi.devices id

omit [DecidableEq ι] in
/-- Whoever registered before has a key, and the device of `i` had none. -/
theorem Registry.clash (h : Registry req db c) (hi : Inserts req c d i r now) (hj : j ≠ i)
    (hregistered : RegisteredIn req d j r') : r'.deviceId ≠ r.deviceId := by
  intro hid
  have hkey := h.winner_key j r' ((hi.same hj).mp hregistered)
  rw [hid, keyOf_eq_none.mpr hi.absent] at hkey
  cases hkey

omit [DecidableEq ι] in
theorem Registry.unknown (h : Registry req db c) (hi : Inserts req c d i r now) :
    db.keyOf r.deviceId = none := by
  cases hkey : db.keyOf r.deviceId with
  | none => rfl
  | some key =>
    exact absurd ((keyOf_eq_none.mpr hi.absent).symm.trans (h.known_key _ _ hkey)) (by simp)

omit [DecidableEq ι] in
theorem Registry.insert_no_second (h : Registry req db c) (hi : Inserts req c d i r now)
    {k : ι} {r1 r2 : RegisterDeviceRequest} (hj : RegisteredIn req d j r1)
    (hk : RegisteredIn req d k r2) (hid : r1.deviceId = r2.deviceId) : j = k := by
  by_cases hji : j = i
  · by_cases hki : k = i
    · rw [hji, hki]
    · rw [hji] at hj
      obtain rfl := hi.self hj
      exact absurd hid.symm (h.clash hi hki hk)
  · by_cases hki : k = i
    · rw [hki] at hk
      obtain rfl := hi.self hk
      exact absurd hid (h.clash hi hji hj)
    · exact h.no_second j k r1 r2 ((hi.same hji).mp hj) ((hi.same hki).mp hk) hid

omit [DecidableEq ι] in
theorem Registry.insert (h : Registry req db c) (hi : Inserts req c d i r now) :
    Registry req db d where
  no_second _ _ _ _ hj hk hid := h.insert_no_second hi hj hk hid
  none_if_known := by
    intro j r' hj
    by_cases hji : j = i
    · rw [hji] at hj
      obtain rfl := hi.self hj
      exact h.unknown hi
    · exact h.none_if_known j r' ((hi.same hji).mp hj)
  winner_key := by
    intro j r' hj
    by_cases hji : j = i
    · rw [hji] at hj
      obtain rfl := hi.self hj
      rw [hi.keyOf, if_pos rfl]
    · rw [hi.keyOf, if_neg (h.clash hi hji hj)]
      exact h.winner_key j r' ((hi.same hji).mp hj)
  known_key := by
    intro id key hkey
    have hid : id ≠ r.deviceId := by
      rintro rfl
      rw [h.unknown hi] at hkey
      cases hkey
    rw [hi.keyOf, if_neg hid]
    exact h.known_key id key hkey
  has_winner := by
    intro id key hkey hunknown
    by_cases hid : id = r.deviceId
    · exact ⟨i, r, ⟨⟨now, hi.request⟩, hi.done⟩, hid.symm⟩
    · rw [hi.keyOf, if_neg hid] at hkey
      obtain ⟨j, winner, hj, hwinner⟩ := h.has_winner id key hkey hunknown
      have hji : j ≠ i := by
        rintro rfl
        cases hi.phase.symm.trans hj.2
      exact ⟨j, winner, (hi.same hji).mpr hj, hwinner⟩
  checked := by
    intro j r' now' hreq' hphase'
    have hji : j ≠ i := by
      rintro rfl
      cases hi.done.symm.trans hphase'
    rw [hi.others j hji] at hphase'
    exact h.checked j r' now' hreq' hphase'
  answered := by
    intro j r' now' answer hreq' hphase'
    by_cases hji : j = i
    · subst hji
      cases hi.request.symm.trans hreq'
      obtain rfl := Phase.done.inj (hi.done.symm.trans hphase')
      refine .inl ⟨h.checked j r now hi.request hi.phase, .inl rfl, r.publicKey, ?_⟩
      rw [hi.keyOf, if_pos rfl]
    · rw [hi.others j hji] at hphase'
      rcases h.answered j r' now' answer hreq' hphase' with ⟨hkey, hanswer, key, hstored⟩ | hbad
      · refine .inl ⟨hkey, hanswer, ?_⟩
        rw [hi.keyOf]
        split
        · exact ⟨_, rfl⟩
        · exact ⟨key, hstored⟩
      · exact .inr hbad

end Insertion

theorem keyOf_isSome {id : String} (h : (db.devices.get? id).isSome) :
    ∃ key, db.keyOf id = some key := by
  obtain ⟨device, hdevice⟩ := Option.isSome_iff_exists.mp h
  exact ⟨device.publicKey, by rw [Db.keyOf, hdevice]; rfl⟩

theorem step_registry (h : Registry req db c) (hfresh : InsertsFresh req c i)
    (hstep : (postHandler scheme).step req c i = some d) : Registry req db d := by
  have hbefore : ∀ r, ¬RegisteredIn req c i r := by
    rintro r ⟨-, hdone⟩
    rw [TwoPhase.step, hdone] at hstep
    cases hstep
  have hrefused : ∀ {answer}, d.phase i = .done answer →
      (∀ id, answer ≠ .ok (.registered id)) → ∀ r, ¬RegisteredIn req d i r := by
    rintro answer hdone hne r ⟨-, hdone'⟩
    exact hne _ (Phase.done.inj (hdone.symm.trans hdone'))
  cases hreq : req i with
  | report r =>
    obtain ⟨hother, hkeys⟩ := step_report hreq hstep
    have hdevice : ∀ r' now, req i ≠ .device r' now := by simp [hreq]
    refine h.same hkeys hother hbefore ?_ (fun r' now e => absurd e (hdevice r' now))
      (fun r' now _ e => absurd e (hdevice r' now))
    rintro r' ⟨⟨now, e⟩, -⟩
    exact hdevice r' now e
  | device r now =>
    have hself : ∀ {r' now'}, req i = .device r' now' → r' = r := by
      intro r' now' hreq'
      cases hreq.symm.trans hreq'
      rfl
    obtain ⟨hother, ⟨-, hstore, hkey, detail, hdone⟩ | ⟨-, hstore, hkey, hsome, hdone⟩ |
      ⟨-, hstore, hkey, hchecked⟩ | hinserts | ⟨hphase, hsome, -, -⟩⟩ := step_device hreq hstep
    · refine h.same (fun id => by rw [hstore]) hother hbefore (hrefused hdone (by simp [rejection]))
        ?_ ?_
      · intro r' now' _ hphase
        cases hdone.symm.trans hphase
      · intro r' now' answer hreq' hphase
        obtain rfl := hself hreq'
        obtain rfl := Phase.done.inj (hdone.symm.trans hphase)
        exact .inr ⟨hkey, detail, rfl⟩
    · refine h.same (fun id => by rw [hstore]) hother hbefore
        (hrefused hdone (by simp [deviceExists, rejection])) ?_ ?_
      · intro r' now' _ hphase
        cases hdone.symm.trans hphase
      · intro r' now' answer hreq' hphase
        obtain rfl := hself hreq'
        obtain rfl := Phase.done.inj (hdone.symm.trans hphase)
        exact .inl ⟨hkey, rfl, keyOf_isSome hsome⟩
    · refine h.same (fun id => by rw [hstore]) hother hbefore ?_ ?_ ?_
      · rintro r' ⟨-, hdone⟩
        cases hchecked.symm.trans hdone
      · intro r' now' hreq' _
        obtain rfl := hself hreq'
        exact hkey
      · intro r' now' answer _ hdone
        cases hchecked.symm.trans hdone
    · exact h.insert hinserts
    · rw [hfresh hphase r now hreq] at hsome
      cases hsome

theorem registry_of_run
    (h : Run ((postHandler scheme).step req) (InsertsFresh req) (TwoPhase.start db) schedule c) :
    Registry req db c :=
  h.preserves start_registry fun _ _ _ ht hok hstep => step_registry ht hok hstep

theorem device_step_keeps_rows {r : RegisterDeviceRequest} {now : Datetime}
    (hreq : req i = .device r now) (hstep : (postHandler scheme).step req c i = some d)
    {id : String} {device : Device} (hdevice : c.store.devices.get? id = some device) :
    d.store.devices.get? id = some device := by
  obtain ⟨-, ⟨-, hstore, -⟩ | ⟨-, hstore, -⟩ | ⟨-, hstore, -⟩ | hinserts | ⟨-, -, hstore, -⟩⟩ :=
    step_device hreq hstep
  · rwa [hstore]
  · rwa [hstore]
  · rwa [hstore]
  · have hid : id ≠ r.deviceId := by
      rintro rfl
      rw [hinserts.absent] at hdevice
      cases hdevice
    rwa [hinserts.devices, Dict.get?_insert_ne _ _ hid]
  · rwa [hstore]

theorem Registry.writeOnce (h : Registry req db c) : WriteOnce scheme req db c where
  one_winner i r now answer hreq hkey hdone hnew := by
    rcases h.answered i r now answer hreq hdone with ⟨-, -, key, hstored⟩ | ⟨hbad, -⟩
    · exact h.has_winner _ key hstored hnew
    · exact absurd hkey hbad
  no_second := h.no_second
  none_if_known := h.none_if_known
  winner_key := h.winner_key
  known_key := h.known_key
  row_kept i r now d hreq hstep id device hdevice := device_step_keeps_rows hreq hstep hdevice
  answered i r now answer hreq hdone := by
    rcases h.answered i r now answer hreq hdone with ⟨hkey, hanswer, -⟩ | hbad
    · exact .inl ⟨hkey, hanswer⟩
    · exact .inr hbad

/-- A run inserts only absent devices, or one of its registrations has raised. -/
theorem fresh_or_raised
    (h : Run ((postHandler scheme).step req) Always (TwoPhase.start db) schedule c) :
    Run ((postHandler scheme).step req) (InsertsFresh req) (TwoPhase.start db) schedule c ∨
      ∃ i r now, req i = .device r now ∧ c.phase i = .done (.error .integrityError) := by
  induction h with
  | nil => exact .inl .nil
  | @snoc schedule t d i _ _ hstep ih =>
    rcases ih with hrun | ⟨j, r, now, hreq, hdone⟩
    · by_cases hfresh : InsertsFresh req t i
      · exact .inl (.snoc hrun hfresh hstep)
      · simp only [InsertsFresh, not_forall] at hfresh
        obtain ⟨hphase, r, now, hreq, hpresent⟩ := hfresh
        refine .inr ⟨i, r, now, hreq, ?_⟩
        obtain ⟨-, ⟨hwaiting, -⟩ | ⟨hwaiting, -⟩ | ⟨hwaiting, -⟩ | hinserts |
          ⟨-, -, -, hraised⟩⟩ := step_device hreq hstep
        · cases hphase.symm.trans hwaiting
        · cases hphase.symm.trans hwaiting
        · cases hphase.symm.trans hwaiting
        · exact absurd hinserts.absent hpresent
        · exact hraised
    · exact .inr ⟨j, r, now, hreq, TwoPhase.step_done hstep hdone⟩

/-- However requests interleave, the first registration of a device wins and all others are
answered `device_exists` exactly when every registration that inserts finds its device absent. -/
theorem write_once_iff_fresh :
    (Run ((postHandler scheme).step req) Always (TwoPhase.start db) schedule c ∧
      WriteOnce scheme req db c) ↔
    Run ((postHandler scheme).step req) (InsertsFresh req) (TwoPhase.start db) schedule c := by
  constructor
  · rintro ⟨hrun, honce⟩
    rcases fresh_or_raised hrun with hfresh | ⟨i, r, now, hreq, hraised⟩
    · exact hfresh
    · rcases honce.answered i r now _ hreq hraised with
        ⟨-, hanswer | hanswer⟩ | ⟨-, detail, hanswer⟩
      · cases hanswer
      · cases hanswer
      · cases hanswer
  · intro hfresh
    exact ⟨hfresh.weaken fun _ _ _ => trivial, (registry_of_run hfresh).writeOnce⟩

end Steps

def rivalKey (second : Bool) : String :=
  Base64.b64encode (SignatureScheme.sample.publicKey (if second then (1 : UInt8) else 0 : UInt8))

theorem rivalKey_length (second : Bool) : 1 ≤ (rivalKey second).length := by
  cases second <;> decide

/-- Two operators register one device with keys of their own. -/
def rivals (second : Bool) : Post :=
  .device
    { sampleRegistration with
      publicKey := rivalKey second
      publicKey_length := rivalKey_length second } .epoch

/-- Both look before either inserts: the second one raises instead of answering. -/
theorem rival_raises :
    ∃ c : Conf Bool Db (Except PyException Response),
      Run ((postHandler SignatureScheme.sample).step rivals) Always (TwoPhase.start .empty)
        [false, true, false, true] c ∧
      c.phase false = .done (.ok (.registered "d")) ∧
      c.phase true = .done (.error .integrityError) ∧
      ¬WriteOnce SignatureScheme.sample rivals .empty c := by
  have heval : ((Run.execute ((postHandler SignatureScheme.sample).step rivals)
      (TwoPhase.start .empty) [false, true, false, true]).any fun c =>
        decide (c.phase false = .done (.ok (.registered "d"))) &&
        decide (c.phase true = .done (.error .integrityError))) = true := by
    decide +kernel
  obtain ⟨c, hc, heval⟩ := (Option.any_eq_true _ _).mp heval
  simp only [Bool.and_eq_true, decide_eq_true_eq] at heval
  refine ⟨c, .of_execute hc, heval.1, heval.2, ?_⟩
  intro honce
  rcases honce.answered true _ _ _ rfl heval.2 with ⟨-, hanswer | hanswer⟩ | ⟨-, detail, hanswer⟩
  · cases hanswer
  · cases hanswer
  · cases hanswer

end BleUsageMeter.Backend
