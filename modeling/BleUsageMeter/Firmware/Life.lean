import BleUsageMeter.Firmware.Main
import BleUsageMeter.Firmware.Persistence
import BleUsageMeter.Firmware.Posting

/-! The firmware from boot to boot, with NVS calls that fail, a key that may not be there and a
server that may not answer: `app_main`, `record` and `report_task` of `firmware/esp32/main.cpp`,
where writes come between the rounds of `report_task` and not in a round.  "Keep counting locally,
refuse to fake a signed report." -/

namespace BleUsageMeter.Firmware

open Kit

def kReportEndpoint : String := "https://REPLACE_ME.example.invalid/v1/reports"

/-- `load_signing_key`.  `key` is the blob under the key's name, if there is one. -/
def Storage.loadSigningKey (key : Option (List UInt8)) (outcomes : Outcomes) :
    Except EspErr (Vector UInt8 32) :=
  match outcomes .nvsOpen with
  | some err => .error err
  | none =>
    match outcomes .nvsGet with
    | some err => .error err
    | none =>
      match key with
      | none => .error .nvsNotFound
      -- a longer blob is refused by NVS, a shorter one by the check of its length
      | some blob =>
        if h : blob.length = 32 then .ok ⟨blob.toArray, h⟩
        else .error (.other (if 32 < blob.length then 0x110c else 0x104))

/-- The sequence in NVS, 0 where there is none. -/
def Storage.sequence (s : Storage) : Nat := (s.nvs.u64.get? kNvsKeySeq).getD 0

/-- The counter that `app_main` restores, when its loads may fail. -/
def restoredBy (storage : Storage) (sequence count : Outcomes) : Counter :=
  let counter :=
    match storage.loadSequence sequence with
    | .ok seq => Counter.empty.restoreSequence seq
    | .error _ => .empty
  match storage.loadCounter kMeterDeviceId count with
  | .ok c => if 0 < c then counter.restore kMeterDeviceId c else counter
  | .error _ => counter

/-- The tuple of a report. -/
def Report.tuple (r : Report) : ReportTuple :=
  ⟨utf8 r.deviceId, .ofNat r.count, .ofNat r.sequence, .ofNat r.windowStart, .ofNat r.windowEnd⟩

/-- What runs: nothing, the observer, or the observer and `report_task`. -/
inductive Activity
  | halted
  | observing
  | reporting
deriving DecidableEq

/-- The partition with its key, the memory since the last boot, the reports made in the life of the
board, the oldest first, and its server. -/
structure Board (σ : Type) where
  storage : Storage
  key : Option (List UInt8)
  counter : Counter
  signer : Signer
  reporter : Reporter
  activity : Activity
  windowStart : Nat
  uptime : Nat
  reported : List Report
  server : σ

/-- What fails at a boot, and whether the observer starts. -/
structure BootOutcomes where
  init : Outcomes
  key : Outcomes
  sequence : Outcomes
  count : Outcomes
  observer : Bool

inductive BoardEvent
  | provision (key : List UInt8)
  | boot (o : BootOutcomes)
  | record (w : ObservedWrite) (tsUs : Int) (log save : Outcomes)
  | tick (elapsed : Nat) (save : Outcomes)

instance (call : StorageCall × Outcomes) : Decidable (Storage.Erases call) :=
  inferInstanceAs (Decidable (_ ∧ _))

namespace Board

/-- A board that is not running. -/
def off {σ : Type} (nvs : Nvs) (key : Option (List UInt8)) (server : σ) : Board σ :=
  ⟨⟨nvs, 0, false⟩, key, .empty, .new, .new, .halted, 0, 0, [], server⟩

variable {σ : Type} {scheme : SignatureScheme} (m : Mbedtls) (sodium : Sodium scheme)
  (rules : List EventRule) (client : String → List UInt8 → Nat → σ → σ × Exchange)

/-- The signer after `load_signing_key` and `load_seed`. -/
def loadSigner (key : Option (List UInt8)) (outcomes : Outcomes) : Signer :=
  match Storage.loadSigningKey key outcomes with
  | .ok seed => (Signer.new.loadSeed sodium seed).2
  | .error _ => .new

/-- `app_main`.  It aborts when the storage does not initialise, and returns when the observer does
not start. -/
def boot (o : BootOutcomes) (s : Board σ) : Board σ :=
  let key := if Storage.Erases (.init, o.init) then none else s.key
  match Storage.init s.storage.nvs o.init with
  | (.error _, storage) => { s with storage, key, activity := .halted }
  | (.ok _, storage) =>
    let signer := loadSigner sodium key o.key
    { s with
      storage, key, signer
      counter := restoredBy storage o.sequence o.count
      reporter := if signer.ready then .configure kReportEndpoint signer else .new
      activity :=
        if !o.observer then .halted else if signer.ready then .reporting else .observing
      windowStart := 0
      uptime := 0 }

def record (w : ObservedWrite) (tsUs : Int) (log save : Outcomes) (s : Board σ) : Board σ :=
  let r := matchWrite w.service w.characteristic w.payload rules
  let storage := (s.storage.appendEvent (logEntry s.counter w r tsUs) log).2
  if r.matched then
    let (c, counter) := s.counter.increment w.peerAddr 1
    { s with storage := (storage.saveCounter w.peerAddr c save).2, counter }
  else { s with storage }

/-- Posts the reports of a tick one after another. -/
def postAll (reporter : Reporter) : List Report → σ → σ
  | [], server => server
  | r :: rest, server => postAll reporter rest (reporter.post m sodium client r.tuple server).server

/-- A round of `report_task`, which does not look at what `save_sequence` returns.  It is one step:
no write comes between its posts.  In the firmware each `post` reads the count of its entry when the
posts before it are over, while `record` may run on another task, so a write in the round may
already show in a later report of it. -/
def tick (elapsed : Nat) (save : Outcomes) (s : Board σ) : Board σ :=
  let windowEnd := s.uptime + elapsed
  let (seq, counter) := s.counter.nextSequence
  let reports := counter.entries.entries.map fun e => ⟨e.1, e.2, seq, s.windowStart, windowEnd⟩
  { s with
    storage := (s.storage.saveSequence seq save).2
    counter
    windowStart := windowEnd
    uptime := windowEnd
    reported := s.reported ++ reports
    server := postAll m sodium client s.reporter reports s.server }

def step (s : Board σ) : BoardEvent → Option (Board σ)
  | .provision key => some { s with key := some key }
  | .boot o => some (s.boot sodium o)
  | .record w tsUs log save =>
    if s.activity = .halted then none else some (s.record rules w tsUs log save)
  | .tick elapsed save =>
    if s.activity = .reporting then some (s.tick m sodium client elapsed save) else none

/-- What a boot can do: the board stops with the storage that `init` left, or it starts. -/
theorem boot_cases (o : BootOutcomes) (s : Board σ) :
    (∃ storage, (Storage.init s.storage.nvs o.init).2 = storage ∧ s.boot sodium o =
      { s with
        storage
        key := if Storage.Erases (.init, o.init) then none else s.key
        activity := .halted }) ∨
    ∃ storage key signer, Storage.init s.storage.nvs o.init = (.ok (), storage) ∧
      key = (if Storage.Erases (.init, o.init) then none else s.key) ∧
      signer = loadSigner sodium key o.key ∧ s.boot sodium o =
      { s with
        storage, key, signer
        counter := restoredBy storage o.sequence o.count
        reporter := if signer.ready then .configure kReportEndpoint signer else .new
        activity :=
          if !o.observer then .halted else if signer.ready then .reporting else .observing
        windowStart := 0
        uptime := 0 } := by
  unfold boot
  cases hinit : Storage.init s.storage.nvs o.init with
  | mk result storage =>
    cases result with
    | error err => exact .inl ⟨storage, rfl, rfl⟩
    | ok done => exact .inr ⟨storage, _, _, rfl, rfl, rfl, rfl⟩

end Board

/-! ### What the calls do to the sequence -/

namespace Storage

theorem sequence_of_u64 {s t : Storage} (h : t.nvs.u64 = s.nvs.u64) : t.sequence = s.sequence := by
  rw [sequence, h, sequence]

theorem saveCounter_sequence (s : Storage) (deviceId : String) (count : Nat) (outcomes : Outcomes) :
    (s.saveCounter deviceId count outcomes).2.sequence = s.sequence := by
  unfold saveCounter
  split
  · rfl
  · split
    · rfl
    · rcases s.raise_cases (counterKey deviceId) count outcomes with h | h
      · rw [h]
      · rw [h, sequence, sequence, written,
          Dict.get?_insert_ne _ _ (counterKey_ne_seq deviceId).symm]

/-- A storage that initialises is ready. -/
theorem init_ready {nvs : Nvs} {outcomes : Outcomes} {storage : Storage}
    (h : init nvs outcomes = (.ok (), storage)) : storage.ready = true := by
  unfold init at h
  dsimp only at h
  repeat' split at h
  all_goals
    obtain ⟨hresult, rfl⟩ := Prod.mk.inj h
    first | rfl | cases hresult

/-- A save that reports no error has written. -/
theorem saveSequence_ok {s : Storage} {seq : Nat} {outcomes : Outcomes}
    (h : (s.saveSequence seq outcomes).1 = .ok ()) :
    (s.saveSequence seq outcomes).2.sequence = seq := by
  unfold saveSequence raise put at h ⊢
  cases hopen : outcomes .nvsOpen with
  | some err => simp [hopen] at h
  | none =>
    simp only [hopen] at h ⊢
    split at h
    · cases h
    · rename_i hraised
      rw [if_neg hraised]
      cases hset : outcomes .nvsSet with
      | some err => simp [hset] at h
      | none =>
        cases hcommit : outcomes .nvsCommit with
        | some err => simp [hset, hcommit] at h
        | none => simp [sequence, written]

end Storage

theorem restoredBy_sequence {storage : Storage} {sequence count : Outcomes} {n : Nat}
    (h : storage.loadSequence sequence = .ok n) :
    (restoredBy storage sequence count).sequence = n := by
  have hrestored : (Counter.empty.restoreSequence n).sequence = n := by
    rw [Counter.restoreSequence_eq]
    exact Nat.max_eq_right (Nat.zero_le n)
  simp only [restoredBy, h]
  split
  · split
    · rw [Counter.sequence_restore, hrestored]
    · exact hrestored
  · exact hrestored

/-- The counts that a boot restores: none, or one of the meter's own id. -/
theorem restoredBy_cases (storage : Storage) (sequence count : Outcomes) :
    ∃ c : Counter, c.entries = .empty ∧ (restoredBy storage sequence count = c ∨
      ∃ n, storage.loadCounter kMeterDeviceId count = .ok n ∧ 0 < n ∧
        restoredBy storage sequence count = c.restore kMeterDeviceId n) := by
  have hempty : ∀ n, (Counter.empty.restoreSequence n).entries = .empty := by
    intro n
    rw [Counter.restoreSequence_eq]
    rfl
  unfold restoredBy
  dsimp only
  cases storage.loadCounter kMeterDeviceId count with
  | ok n =>
    dsimp only
    by_cases hpos : 0 < n
    · refine ⟨_, ?_, .inr ⟨n, rfl, hpos, if_pos hpos⟩⟩
      cases storage.loadSequence sequence with
      | ok seq => exact hempty seq
      | error err => rfl
    · refine ⟨_, ?_, .inl (if_neg hpos)⟩
      cases storage.loadSequence sequence with
      | ok seq => exact hempty seq
      | error err => rfl
  | error err =>
    refine ⟨_, ?_, .inl rfl⟩
    cases storage.loadSequence sequence with
    | ok seq => exact hempty seq
    | error err => rfl

theorem restore_find {c : Counter} {deviceId id : String} {count n : Nat}
    (h : (c.restore deviceId count).find id = some n) :
    id = deviceId ∨ c.find id = some n := by
  rw [or_iff_not_imp_left]
  intro hne
  rw [Counter.restore] at h
  split at h
  · rwa [Counter.find, Dict.get?_insert_ne _ _ hne] at h
  · split at h
    · exact h
    · rwa [Counter.find, Dict.get?_insert_ne _ _ hne] at h

/-- Only one count is loaded at a boot. -/
theorem restoredBy_find {storage : Storage} {sequence count : Outcomes} {id : String} {n : Nat}
    (h : (restoredBy storage sequence count).find id = some n) : id = kMeterDeviceId := by
  obtain ⟨c, hc, hrestored⟩ := restoredBy_cases storage sequence count
  have hnone : c.find id ≠ some n := by
    rw [Counter.find, hc, Dict.get?_empty]
    simp
  rcases hrestored with heq | ⟨k, -, -, heq⟩
  · exact absurd (heq ▸ h) hnone
  · exact (restore_find (heq ▸ h)).resolve_right hnone

namespace Board

variable {σ : Type} {scheme : SignatureScheme} {m : Mbedtls} {sodium : Sodium scheme}
  {rules : List EventRule} {client : String → List UInt8 → Nat → σ → σ × Exchange}
  {s u : Board σ} {e : BoardEvent} {events : List BoardEvent}

/-! ### The numbers of the reports -/

/-- The reports of a tick have one number and one window; those of a later tick a higher number. -/
def Precedes (a b : Report) : Prop :=
  a.sequence < b.sequence ∨ (a.sequence = b.sequence ∧ a.deviceId ≠ b.deviceId ∧
    a.windowStart = b.windowStart ∧ a.windowEnd = b.windowEnd)

/-- Nothing is erased, a boot reads the sequence that is stored, and a tick saves its number. -/
def Persists (s : Board σ) : BoardEvent → Prop
  | .boot o =>
    let storage := (Storage.init s.storage.nvs o.init).2
    ¬Storage.Erases (.init, o.init) ∧
      (storage.ready = true → storage.loadSequence o.sequence = .ok storage.sequence)
  | .tick _ save => s.counter.sequence < uint64Max ∧
      (s.storage.saveSequence (s.counter.sequence + 1) save).1 = .ok ()
  | _ => True

instance (s : Board σ) (e : BoardEvent) : Decidable (s.Persists e) :=
  match e with
  | .boot _ => inferInstanceAs (Decidable (_ ∧ (_ → _)))
  | .tick _ _ => inferInstanceAs (Decidable (_ ∧ _))
  | .provision _ | .record .. => inferInstanceAs (Decidable True)

/-- What the numbers in use have to do with the one that is stored. -/
structure Numbered (s : Board σ) : Prop where
  stored : s.activity ≠ .halted → s.counter.sequence = s.storage.sequence
  reported_le : ∀ r ∈ s.reported, r.sequence ≤ s.storage.sequence
  increasing : s.reported.Pairwise Precedes

theorem Numbered.stop (h : s.Numbered) {storage : Storage} (key : Option (List UInt8))
    (hsequence : storage.sequence = s.storage.sequence) :
    Numbered { s with storage, key, activity := .halted } where
  stored hrunning := absurd rfl hrunning
  reported_le r hr := by
    rw [hsequence]
    exact h.reported_le r hr
  increasing := h.increasing

theorem Numbered.boot (h : s.Numbered) {o : BootOutcomes} (hok : s.Persists (.boot o)) :
    (s.boot sodium o).Numbered := by
  obtain ⟨herases, hloads⟩ := hok
  have hnvs := Storage.init_nvs_of_not_erases herases s.storage.nvs
  have hsequence : (Storage.init s.storage.nvs o.init).2.sequence = s.storage.sequence :=
    Storage.sequence_of_u64 (congrArg Nvs.u64 hnvs)
  rcases boot_cases sodium o s with
    ⟨storage, hinit, heq⟩ | ⟨storage, key, signer, hinit, -, -, heq⟩
  · rw [heq]
    exact h.stop _ (hinit ▸ hsequence)
  · rw [hinit] at hsequence hloads
    rw [heq]
    exact ⟨fun _ => restoredBy_sequence (hloads (Storage.init_ready hinit)),
      fun r hr => hsequence.symm ▸ h.reported_le r hr, h.increasing⟩

theorem record_cases (w : ObservedWrite) (tsUs : Int) (log save : Outcomes) (s : Board σ) :
    ∃ storage counter, s.record rules w tsUs log save = { s with storage, counter } ∧
      storage.sequence = s.storage.sequence ∧ counter.sequence = s.counter.sequence := by
  unfold record
  dsimp only
  have hlog : ∀ entry, (s.storage.appendEvent entry log).2.sequence = s.storage.sequence :=
    fun entry => Storage.sequence_of_u64 (Storage.appendEvent_u64 s.storage entry log)
  split
  · exact ⟨_, _, rfl, (Storage.saveCounter_sequence _ _ _ _).trans (hlog _), rfl⟩
  · exact ⟨_, s.counter, rfl, hlog _, rfl⟩

theorem Numbered.record (h : s.Numbered) (hrunning : s.activity ≠ .halted) (w : ObservedWrite)
    (tsUs : Int) (log save : Outcomes) : (s.record rules w tsUs log save).Numbered := by
  obtain ⟨storage, counter, heq, hstorage, hcounter⟩ := record_cases w tsUs log save s
  rw [heq]
  refine ⟨fun _ => ?_, fun r hr => ?_, h.increasing⟩
  · exact (hcounter.trans (h.stored hrunning)).trans hstorage.symm
  · exact hstorage.symm ▸ h.reported_le r hr

/-- The reports of a tick, with its number and window. -/
def tickReports (elapsed : Nat) (s : Board σ) : List Report :=
  s.counter.entries.entries.map fun e =>
    ⟨e.1, e.2, s.counter.sequence + 1, s.windowStart, s.uptime + elapsed⟩

/-- A tick below the largest number. -/
theorem tick_eq (elapsed : Nat) (save : Outcomes) (h : s.counter.sequence < uint64Max) :
    s.tick m sodium client elapsed save =
      { s with
        storage := (s.storage.saveSequence (s.counter.sequence + 1) save).2
        counter := { s.counter with sequence := s.counter.sequence + 1 }
        windowStart := s.uptime + elapsed
        uptime := s.uptime + elapsed
        reported := s.reported ++ s.tickReports elapsed
        server := postAll m sodium client s.reporter (s.tickReports elapsed) s.server } := by
  have hnext : s.counter.nextSequence =
      (s.counter.sequence + 1, { s.counter with sequence := s.counter.sequence + 1 }) := by
    rw [Counter.nextSequence, Nat.mod_eq_of_lt (Nat.succ_lt_succ h)]
  rw [tick, hnext]
  rfl

theorem tickReports_precedes (elapsed : Nat) (s : Board σ) :
    (s.tickReports elapsed).Pairwise Precedes := by
  apply List.pairwise_map.mpr
  apply (List.pairwise_map.mp s.counter.entries.nodup).imp
  intro a b hne
  exact .inr ⟨rfl, hne, rfl, rfl⟩

theorem Numbered.tick (h : s.Numbered) (hreporting : s.activity = .reporting) {elapsed : Nat}
    {save : Outcomes} (hok : s.Persists (.tick elapsed save)) :
    (s.tick m sodium client elapsed save).Numbered := by
  obtain ⟨hroom, hsaved⟩ := hok
  have hstored := h.stored (by rw [hreporting]; decide)
  have hnumber := Storage.saveSequence_ok hsaved
  rw [tick_eq elapsed save hroom]
  refine ⟨fun _ => hnumber.symm, fun r hr => ?_, ?_⟩
  · show r.sequence ≤ (s.storage.saveSequence (s.counter.sequence + 1) save).2.sequence
    rcases List.mem_append.mp hr with hr | hr
    · have hle := h.reported_le r hr
      omega
    · obtain ⟨entry, -, rfl⟩ := List.mem_map.mp hr
      exact hnumber.ge
  · refine List.pairwise_append.mpr ⟨h.increasing, s.tickReports_precedes elapsed, ?_⟩
    intro a ha b hb
    have hle := h.reported_le a ha
    obtain ⟨entry, -, rfl⟩ := List.mem_map.mp hb
    exact .inl (show a.sequence < s.counter.sequence + 1 by omega)

theorem Numbered.step (h : s.Numbered) (hok : s.Persists e)
    (hstep : s.step m sodium rules client e = some u) : u.Numbered := by
  cases e with
  | provision key =>
    obtain rfl := Option.some.inj hstep
    exact ⟨h.stored, h.reported_le, h.increasing⟩
  | boot o =>
    obtain rfl := Option.some.inj hstep
    exact h.boot hok
  | record w tsUs log save =>
    rw [Board.step] at hstep
    split at hstep
    · cases hstep
    · rename_i hrunning
      obtain rfl := Option.some.inj hstep
      exact h.record hrunning w tsUs log save
  | tick elapsed save =>
    rw [Board.step] at hstep
    split at hstep
    · rename_i hreporting
      obtain rfl := Option.some.inj hstep
      exact h.tick hreporting hok
    · cases hstep

/-- As long as saves and loads of the sequence succeed and nothing is erased, no number is used
again, whatever else fails and wherever the board reboots. -/
theorem reports_numbered (nvs : Nvs) (key : Option (List UInt8)) (server : σ)
    (h : Run (step m sodium rules client) Persists (off nvs key server) events s) :
    s.reported.Pairwise Precedes ∧ ∀ r ∈ s.reported, r.sequence ≤ s.storage.sequence := by
  have hnumbered : s.Numbered := by
    apply h.preserves
    · exact ⟨fun hrunning => absurd rfl hrunning, List.forall_mem_nil _, .nil⟩
    · exact fun _ _ _ ht hok hstep => ht.step hok hstep
  exact ⟨hnumbered.increasing, hnumbered.reported_le⟩

/-! ### What the server gets -/

/-- The keys that are written into the partition. -/
def provisioned (events : List BoardEvent) : List (List UInt8) :=
  events.filterMap fun
    | .provision key => some key
    | _ => none

/-- The body is the text of one of the reports, with a signature that verifies under the public key
of one of the keys. -/
def Authentic (m : Mbedtls) (sodium : Sodium scheme) (keys : List (List UInt8))
    (reported : List Report) (endpoint : String) (body : List UInt8) : Prop :=
  endpoint = kReportEndpoint ∧ ∃ r ∈ reported, ∃ seed secret sig, seed.toList ∈ keys ∧
    sodium.seedKeypair seed = some secret ∧
    scheme.verify (scheme.publicKey secret) (canonicalBytes r.tuple) sig.toList = true ∧
    body = buildBody m r.tuple sig

variable (m sodium client) in
/-- Nothing but such bodies has reached the server, and nothing at all without a key. -/
structure Honest (start : σ) (keys : List (List UInt8)) (s : Board σ) : Prop where
  key : ∀ blob, s.key = some blob → blob ∈ keys
  signer : s.activity = .reporting → s.reporter = .configure kReportEndpoint s.signer ∧
    ∃ seed secret, seed.toList ∈ keys ∧ sodium.seedKeypair seed = some secret ∧
      s.signer = ⟨seed, scheme.publicKey secret, true⟩
  server : ∀ P : σ → Prop, P start → (∀ endpoint body k t,
    Authentic m sodium keys s.reported endpoint body → P t → P (client endpoint body k t).1) →
      P s.server
  unkeyed : keys = [] → s.reported = []

theorem Authentic.mono {keys keys' : List (List UInt8)} {reported reported' : List Report}
    {endpoint : String} {body : List UInt8} (h : Authentic m sodium keys reported endpoint body)
    (hkeys : keys ⊆ keys') (hreported : reported ⊆ reported') :
    Authentic m sodium keys' reported' endpoint body := by
  obtain ⟨hendpoint, r, hr, seed, secret, sig, hseed, hrest⟩ := h
  exact ⟨hendpoint, r, hreported hr, seed, secret, sig, hkeys hseed, hrest⟩

/-- A signer that is ready has the key pair of the stored key. -/
theorem loadSigner_ready {key : Option (List UInt8)} {outcomes : Outcomes}
    (h : (loadSigner sodium key outcomes).ready = true) : ∃ seed secret,
      key = some seed.toList ∧ sodium.seedKeypair seed = some secret ∧
        loadSigner sodium key outcomes = ⟨seed, scheme.publicKey secret, true⟩ := by
  unfold loadSigner at h ⊢
  cases hload : Storage.loadSigningKey key outcomes with
  | error err =>
    rw [hload] at h
    cases h
  | ok seed =>
    have hkey : key = some seed.toList := by
      unfold Storage.loadSigningKey at hload
      repeat' split at hload
      all_goals cases hload
      simp
    rw [hload] at h
    simp only [Signer.loadSeed] at h ⊢
    cases hsecret : sodium.seedKeypair seed with
    | none =>
      rw [hsecret] at h
      cases h
    | some secret => exact ⟨seed, secret, hkey, hsecret, rfl⟩

/-- What posting some reports leads to, when every body that is signed for them keeps it. -/
theorem postAll_preserves {P : σ → Prop} {reporter : Reporter} {reports : List Report} {server : σ}
    (h : P server) (hclient : ∀ r ∈ reports, ∀ endpoint signer sig,
      reporter.endpoint = some endpoint → reporter.signer = some signer →
        signer.sign sodium r.tuple = some sig →
          ∀ k t, P t → P (client endpoint (buildBody m r.tuple sig) k t).1) :
    P (postAll m sodium client reporter reports server) := by
  induction reports generalizing server with
  | nil => exact h
  | cons r rest ih =>
    rw [List.forall_mem_cons] at hclient
    exact ih (Reporter.post_preserves h hclient.1) hclient.2

theorem sign_verifies {seed : Vector UInt8 32} {secret : scheme.Secret} {r : ReportTuple}
    {sig : Vector UInt8 64} (hsecret : sodium.seedKeypair seed = some secret)
    (h : Signer.sign sodium ⟨seed, scheme.publicKey secret, true⟩ r = some sig) :
    scheme.verify (scheme.publicKey secret) (canonicalBytes r) sig.toList = true := by
  simp only [Signer.sign, hsecret, if_true] at h
  rw [sodium.signs secret _ sig h]
  exact scheme.verify_sign secret _

variable {start : σ} {keys : List (List UInt8)}

/-- A step that makes no report and does not touch the server. -/
theorem Honest.quiet (h : s.Honest m sodium client start keys) {keys' : List (List UInt8)}
    (hkeys : keys ⊆ keys') (hkey : ∀ blob, u.key = some blob → blob ∈ keys')
    (hsigner : u.activity = .reporting → u.reporter = .configure kReportEndpoint u.signer ∧
      ∃ seed secret, seed.toList ∈ keys' ∧ sodium.seedKeypair seed = some secret ∧
        u.signer = ⟨seed, scheme.publicKey secret, true⟩)
    (hreported : u.reported = s.reported) (hserver : u.server = s.server) :
    u.Honest m sodium client start keys' where
  key := hkey
  signer := hsigner
  server P hstart hclient := by
    rw [hserver]
    refine h.server P hstart fun endpoint body k t hbody => hclient endpoint body k t ?_
    exact hbody.mono hkeys (by rw [hreported]; exact List.Subset.refl _)
  unkeyed hnone := by
    rw [hreported]
    exact h.unkeyed (List.subset_nil.mp (hnone ▸ hkeys))

theorem Honest.boot (h : s.Honest m sodium client start keys) (o : BootOutcomes) :
    (s.boot sodium o).Honest m sodium client start keys := by
  have hkey : ∀ blob, (if Storage.Erases (.init, o.init) then none else s.key) = some blob →
      blob ∈ keys := by
    intro blob hblob
    split at hblob
    · cases hblob
    · exact h.key blob hblob
  rcases boot_cases sodium o s with
    ⟨storage, -, heq⟩ | ⟨storage, key, signer, -, rfl, hsigner, heq⟩
  · rw [heq]
    exact h.quiet (List.Subset.refl _) hkey (fun hreporting => by cases hreporting) rfl rfl
  · rw [heq]
    refine h.quiet (List.Subset.refl _) hkey ?_ rfl rfl
    intro hreporting
    have hready : signer.ready = true := by
      by_contra hnot
      simp only [hnot, if_false] at hreporting
      split at hreporting <;> cases hreporting
    rw [hsigner] at hready
    obtain ⟨seed, secret, hseed, hsecret, hloaded⟩ := loadSigner_ready hready
    refine ⟨?_, seed, secret, hkey _ hseed, hsecret, hsigner.trans hloaded⟩
    simp only [hsigner, hready, if_true]

theorem Honest.tick (h : s.Honest m sodium client start keys)
    (hreporting : s.activity = .reporting) (elapsed : Nat) (save : Outcomes) :
    (s.tick m sodium client elapsed save).Honest m sodium client start keys := by
  obtain ⟨hreporter, seed, secret, hseed, hsecret, hsigner⟩ := h.signer hreporting
  refine ⟨h.key, fun _ => ⟨hreporter, seed, secret, hseed, hsecret, hsigner⟩, ?_, ?_⟩
  · intro P hstart hclient
    have hbefore : P s.server := by
      refine h.server P hstart fun endpoint body k t hbody => hclient endpoint body k t ?_
      exact hbody.mono (List.Subset.refl _) (List.subset_append_left _ _)
    refine postAll_preserves hbefore fun r hr endpoint signer sig hendpoint hsome hsig k t => ?_
    rw [hreporter] at hendpoint hsome
    obtain rfl := Option.some.inj hendpoint
    obtain rfl := Option.some.inj hsome
    rw [hsigner] at hsig
    exact hclient _ _ k t ⟨rfl, r, List.mem_append_right _ hr, seed, secret, sig, hseed, hsecret,
      sign_verifies hsecret hsig, rfl⟩
  · intro hnone
    rw [hnone] at hseed
    cases hseed

theorem Honest.step (h : s.Honest m sodium client start keys)
    (hstep : s.step m sodium rules client e = some u) :
    u.Honest m sodium client start (keys ++ provisioned [e]) := by
  cases e with
  | provision key =>
    obtain rfl := Option.some.inj hstep
    refine h.quiet (List.subset_append_left _ _) ?_ ?_ rfl rfl
    · intro blob hblob
      obtain rfl := Option.some.inj hblob
      simp [provisioned]
    · intro hreporting
      obtain ⟨hreporter, seed, secret, hseed, hrest⟩ := h.signer hreporting
      exact ⟨hreporter, seed, secret, List.mem_append_left _ hseed, hrest⟩
  | boot o =>
    obtain rfl := Option.some.inj hstep
    simpa [provisioned] using h.boot o
  | record w tsUs log save =>
    rw [Board.step] at hstep
    split at hstep
    · cases hstep
    · obtain rfl := Option.some.inj hstep
      obtain ⟨storage, counter, heq, -, -⟩ := record_cases w tsUs log save s
      rw [heq]
      refine h.quiet (List.subset_append_left _ _) ?_ ?_ rfl rfl
      · exact fun blob hblob => List.mem_append_left _ (h.key blob hblob)
      · intro hreporting
        obtain ⟨hreporter, seed, secret, hseed, hrest⟩ := h.signer hreporting
        exact ⟨hreporter, seed, secret, List.mem_append_left _ hseed, hrest⟩
  | tick elapsed save =>
    rw [Board.step] at hstep
    split at hstep
    · rename_i hreporting
      obtain rfl := Option.some.inj hstep
      simpa [provisioned] using h.tick hreporting elapsed save
    · cases hstep

theorem board_honest (nvs : Nvs) (key : Option (List UInt8)) (server : σ)
    (h : Run (step m sodium rules client) Always (off nvs key server) events s) :
    s.Honest m sodium client server (key.toList ++ provisioned events) := by
  apply h.traces
  · refine ⟨?_, fun hreporting => ?_, fun P hstart _ => hstart, fun _ => rfl⟩
    · intro blob hblob
      obtain rfl : key = some blob := hblob
      simp [provisioned]
    · cases hreporting
  · intro fs t e u ht _ hstep
    have hu := ht.step hstep
    rwa [List.append_assoc, provisioned, provisioned, ← List.filterMap_append] at hu

/-- Whatever fails, all that the server ever gets is the texts of reports that were made, with
signatures that verify under keys that were provisioned; without a key no report is made. -/
theorem sends_authentic (nvs : Nvs) (key : Option (List UInt8)) (server : σ)
    (h : Run (step m sodium rules client) Always (off nvs key server) events s) :
    s.Honest m sodium client server (key.toList ++ provisioned events) :=
  board_honest nvs key server h

/-! ### A board with a key -/

def sampleBoot : BootOutcomes := ⟨.success, .success, .success, .success, true⟩

/-- A write before a report, and another one between a reboot and the next report. -/
def sampleLife : List BoardEvent :=
  [.provision (List.replicate 32 7), .boot sampleBoot,
    .record Meter.sampleWrite 0 .success .success, .tick 300 .success, .boot sampleBoot,
    .record Meter.sampleWrite 0 .success .success, .tick 300 .success]

/-- A server that counts the requests. -/
def sampleServer (_ : String) (_ : List UInt8) (_ : Nat) (requests : Nat) : Nat × Exchange :=
  (requests + 1, .status 200)

theorem reports_numbered_sample : ∃ s : Board Nat, s.reported.map Report.sequence = [1, 2] ∧
    s.reported.Pairwise Precedes := by
  have heval : ((Run.execute (fun (s : Board Nat) e =>
      if s.Persists e then s.step .standard .sample [Meter.sampleRule] sampleServer e else none)
      (off .empty none 0) sampleLife).any fun s =>
        decide (s.reported.map Report.sequence = [1, 2])) = true := by
    decide +kernel
  obtain ⟨s, hrun, hs⟩ := (Option.any_eq_true _ _).mp heval
  exact ⟨s, of_decide_eq_true hs, (reports_numbered _ _ _ (Run.of_execute_guarded hrun)).1⟩

theorem sends_authentic_sample : ∃ s : Board Nat, s.server = 2 ∧
    s.Honest .standard .sample sampleServer 0 [List.replicate 32 7] := by
  have heval : ((Run.execute (step .standard .sample [Meter.sampleRule] sampleServer)
      (off .empty none 0) sampleLife).any fun s => decide (s.server = 2)) = true := by
    decide +kernel
  obtain ⟨s, hrun, hs⟩ := (Option.any_eq_true _ _).mp heval
  exact ⟨s, of_decide_eq_true hs, sends_authentic _ _ _ (Run.of_execute hrun)⟩

end Board

end BleUsageMeter.Firmware
