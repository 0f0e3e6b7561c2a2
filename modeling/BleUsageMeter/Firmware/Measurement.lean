import BleUsageMeter.Kit.Noninterference
import BleUsageMeter.Firmware.Life

/-! "Delivery state must never feed back into measurement": the counts and the event log of a board
after some boots and writes are the same whatever key it has, whenever it reports and whatever its
server answers. -/

namespace BleUsageMeter.Firmware

open Kit

/-- A log entry without the number of the last report. -/
def unnumbered (e : LogEntry) : LogEntry := { e with seq := 0 }

/-- The partitions have the same counts and the same log, but for the numbers of the reports. -/
structure Nvs.Same (a b : Nvs) : Prop where
  counts : ∀ key, key ≠ kNvsKeySeq → a.u64.get? key = b.u64.get? key
  head : a.u32 = b.u32
  slots : ∀ slot, (a.blobs.get? slot).map unnumbered = (b.blobs.get? slot).map unnumbered

theorem Nvs.Same.refl (nvs : Nvs) : nvs.Same nvs := ⟨fun _ _ => rfl, rfl, fun _ => rfl⟩

namespace Storage

structure Same (s t : Storage) : Prop where
  nvs : s.nvs.Same t.nvs
  head : s.head = t.head
  ready : s.ready = t.ready

variable {s t : Storage} {outcomes : Outcomes}

theorem Same.written_seq (h : s.Same t) (seq : Nat) : (s.written kNvsKeySeq seq).Same t where
  nvs :=
    { counts := fun key hkey => (Dict.get?_insert_ne _ _ hkey).trans (h.nvs.counts key hkey)
      head := h.nvs.head
      slots := h.nvs.slots }
  head := h.head
  ready := h.ready

theorem Same.written (h : s.Same t) (key : String) (value : Nat) :
    (s.written key value).Same (t.written key value) where
  nvs :=
    { counts := fun other hother => by
        show (s.nvs.u64.insert key value).get? other = (t.nvs.u64.insert key value).get? other
        rw [Dict.get?_insert, Dict.get?_insert, h.nvs.counts other hother]
      head := h.nvs.head
      slots := h.nvs.slots }
  head := h.head
  ready := h.ready

/-- Only the number of the reports changes. -/
theorem Same.saveSequence (h : s.Same t) (seq : Nat) (outcomes : Outcomes) :
    (s.saveSequence seq outcomes).2.Same t := by
  unfold Storage.saveSequence
  split
  · exact h
  · rcases s.raise_cases kNvsKeySeq seq outcomes with heq | heq
    · rw [heq]
      exact h
    · rw [heq]
      exact h.written_seq seq

theorem Same.saveCounter (h : s.Same t) (deviceId : String) (count : Nat) (outcomes : Outcomes) :
    (s.saveCounter deviceId count outcomes).2.Same (t.saveCounter deviceId count outcomes).2 := by
  have hpeek : s.peek (counterKey deviceId) outcomes = t.peek (counterKey deviceId) outcomes := by
    unfold peek
    rw [h.nvs.counts _ (counterKey_ne_seq deviceId)]
  unfold Storage.saveCounter
  rw [h.ready]
  split
  · exact h
  · split
    · exact h
    · rw [raise_snd, raise_snd, hpeek]
      split
      · exact h
      · exact h.written _ _

theorem Same.appendEvent (h : s.Same t) {e e' : LogEntry} (he : unnumbered e = unnumbered e')
    (outcomes : Outcomes) :
    (s.appendEvent e outcomes).2.Same (t.appendEvent e' outcomes).2 := by
  have hslots : ∀ slot, ((s.nvs.blobs.insert (slotKey s.head) e).get? slot).map unnumbered =
      ((t.nvs.blobs.insert (slotKey t.head) e').get? slot).map unnumbered := by
    intro slot
    rw [Dict.get?_insert, Dict.get?_insert, h.head]
    split
    · exact congrArg some he
    · exact h.nvs.slots slot
  unfold Storage.appendEvent
  rw [h.ready]
  split
  · exact h
  · split
    · exact h
    · split
      · exact h
      · dsimp only
        split
        · exact ⟨⟨h.nvs.counts, h.nvs.head, hslots⟩, by rw [h.head], rfl⟩
        · have hhead : s.nvs.u32.insert kNvsKeyLogHead ((s.head + 1) % 2 ^ 32) =
              t.nvs.u32.insert kNvsKeyLogHead ((t.head + 1) % 2 ^ 32) := by
            rw [h.nvs.head, h.head]
          split
          · exact ⟨⟨h.nvs.counts, hhead, hslots⟩, by rw [h.head], rfl⟩
          · exact ⟨⟨h.nvs.counts, hhead, hslots⟩, by rw [h.head], rfl⟩

/-- `init` ends the same way and leaves the same behind. -/
theorem init_same {a b : Nvs} (h : a.Same b) (outcomes : Outcomes) :
    (init a outcomes).1 = (init b outcomes).1 ∧
      (init a outcomes).2.Same (init b outcomes).2 := by
  unfold init
  cases outcomes .flashInit with
  | none =>
    cases outcomes .nvsOpen with
    | some err => exact ⟨rfl, h, rfl, rfl⟩
    | none =>
      refine ⟨rfl, h, ?_, rfl⟩
      dsimp only
      rw [h.head]
  | some err =>
    dsimp only
    split
    · cases outcomes .flashErase with
      | some err => exact ⟨rfl, h, rfl, rfl⟩
      | none =>
        cases outcomes .flashReinit with
        | some err => exact ⟨rfl, .refl _, rfl, rfl⟩
        | none =>
          cases outcomes .nvsOpen with
          | some err => exact ⟨rfl, .refl _, rfl, rfl⟩
          | none => exact ⟨rfl, .refl _, rfl, rfl⟩
    · exact ⟨rfl, h, rfl, rfl⟩

end Storage

/-- The counts that a boot restores do not depend on the sequence. -/
theorem restoredBy_entries (storage : Storage) (sequence count : Outcomes) :
    (restoredBy storage sequence count).entries =
      match storage.loadCounter kMeterDeviceId count with
      | .ok c => if 0 < c then Dict.empty.insert kMeterDeviceId c else .empty
      | .error _ => .empty := by
  have hentries : ∀ counter : Counter, counter.entries = .empty → ∀ c,
      (counter.restore kMeterDeviceId c).entries = Dict.empty.insert kMeterDeviceId c := by
    intro counter hempty c
    rw [Counter.restore, Counter.find, hempty]
    rfl
  have hrestored : ∀ seq, (Counter.empty.restoreSequence seq).entries = .empty := by
    intro seq
    rw [Counter.restoreSequence_eq]
    rfl
  unfold restoredBy
  cases storage.loadCounter kMeterDeviceId count with
  | error err =>
    cases storage.loadSequence sequence with
    | error err => rfl
    | ok seq => exact hrestored seq
  | ok c =>
    dsimp only
    cases storage.loadSequence sequence with
    | error err =>
      dsimp only
      split
      · exact hentries _ rfl c
      · rfl
    | ok seq =>
      dsimp only
      split
      · exact hentries _ (hrestored seq) c
      · exact hrestored seq

namespace Board

variable {σ τ : Type} {scheme scheme' : SignatureScheme} {m m' : Mbedtls}
  {sodium : Sodium scheme} {sodium' : Sodium scheme'} {rules : List EventRule}
  {client : String → List UInt8 → Nat → σ → σ × Exchange}
  {client' : String → List UInt8 → Nat → τ → τ × Exchange} {s : Board σ} {t : Board τ}

variable (m sodium rules client) in
/-- The board after an event, which passes it by where it cannot happen. -/
def after (s : Board σ) (e : BoardEvent) : Board σ := (s.step m sodium rules client e).getD s

/-- The events that are measured: writes, and the boots between them. -/
def measured : BoardEvent → Bool
  | .boot _ | .record .. => true
  | .provision _ | .tick .. => false

/-- The boards have counted and logged the same. -/
structure SameMeasurement (s : Board σ) (t : Board τ) : Prop where
  storage : s.storage.Same t.storage
  entries : s.counter.entries = t.counter.entries
  halted : s.activity = .halted ↔ t.activity = .halted

theorem SameMeasurement.symm (h : s.SameMeasurement t) : t.SameMeasurement s where
  storage :=
    { nvs :=
        { counts := fun key hkey => (h.storage.nvs.counts key hkey).symm
          head := h.storage.nvs.head.symm
          slots := fun slot => (h.storage.nvs.slots slot).symm }
      head := h.storage.head.symm
      ready := h.storage.ready.symm }
  entries := h.entries.symm
  halted := h.halted.symm

/-- A key or a tick changes nothing that is measured. -/
theorem SameMeasurement.hidden (h : s.SameMeasurement t) {e : BoardEvent}
    (he : measured e = false) : (s.after m sodium rules client e).SameMeasurement t := by
  cases e with
  | provision key => exact ⟨h.storage, h.entries, h.halted⟩
  | tick elapsed save =>
    rw [after, step]
    split
    · exact ⟨h.storage.saveSequence _ save, h.entries, h.halted⟩
    · exact h
  | boot o => cases he
  | record w tsUs log save => cases he

theorem SameMeasurement.record (h : s.SameMeasurement t) (w : ObservedWrite) (tsUs : Int)
    (log save : Outcomes) :
    (s.record rules w tsUs log save).SameMeasurement (t.record rules w tsUs log save) := by
  have hlog : ∀ r : MatchResult,
      (s.storage.appendEvent (logEntry s.counter w r tsUs) log).2.Same
        (t.storage.appendEvent (logEntry t.counter w r tsUs) log).2 :=
    fun r => h.storage.appendEvent (by rfl) log
  have hcount : (s.counter.increment w.peerAddr 1).1 = (t.counter.increment w.peerAddr 1).1 ∧
      (s.counter.increment w.peerAddr 1).2.entries =
        (t.counter.increment w.peerAddr 1).2.entries := by
    unfold Counter.increment Counter.find
    rw [h.entries]
    exact ⟨rfl, rfl⟩
  unfold Board.record
  dsimp only
  split
  · refine ⟨?_, hcount.2, h.halted⟩
    rw [hcount.1]
    exact (hlog _).saveCounter _ _ save
  · exact ⟨hlog _, h.entries, h.halted⟩

/-- What is measured after a boot. -/
theorem boot_measured (sodium : Sodium scheme) (o : BootOutcomes) (s : Board σ) :
    (s.boot sodium o).storage = (Storage.init s.storage.nvs o.init).2 ∧
    (s.boot sodium o).counter.entries =
      (match (Storage.init s.storage.nvs o.init).1 with
      | .ok _ => (restoredBy (Storage.init s.storage.nvs o.init).2 o.sequence o.count).entries
      | .error _ => s.counter.entries) ∧
    ((s.boot sodium o).activity = .halted ↔
      (Storage.init s.storage.nvs o.init).1 ≠ .ok () ∨ o.observer = false) := by
  unfold boot
  cases Storage.init s.storage.nvs o.init with
  | mk result storage =>
    cases result with
    | error err => exact ⟨rfl, rfl, by simp⟩
    | ok done =>
      refine ⟨rfl, rfl, ?_⟩
      cases o.observer with
      | false => simp
      | true =>
        have hrunning : ∀ ready : Bool,
            (if ready then Activity.reporting else .observing) ≠ .halted := by decide
        simp [hrunning]

theorem SameMeasurement.boot (h : s.SameMeasurement t) (o : BootOutcomes) :
    (s.boot sodium o).SameMeasurement (t.boot sodium' o) := by
  obtain ⟨hresult, hstorage⟩ := Storage.init_same h.storage.nvs o.init
  obtain ⟨hs, hsEntries, hsHalted⟩ := boot_measured sodium o s
  obtain ⟨ht, htEntries, htHalted⟩ := boot_measured sodium' o t
  refine ⟨by rw [hs, ht]; exact hstorage, ?_, by rw [hsHalted, htHalted, hresult]⟩
  have hload : (Storage.init s.storage.nvs o.init).2.loadCounter kMeterDeviceId o.count =
      (Storage.init t.storage.nvs o.init).2.loadCounter kMeterDeviceId o.count := by
    unfold Storage.loadCounter Storage.load
    rw [hstorage.nvs.counts _ (Storage.counterKey_ne_seq kMeterDeviceId)]
  rw [hsEntries, htEntries, hresult, restoredBy_entries, restoredBy_entries, hload, h.entries]

/-- A boot or a write is measured alike. -/
theorem SameMeasurement.shown (h : s.SameMeasurement t) {e : BoardEvent}
    (he : measured e = true) : (s.after m sodium rules client e).SameMeasurement
      (t.after m' sodium' rules client' e) := by
  cases e with
  | provision key => cases he
  | tick elapsed save => cases he
  | boot o => exact h.boot o
  | record w tsUs log save =>
    rw [after, after, step, step]
    by_cases hhalted : s.activity = .halted
    · rw [if_pos hhalted, if_pos (h.halted.mp hhalted)]
      exact h
    · rw [if_neg hhalted, if_neg fun ht => hhalted (h.halted.mpr ht)]
      exact h.record w tsUs log save

/-- Two boards with the same partition at first, and the same boots and writes, measure the same,
whatever their keys, their reports and their servers are. -/
theorem measures_same (m m' : Mbedtls) (sodium : Sodium scheme) (sodium' : Sodium scheme')
    (rules : List EventRule) (client : String → List UInt8 → Nat → σ → σ × Exchange)
    (client' : String → List UInt8 → Nat → τ → τ × Exchange) (nvs : Nvs)
    (key key' : Option (List UInt8)) (server : σ) (server' : τ) (events events' : List BoardEvent)
    (h : events.filter measured = events'.filter measured) :
    (events.foldl (after m sodium rules client) (off nvs key server)).SameMeasurement
      (events'.foldl (after m' sodium' rules client') (off nvs key' server')) := by
  have hunaffected : Unaffected (after m sodium rules client) (after m' sodium' rules client')
      measured SameMeasurement :=
    { left := fun _ _ _ he hs => hs.hidden he
      right := fun _ _ _ he hs => (hs.symm.hidden he).symm
      both := fun _ _ _ he hs => hs.shown he }
  exact hunaffected.foldl ⟨⟨.refl nvs, rfl, rfl⟩, rfl, Iff.rfl⟩ h

/-- A board that has no key and reports nothing measures what the sample board does. -/
theorem measures_same_sample :
    (sampleLife.foldl (after .standard .sample [Meter.sampleRule] sampleServer)
      (off .empty none 0)).SameMeasurement
    ((sampleLife.filter measured).foldl (after .standard .sample [Meter.sampleRule] sampleServer)
      (off .empty none 0)) :=
  measures_same .standard .standard .sample .sample [Meter.sampleRule] sampleServer sampleServer
    .empty none none 0 0 sampleLife (sampleLife.filter measured) rfl

end Board

end BleUsageMeter.Firmware
