import BleUsageMeter.Kit.Tally
import BleUsageMeter.Gateway.Config
import BleUsageMeter.Gateway.Handle

/-! `counted_events` of `config/events.example.yaml`, "which event names increment the billable
counter", beside what `Pipeline.handle` counts.  No code reads the setting: every matched write is
counted, and the counts are the billable ones as long as exactly the listed events occur. -/

namespace BleUsageMeter.Gateway

open Kit

/-- The names that a file lists as counted. -/
def countedEvents (doc : Yaml) : Option (List String) :=
  match doc with
  | .mapping entries _ =>
    match entries.lookup "counted_events" with
    | some (.list names _) => some (names.filterMap fun
      | .str name => some name
      | _ => none)
    | _ => none
  | _ => none

namespace Matcher

variable (matcher : Matcher) (listed : List String)

/-- The write is one of a listed event. -/
def IsListed (write : GattWrite) : Prop := ∃ event ∈ listed, matcher.eventOf write = some event

instance (write : GattWrite) : Decidable (matcher.IsListed listed write) :=
  inferInstanceAs (Decidable (∃ event ∈ listed, _))

/-- The number of a device's writes that are to be billed. -/
def billable (writes : List GattWrite) (deviceId : String) : Nat :=
  writes.countP fun write => write.peerAddr = deviceId ∧ matcher.IsListed listed write

/-- After some writes every count is the billable one, and every write is in the log. -/
structure Bills (writes : List GattWrite) : Prop where
  memory : ∀ d, (Meter.handleAll matcher writes).process.counter.get d =
    matcher.billable listed writes d
  stored : ∀ d, (Meter.handleAll matcher writes).store.count d = matcher.billable listed writes d
  logged : (Meter.handleAll matcher writes).store.events.map EventRow.entry =
    writes.map fun write => (write.peerAddr, matcher.classify write, 0)

/-- A matched write is one of a listed event exactly when its event is not named `unknown`. -/
def ListsMatched (write : GattWrite) : Prop :=
  ∀ event ∈ matcher.eventOf write, (event ∈ listed ↔ event ≠ unknown)

instance (write : GattWrite) : Decidable (matcher.ListsMatched listed write) :=
  inferInstanceAs (Decidable (∀ event ∈ matcher.eventOf write, _))

variable {matcher listed} {writes : List GattWrite}

/-- Where no event is empty, such a write is counted exactly when it is to be billed. -/
theorem listsMatched_iff {write : GattWrite} (hnames : matcher.eventOf write ≠ some "") :
    matcher.ListsMatched listed write ↔
      (matcher.classify write ≠ unknown ↔ matcher.IsListed listed write) := by
  unfold ListsMatched classify IsListed
  cases hmatch : matcher.eventOf write with
  | none => simp
  | some event =>
    have hevent : event ≠ "" := fun h => hnames (by rw [hmatch, h])
    simp [hevent, iff_comm]

/-- The units are those to be billed, and few enough to be stored. -/
theorem bills_iff : matcher.Bills listed writes ↔
    (∀ d, matcher.units writes d = matcher.billable listed writes d) ∧
      ∀ d, matcher.billable listed writes d < 2 ^ 63 := by
  have hmax : maxCount = 9223372036854775807 := rfl
  have hhandled := Meter.handled matcher writes
  constructor
  · rintro ⟨hmemory, hstored, -⟩
    have hunits : ∀ d, matcher.units writes d = matcher.billable listed writes d :=
      fun d => (hhandled.memory d).symm.trans (hmemory d)
    refine ⟨hunits, ?_⟩
    intro d
    have := hstored d
    rw [hhandled.count_eq, hunits] at this
    omega
  · rintro ⟨hunits, hfits⟩
    refine ⟨fun d => (hhandled.memory d).trans (hunits d), ?_, hhandled.logged⟩
    intro d
    have := hfits d
    rw [hhandled.count_eq, hunits]
    omega

/-- Every unit seen is to be billed, whichever writes have been seen, exactly when the units are
the writes to be billed. -/
theorem units_prefixes_iff :
    (∀ seen, seen <+: writes → ∀ d, matcher.units seen d = matcher.billable listed seen d) ↔
      ∀ write ∈ writes, (matcher.classify write ≠ unknown ↔ matcher.IsListed listed write) := by
  have hdevice : ∀ d, (∀ seen, seen <+: writes →
      matcher.units seen d = matcher.billable listed seen d) ↔ ∀ write ∈ writes,
        (write.peerAddr = d ∧ matcher.classify write ≠ unknown ↔
          write.peerAddr = d ∧ matcher.IsListed listed write) :=
    fun d => countP_prefixes_iff _ _ writes
  constructor
  · intro h write hwrite
    simpa using (hdevice write.peerAddr).mp (fun seen hseen => h seen hseen _) write hwrite
  · intro h seen hseen d
    apply (hdevice d).mpr _ seen hseen
    intro write hwrite
    rw [h write hwrite]

end Matcher

/-- Whatever the writes, the counts are the billable ones after each of them exactly when the
listed events are the events that occur under a name other than `unknown`, and no count is too
large for SQLite. -/
theorem billed_iff_listed {doc : Yaml} {rules : List EventRule} {listed : List String}
    (hload : loadEvents doc = .ok rules) (_ : countedEvents doc = some listed)
    (writes : List GattWrite) :
    (∀ seen, seen <+: writes → (Matcher.ofRules rules).Bills listed seen) ↔
      (∀ write ∈ writes, (Matcher.ofRules rules).ListsMatched listed write) ∧
        ∀ d, (Matcher.ofRules rules).billable listed writes d < 2 ^ 63 := by
  have hnames : ∀ write, (Matcher.ofRules rules).eventOf write ≠ some "" := by
    intro write h
    rw [Matcher.eventOf_ofRules] at h
    obtain ⟨rule, hrule, hevent⟩ := Option.map_eq_some_iff.mp h
    exact ((loadEvents_ok hload).1 rule (List.mem_of_find?_eq_some hrule)).event hevent
  have hlists : (∀ write ∈ writes, (Matcher.ofRules rules).ListsMatched listed write) ↔
      ∀ seen, seen <+: writes → ∀ d, (Matcher.ofRules rules).units seen d =
        (Matcher.ofRules rules).billable listed seen d := by
    rw [Matcher.units_prefixes_iff]
    exact forall₂_congr fun write _ => Matcher.listsMatched_iff (hnames write)
  simp only [Matcher.bills_iff, hlists]
  constructor
  · exact fun h => ⟨fun seen hseen => (h seen hseen).1, (h writes List.prefix_rfl).2⟩
  · exact fun h seen hseen =>
      ⟨h.1 seen hseen, fun d => hseen.sublist.countP_le.trans_lt (h.2 d)⟩

/-! ### The shipped example -/

def sampleUuid : String := "0000fff0-0000-1000-8000-00805f9b34fb"

def sampleRules : List EventRule :=
  [⟨sampleUuid, sampleUuid, [0xA0, 0x01], "work_unit"⟩,
    ⟨sampleUuid, sampleUuid, [0xA0, 0xFF], "cycle_aborted"⟩]

/-- Two rules, of which one is listed. -/
def sampleEvents : Yaml := .mapping
  [("events", .list [
      .mapping [("event", .str "work_unit"), ("service", .str "fff0"),
        ("characteristic", .str sampleUuid), ("prefix", .str "a001")] "\x7b...\x7d",
      .mapping [("event", .str "cycle_aborted"), ("service", .str "fff0"),
        ("characteristic", .str sampleUuid), ("prefix", .str "a0ff")] "\x7b...\x7d"]
      "[...]"),
    ("counted_events", .list [.str "work_unit"] "['work_unit']"),
    ("debounce_ms", .scalar "0" false)] "\x7b...\x7d"

theorem sampleEvents_loaded : loadEvents sampleEvents = .ok sampleRules := by
  apply ok_of_toOption
  decide +kernel

theorem sampleEvents_listed : countedEvents sampleEvents = some ["work_unit"] := by decide +kernel

def sampleWork : GattWrite := ⟨"d", sampleUuid, sampleUuid, [0xA0, 0x01]⟩

def sampleAborted : GattWrite := ⟨"d", sampleUuid, sampleUuid, [0xA0, 0xFF]⟩

theorem sampleWork_event : (Matcher.ofRules sampleRules).eventOf sampleWork = some "work_unit" := by
  rw [Matcher.eventOf_ofRules, sampleRules, sampleWork]
  generalize sampleUuid = s
  simp [EventRule.Fits]

theorem sampleWork_counted : (Matcher.ofRules sampleRules).classify sampleWork ≠ unknown := by
  rw [Matcher.classify, sampleWork_event]
  decide

theorem sampleAborted_event :
    (Matcher.ofRules sampleRules).eventOf sampleAborted = some "cycle_aborted" := by
  rw [Matcher.eventOf_ofRules, sampleRules, sampleAborted]
  generalize sampleUuid = s
  simp [EventRule.Fits]

/-- Writes of the listed event only. -/
theorem billed_iff_listed_sample : loadEvents sampleEvents = .ok sampleRules ∧
    ∀ seen, seen <+: [sampleWork, sampleWork] →
      (Matcher.ofRules sampleRules).Bills ["work_unit"] seen := by
  refine ⟨sampleEvents_loaded, ?_⟩
  apply (billed_iff_listed sampleEvents_loaded sampleEvents_listed _).mpr
  constructor
  · simp [Matcher.ListsMatched, sampleWork_event, unknown]
  · exact fun d => Nat.lt_of_le_of_lt List.countP_le_length (by decide)

/-- One write of an event that is not listed is counted. -/
theorem unlisted_counted : ¬∀ doc rules listed, loadEvents doc = .ok rules →
    countedEvents doc = some listed → ∀ writes, (Matcher.ofRules rules).Bills listed writes := by
  intro h
  have hbills := h _ _ _ sampleEvents_loaded sampleEvents_listed [sampleAborted]
  have hunits := (Matcher.bills_iff.mp hbills).1 "d"
  have hcounted : (Matcher.ofRules sampleRules).classify sampleAborted ≠ unknown := by
    rw [Matcher.classify, sampleAborted_event]
    decide
  have hlisted : ¬(Matcher.ofRules sampleRules).IsListed ["work_unit"] sampleAborted := by
    simp [Matcher.IsListed, sampleAborted_event]
  simp [Matcher.units, Matcher.billable, hcounted, hlisted] at hunits
  exact hunits rfl

end BleUsageMeter.Gateway
