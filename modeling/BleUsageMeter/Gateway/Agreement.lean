import Mathlib.Data.List.Find
import Mathlib.Tactic.Tauto
import BleUsageMeter.Kit.Tally
import BleUsageMeter.Firmware.Values
import BleUsageMeter.Gateway.Billing

/-! The counts of a gateway beside those of a firmware with the same rules, for the same values of
one peer: "both sides must agree on what counts".  They differ by the empty values that only the
gateway counts and by those that only the firmware counts, because the first rule for them is named
`unknown` or has its hyphens in other places than a BLE stack. -/

namespace BleUsageMeter.Gateway

open Kit
open Firmware (AttValue BleAddr Observer Node uuidFromString fmtAddr)

/-- A rule as the firmware's matcher has it, its UUIDs read by `uuid_from_string`. -/
def EventRule.compile (rule : EventRule) : Option Firmware.EventRule := do
  return ⟨← uuidFromString rule.service, ← uuidFromString rule.characteristic,
    rule.payloadPrefix, rule.event⟩

/-- The value as the gateway's BLE stack hands it over. -/
def gattWrite (address : String) (v : AttValue) : GattWrite :=
  ⟨address, v.service.text, v.characteristic.text, v.payload⟩

/-- The gateway, after some values of the peer that it knows under an address. -/
def gatewayAfter (rules : List EventRule) (address : String) (values : List AttValue) : Meter :=
  Meter.handleAll (.ofRules rules) (values.map (gattWrite address))

/-- After some values of one peer, both sides have the same count of it, in memory and persisted. -/
structure CountsAgree (rules : List EventRule) (compiled : List Firmware.EventRule)
    (address : String) (peer : BleAddr) (observer : Observer) (values : List AttValue) : Prop where
  memory : (gatewayAfter rules address values).process.counter.get address =
    (Node.receiveAll compiled peer observer values).meter.counter.get (fmtAddr peer)
  stored : (gatewayAfter rules address values).store.count address =
    (Node.receiveAll compiled peer observer values).meter.persisted (fmtAddr peer)

/-! ### Which side counts a value -/

/-- The rule has the UUIDs of the value as they are written, and its prefix is that of the value. -/
def EventRule.Names (rule : EventRule) (v : AttValue) : Prop :=
  rule.service = v.service.text ∧ rule.characteristic = v.characteristic.text ∧
    rule.payloadPrefix <+: v.payload

instance (rule : EventRule) (v : AttValue) : Decidable (rule.Names v) :=
  inferInstanceAs (Decidable (_ ∧ _ ∧ _))

/-- The rule has the digits of the UUIDs of the value, and its prefix is that of the value. -/
def EventRule.Reads (rule : EventRule) (v : AttValue) : Prop :=
  uuidFromString rule.service = some v.service ∧
    uuidFromString rule.characteristic = some v.characteristic ∧ rule.payloadPrefix <+: v.payload

instance (rule : EventRule) (v : AttValue) : Decidable (rule.Reads v) :=
  inferInstanceAs (Decidable (_ ∧ _ ∧ _))

/-- The first rule that names the value has another name than `unknown`. -/
def Billed (rules : List EventRule) (v : AttValue) : Prop :=
  ∃ rule ∈ rules.find? (·.Names v), rule.event ≠ unknown

instance (rules : List EventRule) (v : AttValue) : Decidable (Billed rules v) :=
  inferInstanceAs (Decidable (∃ rule ∈ rules.find? (·.Names v), rule.event ≠ unknown))

/-- An empty value with a rule, which then has an empty prefix, that is not named `unknown`. -/
def GatewayOnly (rules : List EventRule) (v : AttValue) : Prop :=
  v.payload = [] ∧ Billed rules v

instance (rules : List EventRule) (v : AttValue) : Decidable (GatewayOnly rules v) :=
  inferInstanceAs (Decidable (_ ∧ _))

/-- A value with a rule for its digits, but none for its text, or one named `unknown`. -/
def FirmwareOnly (rules : List EventRule) (v : AttValue) : Prop :=
  v.payload ≠ [] ∧ (∃ rule ∈ rules, rule.Reads v) ∧ ¬Billed rules v

instance (rules : List EventRule) (v : AttValue) : Decidable (FirmwareOnly rules v) :=
  inferInstanceAs (Decidable (_ ∧ (∃ rule ∈ rules, _) ∧ _))

variable {rule : EventRule} {rules : List EventRule} {compiled : List Firmware.EventRule}
  {v : AttValue} {values : List AttValue}

theorem EventRule.WellFormed.fits_iff (h : rule.WellFormed) (address : String) :
    rule.Fits (gattWrite address v) ↔ rule.Names v := by
  simp only [Fits, gattWrite, lower_spelled h.service, lower_spelled h.characteristic,
    lower_spelled v.service.text_spells, lower_spelled v.characteristic.text_spells,
    Prod.mk.injEq, Names, and_assoc]

theorem EventRule.Names.reads (h : rule.Names v) : rule.Reads v := by
  obtain ⟨hservice, hcharacteristic, hprefix⟩ := h
  refine ⟨?_, ?_, hprefix⟩
  · rw [hservice, Firmware.uuidFromString_text]
  · rw [hcharacteristic, Firmware.uuidFromString_text]

theorem Billed.reads (h : Billed rules v) : ∃ rule ∈ rules, rule.Reads v := by
  obtain ⟨rule, hfound, -⟩ := h
  refine ⟨rule, List.mem_of_find?_eq_some hfound, ?_⟩
  exact EventRule.Names.reads (by simpa using List.find?_some hfound)

/-- The gateway counts the values that are billed. -/
theorem classify_gattWrite (hformed : ∀ rule ∈ rules, rule.WellFormed) (address : String) :
    (Matcher.ofRules rules).classify (gattWrite address v) ≠ unknown ↔ Billed rules v := by
  have hfind : (rules.find? fun rule => rule.Fits (gattWrite address v)) =
      rules.find? (·.Names v) := by
    apply List.find?_congr
    intro rule hrule
    rw [decide_eq_decide]
    exact (hformed rule hrule).fits_iff address
  rw [Matcher.classify_ne_unknown, hfind]
  constructor
  · rintro ⟨rule, hfound, -, hname⟩
    exact ⟨rule, hfound, hname⟩
  · rintro ⟨rule, hfound, hname⟩
    exact ⟨rule, hfound, (hformed rule (List.mem_of_find?_eq_some hfound)).event, hname⟩

theorem compile_eq_some {out : Firmware.EventRule} (h : rule.compile = some out) :
    out.Fits v.service v.characteristic v.payload ↔ rule.Reads v := by
  simp only [EventRule.compile, Option.bind_eq_bind, Option.bind_eq_some_iff, Option.pure_def,
    Option.some.injEq] at h
  obtain ⟨service, hservice, characteristic, hcharacteristic, rfl⟩ := h
  simp [Firmware.EventRule.Fits, EventRule.Reads, hservice, hcharacteristic]

theorem exists_compiled (hformed : ∀ rule ∈ rules, rule.WellFormed) :
    ∃ compiled, rules.mapM EventRule.compile = some compiled ∧
      ∀ v : AttValue, v.Recorded compiled ↔ v.payload ≠ [] ∧ ∃ rule ∈ rules, rule.Reads v := by
  induction rules with
  | nil => exact ⟨[], rfl, by simp [AttValue.Recorded, Firmware.matchWrite]⟩
  | cons rule rest ih =>
    obtain ⟨compiled, hrest, hrecorded⟩ := ih fun r hr => hformed r (List.mem_cons_of_mem _ hr)
    obtain ⟨hservice, hcharacteristic, -⟩ := hformed rule List.mem_cons_self
    obtain ⟨service, hservice⟩ :=
      Option.isSome_iff_exists.mp (Firmware.uuidFromString_isSome hservice)
    obtain ⟨characteristic, hcharacteristic⟩ :=
      Option.isSome_iff_exists.mp (Firmware.uuidFromString_isSome hcharacteristic)
    have hcompile : rule.compile =
        some ⟨service, characteristic, rule.payloadPrefix, rule.event⟩ := by
      simp [EventRule.compile, hservice, hcharacteristic]
    refine ⟨⟨service, characteristic, rule.payloadPrefix, rule.event⟩ :: compiled, ?_, ?_⟩
    · simp [hcompile, hrest]
    · intro v
      have hrest := hrecorded v
      rw [AttValue.Recorded, Firmware.matchWrite_matched] at hrest ⊢
      rw [List.exists_mem_cons_iff, List.exists_mem_cons_iff, compile_eq_some hcompile, and_or_left,
        and_or_left, hrest]

/-! ### What both sides have counted -/

theorem gateway_units (hformed : ∀ rule ∈ rules, rule.WellFormed) (address : String)
    (values : List AttValue) :
    (Matcher.ofRules rules).units (values.map (gattWrite address)) address =
      values.countP fun v => Billed rules v := by
  rw [Matcher.units, List.countP_map]
  apply List.countP_congr
  intro v _
  simp only [Function.comp_apply, decide_eq_true_eq]
  exact (and_iff_right rfl).trans (classify_gattWrite hformed address)

/-- The counts agree when both sides have counted as many values, and SQLite can hold the count. -/
theorem countsAgree_iff_counted (hformed : ∀ rule ∈ rules, rule.WellFormed) {observer : Observer}
    (hidle : observer.Idle) (hattached : observer.attached = true) (address : String)
    (peer : BleAddr) (values : List AttValue) :
    CountsAgree rules compiled address peer observer values ↔
      (values.countP fun v => Billed rules v) = (values.countP fun v => v.Recorded compiled) ∧
        (values.countP fun v => Billed rules v) < 2 ^ 63 := by
  have hgateway := Meter.handled (Matcher.ofRules rules) (values.map (gattWrite address))
  have hmemory := hgateway.memory address
  have hstored := hgateway.count_eq address
  rw [gateway_units hformed] at hmemory hstored
  obtain ⟨-, -, -, hmemory', hstored'⟩ :=
    Node.receiveAll_tallies hidle hattached compiled peer values
  have hmax : maxCount = 2 ^ 63 - 1 := rfl
  have hmax' : Firmware.uint64Max = 2 ^ 64 - 1 := rfl
  constructor
  · rintro ⟨hlive, hpersisted⟩
    rw [gatewayAfter, hmemory, hmemory'] at hlive
    rw [gatewayAfter, hstored, hstored'] at hpersisted
    omega
  · rintro ⟨hsame, hfits⟩
    refine ⟨?_, ?_⟩
    · rw [gatewayAfter, hmemory, hmemory']
      omega
    · rw [gatewayAfter, hstored, hstored']
      omega

/-- The rules of an accepted file compile, and then both sides have the same counts when as many
values are counted by the gateway only as by the firmware only.  They have them all along when
there are no such values. -/
theorem counts_agree_iff {doc : Yaml} {rules : List EventRule} (hload : loadEvents doc = .ok rules)
    {observer : Observer} (hidle : observer.Idle) (hattached : observer.attached = true)
    (address : String) (peer : BleAddr) (values : List AttValue) :
    ∃ compiled, rules.mapM EventRule.compile = some compiled ∧
      (CountsAgree rules compiled address peer observer values ↔
        (values.countP fun v => GatewayOnly rules v) =
            (values.countP fun v => FirmwareOnly rules v) ∧
          (values.countP fun v => Billed rules v) < 2 ^ 63) ∧
      ((∀ seen, seen <+: values → CountsAgree rules compiled address peer observer seen) ↔
        (∀ v ∈ values, ¬GatewayOnly rules v ∧ ¬FirmwareOnly rules v) ∧
          (values.countP fun v => Billed rules v) < 2 ^ 63) := by
  obtain ⟨hformed, -⟩ := loadEvents_ok hload
  obtain ⟨compiled, hcompiled, hrecorded⟩ := exists_compiled hformed
  have hgateway : ∀ v, GatewayOnly rules v ↔ Billed rules v ∧ ¬v.Recorded compiled := by
    intro v
    rw [hrecorded, GatewayOnly]
    constructor
    · exact fun h => ⟨h.2, fun hrec => hrec.1 h.1⟩
    · exact fun h => ⟨not_not.mp fun hne => h.2 ⟨hne, h.1.reads⟩, h.1⟩
  have hfirmware : ∀ v, FirmwareOnly rules v ↔ v.Recorded compiled ∧ ¬Billed rules v := by
    intro v
    rw [hrecorded, FirmwareOnly, and_assoc]
  have hneither : ∀ v, ¬GatewayOnly rules v ∧ ¬FirmwareOnly rules v ↔
      (Billed rules v ↔ v.Recorded compiled) := by
    intro v
    rw [hgateway, hfirmware]
    tauto
  simp only [countsAgree_iff_counted hformed hidle hattached]
  refine ⟨compiled, hcompiled, ?_, ?_⟩
  · have hcounts := countP_add_countP_not (Billed rules) (AttValue.Recorded compiled) values
    simp only [hgateway, hfirmware]
    omega
  · simp only [hneither, ← countP_prefixes_iff]
    constructor
    · exact fun h => ⟨fun seen hseen => (h seen hseen).1, (h values List.prefix_rfl).2⟩
    · exact fun h seen hseen => ⟨h.1 seen hseen, hseen.sublist.countP_le.trans_lt h.2⟩

/-! ### A rule without a prefix -/

def samplePeer : BleAddr := ⟨0, .replicate 6 0⟩

/-- An observer that has started. -/
def sampleObserver : Observer :=
  Observer.start ⟨fun _ => ⟨0, 0, ⟨.replicate 16 0⟩, ⟨.replicate 16 0⟩, samplePeer, [], 0, false⟩,
    false, 0⟩

def sampleValue (payload : List UInt8)
    (h : payload.length ≤ Firmware.kMaxAttPayload := by decide) : AttValue :=
  ⟨1, 1, Firmware.uuidFrom16 0xFFF0, Firmware.uuidFrom16 0xFFF0, payload, 0, h⟩

theorem text_sampleUuid : (Firmware.uuidFrom16 0xFFF0).text = sampleUuid := by decide +kernel

theorem sampleObserver_idle : sampleObserver.Idle := fun _ => rfl

/-- Units of work that both sides count. -/
theorem counts_agree_iff_sample : loadEvents sampleEvents = .ok sampleRules ∧
    ∃ compiled, sampleRules.mapM EventRule.compile = some compiled ∧
      CountsAgree sampleRules compiled "d" samplePeer sampleObserver
        [sampleValue [0xA0, 0x01], sampleValue [0xA0, 0x01]] := by
  have hbilled : Billed sampleRules (sampleValue [0xA0, 0x01]) := by
    simp [Billed, sampleRules, EventRule.Names, sampleValue, text_sampleUuid, unknown]
  have hgateway : ¬GatewayOnly sampleRules (sampleValue [0xA0, 0x01]) := by
    rintro ⟨hempty, -⟩
    cases hempty
  have hfirmware : ¬FirmwareOnly sampleRules (sampleValue [0xA0, 0x01]) := fun h => h.2.2 hbilled
  obtain ⟨compiled, hcompiled, hagree, -⟩ := counts_agree_iff sampleEvents_loaded
    sampleObserver_idle rfl "d" samplePeer [sampleValue [0xA0, 0x01], sampleValue [0xA0, 0x01]]
  refine ⟨sampleEvents_loaded, compiled, hcompiled, hagree.mpr ⟨?_, ?_⟩⟩
  · simp [hgateway, hfirmware]
  · exact List.countP_le_length.trans_lt (by decide)

def openRules : List EventRule := [⟨sampleUuid, sampleUuid, [], "power_on"⟩]

/-- A rule for any payload. -/
def openEvents : Yaml := .mapping
  [("events", .list [
      .mapping [("event", .str "power_on"), ("service", .str "fff0"),
        ("characteristic", .str "fff0")] "\x7b...\x7d"]
      "[...]")] "\x7b...\x7d"

theorem openEvents_loaded : loadEvents openEvents = .ok openRules := by
  apply ok_of_toOption
  decide +kernel

/-- An empty value is counted by the gateway only. -/
theorem empty_value_disagrees : ¬∀ doc rules compiled observer address peer values,
    loadEvents doc = .ok rules → rules.mapM EventRule.compile = some compiled →
      observer.Idle → observer.attached = true →
        CountsAgree rules compiled address peer observer values := by
  intro h
  obtain ⟨hformed, -⟩ := loadEvents_ok openEvents_loaded
  obtain ⟨compiled, hcompiled, -⟩ := exists_compiled hformed
  have hbilled : Billed openRules (sampleValue []) := by
    simp [Billed, openRules, EventRule.Names, sampleValue, text_sampleUuid, unknown]
  have hrecorded : ¬(sampleValue []).Recorded compiled := fun h => h.1 rfl
  have hagree := h openEvents openRules compiled sampleObserver "d" samplePeer [sampleValue []]
    openEvents_loaded hcompiled sampleObserver_idle rfl
  have hcounts := (countsAgree_iff_counted hformed sampleObserver_idle rfl _ _ _).mp hagree
  simp [hbilled, hrecorded] at hcounts

end BleUsageMeter.Gateway
