import BleUsageMeter.Kit.FirstMatch
import BleUsageMeter.Gateway.Agreement
import BleUsageMeter.Gateway.Uuids

/-! "Same semantics as `firmware/esp32/event_matcher.cpp`": the gateway's index by characteristic
finds the rule that the firmware finds in a scan of all of them. -/

namespace BleUsageMeter.Gateway

open Kit
open Firmware (Uuid128 uuidFromString matchWrite)

/-- The UUIDs of the rule are written in 8-4-4-4-12 form. -/
structure EventRule.Canonical (rule : EventRule) : Prop where
  service : CanonicalUuid rule.service
  characteristic : CanonicalUuid rule.characteristic

/-- The firmware's rule is the gateway's one, with its UUIDs as bytes. -/
structure EventRule.Compiled (rule : EventRule) (out : Firmware.EventRule) : Prop where
  service : out.service.text = rule.service
  characteristic : out.characteristic.text = rule.characteristic
  payloadPrefix : out.payloadPrefix = rule.payloadPrefix
  event : out.event = rule.event

variable {rule : EventRule} {rules : List EventRule} {out : Firmware.EventRule}
  {compiled : List Firmware.EventRule} {write : GattWrite} {service characteristic : Uuid128}

theorem EventRule.Canonical.exists_compiled (h : rule.Canonical) :
    ∃ out, rule.compile = some out ∧ rule.Compiled out := by
  obtain ⟨service, hservice⟩ := exists_uuid_text h.service
  obtain ⟨characteristic, hcharacteristic⟩ := exists_uuid_text h.characteristic
  refine ⟨⟨service, characteristic, rule.payloadPrefix, rule.event⟩, ?_,
    hservice, hcharacteristic, rfl, rfl⟩
  rw [EventRule.compile, ← hservice, ← hcharacteristic, Firmware.uuidFromString_text,
    Firmware.uuidFromString_text]
  rfl

theorem exists_compiled_rules (h : ∀ rule ∈ rules, rule.Canonical) :
    ∃ compiled, rules.mapM EventRule.compile = some compiled ∧
      List.Forall₂ EventRule.Compiled rules compiled := by
  induction rules with
  | nil => exact ⟨[], rfl, .nil⟩
  | cons rule rest ih =>
    rw [List.forall_mem_cons] at h
    obtain ⟨out, hout, hcompiled⟩ := h.1.exists_compiled
    obtain ⟨compiled, hrest, hlists⟩ := ih h.2
    refine ⟨out :: compiled, ?_, .cons hcompiled hlists⟩
    simp [hout, hrest]

theorem EventRule.Compiled.fits_iff (h : rule.Compiled out)
    (hservice : service.text = lower write.service)
    (hcharacteristic : characteristic.text = lower write.characteristic) :
    rule.Fits write ↔ out.Fits service characteristic write.payload := by
  have hlower : ∀ u : Uuid128, lower u.text = u.text := fun u => lower_spelled u.text_spells
  have htext : ∀ u v : Uuid128, u.text = v.text ↔ u = v :=
    fun u v => ⟨Uuid128.text_injective, congrArg _⟩
  rw [EventRule.Fits, Firmware.EventRule.Fits, ← h.service, ← h.characteristic, ← hservice,
    ← hcharacteristic, h.payloadPrefix, hlower, hlower, Prod.mk.injEq, htext, htext, and_assoc]

/-- The first rule of the index and the first rule of the scan have the same event. -/
theorem eventOf_eq_first (hlists : List.Forall₂ EventRule.Compiled rules compiled)
    (hservice : service.text = lower write.service)
    (hcharacteristic : characteristic.text = lower write.characteristic) :
    (Matcher.ofRules rules).eventOf write = (compiled.find? fun out =>
      out.Fits service characteristic write.payload).map Firmware.EventRule.event := by
  rw [Matcher.eventOf_ofRules]
  apply find?_forall₂ _ hlists
  intro rule out h
  refine ⟨?_, h.event.symm⟩
  rw [decide_eq_decide]
  exact h.fits_iff hservice hcharacteristic

/-- For rules with canonical UUIDs, in the same order on both sides, and writes whose UUIDs are
canonical but for the letter case, the gateway and the firmware report the same event or both
none. -/
theorem index_refines_scan (hrules : ∀ rule ∈ rules, rule.Canonical) (write : GattWrite)
    (hservice : CanonicalUuid (lower write.service))
    (hcharacteristic : CanonicalUuid (lower write.characteristic)) :
    ∃ compiled service characteristic, rules.mapM EventRule.compile = some compiled ∧
      uuidFromString write.service = some service ∧
      uuidFromString write.characteristic = some characteristic ∧
      (∀ e, (Matcher.ofRules rules).eventOf write = some e ↔
        matchWrite service characteristic write.payload compiled =
          { matched := true, event := e }) ∧
      ((Matcher.ofRules rules).eventOf write = none ↔
        (matchWrite service characteristic write.payload compiled).matched = false) := by
  obtain ⟨compiled, hcompiled, hlists⟩ := exists_compiled_rules hrules
  obtain ⟨service, hread, hservice⟩ := exists_uuid_of_lower hservice
  obtain ⟨characteristic, hread', hcharacteristic⟩ := exists_uuid_of_lower hcharacteristic
  refine ⟨compiled, service, characteristic, hcompiled, hread, hread', ?_⟩
  rw [eventOf_eq_first hlists hservice hcharacteristic, Firmware.matchWrite_eq]
  cases compiled.find? fun out => out.Fits service characteristic write.payload with
  | none => simp
  | some out => simp

/-! ### Capital letters -/

def capitalWrite : GattWrite :=
  ⟨"d", "0000FFF0-0000-1000-8000-00805F9B34FB", "0000FFF0-0000-1000-8000-00805F9B34FB",
    [0xA0, 0x01]⟩

theorem lower_capital : lower "0000FFF0-0000-1000-8000-00805F9B34FB" = sampleUuid := by
  decide +kernel

theorem sampleUuid_canonical : CanonicalUuid sampleUuid :=
  text_sampleUuid ▸ Uuid128.canonical_text _

theorem sampleRules_canonical : ∀ rule ∈ sampleRules, rule.Canonical := by
  simp only [sampleRules, List.forall_mem_cons]
  exact ⟨⟨sampleUuid_canonical, sampleUuid_canonical⟩,
    ⟨sampleUuid_canonical, sampleUuid_canonical⟩, by simp⟩

/-- A unit of work on both sides. -/
theorem index_refines_scan_sample : ∃ compiled service characteristic,
    sampleRules.mapM EventRule.compile = some compiled ∧
      uuidFromString capitalWrite.service = some service ∧
      uuidFromString capitalWrite.characteristic = some characteristic ∧
      matchWrite service characteristic [0xA0, 0x01] compiled =
        { matched := true, event := "work_unit" } := by
  have hlower : CanonicalUuid (lower capitalWrite.service) := lower_capital ▸ sampleUuid_canonical
  obtain ⟨compiled, service, characteristic, hcompiled, hservice, hcharacteristic, hsome, -⟩ :=
    index_refines_scan sampleRules_canonical capitalWrite hlower hlower
  refine ⟨compiled, service, characteristic, hcompiled, hservice, hcharacteristic, ?_⟩
  apply (hsome _).mp
  have hsame : lower sampleUuid = sampleUuid :=
    text_sampleUuid ▸ lower_spelled (Uuid128.text_spells _)
  rw [Matcher.eventOf_ofRules, sampleRules, capitalWrite]
  simp [EventRule.Fits, lower_capital, hsame]

end BleUsageMeter.Gateway
