import BleUsageMeter.Kit.FirstMatch
import BleUsageMeter.Gateway.Billing

/-! "Rule order can never change the count": `load_events` refuses two rules on the same triple, but
not two rules of which one has the longer prefix, and then the first one wins. -/

namespace BleUsageMeter.Gateway

open Kit

/-- A write that begins with the prefix of the second rule fits both. -/
def EventRule.Overlaps (r s : EventRule) : Prop :=
  r.service = s.service ∧ r.characteristic = s.characteristic ∧ r.payloadPrefix <+: s.payloadPrefix

instance (r s : EventRule) : Decidable (r.Overlaps s) := inferInstanceAs (Decidable (_ ∧ _ ∧ _))

/-- Every write is the same event with both lists of rules. -/
def SameEvents (a b : List EventRule) : Prop :=
  ∀ write, (Matcher.ofRules a).eventOf write = (Matcher.ofRules b).eventOf write

/-- After any writes both lists of rules have led to the same counts, in memory and persisted. -/
def SameCounts (a b : List EventRule) : Prop :=
  ∀ writes d, (Meter.handleAll (.ofRules a) writes).process.counter.get d =
      (Meter.handleAll (.ofRules b) writes).process.counter.get d ∧
    (Meter.handleAll (.ofRules a) writes).store.count d =
      (Meter.handleAll (.ofRules b) writes).store.count d

variable {rules perm : List EventRule} {r s : EventRule}

theorem EventRule.Fits.overlaps {write : GattWrite} (hr : r.WellFormed) (hs : s.WellFormed)
    (hfr : r.Fits write) (hfs : s.Fits write) : r.Overlaps s ∨ s.Overlaps r := by
  obtain ⟨hkey, hpre⟩ := hfr
  obtain ⟨hkey', hpre'⟩ := hfs
  have hsame := hkey.trans hkey'.symm
  rw [lower_spelled hr.service, lower_spelled hr.characteristic, lower_spelled hs.service,
    lower_spelled hs.characteristic, Prod.mk.injEq] at hsame
  obtain ⟨hservice, hcharacteristic⟩ := hsame
  rcases List.prefix_or_prefix_of_prefix hpre hpre' with h | h
  · exact .inl ⟨hservice, hcharacteristic, h⟩
  · exact .inr ⟨hservice.symm, hcharacteristic.symm, h⟩

theorem EventRule.Overlaps.fits (h : r.Overlaps s) :
    r.Fits ⟨"", s.service, s.characteristic, s.payloadPrefix⟩ ∧
      s.Fits ⟨"", s.service, s.characteristic, s.payloadPrefix⟩ := by
  obtain ⟨hservice, hcharacteristic, hprefix⟩ := h
  refine ⟨⟨?_, hprefix⟩, rfl, List.prefix_rfl⟩
  rw [hservice, hcharacteristic]

/-- Rules that fit one write agree on `f` exactly when overlapping ones do. -/
theorem fits_agree_iff {γ : Type} (f : EventRule → γ) (hformed : ∀ r ∈ rules, r.WellFormed) :
    (∀ write : GattWrite, ∀ r ∈ rules, ∀ s ∈ rules, r.Fits write → s.Fits write → f r = f s) ↔
      ∀ r ∈ rules, ∀ s ∈ rules, r.Overlaps s → f r = f s := by
  constructor
  · intro h r hr s hs hoverlaps
    exact h _ r hr s hs hoverlaps.fits.1 hoverlaps.fits.2
  · intro h write r hr s hs hfr hfs
    rcases hfr.overlaps (hformed r hr) (hformed s hs) hfs with hrs | hsr
    · exact h r hr s hs hrs
    · exact (h s hs r hr hsr).symm

/-- What the first fitting rule stands for does not depend on the order exactly when overlapping
rules stand for the same. -/
theorem first_fit_perm_iff {γ : Type} (f : EventRule → γ) (hformed : ∀ r ∈ rules, r.WellFormed) :
    (∀ perm : List EventRule, perm.Perm rules → ∀ write : GattWrite,
      (perm.find? fun r => r.Fits write).map f = (rules.find? fun r => r.Fits write).map f) ↔
        ∀ r ∈ rules, ∀ s ∈ rules, r.Overlaps s → f r = f s := by
  rw [← fits_agree_iff f hformed]
  constructor
  · intro h write r hr s hs hfr hfs
    exact (find?_perm_iff (fun r => decide (r.Fits write)) f rules).mp
      (fun perm hperm => h perm hperm write) r hr s hs (by simpa using hfr) (by simpa using hfs)
  · intro h perm hperm write
    apply (find?_perm_iff (fun r => decide (r.Fits write)) f rules).mpr _ perm hperm
    intro r hr s hs hfr hfs
    exact h write r hr s hs (by simpa using hfr) (by simpa using hfs)

theorem sameCounts_iff {a b : List EventRule} :
    SameCounts a b ↔ ∀ write, ((Matcher.ofRules a).classify write ≠ unknown ↔
      (Matcher.ofRules b).classify write ≠ unknown) := by
  constructor
  · intro h write
    have hcount := (h [write] write.peerAddr).1
    rw [(Meter.handled _ _).memory, (Meter.handled _ _).memory] at hcount
    by_cases ha : (Matcher.ofRules a).classify write = unknown <;>
      by_cases hb : (Matcher.ofRules b).classify write = unknown <;>
        simp_all [Matcher.units]
  · intro h writes d
    have hunits : (Matcher.ofRules a).units writes d = (Matcher.ofRules b).units writes d := by
      rw [Matcher.units, Matcher.units]
      apply List.countP_congr
      intro write _
      simp only [h write]
    refine ⟨?_, ?_⟩
    · rw [(Meter.handled _ _).memory, (Meter.handled _ _).memory, hunits]
    · rw [(Meter.handled _ _).count_eq, (Meter.handled _ _).count_eq, hunits]

/-- A reordered list has a fitting rule for the same writes, so its counts are the same when it has
the same answer to whether the first one is named `unknown`. -/
theorem sameCounts_perm_iff (hformed : ∀ r ∈ rules, r.WellFormed) (hperm : perm.Perm rules) :
    SameCounts perm rules ↔ ∀ write : GattWrite,
      (perm.find? fun r => r.Fits write).map (fun r => decide (r.event = unknown)) =
        (rules.find? fun r => r.Fits write).map fun r => decide (r.event = unknown) := by
  have hcounted : ∀ list : List EventRule, (∀ r ∈ list, r.WellFormed) → ∀ write,
      ((Matcher.ofRules list).classify write ≠ unknown ↔ (list.find? fun r => r.Fits write).map
        (fun r => decide (r.event = unknown)) = some false) := by
    intro list hlist write
    rw [Matcher.classify_ne_unknown, Option.map_eq_some_iff]
    refine exists_congr fun r => and_congr_right fun hfound => ?_
    rw [decide_eq_false_iff_not]
    exact and_iff_right (hlist r (List.mem_of_find?_eq_some hfound)).event
  rw [sameCounts_iff]
  refine forall_congr' fun write => ?_
  rw [hcounted rules hformed, hcounted perm fun r hr => hformed r (hperm.mem_iff.mp hr)]
  have hnone : perm.find? (fun r => r.Fits write) = none ↔
      rules.find? (fun r => r.Fits write) = none := by
    simp only [List.find?_eq_none, hperm.mem_iff]
  cases hp : perm.find? fun r => r.Fits write with
  | none =>
    rw [hnone.mp hp]
    simp
  | some r =>
    cases hr : rules.find? fun r => r.Fits write with
    | none => exact absurd (hnone.mpr hr) (by simp [hp])
    | some s => by_cases hevent : r.event = unknown <;> simp [hevent]

/-- The order of accepted rules never matters exactly when rules of which one is for the longer
prefix have the same event.  It never matters to the counts exactly when both or none of them are
named `unknown`. -/
theorem order_irrelevant_iff {doc : Yaml} (hload : loadEvents doc = .ok rules) :
    ((∀ perm, perm.Perm rules → SameEvents perm rules ∧ SameCounts perm rules) ↔
      ∀ r ∈ rules, ∀ s ∈ rules, r.Overlaps s → r.event = s.event) ∧
    ((∀ perm, perm.Perm rules → SameCounts perm rules) ↔
      ∀ r ∈ rules, ∀ s ∈ rules, r.Overlaps s → (r.event = unknown ↔ s.event = unknown)) := by
  obtain ⟨hformed, -⟩ := loadEvents_ok hload
  have hevents : ∀ perm : List EventRule, SameEvents perm rules ↔ ∀ write : GattWrite,
      (perm.find? fun r => r.Fits write).map EventRule.event =
        (rules.find? fun r => r.Fits write).map EventRule.event := by
    intro perm
    simp only [SameEvents, Matcher.eventOf_ofRules]
  have hcounts : ∀ perm, SameEvents perm rules → SameCounts perm rules := by
    intro perm h
    apply sameCounts_iff.mpr
    intro write
    rw [Matcher.classify, Matcher.classify, h write]
  constructor
  · rw [← first_fit_perm_iff EventRule.event hformed]
    constructor
    · exact fun h perm hperm => (hevents perm).mp (h perm hperm).1
    · intro h perm hperm
      have hsame := (hevents perm).mpr (h perm hperm)
      exact ⟨hsame, hcounts perm hsame⟩
  · have hfirst := first_fit_perm_iff (fun r => decide (r.event = unknown)) hformed
    simp only [decide_eq_decide] at hfirst
    rw [← hfirst]
    exact forall₂_congr fun perm hperm => sameCounts_perm_iff hformed hperm

/-! ### A rule within another -/

/-- The rules of the shipped example, in either order. -/
theorem order_irrelevant_iff_sample : loadEvents sampleEvents = .ok sampleRules ∧
    SameEvents sampleRules.reverse sampleRules := by
  refine ⟨sampleEvents_loaded, ?_⟩
  refine ((order_irrelevant_iff sampleEvents_loaded).1.mpr ?_ _ (List.reverse_perm _)).1
  simp only [sampleRules, List.forall_mem_cons, EventRule.Overlaps]
  decide +kernel

def nestedRules : List EventRule :=
  [⟨sampleUuid, sampleUuid, [0xA0], "status_poll"⟩,
    ⟨sampleUuid, sampleUuid, [0xA0, 0x01], "work_unit"⟩]

/-- A short prefix before a longer one. -/
def nestedEvents : Yaml := .mapping
  [("events", .list [
      .mapping [("event", .str "status_poll"), ("service", .str "fff0"),
        ("characteristic", .str sampleUuid), ("prefix", .str "a0")] "\x7b...\x7d",
      .mapping [("event", .str "work_unit"), ("service", .str "fff0"),
        ("characteristic", .str sampleUuid), ("prefix", .str "a001")] "\x7b...\x7d"]
      "[...]")] "\x7b...\x7d"

theorem nestedEvents_loaded : loadEvents nestedEvents = .ok nestedRules := by
  apply ok_of_toOption
  decide +kernel

/-- The write of a unit of work is a status poll in one order of the rules. -/
theorem nested_order_matters : ¬∀ doc rules perm, loadEvents doc = .ok rules →
    perm.Perm rules → SameEvents perm rules := by
  intro h
  have hsame := h _ _ _ nestedEvents_loaded (List.reverse_perm nestedRules) sampleWork
  rw [Matcher.eventOf_ofRules, Matcher.eventOf_ofRules, nestedRules, sampleWork] at hsame
  generalize sampleUuid = s at hsame
  simp [EventRule.Fits] at hsame

end BleUsageMeter.Gateway
