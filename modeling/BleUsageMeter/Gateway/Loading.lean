import BleUsageMeter.Kit.Gather
import BleUsageMeter.Gateway.Config

/-! `load_events` in full: which files are accepted, as which rules, and which error is raised for
any other file.  "Two rules on the same triple would make the count depend on list order." -/

namespace BleUsageMeter.Gateway

open Kit

/-- The rule that an item says, whatever stands before the item. -/
structure EventRule.Says (item : Yaml) (rule : EventRule) : Prop extends rule.ReadFrom item where
  name : ∃ raw, item.field "event" = some raw ∧ rule.event = strip raw.text

/-- The error has the place of the item among the items, or the value of the item that is no UUID
or no hexadecimal text. -/
inductive LoadError.Names (i : Nat) (item : Yaml) : LoadError → Prop
  | notMapping : Names i item (.config (.notMapping i))
  | missing (key : String) (hkey : item.field key = none) :
      Names i item (.config (.missing i key))
  | emptyName : Names i item (.config (.emptyName i))
  | duplicate : Names i item (.config (.duplicate i))
  | notUuid {key : String} {raw : Yaml} (hkey : key = "service" ∨ key = "characteristic")
      (hraw : item.field key = some raw) : Names i item (.config (.notUuid raw))
  | notHex {raw : Yaml} (hraw : item.field "prefix" = some raw) :
      Names i item (.config (.notHex raw))

section Rules

variable {i : Nat} {rules : List EventRule} {item : Yaml} {rule : EventRule} {e : LoadError}

theorem required_ok_iff {entries : List (String × Yaml)} {key : String} {raw : Yaml} :
    required i entries key = .ok raw ↔ entries.lookup key = some raw := by
  constructor
  · exact lookup_of_required
  · intro h
    rw [required, h]

/-- The rules before it matter to an item only for its key. -/
theorem loadRule_eq (i : Nat) (rules : List EventRule) (item : Yaml) :
    loadRule i rules item =
      match loadRule i [] item with
      | .error e => .error e
      | .ok rule =>
        if rule.key ∈ rules.map EventRule.key then .error (.config (.duplicate i))
        else .ok rule := by
  cases item with
  | mapping entries text =>
    simp only [loadRule, List.map_nil, List.not_mem_nil, if_false, bind, Except.bind, pure,
      Except.pure]
    cases required i entries "service" with
    | error e => rfl
    | ok service =>
      dsimp only
      cases normaliseUuid service with
      | error e => rfl
      | ok s =>
        dsimp only
        cases required i entries "characteristic" with
        | error e => rfl
        | ok characteristic =>
          dsimp only
          cases normaliseUuid characteristic with
          | error e => rfl
          | ok c =>
            dsimp only
            cases required i entries "event" with
            | error e => rfl
            | ok event =>
              dsimp only
              split
              · rfl
              · cases parsePrefix ((entries.lookup "prefix").getD .null) with
                | error e => rfl
                | ok payloadPrefix =>
                  dsimp only
                  split <;> rfl
  | _ => rfl

theorem loadRule_nil_iff : loadRule i [] item = .ok rule ↔ rule.Says item := by
  constructor
  · intro h
    refine ⟨(loadRule_ok h).1, ?_⟩
    cases item with
    | mapping entries text =>
      simp only [loadRule, bind_eq_ok] at h
      obtain ⟨_, -, _, -, _, -, _, -, event, hevent, h⟩ := h
      split at h
      · obtain ⟨_, hthrow, -⟩ := bind_eq_ok.mp h
        cases hthrow
      · simp only [bind_eq_ok] at h
        obtain ⟨_, -, h⟩ := h
        obtain rfl := Except.ok.inj h
        exact ⟨event, lookup_of_required hevent, rfl⟩
    | _ => cases h
  · rintro ⟨⟨⟨service, hservice, hs⟩, ⟨characteristic, hcharacteristic, hc⟩, hbytes, hname⟩,
      event, hevent, hrule⟩
    cases item with
    | mapping entries text =>
      have hfields : required i entries "service" = .ok service ∧
          required i entries "characteristic" = .ok characteristic ∧
          required i entries "event" = .ok event :=
        ⟨required_ok_iff.mpr hservice, required_ok_iff.mpr hcharacteristic,
          required_ok_iff.mpr hevent⟩
      obtain ⟨hservice, hcharacteristic, hevent⟩ := hfields
      have hbytes' : parsePrefix ((entries.lookup "prefix").getD .null) = .ok rule.payloadPrefix :=
        hbytes
      simp only [loadRule, hservice, hs, hcharacteristic, hc, hevent, hbytes', bind, Except.bind,
        if_false, pure, Except.pure, List.map_nil, List.not_mem_nil, ← hrule]
      rw [if_neg hname]
    | _ => cases hservice

theorem required_error {entries : List (String × Yaml)} {key text : String}
    (h : required i entries key = .error e) : e.Names i (.mapping entries text) := by
  unfold required at h
  split at h
  · cases h
  · rename_i hlookup
    obtain rfl := Except.error.inj h
    exact .missing key hlookup

/-- The error of an item is about this item. -/
theorem loadRule_error (h : loadRule i rules item = .error e) : e.Names i item := by
  cases item with
  | mapping entries text =>
    simp only [loadRule, bind_eq_error] at h
    rcases h with h | ⟨service, hservice, h⟩
    · exact required_error h
    rcases h with h | ⟨_, -, h⟩
    · rw [normaliseUuid_error h]
      exact .notUuid (.inl rfl) (lookup_of_required hservice)
    rcases h with h | ⟨characteristic, hcharacteristic, h⟩
    · exact required_error h
    rcases h with h | ⟨_, -, h⟩
    · rw [normaliseUuid_error h]
      exact .notUuid (.inr rfl) (lookup_of_required hcharacteristic)
    rcases h with h | ⟨event, -, h⟩
    · exact required_error h
    split at h
    · rcases bind_eq_error.mp h with h | ⟨_, hthrow, -⟩
      · obtain rfl := Except.error.inj h
        exact .emptyName
      · cases hthrow
    rcases bind_eq_error.mp h with h | ⟨_, -, h⟩
    · cases htext : entries.lookup "prefix" with
      | none =>
        rw [htext] at h
        cases h
      | some raw =>
        rw [htext] at h
        rw [parsePrefix_error h]
        exact .notHex htext
    split at h
    · rcases bind_eq_error.mp h with h | ⟨_, hthrow, -⟩
      · obtain rfl := Except.error.inj h
        exact .duplicate
      · cases hthrow
    · cases h
  | null | str | bytes | list | scalar =>
    obtain rfl := Except.error.inj h
    exact .notMapping

theorem loadRules_eq_gather (i : Nat) (rules : List EventRule) (items : List Yaml) :
    loadRules i rules items = gather (fun i => loadRule i []) EventRule.key
      (fun i => .config (.duplicate i)) i rules items := by
  induction items generalizing i rules with
  | nil => rfl
  | cons item rest ih =>
    rw [loadRules, loadRule_eq, gather]
    cases loadRule i [] item with
    | error e => rfl
    | ok rule =>
      dsimp only
      split
      · rfl
      · exact ih (i + 1) (rules ++ [rule])

end Rules

theorem eventItems_cons {doc item : Yaml} {items : List Yaml}
    (h : eventItems doc = item :: items) : loadEvents doc = loadRules 0 [] (item :: items) := by
  rw [eventItems] at h
  split at h
  · rename_i items' text hevents
    obtain rfl : items' = item :: items := h
    rw [loadEvents]
    cases hdoc : doc.orEmpty with
    | mapping entries text' =>
      rw [hdoc] at hevents
      have hlookup : entries.lookup "events" = some (.list (item :: items) text) := hevents
      simp only [hlookup]
    | _ => rw [hdoc] at hevents; cases hevents
  · cases h

theorem eventItems_nil {doc : Yaml} (h : eventItems doc = []) :
    loadEvents doc = .error (.config .noEvents) ∨ loadEvents doc = .error .attributeError := by
  rw [loadEvents]
  split
  · rename_i entries text hdoc
    split
    · rename_i item items text' hevents
      rw [eventItems, hdoc, Yaml.field, hevents] at h
      cases h
    · exact .inl rfl
  · exact .inr rfl

/-- A file is accepted as some rules just when it has items, each says its rule by itself, and no
two rules have the same key.  For a file with items the error is that of the first item that says no
rule, or whose rule has the key of a rule before it, and it has the place of this item or the value
in it that could not be read.  Whether a file is accepted does not depend on the order of its
items. -/
theorem loadEvents_iff (doc : Yaml) :
    (∀ rules, loadEvents doc = .ok rules ↔ eventItems doc ≠ [] ∧
      List.Forall₂ (fun item rule => rule.Says item) (eventItems doc) rules ∧
      (rules.map EventRule.key).Nodup) ∧
    (eventItems doc ≠ [] → ∀ e, loadEvents doc = .error e ↔ ∃ before item after rules,
      eventItems doc = before ++ item :: after ∧
      List.Forall₂ (fun item rule => rule.Says item) before rules ∧
      (rules.map EventRule.key).Nodup ∧
      (loadRule before.length [] item = .error e ∨ ∃ rule : EventRule, rule.Says item ∧
        rule.key ∈ rules.map EventRule.key ∧ .config (.duplicate before.length) = e) ∧
      e.Names before.length item) ∧
    ∀ other rules, (eventItems doc).Perm (eventItems other) → loadEvents doc = .ok rules →
      ∃ rules', loadEvents other = .ok rules' ∧ rules.Perm rules' := by
  have hread : ∀ i item rule, loadRule i [] item = .ok rule ↔ EventRule.Says item rule :=
    fun _ _ _ => loadRule_nil_iff
  have hgather : ∀ doc, eventItems doc ≠ [] → loadEvents doc = gather (fun i => loadRule i [])
      EventRule.key (fun i => .config (.duplicate i)) 0 [] (eventItems doc) := by
    intro doc hne
    obtain ⟨item, items, hitems⟩ := List.exists_cons_of_ne_nil hne
    rw [eventItems_cons hitems, loadRules_eq_gather, hitems]
  have hsome : ∀ {doc rules}, loadEvents doc = .ok rules → eventItems doc ≠ [] := by
    intro doc rules h hnil
    rcases eventItems_nil hnil with herror | herror <;> rw [herror] at h <;> cases h
  have hnone : (([] : List EventRule).map EventRule.key).Nodup := List.nodup_nil
  refine ⟨fun rules => ⟨fun h => ?_, ?_⟩, fun hne e => ?_, fun other rules hperm h => ?_⟩
  · have hne := hsome h
    rw [hgather doc hne, gather.ok_iff hread hnone] at h
    obtain ⟨new, rfl, hforall, hnodup⟩ := h
    exact ⟨hne, hforall, hnodup⟩
  · rintro ⟨hne, hforall, hnodup⟩
    rw [hgather doc hne, gather.ok_iff hread hnone]
    exact ⟨rules, rfl, hforall, hnodup⟩
  · rw [hgather doc hne, gather.error_iff hread hnone]
    simp only [List.nil_append, Nat.zero_add]
    constructor
    · rintro ⟨before, item, after, rules, hitems, hsay, hkeys, hrefused⟩
      refine ⟨before, item, after, rules, hitems, hsay, hkeys, hrefused, ?_⟩
      rcases hrefused with hrefused | ⟨_, -, -, rfl⟩
      · exact loadRule_error hrefused
      · exact .duplicate
    · rintro ⟨before, item, after, rules, hitems, hsay, hkeys, hrefused, -⟩
      exact ⟨before, item, after, rules, hitems, hsay, hkeys, hrefused⟩
  · have hne := hsome h
    have hother : eventItems other ≠ [] := fun hnil => hne (hnil ▸ hperm).eq_nil
    rw [hgather doc hne] at h
    rw [hgather other hother]
    exact gather.perm hread hperm h

end BleUsageMeter.Gateway
