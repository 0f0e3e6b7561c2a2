import Mathlib.Data.List.Forall2
import BleUsageMeter.Kit.Nibbles
import BleUsageMeter.Kit.Text
import BleUsageMeter.Gateway.Matcher

/-! `gateway/config.py`: the rules and the settings that a gateway accepts. -/

namespace BleUsageMeter.Gateway

open Kit

/-- What `yaml.safe_load` makes of a file.  A value that is no string comes with the text that
`str` makes of it. -/
inductive Yaml
  | null
  | str (s : String)
  | bytes (b : List UInt8) (text : String)
  | list (items : List Yaml) (text : String)
  | mapping (entries : List (String × Yaml)) (text : String)
  /-- A number, a boolean or a date. -/
  | scalar (text : String) (truthy : Bool)

namespace Yaml

/-- `str(raw)`. -/
def text : Yaml → String
  | null => "None"
  | str s => s
  | bytes _ text | list _ text | mapping _ text | scalar text _ => text

/-- `doc or {}`. -/
def orEmpty : Yaml → Yaml
  | null | str "" | bytes [] _ | list [] _ | scalar _ false => mapping [] "{}"
  | doc => doc

end Yaml

inductive ConfigError
  | notUuid (raw : Yaml)
  | notHex (raw : Yaml)
  | noEvents
  | notMapping (i : Nat)
  | missing (i : Nat) (key : String)
  | emptyName (i : Nat)
  | duplicate (i : Nat)
  | missingKey (key : String)
  | shortInterval
  | badEndpoint
  | noEventsFile

def ConfigError.message (repr : Yaml → String) : ConfigError → String
  | notUuid raw => "not a UUID: " ++ repr raw
  | notHex raw => "prefix is not even-length hex: " ++ repr raw
  | noEvents => "events.yaml must contain a non-empty 'events' list"
  | notMapping i => "events[" ++ toString i ++ "] is not a mapping"
  | missing i key => "events[" ++ toString i ++ "] missing " ++ key
  | emptyName i => "events[" ++ toString i ++ "] has an empty event name"
  | duplicate i => "events[" ++ toString i ++ "] duplicates an earlier rule"
  | missingKey key => "gateway.yaml missing required key " ++ repr (.str key)
  | shortInterval => "report_interval_sec must be >= 10"
  | badEndpoint => "report_endpoint must be an http(s) URL"
  | noEventsFile => "no events file given, set events_file or pass one"

/-- What loading raises: a `ConfigError`, the exception of a conversion, or the `AttributeError` of
a document without keys. -/
inductive LoadError
  | config (e : ConfigError)
  | raised (e : PyException)
  | attributeError

def uuidLen : Nat := 36

/-- `c in _HEX`. -/
def isHex (c : Char) : Bool := hexDigits.contains c

def normaliseUuid (raw : Yaml) : Except LoadError String :=
  let s := lower (strip raw.text)
  if s.length = 4 ∧ s.toList.all isHex then .ok ("0000" ++ s ++ "-0000-1000-8000-00805f9b34fb")
  else if s.length = 8 ∧ s.toList.all isHex then .ok (s ++ "-0000-1000-8000-00805f9b34fb")
  else if s.length ≠ uuidLen ∨ s.toList.count '-' ≠ 4 then .error (.config (.notUuid raw))
  else if ¬s.toList.all fun c => isHex c || c == '-' then .error (.config (.notUuid raw))
  else .ok s

def parsePrefix (raw : Yaml) : Except LoadError (List UInt8) :=
  match raw with
  | .null | .str "" => .ok []
  | .bytes b _ => .ok b
  | _ =>
    let s := (raw.text.toList.filter fun c => c ≠ ' ' ∧ c ≠ ':').map Char.toLower
    let s := if ['0', 'x'].isPrefixOf s then s.drop 2 else s
    if s.length % 2 ≠ 0 ∨ ¬s.all isHex then .error (.config (.notHex raw))
    else (fromHex s).mapError .raised

/-- What no two rules may share. -/
def EventRule.key (rule : EventRule) : String × String × List UInt8 :=
  (rule.service, rule.characteristic, rule.payloadPrefix)

/-- `item[key]` in rule `i`. -/
def required (i : Nat) (entries : List (String × Yaml)) (key : String) : Except LoadError Yaml :=
  match entries.lookup key with
  | some value => .ok value
  | none => .error (.config (.missing i key))

/-- Rule `i`, after the rules before it. -/
def loadRule (i : Nat) (rules : List EventRule) (item : Yaml) : Except LoadError EventRule :=
  match item with
  | .mapping entries _ => do
    let service ← normaliseUuid (← required i entries "service")
    let characteristic ← normaliseUuid (← required i entries "characteristic")
    let name := strip (← required i entries "event").text
    if name = "" then throw (.config (.emptyName i))
    let payloadPrefix ← parsePrefix ((entries.lookup "prefix").getD .null)
    let rule : EventRule := ⟨service, characteristic, payloadPrefix, name⟩
    if rule.key ∈ rules.map EventRule.key then throw (.config (.duplicate i))
    return rule
  | _ => .error (.config (.notMapping i))

/-- The rest of the rules, after `rules`. -/
def loadRules : Nat → List EventRule → List Yaml → Except LoadError (List EventRule)
  | _, rules, [] => .ok rules
  | i, rules, item :: rest => do
    let rule ← loadRule i rules item
    loadRules (i + 1) (rules ++ [rule]) rest

def loadEvents (doc : Yaml) : Except LoadError (List EventRule) :=
  match doc.orEmpty with
  | .mapping entries _ =>
    match entries.lookup "events" with
    | some (.list (item :: items) _) => loadRules 0 [] (item :: items)
    | _ => .error (.config .noEvents)
  | _ => .error .attributeError

/-- The settings, without the paths and the endpoint, which are only checked here. -/
structure GatewayConfig where
  meterId : String
  reportIntervalSec : Int
  retryBaseSec : Int
  retryMaxSec : Int
  retryMaxAttempts : Int
  rules : List EventRule
  interval_ge : 10 ≤ reportIntervalSec

/-- `req(key)`. -/
def requiredKey (entries : List (String × Yaml)) (key : String) : Except LoadError Yaml :=
  match entries.lookup key with
  | some value => .ok value
  | none => .error (.config (.missingKey key))

/-- `int(doc.get(key, default))`, where `int` is the built-in conversion. -/
def intOr (int : Yaml → Except PyException Int) (entries : List (String × Yaml)) (key : String)
    (default : Int) : Except LoadError Int :=
  match entries.lookup key with
  | some value => (int value).mapError .raised
  | none => .ok default

/-- The events file that is given, or else what the settings have for it. -/
def eventsFile (eventsPath : Option String) (entries : List (String × Yaml)) :
    Except LoadError Yaml :=
  match eventsPath.filter (· ≠ ""), (entries.lookup "events_file").getD .null with
  | some path, _ => .ok (.str path)
  | none, .null => .error (.config .noEventsFile)
  | none, file => .ok file

/-- `Path(file)`. -/
def filePath : Yaml → Except LoadError String
  | .str path => .ok path
  | _ => .error (.raised .typeError)

/-- `load_gateway`.  `safeLoad` reads a file, and `eventsPath` is the path on the command line. -/
def loadGateway (int : Yaml → Except PyException Int) (safeLoad : String → Except PyException Yaml)
    (path : String) (eventsPath : Option String) : Except LoadError GatewayConfig := do
  match (← (safeLoad path).mapError .raised).orEmpty with
  | .mapping entries _ =>
    let interval ← intOr int entries "report_interval_sec" 300
    if h : interval < 10 then throw (.config .shortInterval)
    else
      let _ ← requiredKey entries "private_key_path"
      let endpoint := (← requiredKey entries "report_endpoint").text
      unless endpoint.startsWith "http://" || endpoint.startsWith "https://" do
        throw (.config .badEndpoint)
      let events ← eventsFile eventsPath entries
      return {
        meterId := (← requiredKey entries "meter_id").text
        reportIntervalSec := interval
        retryBaseSec := ← intOr int entries "retry_base_sec" 5
        retryMaxSec := ← intOr int entries "retry_max_sec" 600
        retryMaxAttempts := ← intOr int entries "retry_max_attempts" 8
        rules := ← loadEvents (← (safeLoad (← filePath events)).mapError .raised)
        interval_ge := Int.not_lt.mp h }
  | _ => .error .attributeError

/-! ### What is loaded -/

structure EventRule.WellFormed (rule : EventRule) : Prop where
  service : SpellsUuid rule.service
  characteristic : SpellsUuid rule.characteristic
  event : rule.event ≠ ""

theorem lower_spelled {s : String} (h : SpellsUuid s) : lower s = s := by
  apply String.toList_inj.mp
  rw [lower, String.toList_map]
  refine (List.map_congr_left ?_).trans (List.map_id _)
  intro c hc
  rcases h.digits c hc with rfl | hdigit
  · decide
  · exact toLower_of_mem c hdigit

theorem isHex_iff {c : Char} : isHex c = true ↔ c ∈ hexDigits := by
  rw [isHex, List.contains_iff_mem]

/-- Eight digits before the rest of the base UUID. -/
theorem spells_short {s : String} (hlength : s.length = 8) (hdigits : s.toList.all isHex) :
    SpellsUuid (s ++ "-0000-1000-8000-00805f9b34fb") := by
  have hmem : ∀ c ∈ s.toList, c ∈ hexDigits := fun c hc =>
    isHex_iff.mp (List.all_eq_true.mp hdigits c hc)
  have hrest : ∀ c ∈ "-0000-1000-8000-00805f9b34fb".toList, c = '-' ∨ c ∈ hexDigits :=
    forall_of_all (by decide)
  refine ⟨?_, ?_, ?_⟩
  · rw [String.length_append, hlength]
    rfl
  · have hnone : s.toList.count '-' = 0 :=
      List.count_eq_zero.mpr fun h => ne_hyphen_of_mem _ (hmem _ h) rfl
    rw [String.toList_append, List.count_append, hnone]
    decide
  · intro c hc
    rw [String.toList_append] at hc
    rcases List.mem_append.mp hc with hc | hc
    · exact .inr (hmem c hc)
    · exact hrest c hc

/-- What is accepted: a short form, or the characters of a full one. -/
theorem normaliseUuid_cases {raw : Yaml} {s : String} (h : normaliseUuid raw = .ok s) :
    ((lower (strip raw.text)).length = 4 ∧ (lower (strip raw.text)).toList.all isHex ∧
        s = "0000" ++ lower (strip raw.text) ++ "-0000-1000-8000-00805f9b34fb") ∨
      ((lower (strip raw.text)).length = 8 ∧ (lower (strip raw.text)).toList.all isHex ∧
        s = lower (strip raw.text) ++ "-0000-1000-8000-00805f9b34fb") ∨
      SpellsUuid s ∧ s = lower (strip raw.text) := by
  unfold normaliseUuid at h
  dsimp only at h
  split at h
  · rename_i hshort
    exact .inl ⟨hshort.1, hshort.2, (Except.ok.inj h).symm⟩
  · split at h
    · rename_i hshort
      exact .inr (.inl ⟨hshort.1, hshort.2, (Except.ok.inj h).symm⟩)
    · split at h
      · cases h
      · rename_i hform
        split at h
        · cases h
        · rename_i hchars
          obtain rfl := Except.ok.inj h
          simp only [uuidLen, not_or, not_not] at hform
          refine .inr (.inr ⟨⟨hform.1, hform.2, ?_⟩, rfl⟩)
          intro c hc
          have := List.all_eq_true.mp (not_not.mp hchars) c hc
          simpa [isHex_iff, or_comm] using this

theorem normaliseUuid_spells {raw : Yaml} {s : String} (h : normaliseUuid raw = .ok s) :
    SpellsUuid s := by
  rcases normaliseUuid_cases h with ⟨hlength, hdigits, rfl⟩ | ⟨hlength, hdigits, rfl⟩ | ⟨hspells, -⟩
  · apply spells_short
    · rw [String.length_append, hlength]
      rfl
    · rw [String.toList_append, List.all_append, hdigits]
      decide
  · exact spells_short hlength hdigits
  · exact hspells

/-! ### What is refused -/

theorem normaliseUuid_error {raw : Yaml} {e : LoadError} (h : normaliseUuid raw = .error e) :
    e = .config (.notUuid raw) := by
  unfold normaliseUuid at h
  dsimp only at h
  split at h
  · cases h
  · split at h
    · cases h
    · split at h
      · exact (Except.error.inj h).symm
      · split at h
        · exact (Except.error.inj h).symm
        · cases h

/-- `bytes.fromhex` never raises after the checks. -/
theorem parsePrefix_error {raw : Yaml} {e : LoadError} (h : parsePrefix raw = .error e) :
    e = .config (.notHex raw) := by
  unfold parsePrefix at h
  split at h
  · cases h
  · cases h
  · cases h
  · extract_lets text digits at h
    split at h
    · exact (Except.error.inj h).symm
    · rename_i hform
      rw [not_or, not_not, not_not, List.all_eq_true] at hform
      obtain ⟨heven, hdigits⟩ := hform
      obtain ⟨bytes, hbytes⟩ := exists_fromHex heven fun c hc =>
        hexValue_isSome c (isHex_iff.mp (hdigits c hc))
      rw [hbytes] at h
      cases h

/-! ### What a rule has from its item -/

/-- `item.get(key)`. -/
def Yaml.field : Yaml → String → Option Yaml
  | mapping entries _, key => entries.lookup key
  | _, _ => none

/-- What a rule has from its item. -/
structure EventRule.ReadFrom (item : Yaml) (rule : EventRule) : Prop where
  service : ∃ raw, item.field "service" = some raw ∧ normaliseUuid raw = .ok rule.service
  characteristic : ∃ raw, item.field "characteristic" = some raw ∧
    normaliseUuid raw = .ok rule.characteristic
  payloadPrefix : parsePrefix ((item.field "prefix").getD .null) = .ok rule.payloadPrefix
  event : rule.event ≠ ""

theorem EventRule.ReadFrom.wellFormed {item : Yaml} {rule : EventRule} (h : ReadFrom item rule) :
    rule.WellFormed := by
  obtain ⟨_, -, hservice⟩ := h.service
  obtain ⟨_, -, hcharacteristic⟩ := h.characteristic
  exact ⟨normaliseUuid_spells hservice, normaliseUuid_spells hcharacteristic, h.event⟩

theorem lookup_of_required {i : Nat} {entries : List (String × Yaml)} {key : String} {raw : Yaml}
    (h : required i entries key = .ok raw) : entries.lookup key = some raw := by
  unfold required at h
  split at h
  · rename_i hlookup
    rw [hlookup, Except.ok.inj h]
  · cases h

/-- A rule that is loaded is read from its item and shares its key with no rule before it. -/
theorem loadRule_ok {i : Nat} {rules : List EventRule} {item : Yaml} {rule : EventRule}
    (h : loadRule i rules item = .ok rule) :
    rule.ReadFrom item ∧ rule.key ∉ rules.map EventRule.key := by
  cases item with
  | mapping entries text =>
    simp only [loadRule, bind_eq_ok] at h
    obtain ⟨service, hservice, s, hs, characteristic, hcharacteristic, c, hc, event, -, h⟩ := h
    split at h
    · obtain ⟨_, hthrow, -⟩ := bind_eq_ok.mp h
      cases hthrow
    · rename_i hname
      simp only [bind_eq_ok] at h
      obtain ⟨payloadPrefix, hprefix, h⟩ := h
      split at h
      · obtain ⟨_, hthrow, -⟩ := bind_eq_ok.mp h
        cases hthrow
      · rename_i hkey
        obtain rfl := Except.ok.inj h
        exact ⟨⟨⟨service, lookup_of_required hservice, hs⟩,
          ⟨characteristic, lookup_of_required hcharacteristic, hc⟩, hprefix, hname⟩, hkey⟩
  | _ => cases h

theorem loadRules_ok {i : Nat} {rules loaded : List EventRule} {items : List Yaml}
    (h : loadRules i rules items = .ok loaded) (hkeys : (rules.map EventRule.key).Nodup) :
    ∃ read, loaded = rules ++ read ∧ List.Forall₂ (fun item rule => rule.ReadFrom item) items read ∧
      (loaded.map EventRule.key).Nodup := by
  induction items generalizing i rules with
  | nil =>
    obtain rfl := Except.ok.inj h
    exact ⟨[], (List.append_nil _).symm, .nil, hkeys⟩
  | cons item rest ih =>
    obtain ⟨rule, hrule, hrest⟩ := bind_eq_ok.mp h
    obtain ⟨hrule, hkey⟩ := loadRule_ok hrule
    have hnext : ((rules ++ [rule]).map EventRule.key).Nodup := by
      rw [List.map_append, List.map_singleton]
      exact hkeys.append (List.nodup_singleton _) (by simpa using hkey)
    obtain ⟨read, hloaded, hread, hnodup⟩ := ih hrest hnext
    refine ⟨rule :: read, ?_, .cons hrule hread, hnodup⟩
    rw [hloaded, List.append_assoc, List.singleton_append]

/-- The items under `events`. -/
def eventItems (doc : Yaml) : List Yaml :=
  match doc.orEmpty.field "events" with
  | some (.list items _) => items
  | _ => []

/-- The rules of an accepted file are read from its items in turn, and no two of them have the same
key. -/
theorem loadEvents_read {doc : Yaml} {rules : List EventRule} (h : loadEvents doc = .ok rules) :
    List.Forall₂ (fun item rule => rule.ReadFrom item) (eventItems doc) rules ∧
      (rules.map EventRule.key).Nodup := by
  unfold loadEvents at h
  split at h
  · rename_i entries text hdoc
    split at h
    · rename_i item items _ hevents
      have hitems : eventItems doc = item :: items := by
        rw [eventItems, hdoc, Yaml.field, hevents]
      obtain ⟨read, hloaded, hread, hnodup⟩ := loadRules_ok h .nil
      rw [List.nil_append] at hloaded
      rw [hitems, hloaded]
      exact ⟨hread, hloaded ▸ hnodup⟩
    · cases h
  · cases h

theorem loadEvents_ok {doc : Yaml} {rules : List EventRule} (h : loadEvents doc = .ok rules) :
    (∀ rule ∈ rules, rule.WellFormed) ∧ (rules.map EventRule.key).Nodup := by
  obtain ⟨hread, hnodup⟩ := loadEvents_read h
  refine ⟨?_, hnodup⟩
  generalize eventItems doc = items at hread
  clear hnodup h
  induction hread with
  | nil => exact fun rule hrule => nomatch hrule
  | cons hrule _ ih => exact List.forall_mem_cons.mpr ⟨hrule.wellFormed, ih⟩

end BleUsageMeter.Gateway
