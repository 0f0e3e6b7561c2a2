import Mathlib.Data.List.Induction
import BleUsageMeter.Kit.Dict

/-! `gateway/matcher.py`: the event that an observed GATT write stands for. -/

namespace BleUsageMeter.Gateway

open Kit

/-- `EventRule` of `gateway/config.py`. -/
structure EventRule where
  service : String
  characteristic : String
  payloadPrefix : List UInt8
  event : String
deriving DecidableEq

/-- One complete, reassembled ATT value. -/
structure GattWrite where
  peerAddr : String
  service : String
  characteristic : String
  payload : List UInt8
deriving DecidableEq

/-- The name under which unmatched writes are logged. -/
def unknown : String := "unknown"

/-- Python's `lower`, for the ASCII letters of a UUID. -/
def lower (s : String) : String := s.map Char.toLower

structure Matcher where
  byChar : Dict (String × String) (List EventRule)

namespace Matcher

/-- Indexes the rules by service and characteristic, each list in the order of the rules. -/
def ofRules (rules : List EventRule) : Matcher :=
  ⟨rules.foldl (fun byChar rule =>
    let key := (lower rule.service, lower rule.characteristic)
    byChar.insert key ((byChar.get? key).getD [] ++ [rule])) .empty⟩

/-- The first rule whose prefix the payload has. -/
def firstMatch (payload : List UInt8) : List EventRule → Option String
  | [] => none
  | rule :: rest =>
    if rule.payloadPrefix = [] then some rule.event
    else if rule.payloadPrefix.length ≤ payload.length ∧
        payload.take rule.payloadPrefix.length = rule.payloadPrefix then some rule.event
    else firstMatch payload rest

def eventOf (m : Matcher) (write : GattWrite) : Option String :=
  match m.byChar.get? (lower write.service, lower write.characteristic) with
  | none => none
  | some candidates => firstMatch write.payload candidates

/-- The event name, or `unknown` when there is none or it is empty. -/
def classify (m : Matcher) (write : GattWrite) : String :=
  match m.eventOf write with
  | none => unknown
  | some event => if event = "" then unknown else event

end Matcher

/-! ### The first rule that fits -/

/-- The rule is for the characteristic that is written and its prefix is that of the payload. -/
def EventRule.Fits (rule : EventRule) (write : GattWrite) : Prop :=
  (lower rule.service, lower rule.characteristic) =
    (lower write.service, lower write.characteristic) ∧ rule.payloadPrefix <+: write.payload

instance (rule : EventRule) (write : GattWrite) : Decidable (rule.Fits write) :=
  inferInstanceAs (Decidable (_ ∧ _))

namespace Matcher

theorem firstMatch_eq (payload : List UInt8) (rules : List EventRule) :
    firstMatch payload rules =
      (rules.find? fun rule => rule.payloadPrefix <+: payload).map EventRule.event := by
  induction rules with
  | nil => rfl
  | cons rule rest ih =>
    have hfit : rule.payloadPrefix <+: payload ↔ rule.payloadPrefix = [] ∨
        (rule.payloadPrefix.length ≤ payload.length ∧
          payload.take rule.payloadPrefix.length = rule.payloadPrefix) := by
      rw [List.prefix_iff_eq_take]
      constructor
      · intro h
        refine .inr ⟨?_, h.symm⟩
        rw [h, List.length_take]
        omega
      · rintro (h | h)
        · simp [h]
        · exact h.2.symm
    rw [firstMatch, ih, List.find?_cons]
    by_cases hempty : rule.payloadPrefix = []
    · simp [hempty]
    · by_cases hfits : rule.payloadPrefix <+: payload
      · rw [if_neg hempty, if_pos ((hfit.mp hfits).resolve_left hempty)]
        simp [hfits]
      · rw [if_neg hempty, if_neg fun h => hfits (hfit.mpr (.inr h))]
        simp [hfits]

/-- The index has the rules of a characteristic, in their order. -/
theorem get?_ofRules (rules : List EventRule) (key : String × String) :
    ((ofRules rules).byChar.get? key).getD [] =
      rules.filter fun rule => (lower rule.service, lower rule.characteristic) = key := by
  induction rules using List.reverseRecOn with
  | nil => rfl
  | append_singleton rules rule ih =>
    have hstep : (ofRules (rules ++ [rule])).byChar =
        (ofRules rules).byChar.insert (lower rule.service, lower rule.characteristic)
          (((ofRules rules).byChar.get? (lower rule.service, lower rule.characteristic)).getD [] ++
            [rule]) := by
      simp only [ofRules, List.foldl_append, List.foldl_cons, List.foldl_nil]
    rw [hstep, Dict.get?_insert, List.filter_append, ← ih]
    by_cases h : key = (lower rule.service, lower rule.characteristic)
    · subst h
      simp
    · simp [h, Ne.symm h]

/-- A write is the event of the first rule that fits. -/
theorem eventOf_ofRules (rules : List EventRule) (write : GattWrite) :
    (ofRules rules).eventOf write =
      (rules.find? fun rule => rule.Fits write).map EventRule.event := by
  have hcandidates := get?_ofRules rules (lower write.service, lower write.characteristic)
  have hfind : (rules.find? fun rule => rule.Fits write) =
      ((((ofRules rules).byChar.get? (lower write.service, lower write.characteristic)).getD
        []).find? fun rule => rule.payloadPrefix <+: write.payload) := by
    rw [hcandidates, List.find?_filter]
    simp [EventRule.Fits]
  rw [hfind, eventOf]
  split
  · rename_i hnone
    rw [hnone]
    rfl
  · rename_i candidates hsome
    rw [hsome, firstMatch_eq, Option.getD_some]

/-- The units of work are the writes whose first fitting rule has a name other than `unknown`. -/
theorem classify_ne_unknown {rules : List EventRule} {write : GattWrite} :
    (ofRules rules).classify write ≠ unknown ↔ ∃ rule,
      (rules.find? fun rule => rule.Fits write) = some rule ∧ rule.event ≠ "" ∧
        rule.event ≠ unknown := by
  rw [classify, eventOf_ofRules]
  cases rules.find? fun rule => rule.Fits write with
  | none => simp
  | some rule =>
    simp only [Option.map_some, Option.some.injEq, exists_eq_left']
    split <;> simp_all

end Matcher

end BleUsageMeter.Gateway
