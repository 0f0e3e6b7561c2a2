import BleUsageMeter.Kit.Dict
import BleUsageMeter.Kit.Datetime

/-! `backend/models.py`: the canonical bytes that a report's signature covers, and the validation of
a request body into a `UsageReport`.  What pydantic does with a value of another type than the
declared one is a parameter, `Pydantic`. -/

namespace BleUsageMeter.Backend

open Kit

def canonicalDomain : List UInt8 := utf8 "ble-usage-meter/report/v1"

def canonicalFormatVersion : UInt8 := 1

/-- Whole Unix seconds, with a naive value read as UTC. -/
def canonicalUnixSeconds (value : Datetime) : Except PyException Int := do
  let value := if value.utcoffset = none then value.replaceUtc else value
  let utc ← value.astimezoneUtc
  return utc.timestampInt

/-- The bytes that are signed and verified. -/
def canonicalMessage (deviceId : String) (count sequence : Nat)
    (windowStart windowEnd : Datetime) : Except PyException (List UInt8) := do
  let did := utf8 deviceId
  if did.length > 0xFFFF then throw .valueError
  let length ← toBytes 2 did.length
  let countBytes ← toBytes 8 count
  let sequenceBytes ← toBytes 8 sequence
  let startBytes ← toBytes 8 (← canonicalUnixSeconds windowStart)
  let endBytes ← toBytes 8 (← canonicalUnixSeconds windowEnd)
  return canonicalDomain ++ [canonicalFormatVersion] ++ length ++ did ++ countBytes ++
    sequenceBytes ++ startBytes ++ endBytes

/-- A signed count for one reporting window, as validation leaves it. -/
structure UsageReport where
  deviceId : String
  count : Nat
  sequence : Nat
  windowStart : Datetime
  windowEnd : Datetime
  signature : String
  deviceId_length : 1 ≤ deviceId.length ∧ deviceId.length ≤ 128 := by decide
  signature_length : 1 ≤ signature.length := by decide
  ordered : windowEnd.lt windowStart = .ok false := by decide
deriving DecidableEq

def UsageReport.canonicalBytes (r : UsageReport) : Except PyException (List UInt8) :=
  canonicalMessage r.deviceId r.count r.sequence r.windowStart r.windowEnd

/-! ### Validation -/

/-- A value of a request body. -/
inductive Value
  | int (n : Int)
  | str (s : String)
  | datetime (d : Datetime)
deriving DecidableEq

/-- How pydantic reads a value of another type than the declared one. -/
structure Pydantic where
  intOfText : String → Option Int
  intOfBytes : List UInt8 → Option Int
  datetimeOfInt : Int → Option Datetime
  datetimeOfText : String → Option Datetime
  datetimeOfInt_seconds : ∀ t d, -20000000000 ≤ t → t ≤ 20000000000 →
    Datetime.fromTimestamp t = .ok d → datetimeOfInt t = some d

inductive ErrorKind
  | missing
  | stringType
  | stringTooShort (min : Nat)
  | stringTooLong (max : Nat)
  | intType
  | greaterThanEqual (bound : Int)
  | datetimeType
  | valueError (message : String)
deriving DecidableEq

structure FieldError where
  loc : String
  kind : ErrorKind
deriving DecidableEq

/-- A required field of a body, read by `parse`. -/
def field {α : Type} (body : Dict String Value) (name : String)
    (parse : Value → Except ErrorKind α) : Except FieldError α :=
  match body.get? name with
  | none => .error ⟨name, .missing⟩
  | some value =>
    match parse value with
    | .ok a => .ok a
    | .error kind => .error ⟨name, kind⟩

/-- A `str` with a least and, where one is declared, a greatest length. -/
def parseText (min : Nat) (max : Option Nat) :
    Value → Except ErrorKind { s : String // min ≤ s.length ∧ ∀ m ∈ max, s.length ≤ m }
  | .str s =>
    if hmin : min ≤ s.length then
      if hmax : ∀ m ∈ max, s.length ≤ m then .ok ⟨s, hmin, hmax⟩
      else .error (.stringTooLong (max.getD 0))
    else .error (.stringTooShort min)
  | _ => .error .stringType

/-- An `int` with `ge=0`. -/
def parseNat (py : Pydantic) (value : Value) : Except ErrorKind Nat :=
  let read :=
    match value with
    | .int n => some n
    | .str s => py.intOfText s
    | .datetime _ => none
  match read with
  | none => .error .intType
  | some n => if 0 ≤ n then .ok n.toNat else .error (.greaterThanEqual 0)

def parseDatetime (py : Pydantic) (value : Value) : Except ErrorKind Datetime :=
  let read :=
    match value with
    | .datetime d => some d
    | .int n => py.datetimeOfInt n
    | .str s => py.datetimeOfText s
  match read with
  | none => .error .datetimeType
  | some d => .ok d

/-- `UsageReport._window_ordered`.  A comparison that raises `TypeError` is not turned into a
validation error. -/
def windowOrdered (start : Except FieldError Datetime) (v : Datetime) :
    Except PyException
      (Except FieldError { e : Datetime // ∀ s, start = .ok s → e.lt s = .ok false }) :=
  match start with
  | .error _ => .ok (.ok ⟨v, fun _ h => nomatch h⟩)
  | .ok s =>
    match h : v.lt s with
    | .error e => .error e
    | .ok true => .ok (.error ⟨"window_end", .valueError "window_end precedes window_start"⟩)
    | .ok false => .ok (.ok ⟨v, fun _ hs => by rw [← Except.ok.inj hs]; exact h⟩)

def errorsOf {α : Type} : Except FieldError α → List FieldError
  | .ok _ => []
  | .error e => [e]

abbrev Text (min : Nat) (max : Option Nat) : Type :=
  { s : String // min ≤ s.length ∧ ∀ m ∈ max, s.length ≤ m }

/-- The report of fields that are all valid, or else the errors of all fields. -/
def UsageReport.assemble (deviceId : Except FieldError (Text 1 (some 128)))
    (count sequence : Except FieldError Nat) (windowStart : Except FieldError Datetime)
    (windowEnd : Except FieldError
      { e : Datetime // ∀ s, windowStart = .ok s → e.lt s = .ok false })
    (signature : Except FieldError (Text 1 none)) : Except (List FieldError) UsageReport :=
  match deviceId, count, sequence, windowStart, windowEnd, signature with
  | .ok d, .ok c, .ok q, .ok s, .ok e, .ok g =>
    .ok
      { deviceId := d.1
        count := c
        sequence := q
        windowStart := s
        windowEnd := e.1
        signature := g.1
        deviceId_length := ⟨d.2.1, d.2.2 128 rfl⟩
        signature_length := g.2.1
        ordered := e.2 s rfl }
  | d, c, q, s, e, g =>
    .error (errorsOf d ++ errorsOf c ++ errorsOf q ++ errorsOf s ++ errorsOf e ++ errorsOf g)

def UsageReport.ofFields (deviceId : Except FieldError (Text 1 (some 128)))
    (count sequence : Except FieldError Nat) (windowStart windowEnd : Except FieldError Datetime)
    (signature : Except FieldError (Text 1 none)) :
    Except PyException (Except (List FieldError) UsageReport) :=
  let ordered :=
    match windowEnd with
    | .ok v => windowOrdered windowStart v
    | .error e => .ok (.error e)
  ordered.map fun e => assemble deviceId count sequence windowStart e signature

/-- `UsageReport(**body)`: the report, or the errors of its fields. -/
def UsageReport.validate (py : Pydantic) (body : Dict String Value) :
    Except PyException (Except (List FieldError) UsageReport) :=
  ofFields (field body "device_id" (parseText 1 (some 128))) (field body "count" (parseNat py))
    (field body "sequence" (parseNat py)) (field body "window_start" (parseDatetime py))
    (field body "window_end" (parseDatetime py)) (field body "signature" (parseText 1 none))

theorem field_text {body : Dict String Value} {name s : String} {min : Nat} {max : Option Nat}
    {t : Text min max} (hs : body.get? name = some (.str s))
    (ht : field body name (parseText min max) = .ok t) : t.1 = s := by
  simp only [field, hs, parseText] at ht
  split at ht
  · rename_i value hvalue
    obtain rfl := Except.ok.inj ht
    split at hvalue
    · split at hvalue
      · exact (congrArg Subtype.val (Except.ok.inj hvalue)).symm
      · contradiction
    · contradiction
  · contradiction

/-- A report is assembled from fields that are all valid. -/
theorem UsageReport.assemble_eq_ok {deviceId : Except FieldError (Text 1 (some 128))}
    {count sequence : Except FieldError Nat} {windowStart : Except FieldError Datetime}
    {windowEnd : Except FieldError
      { e : Datetime // ∀ s, windowStart = .ok s → e.lt s = .ok false }}
    {signature : Except FieldError (Text 1 none)} {r : UsageReport}
    (h : assemble deviceId count sequence windowStart windowEnd signature = .ok r) :
    ∃ d e g, deviceId = .ok d ∧ count = .ok r.count ∧ sequence = .ok r.sequence ∧
      windowStart = .ok r.windowStart ∧ windowEnd = .ok e ∧ signature = .ok g ∧
      d.1 = r.deviceId ∧ e.1 = r.windowEnd ∧ g.1 = r.signature := by
  unfold assemble at h
  split at h
  · rename_i d c q s e g
    obtain rfl := Except.ok.inj h
    exact ⟨d, e, g, rfl, rfl, rfl, rfl, rfl, rfl, rfl, rfl, rfl⟩
  · contradiction

theorem UsageReport.validate_unsigned {py : Pydantic} {body : Dict String Value}
    (h : body.get? "signature" = none) (r : UsageReport) :
    UsageReport.validate py body ≠ .ok (.ok r) := by
  have hfield : field body "signature" (parseText 1 none) = .error ⟨"signature", .missing⟩ := by
    simp [field, h]
  rw [validate, hfield]
  unfold ofFields
  intro hv
  split at hv
  · rename_i v _
    cases hord : windowOrdered (field body "window_start" (parseDatetime py)) v with
    | error e => rw [hord] at hv; contradiction
    | ok e => rw [hord] at hv; simp [Except.map, assemble] at hv
  · simp [Except.map, assemble] at hv

theorem windowOrdered_eq_ok {s e : Datetime} (h : e.lt s = .ok false) :
    windowOrdered (.ok s) e = .ok (.ok ⟨e, fun _ hs => by rw [← Except.ok.inj hs]; exact h⟩) := by
  simp only [windowOrdered]
  split <;> rename_i hlt <;> rw [h] at hlt <;> contradiction

/-- A body whose fields are read as those of a report is accepted as that report. -/
theorem UsageReport.validate_eq_ok {py : Pydantic} {body : Dict String Value} {r : UsageReport}
    (hdevice : body.get? "device_id" = some (.str r.deviceId))
    (hcount : field body "count" (parseNat py) = .ok r.count)
    (hsequence : field body "sequence" (parseNat py) = .ok r.sequence)
    (hstart : field body "window_start" (parseDatetime py) = .ok r.windowStart)
    (hend : field body "window_end" (parseDatetime py) = .ok r.windowEnd)
    (hsignature : body.get? "signature" = some (.str r.signature)) :
    UsageReport.validate py body = .ok (.ok r) := by
  obtain ⟨hmin, hmax⟩ := r.deviceId_length
  have hid : field body "device_id" (parseText 1 (some 128)) =
      .ok ⟨r.deviceId, hmin, by simpa using hmax⟩ := by
    simp [field, hdevice, parseText, hmin, hmax]
  have hsig : field body "signature" (parseText 1 none) =
      .ok ⟨r.signature, r.signature_length, by simp⟩ := by
    simp [field, hsignature, parseText, r.signature_length]
  rw [validate, hid, hcount, hsequence, hstart, hend, hsig, ofFields]
  simp only [windowOrdered_eq_ok r.ordered, Except.map, assemble]

/-- The fields of a body whose values have the declared types. -/
structure Body where
  deviceId : String
  count : Nat
  sequence : Nat
  windowStart : Datetime
  windowEnd : Datetime
  signature : String

namespace Body

def toDict (b : Body) : Dict String Value :=
  (((((Dict.empty.insert "device_id" (.str b.deviceId)).insert "count" (.int b.count)).insert
    "sequence" (.int b.sequence)).insert "window_start" (.datetime b.windowStart)).insert
    "window_end" (.datetime b.windowEnd)).insert "signature" (.str b.signature)

variable (py : Pydantic) (b : Body)

/-- The report `r` has the fields of the body. -/
structure Gives (r : UsageReport) : Prop where
  deviceId : r.deviceId = b.deviceId
  count : r.count = b.count
  sequence : r.sequence = b.sequence
  windowStart : r.windowStart = b.windowStart
  windowEnd : r.windowEnd = b.windowEnd
  signature : r.signature = b.signature

theorem validate_eq : UsageReport.validate py b.toDict =
    UsageReport.ofFields (field b.toDict "device_id" (parseText 1 (some 128))) (.ok b.count)
      (.ok b.sequence) (.ok b.windowStart) (.ok b.windowEnd)
      (field b.toDict "signature" (parseText 1 none)) := by
  have hcount : field b.toDict "count" (parseNat py) = .ok b.count := by
    simp [field, toDict, Dict.get?_insert, parseNat]
  have hsequence : field b.toDict "sequence" (parseNat py) = .ok b.sequence := by
    simp [field, toDict, Dict.get?_insert, parseNat]
  have hstart : field b.toDict "window_start" (parseDatetime py) = .ok b.windowStart := by
    simp [field, toDict, Dict.get?_insert, parseDatetime]
  have hend : field b.toDict "window_end" (parseDatetime py) = .ok b.windowEnd := by
    simp [field, toDict, Dict.get?_insert, parseDatetime]
  rw [UsageReport.validate, hcount, hsequence, hstart, hend]

/-- Windows that cannot be compared make validation raise. -/
theorem validate_raises {e : PyException} (h : b.windowEnd.lt b.windowStart = .error e) :
    UsageReport.validate py b.toDict = .error e := by
  rw [validate_eq, UsageReport.ofFields]
  have hraise : windowOrdered (.ok b.windowStart) b.windowEnd = .error e := by
    simp only [windowOrdered]
    split <;> rename_i hlt <;> rw [h] at hlt <;> simp_all
  simp only [hraise, Except.map]

theorem validate_returns {late : Bool} (h : b.windowEnd.lt b.windowStart = .ok late) :
    ∃ result, UsageReport.validate py b.toDict = .ok result ∧
      ∀ r, result = .ok r → b.Gives r := by
  rw [validate_eq, UsageReport.ofFields]
  obtain ⟨ordered, hordered, hvalue⟩ : ∃ ordered,
      windowOrdered (.ok b.windowStart) b.windowEnd = .ok ordered ∧
        ∀ e, ordered = .ok e → e.1 = b.windowEnd := by
    simp only [windowOrdered]
    split <;> rename_i hlt
    · rw [h] at hlt; contradiction
    · exact ⟨_, rfl, fun e he => nomatch he⟩
    · exact ⟨_, rfl, fun e he => by rw [← Except.ok.inj he]⟩
  simp only [hordered, Except.map]
  refine ⟨_, rfl, ?_⟩
  intro r hr
  obtain ⟨d, e, g, hd, hc, hq, hs, he, hg, hid', hend, hsig'⟩ := UsageReport.assemble_eq_ok hr
  have hid : b.toDict.get? "device_id" = some (.str b.deviceId) := by
    simp [toDict, Dict.get?_insert]
  have hsig : b.toDict.get? "signature" = some (.str b.signature) := by
    simp [toDict]
  exact
    { deviceId := hid' ▸ field_text hid hd
      count := (Except.ok.inj hc).symm
      sequence := (Except.ok.inj hq).symm
      windowStart := (Except.ok.inj hs).symm
      windowEnd := hend ▸ hvalue e he
      signature := hsig' ▸ field_text hsig hg }

/-- A body is accepted as a report exactly when the report has its fields. -/
theorem validate_eq_ok_iff {r : UsageReport} :
    UsageReport.validate py b.toDict = .ok (.ok r) ↔ b.Gives r := by
  constructor
  · intro h
    cases hlt : b.windowEnd.lt b.windowStart with
    | error e => rw [validate_raises py b hlt] at h; contradiction
    | ok late =>
      obtain ⟨result, hresult, hgives⟩ := validate_returns py b hlt
      exact hgives r (Except.ok.inj (hresult.symm.trans h))
  · rintro ⟨hdevice, hcount, hsequence, hstart, hend, hsignature⟩
    obtain ⟨deviceId, count, sequence, windowStart, windowEnd, signature⟩ := b
    subst hdevice hcount hsequence hstart hend hsignature
    apply UsageReport.validate_eq_ok <;>
      simp [field, toDict, Dict.get?_insert, parseNat, parseDatetime]

end Body

end BleUsageMeter.Backend
