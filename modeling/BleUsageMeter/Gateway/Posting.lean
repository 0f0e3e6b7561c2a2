import BleUsageMeter.Gateway.Reporter
import BleUsageMeter.Gateway.Store

/-! `Reporter.post` of `gateway/reporter.py` against the backend.  A request or a response may be
lost, and the loop tries again after every loss; but the backend refuses the second copy of a
report that it has stored, and the loop takes that refusal for the answer to the report.
`reporter.py` says that "a replayed report is a no-op".  The clock readings of the attempts are
any, so that the time slept between them is not part of the model. -/

namespace BleUsageMeter.Gateway

open Kit
open Backend (Db Value Pydantic UsageReport FieldError Response)

/-- What becomes of an attempt: nothing arrives, the response does not, a server error is answered
by a backend that stores nothing, or the response arrives. -/
inductive Attempt
  | requestLost
  | responseLost (now : Datetime)
  | serverError (status : Fin 100)
  | answered (now : Datetime)

/-- The backend handles the request of an attempt. -/
def Attempt.Reaches : Attempt → Bool
  | .responseLost _ | .answered _ => true
  | _ => false

structure PostResult where
  delivered : Bool
  status : Option Nat
  attempts : Nat
deriving DecidableEq

/-- The gateway's store, and the backend's tables. -/
structure World where
  store : Store
  db : Db

/-- The status of a response, or of an exception that no handler catches. -/
def httpStatus : Except PyException Response → Nat
  | .error _ => 500
  | .ok (.rejection status _ _) => status
  | .ok (.registered _) => 201
  | .ok _ => 200

section

variable {scheme : SignatureScheme} (signer : Signer scheme) (py : Pydantic)
  (wire : Dict String Value → Dict String Value) (network : Nat → Attempt) (maxAttempts : Nat)

/-- `POST /reports`, as its client sees it. -/
def serve (scheme : SignatureScheme) (body : Dict String Value) (now : Datetime) (db : Db) :
    Db × Nat :=
  match UsageReport.validate py body with
  | .error _ => (db, 500)
  | .ok (.error _) => (db, 422)
  | .ok (.ok report) => ((Backend.postReport scheme report now none db).1,
      httpStatus (Backend.postReport scheme report now none db).2)

/-- `client.post`: the status that arrives, if one does. -/
def clientPost (scheme : SignatureScheme) (payload : Dict String Value) (db : Db) :
    Attempt → Db × Option Nat
  | .requestLost => (db, none)
  | .responseLost now => ((serve py scheme (wire payload) now db).1, none)
  | .serverError status => (db, some (500 + status))
  | .answered now => ((serve py scheme (wire payload) now db).1,
      some (serve py scheme (wire payload) now db).2)

/-- The loop of `post`, over the attempts still to come. -/
def postLoop (scheme : SignatureScheme) (payload : Dict String Value) :
    List Nat → Db → Db × PostResult
  | [], db => (db, ⟨false, none, maxAttempts⟩)
  | attempt :: rest, db =>
    match clientPost py wire scheme payload db (network attempt) with
    | (db, some status) =>
      if 200 ≤ status ∧ status < 300 then (db, ⟨true, status, attempt⟩)
      else if 400 ≤ status ∧ status < 500 then (db, ⟨false, status, attempt⟩)
      else postLoop scheme payload rest db
    | (db, none) => postLoop scheme payload rest db

def post (r : ReportTuple) (w : World) : Except PyException (World × PostResult) := do
  let payload ← buildPayload signer r
  let (db, result) :=
    postLoop py wire network maxAttempts scheme payload (List.range' 1 maxAttempts) w.db
  return ({ w with db }, result)

end

/-- What became of a report: it is delivered exactly when the backend stored it, the backend stored
it at most once, and the gateway's store is as before. -/
structure Settles (report : UsageReport) (before after : World) (result : PostResult) : Prop where
  delivered : result.delivered = true ↔ ∃ now, before.db.Appends report now after.db
  once : after.db = before.db ∨ ∃ now, before.db.Appends report now after.db
  store : after.store = before.store

variable {scheme : SignatureScheme} {signer : Signer scheme} {py : Pydantic}
  {wire : Dict String Value → Dict String Value} {network : Nat → Attempt} {maxAttempts : Nat}
  {payload body : Dict String Value} {report : UsageReport} {db after : Db}

theorem not_appends_self (now : Datetime) : ¬db.Appends report now db := by
  intro h
  simpa using congrArg List.length h.usageReports

/-- Whenever the body is served, nothing is stored and it is not accepted. -/
def Refuses (py : Pydantic) (scheme : SignatureScheme) (body : Dict String Value) (db : Db) :
    Prop :=
  ∀ now, (serve py scheme body now db).1 = db ∧ 300 ≤ (serve py scheme body now db).2

/-- Whenever the body is served, its report is stored and accepted, and refused from then on. -/
def Stores (py : Pydantic) (scheme : SignatureScheme) (body : Dict String Value)
    (report : UsageReport) (db : Db) : Prop :=
  ∀ now, db.Appends report now (serve py scheme body now db).1 ∧
    (serve py scheme body now db).2 = 200 ∧ Refuses py scheme body (serve py scheme body now db).1

/-! ### What the backend does -/

theorem serve_eq (hbody : UsageReport.validate py body = .ok (.ok report)) (now : Datetime)
    (db : Db) : serve py scheme body now db =
      ((Backend.postReport scheme report now none db).1,
        httpStatus (Backend.postReport scheme report now none db).2) := by
  rw [serve, hbody]

/-- A report that was stored is a replay. -/
theorem refuses_of_appends (hbody : UsageReport.validate py body = .ok (.ok report))
    (hadmits : db.Admits scheme report) {now : Datetime} (h : db.Appends report now after) :
    Refuses py scheme body after := by
  intro now'
  obtain ⟨device, hdevice, hverifies, -⟩ := hadmits
  have hmarked : after.devices.get? report.deviceId =
      some (Db.Device.withMarks report.sequence report.count device) := by
    rw [h.devices, if_pos rfl, hdevice]
    rfl
  obtain ⟨detail, hscreen⟩ := Backend.screenReport_replay hmarked hverifies (Int.le_refl _)
  rw [serve_eq hbody, Backend.postReport, hscreen]
  exact ⟨rfl, show 300 ≤ 409 by omega⟩

theorem stores_or_refuses (hbody : UsageReport.validate py body = .ok (.ok report))
    (hadmits : db.Admits scheme report) :
    (report.Storable ∧ ¬db.Holds report ∧ Stores py scheme body report db) ∨
    (¬(report.Storable ∧ ¬db.Holds report) ∧ Refuses py scheme body db) := by
  have hpost : ∀ now, Backend.postReport scheme report now none db =
      Backend.withConnection db (Backend.storeReport report now none) := by
    intro now
    simp only [Backend.postReport, Backend.screenReport_none_iff.mpr hadmits]
  obtain ⟨device, hdevice, -⟩ := id hadmits
  by_cases hnew : report.Storable ∧ ¬db.Holds report
  · refine .inl ⟨hnew.1, hnew.2, ?_⟩
    intro now
    rcases Backend.storeReport_cases report now db with
      ⟨hstorable, -⟩ | ⟨-, hholds | hnone, -⟩ | ⟨-, -, -, after, -, happends, h⟩
    · exact absurd hnew.1 hstorable
    · exact absurd hholds hnew.2
    · exact absurd (hdevice.symm.trans hnone) (by simp)
    · rw [serve_eq hbody, hpost, h]
      exact ⟨happends, rfl, refuses_of_appends hbody hadmits happends⟩
  · refine .inr ⟨hnew, ?_⟩
    intro now
    rw [serve_eq hbody, hpost]
    rcases Backend.storeReport_cases report now db with
      ⟨-, h⟩ | ⟨-, -, h⟩ | ⟨hstorable, hholds, -⟩
    · rw [h]
      exact ⟨rfl, show 300 ≤ 500 by omega⟩
    · rw [h]
      exact ⟨rfl, show 300 ≤ 409 by omega⟩
    · exact absurd ⟨hstorable, hholds⟩ hnew

/-! ### What the loop does -/

variable {result : PostResult}

/-- A server error is tried again. -/
theorem postLoop_serverError {attempt : Nat} {status : Fin 100}
    (h : network attempt = .serverError status) (rest : List Nat) :
    postLoop py wire network maxAttempts scheme payload (attempt :: rest) db =
      postLoop py wire network maxAttempts scheme payload rest db := by
  have hlt := status.isLt
  rw [postLoop]
  simp only [h, clientPost]
  rw [if_neg (by omega), if_neg (by omega)]

theorem postLoop_refused (hrefuses : Refuses py scheme (wire payload) db) {attempts : List Nat}
    (h : postLoop py wire network maxAttempts scheme payload attempts db = (after, result)) :
    after = db ∧ result.delivered = false := by
  induction attempts with
  | nil =>
    obtain ⟨rfl, rfl⟩ := Prod.mk.inj h
    exact ⟨rfl, rfl⟩
  | cons attempt rest ih =>
    cases hattempt : network attempt with
    | requestLost =>
      rw [postLoop, hattempt] at h
      exact ih h
    | responseLost now =>
      rw [postLoop] at h
      simp only [hattempt, clientPost, (hrefuses now).1] at h
      exact ih h
    | serverError status =>
      rw [postLoop_serverError hattempt] at h
      exact ih h
    | answered now =>
      obtain ⟨hdb, hstatus⟩ := hrefuses now
      rw [postLoop] at h
      simp only [hattempt, clientPost, hdb] at h
      rw [if_neg (by omega)] at h
      split at h
      · obtain ⟨rfl, rfl⟩ := Prod.mk.inj h
        exact ⟨rfl, rfl⟩
      · exact ih h

/-- A report that can be stored is stored by the first attempt that reaches the backend, and
delivered when that attempt is answered. -/
theorem postLoop_stored (hstores : Stores py scheme (wire payload) report db) {attempts : List Nat}
    (h : postLoop py wire network maxAttempts scheme payload attempts db = (after, result)) :
    ((attempts.map network).find? Attempt.Reaches = none ∧
      after = db ∧ result.delivered = false) ∨
    (∃ now, (attempts.map network).find? Attempt.Reaches = some (.responseLost now) ∧
      db.Appends report now after ∧ result.delivered = false) ∨
    (∃ now, (attempts.map network).find? Attempt.Reaches = some (.answered now) ∧
      db.Appends report now after ∧ result.delivered = true) := by
  induction attempts with
  | nil =>
    obtain ⟨rfl, rfl⟩ := Prod.mk.inj h
    exact .inl ⟨rfl, rfl, rfl⟩
  | cons attempt rest ih =>
    rw [List.map_cons]
    cases hattempt : network attempt with
    | requestLost =>
      rw [postLoop, hattempt] at h
      exact ih h
    | responseLost now =>
      obtain ⟨happends, -, hrefuses⟩ := hstores now
      rw [postLoop, hattempt] at h
      obtain ⟨rfl, hresult⟩ := postLoop_refused hrefuses h
      exact .inr (.inl ⟨now, rfl, happends, hresult⟩)
    | serverError status =>
      rw [postLoop_serverError hattempt] at h
      exact ih h
    | answered now =>
      obtain ⟨happends, hstatus, -⟩ := hstores now
      rw [postLoop] at h
      simp only [hattempt, clientPost, hstatus] at h
      obtain ⟨rfl, rfl⟩ := Prod.mk.inj h
      exact .inr (.inr ⟨now, rfl, happends, rfl⟩)

/-- Whatever is lost, the call settles a fresh report exactly when the first attempt that reaches
the backend is answered, or the report cannot be stored. -/
theorem settles_iff_answered (signer : Signer scheme) {r : ReportTuple}
    (hpayload : buildPayload signer r = .ok payload)
    (hwire : UsageReport.validate py (wire payload) = .ok (.ok report)) {w : World}
    (hfresh : w.db.Admits scheme report) (network : Nat → Attempt) (maxAttempts : Nat) :
    (∃ u result, post signer py wire network maxAttempts r w = .ok (u, result) ∧
        Settles report w u result) ↔
      (report.Storable → ¬w.db.Holds report →
        ∀ now, ((List.range' 1 maxAttempts).map network).find? Attempt.Reaches ≠
          some (.responseLost now)) := by
  cases hloop : postLoop py wire network maxAttempts scheme payload (List.range' 1 maxAttempts)
      w.db with
  | mk after result =>
    have hpost : post signer py wire network maxAttempts r w =
        .ok ({ w with db := after }, result) := by
      rw [post, hpayload]
      simp only [bind, Except.bind, hloop]
      rfl
    have hunsent : after = w.db ∧ result.delivered = false →
        Settles report w { w with db := after } result := by
      rintro ⟨rfl, hresult⟩
      refine ⟨?_, .inl rfl, rfl⟩
      rw [hresult]
      simpa using fun now => not_appends_self now
    rw [hpost]
    rcases stores_or_refuses hwire hfresh with ⟨hstorable, hholds, hstores⟩ | ⟨hnew, hrefuses⟩
    · rcases postLoop_stored hstores hloop with
        ⟨hnone, h⟩ | ⟨now, hlost, happends, hresult⟩ | ⟨now, hanswered, happends, hresult⟩
      · rw [hnone]
        exact iff_of_true ⟨_, _, rfl, hunsent h⟩ (fun _ _ _ => by simp)
      · rw [hlost]
        refine iff_of_false ?_ (fun h => h hstorable hholds now rfl)
        rintro ⟨u, result', heq, hsettles⟩
        obtain ⟨rfl, rfl⟩ := Prod.mk.inj (Except.ok.inj heq)
        have hdelivered := hsettles.delivered.mpr ⟨now, happends⟩
        rw [hresult] at hdelivered
        cases hdelivered
      · rw [hanswered]
        refine iff_of_true ⟨_, _, rfl, ?_, .inr ⟨now, happends⟩, rfl⟩ (fun _ _ _ => by simp)
        exact iff_of_true hresult ⟨now, happends⟩
    · refine iff_of_true ⟨_, _, rfl, hunsent (postLoop_refused hrefuses hloop)⟩ ?_
      exact fun hstorable hholds => absurd ⟨hstorable, hholds⟩ hnew

/-! ### A lost response -/

def sampleTuple : ReportTuple := ⟨"d", 1, 1, 0, 0⟩

/-- The tables with the sample device registered and nothing accepted. -/
def sampleWorld : World := ⟨.empty, Backend.servedAll
  [.registerDevice Backend.sampleRegistration .epoch]⟩

theorem sampleTuple_received : ∃ payload, buildPayload sampleSigner sampleTuple = .ok payload ∧
    UsageReport.validate Backend.samplePydantic (withSignature payload) =
      .ok (.ok (Backend.sampleReport 1 1 .epoch)) := by
  have heval : ((buildPayload sampleSigner sampleTuple).toOption.any fun payload =>
      (UsageReport.validate Backend.samplePydantic (withSignature payload)).toOption.any
        fun read => decide (read.toOption = some (Backend.sampleReport 1 1 .epoch))) = true := by
    decide +kernel
  obtain ⟨payload, hpayload, hread⟩ := (Option.any_eq_true _ _).mp heval
  obtain ⟨read, hvalidate, hreport⟩ := (Option.any_eq_true _ _).mp hread
  have hvalidated := ok_of_toOption hvalidate
  rw [ok_of_toOption (of_decide_eq_true hreport)] at hvalidated
  exact ⟨payload, ok_of_toOption hpayload, hvalidated⟩

theorem sampleWorld_admits :
    sampleWorld.db.Admits SignatureScheme.sample (Backend.sampleReport 1 1 .epoch) := by
  apply Backend.screenReport_none_iff.mp
  apply Option.isNone_iff_eq_none.mp
  decide +kernel

/-- No response is lost. -/
theorem settles_iff_answered_sample : ∃ u result,
    post sampleSigner Backend.samplePydantic withSignature (fun _ => .answered .epoch) 8
        sampleTuple sampleWorld = .ok (u, result) ∧
      Settles (Backend.sampleReport 1 1 .epoch) sampleWorld u result := by
  obtain ⟨payload, hpayload, hread⟩ := sampleTuple_received
  apply (settles_iff_answered sampleSigner hpayload hread sampleWorld_admits _ 8).mpr
  intro _ _ now
  simp [Attempt.Reaches]

/-- The response of the first attempt is lost, so that the second is refused as a replay. -/
theorem lost_response_undelivered : ¬∀ r payload report (w : World),
    buildPayload sampleSigner r = .ok payload →
    UsageReport.validate Backend.samplePydantic (withSignature payload) = .ok (.ok report) →
    w.db.Admits SignatureScheme.sample report → ∀ network maxAttempts, 1 ≤ maxAttempts →
      ∃ u result, post sampleSigner Backend.samplePydantic withSignature network maxAttempts r w =
        .ok (u, result) ∧ Settles report w u result := by
  intro h
  obtain ⟨payload, hpayload, hread⟩ := sampleTuple_received
  obtain ⟨u, result, hpost, hsettles⟩ := h _ _ _ sampleWorld hpayload hread sampleWorld_admits
    (fun attempt => if attempt = 1 then .responseLost .epoch else .answered .epoch) 8 (by omega)
  have heval : ((post sampleSigner Backend.samplePydantic withSignature
      (fun attempt => if attempt = 1 then .responseLost .epoch else .answered .epoch) 8
        sampleTuple sampleWorld).toOption.any fun (u, result) =>
      !result.delivered && decide (u.db.usageReports ≠ sampleWorld.db.usageReports)) = true := by
    decide +kernel
  rw [hpost] at heval
  simp only [Except.toOption, Option.any_some, Bool.and_eq_true, Bool.not_eq_true',
    decide_eq_true_eq] at heval
  rcases hsettles.once with hsame | hstored
  · exact heval.2 (by rw [hsame])
  · have hdelivered := hsettles.delivered.mpr hstored
    rw [heval.1] at hdelivered
    cases hdelivered

end BleUsageMeter.Gateway
