import BleUsageMeter.Firmware.Reporter

/-! `Reporter::post` of `firmware/esp32/reporter.cpp`: a report is signed once, and the same body is
posted until the server answers it or the attempts are used up. -/

namespace BleUsageMeter.Firmware

open Kit

def kRetryBaseSec : UInt32 := 5

def kRetryMaxSec : UInt32 := 600

def kRetryMaxAttempts : Nat := 8

/-- The delay after a delay, in seconds. -/
def nextDelay (delayS : UInt32) : UInt32 :=
  if delayS * 2 > kRetryMaxSec then kRetryMaxSec else delayS * 2

/-- What becomes of an attempt: there is no client, the client returns an error, or there is a
response with a status. -/
inductive Exchange
  | noClient
  | failed
  | status (code : Nat)
deriving DecidableEq

structure ReportResult where
  posted : Bool := false
  httpStatus : Nat := 0
  attempts : Nat := 0
deriving DecidableEq

/-- What `post` returns, the server as it leaves it, and the milliseconds of its delays. -/
structure Posted (σ : Type) where
  server : σ
  res : ReportResult
  delays : List UInt32

/-- `endpoint_` and `signer_`. -/
structure Reporter where
  endpoint : Option String
  signer : Option Signer

namespace Reporter

def new : Reporter := ⟨none, none⟩

def configure (endpoint : String) (signer : Signer) : Reporter := ⟨some endpoint, some signer⟩

section

variable {σ : Type} (client : Nat → σ → σ × Exchange)

/-- What `post` does after an attempt that is not settled. -/
def again (attempt : Nat) (delayS : UInt32) (later : UInt32 → Posted σ) : Posted σ :=
  if attempt < kRetryMaxAttempts then
    let p := later (nextDelay delayS)
    { p with delays := delayS * 1000 :: p.delays }
  else later delayS

/-- The loop of `post`, over the attempts still to come. -/
def postLoop : List Nat → UInt32 → ReportResult → σ → Posted σ
  | [], _, res, server => ⟨server, res, []⟩
  | attempt :: rest, delayS, res, server =>
    let res := { res with attempts := attempt }
    match client attempt server with
    | (server, .noClient) => ⟨server, res, []⟩
    | (server, .status code) =>
      let res := { res with httpStatus := code }
      if 200 ≤ code ∧ code < 300 then ⟨server, { res with posted := true }, []⟩
      else if 400 ≤ code ∧ code < 500 then ⟨server, res, []⟩
      else again attempt delayS fun delayS => postLoop rest delayS res server
    | (server, .failed) => again attempt delayS fun delayS => postLoop rest delayS res server

end

/-- `post`.  `client` is given the endpoint and the body. -/
def post {σ : Type} {scheme : SignatureScheme} (m : Mbedtls) (sodium : Sodium scheme)
    (client : String → List UInt8 → Nat → σ → σ × Exchange) (rep : Reporter) (r : ReportTuple)
    (server : σ) : Posted σ :=
  match rep.endpoint, rep.signer with
  | some endpoint, some signer =>
    if !signer.ready then ⟨server, {}, []⟩
    else
      match signer.sign sodium r with
      | none => ⟨server, {}, []⟩
      | some sig => postLoop (client endpoint (buildBody m r sig))
          (List.range' 1 kRetryMaxAttempts) kRetryBaseSec {} server
  | _, _ => ⟨server, {}, []⟩

/-! ### What is posted -/

variable {σ : Type} {client : Nat → σ → σ × Exchange}

/-- The loop leaves the server in a state that its attempts lead to. -/
theorem postLoop_preserves {P : σ → Prop} (hclient : ∀ k s, P s → P (client k s).1)
    (attempts : List Nat) (delayS : UInt32) (res : ReportResult) {server : σ} (h : P server) :
    P (postLoop client attempts delayS res server).server := by
  induction attempts generalizing delayS res server with
  | nil => exact h
  | cons attempt rest ih =>
    have hnext := hclient attempt server h
    have hagain : ∀ res (s : σ), P s →
        P (again attempt delayS fun delayS => postLoop client rest delayS res s).server := by
      intro res s hs
      rw [again]
      split
      · exact ih _ _ hs
      · exact ih _ _ hs
    rw [postLoop]
    dsimp only
    split
    · rename_i heq
      rw [heq] at hnext
      exact hnext
    · rename_i heq
      rw [heq] at hnext
      split
      · exact hnext
      · split
        · exact hnext
        · exact hagain _ _ hnext
    · rename_i heq
      rw [heq] at hnext
      exact hagain _ _ hnext

/-- Nothing is sent without a signature, and what is sent is the text of the report with one. -/
theorem post_preserves {scheme : SignatureScheme} {m : Mbedtls} {sodium : Sodium scheme}
    {client : String → List UInt8 → Nat → σ → σ × Exchange} {P : σ → Prop} {rep : Reporter}
    {r : ReportTuple} {server : σ} (h : P server)
    (hclient : ∀ endpoint signer sig, rep.endpoint = some endpoint → rep.signer = some signer →
      signer.sign sodium r = some sig →
        ∀ k s, P s → P (client endpoint (buildBody m r sig) k s).1) :
    P (post m sodium client rep r server).server := by
  unfold post
  split
  · rename_i endpoint signer hendpoint hsigner
    split
    · exact h
    · split
      · exact h
      · rename_i sig hsig
        exact postLoop_preserves (hclient endpoint signer sig hendpoint hsigner hsig) _ _ _ h
  · exact h

end Reporter

end BleUsageMeter.Firmware
