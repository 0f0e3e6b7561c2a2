import BleUsageMeter.Kit.Retry
import BleUsageMeter.Firmware.Posting
import BleUsageMeter.Gateway.Config
import BleUsageMeter.Gateway.Identity
import BleUsageMeter.Gateway.Posting

/-! The pace of `Reporter.post` in `gateway/reporter.py`: the server that is tried again and what
the loop sleeps between the attempts.  "Resending identical bytes will not help", so that a refusal
ends the loop as a success does, and everything else is tried again with twice the delay, up to a
maximum.  The firmware posts at the same pace. -/

namespace BleUsageMeter.Gateway

open Kit
open Backend (Db Value Pydantic)

/-- The retry settings of a `Reporter`. -/
structure Reporter where
  baseDelay : Int
  maxDelay : Int
  maxAttempts : Int

/-- The `Reporter` that `cmd_report` makes. -/
def GatewayConfig.reporter (cfg : GatewayConfig) : Reporter where
  baseDelay := cfg.retryBaseSec
  maxDelay := cfg.retryMaxSec
  maxAttempts := cfg.retryMaxAttempts

/-- What `post` returns, the server as it leaves it, and what `asyncio.sleep` was asked for. -/
structure Posted (σ : Type) where
  server : σ
  delivered : Bool
  status : Option Nat
  attempts : Int
  sleeps : List Int

/-- The responses after which `post` returns, as delivered or not.  There is no response to an
attempt that ends in an `httpx.HTTPError`. -/
def settled : Option Nat → Option (Bool × Nat)
  | some status =>
    if 200 ≤ status ∧ status < 300 then some (true, status)
    else if 400 ≤ status ∧ status < 500 then some (false, status)
    else none
  | none => none

namespace Reporter

variable {σ : Type} (rep : Reporter) (client : Nat → σ → σ × Option Nat)

/-- The delay after a delay. -/
def next (delay : Int) : Int := min (delay * 2) rep.maxDelay

/-- What `post` does after an attempt that is not settled. -/
def again (attempt : Nat) (delay : Int) (later : Int → Posted σ) : Posted σ :=
  if attempt < rep.maxAttempts then
    let p := later (rep.next delay)
    { p with sleeps := delay :: p.sleeps }
  else later delay

/-- The loop of `post`, over the attempts still to come. -/
def postLoop : List Nat → Int → σ → Posted σ
  | [], _, server => ⟨server, false, none, rep.maxAttempts, []⟩
  | attempt :: rest, delay, server =>
    match client attempt server with
    | (server, response) =>
      match settled response with
      | some (delivered, status) => ⟨server, delivered, some status, attempt, []⟩
      | none => rep.again attempt delay fun delay => postLoop rest delay server

/-- `post`, with the server's answer to each attempt. -/
def post (server : σ) : Posted σ :=
  rep.postLoop client (List.range' 1 rep.maxAttempts.toNat) rep.baseDelay server

/-- An attempt, and whether it settles the matter. -/
def attempt (k : Nat) (server : σ) : σ × Option (Bool × Nat) :=
  ((client k server).1, settled (client k server).2)

/-- The delay before attempt `k + 2`. -/
def delay (k : Nat) : Int :=
  if k = 0 then rep.baseDelay else min (rep.baseDelay * 2 ^ k) rep.maxDelay

/-- `post` made `n` attempts: none but the last was settled, the last was unless no attempt is
left, and the delay was doubled between them. -/
structure Paced (server : σ) (n : Nat) (p : Posted σ) : Prop where
  attempts : p.attempts = n
  pos : 1 ≤ n
  le : n ≤ rep.maxAttempts
  unsettled : ∀ k, k + 1 < n → answerAt (attempt client) 1 server k = none
  outcome : p.status.map (fun status => (p.delivered, status)) =
    answerAt (attempt client) 1 server (n - 1)
  exhausted : p.status = none → p.delivered = false ∧ n = rep.maxAttempts
  server : p.server = reached (attempt client) 1 server n
  sleeps : p.sleeps = (List.range (n - 1)).map rep.delay

/-- What `post` returns for the loop's record. -/
def posted (k : Nat) (t : Tried σ (Bool × Nat) Int) : Posted σ where
  server := t.state
  delivered := t.answer.any Prod.fst
  status := t.answer.map Prod.snd
  attempts := if t.answer.isSome then (k + t.made : Nat) - 1 else rep.maxAttempts
  sleeps := t.delays

variable {rep client}

theorem postLoop_eq_retry {left k : Nat} (h : ((k + left : Nat) : Int) = rep.maxAttempts + 1)
    (delay : Int) (server : σ) :
    rep.postLoop client (List.range' k left) delay server =
      rep.posted k (retry (attempt client) rep.next left k delay server) := by
  induction left generalizing k delay server with
  | zero => rfl
  | succ left ih =>
    rw [List.range'_succ, postLoop, retry]
    have hattempt : attempt client k server =
      ((client k server).1, settled (client k server).2) := rfl
    rw [hattempt]
    dsimp only
    cases hsettled : settled (client k server).2 with
    | some outcome =>
      obtain ⟨delivered, status⟩ := outcome
      simp [posted]
    | none =>
      dsimp only
      rw [again]
      by_cases hlast : left = 0
      · subst hlast
        rw [if_neg (by omega), if_pos rfl]
        rfl
      · rw [if_pos (by omega), if_neg hlast, ih (by omega)]
        simp only [posted]
        congr 2
        omega

theorem iterate_next (hmax : 0 ≤ rep.maxDelay) (k : Nat) :
    rep.next^[k] rep.baseDelay = rep.delay k := by
  induction k with
  | zero => rfl
  | succ k ih =>
    rw [Function.iterate_succ_apply', ih, next, delay, delay, if_neg (Nat.succ_ne_zero k)]
    split
    · rename_i hzero
      subst hzero
      rfl
    · rw [pow_succ, ← mul_assoc]
      omega

/-- However the server answers, the attempts stop at the first that is settled, and the delay
between them is doubled up to the maximum. -/
theorem post_paced (rep : Reporter) (hattempts : 1 ≤ rep.maxAttempts) (hmax : 0 ≤ rep.maxDelay)
    (client : Nat → σ → σ × Option Nat) (server : σ) :
    ∃ n, rep.Paced client server n (rep.post client server) := by
  obtain ⟨left, hleft⟩ : ∃ left, rep.maxAttempts.toNat = left + 1 :=
    ⟨rep.maxAttempts.toNat - 1, by omega⟩
  have hretries := retries (attempt client) rep.next left 1 rep.baseDelay server
  rw [post, hleft, postLoop_eq_retry (by omega)]
  generalize retry (attempt client) rep.next (left + 1) 1 rep.baseDelay server = t at hretries
  have hpos := hretries.made_pos
  have hle := hretries.made_le
  have hanswer := hretries.answer (t.made - 1) (by omega)
  refine ⟨t.made, ?_, hpos, by omega, hretries.unsettled, ?_, ?_, hretries.state, ?_⟩
  · have hexhausted := hretries.exhausted
    simp only [posted]
    cases h : t.answer with
    | none => simp [hexhausted h]; omega
    | some outcome => simp
  · rw [← hanswer]
    simp only [posted]
    cases t.answer <;> rfl
  · intro h
    have hnone : t.answer = none := by simpa [posted] using h
    have hmade := hretries.exhausted hnone
    exact ⟨by simp [posted, hnone], by omega⟩
  · simp only [posted, hretries.delays, iterate_next hmax]

/-- A server that is down for two attempts. -/
def sampleClient (k : Nat) (server : Nat) : Nat × Option Nat :=
  (server + 1, if k ≤ 2 then some 503 else some 200)

theorem post_paced_sample :
    ∃ n, (Reporter.mk 5 600 8).Paced sampleClient 0 n ((Reporter.mk 5 600 8).post sampleClient 0) :=
  post_paced ⟨5, 600, 8⟩ (by decide) (by decide) sampleClient 0

/-! ### The pace of the firmware -/

/-- The response of an exchange of the firmware. -/
def response : Firmware.Exchange → Option Nat
  | .status code => some code
  | .noClient | .failed => none

/-- The same server, as the gateway's client. -/
def clientOf (client : Nat → σ → σ × Firmware.Exchange) (k : Nat) (server : σ) : σ × Option Nat :=
  ((client k server).1, response (client k server).2)

/-- The firmware and the gateway report the same, and sleep as long. -/
structure Agree (f : Firmware.Posted σ) (p : Posted σ) : Prop where
  server : f.server = p.server
  posted : f.res.posted = p.delivered
  attempts : (f.res.attempts : Int) = p.attempts
  status : ∀ status, p.status = some status → f.res.httpStatus = status
  delays : f.delays.map (fun ms => (ms.toNat : Int)) = p.sleeps.map (· * 1000)

/-- A delay within the limit is followed by the same delay on both sides. -/
theorem toNat_nextDelay (hmax : rep.maxDelay = 600) {delayS : UInt32} (h : delayS.toNat ≤ 600) :
    ((Firmware.nextDelay delayS).toNat : Int) = rep.next delayS.toNat ∧
      (Firmware.nextDelay delayS).toNat ≤ 600 := by
  have hdouble : (delayS * 2).toNat = delayS.toNat * 2 := by
    rw [UInt32.toNat_mul, Nat.mod_eq_of_lt]
    · rfl
    · show delayS.toNat * 2 < 2 ^ 32
      omega
  have hlimit : Firmware.kRetryMaxSec.toNat = 600 := rfl
  rw [next, hmax, Firmware.nextDelay]
  split
  · rename_i hgt
    have hlt := UInt32.lt_iff_toNat_lt.mp hgt
    omega
  · rename_i hle
    have hlt : ¬Firmware.kRetryMaxSec.toNat < (delayS * 2).toNat :=
      fun hlt => hle (UInt32.lt_iff_toNat_lt.mpr hlt)
    omega

theorem toNat_milliseconds {delayS : UInt32} (h : delayS.toNat ≤ 600) :
    (delayS * 1000).toNat = delayS.toNat * 1000 := by
  rw [UInt32.toNat_mul, Nat.mod_eq_of_lt]
  · rfl
  · show delayS.toNat * 1000 < 2 ^ 32
    omega

/-- Both sleep, or neither has an attempt left. -/
theorem Agree.again (hmax : rep.maxDelay = 600) (hattempts : rep.maxAttempts = 8) {k : Nat}
    {delayS : UInt32} (hdelay : delayS.toNat ≤ 600) {f : UInt32 → Firmware.Posted σ}
    {p : Int → Posted σ}
    (h : ∀ delayS : UInt32, delayS.toNat ≤ 600 → Agree (f delayS) (p delayS.toNat)) :
    Agree (Firmware.Reporter.again k delayS f) (rep.again k delayS.toNat p) := by
  have hlimit : Firmware.kRetryMaxAttempts = 8 := rfl
  rw [Firmware.Reporter.again, Reporter.again]
  by_cases hlast : k < 8
  · obtain ⟨hnext, hsmall⟩ := toNat_nextDelay hmax hdelay
    have hlater := h _ hsmall
    rw [hnext] at hlater
    rw [if_pos (by omega), if_pos (by omega)]
    refine ⟨hlater.server, hlater.posted, hlater.attempts, hlater.status, ?_⟩
    simp only [List.map_cons, toNat_milliseconds hdelay, hlater.delays, Nat.cast_mul,
      Nat.cast_ofNat]
  · rw [if_neg (by omega), if_neg (by omega)]
    exact h _ hdelay

/-- The loops agree from any delay on, by induction on the attempts that are left. -/
theorem postLoop_agrees {client : Nat → σ → σ × Firmware.Exchange}
    (hmax : rep.maxDelay = 600) (hattempts : rep.maxAttempts = 8)
    (hclient : ∀ k server, (client k server).2 ≠ .noClient) {left k : Nat} (hk : k + left = 9)
    {delayS : UInt32} (hdelay : delayS.toNat ≤ 600) {res : Firmware.ReportResult}
    (hposted : res.posted = false) (hres : res.attempts + 1 = k) (server : σ) :
    Agree (Firmware.Reporter.postLoop client (List.range' k left) delayS res server)
      (rep.postLoop (clientOf client) (List.range' k left) delayS.toNat server) := by
  induction left generalizing k delayS res server with
  | zero =>
    refine ⟨rfl, hposted, ?_, by simp [postLoop], rfl⟩
    show (res.attempts : Int) = rep.maxAttempts
    omega
  | succ left ih =>
    have hlater : ∀ (res : Firmware.ReportResult) (server : σ), res.posted = false →
        res.attempts = k → Agree
          (Firmware.Reporter.again k delayS fun delayS =>
            Firmware.Reporter.postLoop client (List.range' (k + 1) left) delayS res server)
          (rep.again k delayS.toNat fun delay =>
            rep.postLoop (clientOf client) (List.range' (k + 1) left) delay server) :=
      fun res server hposted hres => Agree.again hmax hattempts hdelay fun _ hsmall =>
        ih (by omega) hsmall hposted (by omega) server
    have hsome := hclient k server
    rw [List.range'_succ, Firmware.Reporter.postLoop, postLoop, clientOf]
    cases hexchange : client k server with
    | mk after exchange =>
      rw [hexchange] at hsome
      cases exchange with
      | noClient => exact absurd rfl hsome
      | failed => exact hlater _ after hposted rfl
      | status code =>
        simp only [response, settled]
        split
        · exact ⟨rfl, rfl, rfl, fun _ h => Option.some.inj h, rfl⟩
        · split
          · exact ⟨rfl, hposted, rfl, fun _ h => Option.some.inj h, rfl⟩
          · exact hlater _ after hposted rfl

theorem intOr_default {int : Yaml → Except PyException Int} {entries : List (String × Yaml)}
    {key : String} {default value : Int} (hkey : entries.lookup key = none)
    (h : intOr int entries key default = .ok value) : value = default := by
  rw [intOr, hkey] at h
  exact (Except.ok.inj h).symm

/-- The settings of a file without the retry keys. -/
theorem reporter_of_defaults {int : Yaml → Except PyException Int}
    {safeLoad : String → Except PyException Yaml} {path : String} {eventsPath : Option String}
    {cfg : GatewayConfig} (hload : loadGateway int safeLoad path eventsPath = .ok cfg)
    {doc : Yaml} (hdoc : safeLoad path = .ok doc) {entries : List (String × Yaml)} {text : String}
    (hentries : doc.orEmpty = .mapping entries text)
    (hkeys : ∀ key ∈ ["retry_base_sec", "retry_max_sec", "retry_max_attempts"],
      entries.lookup key = none) : cfg.reporter = ⟨5, 600, 8⟩ := by
  simp only [List.forall_mem_cons] at hkeys
  obtain ⟨hbase, hmax, hattempts, -⟩ := hkeys
  obtain ⟨_, hread, hload⟩ := bind_eq_ok.mp hload
  rw [hdoc] at hread
  obtain rfl := Except.ok.inj hread
  rw [hentries] at hload
  obtain ⟨interval, -, hload⟩ := bind_eq_ok.mp hload
  split at hload
  · cases hload
  · obtain ⟨_, -, hload⟩ := bind_eq_ok.mp hload
    obtain ⟨_, -, hload⟩ := bind_eq_ok.mp hload
    dsimp only at hload
    split at hload
    · obtain ⟨_, -, hload⟩ := bind_eq_ok.mp hload
      obtain ⟨_, -, hload⟩ := bind_eq_ok.mp hload
      obtain ⟨base, hbaseOk, hload⟩ := bind_eq_ok.mp hload
      obtain ⟨max, hmaxOk, hload⟩ := bind_eq_ok.mp hload
      obtain ⟨attempts, hattemptsOk, hload⟩ := bind_eq_ok.mp hload
      obtain ⟨_, -, hload⟩ := bind_eq_ok.mp hload
      obtain ⟨_, -, hload⟩ := bind_eq_ok.mp hload
      obtain ⟨_, -, hload⟩ := bind_eq_ok.mp hload
      obtain rfl := Except.ok.inj hload
      rw [GatewayConfig.reporter, intOr_default hbase hbaseOk, intOr_default hmax hmaxOk,
        intOr_default hattempts hattemptsOk]
    · obtain ⟨_, hthrow, -⟩ := bind_eq_ok.mp hload
      cases hthrow

/-- With a file that leaves the retry keys out, the gateway posts as the firmware does: to the same
server in as many attempts, with the same outcome and the same delays. -/
theorem posts_as_firmware {int : Yaml → Except PyException Int}
    {safeLoad : String → Except PyException Yaml} {path : String} {eventsPath : Option String}
    {cfg : GatewayConfig} (hload : loadGateway int safeLoad path eventsPath = .ok cfg)
    {doc : Yaml} (hdoc : safeLoad path = .ok doc) {entries : List (String × Yaml)} {text : String}
    (hentries : doc.orEmpty = .mapping entries text)
    (hkeys : ∀ key ∈ ["retry_base_sec", "retry_max_sec", "retry_max_attempts"],
      entries.lookup key = none)
    {scheme : SignatureScheme} (m : Firmware.Mbedtls) {sodium : Firmware.Sodium scheme}
    {signer : Firmware.Signer} (endpoint : String) {r : Firmware.ReportTuple}
    {sig : Vector UInt8 64} (hsig : signer.sign sodium r = some sig)
    {client : String → List UInt8 → Nat → σ → σ × Firmware.Exchange}
    (hclient : ∀ body k server, (client endpoint body k server).2 ≠ .noClient) (server : σ) :
    Agree (Firmware.Reporter.post m sodium client (.configure endpoint signer) r server)
      (cfg.reporter.post (clientOf (client endpoint (Firmware.buildBody m r sig))) server) := by
  have hready : signer.ready = true := by
    unfold Firmware.Signer.sign at hsig
    split at hsig
    · assumption
    · cases hsig
  rw [reporter_of_defaults hload hdoc hentries hkeys]
  simp only [Firmware.Reporter.post, Firmware.Reporter.configure, hready, hsig]
  have hdelay : Firmware.kRetryBaseSec.toNat ≤ 600 := by decide
  have hposted : ({} : Firmware.ReportResult).posted = false := rfl
  exact postLoop_agrees rfl rfl (hclient _) rfl hdelay hposted rfl server

/-- A server that is down for two attempts, as the firmware meets it. -/
def sampleExchanges (_ : String) (_ : List UInt8) (k : Nat) (server : Nat) :
    Nat × Firmware.Exchange :=
  (server + 1, if k = 1 then .failed else if k = 2 then .status 503 else .status 200)

theorem posts_as_firmware_sample : ∃ (cfg : GatewayConfig) (sig : Vector UInt8 64), Agree
    (Firmware.Reporter.post .standard .sample sampleExchanges
      (.configure "https://r" (Firmware.Signer.new.loadSeed .sample (.replicate 32 7)).2)
      ⟨[], 1, 1, 0, 0⟩ 0)
    (cfg.reporter.post (clientOf (sampleExchanges "https://r"
      (Firmware.buildBody .standard ⟨[], 1, 1, 0, 0⟩ sig))) 0) := by
  obtain ⟨cfg, hload, -⟩ := sampleFiles_loaded "d" (by simp)
  obtain ⟨sig, hsig⟩ : ∃ sig, (Firmware.Signer.new.loadSeed .sample (.replicate 32 7)).2.sign
      .sample ⟨[], 1, 1, 0, 0⟩ = some sig := ⟨_, rfl⟩
  refine ⟨cfg, sig, posts_as_firmware hload rfl rfl (forall_of_all (by decide)) .standard
    "https://r" hsig ?_ 0⟩
  intro body k server
  unfold sampleExchanges
  split <;> try split
  all_goals simp

end Reporter

end BleUsageMeter.Gateway
