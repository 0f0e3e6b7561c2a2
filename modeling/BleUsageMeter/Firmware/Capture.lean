import BleUsageMeter.Firmware.Complete
import BleUsageMeter.Firmware.Totals

/-! From the air to the reports: the observer hands every value that it has put together to
`record`, and a boot clears its pool with the other memory.  What a round reports about a peer is
the number of values that were captured whole. -/

namespace BleUsageMeter.Firmware

open Kit

/-- The observer of a chip that has just been reset. -/
def Observer.blank : Observer :=
  ⟨fun _ => ⟨0, 0, ⟨.replicate 16 0⟩, ⟨.replicate 16 0⟩, ⟨0, .replicate 6 0⟩, [], 0, false⟩,
    false, 0⟩

/-- A board with its observer, and the values that were emitted since the last boot. -/
structure Capturing (σ : Type) where
  observing : Observing
  board : Board σ

inductive CaptureEvent
  | air (e : ObserverEvent) (log save : Outcomes)
  | provision (key : List UInt8)
  | boot (o : BootOutcomes)
  | tick (save : Outcomes)

namespace Capturing

def off {σ : Type} (nvs : Nvs) (key : Option (List UInt8)) (server : σ) : Capturing σ :=
  ⟨.start .blank, .off nvs key server⟩

variable {σ : Type} {scheme : SignatureScheme} (m : Mbedtls) (sodium : Sodium scheme)
  (rules : List EventRule) (client : String → List UInt8 → Nat → σ → σ × Exchange)

/-- `window_end`, on the clock of the observer. -/
def seconds (c : Capturing σ) : Nat := (c.observing.observer.now / 1000000).toNat

def step (c : Capturing σ) : CaptureEvent → Option (Capturing σ)
  | .air e log save =>
    if c.board.activity = .halted then none
    else
      let r := c.observing.observer.react e
      some ⟨⟨r.1, c.observing.emitted ++ r.2.toList⟩,
        r.2.elim c.board fun w => c.board.record rules w r.1.now log save⟩
  | .provision key => some { c with board := { c.board with key := some key } }
  | .boot o => some ⟨.start .blank, c.board.boot sodium o⟩
  | .tick save =>
    if c.board.activity = .reporting then
      some { c with board := c.board.tick m sodium client (c.seconds - c.board.uptime) save }
    else none

/-- The number of values of a peer that match a rule. -/
def captured (c : Capturing σ) (deviceId : String) : Nat :=
  c.observing.emitted.countP fun w =>
    (matchWrite w.service w.characteristic w.payload rules).matched && deviceId = w.peerAddr

/-- What the observer has seen since the last boot. -/
def airSince (events : List CaptureEvent) : List ObserverEvent :=
  events.foldl
    (fun air e =>
      match e with
      | .air e .. => air ++ [e]
      | .boot _ => []
      | _ => air) []

/-- The observer and the board have both run, the board on the values that were emitted. -/
structure Follows (start : Board σ) (events : List CaptureEvent) (c : Capturing σ) : Prop where
  observing : Run Observing.step Always (.start .blank) (airSince events) c.observing
  board : ∃ steps, Run (Board.step m sodium rules client) Always start steps c.board ∧
    ∀ d, Board.sinceBoot rules d steps = c.captured rules d

variable {m sodium rules client} {c u : Capturing σ} {e : CaptureEvent} {start : Board σ}
  {events : List CaptureEvent}

theorem airSince_air (events : List CaptureEvent) (e : ObserverEvent) (log save : Outcomes) :
    airSince (events ++ [.air e log save]) = airSince events ++ [e] := List.foldl_append

theorem airSince_boot (events : List CaptureEvent) (o : BootOutcomes) :
    airSince (events ++ [.boot o]) = [] := List.foldl_append

theorem step_tick {save : Outcomes} (h : c.step m sodium rules client (.tick save) = some u) :
    ∃ elapsed board, c.board.step m sodium rules client (.tick elapsed save) = some board ∧
      u = { c with board } := by
  rw [step] at h
  split at h
  · rename_i hreporting
    exact ⟨_, _, if_pos hreporting, (Option.some.inj h).symm⟩
  · cases h

theorem Follows.air (h : c.Follows m sodium rules client start events)
    (hrunning : c.board.activity ≠ .halted) (e : ObserverEvent) (log save : Outcomes)
    (hstep : c.step m sodium rules client (.air e log save) = some u) :
    u.Follows m sodium rules client start (events ++ [.air e log save]) := by
  obtain ⟨steps, hrun, hsince⟩ := h.board
  rw [step, if_neg hrunning] at hstep
  obtain rfl := Option.some.inj hstep
  refine ⟨?_, ?_⟩
  · rw [airSince_air]
    exact .snoc h.observing trivial (Observer.step_react _ _)
  · cases hwrite : (c.observing.observer.react e).2 with
    | none =>
      refine ⟨steps, hrun, fun d => ?_⟩
      simpa [captured] using hsince d
    | some w =>
      have hrecord : c.board.step m sodium rules client
          (.record w (c.observing.observer.react e).1.now log save) =
            some (c.board.record rules w (c.observing.observer.react e).1.now log save) :=
        if_neg hrunning
      refine ⟨_, hrun.snoc trivial hrecord, fun d => ?_⟩
      rw [Board.sinceBoot_record, hsince]
      simp [captured, Board.Matches, List.countP_append, List.countP_singleton]

theorem Follows.step (h : c.Follows m sodium rules client start events)
    (hstep : c.step m sodium rules client e = some u) :
    u.Follows m sodium rules client start (events ++ [e]) := by
  have ⟨steps, hrun, hsince⟩ := h.board
  cases e with
  | air e log save =>
    refine h.air ?_ e log save hstep
    intro hhalted
    rw [Capturing.step, if_pos hhalted] at hstep
    cases hstep
  | provision key =>
    obtain rfl := Option.some.inj hstep
    refine ⟨?_, _, hrun.snoc (e := .provision key) trivial rfl, fun d => ?_⟩
    · rw [airSince, List.foldl_append]
      exact h.observing
    · exact List.foldl_append.trans (hsince d)
  | boot o =>
    obtain rfl := Option.some.inj hstep
    refine ⟨?_, _, hrun.snoc (e := .boot o) trivial rfl, fun d => ?_⟩
    · rw [airSince_boot]
      exact .nil
    · exact Board.sinceBoot_boot d steps o
  | tick save =>
    obtain ⟨elapsed, board, hboard, rfl⟩ := step_tick hstep
    refine ⟨?_, _, hrun.snoc trivial hboard, fun d => ?_⟩
    · rw [airSince, List.foldl_append]
      exact h.observing
    · exact List.foldl_append.trans (hsince d)

theorem follows_of_run (nvs : Nvs) (key : Option (List UInt8)) (server : σ)
    (h : Run (step m sodium rules client) Always (off nvs key server) events c) :
    c.Follows m sodium rules client (.off nvs key server) events := by
  apply h.traces
  · exact ⟨.nil, [], .nil, fun _ => rfl⟩
  · exact fun _ _ _ _ ht _ hstep => ht.step hstep

/-- A round in which no fragment comes reports a peer with the number of its values, each of which
was put together from a whole run of fragments of one attribute since the last boot; no two of them
share a fragment, as the runs of an attribute come one after another. -/
theorem reports_captured (nvs : Nvs) (key : Option (List UInt8)) (server : σ)
    (h : Run (step m sodium rules client) Always (off nvs key server) events c) {save : Outcomes}
    (hstep : c.step m sodium rules client (.tick save) = some u) :
    ∃ batch, u.board.reported = c.board.reported ++ batch ∧
      (∀ d, d ≠ kMeterDeviceId → ∀ n, (∃ r ∈ batch, r.deviceId = d ∧ r.count = n) ↔
        0 < c.captured rules d ∧ n = min (c.captured rules d) uint64Max) ∧
      ∃ origins : List Origin,
        List.Forall₂ (Origin.Explains (airSince events)) origins c.observing.emitted ∧
          origins.Pairwise fun p q => p.key = q.key → p.stop ≤ q.start := by
  have hfollows := follows_of_run nvs key server h
  obtain ⟨steps, hrun, hsince⟩ := hfollows.board
  have hinitial : ∀ d n, nvs.u64.get? (counterKey d) = some n →
      n ≤ (nvs.u64.entries.map Prod.snd).sum := by
    intro d n hn
    apply List.le_sum_of_mem
    exact List.mem_map.mpr ⟨_, (Dict.mem_entries_iff _).mpr hn, rfl⟩
  have htallied := Board.tallied_of_run hinitial key server hrun
  obtain ⟨origins, htracked⟩ := tracked_of_run .blank hfollows.observing
  obtain ⟨elapsed, board, hboard, rfl⟩ := step_tick hstep
  obtain ⟨batch, hbatch, -, hpeers, -⟩ := htallied.batch hboard
  refine ⟨batch, hbatch, fun d hd n => ?_, origins, htracked.explained, htracked.apart⟩
  rw [hpeers d hd n, hsince]

/-- A key, a boot, and the fragments of two connections, one of which disconnects. -/
def sampleCapture : List CaptureEvent :=
  .provision (List.replicate 32 7) :: .boot Board.sampleBoot ::
    sampleHistory.map fun e => .air e .success .success

theorem reports_captured_sample : ∃ c u : Capturing Nat,
    c.step .standard .sample [Meter.sampleRule] Board.sampleServer (.tick .success) = some u ∧
      ∃ batch, u.board.reported = c.board.reported ++ batch ∧
        (∃ r ∈ batch, r.deviceId = fmtAddr samplePeer ∧ r.count = 1) ∧
        ∃ origins : List Origin,
          List.Forall₂ (Origin.Explains sampleHistory) origins c.observing.emitted := by
  have heval : ((Run.execute (step .standard .sample [Meter.sampleRule] Board.sampleServer)
      (off .empty none 0) sampleCapture).any fun c =>
        decide (c.board.activity = .reporting ∧
          c.captured [Meter.sampleRule] (fmtAddr samplePeer) = 1)) = true := by
    decide +kernel
  obtain ⟨c, hrun, hc⟩ := (Option.any_eq_true _ _).mp heval
  obtain ⟨hreporting, hcaptured⟩ := of_decide_eq_true hc
  have hstep : c.step .standard .sample [Meter.sampleRule] Board.sampleServer (.tick .success) =
      some ⟨c.observing, c.board.tick .standard .sample Board.sampleServer
        (c.seconds - c.board.uptime) .success⟩ := if_pos hreporting
  obtain ⟨batch, hbatch, hpeers, origins, hexplained, -⟩ :=
    reports_captured .empty none 0 (Run.of_execute hrun) hstep
  refine ⟨c, _, hstep, batch, hbatch, (hpeers _ (by decide) 1).mpr ?_, origins, hexplained⟩
  rw [hcaptured]
  decide

end Capturing

end BleUsageMeter.Firmware
