import BleUsageMeter.Gateway.Billing
import BleUsageMeter.Gateway.Delivery
import BleUsageMeter.Gateway.Handle

/-! The identity that reports carry.  `deployment.md` and `gateway.example.yaml` say that reports
are for `meter_id`, which is what the operator registers; the code reports one count for each peer
address that was observed, and reads `meter_id` only to print it. -/

namespace BleUsageMeter.Gateway

open Kit
open Backend (Db UsageReport)

variable {scheme : SignatureScheme} (signer : Signer scheme) (cfg : GatewayConfig)

/-- A step of `cmd_report`, or a crash of its process. -/
def SenderEvent.IsReport (_ : Sender) : SenderEvent → Prop
  | .pipeline _ => False
  | _ => True

/-- Only `meterId` is registered. -/
def RegistersOnly (db : Db) (meterId : String) : Prop :=
  ∀ id, (db.devices.get? id).isSome ↔ id = meterId

/-- The report is for `meterId` with the total count, and a backend that knows only `meterId` does
not answer it with `unknown_device`. -/
structure Message.IsFor (scheme : SignatureScheme) (m : Message) (meterId : String) (total : Nat) :
    Prop where
  device : m.tuple.deviceId = meterId
  count : m.tuple.count = total
  known : ∀ db report now fault detail, RegistersOnly db meterId → m.CarriedBy report →
    (Backend.postReport scheme report now fault db).2 ≠
      .ok (Backend.rejection .unknownDevice detail)

namespace GatewayConfig

def matcher : Matcher := .ofRules cfg.rules

/-- The number of all counted writes. -/
def total (writes : List GattWrite) : Nat :=
  writes.countP fun write => cfg.matcher.classify write ≠ unknown

/-- The gateway after some writes, before its first report. -/
def reporting (writes : List GattWrite) : Sender := ⟨.handleAll cfg.matcher writes, .idle, []⟩

/-- Every counted write is from the peer `meter_id`, and SQLite can hold their number. -/
def SolePeer (writes : List GattWrite) : Prop :=
  (∀ write ∈ writes, cfg.matcher.classify write ≠ unknown → write.peerAddr = cfg.meterId) ∧
    cfg.total writes < 2 ^ 63

/-- No report can be signed: the address of the first counted write is too long for the canonical
bytes, or the interval is. -/
def Unsignable (writes : List GattWrite) : Prop :=
  (∃ write, writes.find? (fun write => cfg.matcher.classify write ≠ unknown) = some write ∧
    256 ^ 2 ≤ (utf8 write.peerAddr).length) ∨ 256 ^ 8 ≤ cfg.reportIntervalSec

end GatewayConfig

variable {signer} {cfg} {writes : List GattWrite} {reportInterval : Int}

/-- What the reports of a gateway that handles no more writes are made from. -/
structure Sender.Reads (signer : Signer scheme) (reportInterval : Int)
    (rows : List (String × Nat)) (s : Sender) : Prop where
  stored : s.meter.store.counters.entries = rows
  loaded : ∀ counter origin, s.reporting = .loaded counter origin ∨
    s.reporting = .numbered counter origin ∨ s.reporting = .checked counter origin →
      counter.counts.entries = rows
  sent : ∀ m ∈ s.sent, ∃ sequence origin now,
    m ∈ signRows signer reportInterval sequence origin now rows

theorem Sender.Reads.step {matcher : Matcher} {rows : List (String × Nat)} {s u : Sender}
    {e : SenderEvent} (h : s.Reads signer reportInterval rows) (hreport : e.IsReport s)
    (hstep : s.step signer matcher reportInterval e = some u) :
    u.Reads signer reportInterval rows := by
  rcases Sender.step_cases hstep with ⟨event, meter, rfl, -⟩ | ⟨-, -, rfl⟩ |
    ⟨counter, origin, -, hloading, rfl⟩ | ⟨counter, origin, -, hnumbered, rfl⟩ |
    ⟨counter, origin, now, -, hchecked, rfl⟩ | ⟨-, rfl⟩
  · exact absurd hreport id
  · refine ⟨h.stored, ?_, h.sent⟩
    intro counter origin e
    rcases e with e | e | e <;> cases e
    rw [Counter.counts_ofCounts]
    exact h.stored
  · refine ⟨h.stored, ?_, h.sent⟩
    intro counter' origin' e
    rcases e with e | e | e <;> cases e
    show (counter.restoreSequence _).counts.entries = rows
    rw [Counter.counts_restoreSequence]
    exact h.loaded counter origin (.inl hloading)
  · have hcounts := h.loaded counter origin (.inr (.inl hnumbered))
    refine ⟨h.stored, ?_, h.sent⟩
    intro counter' origin' e
    rcases e with e | e | e <;> cases e
    exact hcounts
  · refine ⟨h.stored, ?_, ?_⟩
    · intro counter' origin' e
      rcases e with e | e | e <;> cases e
    · intro m hm
      rcases List.mem_append.mp hm with hm | hm
      · exact h.sent m hm
      · have hcounts := h.loaded counter origin (.inr (.inr hchecked))
        exact ⟨counter.sequence, origin, now, hcounts ▸ hm⟩
  · refine ⟨h.stored, ?_, h.sent⟩
    intro counter origin e
    rcases e with e | e | e <;> cases e

namespace GatewayConfig

theorem reporting_reads (cfg : GatewayConfig) (writes : List GattWrite) (signer : Signer scheme) :
    (cfg.reporting writes).Reads signer cfg.reportIntervalSec
      (cfg.reporting writes).meter.store.counters.entries := by
  refine ⟨rfl, ?_, fun m hm => absurd hm List.not_mem_nil⟩
  intro counter origin e
  rcases e with e | e | e <;> cases e

theorem units_le_total (cfg : GatewayConfig) (writes : List GattWrite) (d : String) :
    cfg.matcher.units writes d ≤ cfg.total writes := by
  apply List.countP_mono_left
  intro write _ h
  simp only [decide_eq_true_eq] at h ⊢
  exact h.2

/-- One peer has all the units exactly when every counted write is its own. -/
theorem units_eq_total_iff {d : String} : cfg.matcher.units writes d = cfg.total writes ↔
    ∀ write ∈ writes, cfg.matcher.classify write ≠ unknown → write.peerAddr = d := by
  induction writes with
  | nil => simp [Matcher.units, total]
  | cons write rest ih =>
    have hle := cfg.units_le_total rest d
    rw [List.forall_mem_cons, ← ih]
    simp only [Matcher.units, total, List.countP_cons, decide_eq_true_eq] at hle ⊢
    by_cases hcounted : cfg.matcher.classify write = unknown
    · simp [hcounted]
    · by_cases hd : write.peerAddr = d
      · simp [hcounted, hd]
      · simp only [hcounted, hd, ne_eq, not_false_eq_true, forall_const, false_and, if_true,
          if_false, iff_false] at hle ⊢
        omega

theorem solePeer_of_rows_nil
    (h : (cfg.reporting writes).meter.store.counters.entries = []) : cfg.SolePeer writes := by
  have hnone := (Meter.handled cfg.matcher writes).no_rows h
  refine ⟨fun write hwrite hcounted => absurd (hnone write hwrite) hcounted, ?_⟩
  rw [total, List.countP_eq_zero.mpr (by simpa using hnone)]
  decide

/-- The first row is reported, when its device and the interval are short enough. -/
theorem reports_first (signer : Signer scheme) {d : String} {count : Nat}
    {rest : List (String × Nat)}
    (hrows : (cfg.reporting writes).meter.store.counters.entries = (d, count) :: rest)
    (hshort : (utf8 d).length < 256 ^ 2) (hinterval : cfg.reportIntervalSec < 256 ^ 8) :
    ∃ events s, Run (Sender.step signer cfg.matcher cfg.reportIntervalSec) SenderEvent.IsReport
        (cfg.reporting writes) events s ∧
      ∃ m ∈ s.sent, m.tuple.deviceId = d ∧ m.tuple.count = count := by
  have hmax : maxCount = 9223372036854775807 := rfl
  have hge := cfg.interval_ge
  have hcount := ((Meter.handled cfg.matcher writes).first_row hrows).2
  obtain ⟨s, hrun, hsent⟩ := Sender.first_signed signer cfg.matcher cfg.reportIntervalSec
    (s := cfg.reporting writes) rfl (Meter.handleAll_sequence cfg.matcher writes) hrows hshort
    (by omega) ⟨by omega, hinterval⟩
  refine ⟨_, s, Run.of_execute_allowed ?_ hrun, hsent⟩
  simp [Sender.reportRun, SenderEvent.IsReport]

/-- No report is signed while none can be. -/
theorem Unsignable.signs_nothing (h : cfg.Unsignable writes) (sequence : Nat) (origin : Store)
    (now : Int) : signRows signer cfg.reportIntervalSec sequence origin now
      (cfg.reporting writes).meter.store.counters.entries = [] := by
  cases hrows : (cfg.reporting writes).meter.store.counters.entries with
  | nil => rfl
  | cons row rest =>
    obtain ⟨d, count⟩ := row
    obtain ⟨⟨write, hwrite, rfl⟩, -⟩ :=
      (Meter.handled cfg.matcher writes).first_row hrows
    rw [signRows]
    split
    · rename_i signature hsign
      obtain ⟨hlength, -, -, hstart, hend⟩ := sign_isOk_iff.mp ⟨signature, hsign⟩
      dsimp only at hlength hstart hend
      rcases h with ⟨first, hfirst, hlong⟩ | hlong
      · obtain rfl := Option.some.inj (hwrite.symm.trans hfirst)
        omega
      · omega
    · rfl

end GatewayConfig

/-- A row of the counts after some writes of the peer `meter_id` alone. -/
theorem GatewayConfig.SolePeer.row (h : cfg.SolePeer writes) {d : String} {count : Nat}
    (hrow : (d, count) ∈ (cfg.reporting writes).meter.store.counters.entries) :
    d = cfg.meterId ∧ count = cfg.total writes := by
  have hmax : maxCount = 9223372036854775807 := rfl
  have hstored := (Meter.handled cfg.matcher writes).stored d
  rw [show (Meter.handleAll cfg.matcher writes).store.counters.get? d = some count from
    (Dict.mem_entries_iff _).mp hrow] at hstored
  split at hstored
  · cases hstored
  · rename_i hpos
    obtain ⟨write, hwrite, hcounted⟩ := List.countP_pos_iff.mp (Nat.pos_of_ne_zero hpos)
    simp only [decide_eq_true_eq] at hcounted
    obtain rfl := (h.1 write hwrite hcounted.2).symm.trans hcounted.1
    have htotal := units_eq_total_iff.mpr h.1
    have hfits := h.2
    have hcount := Option.some.inj hstored
    exact ⟨rfl, by omega⟩

/-- After any writes, whatever runs of `cmd_report` follow, every signed report is for `meter_id`
with the total count exactly when `meter_id` is the one peer that is counted, or no report can be
signed at all. -/
theorem reports_identified_iff (signer : Signer scheme)
    {int : Yaml → Except PyException Int} {safeLoad : String → Except PyException Yaml}
    {path : String} {eventsPath : Option String}
    (_ : loadGateway int safeLoad path eventsPath = .ok cfg) (writes : List GattWrite) :
    (∀ events s, Run (Sender.step signer cfg.matcher cfg.reportIntervalSec) SenderEvent.IsReport
        (cfg.reporting writes) events s →
      ∀ m ∈ s.sent, m.IsFor scheme cfg.meterId (cfg.total writes)) ↔
    cfg.SolePeer writes ∨ cfg.Unsignable writes := by
  have hmax : maxCount = 9223372036854775807 := rfl
  constructor
  · intro h
    apply Classical.or_iff_not_imp_right.mpr
    intro hsignable
    obtain ⟨hshort, hinterval⟩ := not_or.mp hsignable
    cases hrows : (cfg.reporting writes).meter.store.counters.entries with
    | nil => exact GatewayConfig.solePeer_of_rows_nil hrows
    | cons row rest =>
      obtain ⟨d, count⟩ := row
      obtain ⟨⟨write, hwrite, rfl⟩, hcount⟩ :=
        (Meter.handled cfg.matcher writes).first_row hrows
      have hlength : (utf8 write.peerAddr).length < 256 ^ 2 :=
        Nat.lt_of_not_le fun hlong => hshort ⟨write, hwrite, hlong⟩
      obtain ⟨events, s, hrun, m, hm, hdevice, htuple⟩ :=
        GatewayConfig.reports_first signer hrows hlength (Int.lt_of_not_ge hinterval)
      have hfor := h events s hrun m hm
      have htotal := Int.ofNat.inj (htuple.symm.trans hfor.count)
      have hle := cfg.units_le_total writes write.peerAddr
      refine ⟨GatewayConfig.units_eq_total_iff.mp ?_, by omega⟩
      rw [← hfor.device, hdevice]
      omega
  · intro h events s hrun m hm
    have hreads := hrun.preserves (cfg.reporting_reads writes signer)
      fun _ _ _ ht hok hstep => ht.step hok hstep
    obtain ⟨sequence, origin, now, hm⟩ := hreads.sent m hm
    rcases h with hsole | hunsignable
    · obtain ⟨-, -, count, hcount, hrow⟩ := mem_signRows hm
      obtain ⟨hdevice, rfl⟩ := hsole.row hrow
      refine ⟨hdevice, hcount, ?_⟩
      intro db report now' fault detail hdb hcarried
      apply Backend.postReport_known
      rw [← hcarried.fields.1, hdevice]
      exact (hdb _).mpr rfl
    · rw [hunsignable.signs_nothing] at hm
      cases hm

/-! ### The shipped example -/

/-- `int`, for the values of the example. -/
def sampleInt : Yaml → Except PyException Int
  | .str text | .scalar text _ =>
    if text ≠ "" ∧ text.toList.all Char.isDigit then
      .ok (text.toList.foldl (fun n c => 10 * n + (c.toNat - '0'.toNat : Nat)) 0)
    else .error .valueError
  | _ => .error .typeError

/-- The shipped settings with their file of rules. -/
def sampleFiles (meterId : String) : String → Except PyException Yaml
  | "config/gateway.yaml" => .ok (.mapping
      [("meter_id", .str meterId),
        ("report_endpoint", .str "https://REPLACE_ME.example.invalid/v1/reports"),
        ("report_interval_sec", .scalar "300" true),
        ("private_key_path", .str "/etc/ble-meter/gateway.key"),
        ("events_file", .str "/etc/ble-meter/events.yaml")] "\x7b...\x7d")
  | "/etc/ble-meter/events.yaml" => .ok sampleEvents
  | _ => .error .interrupted

theorem sampleFiles_loaded : ∀ meterId ∈ ["d", "REPLACE_ME-gateway-0001"],
    ∃ cfg, loadGateway sampleInt (sampleFiles meterId) "config/gateway.yaml" none = .ok cfg ∧
      cfg.meterId = meterId ∧ cfg.rules = sampleRules ∧ cfg.reportIntervalSec = 300 := by
  have heval : ∀ meterId ∈ ["d", "REPLACE_ME-gateway-0001"],
      ((loadGateway sampleInt (sampleFiles meterId) "config/gateway.yaml" none).toOption.any
        fun cfg => decide (cfg.meterId = meterId ∧ cfg.rules = sampleRules ∧
          cfg.reportIntervalSec = 300)) = true := by
    decide +kernel
  intro meterId hmem
  obtain ⟨cfg, hload, hcfg⟩ := (Option.any_eq_true _ _).mp (heval meterId hmem)
  exact ⟨cfg, ok_of_toOption hload, by simpa using hcfg⟩

/-- The peer that is observed is the one that the settings name. -/
theorem reports_identified_iff_sample : ∃ cfg,
    loadGateway sampleInt (sampleFiles "d") "config/gateway.yaml" none = .ok cfg ∧
      ∀ events s, Run (Sender.step sampleSigner cfg.matcher cfg.reportIntervalSec)
          SenderEvent.IsReport (cfg.reporting [sampleWork, sampleWork]) events s →
        ∀ m ∈ s.sent, m.IsFor SignatureScheme.sample "d" 2 := by
  obtain ⟨cfg, hload, hid, hrules, -⟩ := sampleFiles_loaded "d" (by simp)
  have hcounted : cfg.matcher.classify sampleWork ≠ unknown := by
    rw [GatewayConfig.matcher, hrules]
    exact sampleWork_counted
  have htotal : cfg.total [sampleWork, sampleWork] = 2 := by
    simp [GatewayConfig.total, hcounted]
  have hsole : cfg.SolePeer [sampleWork, sampleWork] := by
    refine ⟨?_, by rw [htotal]; decide⟩
    simp [hid, sampleWork]
  refine ⟨cfg, hload, ?_⟩
  have hall := (reports_identified_iff sampleSigner hload [sampleWork, sampleWork]).mpr (.inl hsole)
  rwa [htotal, hid] at hall

/-- With the shipped settings, one write of another peer is reported as that peer's. -/
theorem peer_reported : ¬∀ (int : Yaml → Except PyException Int)
    (safeLoad : String → Except PyException Yaml) (path : String) (eventsPath : Option String)
    (cfg : GatewayConfig), loadGateway int safeLoad path eventsPath = .ok cfg →
    ∀ writes events s, Run (Sender.step sampleSigner cfg.matcher cfg.reportIntervalSec)
        SenderEvent.IsReport (cfg.reporting writes) events s →
      ∀ m ∈ s.sent, m.IsFor SignatureScheme.sample cfg.meterId (cfg.total writes) := by
  intro h
  obtain ⟨cfg, hload, hid, hrules, hinterval⟩ :=
    sampleFiles_loaded "REPLACE_ME-gateway-0001" (by simp)
  have hcounted : cfg.matcher.classify sampleWork ≠ unknown := by
    rw [GatewayConfig.matcher, hrules]
    exact sampleWork_counted
  cases hrows : (cfg.reporting [sampleWork]).meter.store.counters.entries with
  | nil =>
    exact absurd ((Meter.handled cfg.matcher [sampleWork]).no_rows hrows _ List.mem_cons_self)
      hcounted
  | cons row rest =>
    obtain ⟨d, count⟩ := row
    obtain ⟨⟨write, hwrite, rfl⟩, -⟩ :=
      (Meter.handled cfg.matcher [sampleWork]).first_row hrows
    obtain rfl : write = sampleWork := by simpa using List.mem_of_find?_eq_some hwrite
    obtain ⟨events, s, hrun, m, hm, hdevice, -⟩ := GatewayConfig.reports_first sampleSigner hrows
      (by decide +kernel) (by rw [hinterval]; decide)
    have hfor := (h _ _ _ _ cfg hload _ events s hrun m hm).device
    rw [hdevice, hid] at hfor
    exact absurd hfor (by decide)

end BleUsageMeter.Gateway
