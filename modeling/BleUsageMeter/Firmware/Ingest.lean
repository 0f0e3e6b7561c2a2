import BleUsageMeter.Firmware.Life
import BleUsageMeter.Firmware.Observer
import BleUsageMeter.Gateway.Canonical
import BleUsageMeter.Gateway.Reporter

/-! What the backend makes of what a board posts, from `record` to the check of the signature.  All
bodies are JSON objects that the backend refuses for the name of one field.  Under the name that it
requires, each is read as the report that was made, with the signature of a key of the board. -/

namespace BleUsageMeter.Firmware

open Kit
open Kit.Json (Plain Denotes)
open Backend (Value Pydantic UsageReport Verifies)

/-! ### The object of a body -/

/-- What pydantic gets for a string or an integer. -/
def member? : Json → Option Value
  | .int n => some (.int n)
  | .str s => some (.str s)
  | _ => none

/-- The body is the text of an object with these members.  Of members with one name the last one
counts. -/
def Posts (body : List UInt8) (payload : Dict String Value) : Prop :=
  ∃ text ms, utf8 text = body ∧ Denotes text.toList (.object ms) ∧
    ∀ key, (ms.reverse.lookup key).map member? = (payload.get? key).map some

theorem Posts.unique {body : List UInt8} {payload other : Dict String Value}
    (h : Posts body payload) (h' : Posts body other) (key : String) :
    payload.get? key = other.get? key := by
  obtain ⟨text, ms, rfl, hdenotes, hmap⟩ := h
  obtain ⟨text', ms', htext, hdenotes', hmap'⟩ := h'
  obtain rfl := utf8_injective htext
  obtain rfl := Json.object.inj (hdenotes.unique hdenotes')
  exact Option.map_injective (Option.some_injective _) ((hmap key).symm.trans (hmap' key))

namespace SignedReport

variable (r : SignedReport)

def payload : Dict String Value :=
  (((((Dict.empty.insert "device_id" (.str r.deviceId)).insert "count" (.int r.count.toNat)).insert
    "sequence" (.int r.sequence.toNat)).insert "window_start" (.int r.windowStart.toNat)).insert
    "window_end" (.int r.windowEnd.toNat)).insert "sig" (.str (Base64.b64encode r.sig.toList))

theorem fields_lookup (key : String) :
    (r.fields.lookup key).map member? = (r.payload.get? key).map some := by
  simp only [fields, Dict.lookup_cons_ite, payload, Dict.get?_insert]
  split_ifs <;> simp_all [member?]

theorem posts (m : Mbedtls) (hplain : ∀ c ∈ r.deviceId.toList, Plain c) (hroom : r.room ≤ 347) :
    Posts (buildBody m r.tuple r.sig) r.payload := by
  obtain ⟨⟨text, v, htext, hdenotes⟩, hall⟩ := received_of_plain m hplain hroom
  obtain ⟨ms, rfl, hmap⟩ := hall text v htext hdenotes
  exact ⟨text, ms, htext, hdenotes, fun key => by rw [hmap, fields_lookup]⟩

/-- The backend reads no report in the body, which has no field `signature`. -/
theorem refused (py : Pydantic) {m : Mbedtls} (hplain : ∀ c ∈ r.deviceId.toList, Plain c)
    (hroom : r.room ≤ 347) {payload : Dict String Value}
    (h : Posts (buildBody m r.tuple r.sig) payload) (report : UsageReport) :
    UsageReport.validate py payload ≠ .ok (.ok report) := by
  apply UsageReport.validate_unsigned
  rw [h.unique (r.posts m hplain hroom)]
  simp [SignedReport.payload, Dict.get?_insert]

/-- With its signature also under the name `signature`, the payload is read as the report. -/
theorem read (py : Pydantic) {payload : Dict String Value}
    (hpayload : ∀ key, payload.get? key = r.payload.get? key)
    (hid : 1 ≤ r.deviceId.length ∧ r.deviceId.length ≤ 128)
    (hordered : r.windowStart.toNat ≤ r.windowEnd.toNat)
    (hlimit : r.windowEnd.toNat ≤ 20000000000) :
    ∃ report, UsageReport.validate py (Gateway.withSignature payload) = .ok (.ok report) ∧
      report.deviceId = r.deviceId ∧ report.count = r.count.toNat ∧
      report.sequence = r.sequence.toNat ∧
      report.signature = Base64.b64encode r.sig.toList ∧
      report.canonicalBytes = .ok (canonicalBytes r.tuple) := by
  obtain ⟨s, hreadStart, hutcStart, hinstantStart, hsecondsStart⟩ :=
    Gateway.window_read py (t := (r.windowStart.toNat : Int)) (by omega) (by omega)
  obtain ⟨e, hreadEnd, hutcEnd, hinstantEnd, hsecondsEnd⟩ :=
    Gateway.window_read py (t := (r.windowEnd.toNat : Int)) (by omega) (by omega)
  have hlt : e.lt s = .ok false := by
    have hnot : ¬e.instant < s.instant := by omega
    simp only [Datetime.lt, hutcStart, hutcEnd, hnot, decide_false]
  let report : UsageReport :=
    { deviceId := r.deviceId
      count := r.count.toNat
      sequence := r.sequence.toNat
      windowStart := s
      windowEnd := e
      signature := Base64.b64encode r.sig.toList
      deviceId_length := hid
      signature_length := by
        rw [Base64.b64encode, String.length_ofList, Base64.encodeChars_length,
          Vector.length_toList]
        decide
      ordered := hlt }
  have hlength := utf8_length_le r.deviceId
  have hbytes : report.canonicalBytes = .ok (canonicalBytes r.tuple) := by
    rw [canonicalBytes_eq (by simp only [tuple]; omega)]
    apply Backend.canonicalMessage_eq_ok_iff.mpr
    refine ⟨?_, r.count.toNat_lt, r.sequence.toNat_lt, _, _, .of_eq hsecondsStart (by omega)
      (by omega), .of_eq hsecondsEnd (by omega) (by omega), rfl⟩
    show (utf8 r.deviceId).length < _
    omega
  refine ⟨report, ?_, rfl, rfl, rfl, rfl, hbytes⟩
  apply UsageReport.validate_eq_ok <;>
    simp [Gateway.withSignature, hpayload, SignedReport.payload, Backend.field, Dict.get?_insert,
      Backend.parseNat, hreadStart, hreadEnd, report]

end SignedReport

/-! ### The reports of a board -/

/-- A device id that a board counts for. -/
def Printed (deviceId : String) : Prop :=
  deviceId = kMeterDeviceId ∨ ∃ peer, deviceId = fmtAddr peer

theorem digitChar_plain :
    ∀ d : Fin 16, Plain (Nat.digitChar d) ∧ (Nat.digitChar d).toNat < 128 := by
  decide

theorem digits_byte (byte : UInt8) : (digits 16 2 byte.toNat).length = 2 ∧
    ∀ c ∈ digits 16 2 byte.toNat, Plain c ∧ c.toNat < 128 := by
  have hbyte := byte.toNat_lt
  rcases Nat.lt_or_ge byte.toNat 16 with hlt | hge
  · rw [digits, Nat.toDigits_of_lt_base hlt]
    refine ⟨rfl, ?_⟩
    simpa using ⟨(digitChar_plain 0).1, digitChar_plain ⟨_, hlt⟩⟩
  · have htext : Nat.toDigits 16 byte.toNat =
        [Nat.digitChar (byte.toNat / 16), Nat.digitChar (byte.toNat % 16)] := by
      rw [Nat.toDigits_of_base_le (by decide) hge, Nat.toDigits_of_lt_base (by omega)]
      rfl
    rw [digits, htext]
    refine ⟨rfl, ?_⟩
    simpa using ⟨digitChar_plain ⟨byte.toNat / 16, by omega⟩,
      digitChar_plain ⟨byte.toNat % 16, Nat.mod_lt _ (by decide)⟩⟩

/-- Bytes in hexadecimal, with colons between them. -/
theorem colons_spec (bytes : List UInt8) :
    ([':'].intercalate (bytes.map fun byte => digits 16 2 byte.toNat)).length =
        3 * bytes.length - 1 ∧
      ∀ c ∈ [':'].intercalate (bytes.map fun byte => digits 16 2 byte.toNat),
        Plain c ∧ c.toNat < 128 := by
  induction bytes with
  | nil => simp [List.intercalate]
  | cons byte rest ih =>
    obtain ⟨hlength, hall⟩ := digits_byte byte
    cases rest with
    | nil => simpa [List.intercalate, hlength] using hall
    | cons next rest =>
      have htext : [':'].intercalate ((byte :: next :: rest).map fun byte =>
          digits 16 2 byte.toNat) = digits 16 2 byte.toNat ++
            ':' :: [':'].intercalate ((next :: rest).map fun byte => digits 16 2 byte.toNat) := by
        simp [List.intercalate]
      rw [htext, List.length_append, List.length_cons, hlength, ih.1]
      constructor
      · simp only [List.length_cons]
        omega
      · intro c hc
        rcases List.mem_append.mp hc with hc | hc
        · exact hall c hc
        · rcases List.mem_cons.mp hc with rfl | hc
          · decide
          · exact ih.2 c hc

theorem fmtAddr_spec (peer : BleAddr) : (fmtAddr peer).length = 17 ∧
    ∀ c ∈ (fmtAddr peer).toList, Plain c ∧ c.toNat < 128 := by
  obtain ⟨hlength, hall⟩ := colons_spec peer.val.toList.reverse
  rw [List.length_reverse, Vector.length_toList] at hlength
  rw [fmtAddr, String.length_ofList, String.toList_ofList]
  exact ⟨hlength, hall⟩

theorem Printed.spec {deviceId : String} (h : Printed deviceId) :
    (∀ c ∈ deviceId.toList, Plain c) ∧ 1 ≤ deviceId.length ∧ deviceId.length ≤ 21 ∧
      (utf8 deviceId).length = deviceId.length := by
  have hchars : (∀ c ∈ deviceId.toList, Plain c ∧ c.toNat < 128) ∧ 1 ≤ deviceId.length ∧
      deviceId.length ≤ 21 := by
    rcases h with rfl | ⟨peer, rfl⟩
    · exact ⟨forall_of_all (by decide), by decide, by decide⟩
    · obtain ⟨hlength, hall⟩ := fmtAddr_spec peer
      exact ⟨hall, by omega, by omega⟩
  obtain ⟨hall, hmin, hmax⟩ := hchars
  refine ⟨fun c hc => (hall c hc).1, hmin, hmax, ?_⟩
  rw [Json.utf8_length_eq, Json.weight_ascii fun c hc => (hall c hc).2, String.length_toList]

theorem toDigits_word (v : UInt64) : (Nat.toDigits 10 v.toNat).length ≤ 20 := by
  apply (Nat.length_toDigits_le_iff (by decide) (by decide)).mpr
  have hlt := v.toNat_lt
  omega

/-- A body has room for such a device id and any integers. -/
theorem SignedReport.room_le {r : SignedReport} (h : Printed r.deviceId) : r.room ≤ 347 := by
  obtain ⟨-, -, hlength, hutf8⟩ := h.spec
  have hcount := toDigits_word r.count
  have hsequence := toDigits_word r.sequence
  have hstart := toDigits_word r.windowStart
  have hend := toDigits_word r.windowEnd
  rw [SignedReport.room]
  omega

theorem ofNat_toNat {n : Nat} (h : n ≤ 20000000000) : (UInt64.ofNat n).toNat = n := by
  rw [UInt64.toNat_ofNat', Nat.mod_eq_of_lt (by omega)]

/-- The backend refuses the body as it is, whatever it is read as.  With the signature also under
the name `signature` it reads one of the reports, which verifies under the public key of one of the
keys. -/
structure Legible {scheme : SignatureScheme} (sodium : Sodium scheme) (py : Pydantic)
    (keys : List (List UInt8)) (reported : List Report) (body : List UInt8) : Prop where
  posts : ∃ payload, Posts body payload
  refused : ∀ payload, Posts body payload →
    ∀ report, UsageReport.validate py payload ≠ .ok (.ok report)
  renamed : ∀ payload, Posts body payload → ∃ r ∈ reported, ∃ seed secret report,
    seed.toList ∈ keys ∧ sodium.seedKeypair seed = some secret ∧
    UsageReport.validate py (Gateway.withSignature payload) = .ok (.ok report) ∧
    report.deviceId = r.deviceId ∧ report.count = r.count % 2 ^ 64 ∧
    report.sequence = r.sequence % 2 ^ 64 ∧
    Verifies scheme report (Base64.b64encode (scheme.publicKey secret))

/-- A report that a board can make. -/
structure Report.Reportable (r : Report) : Prop where
  deviceId : Printed r.deviceId
  ordered : r.windowStart ≤ r.windowEnd
  limit : r.windowEnd ≤ 20000000000

theorem Legible.of_authentic {scheme : SignatureScheme} {m : Mbedtls} {sodium : Sodium scheme}
    (py : Pydantic) {keys : List (List UInt8)} {reported : List Report} {endpoint : String}
    {body : List UInt8} (h : Board.Authentic m sodium keys reported endpoint body)
    (hreported : ∀ r ∈ reported, r.Reportable) : Legible sodium py keys reported body := by
  obtain ⟨-, r, hr, seed, secret, sig, hseed, hsecret, hverify, rfl⟩ := h
  obtain ⟨hprinted, hordered, hlimit⟩ := hreported r hr
  obtain ⟨hplain, hmin, hmax, -⟩ := hprinted.spec
  let signed : SignedReport := ⟨r.deviceId, .ofNat r.count, .ofNat r.sequence,
    .ofNat r.windowStart, .ofNat r.windowEnd, sig⟩
  have hroom : signed.room ≤ 347 := SignedReport.room_le hprinted
  have hposts : Posts (buildBody m r.tuple sig) signed.payload := signed.posts m hplain hroom
  have hstart := ofNat_toNat (hordered.trans hlimit)
  have hend := ofNat_toNat hlimit
  refine ⟨⟨_, hposts⟩, fun payload h => signed.refused py hplain hroom h, ?_⟩
  intro payload h
  obtain ⟨report, hread, hid, hcount, hsequence, hsignature, hbytes⟩ :=
    signed.read py (h.unique hposts) ⟨hmin, hmax.trans (by decide)⟩
      (by show (UInt64.ofNat _).toNat ≤ (UInt64.ofNat _).toNat; omega)
      (by show (UInt64.ofNat _).toNat ≤ _; omega)
  refine ⟨r, hr, seed, secret, report, hseed, hsecret, hread, hid, ?_, ?_, ?_⟩
  · rw [hcount]
    exact UInt64.toNat_ofNat'
  · rw [hsequence]
    exact UInt64.toNat_ofNat'
  · exact ⟨_, sig.toList, _, Backend.loadPublicKey_publicKey secret,
      by rw [hsignature, Base64.b64decode_b64encode], hbytes, hverify⟩

/-! ### What a board counts for -/

namespace Board

variable {σ : Type} {scheme : SignatureScheme} {m : Mbedtls} {sodium : Sodium scheme}
  {rules : List EventRule} {client : String → List UInt8 → Nat → σ → σ × Exchange}
  {s u : Board σ} {e : BoardEvent} {events : List BoardEvent}

/-- A write is one of a peer, whose address `fmt_addr` prints. -/
def FromPeers (_ : Board σ) : BoardEvent → Prop
  | .record w _ _ _ => ∃ peer, w.peerAddr = fmtAddr peer
  | _ => True

/-- The seconds that pass before the ticks. -/
def uptimes (events : List BoardEvent) : Nat :=
  (events.map fun
    | .tick elapsed _ => elapsed
    | _ => 0).sum

/-- What a board counts for and reports, when its clocks have shown at most `total` seconds. -/
structure Clocked (total : Nat) (s : Board σ) : Prop where
  counted : ∀ id n, s.counter.find id = some n → Printed id
  window : s.windowStart ≤ s.uptime ∧ s.uptime ≤ total
  reported : ∀ r ∈ s.reported, Printed r.deviceId ∧ r.windowStart ≤ r.windowEnd ∧
    r.windowEnd ≤ total

theorem Clocked.boot {total : Nat} (h : s.Clocked total) (o : BootOutcomes) :
    (s.boot sodium o).Clocked total := by
  rcases boot_cases sodium o s with ⟨storage, -, heq⟩ | ⟨storage, key, signer, -, -, -, heq⟩
  · rw [heq]
    exact ⟨h.counted, h.window, h.reported⟩
  · rw [heq]
    exact ⟨fun id n hfind => .inl (restoredBy_find hfind), ⟨Nat.le_refl 0, Nat.zero_le _⟩,
      h.reported⟩

theorem Clocked.record {total : Nat} (h : s.Clocked total) {w : ObservedWrite}
    (hpeer : ∃ peer, w.peerAddr = fmtAddr peer) (tsUs : Int) (log save : Outcomes) :
    (s.record rules w tsUs log save).Clocked total := by
  unfold Board.record
  dsimp only
  split
  · refine ⟨fun id n hfind => ?_, h.window, h.reported⟩
    dsimp only at hfind
    rw [Counter.find_increment] at hfind
    split at hfind
    · rename_i hid
      obtain ⟨peer, hpeer⟩ := hpeer
      exact .inr ⟨peer, hid.trans hpeer⟩
    · exact h.counted id n hfind
  · exact ⟨h.counted, h.window, h.reported⟩

theorem Clocked.tick {total : Nat} (h : s.Clocked total) (elapsed : Nat) (save : Outcomes) :
    (s.tick m sodium client elapsed save).Clocked (total + elapsed) := by
  obtain ⟨hwindow, huptime⟩ := h.window
  refine ⟨h.counted, ⟨Nat.le_refl _, Nat.add_le_add_right huptime elapsed⟩, ?_⟩
  intro r hr
  rcases List.mem_append.mp hr with hr | hr
  · obtain ⟨hprinted, hordered, hend⟩ := h.reported r hr
    exact ⟨hprinted, hordered, hend.trans (Nat.le_add_right _ _)⟩
  · obtain ⟨entry, hentry, rfl⟩ := List.mem_map.mp hr
    exact ⟨h.counted _ _ ((Dict.mem_entries_iff _).mp hentry), hwindow.trans (Nat.le_add_right _ _),
      Nat.add_le_add_right huptime elapsed⟩

theorem Clocked.step {total : Nat} (h : s.Clocked total) (hok : s.FromPeers e)
    (hstep : s.step m sodium rules client e = some u) : u.Clocked (total + uptimes [e]) := by
  cases e with
  | provision key =>
    obtain rfl := Option.some.inj hstep
    exact ⟨h.counted, h.window, h.reported⟩
  | boot o =>
    obtain rfl := Option.some.inj hstep
    exact h.boot o
  | record w tsUs log save =>
    rw [Board.step] at hstep
    split at hstep
    · cases hstep
    · obtain rfl := Option.some.inj hstep
      exact h.record hok tsUs log save
  | tick elapsed save =>
    rw [Board.step] at hstep
    split at hstep
    · obtain rfl := Option.some.inj hstep
      exact h.tick elapsed save
    · cases hstep

/-- Whatever a board of peers goes through and whatever fails, all that the server ever gets are
bodies that the backend refuses for the name of one field, and that under the right name are read as
reports that the board made, with signatures that verify under keys that it was given. -/
theorem sends_legible (py : Pydantic) (nvs : Nvs) (key : Option (List UInt8)) (server : σ)
    (h : Run (step m sodium rules client) FromPeers (off nvs key server) events s)
    (huptime : uptimes events ≤ 20000000000) {P : σ → Prop} (hstart : P server)
    (hclient : ∀ endpoint body k t,
      Legible sodium py (key.toList ++ provisioned events) s.reported body → P t →
        P (client endpoint body k t).1) : P s.server := by
  have hclocked : s.Clocked (uptimes events) := by
    apply h.traces
    · refine ⟨fun id n hfind => ?_, ⟨Nat.le_refl 0, Nat.le_refl 0⟩, List.forall_mem_nil _⟩
      cases hfind
    · intro fs t e u ht hok hstep
      have hu := ht.step hok hstep
      rwa [uptimes, uptimes, ← List.sum_append, ← List.map_append] at hu
  have hhonest := board_honest nvs key server (h.weaken fun _ _ _ => trivial)
  refine hhonest.server P hstart fun endpoint body k t hbody => hclient endpoint body k t ?_
  apply Legible.of_authentic py hbody
  intro r hr
  obtain ⟨hprinted, hordered, hend⟩ := hclocked.reported r hr
  exact ⟨hprinted, hordered, hend.trans huptime⟩

/-- A server that keeps the bodies. -/
def keepingServer (_ : String) (body : List UInt8) (_ : Nat) (bodies : List (List UInt8)) :
    List (List UInt8) × Exchange :=
  (bodies ++ [body], .status 200)

/-- A peer writes, and a report is made of it. -/
def samplePeerLife : List BoardEvent :=
  [.provision (List.replicate 32 7), .boot sampleBoot,
    .record { Meter.sampleWrite with peerAddr := fmtAddr ⟨0, .replicate 6 0xAB⟩ } 0 .success
      .success, .tick 300 .success, .tick 300 .success]

theorem sends_legible_sample : ∃ s : Board (List (List UInt8)), s.server.length = 2 ∧
    ∀ body ∈ s.server, Legible Sodium.sample Backend.samplePydantic [List.replicate 32 7]
      s.reported body := by
  have heval : ((Run.execute (step .standard .sample [Meter.sampleRule] keepingServer)
      (off .empty none []) samplePeerLife).any fun s => decide (s.server.length = 2)) = true := by
    decide +kernel
  obtain ⟨s, hrun, hs⟩ := (Option.any_eq_true _ _).mp heval
  refine ⟨s, of_decide_eq_true hs, ?_⟩
  refine sends_legible Backend.samplePydantic _ _ _ (Run.of_execute_allowed ?_ hrun) (by decide)
    (P := fun bodies => ∀ body ∈ bodies, Legible Sodium.sample Backend.samplePydantic
      [List.replicate 32 7] s.reported body) (List.forall_mem_nil _) ?_
  · intro u
    simp [samplePeerLife, FromPeers]
  · intro endpoint body k t hbody ht other hother
    rcases List.mem_append.mp hother with hother | hother
    · exact ht other hother
    · obtain rfl := List.mem_singleton.mp hother
      exact hbody

end Board

end BleUsageMeter.Firmware
