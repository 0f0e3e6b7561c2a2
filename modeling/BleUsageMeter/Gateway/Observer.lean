import BleUsageMeter.Gateway.Matcher

/-! `gateway/observer.py`: the handler of the notifications of one characteristic.  It joins
notifications by their length: one that fills the MTU payload is treated as continued.  A value
whose length is a multiple of the payload size is therefore handed over with the values after it. -/

namespace BleUsageMeter.Gateway

/-- A handler made by `_make_handler`, with the variables that it closes over. -/
structure NotifyHandler where
  address : Option String
  serviceUuid : String
  charUuid : String
  buf : List UInt8
deriving DecidableEq

namespace NotifyHandler

/-- `_make_handler`. -/
def make (address : Option String) (serviceUuid charUuid : String) : NotifyHandler :=
  ⟨address, serviceUuid, charUuid, []⟩

/-- The write with which `on_write` is called.  Python's `str` of an absent address is `None`. -/
def write (h : NotifyHandler) (payload : List UInt8) : GattWrite :=
  ⟨h.address.getD "None", h.serviceUuid, h.charUuid, payload⟩

/-- The handler called with some data, by a characteristic that may tell its
`max_write_without_response_size`, and the write with which it calls `on_write`. -/
def notify (h : NotifyHandler) (maxWriteWithoutResponseSize : Option Nat) (data : List UInt8) :
    NotifyHandler × Option GattWrite :=
  let buf := h.buf ++ data
  let mtuPayload := maxWriteWithoutResponseSize.getD 0
  if mtuPayload ≠ 0 ∧ data.length = mtuPayload then ({ h with buf }, none)
  else ({ h with buf := [] }, some (h.write buf))

/-- The handler after some notifications, and the calls of `on_write`. -/
def receive (maxWriteWithoutResponseSize : Option Nat) (h : NotifyHandler) :
    List (List UInt8) → NotifyHandler × List GattWrite
  | [] => (h, [])
  | data :: rest =>
    let called := h.notify maxWriteWithoutResponseSize data
    let later := receive maxWriteWithoutResponseSize called.1 rest
    (later.1, called.2.toList ++ later.2)

end NotifyHandler

/-! ### Values in chunks -/

/-- The first `n` chunks of `m` bytes. -/
def fullChunks (m : Nat) : Nat → List UInt8 → List (List UInt8)
  | 0, _ => []
  | n + 1, value => value.take m :: fullChunks m n (value.drop m)

/-- A value as chunks of `m` bytes, followed by the shorter remainder if there is one. -/
def chunks (m : Nat) (value : List UInt8) : List (List UInt8) :=
  let full := value.length / m
  fullChunks m full value ++ if value.length % m = 0 then [] else [value.drop (full * m)]

/-- The values joined by their lengths, those whose length is a multiple of `m` with what follows,
and what is left over. -/
def joined (m : Nat) : List UInt8 → List (List UInt8) → List (List UInt8) × List UInt8
  | buf, [] => ([], buf)
  | buf, value :: rest =>
    if value.length % m = 0 then joined m (buf ++ value) rest
    else ((buf ++ value) :: (joined m [] rest).1, (joined m [] rest).2)

section Joined

variable {m : Nat} {h : NotifyHandler} {value : List UInt8}

theorem NotifyHandler.receive_append (mtu : Option Nat) (h : NotifyHandler)
    (first rest : List (List UInt8)) : h.receive mtu (first ++ rest) =
      (((h.receive mtu first).1.receive mtu rest).1,
        (h.receive mtu first).2 ++ ((h.receive mtu first).1.receive mtu rest).2) := by
  induction first generalizing h with
  | nil => rfl
  | cons data first ih =>
    simp only [List.cons_append, receive, ih, List.append_assoc]

/-- Full chunks are only added to the buffer. -/
theorem NotifyHandler.receive_fullChunks (hm : 0 < m) {n : Nat} (hlength : n * m ≤ value.length) :
    h.receive (some m) (fullChunks m n value) =
      ({ h with buf := h.buf ++ value.take (n * m) }, []) := by
  induction n generalizing h value with
  | zero => simp [fullChunks, receive]
  | succ n ih =>
    have hfull : (value.take m).length = m := by
      rw [List.length_take, Nat.succ_mul] at *
      omega
    have hrest : n * m ≤ (value.drop m).length := by
      rw [List.length_drop]
      rw [Nat.succ_mul] at hlength
      omega
    have hsplit : value.take ((n + 1) * m) = value.take m ++ (value.drop m).take (n * m) := by
      rw [Nat.succ_mul, Nat.add_comm, List.take_add]
    have hnotify : h.notify (some m) (value.take m) =
        ({ h with buf := h.buf ++ value.take m }, none) :=
      if_pos ⟨Nat.ne_of_gt hm, hfull⟩
    rw [fullChunks, receive, hnotify, hsplit, ← List.append_assoc]
    dsimp only
    rw [ih hrest]
    rfl

/-- A value is handed over with what was in the buffer, or kept when its length is a multiple of
the payload size. -/
theorem NotifyHandler.receive_chunks (hm : 0 < m) (h : NotifyHandler) (value : List UInt8) :
    h.receive (some m) (chunks m value) =
      if value.length % m = 0 then ({ h with buf := h.buf ++ value }, [])
      else ({ h with buf := [] }, [h.write (h.buf ++ value)]) := by
  have hdiv : value.length / m * m + value.length % m = value.length := Nat.div_add_mod' _ _
  unfold chunks
  rw [receive_append, receive_fullChunks hm (by omega)]
  split
  · have htake : value.take (value.length / m * m) = value := List.take_of_length_le (by omega)
    rw [htake]
    rfl
  · rename_i hrest
    have hshort : (value.drop (value.length / m * m)).length ≠ m := by
      have := Nat.mod_lt value.length hm
      rw [List.length_drop]
      omega
    have hnotify : ∀ k : NotifyHandler, k.notify (some m) (value.drop (value.length / m * m)) =
        ({ k with buf := [] }, some (k.write (k.buf ++ value.drop (value.length / m * m)))) :=
      fun k => if_neg fun hfull => hshort hfull.2
    simp only [receive, hnotify, List.append_assoc, List.take_append_drop]
    rfl

/-- The handler joins the values by their lengths. -/
theorem NotifyHandler.receive_values (hm : 0 < m) (h : NotifyHandler)
    (values : List (List UInt8)) : h.receive (some m) (values.flatMap (chunks m)) =
      ({ h with buf := (joined m h.buf values).2 }, (joined m h.buf values).1.map h.write) := by
  induction values generalizing h with
  | nil => rfl
  | cons value rest ih =>
    rw [List.flatMap_cons, receive_append, receive_chunks hm, joined]
    split
    · rw [ih]
      rfl
    · rw [ih]
      rfl

/-- Values whose length is a multiple of `m` are kept. -/
theorem joined_kept (m : Nat) (buf : List UInt8) {kept : List (List UInt8)}
    (hkept : ∀ value ∈ kept, value.length % m = 0) (rest : List (List UInt8)) :
    joined m buf (kept ++ rest) = joined m (buf ++ kept.flatten) rest := by
  induction kept generalizing buf with
  | nil => rw [List.nil_append, List.flatten_nil, List.append_nil]
  | cons value kept ih =>
    have hvalue := hkept value List.mem_cons_self
    have hlater : ∀ other ∈ kept, other.length % m = 0 := fun other hother =>
      hkept other (List.mem_cons_of_mem _ hother)
    rw [List.cons_append, joined, if_pos hvalue, ih _ hlater, List.flatten_cons,
      List.append_assoc]

/-- The handler keeps values whose length is a multiple of the payload size. -/
theorem NotifyHandler.receive_kept (hm : 0 < m) (h : NotifyHandler) {kept : List (List UInt8)}
    (hkept : ∀ value ∈ kept, value.length % m = 0) :
    h.receive (some m) (kept.flatMap (chunks m)) =
      ({ h with buf := h.buf ++ kept.flatten }, []) := by
  have hjoined := joined_kept m h.buf hkept []
  rw [List.append_nil] at hjoined
  rw [receive_values hm, hjoined]
  rfl

/-- What the handler has kept is handed over with the next value that fills no whole number of
payloads. -/
theorem NotifyHandler.receive_tail (hm : 0 < m) (h : NotifyHandler) {last : List UInt8}
    (hlast : last.length % m ≠ 0) (rest : List (List UInt8)) :
    let handed : NotifyHandler := { h with buf := [] }
    h.receive (some m) ((last :: rest).flatMap (chunks m)) =
      ((handed.receive (some m) (rest.flatMap (chunks m))).1,
        h.write (h.buf ++ last) :: (handed.receive (some m) (rest.flatMap (chunks m))).2) := by
  intro handed
  rw [List.flatMap_cons, receive_append, receive_chunks hm, if_neg hlast]
  rfl

/-- There are as many calls as values whose length is no multiple of `m`. -/
theorem joined_length (m : Nat) (buf : List UInt8) (values : List (List UInt8)) :
    (joined m buf values).1.length = values.countP fun value => value.length % m ≠ 0 := by
  induction values generalizing buf with
  | nil => rfl
  | cons value rest ih =>
    rw [joined, List.countP_cons]
    split
    · rename_i hmultiple
      simp [ih, hmultiple]
    · rename_i hmultiple
      simp [ih, hmultiple]

theorem joined_eq_iff (m : Nat) (values : List (List UInt8)) :
    joined m [] values = (values, []) ↔ ∀ value ∈ values, value.length % m ≠ 0 := by
  constructor
  · intro hjoined
    have hcount := joined_length m [] values
    rw [hjoined] at hcount
    simpa using List.countP_eq_length.mp hcount.symm
  · intro hvalues
    induction values with
    | nil => rfl
    | cons value rest ih =>
      rw [joined, if_neg (hvalues value (by simp)), ih fun v hv => hvalues v (by simp [hv]),
        List.nil_append]

/-- The handler calls `on_write` once per value, in order, with its bytes, and ends with an empty
buffer, exactly when no value fills a whole number of MTU payloads.  Those that do are kept and
handed over in one call with the value after them that does not. -/
theorem NotifyHandler.delivers_iff (hm : 0 < m) (address : Option String)
    (serviceUuid charUuid : String) :
    (∀ values : List (List UInt8),
      (make address serviceUuid charUuid).receive (some m) (values.flatMap (chunks m)) =
        (make address serviceUuid charUuid,
          values.map (make address serviceUuid charUuid).write) ↔
      ∀ value ∈ values, value.length % m ≠ 0) ∧
    ∀ kept : List (List UInt8), (∀ value ∈ kept, value.length % m = 0) →
      (make address serviceUuid charUuid).receive (some m) (kept.flatMap (chunks m)) =
        ({ make address serviceUuid charUuid with buf := kept.flatten }, []) ∧
      ∀ (last : List UInt8) (rest : List (List UInt8)), last.length % m ≠ 0 →
        (make address serviceUuid charUuid).receive (some m)
            ((kept ++ last :: rest).flatMap (chunks m)) =
          (((make address serviceUuid charUuid).receive (some m) (rest.flatMap (chunks m))).1,
            (make address serviceUuid charUuid).write (kept.flatten ++ last) ::
              ((make address serviceUuid charUuid).receive (some m)
                (rest.flatMap (chunks m))).2) := by
  have hbuf : (make address serviceUuid charUuid).buf = [] := rfl
  have hwrite : Function.Injective (make address serviceUuid charUuid).write :=
    fun _ _ heq => congrArg GattWrite.payload heq
  refine ⟨fun values => ?_, fun kept hkept => ?_⟩
  · rw [receive_values hm, hbuf, ← joined_eq_iff, Prod.mk.injEq, Prod.ext_iff,
      List.map_inj_right hwrite]
    constructor
    · rintro ⟨hrest, hvalues⟩
      exact ⟨hvalues, congrArg NotifyHandler.buf hrest⟩
    · rintro ⟨hvalues, hrest⟩
      refine ⟨?_, hvalues⟩
      rw [hrest]
      rfl
  · have hkeeps := receive_kept hm (make address serviceUuid charUuid) hkept
    refine ⟨hkeeps, fun last rest hlast => ?_⟩
    rw [List.flatMap_append, receive_append, hkeeps, receive_tail hm _ hlast]
    rfl

end Joined

/-- Values of three and of five bytes over a payload of four, and a value of four bytes with two
others after it. -/
theorem NotifyHandler.delivers_iff_sample :
    ((make none "s" "c").receive (some 4) ([[1, 2, 3], [1, 2, 3, 4, 5]].flatMap (chunks 4)) =
        (make none "s" "c", [[1, 2, 3], [1, 2, 3, 4, 5]].map (make none "s" "c").write) ↔
      ∀ value ∈ ([[1, 2, 3], [1, 2, 3, 4, 5]] : List (List UInt8)), value.length % 4 ≠ 0) ∧
    (make none "s" "c").receive (some 4) ([[1, 2, 3, 4], [5], [6]].flatMap (chunks 4)) =
      (make none "s" "c", [[1, 2, 3, 4, 5], [6]].map (make none "s" "c").write) := by
  obtain ⟨hiff, hkept⟩ := delivers_iff (show 0 < 4 by decide) none "s" "c"
  refine ⟨hiff _, ?_⟩
  exact ((hkept [[1, 2, 3, 4]] (by decide)).2 [5] [[6]] (by decide)).trans (by decide)

/-- A value that fills the payload is handed over with the next one, in one call. -/
theorem NotifyHandler.full_value_joined :
    ¬∀ (m : Nat) (address : Option String) (serviceUuid charUuid : String)
      (values : List (List UInt8)), 0 < m → (∀ value ∈ values, value ≠ []) →
        (make address serviceUuid charUuid).receive (some m) (values.flatMap (chunks m)) =
          (make address serviceUuid charUuid,
            values.map (make address serviceUuid charUuid).write) := by
  intro h
  have hsent := h 2 none "s" "c" [[1, 2], [3]] (by decide) (by decide)
  have hcalls : (make none "s" "c").receive (some 2) ([[1, 2], [3]].flatMap (chunks 2)) =
      (make none "s" "c", [(make none "s" "c").write [1, 2, 3]]) := by
    decide
  exact absurd (hcalls.symm.trans hsent) (by decide)

end BleUsageMeter.Gateway
