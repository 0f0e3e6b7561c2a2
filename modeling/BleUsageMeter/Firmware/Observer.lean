import Mathlib.Logic.Function.Basic
import Mathlib.Data.List.FinRange
import BleUsageMeter.Firmware.Matcher
import BleUsageMeter.Firmware.Storage

/-! `firmware/esp32/ble_observer.cpp`: the pool in which the fragments of a write are put together
until the last one has come. -/

namespace BleUsageMeter.Firmware

/-- `ble_addr_t`. -/
structure BleAddr where
  type : UInt8
  val : Vector UInt8 6
deriving DecidableEq

/-- Six bytes in hexadecimal, the last one first. -/
def fmtAddr (a : BleAddr) : String :=
  String.ofList ([':'].intercalate (a.val.toList.reverse.map fun byte => digits 16 2 byte.toNat))

def kReassemblyTimeoutUs : Int := 5 * 1000 * 1000

/-- The number of slots of the pool. -/
def kMaxReassembly : Nat := 4

def kMaxAttPayload : Nat := 512

structure Reassembly where
  connHandle : UInt16
  attrHandle : UInt16
  service : Uuid128
  characteristic : Uuid128
  peer : BleAddr
  buf : List UInt8
  lastUs : Int
  inUse : Bool
deriving DecidableEq

/-- The arguments of `observer_on_att_fragment`. -/
structure Fragment where
  peer : BleAddr
  connHandle : UInt16
  attrHandle : UInt16
  service : Uuid128
  characteristic : Uuid128
  offset : UInt16
  data : List UInt8
  isFinal : Bool
deriving DecidableEq

namespace Reassembly

/-- The slot is in use for an attribute of a connection. -/
def Holds (r : Reassembly) (connHandle attrHandle : UInt16) : Prop :=
  r.inUse = true ∧ r.connHandle = connHandle ∧ r.attrHandle = attrHandle

instance (r : Reassembly) (connHandle attrHandle : UInt16) :
    Decidable (r.Holds connHandle attrHandle) :=
  inferInstanceAs (Decidable (_ ∧ _ ∧ _))

def release (r : Reassembly) : Reassembly := { r with inUse := false, buf := [] }

/-- What `deliver` hands to the callback. -/
def write (r : Reassembly) : ObservedWrite := ⟨fmtAddr r.peer, r.service, r.characteristic, r.buf⟩

/-- The slot with the data of a fragment added. -/
def append (r : Reassembly) (f : Fragment) (now : Int) : Reassembly :=
  { r with buf := r.buf ++ f.data, lastUs := now }

/-- The slot taken for the first fragment of a run. -/
def begin (r : Reassembly) (f : Fragment) (now : Int) : Reassembly :=
  { r with
    inUse := true
    connHandle := f.connHandle
    attrHandle := f.attrHandle
    buf := []
    lastUs := now
    peer := f.peer
    service := f.service
    characteristic := f.characteristic }

end Reassembly

/-- The pool, whether `g_self` is set, and the reading of `esp_timer_get_time`. -/
structure Observer where
  reasm : Fin kMaxReassembly → Reassembly
  attached : Bool
  now : Int

namespace Observer

variable (o : Observer)

def set (i : Fin kMaxReassembly) (r : Reassembly) : Observer :=
  { o with reasm := Function.update o.reasm i r }

/-- The first slot in use for the key. -/
def findSlot (connHandle attrHandle : UInt16) : Option (Fin kMaxReassembly) :=
  (List.finRange kMaxReassembly).find? fun i => (o.reasm i).Holds connHandle attrHandle

/-- The pool without the partial writes whose peer has gone quiet. -/
def expire : Observer :=
  { o with reasm := fun i =>
      let r := o.reasm i
      if r.inUse ∧ kReassemblyTimeoutUs < o.now - r.lastUs then r.release else r }

/-- The first free slot. -/
def freeSlot : Option (Fin kMaxReassembly) :=
  (List.finRange kMaxReassembly).find? fun i => !(o.reasm i).inUse

/-- Hands the value of a slot to the callback, once, and frees the slot. -/
def deliver (i : Fin kMaxReassembly) : Observer × Option ObservedWrite :=
  let r := o.reasm i
  (o.set i r.release, if o.attached = false ∨ r.buf = [] then none else some r.write)

/-- The second half of `observer_on_att_fragment`, when a slot has been found or claimed. -/
def extend (i : Fin kMaxReassembly) (f : Fragment) : Observer × Option ObservedWrite :=
  let r := o.reasm i
  if f.offset.toNat ≠ r.buf.length then (o.set i r.release, none)
  else if kMaxAttPayload < r.buf.length + f.data.length then (o.set i r.release, none)
  else
    let o := o.set i (r.append f o.now)
    if f.isFinal then o.deliver i else (o, none)

def onAttFragment (f : Fragment) : Observer × Option ObservedWrite :=
  match o.findSlot f.connHandle f.attrHandle with
  | some i => o.extend i f
  | none =>
    if f.offset ≠ 0 then (o, none)
    else
      match o.expire.freeSlot with
      | none => (o.expire, none)
      | some i => (o.expire.set i ((o.expire.reasm i).begin f o.now)).extend i f

/-- `BLE_GAP_EVENT_DISCONNECT`. -/
def disconnect (connHandle : UInt16) : Observer :=
  { o with reasm := fun i =>
      let r := o.reasm i
      if r.inUse ∧ r.connHandle = connHandle then r.release else r }

/-- `BleObserver::start`. -/
def start : Observer := { o with reasm := fun i => (o.reasm i).release, attached := true }

/-! ### What a fragment does -/

/-- No two slots are in use for one key. -/
def Distinct : Prop :=
  ∀ i j connHandle attrHandle, (o.reasm i).Holds connHandle attrHandle →
    (o.reasm j).Holds connHandle attrHandle → i = j

/-- The slot is as before and not that of the fragment, or it is free. -/
def Rests (u : Observer) (f : Fragment) (i : Fin kMaxReassembly) : Prop :=
  (u.reasm i = o.reasm i ∧ ¬(o.reasm i).Holds f.connHandle f.attrHandle) ∨
    ((u.reasm i).inUse = false ∧ (u.reasm i).buf = [])

/-- `r` is the slot that holds the run of the fragment, or a slot taken for a new run. -/
def Takes (f : Fragment) (i : Fin kMaxReassembly) (r : Reassembly) : Prop :=
  ((o.reasm i).Holds f.connHandle f.attrHandle ∧ r = o.reasm i) ∨
    ((∀ j, ¬(o.reasm j).Holds f.connHandle f.attrHandle) ∧ f.offset = 0 ∧
      r = (o.expire.reasm i).begin f o.now)

/-- What comes of a slot to which the data of a fragment has been added. -/
def Settles (u : Observer) (write : Option ObservedWrite) (f : Fragment) (i : Fin kMaxReassembly)
    (r : Reassembly) : Prop :=
  (f.isFinal = false ∧ u.reasm i = r ∧ write = none) ∨
    (f.isFinal = true ∧ u.reasm i = r.release ∧
      write = if o.attached = false ∨ r.buf = [] then none else some r.write)

variable {o} {f : Fragment} {i : Fin kMaxReassembly}

theorem findSlot_eq_some {connHandle attrHandle : UInt16}
    (h : o.findSlot connHandle attrHandle = some i) : (o.reasm i).Holds connHandle attrHandle := by
  simpa using List.find?_some h

theorem findSlot_eq_none {connHandle attrHandle : UInt16}
    (h : o.findSlot connHandle attrHandle = none) (j : Fin kMaxReassembly) :
    ¬(o.reasm j).Holds connHandle attrHandle := by
  simpa using List.find?_eq_none.mp h j (List.mem_finRange j)

theorem findSlot_of_unheld {connHandle attrHandle : UInt16}
    (h : ∀ j, ¬(o.reasm j).Holds connHandle attrHandle) :
    o.findSlot connHandle attrHandle = none :=
  List.find?_eq_none.mpr fun j _ hholds => h j (of_decide_eq_true hholds)

theorem set_reasm (r : Reassembly) (j : Fin kMaxReassembly) :
    (o.set i r).reasm j = if j = i then r else o.reasm j := by
  simp [set, Function.update_apply]

theorem extend_fits (hoffset : f.offset.toNat = (o.reasm i).buf.length)
    (hfits : (o.reasm i).buf.length + f.data.length ≤ kMaxAttPayload) :
    (∀ j, j ≠ i → (o.extend i f).1.reasm j = o.reasm j) ∧
      o.Settles (o.extend i f).1 (o.extend i f).2 f i ((o.reasm i).append f o.now) := by
  unfold extend
  dsimp only
  rw [if_neg (not_not.mpr hoffset), if_neg (Nat.not_lt_of_le hfits)]
  refine ⟨?_, ?_⟩
  · intro j hj
    split <;> simp [deliver, set_reasm, hj]
  · unfold Settles
    cases hfinal : f.isFinal with
    | false => simp [set_reasm]
    | true => simp [deliver, set]

theorem extend_cases (o : Observer) (i : Fin kMaxReassembly) (f : Fragment) :
    ((o.extend i f).2 = none ∧ (o.extend i f).1 = o.set i (o.reasm i).release) ∨
    (f.offset.toNat = (o.reasm i).buf.length ∧
      (o.reasm i).buf.length + f.data.length ≤ kMaxAttPayload ∧
      (∀ j, j ≠ i → (o.extend i f).1.reasm j = o.reasm j) ∧
      o.Settles (o.extend i f).1 (o.extend i f).2 f i ((o.reasm i).append f o.now)) := by
  by_cases hoffset : f.offset.toNat = (o.reasm i).buf.length
  · by_cases hfits : (o.reasm i).buf.length + f.data.length ≤ kMaxAttPayload
    · exact .inr ⟨hoffset, hfits, extend_fits hoffset hfits⟩
    · left
      unfold extend
      dsimp only
      rw [if_neg (not_not.mpr hoffset), if_pos (Nat.lt_of_not_le hfits)]
      exact ⟨rfl, rfl⟩
  · left
    unfold extend
    dsimp only
    rw [if_pos hoffset]
    exact ⟨rfl, rfl⟩

theorem extend_now (o : Observer) (i : Fin kMaxReassembly) (f : Fragment) :
    (o.extend i f).1.now = o.now ∧ (o.extend i f).1.attached = o.attached := by
  unfold extend
  dsimp only
  split
  · exact ⟨rfl, rfl⟩
  · split
    · exact ⟨rfl, rfl⟩
    · split <;> exact ⟨rfl, rfl⟩

theorem onAttFragment_now (o : Observer) (f : Fragment) :
    (o.onAttFragment f).1.now = o.now ∧ (o.onAttFragment f).1.attached = o.attached := by
  unfold onAttFragment
  split
  · exact extend_now _ _ _
  · split
    · exact ⟨rfl, rfl⟩
    · split
      · exact ⟨rfl, rfl⟩
      · exact extend_now _ _ _

theorem expire_reasm (o : Observer) (j : Fin kMaxReassembly) :
    o.expire.reasm j = o.reasm j ∨
      ((o.expire.reasm j).inUse = false ∧ (o.expire.reasm j).buf = []) := by
  simp only [expire]
  split
  · exact .inr ⟨rfl, rfl⟩
  · exact .inl rfl

theorem rests_expire (hnone : ∀ j, ¬(o.reasm j).Holds f.connHandle f.attrHandle)
    (j : Fin kMaxReassembly) : o.Rests o.expire f j :=
  (o.expire_reasm j).imp_left fun h => ⟨h, hnone j⟩

/-- A fragment is dropped, with its run if there is one, or its data is added to its run. -/
theorem onAttFragment_cases (h : o.Distinct) (f : Fragment) :
    ((o.onAttFragment f).2 = none ∧ ∀ j, o.Rests (o.onAttFragment f).1 f j) ∨
    ∃ i r, o.Takes f i r ∧ f.offset.toNat = r.buf.length ∧
      r.buf.length + f.data.length ≤ kMaxAttPayload ∧
      (∀ j, j ≠ i → o.Rests (o.onAttFragment f).1 f j) ∧
      o.Settles (o.onAttFragment f).1 (o.onAttFragment f).2 f i (r.append f o.now) := by
  unfold onAttFragment
  split
  · rename_i i hfind
    have hholds := findSlot_eq_some hfind
    have hother : ∀ j, j ≠ i → ¬(o.reasm j).Holds f.connHandle f.attrHandle :=
      fun j hj hj' => hj (h j i _ _ hj' hholds)
    rcases o.extend_cases i f with ⟨hnone, hu⟩ | ⟨hoffset, hfits, hrest, hsettles⟩
    · refine .inl ⟨hnone, ?_⟩
      intro j
      unfold Rests
      rw [hu, set_reasm]
      by_cases hj : j = i
      · simp [hj, Reassembly.release]
      · simp [hj, hother j hj]
    · exact .inr ⟨i, _, .inl ⟨hholds, rfl⟩, hoffset, hfits,
        fun j hj => .inl ⟨hrest j hj, hother j hj⟩, hsettles⟩
  · rename_i hfind
    have hnone := findSlot_eq_none hfind
    split
    · exact .inl ⟨rfl, fun j => .inl ⟨rfl, hnone j⟩⟩
    · rename_i hoffset
      split
      · exact .inl ⟨rfl, rests_expire hnone⟩
      · rename_i i hfree
        have hslot : (o.expire.set i ((o.expire.reasm i).begin f o.now)).reasm i =
            (o.expire.reasm i).begin f o.now := by simp [set_reasm]
        have hrest : ∀ j, j ≠ i →
            (o.expire.set i ((o.expire.reasm i).begin f o.now)).reasm j = o.expire.reasm j :=
          fun j hj => by simp [set_reasm, hj]
        rcases (o.expire.set i ((o.expire.reasm i).begin f o.now)).extend_cases i f with
          ⟨hnone', hu⟩ | ⟨hoffset', hfits, hrest', hsettles⟩
        · refine .inl ⟨hnone', ?_⟩
          intro j
          rw [hu, hslot]
          by_cases hj : j = i
          · exact .inr (by simp [set_reasm, hj, Reassembly.release])
          · unfold Rests
            rw [set_reasm, if_neg hj, hrest j hj]
            exact rests_expire hnone j
        · rw [hslot] at hoffset' hfits hsettles
          refine .inr ⟨i, _, .inr ⟨hnone, not_not.mp hoffset, rfl⟩, hoffset', hfits, ?_, hsettles⟩
          intro j hj
          unfold Rests
          rw [hrest' j hj, hrest j hj]
          exact rests_expire hnone j

/-! ### A value in one fragment -/

/-- No partial run is pending. -/
def Idle (o : Observer) : Prop := ∀ i, (o.reasm i).inUse = false

theorem Idle.expire (h : o.Idle) : o.expire = o := by
  have hreasm : o.expire.reasm = o.reasm := by
    funext i
    simp [Observer.expire, h i]
  obtain ⟨reasm, attached, now⟩ := o
  exact congrArg (Observer.mk · attached now) hreasm

theorem Idle.findSlot (h : o.Idle) (connHandle attrHandle : UInt16) :
    o.findSlot connHandle attrHandle = none :=
  findSlot_of_unheld fun i => by simp [Reassembly.Holds, h i]

theorem Idle.freeSlot (h : o.Idle) : ∃ i, o.freeSlot = some i := by
  apply Option.isSome_iff_exists.mp
  rw [Observer.freeSlot, List.find?_isSome]
  exact ⟨⟨0, by decide⟩, List.mem_finRange _, by simp [h _]⟩

/-- An empty slot is freed by a single final fragment. -/
theorem extend_final (hbuf : (o.reasm i).buf = []) (hoffset : f.offset = 0)
    (hfinal : f.isFinal = true) (hfits : f.data.length ≤ kMaxAttPayload) :
    o.extend i f = (o.set i ((o.reasm i).append f o.now).release,
      if o.attached = false ∨ f.data = [] then none
      else some ((o.reasm i).append f o.now).write) := by
  unfold extend
  dsimp only
  rw [if_neg (by simp [hoffset, hbuf]), if_neg (by simpa [hbuf] using hfits), if_pos hfinal]
  simp [deliver, set, Reassembly.append, hbuf]

/-- An idle pool hands over a value that comes in a single final fragment, unless it is empty. -/
theorem Idle.onAttFragment (h : o.Idle) (hoffset : f.offset = 0) (hfinal : f.isFinal = true)
    (hfits : f.data.length ≤ kMaxAttPayload) :
    (o.onAttFragment f).1.Idle ∧ (o.onAttFragment f).1.attached = o.attached ∧
      (o.onAttFragment f).2 = if o.attached = false ∨ f.data = [] then none
        else some ⟨fmtAddr f.peer, f.service, f.characteristic, f.data⟩ := by
  obtain ⟨i, hfree⟩ := h.freeSlot
  have hslot : (o.set i ((o.reasm i).begin f o.now)).reasm i = (o.reasm i).begin f o.now := by
    simp [set_reasm]
  have hrun : o.onAttFragment f = (o.set i ((o.reasm i).begin f o.now)).extend i f := by
    simp [Observer.onAttFragment, h.findSlot, h.expire, hfree, hoffset]
  rw [hrun, extend_final (by rw [hslot]; rfl) hoffset hfinal hfits, hslot]
  refine ⟨?_, rfl, rfl⟩
  intro j
  rw [set_reasm]
  split
  · rfl
  · rename_i hj
    rw [set_reasm, if_neg hj]
    exact h j

end Observer

end BleUsageMeter.Firmware
