import Mathlib.Data.List.Induction
import BleUsageMeter.Firmware.Main
import BleUsageMeter.Firmware.Observer

/-! Complete values on their way from the radio to the counts: `observer_on_att_fragment` with one
final fragment a value, `deliver`, and `record`.  Whatever is written, the meter has counted the
values that are not empty and that some rule fits, in memory and in NVS. -/

namespace BleUsageMeter.Firmware

open Kit

/-- A complete value that a peer writes, and when. -/
structure AttValue where
  connHandle : UInt16
  attrHandle : UInt16
  service : Uuid128
  characteristic : Uuid128
  payload : List UInt8
  now : Int
  payload_le : payload.length ≤ kMaxAttPayload

/-- The single fragment of a Write Request or Command. -/
def AttValue.fragment (v : AttValue) (peer : BleAddr) : Fragment :=
  ⟨peer, v.connHandle, v.attrHandle, v.service, v.characteristic, 0, v.payload, true⟩

/-- The value is not empty and some rule fits it. -/
def AttValue.Recorded (rules : List EventRule) (v : AttValue) : Prop :=
  v.payload ≠ [] ∧ (matchWrite v.service v.characteristic v.payload rules).matched = true

instance (rules : List EventRule) (v : AttValue) : Decidable (v.Recorded rules) :=
  inferInstanceAs (Decidable (_ ∧ _))

/-- The globals of the firmware that a value passes through. -/
structure Node where
  observer : Observer
  meter : Meter

namespace Node

/-- A value is reassembled and, where the observer emits it, recorded. -/
def receive (rules : List EventRule) (peer : BleAddr) (n : Node) (v : AttValue) : Node :=
  match { n.observer with now := v.now }.onAttFragment (v.fragment peer) with
  | (observer, none) => ⟨observer, n.meter⟩
  | (observer, some w) => ⟨observer, n.meter.record rules w v.now⟩

/-- Some values that reach a new meter. -/
def receiveAll (rules : List EventRule) (peer : BleAddr) (observer : Observer)
    (values : List AttValue) : Node :=
  values.foldl (receive rules peer) ⟨observer, .new⟩

end Node

namespace Meter

/-- `n` writes of a device are counted, in memory and in NVS. -/
structure Tallies (s : Meter) (deviceId : String) (n : Nat) : Prop where
  ready : s.storage.ready = true
  memory : s.counter.get deviceId = min n uint64Max
  stored : s.persisted deviceId = min n uint64Max

variable {s : Meter} {deviceId : String} {n : Nat}

theorem Tallies.log (h : s.Tallies deviceId n) (w : ObservedWrite) (m : MatchResult) (tsUs : Int) :
    (s.log w m tsUs).Tallies deviceId n := by
  obtain ⟨hnvs, hready⟩ := s.storage.appendEvent_success (logEntry s.counter w m tsUs) h.ready
  refine ⟨hready, h.memory, ?_⟩
  rw [← h.stored, persisted, persisted]
  exact congrArg (fun u64 => (Dict.get? u64 (counterKey deviceId)).getD 0) hnvs

theorem Tallies.count (h : s.Tallies deviceId n) : (s.count deviceId).Tallies deviceId (n + 1) := by
  have hnew : (s.counter.increment deviceId 1).1 = min (n + 1) uint64Max := by
    rw [Counter.increment_one, h.memory]
    split <;> omega
  refine ⟨?_, ?_, ?_⟩
  · show (s.storage.saveCounter deviceId (s.counter.increment deviceId 1).1 .success).2.ready = true
    rw [s.storage.saveCounter_success _ _ h.ready]
    split <;> exact h.ready
  · show ((s.counter.increment deviceId 1).2.find deviceId).getD 0 = _
    rw [Counter.find_increment, if_pos rfl, hnew, Option.getD_some]
  · rw [persisted, stored_count h.ready, if_pos rfl, hnew, h.stored, Option.getD_some]
    omega

theorem Tallies.record (h : s.Tallies deviceId n) (rules : List EventRule) {w : ObservedWrite}
    (hpeer : w.peerAddr = deviceId) (tsUs : Int) :
    (s.record rules w tsUs).Tallies deviceId
      (n + if (matchWrite w.service w.characteristic w.payload rules).matched then 1 else 0) := by
  subst hpeer
  unfold Meter.record
  dsimp only
  split
  · exact (h.log w _ tsUs).count
  · exact h.log w _ tsUs

theorem new_tallies (deviceId : String) : new.Tallies deviceId 0 := ⟨rfl, rfl, rfl⟩

end Meter

namespace Node

variable {rules : List EventRule} {peer : BleAddr} {n : Node} {counted : Nat}

/-- The pool is idle, values are emitted, and so many of them are counted for the peer. -/
structure Tallies (n : Node) (peer : BleAddr) (counted : Nat) : Prop where
  idle : n.observer.Idle
  attached : n.observer.attached = true
  meter : n.meter.Tallies (fmtAddr peer) counted

theorem Tallies.receive (h : n.Tallies peer counted) (rules : List EventRule) (v : AttValue) :
    (n.receive rules peer v).Tallies peer (counted + if v.Recorded rules then 1 else 0) := by
  obtain ⟨hidle, hattached, hwrite⟩ := Observer.Idle.onAttFragment
    (o := { n.observer with now := v.now }) (f := v.fragment peer) h.idle rfl rfl v.payload_le
  unfold Node.receive
  split
  · rename_i observer hrun
    rw [hrun] at hidle hattached hwrite
    have hempty : v.payload = [] := by
      by_contra hne
      simp [h.attached, AttValue.fragment, hne] at hwrite
    rw [if_neg fun hrecorded => hrecorded.1 hempty]
    exact ⟨hidle, hattached.trans h.attached, h.meter⟩
  · rename_i observer w hrun
    rw [hrun] at hidle hattached hwrite
    have hne : v.payload ≠ [] := by
      intro hempty
      simp [AttValue.fragment, hempty] at hwrite
    obtain rfl : w = ⟨fmtAddr peer, v.service, v.characteristic, v.payload⟩ := by
      simpa [h.attached, AttValue.fragment, hne] using hwrite
    refine ⟨hidle, hattached.trans h.attached, ?_⟩
    have hrecord := h.meter.record rules (w := ⟨fmtAddr peer, v.service, v.characteristic,
      v.payload⟩) rfl v.now
    simpa [AttValue.Recorded, hne] using hrecord

/-- Whatever values have come, those recorded are counted. -/
theorem receiveAll_tallies {observer : Observer} (hidle : observer.Idle)
    (hattached : observer.attached = true) (rules : List EventRule) (peer : BleAddr)
    (values : List AttValue) :
    (receiveAll rules peer observer values).Tallies peer
      (values.countP fun v => v.Recorded rules) := by
  induction values using List.reverseRecOn with
  | nil => exact ⟨hidle, hattached, Meter.new_tallies _⟩
  | append_singleton values v ih =>
    have hstep := ih.receive rules v
    rw [receiveAll] at hstep ⊢
    rw [List.foldl_append, List.countP_append, List.countP_singleton]
    simpa using hstep

end Node

end BleUsageMeter.Firmware
