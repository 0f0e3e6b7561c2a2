import Mathlib.Data.List.Induction
import BleUsageMeter.Firmware.CounterVector
import BleUsageMeter.Gateway.Pipeline

/-! "Mirrors firmware/esp32/counter.cpp": the counter of the gateway and the counter of the firmware
under the same operations.  The naturals of the one, cut at `UINT64_MAX`, are the words of the
other, as long as no sequence is asked for after `UINT64_MAX`, where `++sequence_` wraps. -/

namespace BleUsageMeter.Gateway

open Kit

/-- The calls that change a counter, with arguments that a `uint64_t` holds. -/
inductive CounterOp
  | restore (deviceId : String) (count : UInt64)
  | increment (deviceId : String) (n : UInt64) (positive : 1 ≤ n.toNat)
  | restoreSequence (seq : UInt64)
  | nextSequence

/-- The device whose count a call is about. -/
def CounterOp.device : CounterOp → Option String
  | .restore deviceId _ => some deviceId
  | .increment deviceId _ _ => some deviceId
  | .restoreSequence _ => none
  | .nextSequence => none

/-- A counter of each implementation. -/
structure CounterPair where
  gateway : Counter
  firmware : Firmware.CounterVector

namespace CounterPair

/-- Both counters before any call. -/
def empty : CounterPair := ⟨.empty, .empty⟩

/-- The same call on both counters. -/
def apply (s : CounterPair) : CounterOp → CounterPair
  | .restore deviceId count =>
    ⟨s.gateway.restore deviceId count.toNat, s.firmware.restore deviceId count⟩
  | .increment deviceId n positive =>
    ⟨(s.gateway.increment deviceId n.toNat positive).2, (s.firmware.increment deviceId n).2⟩
  | .restoreSequence seq =>
    ⟨s.gateway.restoreSequence seq.toNat, s.firmware.restoreSequence seq⟩
  | .nextSequence => ⟨s.gateway.nextSequence.2, s.firmware.nextSequence.2⟩

/-- The counters after some calls. -/
def after (ops : List CounterOp) : CounterPair := ops.foldl apply empty

theorem after_snoc (ops : List CounterOp) (op : CounterOp) :
    after (ops ++ [op]) = (after ops).apply op := by
  simp [after]

/-- The firmware holds one entry for each device, the counts of the gateway up to `UINT64_MAX`, and
the sequence of the gateway. -/
structure Mirrored (s : CounterPair) : Prop where
  distinct : (s.firmware.entries.map Firmware.CounterEntry.deviceId).Nodup
  counts : ∀ d, (s.firmware.get d).toNat = min (s.gateway.get d) (2 ^ 64 - 1)
  sequence : s.firmware.sequence.toNat = s.gateway.sequence

/-- What a call on `device` may do: no count of another device changes, and neither a count nor the
sequence decreases. -/
structure Rises (s t : CounterPair) (device : Option String) : Prop where
  frame : ∀ d, device ≠ some d →
    t.gateway.get d = s.gateway.get d ∧ t.firmware.get d = s.firmware.get d
  counts : ∀ d, s.gateway.get d ≤ t.gateway.get d ∧ s.firmware.get d ≤ t.firmware.get d
  sequence : s.gateway.sequence ≤ t.gateway.sequence ∧ s.firmware.sequence ≤ t.firmware.sequence

/-- A step of a run: the counters agree before and after it, and it only moves them up. -/
structure Faithful (s : CounterPair) (op : CounterOp) : Prop where
  before : s.Mirrored
  after : (s.apply op).Mirrored
  rises : s.Rises (s.apply op) op.device

/-- The counter of the firmware, read as a dictionary of naturals, is that of the gateway cut at
`UINT64_MAX`. -/
def Capped (s : CounterPair) : Prop :=
  ∃ c : Firmware.Counter, s.firmware.Represents c ∧
    (∀ d, c.get d = min (s.gateway.get d) Firmware.uint64Max) ∧ c.sequence = s.gateway.sequence

theorem Capped.mirrored {s : CounterPair} (h : s.Capped) : s.Mirrored := by
  obtain ⟨c, hrep, hcounts, hseq⟩ := h
  exact ⟨hrep.distinct, fun d => (hrep.get d).symm.trans (hcounts d),
    hrep.sequence.symm.trans hseq⟩

theorem capped_empty : empty.Capped :=
  ⟨.empty, .new, fun _ => rfl, rfl⟩

/-- Cutting at `UINT64_MAX` commutes with the call on both sides, unless the sequence wraps. -/
theorem Capped.apply {s : CounterPair} (h : s.Capped) {op : CounterOp}
    (hroom : op = .nextSequence → s.gateway.sequence ≠ 2 ^ 64 - 1) : (s.apply op).Capped := by
  obtain ⟨c, hrep, hcounts, hseq⟩ := h
  have hmax : Firmware.uint64Max = 2 ^ 64 - 1 := rfl
  cases op with
  | restore deviceId count =>
    have hcount := count.toNat_lt
    refine ⟨c.restore deviceId count.toNat, hrep.restore deviceId count, fun d => ?_, ?_⟩
    · rw [CounterPair.apply, Firmware.Counter.get_restore, Counter.get_restore, hcounts, hcounts]
      split <;> omega
    · rw [CounterPair.apply, Counter.sequence_restore, Firmware.Counter.sequence_restore, hseq]
  | increment deviceId n positive =>
    have hn := n.toNat_lt
    refine ⟨_, (hrep.increment deviceId n).2, fun d => ?_, hseq⟩
    rw [CounterPair.apply, Firmware.Counter.get_increment _ _ _ (by omega), Counter.get_increment,
      hcounts, hcounts]
    split
    · rename_i hd
      rw [hd]
      omega
    · rw [Nat.add_zero]
  | restoreSequence seq =>
    have hrestored := hrep.restoreSequence seq
    rw [Firmware.Counter.restoreSequence_eq] at hrestored
    refine ⟨_, hrestored, fun d => ?_, ?_⟩
    · rw [CounterPair.apply, Counter.restoreSequence_natCast]
      exact hcounts d
    · rw [CounterPair.apply, Counter.restoreSequence_natCast, hseq]
  | nextSequence =>
    have hlt := s.firmware.sequence.toNat_lt
    have hne := hroom rfl
    have hword := hrep.sequence
    refine ⟨_, hrep.nextSequence.2, hcounts, ?_⟩
    show (c.sequence + 1) % (Firmware.uint64Max + 1) = s.gateway.sequence + 1
    rw [Nat.mod_eq_of_lt] <;> omega

/-- The gateway only moves up, and only the count of the device of the call. -/
theorem apply_gateway (s : CounterPair) (op : CounterOp) :
    (∀ d, op.device ≠ some d → (s.apply op).gateway.get d = s.gateway.get d) ∧
      (∀ d, s.gateway.get d ≤ (s.apply op).gateway.get d) ∧
      s.gateway.sequence ≤ (s.apply op).gateway.sequence := by
  cases op with
  | restore deviceId count =>
    refine ⟨fun d hd => ?_, fun d => ?_, ?_⟩
    · have hne : d ≠ deviceId := fun e => hd (congrArg some e.symm)
      rw [apply, Counter.get_restore, if_neg hne]
    · rw [apply, Counter.get_restore]
      split
      · rename_i hd
        rw [hd]
        exact Nat.le_max_left _ _
      · exact Nat.le_refl _
    · rw [apply, Counter.sequence_restore]
  | increment deviceId n positive =>
    refine ⟨fun d hd => ?_, fun d => ?_, Nat.le_refl _⟩
    · have hne : d ≠ deviceId := fun e => hd (congrArg some e.symm)
      rw [apply, Counter.get_increment, if_neg hne, Nat.add_zero]
    · rw [apply, Counter.get_increment]
      exact Nat.le_add_right _ _
  | restoreSequence seq =>
    rw [apply, Counter.restoreSequence_natCast]
    exact ⟨fun _ _ => rfl, fun _ => Nat.le_refl _, Nat.le_max_left _ _⟩
  | nextSequence => exact ⟨fun _ _ => rfl, fun _ => Nat.le_refl _, Nat.le_succ _⟩

/-- What the firmware mirrors cannot move down while the gateway moves up. -/
theorem Mirrored.rises {s : CounterPair} (hs : s.Mirrored) {op : CounterOp}
    (ht : (s.apply op).Mirrored) : s.Rises (s.apply op) op.device := by
  obtain ⟨hframe, hcounts, hseq⟩ := apply_gateway s op
  refine ⟨fun d hd => ⟨hframe d hd, ?_⟩, fun d => ⟨hcounts d, ?_⟩, hseq, ?_⟩
  · rw [← UInt64.toNat_inj, ht.counts, hs.counts, hframe d hd]
  · have hle := hcounts d
    rw [UInt64.le_iff_toNat_le, ht.counts, hs.counts]
    omega
  · rw [UInt64.le_iff_toNat_le, ht.sequence, hs.sequence]
    exact hseq

/-- No `next_sequence` of the calls is made at `UINT64_MAX`. -/
def HasRoom (ops : List CounterOp) : Prop :=
  ∀ done rest, ops = done ++ .nextSequence :: rest → (after done).gateway.sequence ≠ 2 ^ 64 - 1

theorem HasRoom.cut {done rest : List CounterOp} (h : HasRoom (done ++ rest)) : HasRoom done := by
  rintro start next rfl
  exact h start (next ++ rest) (by simp)

theorem HasRoom.capped {ops : List CounterOp} (h : HasRoom ops) : (after ops).Capped := by
  induction ops using List.reverseRecOn with
  | nil => exact capped_empty
  | append_singleton done op ih =>
    rw [after_snoc]
    refine (ih h.cut).apply ?_
    rintro rfl
    exact h done [] rfl

/-- The firmware mirrors the gateway all along a run exactly when the run never asks for the
sequence after `UINT64_MAX`. -/
theorem mirrored_iff (ops : List CounterOp) :
    ((after ops).Mirrored ∧
        ∀ done op rest, ops = done ++ op :: rest → (after done).Faithful op) ↔
      HasRoom ops := by
  constructor
  · rintro ⟨-, hsteps⟩ done rest rfl hfull
    have hafter := (hsteps done .nextSequence rest rfl).after.sequence
    have hlt := ((after done).apply .nextSequence).firmware.sequence.toNat_lt
    have hnext : ((after done).apply .nextSequence).gateway.sequence = 2 ^ 64 := by
      show (after done).gateway.sequence + 1 = 2 ^ 64
      omega
    omega
  · intro h
    refine ⟨h.capped.mirrored, ?_⟩
    rintro done op rest rfl
    have hroom : HasRoom (done ++ [op]) := by
      rw [List.append_cons] at h
      exact h.cut
    have hbefore := hroom.cut.capped.mirrored
    have hafter := hroom.capped.mirrored
    rw [after_snoc] at hafter
    exact ⟨hbefore, hafter, hbefore.rises hafter⟩

/-- `restore_sequence(UINT64_MAX)` and one call of `next_sequence`. -/
def wrapping : List CounterOp := [.restoreSequence 0xFFFFFFFFFFFFFFFF, .nextSequence]

/-- After `wrapping` the firmware is back at sequence 0. -/
theorem sequence_wraps :
    (wrapping.countP fun op => op matches .nextSequence) = 1 ∧
      (after wrapping).gateway.sequence = 2 ^ 64 ∧ (after wrapping).firmware.sequence = 0 ∧
      ¬((after wrapping).Mirrored ∧
        ∀ done op rest, wrapping = done ++ op :: rest → (after done).Faithful op) := by
  refine ⟨by decide, by decide, by decide, ?_⟩
  rintro ⟨hlast, -⟩
  exact absurd hlast.sequence (by decide)

end CounterPair

end BleUsageMeter.Gateway
