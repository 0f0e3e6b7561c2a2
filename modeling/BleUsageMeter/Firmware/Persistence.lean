import BleUsageMeter.Kit.Run
import BleUsageMeter.Firmware.Storage

/-! "Monotonicity is enforced at the storage layer too": what the calls of `Storage` do to the
persisted counts and the sequence when any of their NVS calls may fail.  They are lost when `init`
erases a partition that it cannot parse.  Otherwise none is lowered or lost, unless a save cannot
read the value it is about to lower. -/

namespace BleUsageMeter.Firmware

open Kit

/-- The calls that may write, with `init` for a reboot. -/
inductive StorageCall
  | init
  | saveCounter (deviceId : String) (count : Nat)
  | saveSequence (seq : Nat)
  | appendEvent (e : LogEntry)
deriving DecidableEq

/-- Only `call` fails. -/
def Outcomes.failing (call : NvsCall) (err : EspErr) : Outcomes :=
  fun other => if other = call then some err else none

/-- No value under a `u64` key, a count or the sequence, is lower or gone. -/
def Nvs.Keeps (before after : Nvs) : Prop :=
  ∀ key, ∀ n ∈ before.u64.get? key, ∃ m ∈ after.u64.get? key, n ≤ m

namespace Storage

/-- A call, and the outcomes of its NVS calls. -/
def step (s : Storage) (call : StorageCall × Outcomes) : Option Storage :=
  match call with
  | (.init, outcomes) => some (init s.nvs outcomes).2
  | (.saveCounter deviceId count, outcomes) => some (s.saveCounter deviceId count outcomes).2
  | (.saveSequence seq, outcomes) => some (s.saveSequence seq outcomes).2
  | (.appendEvent e, outcomes) => some (s.appendEvent e outcomes).2

/-- `nvs_flash_init` cannot parse the partition, and it is erased. -/
def Erases (call : StorageCall × Outcomes) : Prop :=
  call.1 = .init ∧ (call.2 .flashInit = some .nvsNoFreePages ∨
    call.2 .flashInit = some .nvsNewVersionFound) ∧ call.2 .flashErase = none

/-- The stored value cannot be read, and a lower one is written. -/
def Lowers (s : Storage) (key : String) (value : Nat) (outcomes : Outcomes) : Prop :=
  outcomes .nvsOpen = none ∧ outcomes .nvsGet ≠ none ∧ outcomes .nvsSet = none ∧
    ∃ n ∈ s.nvs.u64.get? key, value < n

/-- The call is a save that lowers a value without having read it. -/
def Unread (s : Storage) (call : StorageCall × Outcomes) : Prop :=
  match call with
  | (.saveCounter deviceId count, outcomes) =>
    s.ready = true ∧ s.Lowers (counterKey deviceId) count outcomes
  | (.saveSequence seq, outcomes) => s.Lowers kNvsKeySeq seq outcomes
  | _ => False

end Storage

namespace Nvs

theorem Keeps.refl (nvs : Nvs) : nvs.Keeps nvs := fun _ n hn => ⟨n, hn, Nat.le_refl n⟩

theorem Keeps.trans {a b c : Nvs} (hab : a.Keeps b) (hbc : b.Keeps c) : a.Keeps c := by
  intro key n hn
  obtain ⟨m, hm, hnm⟩ := hab key n hn
  obtain ⟨k, hk, hmk⟩ := hbc key m hm
  exact ⟨k, hk, Nat.le_trans hnm hmk⟩

theorem keeps_of_u64 {a b : Nvs} (h : b.u64 = a.u64) : a.Keeps b := by
  intro key n hn
  exact ⟨n, by rw [h]; exact hn, Nat.le_refl n⟩

theorem keeps_empty_iff {nvs : Nvs} : nvs.Keeps .empty ↔ ∀ key, nvs.u64.get? key = none := by
  constructor
  · intro h key
    cases hget : nvs.u64.get? key with
    | none => rfl
    | some n =>
      obtain ⟨m, hm, -⟩ := h key n hget
      cases hm
  · intro h key n hn
    rw [h key] at hn
    cases hn

end Nvs

namespace Storage

variable {s t : Storage} {key : String} {value : Nat} {outcomes : Outcomes}

/-- Writing a value keeps the others, and the one under its key unless that was higher. -/
theorem written_keeps_iff :
    s.nvs.Keeps (s.written key value).nvs ↔ ∀ n ∈ s.nvs.u64.get? key, n ≤ value := by
  constructor
  · intro h n hn
    obtain ⟨m, hm, hle⟩ := h key n hn
    rw [written, Dict.get?_insert_self] at hm
    obtain rfl := Option.some.inj hm
    exact hle
  · intro h other n hn
    by_cases hkey : other = key
    · subst hkey
      exact ⟨value, Dict.get?_insert_self .., h n hn⟩
    · exact ⟨n, by rw [written, Dict.get?_insert_ne _ _ hkey]; exact hn, Nat.le_refl n⟩

/-- The value is written unless it is refused or the write fails. -/
theorem raise_snd (s : Storage) (key : String) (value : Nat) (outcomes : Outcomes) :
    (s.raise key value outcomes).2 =
      if (s.peek key outcomes).any (fun existing => decide (value < existing)) ∨
          outcomes .nvsSet ≠ none then s
      else s.written key value := by
  unfold raise put
  cases hset : outcomes .nvsSet with
  | some err => split <;> simp
  | none =>
    by_cases hlower : (s.peek key outcomes).any fun existing => decide (value < existing)
    · simp [hlower]
    · cases outcomes .nvsCommit <;> simp [hlower]

theorem raise_keeps_iff (hopen : outcomes .nvsOpen = none) :
    s.nvs.Keeps (s.raise key value outcomes).2.nvs ↔ ¬s.Lowers key value outcomes := by
  rw [raise_snd]
  split
  · rename_i hkept
    refine iff_of_true (.refl _) ?_
    rintro ⟨-, hget, hset, -⟩
    rcases hkept with hlower | hfails
    · rw [peek] at hlower
      cases h : outcomes .nvsGet with
      | none => exact hget h
      | some err => simp [h] at hlower
    · exact hfails hset
  · rename_i hwritten
    obtain ⟨hnot, hset⟩ := not_or.mp hwritten
    rw [written_keeps_iff]
    cases hget : outcomes .nvsGet with
    | some err => simp [Lowers, hopen, not_not.mp hset, hget]
    | none =>
      refine iff_of_true ?_ fun h => h.2.1 hget
      intro n hn
      rw [peek, hget] at hnot
      simpa [Option.mem_def.mp hn] using hnot

theorem init_nvs_of_not_erases (h : ¬Erases (.init, outcomes)) (nvs : Nvs) :
    (init nvs outcomes).2.nvs = nvs := by
  unfold init
  cases hinit : outcomes .flashInit with
  | none => cases outcomes .nvsOpen <;> rfl
  | some err =>
    by_cases hcode : err = .nvsNoFreePages ∨ err = .nvsNewVersionFound
    · cases herase : outcomes .flashErase with
      | some err => simp [hcode]
      | none => exact absurd ⟨rfl, by simpa [hinit] using hcode, herase⟩ h
    · simp [hcode]

theorem init_nvs_of_erases (h : Erases (.init, outcomes)) (nvs : Nvs) :
    (init nvs outcomes).2.nvs = .empty := by
  have herase : outcomes .flashErase = none := h.2.2
  have hcode := h.2.1
  unfold init
  cases hinit : outcomes .flashInit with
  | none => simp [hinit] at hcode
  | some err =>
    have hcode : err = .nvsNoFreePages ∨ err = .nvsNewVersionFound := by simpa [hinit] using hcode
    simp only [hcode, if_true, herase]
    cases outcomes .flashReinit with
    | some err => rfl
    | none => cases outcomes .nvsOpen <;> rfl

theorem appendEvent_u64 (s : Storage) (e : LogEntry) (outcomes : Outcomes) :
    (s.appendEvent e outcomes).2.nvs.u64 = s.nvs.u64 := by
  unfold appendEvent
  split
  · rfl
  · repeat' split
    all_goals rfl

/-- A call keeps the values exactly when it is no save that has not read a higher one, and erases
nothing that is there. -/
theorem step_keeps_iff {call : StorageCall × Outcomes} (h : s.step call = some t) :
    s.nvs.Keeps t.nvs ↔
      ¬s.Unread call ∧ (Erases call → ∀ key, s.nvs.u64.get? key = none) := by
  obtain ⟨call, outcomes⟩ := call
  cases call with
  | init =>
    obtain rfl := Option.some.inj h
    by_cases herase : Erases (.init, outcomes)
    · simp [init_nvs_of_erases herase, Nvs.keeps_empty_iff, Unread, herase]
    · simp [init_nvs_of_not_erases herase, Nvs.Keeps.refl, Unread, herase]
  | saveCounter deviceId count =>
    obtain rfl := Option.some.inj h
    have herase : ¬Erases (.saveCounter deviceId count, outcomes) := by simp [Erases]
    simp only [herase, false_implies, and_true, Unread]
    cases hready : s.ready with
    | false => simp [saveCounter, hready, Nvs.Keeps.refl]
    | true =>
      cases hopen : outcomes .nvsOpen with
      | some err => simp [saveCounter, hready, hopen, Nvs.Keeps.refl, Lowers]
      | none =>
        have hraise : s.saveCounter deviceId count outcomes =
            s.raise (counterKey deviceId) count outcomes := by simp [saveCounter, hready, hopen]
        rw [hraise, raise_keeps_iff hopen, and_iff_right rfl]
  | saveSequence seq =>
    obtain rfl := Option.some.inj h
    have herase : ¬Erases (.saveSequence seq, outcomes) := by simp [Erases]
    simp only [herase, false_implies, and_true, Unread]
    cases hopen : outcomes .nvsOpen with
    | some err => simp [saveSequence, hopen, Nvs.Keeps.refl, Lowers]
    | none =>
      have hraise : s.saveSequence seq outcomes = s.raise kNvsKeySeq seq outcomes := by
        simp [saveSequence, hopen]
      rw [hraise, raise_keeps_iff hopen]
  | appendEvent e =>
    obtain rfl := Option.some.inj h
    have herase : ¬Erases (.appendEvent e, outcomes) := by simp [Erases]
    simp [herase, Unread, Nvs.keeps_of_u64 (appendEvent_u64 s e outcomes)]

/-- In a run in which every save has read the stored value, or is not below it, no count and not
the sequence is lowered or lost, until `init` erases a partition that it cannot parse: then all of
them are gone. -/
theorem persisted_until_erased {calls : List (StorageCall × Outcomes)}
    (h : Run step (fun s call => ¬s.Unread call) s calls t) :
    ((∀ call ∈ calls, ¬Erases call) → s.nvs.Keeps t.nvs) ∧
      ∀ call u, Erases call → t.step call = some u → u.nvs = .empty := by
  constructor
  · induction h with
    | nil => exact fun _ => .refl _
    | snoc hrun hread hstep ih =>
      intro hkept
      have hbefore := ih fun call hcall => hkept call (List.mem_append_left _ hcall)
      apply hbefore.trans
      rw [step_keeps_iff hstep]
      exact ⟨hread, fun herase => absurd herase (hkept _ (by simp))⟩
  · rintro ⟨call, outcomes⟩ u herase hstep
    obtain rfl : call = .init := herase.1
    obtain rfl := Option.some.inj hstep
    exact init_nvs_of_erases herase t.nvs

/-! ### A count that is lost, and one that is lowered -/

/-- A meter that has never started. -/
def blank : Storage := ⟨.empty, 0, false⟩

/-- The first boot, and a count. -/
def sampleSaves : List (StorageCall × Outcomes) :=
  [(.init, .success), (.saveCounter "d" 5, .success)]

def savedFive : Storage := (⟨.empty, 0, true⟩ : Storage).written (counterKey "d") 5

theorem savedFive_run : Run step Always blank sampleSaves savedFive := .of_execute rfl

theorem savedFive_get? : savedFive.nvs.u64.get? (counterKey "d") = some 5 :=
  Dict.get?_insert_self ..

/-- A reboot and a lower count that is refused. -/
theorem persisted_until_erased_sample : ∃ t,
    Run step (fun s call => ¬s.Unread call) savedFive
      [(.init, .success), (.saveCounter "d" 3, .success)] t ∧ savedFive.nvs.Keeps t.nvs := by
  have hreads : ∀ (s : Storage) (call : StorageCall), ¬s.Unread (call, .success) := by
    intro s call
    cases call <;> simp [Unread, Lowers, Outcomes.success]
  have hrun : Run step (fun s call => ¬s.Unread call) savedFive
      [(.init, .success), (.saveCounter "d" 3, .success)] _ :=
    .cons (hreads _ _) rfl (.single (hreads _ _) rfl)
  refine ⟨_, hrun, (persisted_until_erased hrun).1 ?_⟩
  simp [Erases, Outcomes.success]

/-- Full pages at a reboot lose the count; a failing read lets a save lower it. -/
theorem count_lost_or_lowered :
    (¬∀ before s calls t, Run step Always blank before s → Run step Always s calls t →
      s.nvs.Keeps t.nvs) ∧
    ¬∀ before s calls t, Run step Always blank before s → Run step Always s calls t →
      (∀ call ∈ calls, ¬Erases call) → s.nvs.Keeps t.nvs := by
  constructor
  · intro h
    have hkeeps := h _ _ [(.init, .failing .flashInit .nvsNoFreePages)] _ savedFive_run
      (.single trivial rfl)
    have herases : Erases (.init, .failing .flashInit .nvsNoFreePages) := by
      simp [Erases, Outcomes.failing]
    rw [init_nvs_of_erases herases, Nvs.keeps_empty_iff] at hkeeps
    cases savedFive_get?.symm.trans (hkeeps _)
  · intro h
    have hkeeps := h _ _ [(.saveCounter "d" 3, .failing .nvsGet (.other 1))] _ savedFive_run
      (.single trivial rfl) (by simp [Erases])
    have hlowers : savedFive.Lowers (counterKey "d") 3 (.failing .nvsGet (.other 1)) :=
      ⟨rfl, by simp [Outcomes.failing], rfl, 5, savedFive_get?, by decide⟩
    have hstep : savedFive.step (.saveCounter "d" 3, .failing .nvsGet (.other 1)) = some _ := rfl
    rw [step_keeps_iff hstep] at hkeeps
    exact hkeeps.1 ⟨rfl, hlowers⟩

end Storage

end BleUsageMeter.Firmware
