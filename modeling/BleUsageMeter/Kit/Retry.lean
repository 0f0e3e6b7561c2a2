import Mathlib.Data.List.Basic
import Mathlib.Logic.Function.Iterate

/-! Bounded retries with a growing delay.  A call may change the state of the other side, and either
it settles the matter with an answer or it does not.  The loop ends at the first call that settles,
or when it has no calls left, and it sleeps between two calls but not after the last one. -/

namespace Kit

/-- What a retry loop has done: the state it left behind, the calls it made, the answer that settled
it, and what it slept. -/
structure Tried (σ β δ : Type) where
  state : σ
  made : Nat
  answer : Option β
  delays : List δ

section

variable {σ β δ : Type} (call : Nat → σ → σ × Option β) (next : δ → δ)

/-- The loop with `left` calls left, of which `k` is the number of the first. -/
def retry : Nat → Nat → δ → σ → Tried σ β δ
  | 0, _, _, s => ⟨s, 0, none, []⟩
  | left + 1, k, d, s =>
    match call k s with
    | (s, some answer) => ⟨s, 1, some answer, []⟩
    | (s, none) =>
      if left = 0 then ⟨s, 1, none, []⟩
      else
        let rest := retry left (k + 1) (next d) s
        { rest with made := rest.made + 1, delays := d :: rest.delays }

/-- The state after `n` calls from the `k`-th on. -/
def reached (k : Nat) (s : σ) : Nat → σ
  | 0 => s
  | n + 1 => (call (k + n) (reached k s n)).1

/-- What the `n`-th call after the `k`-th answers. -/
def answerAt (k : Nat) (s : σ) (n : Nat) : Option β := (call (k + n) (reached call k s n)).2

/-- A loop that has made its calls: none but the last settled, and the last did unless no call was
left. -/
structure Retries (left k : Nat) (d : δ) (s : σ) (t : Tried σ β δ) : Prop where
  made_pos : 1 ≤ t.made
  made_le : t.made ≤ left
  unsettled : ∀ n, n + 1 < t.made → answerAt call k s n = none
  answer : ∀ n, t.made = n + 1 → t.answer = answerAt call k s n
  exhausted : t.answer = none → t.made = left
  state : t.state = reached call k s t.made
  delays : t.delays = (List.range (t.made - 1)).map fun n => next^[n] d

end

variable {σ β δ : Type} {call : Nat → σ → σ × Option β} {next : δ → δ} {k : Nat} {d : δ} {s : σ}

theorem reached_succ (k : Nat) (s : σ) (n : Nat) :
    reached call k s (n + 1) = reached call (k + 1) (call k s).1 n := by
  induction n with
  | zero => rfl
  | succ n ih =>
    have hnumber : k + (n + 1) = k + 1 + n := by omega
    rw [reached, ih, hnumber, reached]

theorem answerAt_succ (k : Nat) (s : σ) (n : Nat) :
    answerAt call k s (n + 1) = answerAt call (k + 1) (call k s).1 n := by
  have hnumber : k + (n + 1) = k + 1 + n := by omega
  rw [answerAt, reached_succ, hnumber, answerAt]

/-- The only call. -/
theorem Retries.single {left : Nat} {t : σ} {answer : Option β} (hcall : call k s = (t, answer))
    (hleft : 1 ≤ left) (hlast : answer = none → left = 1) :
    Retries call next left k d s ⟨t, 1, answer, []⟩ where
  made_pos := Nat.le_refl 1
  made_le := hleft
  unsettled n hn := absurd (Nat.lt_of_succ_lt_succ hn) (Nat.not_lt_zero n)
  answer n hn := by
    obtain rfl : 0 = n := Nat.succ.inj hn
    exact (congrArg Prod.snd hcall).symm
  exhausted h := (hlast h).symm
  state := (congrArg Prod.fst hcall).symm
  delays := rfl

/-- A call that does not settle, and the loop after it. -/
theorem Retries.again {left : Nat} {t : σ} {rest : Tried σ β δ} (hcall : call k s = (t, none))
    (h : Retries call next left (k + 1) (next d) t rest) :
    Retries call next (left + 1) k d s
      { rest with made := rest.made + 1, delays := d :: rest.delays } where
  made_pos := Nat.le_add_left 1 rest.made
  made_le := Nat.succ_le_succ h.made_le
  unsettled n hn := by
    cases n with
    | zero => exact congrArg Prod.snd hcall
    | succ n =>
      rw [answerAt_succ, hcall]
      exact h.unsettled n (Nat.lt_of_succ_lt_succ hn)
  answer n hn := by
    have hpos := h.made_pos
    have hmade : rest.made = n := Nat.succ.inj hn
    cases n with
    | zero => omega
    | succ n =>
      rw [answerAt_succ, hcall]
      exact h.answer n hmade
  exhausted hnone := congrArg (· + 1) (h.exhausted hnone)
  state := by
    show rest.state = reached call k s (rest.made + 1)
    rw [reached_succ, hcall, h.state]
  delays := by
    have hpos := h.made_pos
    obtain ⟨m, hm⟩ : ∃ m, rest.made = m + 1 := ⟨rest.made - 1, by omega⟩
    show d :: rest.delays = (List.range (rest.made + 1 - 1)).map fun n => next^[n] d
    rw [h.delays, hm, Nat.add_sub_cancel, Nat.add_sub_cancel, List.range_succ_eq_map,
      List.map_cons, List.map_map]
    rfl

/-- What the loop does, by induction on the calls that are left. -/
theorem retries (call : Nat → σ → σ × Option β) (next : δ → δ) (left k : Nat) (d : δ) (s : σ) :
    Retries call next (left + 1) k d s (retry call next (left + 1) k d s) := by
  induction left generalizing k d s with
  | zero =>
    rw [retry]
    split
    · exact .single ‹_› (Nat.le_refl 1) (fun _ => rfl)
    · exact .single ‹_› (Nat.le_refl 1) (fun _ => rfl)
  | succ left ih =>
    rw [retry]
    split
    · exact .single ‹_› (by omega) (fun h => by cases h)
    · rw [if_neg (by omega)]
      exact .again ‹_› (ih (k + 1) (next d) _)

end Kit
