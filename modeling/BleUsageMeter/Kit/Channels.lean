import Mathlib.Algebra.BigOperators.Group.Finset.Piecewise
import Mathlib.Data.List.Induction

/-! Machines that are fed through channels.  Inputs for many machines arrive interleaved, each with
the key of its channel.  What a machine does depends on the inputs of its own channel. -/

namespace Kit

variable {σ α β κ : Type}

/-- The state of a machine after some inputs, and its outputs. -/
def feed (step : σ → α → σ × Option β) : σ → List α → σ × List β
  | s, [] => (s, [])
  | s, a :: rest =>
    let called := step s a
    let later := feed step called.1 rest
    (later.1, called.2.toList ++ later.2)

theorem feed_concat (step : σ → α → σ × Option β) (s : σ) (as : List α) (a : α) :
    feed step s (as ++ [a]) = ((step (feed step s as).1 a).1,
      (feed step s as).2 ++ (step (feed step s as).1 a).2.toList) := by
  induction as generalizing s with
  | nil => simp [feed]
  | cons b rest ih => simp only [List.cons_append, feed, ih, List.append_assoc]

section Channel

variable [DecidableEq κ]

/-- What comes through the channel of `k`. -/
def channel (k : κ) (xs : List (κ × α)) : List α :=
  xs.filterMap fun x => if x.1 = k then some x.2 else none

@[simp] theorem channel_nil (k : κ) : channel k ([] : List (κ × α)) = [] := rfl

theorem channel_append (k : κ) (xs ys : List (κ × α)) :
    channel k (xs ++ ys) = channel k xs ++ channel k ys :=
  List.filterMap_append

theorem channel_tagged (k j : κ) (as : List α) :
    channel k (as.map fun a => (j, a)) = if j = k then as else [] := by
  by_cases h : j = k <;> simp [channel, List.filterMap_map, h]

theorem channel_cons (k : κ) (x : κ × α) (xs : List (κ × α)) :
    channel k (x :: xs) = if x.1 = k then x.2 :: channel k xs else channel k xs := by
  rw [channel, List.filterMap_cons]
  split <;> rename_i h
  · split at h
    · cases h
    · rename_i hne
      rw [if_neg hne, channel]
  · split at h
    · rename_i heq
      rw [if_pos heq, ← Option.some.inj h, channel]
    · cases h

end Channel

/-- What is counted over all is the sum of what is counted on each channel. -/
theorem countP_eq_sum_channels (p : α → Bool) (n : Nat) {xs : List (Nat × α)}
    (h : ∀ x ∈ xs, x.1 < n) : (xs.map Prod.snd).countP p =
      ∑ k ∈ Finset.range n, (channel k xs).countP p := by
  induction xs with
  | nil => simp
  | cons x rest ih =>
    rw [List.forall_mem_cons] at h
    have hterm : ∀ k, (channel k (x :: rest)).countP p =
        (channel k rest).countP p + if x.1 = k then (if p x.2 then 1 else 0) else 0 := by
      intro k
      rw [channel_cons]
      split
      · rw [List.countP_cons]
      · rfl
    rw [List.map_cons, List.countP_cons, ih h.2]
    simp only [hterm]
    rw [Finset.sum_add_distrib, Finset.sum_ite_eq, if_pos (Finset.mem_range.mpr h.1)]

end Kit
