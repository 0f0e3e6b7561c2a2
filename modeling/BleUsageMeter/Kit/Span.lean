import Mathlib.Data.List.Basic

/-! Pieces of a history.  A span is an interval of the positions of a list that grows at its end;
what it covers does not change once the list has grown past it. -/

namespace Kit

/-- The positions from `start` to before `stop`. -/
structure Span where
  start : Nat
  stop : Nat

namespace Span

variable {ε α : Type}

/-- The piece of a history that the span covers. -/
def of (history : List ε) (s : Span) : List ε := (history.take s.stop).drop s.start

/-- The span covers position `i`. -/
def Covers (s : Span) (i : Nat) : Prop := s.start ≤ i ∧ i < s.stop

theorem of_append {history more : List ε} {s : Span} (h : s.stop ≤ history.length) :
    s.of (history ++ more) = s.of history := by
  rw [of, List.take_append_of_le_length h, of]

/-- A span that reaches the end of the history grows with it. -/
theorem of_concat {history : List ε} {start : Nat} (h : start ≤ history.length) (e : ε) :
    of (history ++ [e]) ⟨start, history.length + 1⟩ =
      of history ⟨start, history.length⟩ ++ [e] := by
  have hlength : (history ++ [e]).length = history.length + 1 := by simp
  simp only [of, List.take_length, ← hlength, List.drop_append_of_le_length h]

theorem of_last (history : List ε) (e : ε) :
    of (history ++ [e]) ⟨history.length, history.length + 1⟩ = [e] := by
  rw [of_concat (Nat.le_refl _), of, List.take_length, List.drop_length, List.nil_append]

end Span

end Kit
