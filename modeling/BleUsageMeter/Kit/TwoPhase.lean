import Mathlib.Data.List.Nodup
import Mathlib.Logic.Function.Basic
import BleUsageMeter.Kit.Run

/-! Handlers that check and then act.  Such a handler first reads the store and may answer from the
read alone; otherwise it later runs a transaction on the store as the store is by then.  Requests
that run at once interleave their checks and transactions.  `linearizable` gives a condition on the
transactions of a run under which the run is equivalent to handling the requests one after another
in some order. -/

namespace Kit

/-- A handler in two phases: `check` reads the store, and `act` is the transaction that runs when
the check gives no answer. -/
structure TwoPhase (σ q r : Type) where
  check : σ → q → Option r
  act : σ → q → σ × r

/-- How far a request has come. -/
inductive Phase (r : Type)
  | waiting
  | checked
  | done (answer : r)
deriving DecidableEq

/-- The store and the phase of each request. -/
structure Conf (ι σ r : Type) where
  store : σ
  phase : ι → Phase r

namespace TwoPhase

variable {ι σ q r o : Type} (H : TwoPhase σ q r) (req : ι → q)

/-- The handler with nothing between its check and its transaction. -/
def serial (s : σ) (a : q) : σ × r :=
  match H.check s a with
  | some answer => (s, answer)
  | none => H.act s a

/-- Handles the requests of a list one after another. -/
def serialRun : σ → List ι → σ × List (ι × r)
  | s, [] => (s, [])
  | s, i :: rest =>
    let first := H.serial s (req i)
    let later := serialRun first.1 rest
    (later.1, (i, first.2) :: later.2)

/-- No request has started. -/
def start (s : σ) : Conf ι σ r := ⟨s, fun _ => .waiting⟩

theorem serialRun_concat (s : σ) (order : List ι) (i : ι) :
    H.serialRun req s (order ++ [i]) =
      ((H.serial (H.serialRun req s order).1 (req i)).1,
        (H.serialRun req s order).2 ++
          [(i, (H.serial (H.serialRun req s order).1 (req i)).2)]) := by
  induction order generalizing s with
  | nil => rfl
  | cons j rest ih => simp [serialRun, ih]

variable {H req} in
theorem mem_serialRun {s : σ} {order : List ι} {i : ι} {x : r}
    (h : (i, x) ∈ (H.serialRun req s order).2) : i ∈ order := by
  induction order generalizing s with
  | nil => simp [serialRun] at h
  | cons j rest ih =>
    simp only [serialRun, List.mem_cons, Prod.mk.injEq] at h
    rcases h with ⟨rfl, -⟩ | h
    · simp
    · exact List.mem_cons_of_mem _ (ih h)

/-- A request whose transaction changes nothing and answers the same whatever the store holds. -/
def Inert (a : q) : Prop := ∃ answer, ∀ s, H.act s a = (s, answer)

/-- What `linearizable` asks of a handler: `Inv` is an invariant of the store, `Auth` is what a
check without answer establishes and the transactions of others keep, and `Fresh` is what makes a
transaction answer as the whole handler would at that moment, up to the outcome `out`. -/
structure Validates (Inv : σ → Prop) (Auth Fresh : σ → q → Prop) (out : r → o) : Prop where
  check_auth : ∀ {s a}, Inv s → H.check s a = none → Auth s a
  act_inv : ∀ {s a}, Inv s → Auth s a → Fresh s a → Inv (H.act s a).1
  act_auth : ∀ {s a b}, Inv s → Auth s a → Fresh s a → Auth s b → Auth (H.act s a).1 b
  agrees : ∀ {s a}, Inv s → Auth s a → Fresh s a →
    (H.serial s a).1 = (H.act s a).1 ∧ out (H.serial s a).2 = out (H.act s a).2

/-- The condition on a step: a transaction runs only when it is inert or fresh. -/
def Validated (Fresh : σ → q → Prop) (c : Conf ι σ r) (i : ι) : Prop :=
  c.phase i = .checked → H.Inert (req i) ∨ Fresh c.store (req i)

/-- `order` lists the requests that have taken effect, and handling them in this order from `s`
gives the store and the outcomes of `c`.  An inert request takes effect at its check. -/
structure Explains (out : r → o) (s : σ) (c : Conf ι σ r) (order : List ι) : Prop where
  nodup : order.Nodup
  mem : ∀ i, i ∈ order ↔
    (∃ answer, c.phase i = .done answer) ∨ (c.phase i = .checked ∧ H.Inert (req i))
  store : (H.serialRun req s order).1 = c.store
  answers : ∀ i x, (i, x) ∈ (H.serialRun req s order).2 →
    (∃ y, c.phase i = .done y ∧ out y = out x) ∨
      (c.phase i = .checked ∧ ∀ t, H.act t (req i) = (t, x))

variable {H req} {Inv : σ → Prop} {Auth Fresh : σ → q → Prop} {out : r → o}

/-- A step of `i` that leaves the order as it is. -/
theorem Explains.same {s : σ} {c d : Conf ι σ r} {order : List ι} {i : ι}
    (h : H.Explains req out s c order) (hstore : d.store = c.store)
    (hother : ∀ j, j ≠ i → d.phase j = c.phase j)
    (hmem : i ∈ order ↔
      (∃ answer, d.phase i = .done answer) ∨ (d.phase i = .checked ∧ H.Inert (req i)))
    (hanswer : ∀ x, (i, x) ∈ (H.serialRun req s order).2 →
      (∃ y, d.phase i = .done y ∧ out y = out x) ∨
        (d.phase i = .checked ∧ ∀ t, H.act t (req i) = (t, x))) :
    H.Explains req out s d order where
  nodup := h.nodup
  mem j := by
    by_cases hj : j = i
    · exact hj ▸ hmem
    · rw [hother j hj]; exact h.mem j
  store := h.store.trans hstore.symm
  answers j x hx := by
    by_cases hj : j = i
    · subst hj; exact hanswer x hx
    · rw [hother j hj]; exact h.answers j x hx

/-- A step of `i` that takes effect: `i` goes to the end of the order. -/
theorem Explains.concat {s : σ} {c d : Conf ι σ r} {order : List ι} {i : ι}
    (h : H.Explains req out s c order) (hfresh : i ∉ order)
    (hstore : d.store = (H.serial c.store (req i)).1)
    (hother : ∀ j, j ≠ i → d.phase j = c.phase j)
    (hmem : (∃ answer, d.phase i = .done answer) ∨ (d.phase i = .checked ∧ H.Inert (req i)))
    (hanswer : (∃ y, d.phase i = .done y ∧ out y = out (H.serial c.store (req i)).2) ∨
      (d.phase i = .checked ∧ ∀ t, H.act t (req i) = (t, (H.serial c.store (req i)).2))) :
    H.Explains req out s d (order ++ [i]) where
  nodup := h.nodup.append (List.nodup_singleton i) (by simpa using hfresh)
  mem j := by
    by_cases hj : j = i
    · subst hj; simpa using hmem
    · rw [hother j hj, ← h.mem j]; simp [hj]
  store := by rw [serialRun_concat, h.store, hstore]
  answers j x hx := by
    rw [serialRun_concat, h.store, List.mem_append] at hx
    rcases hx with hx | hx
    · have hj : j ≠ i := fun e => hfresh (e ▸ mem_serialRun hx)
      rw [hother j hj]
      exact h.answers j x hx
    · obtain ⟨rfl, rfl⟩ : j = i ∧ x = (H.serial c.store (req i)).2 := by simpa using hx
      exact hanswer

/-- What holds along a validated run from `s`. -/
structure Linear (H : TwoPhase σ q r) (req : ι → q) (Inv : σ → Prop) (Auth : σ → q → Prop)
    (out : r → o) (s : σ) (c : Conf ι σ r) : Prop where
  inv : Inv c.store
  auth : ∀ i, c.phase i = .checked → Auth c.store (req i)
  explained : ∃ order, H.Explains req out s c order

theorem start_linear {s : σ} (hs : Inv s) :
    Linear H req Inv Auth out s (start s : Conf ι σ r) where
  inv := hs
  auth i hi := by simp [start] at hi
  explained := ⟨[], List.nodup_nil, fun i => by simp [start], rfl, fun i x hx => by
    simp [serialRun] at hx⟩

variable [DecidableEq ι]

variable (H req) in
/-- Request `i` takes its next step. -/
def step (c : Conf ι σ r) (i : ι) : Option (Conf ι σ r) :=
  match c.phase i with
  | .waiting =>
    match H.check c.store (req i) with
    | some answer => some { c with phase := Function.update c.phase i (.done answer) }
    | none => some { c with phase := Function.update c.phase i .checked }
  | .checked =>
    some ⟨(H.act c.store (req i)).1,
      Function.update c.phase i (.done (H.act c.store (req i)).2)⟩
  | .done _ => none

theorem step_checked {c : Conf ι σ r} {i : ι} (h : c.phase i = .checked) :
    H.step req c i = some ⟨(H.act c.store (req i)).1,
      Function.update c.phase i (.done (H.act c.store (req i)).2)⟩ := by
  rw [step, h]

variable (H req) in
theorem step_cases {c d : Conf ι σ r} {i : ι} (h : H.step req c i = some d) :
    (∃ answer, c.phase i = .waiting ∧ H.check c.store (req i) = some answer ∧
      d = ⟨c.store, Function.update c.phase i (.done answer)⟩) ∨
    (c.phase i = .waiting ∧ H.check c.store (req i) = none ∧
      d = ⟨c.store, Function.update c.phase i .checked⟩) ∨
    (c.phase i = .checked ∧
      d = ⟨(H.act c.store (req i)).1,
        Function.update c.phase i (.done (H.act c.store (req i)).2)⟩) := by
  unfold step at h
  split at h
  · rename_i hphase
    split at h
    · rename_i answer hcheck
      exact .inl ⟨answer, hphase, hcheck, (Option.some.inj h).symm⟩
    · rename_i hcheck
      exact .inr (.inl ⟨hphase, hcheck, (Option.some.inj h).symm⟩)
  · rename_i hphase
    exact .inr (.inr ⟨hphase, (Option.some.inj h).symm⟩)
  · contradiction

/-- A transaction's store and answer are those of its step. -/
theorem step_act {c d : Conf ι σ r} {i : ι} (h : H.step req c i = some d)
    (hphase : c.phase i = .checked) :
    d.store = (H.act c.store (req i)).1 ∧ d.phase i = .done (H.act c.store (req i)).2 ∧
      ∀ j, j ≠ i → d.phase j = c.phase j := by
  rw [step_checked hphase] at h
  obtain rfl := Option.some.inj h
  exact ⟨rfl, by simp, fun j hj => by simp [hj]⟩

theorem step_check {c d : Conf ι σ r} {i : ι} (h : H.step req c i = some d)
    (hphase : c.phase i ≠ .checked) :
    c.phase i = .waiting ∧ d.store = c.store ∧
      (d.phase i = .checked ∧ H.check c.store (req i) = none ∨
        ∃ answer, d.phase i = .done answer ∧ H.check c.store (req i) = some answer) ∧
      ∀ j, j ≠ i → d.phase j = c.phase j := by
  obtain ⟨answer, hwait, hcheck, rfl⟩ | ⟨hwait, hcheck, rfl⟩ | ⟨hchecked, -⟩ := H.step_cases req h
  · exact ⟨hwait, rfl, .inr ⟨answer, by simp, hcheck⟩, fun j hj => by simp [hj]⟩
  · exact ⟨hwait, rfl, .inl ⟨by simp, hcheck⟩, fun j hj => by simp [hj]⟩
  · exact absurd hchecked hphase

theorem step_done {c d : Conf ι σ r} {i j : ι} {answer : r} (h : H.step req c i = some d)
    (hj : c.phase j = .done answer) : d.phase j = .done answer := by
  have hne : j ≠ i := by
    rintro rfl
    rw [step, hj] at h
    cases h
  obtain ⟨_, -, -, rfl⟩ | ⟨-, -, rfl⟩ | ⟨-, rfl⟩ := H.step_cases req h <;> simpa [hne] using hj

theorem Linear.check_answer {s : σ} {c : Conf ι σ r} {i : ι} {answer : r}
    (h : Linear H req Inv Auth out s c) (hphase : c.phase i = .waiting)
    (hcheck : H.check c.store (req i) = some answer) :
    Linear H req Inv Auth out s ⟨c.store, Function.update c.phase i (.done answer)⟩ := by
  obtain ⟨order, explains⟩ := h.explained
  have hserial : H.serial c.store (req i) = (c.store, answer) := by simp [serial, hcheck]
  have hfresh : i ∉ order := fun mem => by simpa [hphase] using (explains.mem i).mp mem
  refine ⟨h.inv, ?_, order ++ [i], explains.concat hfresh (by rw [hserial])
    (fun j hj => by simp [hj]) (.inl ⟨answer, by simp⟩)
    (.inl ⟨answer, by simp, by rw [hserial]⟩)⟩
  intro j hj
  by_cases e : j = i
  · subst e; simp at hj
  · exact h.auth j (by simpa [e] using hj)

theorem Linear.check_pass (hval : H.Validates Inv Auth Fresh out) {s : σ} {c : Conf ι σ r} {i : ι}
    (h : Linear H req Inv Auth out s c) (hphase : c.phase i = .waiting)
    (hcheck : H.check c.store (req i) = none) :
    Linear H req Inv Auth out s ⟨c.store, Function.update c.phase i .checked⟩ := by
  obtain ⟨order, explains⟩ := h.explained
  have hserial : H.serial c.store (req i) = H.act c.store (req i) := by simp [serial, hcheck]
  have hfresh : i ∉ order := fun mem => by simpa [hphase] using (explains.mem i).mp mem
  refine ⟨h.inv, ?_, ?_⟩
  · intro j hj
    by_cases e : j = i
    · subst e; exact hval.check_auth h.inv hcheck
    · exact h.auth j (by simpa [e] using hj)
  · by_cases inert : H.Inert (req i)
    · obtain ⟨answer, hact⟩ := inert
      refine ⟨order ++ [i], explains.concat hfresh (by rw [hserial, hact])
        (fun j hj => by simp [hj]) (.inr ⟨by simp, answer, hact⟩) (.inr ⟨by simp, ?_⟩)⟩
      intro t
      rw [hserial, hact, hact]
    · refine ⟨order, explains.same (i := i) rfl (fun j hj => by simp [hj]) ?_ ?_⟩
      · simp [hfresh, inert]
      · intro x hx
        exact absurd (mem_serialRun hx) hfresh

theorem Linear.act (hval : H.Validates Inv Auth Fresh out) {s : σ} {c : Conf ι σ r} {i : ι}
    (h : Linear H req Inv Auth out s c) (hphase : c.phase i = .checked)
    (hok : H.Inert (req i) ∨ Fresh c.store (req i)) :
    Linear H req Inv Auth out s ⟨(H.act c.store (req i)).1,
      Function.update c.phase i (.done (H.act c.store (req i)).2)⟩ := by
  obtain ⟨order, explains⟩ := h.explained
  have hauth := h.auth i hphase
  by_cases inert : H.Inert (req i)
  · -- the request took effect at its check, and its transaction changes nothing
    obtain ⟨answer, hact⟩ := inert
    rw [hact]
    refine ⟨h.inv, ?_, order, explains.same (i := i) rfl
      (fun j hj => by simp [hj]) ?_ fun x hx => .inl ⟨answer, by simp, ?_⟩⟩
    · intro j hj
      by_cases e : j = i
      · subst e; simp at hj
      · exact h.auth j (by simpa [e] using hj)
    · simpa using (explains.mem i).mpr (.inr ⟨hphase, answer, hact⟩)
    · obtain ⟨y, hy, -⟩ | ⟨-, hx⟩ := explains.answers i x hx
      · simp [hphase] at hy
      · have : (c.store, answer) = (c.store, x) := (hact c.store).symm.trans (hx c.store)
        rw [(Prod.mk.inj this).2]
  · have hfr := hok.resolve_left inert
    obtain ⟨hst, hout⟩ := hval.agrees h.inv hauth hfr
    have hfresh : i ∉ order := fun mem => by simpa [hphase, inert] using (explains.mem i).mp mem
    refine ⟨hval.act_inv h.inv hauth hfr, ?_, order ++ [i],
      explains.concat hfresh hst.symm (fun j hj => by simp [hj])
      (.inl ⟨(H.act c.store (req i)).2, by simp⟩)
      (.inl ⟨(H.act c.store (req i)).2, by simp, hout.symm⟩)⟩
    intro j hj
    by_cases e : j = i
    · subst e; simp at hj
    · exact hval.act_auth h.inv hauth hfr (h.auth j (by simpa [e] using hj))

theorem linear_of_run (hval : H.Validates Inv Auth Fresh out) {s : σ} (hs : Inv s)
    {schedule : List ι} {c : Conf ι σ r}
    (hrun : Run (H.step req) (H.Validated req Fresh) (start s) schedule c) :
    Linear H req Inv Auth out s c := by
  apply hrun.preserves (start_linear hs)
  intro t i u ht hok hstep
  obtain ⟨answer, hphase, hcheck, rfl⟩ | ⟨hphase, hcheck, rfl⟩ | ⟨hphase, rfl⟩ :=
    H.step_cases req hstep
  · exact ht.check_answer hphase hcheck
  · exact ht.check_pass hval hphase hcheck
  · exact ht.act hval hphase (hok hphase)

/-- A validated run in which no request is left between its check and its transaction is
equivalent to handling the finished requests one after another in some order. -/
theorem linearizable (hval : H.Validates Inv Auth Fresh out) {s : σ} (hs : Inv s)
    {schedule : List ι} {c : Conf ι σ r}
    (hrun : Run (H.step req) (H.Validated req Fresh) (start s) schedule c)
    (hquiet : ∀ i, c.phase i ≠ .checked) :
    ∃ order : List ι, order.Nodup ∧ (∀ i, i ∈ order ↔ ∃ answer, c.phase i = .done answer) ∧
      (H.serialRun req s order).1 = c.store ∧
      ∀ i x, (i, x) ∈ (H.serialRun req s order).2 → ∃ y, c.phase i = .done y ∧ out y = out x := by
  obtain ⟨order, explains⟩ := (linear_of_run hval hs hrun).explained
  refine ⟨order, explains.nodup, ?_, explains.store, ?_⟩
  · intro i
    simpa [hquiet i] using explains.mem i
  · intro i x hx
    exact (explains.answers i x hx).resolve_right fun h => hquiet i h.1

end TwoPhase

end Kit
