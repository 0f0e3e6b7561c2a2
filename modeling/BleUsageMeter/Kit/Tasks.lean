import Mathlib.Logic.Function.Basic
import BleUsageMeter.Kit.Noninterference
import BleUsageMeter.Kit.Run

/-! Tasks that run at once on one store.  A task is a tree of statements: a statement changes the
store, and what it finds there decides how the task goes on.  Tasks interleave between statements.
Where some tasks stay within a view of the store and all others stay outside of it, those within
take the same course whatever the others are and whenever they run.  A task that reads in several
statements answers as of one moment when each change of the others leaves the answer that it is
about to give as it is, or makes it the answer of the whole task. -/

namespace Kit

inductive Task (σ r : Type)
  | done (result : r)
  | statement (effect : σ → σ) (next : σ → Task σ r)

variable {σ r ν : Type}

namespace Task

/-- A statement that only reads. -/
def read (next : σ → Task σ r) : Task σ r := .statement id next

/-- A last statement. -/
def last (act : σ → σ × r) : Task σ r := .statement (fun s => (act s).1) fun s => .done (act s).2

/-- The task with nothing between its statements. -/
def alone : Task σ r → σ → σ × r
  | .done result, s => (s, result)
  | .statement effect next, s => (next s).alone (effect s)

def result? : Task σ r → Option r
  | .done result => some result
  | .statement _ _ => none

@[simp] theorem alone_done (result : r) (s : σ) : (done result).alone s = (s, result) := rfl

@[simp] theorem alone_read (next : σ → Task σ r) (s : σ) :
    (read next).alone s = (next s).alone s := rfl

@[simp] theorem alone_last (act : σ → σ × r) (s : σ) : (last act).alone s = act s := rfl

/-- What holds of the store and the task after its next statement, if there is one. -/
def After (s : σ) (P : σ → Task σ r → Prop) : Task σ r → Prop
  | .done _ => True
  | .statement effect next => P (effect s) (next s)

/-- Every statement changes the store as `P` allows. -/
inductive Obeys (P : σ → σ → Prop) : Task σ r → Prop
  | done (result : r) : Obeys P (.done result)
  | statement {effect : σ → σ} {next : σ → Task σ r} (obeys : ∀ s, P s (effect s))
      (rest : ∀ s, Obeys P (next s)) : Obeys P (.statement effect next)

/-- No statement changes what the view shows. -/
def Outside (view : σ → ν) (task : Task σ r) : Prop := task.Obeys fun s t => view t = view s

/-- What a statement does to the view, and how the task goes on, depends on the view alone. -/
inductive Within (view : σ → ν) : Task σ r → Prop
  | done (result : r) : Within view (.done result)
  | statement {effect : σ → σ} {next : σ → Task σ r}
      (changes : ∀ s t, view s = view t → view (effect s) = view (effect t))
      (follows : ∀ s t, view s = view t → next s = next t)
      (rest : ∀ s, Within view (next s)) : Within view (.statement effect next)

variable {P : σ → σ → Prop} {view : σ → ν} {effect : σ → σ} {next : σ → Task σ r}
  {act : σ → σ × r} {task : Task σ r}

theorem Obeys.read (hrefl : ∀ s, P s s) (h : ∀ s, (next s).Obeys P) : (Task.read next).Obeys P :=
  .statement hrefl h

theorem Obeys.last (h : ∀ s, P s (act s).1) : (Task.last act).Obeys P :=
  .statement h fun _ => .done _

theorem Obeys.weaken {Q : σ → σ → Prop} (h : task.Obeys P) (hPQ : ∀ s t, P s t → Q s t) :
    task.Obeys Q := by
  induction h with
  | done result => exact .done result
  | statement obeys _ ih => exact .statement (fun s => hPQ s _ (obeys s)) ih

theorem obeys_statement_iff :
    (statement effect next).Obeys P ↔ (∀ s, P s (effect s)) ∧ ∀ s, (next s).Obeys P := by
  constructor
  · intro h
    cases h with
    | statement obeys rest => exact ⟨obeys, rest⟩
  · intro h
    exact .statement h.1 h.2

theorem within_statement_iff : (statement effect next).Within view ↔
    (∀ s t, view s = view t → view (effect s) = view (effect t)) ∧
      (∀ s t, view s = view t → next s = next t) ∧ ∀ s, (next s).Within view := by
  constructor
  · intro h
    cases h with
    | statement changes follows rest => exact ⟨changes, follows, rest⟩
  · intro h
    exact .statement h.1 h.2.1 h.2.2

theorem Within.read (hfollows : ∀ s t, view s = view t → next s = next t)
    (hrest : ∀ s, (next s).Within view) : (Task.read next).Within view :=
  .statement (fun _ _ h => h) hfollows hrest

theorem Within.last (hchanges : ∀ s t, view s = view t → view (act s).1 = view (act t).1)
    (hresult : ∀ s t, view s = view t → (act s).2 = (act t).2) : (Task.last act).Within view :=
  .statement hchanges (fun s t h => congrArg Task.done (hresult s t h)) fun _ => .done _

end Task

/-- The store and what remains of each task. -/
structure Tasks (ι σ r : Type) where
  store : σ
  task : ι → Task σ r

namespace Tasks

variable {ι : Type} [DecidableEq ι]

/-- The next statement of task `i`. -/
def step (c : Tasks ι σ r) (i : ι) : Tasks ι σ r :=
  match c.task i with
  | .done _ => c
  | .statement effect next => ⟨effect c.store, Function.update c.task i (next c.store)⟩

theorem step_done {c : Tasks ι σ r} {i : ι} {result : r} (h : c.task i = .done result) :
    c.step i = c := by
  rw [step, h]

theorem step_statement {c : Tasks ι σ r} {i : ι} {effect : σ → σ} {next : σ → Task σ r}
    (h : c.task i = .statement effect next) :
    c.step i = ⟨effect c.store, Function.update c.task i (next c.store)⟩ := by
  rw [step, h]

/-- What the statements of the tasks do to the store, in every state of a run. -/
theorem obeys_of_run {P : ι → σ → σ → Prop} {ok : Tasks ι σ r → ι → Prop} {start c : Tasks ι σ r}
    {es : List ι} (h : Run (fun c i => some (step c i)) ok start es c)
    (hstart : ∀ i, (start.task i).Obeys (P i)) : ∀ i, (c.task i).Obeys (P i) := by
  apply h.preserves
  · exact hstart
  · intro c i d hc _ hstep j
    obtain rfl := Option.some.inj hstep
    cases htask : c.task i with
    | done result =>
      rw [step_done htask]
      exact hc j
    | statement effect next =>
      rw [step_statement htask]
      by_cases hji : j = i
      · subst hji
        have hobeys := hc j
        rw [htask, Task.obeys_statement_iff] at hobeys
        simp only [Function.update_self]
        exact hobeys.2 c.store
      · simp only [Function.update_of_ne hji]
        exact hc j

/-- A step changes the store as its task does, or not at all. -/
theorem step_obeys {P : σ → σ → Prop} {c : Tasks ι σ r} {i : ι} (h : (c.task i).Obeys P) :
    c.step i = c ∨ P c.store (c.step i).store := by
  cases htask : c.task i with
  | done result => exact .inl (step_done htask)
  | statement effect next =>
    rw [htask, Task.obeys_statement_iff] at h
    rw [step_statement htask]
    exact .inr (h.1 c.store)

theorem foldl_of_run {ok : Tasks ι σ r → ι → Prop} {start c : Tasks ι σ r} {es : List ι}
    (h : Run (fun c i => some (step c i)) ok start es c) : es.foldl step start = c := by
  induction h with
  | nil => rfl
  | snoc _ _ hstep ih =>
    rw [List.foldl_append, List.foldl_cons, List.foldl_nil, ih]
    exact Option.some.inj hstep

/-- The tasks as they were at any moment of a run. -/
theorem run_earlier {ok : Tasks ι σ r → ι → Prop} {start c : Tasks ι σ r} {es ps : List ι}
    (h : Run (fun c i => some (step c i)) ok start es c) (hps : ps <+: es) :
    Run (fun c i => some (step c i)) ok start ps (ps.foldl step start) := by
  obtain ⟨rest, rfl⟩ := hps
  obtain ⟨mid, hfirst, _⟩ := h.split
  rw [foldl_of_run hfirst]
  exact hfirst

theorem step_other {c : Tasks ι σ r} {i j : ι} (h : i ≠ j) : (c.step j).task i = c.task i := by
  cases htask : c.task j with
  | done result => rw [step_done htask]
  | statement effect next =>
    rw [step_statement htask]
    exact Function.update_of_ne h _ _

/-- A task stays as it is while others run. -/
theorem foldl_task {c : Tasks ι σ r} {es : List ι} {i : ι} (h : i ∉ es) :
    (es.foldl step c).task i = c.task i := by
  induction es generalizing c with
  | nil => rfl
  | cons j rest ih =>
    rw [List.mem_cons, not_or] at h
    rw [List.foldl_cons, ih h.2, step_other h.1]

/-- What a task would be matters to no other, as long as it does not run. -/
theorem foldl_update {c : Tasks ι σ r} {es : List ι} {i : ι} (h : i ∉ es) (task : Task σ r) :
    es.foldl step ⟨c.store, Function.update c.task i task⟩ =
      ⟨(es.foldl step c).store, Function.update (es.foldl step c).task i task⟩ := by
  induction es generalizing c with
  | nil => rfl
  | cons j rest ih =>
    rw [List.mem_cons, not_or] at h
    obtain ⟨hij, hrest⟩ := h
    have hstep : step ⟨c.store, Function.update c.task i task⟩ j =
        ⟨(c.step j).store, Function.update (c.step j).task i task⟩ := by
      have hsame : Function.update c.task i task j = c.task j :=
        Function.update_of_ne (Ne.symm hij) _ _
      cases htask : c.task j with
      | done result => rw [step_done (hsame.trans htask), step_done htask]
      | statement effect next =>
        rw [step_statement (hsame.trans htask), step_statement htask,
          Function.update_comm hij]
    rw [List.foldl_cons, List.foldl_cons, hstep, ih hrest]

/-- The stores look the same in the view, the visible tasks are the same and stay within it, and
all others stay outside. -/
structure SameView (view : σ → ν) (visible : ι → Bool) (c d : Tasks ι σ r) : Prop where
  store : view c.store = view d.store
  task : ∀ i, visible i = true → c.task i = d.task i
  within : ∀ i, visible i = true → (c.task i).Within view
  left : ∀ i, visible i = false → (c.task i).Outside view
  right : ∀ i, visible i = false → (d.task i).Outside view

variable {view : σ → ν} {visible : ι → Bool} {c d : Tasks ι σ r} {i : ι}

omit [DecidableEq ι] in
theorem SameView.symm (h : SameView view visible c d) : SameView view visible d c where
  store := h.store.symm
  task i hi := (h.task i hi).symm
  within i hi := h.task i hi ▸ h.within i hi
  left := h.right
  right := h.left

/-- A step of a task that is not visible. -/
theorem SameView.hidden (h : SameView view visible c d) (hi : visible i = false) :
    SameView view visible (c.step i) d := by
  have houtside := h.left i hi
  cases htask : c.task i with
  | done result =>
    rw [step_done htask]
    exact h
  | statement effect next =>
    rw [htask] at houtside
    obtain ⟨hkeeps, hrest⟩ := Task.obeys_statement_iff.mp houtside
    have hother : ∀ j, visible j = true → (c.step i).task j = c.task j := by
      intro j hj
      apply step_other
      rintro rfl
      rw [hi] at hj
      cases hj
    refine ⟨?_, fun j hj => ?_, fun j hj => ?_, fun j hj => ?_, h.right⟩
    · rw [step_statement htask]
      exact (hkeeps c.store).trans h.store
    · rw [hother j hj]
      exact h.task j hj
    · rw [hother j hj]
      exact h.within j hj
    · rw [step_statement htask]
      by_cases hji : j = i
      · subst hji
        show (Function.update c.task j (next c.store) j).Outside view
        rw [Function.update_self]
        exact hrest c.store
      · show (Function.update c.task i (next c.store) j).Outside view
        rw [Function.update_of_ne hji]
        exact h.left j hj

/-- A step that a visible task takes on both sides. -/
theorem SameView.shown (h : SameView view visible c d) (hi : visible i = true) :
    SameView view visible (c.step i) (d.step i) := by
  have hwithin := h.within i hi
  have hsame := h.task i hi
  cases htask : c.task i with
  | done result =>
    rw [step_done htask, step_done (hsame ▸ htask)]
    exact h
  | statement effect next =>
    rw [htask] at hwithin hsame
    obtain ⟨hchanges, hfollows, hrest⟩ := Task.within_statement_iff.mp hwithin
    rw [step_statement htask, step_statement hsame.symm]
    have hother : ∀ j, visible j = false → j ≠ i := by
      rintro j hj rfl
      rw [hi] at hj
      cases hj
    refine ⟨hchanges _ _ h.store, fun j hj => ?_, fun j hj => ?_, fun j hj => ?_, fun j hj => ?_⟩
    · by_cases hji : j = i
      · subst hji
        simp only [Function.update_self]
        exact hfollows _ _ h.store
      · simp only [Function.update_of_ne hji]
        exact h.task j hj
    · by_cases hji : j = i
      · subst hji
        simp only [Function.update_self]
        exact hrest c.store
      · simp only [Function.update_of_ne hji]
        exact h.within j hj
    · simp only [Function.update_of_ne (hother j hj)]
      exact h.left j hj
    · simp only [Function.update_of_ne (hother j hj)]
      exact h.right j hj

/-- Two schedules that show the same steps of the visible tasks. -/
theorem SameView.schedules (h : SameView view visible c d) {es fs : List ι}
    (hshown : es.filter visible = fs.filter visible) :
    SameView view visible (es.foldl step c) (fs.foldl step d) := by
  have hunaffected : Unaffected step step visible
      (fun c d : Tasks ι σ r => SameView view visible c d) :=
    { left := fun _ _ _ hi h => h.hidden hi
      right := fun _ _ _ hi h => (h.symm.hidden hi).symm
      both := fun _ _ _ hi h => h.shown hi }
  exact hunaffected.foldl h hshown

/-! ### Readers -/

/-- Why a task that only reads answers as of one moment.  `Inv` relates what remains of it to the
store, and `Env` is what the statements of others may do. -/
structure Linearizes (task : Task σ r) (Inv : Task σ r → σ → Prop) (Env : σ → σ → Prop) :
    Prop where
  own : ∀ rest s, Inv rest s → rest.After s fun t later => t = s ∧ Inv later s
  others : ∀ rest s t, Inv rest s → Env s t → Inv rest t ∧
    ((rest.alone t).2 = (rest.alone s).2 ∨ (rest.alone t).2 = (task.alone t).2)

/-- A statement of the reader itself leaves the answer as it is. -/
theorem Linearizes.step_self {task : Task σ r} {Inv : Task σ r → σ → Prop} {Env : σ → σ → Prop}
    (h : Linearizes task Inv Env) {d : Tasks ι σ r} {i : ι} (hinv : Inv (d.task i) d.store) :
    Inv ((d.step i).task i) (d.step i).store ∧
      (((d.step i).task i).alone (d.step i).store).2 = ((d.task i).alone d.store).2 := by
  cases hrest : d.task i with
  | done result =>
    rw [step_done hrest, hrest]
    exact ⟨hrest ▸ hinv, rfl⟩
  | statement effect next =>
    have hown := h.own _ _ hinv
    rw [hrest] at hown
    obtain ⟨hreads, hnext⟩ : effect d.store = d.store ∧ Inv (next d.store) d.store := hown
    rw [step_statement hrest]
    simp only [Function.update_self, hreads]
    exact ⟨hnext, by rw [Task.alone, hreads]⟩

/-- The answer that the reader is about to give is that of the whole task in a state that was
visited before the reader was done. -/
theorem Linearizes.of_run {task : Task σ r} {Inv : Task σ r → σ → Prop} {Env : σ → σ → Prop}
    (h : Linearizes task Inv Env) {ok : Tasks ι σ r → ι → Prop} {start c : Tasks ι σ r}
    {es : List ι} {i : ι} (hrun : Run (fun c i => some (step c i)) ok start es c)
    (htask : start.task i = task) (hbegin : task.result? = none) (hstart : Inv task start.store)
    (henv : ∀ fs d j, fs ++ [j] <+: es → Run (fun c i => some (step c i)) ok start fs d → ok d j →
      j ≠ i → d.step j = d ∨ Env d.store (d.step j).store) :
    ∃ ps, ps <+: es ∧ ((ps.foldl step start).task i).result? = none ∧
      ((c.task i).alone c.store).2 = (task.alone (ps.foldl step start).store).2 := by
  suffices hsuffices : Inv (c.task i) c.store ∧ ∃ ps, ps <+: es ∧
      ((ps.foldl step start).task i).result? = none ∧
      ((c.task i).alone c.store).2 = (task.alone (ps.foldl step start).store).2 from hsuffices.2
  induction hrun with
  | nil =>
    exact ⟨htask ▸ hstart, [], List.prefix_rfl, (congrArg Task.result? htask).trans hbegin,
      by rw [htask]; rfl⟩
  | @snoc es d u j hd hok hstep ih =>
    obtain rfl := Option.some.inj hstep
    have hearlier : es <+: es ++ [j] := List.prefix_append _ _
    obtain ⟨hinv, ps, hps, hbusy, hanswer⟩ :=
      ih fun fs d k hfs => henv fs d k (hfs.trans hearlier)
    have hlater : ps <+: es ++ [j] := hps.trans hearlier
    by_cases hj : j = i
    · subst hj
      obtain ⟨hinv', hsame⟩ := h.step_self hinv
      exact ⟨hinv', ps, hlater, hbusy, hsame.trans hanswer⟩
    · rw [step_other (Ne.symm hj)]
      rcases henv es d j List.prefix_rfl hd hok hj with hsame | henv
      · rw [hsame]
        exact ⟨hinv, ps, hlater, hbusy, hanswer⟩
      · obtain ⟨hinv', hanswer'⟩ := h.others (d.task i) d.store (d.step j).store hinv henv
        refine ⟨hinv', ?_⟩
        cases hrest : d.task i with
        | done result =>
          rw [hrest] at hanswer
          exact ⟨ps, hlater, hbusy, hanswer⟩
        | statement effect next =>
          rw [hrest] at hanswer hanswer'
          rcases hanswer' with hsame | hnow
          · exact ⟨ps, hlater, hbusy, hsame.trans hanswer⟩
          · have hlast : (es ++ [j]).foldl step start = d.step j := by
              rw [List.foldl_append, List.foldl_cons, List.foldl_nil, foldl_of_run hd]
            refine ⟨es ++ [j], List.prefix_rfl, ?_, hlast ▸ hnow⟩
            rw [hlast, step_other (Ne.symm hj), hrest]
            rfl

end Tasks

end Kit
