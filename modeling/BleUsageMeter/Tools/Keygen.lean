import BleUsageMeter.Kit.Dict
import BleUsageMeter.Kit.Parties
import BleUsageMeter.Gateway.ReportCommand

/-! `tools/keygen.py`, any number of times at once on one file system: "this tool refuses to write
one inside a git working tree unless you force it", and the key file is "0600 from the start".  The
`O_EXCL` of `write_private_key` keeps every file that is there, whatever the check at the beginning
saw, and what a gateway that loads the file signs verifies under the printed key. -/

namespace BleUsageMeter.Tools

open Kit

/-- The components of an absolute path. -/
abbrev Path := List String

inductive Node
  | directory
  | file (content : List UInt8) (mode : BitVec 9)
deriving DecidableEq

abbrev FileSystem := Dict Path Node

namespace FileSystem

variable (fs : FileSystem) (path : Path)

def contains : Bool := path = [] ∨ (fs.get? path).isSome

def isDir : Bool := path = [] ∨ fs.get? path = some .directory

end FileSystem

/-- A path and its parents, the path first. -/
def andParents (path : Path) : List Path := path.inits.reverse

/-- `in_git_worktree`.  `git` is what `git rev-parse --show-toplevel` prints. -/
def inGitWorktree (git : FileSystem → Path → Option Path) (fs : FileSystem) (path : Path) :
    Option Path :=
  let probe := if fs.isDir path then path else path.dropLast
  match (andParents probe).find? fun candidate => fs.contains (candidate ++ [".git"]) with
  | some candidate => some candidate
  | none => git fs probe

/-- The directories that `dest.parent.mkdir(parents=True)` makes where they are missing. -/
def parentDirs (out : Path) : List Path := out.dropLast.inits.tail

/-- How far a run has come. -/
inductive KeygenStage
  | started
  | absent
  | making (dirs : List Path)
  | opened
  | written
  | refusedExisting
  | refusedWorktree (repo : Path)
  | raised
deriving DecidableEq

/-- The arguments of a run, the umask of its process, and the key that it generates. -/
structure KeygenArgs (Secret : Type) where
  out : Path
  force : Bool
  umask : BitVec 9
  key : Secret

structure Keygen (Secret : Type) extends KeygenArgs Secret where
  stage : KeygenStage

section Definitions

variable {Secret : Type} (git : FileSystem → Path → Option Path) (pem : Secret → List UInt8)

/-- `S_IRUSR | S_IWUSR`, less what the umask takes away. -/
def KeygenArgs.mode (args : KeygenArgs Secret) : BitVec 9 := 0b110000000#9 &&& ~~~args.umask

/-- The next statement of `main`, when there is one. -/
def Keygen.next (fs : FileSystem) (run : Keygen Secret) : Option (FileSystem × Keygen Secret) :=
  match run.stage with
  | .started =>
    some (fs, { run with stage := if fs.contains run.out then .refusedExisting else .absent })
  | .absent =>
    match inGitWorktree git fs run.out, run.force with
    | some repo, false => some (fs, { run with stage := .refusedWorktree repo })
    | _, _ => some (fs, { run with stage := .making (parentDirs run.out) })
  | .making (dir :: rest) =>
    match fs.get? dir with
    | none => some (fs.insert dir .directory, { run with stage := .making rest })
    | some .directory => some (fs, { run with stage := .making rest })
    | some (.file _ _) => some (fs, { run with stage := .raised })
  | .making [] =>
    -- `O_CREAT | O_EXCL`
    if fs.contains run.out ∨ ¬fs.isDir run.out.dropLast then
      some (fs, { run with stage := .raised })
    else some (fs.insert run.out (.file [] run.mode), { run with stage := .opened })
  | .opened =>
    let fs := fs.modify run.out fun
      | .file content mode => .file (content ++ pem run.key) mode
      | .directory => .directory
    some (fs, { run with stage := .written })
  | .written | .refusedExisting | .refusedWorktree _ | .raised => none

/-- The exit status of a run, 1 for one that raises. -/
def Keygen.exit? (run : Keygen Secret) : Option Nat :=
  match run.stage with
  | .written => some 0
  | .refusedExisting | .refusedWorktree _ => some 2
  | .raised => some 1
  | _ => none

/-- The bytes that the run has written. -/
def Keygen.content (run : Keygen Secret) : List UInt8 :=
  if run.stage = .written then pem run.key else []

/-- Runs that begin, and the statements of those that have begun. -/
def keygenStep (p : Parties FileSystem (Keygen Secret)) :
    PartyEvent (KeygenArgs Secret) Unit → Option (Parties FileSystem (Keygen Secret)) :=
  p.step (fun _ args => { args with stage := .started }) fun _ fs run _ => run.next git pem fs

/-- The run has created its file. -/
def Keygen.Holding (run : Keygen Secret) : Prop := run.stage = .opened ∨ run.stage = .written

/-- The run has passed its check for a git working tree. -/
def Keygen.Passed (run : Keygen Secret) : Prop :=
  (∃ dirs, run.stage = .making dirs) ∨ run.stage = .raised ∨ run.Holding

end Definitions

/-! ### Statements -/

section Statements

variable {Secret : Type} {git : FileSystem → Path → Option Path} {pem : Secret → List UInt8}
  {fs fs' : FileSystem} {run run' : Keygen Secret}

/-- What a statement can do: nothing to the files, or make a directory, or create the run's file, or
write it. -/
theorem next_cases (h : run.next git pem fs = some (fs', run')) :
    run'.toKeygenArgs = run.toKeygenArgs ∧
    ((fs' = fs ∧ ¬run.Holding ∧ ¬run'.Holding ∧ (run'.Passed → run.Passed ∨ run.force = true ∨
        inGitWorktree git fs run.out = none)) ∨
      (∃ dir, fs.get? dir = none ∧ fs' = fs.insert dir .directory ∧ run.Passed ∧ ¬run.Holding ∧
        ¬run'.Holding) ∨
      (fs.get? run.out = none ∧ fs' = fs.insert run.out (.file [] run.mode) ∧ run.Passed ∧
        ¬run.Holding ∧ run'.stage = .opened) ∨
      (run.stage = .opened ∧ run'.stage = .written ∧ fs' = fs.modify run.out fun
        | .file content mode => .file (content ++ pem run.key) mode
        | .directory => .directory)) := by
  obtain ⟨args, stage⟩ := run
  cases stage with
  | started =>
    obtain ⟨rfl, rfl⟩ := Prod.mk.inj (Option.some.inj h)
    refine ⟨rfl, .inl ⟨rfl, ?_, ?_, ?_⟩⟩
    · simp [Keygen.Holding]
    · dsimp only [Keygen.Holding]
      split <;> simp
    · dsimp only [Keygen.Passed, Keygen.Holding]
      split <;> simp
  | absent =>
    simp only [Keygen.next] at h
    refine ⟨?_, .inl ?_⟩
    · split at h <;> obtain ⟨rfl, rfl⟩ := Prod.mk.inj (Option.some.inj h) <;> rfl
    · split at h
      · obtain ⟨rfl, rfl⟩ := Prod.mk.inj (Option.some.inj h)
        simp [Keygen.Holding, Keygen.Passed]
      · rename_i hrefused
        obtain ⟨rfl, rfl⟩ := Prod.mk.inj (Option.some.inj h)
        refine ⟨rfl, by simp [Keygen.Holding], by simp [Keygen.Holding], ?_⟩
        intro _
        cases hgit : inGitWorktree git fs args.out with
        | none => exact .inr (.inr rfl)
        | some repo =>
          cases hforce : args.force with
          | true => exact .inr (.inl rfl)
          | false => cases hrefused repo hgit hforce
  | making dirs =>
    have hpassed : Keygen.Passed ⟨args, .making dirs⟩ := .inl ⟨dirs, rfl⟩
    cases dirs with
    | nil =>
      simp only [Keygen.next] at h
      split at h
      · obtain ⟨rfl, rfl⟩ := Prod.mk.inj (Option.some.inj h)
        exact ⟨rfl, .inl ⟨rfl, by simp [Keygen.Holding], by simp [Keygen.Holding],
          fun _ => .inl hpassed⟩⟩
      · rename_i hfree
        obtain ⟨rfl, rfl⟩ := Prod.mk.inj (Option.some.inj h)
        refine ⟨rfl, .inr (.inr (.inl ⟨?_, rfl, hpassed, by simp [Keygen.Holding], rfl⟩))⟩
        simp only [FileSystem.contains, decide_eq_true_eq, not_or, Option.not_isSome_iff_eq_none]
          at hfree
        exact hfree.1.2
    | cons dir rest =>
      simp only [Keygen.next] at h
      split at h
      · rename_i hdir
        obtain ⟨rfl, rfl⟩ := Prod.mk.inj (Option.some.inj h)
        exact ⟨rfl, .inr (.inl ⟨dir, hdir, rfl, hpassed, by simp [Keygen.Holding],
          by simp [Keygen.Holding]⟩)⟩
      all_goals
        obtain ⟨rfl, rfl⟩ := Prod.mk.inj (Option.some.inj h)
        exact ⟨rfl, .inl ⟨rfl, by simp [Keygen.Holding], by simp [Keygen.Holding],
          fun _ => .inl hpassed⟩⟩
  | opened =>
    obtain ⟨rfl, rfl⟩ := Prod.mk.inj (Option.some.inj h)
    exact ⟨rfl, .inr (.inr (.inr ⟨rfl, rfl, rfl⟩))⟩
  | written => cases h
  | refusedExisting => cases h
  | refusedWorktree repo => cases h
  | raised => cases h

variable {start : FileSystem} {path : Path} {node : Node}

/-- A statement leaves every node as it is, but for the file that it writes. -/
theorem next_frame (h : run.next git pem fs = some (fs', run')) (hnode : fs.get? path = some node)
    (hpath : run.Holding → path ≠ run.out) : fs'.get? path = some node := by
  obtain ⟨-, ⟨rfl, -⟩ | ⟨dir, habsent, rfl, -⟩ | ⟨habsent, rfl, -⟩ | ⟨hopened, -, rfl⟩⟩ :=
    next_cases h
  · exact hnode
  · have hne : path ≠ dir := by rintro rfl; rw [habsent] at hnode; cases hnode
    rw [Dict.get?_insert_ne _ _ hne, hnode]
  · have hne : path ≠ run.out := by rintro rfl; rw [habsent] at hnode; cases hnode
    rw [Dict.get?_insert_ne _ _ hne, hnode]
  · rw [Dict.get?_modify, if_neg (hpath (.inl hopened)), hnode]

/-- A run that holds a file has created it, where nothing was. -/
theorem next_holding (h : run.next git pem fs = some (fs', run')) (hholding : run'.Holding) :
    run.Holding ∨ fs.get? run.out = none := by
  obtain ⟨-, ⟨-, -, hnot, -⟩ | ⟨dir, -, -, -, -, hnot⟩ | ⟨habsent, -⟩ | ⟨hopened, -⟩⟩ :=
    next_cases h
  · exact absurd hholding hnot
  · exact absurd hholding hnot
  · exact .inr habsent
  · exact .inl (.inl hopened)

/-- A run does not give up its file. -/
theorem next_keeps (h : run.next git pem fs = some (fs', run')) (hholding : run.Holding) :
    run'.Holding := by
  obtain ⟨-, ⟨-, hnot, -⟩ | ⟨dir, -, -, -, hnot, -⟩ | ⟨-, -, -, hnot, -⟩ | ⟨-, hwritten, -⟩⟩ :=
    next_cases h
  · exact absurd hholding hnot
  · exact absurd hholding hnot
  · exact absurd hholding hnot
  · exact .inr hwritten

/-- A new node is a directory or the file of the run. -/
theorem next_only (h : run.next git pem fs = some (fs', run')) (hnode : fs'.get? path = some node) :
    fs.get? path = some node ∨ node = .directory ∨ (run'.Holding ∧ run'.out = path) := by
  obtain ⟨hargs, ⟨rfl, -⟩ | ⟨dir, -, rfl, -⟩ | ⟨-, rfl, -, -, hopened⟩ | ⟨-, hwritten, rfl⟩⟩ :=
    next_cases h
  · exact .inl hnode
  · rw [Dict.get?_insert] at hnode
    split at hnode
    · exact .inr (.inl (Option.some.inj hnode).symm)
    · exact .inl hnode
  · rw [Dict.get?_insert] at hnode
    split at hnode
    · rename_i hpath
      exact .inr (.inr ⟨.inl hopened, by rw [hargs, hpath]⟩)
    · exact .inl hnode
  · rw [Dict.get?_modify] at hnode
    split at hnode
    · rename_i hpath
      exact .inr (.inr ⟨.inr hwritten, by rw [hargs, hpath]⟩)
    · exact .inl hnode

/-! ### Git working trees -/

/-- No directory above the path has a `.git`. -/
def Outside (fs : FileSystem) (path : Path) : Prop :=
  ∀ dir, dir <+: path.dropLast → fs.get? (dir ++ [".git"]) = none

theorem outside_of_inGitWorktree (h : inGitWorktree git fs path = none) : Outside fs path := by
  intro dir hdir
  have hmem : dir ∈ andParents (if fs.isDir path then path else path.dropLast) := by
    rw [andParents, List.mem_reverse, List.mem_inits]
    split
    · exact hdir.trans (List.dropLast_prefix path)
    · exact hdir
  dsimp only [inGitWorktree] at h
  generalize (if fs.isDir path then path else path.dropLast) = probe at h hmem
  split at h
  · cases h
  · rename_i hnone
    simpa [FileSystem.contains] using List.find?_eq_none.mp hnone dir hmem

/-! ### One run -/

variable (pem) in
/-- What a run can rely on, since the files were `start`. -/
structure Kept (start fs : FileSystem) (run : Keygen Secret) : Prop where
  outside : run.Passed → run.force = true ∨ Outside start run.out
  fresh : run.Holding → start.get? run.out = none
  held : run.Holding → fs.get? run.out = some (.file (run.content pem) run.mode)

theorem Kept.next (h : Kept pem start fs run)
    (hstart : ∀ path node, start.get? path = some node → fs.get? path = some node)
    (hnext : run.next git pem fs = some (fs', run')) : Kept pem start fs' run' := by
  have habsent : ∀ path, fs.get? path = none → start.get? path = none := by
    intro path hfs
    cases hpath : start.get? path with
    | none => rfl
    | some node => rw [hstart _ _ hpath] at hfs; cases hfs
  obtain ⟨hargs, ⟨rfl, -, hnot, hpassed⟩ | ⟨dir, -, -, hpassed, -, hnot⟩ |
    ⟨hfree, rfl, hpassed, -, hopened⟩ | ⟨hopened, hwritten, rfl⟩⟩ := next_cases hnext
  · refine ⟨fun hpassed' => ?_, fun hholding => absurd hholding hnot,
      fun hholding => absurd hholding hnot⟩
    rw [hargs]
    rcases hpassed hpassed' with hpassed | hforce | hgit
    · exact h.outside hpassed
    · exact .inl hforce
    · exact .inr fun dir hdir => habsent _ (outside_of_inGitWorktree hgit dir hdir)
  · refine ⟨fun _ => ?_, fun hholding => absurd hholding hnot,
      fun hholding => absurd hholding hnot⟩
    rw [hargs]
    exact h.outside hpassed
  · refine ⟨fun _ => ?_, fun _ => ?_, fun _ => ?_⟩
    · rw [hargs]
      exact h.outside hpassed
    · rw [hargs]
      exact habsent _ hfree
    · rw [Keygen.content, if_neg (by rw [hopened]; simp), hargs, Dict.get?_insert_self]
  · have hholding : run.Holding := .inl hopened
    refine ⟨fun _ => ?_, fun _ => ?_, fun _ => ?_⟩
    · rw [hargs]
      exact h.outside (.inr (.inr hholding))
    · rw [hargs]
      exact h.fresh hholding
    · have hheld := h.held hholding
      rw [Keygen.content, if_neg (by rw [hopened]; simp)] at hheld
      rw [Keygen.content, if_pos hwritten, hargs, Dict.get?_modify, if_pos rfl, hheld]
      rfl

/-! ### All runs -/

variable (pem) in
/-- The invariant of runs on the files `start`. -/
structure KeygensSafe (start : FileSystem) (p : Parties FileSystem (Keygen Secret)) : Prop where
  before : ∀ path node, start.get? path = some node → p.shared.get? path = some node
  kept : p.Relies (Kept pem start)
  apart : p.members.Pairwise fun a b => a.Holding → b.Holding → a.out ≠ b.out
  only : ∀ path node, p.shared.get? path = some node → start.get? path = some node ∨
    node = .directory ∨ ∃ run ∈ p.members, run.Holding ∧ run.out = path

theorem kept_started (start fs : FileSystem) (args : KeygenArgs Secret) :
    Kept pem start fs ⟨args, .started⟩ := by
  constructor <;> simp [Keygen.Passed, Keygen.Holding]

/-- What another run does keeps what a run relies on, when the two hold different files. -/
theorem Kept.other {other : Keygen Secret} (h : Kept pem start fs other)
    (hnext : run.next git pem fs = some (fs', run'))
    (hapart : run.Holding → other.Holding → run.out ≠ other.out) : Kept pem start fs' other where
  outside := h.outside
  fresh := h.fresh
  held hother :=
    next_frame hnext (h.held hother) fun hholding => (hapart hholding hother).symm

theorem KeygensSafe.step {p q : Parties FileSystem (Keygen Secret)} (h : KeygensSafe pem start p)
    {e : PartyEvent (KeygenArgs Secret) Unit} (hstep : keygenStep git pem p e = some q) :
    KeygensSafe pem start q := by
  have hsymm : ∀ a b : Keygen Secret, (a.Holding → b.Holding → a.out ≠ b.out) →
      b.Holding → a.Holding → b.out ≠ a.out := fun _ _ hab hb ha => (hab ha hb).symm
  refine ⟨?_, ?_, ?_, ?_⟩
  · intro path node hnode
    have hbefore := h.before path node hnode
    cases e with
    | join args =>
      obtain rfl := Option.some.inj hstep
      exact hbefore
    | act i e =>
      obtain ⟨before, run, after, run', -, hmembers, hnext, -⟩ := Parties.step_act hstep
      have hkept := h.kept run (by rw [hmembers]; simp)
      apply next_frame hnext hbefore
      rintro hholding rfl
      rw [hkept.fresh hholding] at hnode
      cases hnode
  · apply h.kept.step_apart h.apart hsymm hstep
    · exact kept_started start p.shared
    · rintro i e run run' rfl hrun hnext
      have hkept := h.kept run (List.mem_of_getElem? hrun)
      exact ⟨hkept.next h.before hnext, fun other hapart hother => hother.other hnext hapart⟩
  · apply Parties.pairwise_step hsymm h.apart hstep
    · intro args run _ _ hholding
      simp [Keygen.Holding] at hholding
    · rintro i e run run' rfl hrun hnext other hother hapart hholds hholding
      rw [(next_cases hnext).1]
      rcases next_holding hnext hholding with hholding | hfree
      · exact hapart hholds hholding
      · intro heq
        have hheld := (h.kept other hother).held hholds
        rw [heq, hfree] at hheld
        cases hheld
  · intro path node hnode
    cases e with
    | join args =>
      obtain rfl := Option.some.inj hstep
      rcases h.only path node hnode with hstart | hdir | ⟨run, hrun, hholding⟩
      · exact .inl hstart
      · exact .inr (.inl hdir)
      · exact .inr (.inr ⟨run, List.mem_append_left _ hrun, hholding⟩)
    | act i e =>
      obtain ⟨before, run, after, run', -, hmembers, hnext, hq⟩ := Parties.step_act hstep
      have hself : run' ∈ q.members := by rw [hq]; simp
      rcases next_only hnext hnode with hnode | hdir | hholding
      · rcases h.only path node hnode with hstart | hdir | ⟨other, hother, hholds, hpath⟩
        · exact .inl hstart
        · exact .inr (.inl hdir)
        · right; right
          rw [hmembers] at hother
          rcases List.mem_append.mp hother with hother | hother
          · exact ⟨other, by rw [hq]; simp [hother], hholds, hpath⟩
          · rcases List.mem_cons.mp hother with rfl | hother
            · exact ⟨run', hself, next_keeps hnext hholds, by rw [(next_cases hnext).1, hpath]⟩
            · exact ⟨other, by rw [hq]; simp [hother], hholds, hpath⟩
      · exact .inr (.inl hdir)
      · exact .inr (.inr ⟨run', hself, hholding⟩)

/-- Whatever the umask, nobody but the owner has a permission. -/
theorem mode_private (args : KeygenArgs Secret) : args.mode &&& 0b000111111#9 = 0#9 := by
  have hnone : 0b110000000#9 &&& 0b000111111#9 = 0#9 := by decide
  rw [KeygenArgs.mode, BitVec.and_assoc, BitVec.and_comm (~~~args.umask), ← BitVec.and_assoc, hnone,
    BitVec.zero_and]

theorem exit?_eq_zero (h : run.exit? = some 0) : run.stage = .written := by
  rw [Keygen.exit?] at h
  split at h
  · assumption
  all_goals cases h

theorem not_passed_exit (h : ¬run.Passed) : run.exit? = none ∨ run.exit? = some 2 := by
  obtain ⟨args, stage⟩ := run
  cases stage with
  | started => exact .inl rfl
  | absent => exact .inl rfl
  | making dirs => exact absurd (.inl ⟨dirs, rfl⟩) h
  | opened => exact .inl rfl
  | written => exact absurd (.inr (.inr (.inr rfl))) h
  | refusedExisting => exact .inr rfl
  | refusedWorktree repo => exact .inr rfl
  | raised => exact absurd (.inr (.inl rfl)) h

theorem keygensSafe_of_run {events : List (PartyEvent (KeygenArgs Secret) Unit)}
    {p : Parties FileSystem (Keygen Secret)}
    (h : Run (keygenStep git pem) Always ⟨start, []⟩ events p) : KeygensSafe pem start p :=
  h.preserves ⟨fun _ _ hnode => hnode, Parties.relies_start _ _, .nil, fun _ _ hnode => .inl hnode⟩
    fun _ _ _ ht _ hstep => ht.step hstep

/-- A run that succeeds has written its key to a path that was free. -/
theorem KeygensSafe.written {p : Parties FileSystem (Keygen Secret)} (h : KeygensSafe pem start p)
    (hrun : run ∈ p.members) (hexit : run.exit? = some 0) : start.get? run.out = none ∧
      p.shared.get? run.out = some (.file (pem run.key) run.mode) := by
  have hwritten := exit?_eq_zero hexit
  have hkept := h.kept run hrun
  have hheld := hkept.held (.inr hwritten)
  rw [Keygen.content, if_pos hwritten] at hheld
  exact ⟨hkept.fresh (.inr hwritten), hheld⟩

/-- However runs of `keygen` on one file system interleave, and wherever any of them is killed: no
node that was there is changed; a file that was not there is the file of a run that has created it,
is for its owner only, and lies in no git working tree unless the run was forced; an unforced run in
a git working tree does not pass its check; runs that succeed have written their keys; and no two
runs have created one file. -/
theorem keygens_safe (git : FileSystem → Path → Option Path) (pem : Secret → List UInt8)
    {events : List (PartyEvent (KeygenArgs Secret) Unit)} {p : Parties FileSystem (Keygen Secret)}
    (h : Run (keygenStep git pem) Always ⟨start, []⟩ events p) :
    (∀ path node, start.get? path = some node → p.shared.get? path = some node) ∧
    (∀ path content mode, start.get? path = none →
      p.shared.get? path = some (.file content mode) →
      mode &&& 0b000111111#9 = 0#9 ∧ ∃ run ∈ p.members, run.Holding ∧ run.out = path ∧
        content = run.content pem ∧ (run.force = true ∨ Outside start path)) ∧
    (∀ run ∈ p.members, run.force = false → ¬Outside start run.out →
      ¬run.Passed ∧ (run.exit? = none ∨ run.exit? = some 2)) ∧
    (∀ run ∈ p.members, run.exit? = some 0 → start.get? run.out = none ∧
      p.shared.get? run.out = some (.file (pem run.key) run.mode)) ∧
    (∀ run ∈ p.members, run.exit? = some 0 → run.Holding) ∧
    p.members.Pairwise fun a b => a.Holding → b.Holding → a.out ≠ b.out := by
  have hsafe := keygensSafe_of_run h
  refine ⟨hsafe.before, ?_, ?_, ?_, ?_, hsafe.apart⟩
  · intro path content mode hfree hfile
    rcases hsafe.only path _ hfile with hbefore | hdir | ⟨run, hrun, hholding, rfl⟩
    · rw [hfree] at hbefore
      cases hbefore
    · cases hdir
    · have hkept := hsafe.kept run hrun
      obtain ⟨rfl, rfl⟩ := Node.file.inj (Option.some.inj ((hkept.held hholding).symm.trans hfile))
      exact ⟨mode_private _, run, hrun, hholding, rfl, rfl,
        hkept.outside (.inr (.inr hholding))⟩
  · intro run hrun hforce hinside
    have hnot : ¬run.Passed := by
      intro hpassed
      rcases (hsafe.kept run hrun).outside hpassed with hforced | houtside
      · rw [hforce] at hforced
        cases hforced
      · exact hinside houtside
    exact ⟨hnot, not_passed_exit hnot⟩
  · intro run hrun hexit
    exact hsafe.written hrun hexit
  · intro run _ hexit
    exact .inr (exit?_eq_zero hexit)

end Statements

/-- A host with `/etc` and with a working tree `/repo`. -/
def sampleHost : FileSystem :=
  ((Dict.empty.insert ["etc"] .directory).insert ["repo"] .directory).insert ["repo", ".git"]
    .directory

/-- Two runs want one path in a directory that is not there, and a third one a path in the working
tree. -/
def sampleKeygens : List (KeygenArgs UInt8) :=
  [⟨["etc", "ble", "key"], false, 0o022#9, 7⟩, ⟨["etc", "ble", "key"], false, 0o022#9, 8⟩,
    ⟨["repo", "key"], false, 0o022#9, 9⟩]

/-- The first two runs take turns, until the first has written its key. -/
def sampleTurns : List (PartyEvent (KeygenArgs UInt8) Unit) :=
  sampleKeygens.map .join ++ [0, 1, 2, 0, 1, 2, 0, 0, 1, 1, 0, 1, 0].map fun i => .act i ()

theorem keygens_safe_sample : ∃ p : Parties FileSystem (Keygen UInt8),
    p.members.map Keygen.exit? = [some 0, some 1, some 2] ∧
      (∀ run ∈ p.members, run.force = false → ¬Outside sampleHost run.out → ¬run.Passed) ∧
      (∀ run ∈ p.members, run.exit? = some 0 →
        p.shared.get? run.out = some (.file [run.key] run.mode)) := by
  have heval : ((Run.execute (keygenStep (fun _ _ => none) fun key : UInt8 => [key])
      ⟨sampleHost, []⟩ sampleTurns).any fun p =>
        decide (p.members.map Keygen.exit? = [some 0, some 1, some 2])) = true := by
    decide +kernel
  obtain ⟨p, hrun, hp⟩ := (Option.any_eq_true _ _).mp heval
  obtain ⟨-, -, hrefused, hwritten, -⟩ := keygens_safe _ _ (.of_execute hrun)
  exact ⟨p, of_decide_eq_true hp, fun run hmem hforce hin => (hrefused run hmem hforce hin).1,
    fun run hmem hexit => (hwritten run hmem hexit).2⟩

/-! ### The key that is printed -/

section Provisioning

open Gateway (Signer canonicalBytes)
open Backend (Db Pydantic RegisterDeviceRequest Request UsageReport Verifies registerDevice serve)

variable {scheme : SignatureScheme}

/-- The public key that the run prints. -/
def Keygen.publicKey (run : Keygen scheme.Secret) : String :=
  Base64.b64encode (scheme.publicKey run.key)

/-- The bytes of a file. -/
def FileSystem.read? (fs : FileSystem) (path : Path) : Option (List UInt8) :=
  match fs.get? path with
  | some (.file content _) => some content
  | _ => none

theorem registerDevice_registered {req : RegisterDeviceRequest} {raw : List UInt8} {db : Db}
    (hraw : Base64.b64decode req.publicKey = .ok raw) (hlength : raw.length = 32)
    (habsent : db.devices.get? req.deviceId = none) (now : Datetime) :
    (registerDevice req now db).2 = .ok (.registered req.deviceId) ∧
      ∃ device, (registerDevice req now db).1.devices.get? req.deviceId = some device ∧
        device.publicKey = req.publicKey := by
  simp only [registerDevice, hraw, hlength, ne_eq, not_true_eq_false, if_false, Db.insertDevice,
    habsent, Option.isSome_none, Bool.false_eq_true, true_and]
  exact ⟨_, Dict.get?_insert_self _ _ _, rfl⟩

/-- Once the printed key of a run is registered for a device that was not registered, the gateway
that loads the file of the run owns the device, after any requests to the backend, and so does no
gateway with another public key: a report that says what the gateway has signed, and carries its
signature, verifies under the key that is stored. -/
theorem keygen_provisions (git : FileSystem → Path → Option Path)
    (pem : scheme.Secret → List UInt8) (py : Pydantic) {start : FileSystem}
    {events : List (PartyEvent (KeygenArgs scheme.Secret) Unit)}
    {p : Parties FileSystem (Keygen scheme.Secret)}
    (hkeygens : Run (keygenStep git pem) Always ⟨start, []⟩ events p)
    {run : Keygen scheme.Secret} (hrun : run ∈ p.members) (hexit : run.exit? = some 0)
    {loadPem : List UInt8 → Except PyException (Option scheme.Secret)}
    (hload : loadPem (pem run.key) = .ok (some run.key))
    (hplain : ¬utf8 "REPLACE_ME" <:+: pem run.key) {req : RegisterDeviceRequest}
    (hreq : req.publicKey = run.publicKey) {db later : Db}
    (habsent : db.devices.get? req.deviceId = none) (now : Datetime) {requests : List Request}
    (hserved : Run (serve scheme py) Always (registerDevice req now db).1 requests later) :
    (registerDevice req now db).2 = .ok (.registered req.deviceId) ∧
    ∃ signer device, Signer.fromFile loadPem (p.shared.read? run.out) = .ok signer ∧
      later.devices.get? req.deviceId = some device ∧
      (∀ other : Signer scheme, other.Owns device ↔
        other.publicKeyBytes = signer.publicKeyBytes) ∧
      ∀ r sig (report : UsageReport), signer.sign r = .ok sig →
        report.canonicalBytes = canonicalBytes r → Base64.b64decode report.signature = .ok sig →
        Verifies scheme report device.publicKey := by
  have hraw : Base64.b64decode req.publicKey = .ok (scheme.publicKey run.key) := by
    rw [hreq, Keygen.publicKey, Base64.b64decode_b64encode]
  obtain ⟨hanswer, device, hdevice, hkey⟩ :=
    registerDevice_registered hraw (scheme.publicKey_length run.key) habsent now
  obtain ⟨device', hdevice', hkey'⟩ := Backend.keepsKeys_of_run hserved _ _ hdevice
  have hstored : device'.publicKey = run.publicKey := by rw [hkey', hkey, hreq]
  have hread : p.shared.read? run.out = some (pem run.key) := by
    rw [FileSystem.read?, ((keygensSafe_of_run hkeygens).written hrun hexit).2]
  have hpublic : Backend.loadPublicKey device'.publicKey = .ok (scheme.publicKey run.key) := by
    rw [hstored]
    exact Backend.loadPublicKey_publicKey run.key
  refine ⟨hanswer, ⟨run.key⟩, device', ?_, hdevice', ?_, ?_⟩
  · rw [hread, Signer.fromFile, if_neg hplain, hload]
  · intro other
    rw [Signer.Owns, hpublic]
    constructor
    · intro h
      exact (Except.ok.inj h).symm
    · intro h
      rw [h]
      rfl
  · intro r sig report hsign hsays hcarries
    obtain ⟨message, hmessage, rfl⟩ := Gateway.sign_eq_ok hsign
    exact ⟨_, _, message, hpublic, hcarries, hsays.trans hmessage,
      scheme.verify_sign run.key message⟩

/-- A registration of the first sample run's key. -/
def sampleRegistration : RegisterDeviceRequest where
  deviceId := "kitchen"
  publicKey := Base64.b64encode (List.replicate 32 7)
  label := none
  deviceId_length := ⟨Nat.le_of_ble_eq_true rfl, Nat.le_of_ble_eq_true rfl⟩
  publicKey_length := Nat.le_of_ble_eq_true rfl

def sampleLoadPem : List UInt8 → Except PyException (Option SignatureScheme.sample.Secret)
  | [key] => .ok (some key)
  | _ => .error .valueError

theorem keygen_provisions_sample :
    ∃ (signer : Signer SignatureScheme.sample) (device : Backend.Device),
      (registerDevice sampleRegistration .epoch .empty).1.devices.get? "kitchen" = some device ∧
        signer.Owns device := by
  have heval : ((Run.execute (keygenStep (fun _ _ => none) fun key : UInt8 => [key])
      ⟨sampleHost, []⟩ sampleTurns).any fun p =>
        p.members.any fun run => decide (run.exit? = some 0 ∧ run.key = 7)) = true := by
    decide +kernel
  obtain ⟨p, hkeygens, hp⟩ := (Option.any_eq_true _ _).mp heval
  obtain ⟨run, hmem, hrun⟩ := List.any_eq_true.mp hp
  obtain ⟨hexit, hkey⟩ := of_decide_eq_true hrun
  have hload : sampleLoadPem [run.key] = .ok (some run.key) := rfl
  have hplain : ¬utf8 "REPLACE_ME" <:+: [run.key] := by
    rw [hkey]
    decide
  have hreq : sampleRegistration.publicKey = @Keygen.publicKey SignatureScheme.sample run := by
    show _ = Base64.b64encode (List.replicate 32 run.key)
    rw [hkey]
    rfl
  have habsent : Db.empty.devices.get? sampleRegistration.deviceId = none := rfl
  obtain ⟨-, signer, device, -, hdevice, howns, -⟩ := keygen_provisions (fun _ _ => none) _
    Backend.samplePydantic (.of_execute hkeygens) hmem hexit hload hplain hreq habsent .epoch .nil
  exact ⟨signer, device, hdevice, (howns signer).mpr rfl⟩

end Provisioning

end BleUsageMeter.Tools
