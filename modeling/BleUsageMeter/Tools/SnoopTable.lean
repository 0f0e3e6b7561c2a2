import Mathlib.Data.List.Sort
import Mathlib.Data.Prod.Lex
import Mathlib.Data.String.Basic
import BleUsageMeter.Kit.Occurrences
import BleUsageMeter.Tools.ParseSnoop

/-! What `parse_snoop.py` prints of a capture.  "The write that tracks your action should appear
once per cycle you drove": the table has exact counts, and is a part of the sorted list of all
groups. -/

namespace BleUsageMeter.Tools

open Kit

/-- A tuple `(count, (opcode_name, handle, prefix))`, with Python's order on tuples. -/
abbrev Row : Type := ℕ ×ₗ String ×ₗ ℕ ×ₗ String

def row (count : Nat) (key : String × Nat × String) : Row :=
  toLex (count, toLex (key.1, toLex (key.2.1, key.2.2)))

/-- `l[:n]`, from the end for a negative `n`. -/
def sliceTo {α : Type} (l : List α) (n : Int) : List α :=
  if 0 ≤ n then l.take n.toNat else l.take (l.length - n.natAbs)

/-- `rows`, after they are sorted. -/
def rowsOf (groups : Dict (String × Nat × String) Nat) (minCount : Int) : List Row :=
  ((groups.entries.filter fun g => minCount ≤ g.2).map fun g => row g.2 g.1).insertionSort (· ≥ ·)

inductive SnoopOutput
  | noSuchFile
  | cannotParse (exc : PyException)
  | noWrites
  | table (rows : List Row)

/-- `main`: the exit status, and what is printed.  `file` is the content of the file, if there is
one. -/
def snoopMain (file : Option (List UInt8)) (prefixLen minCount top : Int) : Nat × SnoopOutput :=
  match file with
  | none => (2, .noSuchFile)
  | some data =>
    match collect data prefixLen with
    | .error exc => (2, .cannotParse exc)
    | .ok groups =>
      let rows := rowsOf groups minCount
      if rows = [] then (0, .noWrites) else (0, .table (sliceTo rows top))

/-- The groups of the writes that are parsed in a file, one for each write. -/
def keysOf (data : List UInt8) (prefixLen : Int) : List (String × Nat × String) :=
  ((iterFrom data 16).filterMap fun record => parseAclAtt record.2).map fun w => w.key prefixLen

/-! ### Groups and rows -/

theorem row_injective {count count' : Nat} {key key' : String × Nat × String}
    (h : row count key = row count' key') : count = count' ∧ key = key' := by
  obtain ⟨a, b, c⟩ := key
  obtain ⟨a', b', c'⟩ := key'
  simpa [row] using h

theorem collect_eq (data : List UInt8) (prefixLen : Int) (h : btsnoopMagic <+: data) :
    collect data prefixLen = .ok (occurrences (keysOf data prefixLen)) := by
  have hrecords : iterRecords data = .ok (iterFrom data 16) :=
    if_pos (List.isPrefixOf_iff_prefix.mpr h)
  simp only [collect, hrecords, bind, Except.bind, pure, Except.pure, keysOf, occurrences]
  congr 1
  generalize (Dict.empty : Dict (String × Nat × String) Nat) = groups
  induction iterFrom data 16 generalizing groups with
  | nil => rfl
  | cons record rest ih =>
    rw [List.foldl_cons, ih, List.filterMap_cons]
    cases parseAclAtt record.2 with
    | none => rfl
    | some w => rfl

theorem mem_rowsOf {keys : List (String × Nat × String)} {minCount : Int} {count : Nat}
    {key : String × Nat × String} : row count key ∈ rowsOf (occurrences keys) minCount ↔
      key ∈ keys ∧ count = keys.countP (· = key) ∧ minCount ≤ count := by
  rw [rowsOf, List.mem_insertionSort, List.mem_map]
  constructor
  · rintro ⟨⟨key', count'⟩, hmem, hrow⟩
    obtain ⟨rfl, rfl⟩ := row_injective hrow
    obtain ⟨hentry, hmin⟩ := List.mem_filter.mp hmem
    obtain ⟨hkey, hcount⟩ := mem_occurrences.mp hentry
    exact ⟨hkey, hcount, of_decide_eq_true hmin⟩
  · rintro ⟨hkey, hcount, hmin⟩
    exact ⟨(key, count), List.mem_filter.mpr ⟨mem_occurrences.mpr ⟨hkey, hcount⟩,
      decide_eq_true hmin⟩, rfl⟩

theorem rowsOf_pairwise (groups : Dict (String × Nat × String) Nat) (minCount : Int) :
    (rowsOf groups minCount).Pairwise (· > ·) := by
  have hentries : groups.entries.Nodup := .of_map _ groups.nodup
  have hnodup : (rowsOf groups minCount).Nodup := by
    rw [rowsOf, (List.perm_insertionSort _ _).nodup_iff]
    refine (hentries.filter _).map ?_
    rintro ⟨key, count⟩ ⟨key', count'⟩ hrow
    obtain ⟨rfl, rfl⟩ := row_injective hrow
    rfl
  have hsorted : (rowsOf groups minCount).Pairwise (· ≥ ·) := List.pairwise_insertionSort _ _
  exact (hsorted.and hnodup).imp fun h => lt_of_le_of_ne h.1 (Ne.symm h.2)

/-- With no group hidden, the rows count every write once. -/
theorem rowsOf_sum {keys : List (String × Nat × String)} {minCount : Int} (h : minCount ≤ 1) :
    ((rowsOf (occurrences keys) minCount).map fun r => (ofLex r).1).sum = keys.length := by
  have hall : (occurrences keys).entries.filter (fun g => decide (minCount ≤ g.2)) =
      (occurrences keys).entries := by
    apply List.filter_eq_self.mpr
    intro g hg
    obtain ⟨hkey, hcount⟩ := mem_occurrences.mp hg
    have hpos : 0 < keys.countP (· = g.1) :=
      List.countP_pos_iff.mpr ⟨g.1, hkey, decide_eq_true rfl⟩
    rw [decide_eq_true_eq, hcount]
    omega
  rw [← sum_occurrences keys, rowsOf, hall, ((List.perm_insertionSort _ _).map _).sum_eq,
    List.map_map]
  rfl

/-- The table of a capture is a part of the list of all groups with at least `minCount` writes, each
with the number of its writes, in strictly descending order; the rows of that list count every
write once when `minCount` hides none. -/
theorem snoopMain_table {data : List UInt8} (h : btsnoopMagic <+: data)
    (prefixLen minCount top : Int) :
    ∃ rows : List Row, rows.Pairwise (· > ·) ∧
      (∀ count key, row count key ∈ rows ↔ key ∈ keysOf data prefixLen ∧
        count = (keysOf data prefixLen).countP (· = key) ∧ minCount ≤ count) ∧
      (minCount ≤ 1 →
        (rows.map fun r => (ofLex r).1).sum = (keysOf data prefixLen).length) ∧
      snoopMain (some data) prefixLen minCount top =
        (0, if rows = [] then .noWrites else .table (sliceTo rows top)) := by
  refine ⟨rowsOf (occurrences (keysOf data prefixLen)) minCount, rowsOf_pairwise _ _,
    fun _ _ => mem_rowsOf, rowsOf_sum, ?_⟩
  simp only [snoopMain, collect_eq data prefixLen h]
  split <;> rfl

/-- A record in which a write request of two bytes is received. -/
def sampleRecord (handle high low : UInt8) : List UInt8 :=
  [0, 0, 0, 14, 0, 0, 0, 14, 0, 0, 0, 1, 0, 0, 0, 0, 0, 0, 0, 0, 0, 0, 0, 5] ++
    [0x02, 0x40, 0x20, 0x09, 0, 0x05, 0, 0x04, 0, 0x12, handle, 0, high, low]

/-- A file with six writes in three groups. -/
def sampleLog : List UInt8 :=
  btsnoopMagic ++ [0, 0, 0, 1, 0, 0, 3, 0xEA] ++
    (sampleRecord 17 0xB0 0 ++ sampleRecord 16 0xA1 1 ++ sampleRecord 16 0xA1 0xFF) ++
    (sampleRecord 16 0xA1 1 ++ sampleRecord 17 0xB0 0 ++ sampleRecord 16 0xA1 1)

/-- Of the three groups one is too small and one is below the top row. -/
theorem snoopMain_table_sample : ∃ rows : List Row,
    rows = [row 3 ("write_req", 16, "a101"), row 2 ("write_req", 17, "b000")] ∧
      snoopMain (some sampleLog) 2 2 1 =
        (0, if rows = [] then .noWrites else .table (sliceTo rows 1)) := by
  have hmagic : btsnoopMagic <+: sampleLog := ⟨sampleLog.drop 8, rfl⟩
  have hkeys : keysOf sampleLog 2 = [("write_req", 17, "b000"), ("write_req", 16, "a101"),
      ("write_req", 16, "a1ff"), ("write_req", 16, "a101"), ("write_req", 17, "b000"),
      ("write_req", 16, "a101")] := by
    decide +kernel
  obtain ⟨rows, hsorted, hrows, -, hmain⟩ := snoopMain_table hmagic 2 2 1
  rw [hkeys] at hrows
  refine ⟨rows, ?_, hmain⟩
  have hpairwise : List.Pairwise (· > ·)
      [row 3 ("write_req", 16, "a101"), row 2 ("write_req", 17, "b000")] := by
    simp [row, Prod.Lex.toLex_lt_toLex]
  apply List.Perm.eq_of_pairwise' hsorted hpairwise
  apply (List.perm_ext_iff_of_nodup (hsorted.imp ne_of_gt) (hpairwise.imp ne_of_gt)).mpr
  intro r
  obtain ⟨count, key, rfl⟩ : ∃ count key, r = row count key :=
    ⟨r.1, (r.2.1, r.2.2.1, r.2.2.2), rfl⟩
  refine (hrows count key).trans ⟨?_, ?_⟩
  · rintro ⟨hkey, rfl, hmin⟩
    simp only [List.mem_cons, List.not_mem_nil, or_false] at hkey
    rcases hkey with rfl | rfl | rfl | rfl | rfl | rfl
    all_goals first
      | exact List.mem_cons_self
      | exact List.mem_cons_of_mem _ List.mem_cons_self
      | exact absurd hmin (by decide)
  · intro hrow
    simp only [List.mem_cons, List.not_mem_nil, or_false] at hrow
    rcases hrow with hrow | hrow
    · obtain ⟨rfl, rfl⟩ := row_injective hrow
      decide
    · obtain ⟨rfl, rfl⟩ := row_injective hrow
      decide

end BleUsageMeter.Tools
