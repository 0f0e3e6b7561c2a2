import BleUsageMeter.Tools.ParseSnoop

/-! `iter_records` over the files that an Android phone writes, also when they are cut off: it
yields the records that are there in whole, and stops. -/

namespace BleUsageMeter.Tools

open Kit

/-- A record of a btsnoop file whose `incl_len` is the length of its packet. -/
structure Record where
  origLen : Nat
  flags : Nat
  drops : Nat
  ts : Int
  packet : List UInt8
  origLen_lt : origLen < 2 ^ 32
  flags_lt : flags < 2 ^ 32
  drops_lt : drops < 2 ^ 32
  ts_ge : -2 ^ 63 ≤ ts
  ts_lt : ts < 2 ^ 63
  packet_lt : packet.length < 2 ^ 32

namespace Record

/-- `struct.pack` of the header, in two's complement for the time. -/
def header (r : Record) : List UInt8 :=
  bigEndian 4 r.origLen ++ bigEndian 4 r.packet.length ++ bigEndian 4 r.flags ++
    bigEndian 4 r.drops ++ bigEndian 8 (r.ts % 2 ^ 64).toNat

def bytes (r : Record) : List UInt8 := r.header ++ r.packet

/-- What `iter_records` yields of a record. -/
def yielded (r : Record) : Nat × List UInt8 := (r.flags, r.packet)

theorem header_length (r : Record) : r.header.length = RecordHeader.size := by
  simp [header, RecordHeader.size]

theorem bytes_length (r : Record) : r.bytes.length = RecordHeader.size + r.packet.length := by
  rw [bytes, List.length_append, header_length]

end Record

/-- A btsnoop file: 16 bytes that begin with the magic, and some records. -/
structure Capture where
  header : List UInt8
  records : List Record
  magic : btsnoopMagic <+: header
  header_length : header.length = 16

def Capture.bytes (c : Capture) : List UInt8 := c.header ++ c.records.flatMap Record.bytes

/-- The packets are slices of the data, each after a record header that follows the one before. -/
def Slices (data : List UInt8) : Nat → List (Nat × List UInt8) → Prop
  | _, [] => True
  | off, (flags, packet) :: rest =>
    let start := off + RecordHeader.size
    start + packet.length ≤ data.length ∧ packet = slice data start (start + packet.length) ∧
      flags = (RecordHeader.unpackFrom data off).flags ∧
      Slices data (start + packet.length) rest

/-! ### One record -/

theorem unpackFrom_cut {cut file : List UInt8} (h : cut <+: file) {off : Nat}
    (hoff : off + RecordHeader.size ≤ cut.length) :
    RecordHeader.unpackFrom cut off = RecordHeader.unpackFrom file off := by
  simp only [RecordHeader.size] at hoff
  have hslice : ∀ start stop, stop ≤ off + 24 → slice file start stop = slice cut start stop :=
    fun start stop hstop => slice_of_prefix h (by omega) start
  simp only [RecordHeader.unpackFrom]
  rw [hslice _ (off + 4) (by omega), hslice _ (off + 8) (by omega), hslice _ (off + 12) (by omega),
    hslice _ (off + 16) (by omega), hslice _ (off + 24) (by omega)]

theorem unpackFrom_header (before : List UInt8) (r : Record) (after : List UInt8) :
    (RecordHeader.unpackFrom (before ++ r.bytes ++ after) before.length).inclLen =
        r.packet.length ∧
      (RecordHeader.unpackFrom (before ++ r.bytes ++ after) before.length).flags = r.flags := by
  constructor
  · have hdata : before ++ r.bytes ++ after = before ++ bigEndian 4 r.origLen ++
        bigEndian 4 r.packet.length ++ (bigEndian 4 r.flags ++ bigEndian 4 r.drops ++
          bigEndian 8 (r.ts % 2 ^ 64).toNat ++ r.packet ++ after) := by
      simp [Record.bytes, Record.header]
    exact ofBigEndian_slice hdata (by simp) rfl r.packet_lt
  · have hdata : before ++ r.bytes ++ after =
        before ++ bigEndian 4 r.origLen ++ bigEndian 4 r.packet.length ++ bigEndian 4 r.flags ++
          (bigEndian 4 r.drops ++ bigEndian 8 (r.ts % 2 ^ 64).toNat ++ r.packet ++ after) := by
      simp [Record.bytes, Record.header]
    exact ofBigEndian_slice hdata (by simp) rfl r.flags_lt

theorem slice_packet (before : List UInt8) (r : Record) (after : List UInt8) :
    slice (before ++ r.bytes ++ after) (before.length + RecordHeader.size)
      (before.length + RecordHeader.size + r.packet.length) = r.packet := by
  have hdata : before ++ r.bytes ++ after = before ++ r.header ++ r.packet ++ after := by
    simp [Record.bytes]
  apply slice_middle hdata
  · rw [List.length_append, r.header_length]
  · rfl

theorem iterFrom_record {cut before after : List UInt8} {r : Record}
    (h : cut <+: before ++ r.bytes ++ after) (hwhole : (before ++ r.bytes).length ≤ cut.length) :
    iterFrom cut before.length = r.yielded :: iterFrom cut (before ++ r.bytes).length := by
  rw [List.length_append, r.bytes_length, ← Nat.add_assoc] at hwhole ⊢
  obtain ⟨hinclLen, hflags⟩ := unpackFrom_header before r after
  have hunpack : RecordHeader.unpackFrom cut before.length =
      RecordHeader.unpackFrom (before ++ r.bytes ++ after) before.length :=
    unpackFrom_cut h (by omega)
  rw [iterFrom, if_pos (by omega)]
  simp only [hunpack, hinclLen, hflags]
  rw [if_neg (by omega), ← slice_of_prefix h (by omega), slice_packet]
  rfl

theorem iterFrom_cut {cut before after : List UInt8} {r : Record}
    (h : cut <+: before ++ r.bytes ++ after) (hcut : cut.length < (before ++ r.bytes).length) :
    iterFrom cut before.length = [] := by
  rw [List.length_append, r.bytes_length, ← Nat.add_assoc] at hcut
  rw [iterFrom]
  split
  · rename_i hheader
    simp only [unpackFrom_cut h hheader, (unpackFrom_header before r after).1]
    rw [if_pos (by omega)]
  · rfl

/-! ### A file that is cut off -/

/-- From the end of what was read on, the records are yielded up to the first that is not there in
whole. -/
theorem iterFrom_records {cut : List UInt8} (records : List Record) {before : List UInt8}
    (h : cut <+: before ++ records.flatMap Record.bytes) :
    ∃ n, (∀ i < records.length, i < n ↔
        (before ++ (records.take (i + 1)).flatMap Record.bytes).length ≤ cut.length) ∧
      iterFrom cut before.length = (records.take n).map Record.yielded := by
  induction records generalizing before with
  | nil =>
    have hend : ¬before.length + RecordHeader.size ≤ cut.length := by
      have := h.length_le
      simp only [List.flatMap_nil, List.append_nil, RecordHeader.size] at this ⊢
      omega
    refine ⟨0, fun i hi => (nomatch hi), ?_⟩
    rw [iterFrom, if_neg hend]
    rfl
  | cons r rest ih =>
    rw [List.flatMap_cons, ← List.append_assoc] at h
    by_cases hwhole : (before ++ r.bytes).length ≤ cut.length
    · obtain ⟨n, hwithin, hrest⟩ := ih h
      refine ⟨n + 1, ?_, ?_⟩
      · intro i hi
        cases i with
        | zero => simpa using hwhole
        | succ i =>
          rw [Nat.succ_lt_succ_iff, List.take_succ_cons, List.flatMap_cons, ← List.append_assoc]
          exact hwithin i (Nat.lt_of_succ_lt_succ hi)
      · rw [iterFrom_record h hwhole, hrest]
        rfl
    · refine ⟨0, ?_, iterFrom_cut h (Nat.lt_of_not_le hwhole)⟩
      intro i _
      simp only [Nat.not_lt_zero, false_iff]
      intro hle
      rw [List.take_succ_cons, List.flatMap_cons, ← List.append_assoc, List.length_append] at hle
      omega

theorem iterRecords_bytes (c : Capture) :
    iterRecords c.bytes = .ok (c.records.map Record.yielded) := by
  obtain ⟨n, hwithin, hyields⟩ := iterFrom_records c.records (List.prefix_refl c.bytes)
  have hall : c.records.length ≤ n := by
    by_contra hfew
    rw [Nat.not_le] at hfew
    apply Nat.lt_irrefl n
    rw [hwithin n hfew, Capture.bytes, List.length_append, List.length_append]
    apply Nat.add_le_add_left
    exact ((List.take_prefix _ _).flatMap _).length_le
  have hmagic : btsnoopMagic <+: c.bytes := c.magic.trans (List.prefix_append _ _)
  rw [c.header_length, List.take_of_length_le hall] at hyields
  rw [iterRecords, if_pos (List.isPrefixOf_iff_prefix.mpr hmagic), hyields]

/-- Whatever the data, what is yielded are slices of it, one after the other. -/
theorem slices_iterFrom (data : List UInt8) (off : Nat) : Slices data off (iterFrom data off) := by
  induction off using iterFrom.induct data with
  | case1 off hheader header start hlong =>
    rw [iterFrom, if_pos hheader, if_pos hlong]
    trivial
  | case2 off hheader header start hwithin ih =>
    have hlength : (slice data start (start + header.inclLen)).length = header.inclLen := by
      rw [slice_length]
      omega
    rw [iterFrom, if_pos hheader, if_neg hwithin]
    refine ⟨?_, ?_, rfl, ?_⟩
    · rw [hlength]
      exact Nat.le_of_not_lt hwithin
    · rw [hlength]
    · rw [hlength]
      exact ih
  | case3 off hheader =>
    rw [iterFrom, if_neg hheader]
    trivial

/-- `iter_records` yields the records of a file that end within what there is of it, in their order,
when at least the magic is there.  Whatever follows a magic, it yields slices of the data, one after
the other. -/
theorem iterRecords_yields :
    (∀ (c : Capture) (cut : List UInt8), cut <+: c.bytes → btsnoopMagic <+: cut →
      ∃ n, (∀ i < c.records.length, i < n ↔
          (c.header ++ (c.records.take (i + 1)).flatMap Record.bytes).length ≤ cut.length) ∧
        iterRecords cut = .ok ((c.records.take n).map Record.yielded)) ∧
    ∀ data, btsnoopMagic <+: data →
      ∃ yielded, iterRecords data = .ok yielded ∧ Slices data 16 yielded := by
  constructor
  · intro c cut hcut hmagic
    obtain ⟨n, hwithin, hyields⟩ := iterFrom_records c.records hcut
    rw [c.header_length] at hyields
    refine ⟨n, hwithin, ?_⟩
    rw [iterRecords, if_pos (List.isPrefixOf_iff_prefix.mpr hmagic), hyields]
  · intro data hmagic
    exact ⟨_, if_pos (List.isPrefixOf_iff_prefix.mpr hmagic), slices_iterFrom data 16⟩

/-- A file with two records, cut off within the second one's packet. -/
theorem iterRecords_yields_sample :
    iterRecords (btsnoopMagic ++ [0, 0, 0, 1, 0, 0, 3, 0xEA] ++
      [0, 0, 0, 2, 0, 0, 0, 2, 0, 0, 0, 1, 0, 0, 0, 0, 0, 0, 0, 0, 0, 0, 0, 5, 0xAA, 0xBB] ++
      [0, 0, 0, 3, 0, 0, 0, 3, 0, 0, 0, 0, 0, 0, 0, 0, 0, 0, 0, 0, 0, 0, 0, 6, 0xCC]) =
      .ok [(1, [0xAA, 0xBB])] := by
  let first : Record := ⟨2, 1, 0, 5, [0xAA, 0xBB], by decide, by decide, by decide, by decide,
    by decide, by decide⟩
  let second : Record := ⟨3, 0, 0, 6, [0xCC, 0xDD, 0xEE], by decide, by decide, by decide,
    by decide, by decide, by decide⟩
  let file : Capture := ⟨btsnoopMagic ++ [0, 0, 0, 1, 0, 0, 3, 0xEA], [first, second],
    List.prefix_append _ _, rfl⟩
  have hcut : file.bytes.take 67 = btsnoopMagic ++ [0, 0, 0, 1, 0, 0, 3, 0xEA] ++
      [0, 0, 0, 2, 0, 0, 0, 2, 0, 0, 0, 1, 0, 0, 0, 0, 0, 0, 0, 0, 0, 0, 0, 5, 0xAA, 0xBB] ++
      [0, 0, 0, 3, 0, 0, 0, 3, 0, 0, 0, 0, 0, 0, 0, 0, 0, 0, 0, 0, 0, 0, 0, 6, 0xCC] := by
    decide
  have hmagic : btsnoopMagic <+: file.bytes.take 67 := ⟨(file.bytes.take 67).drop 8, by decide⟩
  obtain ⟨n, hwithin, hyields⟩ :=
    iterRecords_yields.1 file (file.bytes.take 67) (List.take_prefix _ _) hmagic
  have hfirst : 0 < n := (hwithin 0 (by decide)).mpr (by decide)
  have hsecond : ¬1 < n := fun h => absurd ((hwithin 1 (by decide)).mp h) (by decide)
  obtain rfl : n = 1 := by omega
  rw [← hcut, hyields]
  rfl

end BleUsageMeter.Tools
