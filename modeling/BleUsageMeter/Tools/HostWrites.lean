import BleUsageMeter.Tools.Capture
import BleUsageMeter.Tools.Fragments

/-! The packets by which a phone sends writes, and what `parse_acl_att` makes of them.  On LE the
first packet of a PDU has `PB=0b00` from the host to the controller, and `PB=0b10` only from the
controller to the host. -/

namespace BleUsageMeter.Tools

open Kit

/-- A client's write.  Only a prepare write has an offset, and only a signed one a signature. -/
structure AttWrite where
  opcode : UInt8
  opcodeName : String
  handle : Nat
  offset : Nat
  value : List UInt8
  signature : List UInt8
  known : writeOpcodes.lookup opcode = some opcodeName
  handle_lt : handle < 2 ^ 16
  offset_lt : offset < 2 ^ 16

namespace AttWrite

/-- The ATT PDU. -/
def bytes (w : AttWrite) : List UInt8 :=
  w.opcode :: littleEndian 2 w.handle ++
    ((if w.opcode = attPrepareWriteReq then littleEndian 2 w.offset else []) ++ w.value ++
      if w.opcode = attSignedWriteCmd then w.signature else [])

/-- What the parser takes from the PDU: the signature counts as payload. -/
def parsed (w : AttWrite) : GattWrite :=
  ⟨w.opcodeName, w.handle, w.value ++ if w.opcode = attSignedWriteCmd then w.signature else []⟩

theorem parseAtt_bytes (w : AttWrite) : parseAtt w.bytes = some w.parsed := by
  have hhandle : littleEndian 2 w.handle =
      [UInt8.ofNat w.handle, UInt8.ofNat (w.handle / 256)] := rfl
  have hpdu : w.bytes = w.opcode :: UInt8.ofNat w.handle :: UInt8.ofNat (w.handle / 256) ::
      ((if w.opcode = attPrepareWriteReq then littleEndian 2 w.offset else []) ++ w.value ++
        if w.opcode = attSignedWriteCmd then w.signature else []) := by
    rw [bytes, hhandle]
    rfl
  rw [hpdu]
  refine parseAtt_eq_some_iff.mpr ⟨_, _, _, _, rfl, w.known, ?_, ?_⟩
  · rw [← hhandle, ofLittleEndian_littleEndian w.handle_lt]
    rfl
  · by_cases hprepare : w.opcode = attPrepareWriteReq
    · rw [if_pos hprepare, if_pos ⟨hprepare, by simp⟩, List.append_assoc,
        List.drop_left' (littleEndian_length 2 w.offset)]
      rfl
    · rw [if_neg hprepare, if_neg fun h => hprepare h.1, List.nil_append]
      rfl

end AttWrite

/-- The H4 ACL packet of a PDU that is sent in one fragment. -/
def aclPacket (connection pb : Nat) (att : List UInt8) : List UInt8 :=
  h4Acl :: (littleEndian 2 (connection + pb * 2 ^ 12) ++ littleEndian 2 (att.length + 4) ++
    littleEndian 2 att.length ++ littleEndian 2 attCid ++ att)

/-- `PB` of the first packet that the host sends of a PDU. -/
def hostBoundary : Nat := 0b00

variable {connection pb : Nat} {att : List UInt8}

theorem boundary_aclPacket (hconnection : connection < 2 ^ 12) (hpb : pb < 4) :
    boundary (aclPacket connection pb att) = pb := by
  have hdata : aclPacket connection pb att = [h4Acl] ++ littleEndian 2 (connection + pb * 2 ^ 12) ++
      (littleEndian 2 (att.length + 4) ++ littleEndian 2 att.length ++ littleEndian 2 attCid ++
        att) := by
    simp [aclPacket]
  have hmask : pb &&& 3 = pb % 2 ^ 2 := Nat.and_two_pow_sub_one_eq_mod pb 2
  have hshift : (connection + pb * 2 ^ 12) >>> 12 = pb := by
    rw [Nat.shiftRight_eq_div_pow]
    omega
  have hfield : ofLittleEndian (slice (aclPacket connection pb att) 1 3) =
      connection + pb * 2 ^ 12 := ofLittleEndian_slice hdata rfl rfl (by omega)
  rw [boundary, hfield, hshift, hmask]
  omega

theorem aclLen_aclPacket (hfits : att.length + 4 < 2 ^ 16) :
    aclLen (aclPacket connection pb att) = att.length + 4 := by
  have hdata : aclPacket connection pb att =
      h4Acl :: littleEndian 2 (connection + pb * 2 ^ 12) ++ littleEndian 2 (att.length + 4) ++
        (littleEndian 2 att.length ++ littleEndian 2 attCid ++ att) := by
    simp [aclPacket]
  exact ofLittleEndian_slice hdata (by simp) rfl hfits

theorem l2capLen_aclPacket (hfits : att.length + 4 < 2 ^ 16) :
    l2capLen (aclPacket connection pb att) = att.length := by
  have hdata : aclPacket connection pb att =
      h4Acl :: (littleEndian 2 (connection + pb * 2 ^ 12) ++ littleEndian 2 (att.length + 4)) ++
        littleEndian 2 att.length ++ (littleEndian 2 attCid ++ att) := by
    simp [aclPacket]
  exact ofLittleEndian_slice hdata (by simp) rfl (by omega)

theorem channel_aclPacket : channel (aclPacket connection pb att) = attCid := by
  have hdata : aclPacket connection pb att =
      h4Acl :: (littleEndian 2 (connection + pb * 2 ^ 12) ++ littleEndian 2 (att.length + 4) ++
        littleEndian 2 att.length) ++ littleEndian 2 attCid ++ att := by
    simp [aclPacket]
  exact ofLittleEndian_slice hdata (by simp) rfl (by decide)

theorem fragment_aclPacket (hfits : att.length + 4 < 2 ^ 16) :
    fragment (aclPacket connection pb att) = att := by
  have hdata : aclPacket connection pb att =
      h4Acl :: (littleEndian 2 (connection + pb * 2 ^ 12) ++ littleEndian 2 (att.length + 4) ++
        littleEndian 2 att.length ++ littleEndian 2 attCid) ++ att ++ [] := by
    simp [aclPacket]
  rw [fragment, aclLen_aclPacket hfits, l2capLen_aclPacket hfits]
  exact slice_middle hdata (by simp) (by omega)

/-- A write is parsed from its packet when the packet has the boundary flag that the parser asks
for. -/
theorem parseAclAtt_aclPacket (w : AttWrite) (hconnection : connection < 2 ^ 12) (hpb : pb < 4)
    (hfits : w.bytes.length + 4 < 2 ^ 16) :
    parseAclAtt (aclPacket connection pb w.bytes) = if pb = 0x02 then some w.parsed else none := by
  have hlength : 9 ≤ (aclPacket connection pb w.bytes).length := by
    simp only [aclPacket, List.length_cons, List.length_append, littleEndian_length]
    omega
  rw [parseAclAtt_eq, boundary_aclPacket hconnection hpb, aclLen_aclPacket hfits,
    channel_aclPacket, fragment_aclPacket hfits, w.parseAtt_bytes]
  by_cases hflag : pb = 0x02
  · rw [if_pos hflag, if_pos ⟨hlength, rfl, hflag, by omega, rfl⟩]
  · rw [if_neg hflag, if_neg fun h => hflag h.2.2.1]

/-! ### The phone's own writes -/

theorem collect_bytes (c : Capture) (prefixLen : Int) :
    collect c.bytes prefixLen = .ok ((c.records.filterMap fun r => parseAclAtt r.packet).foldl
      (fun groups w => tally groups (w.key prefixLen)) .empty) := by
  have hrecords : iterRecords c.bytes = .ok (c.records.map Record.yielded) := iterRecords_bytes c
  simp only [collect, hrecords, bind, Except.bind, pure, Except.pure]
  congr 1
  generalize (Dict.empty : Dict (String × Nat × String) Nat) = groups
  induction c.records generalizing groups with
  | nil => rfl
  | cons r rest ih =>
    rw [List.map_cons, List.foldl_cons, ih, Record.yielded]
    cases hparsed : parseAclAtt r.packet with
    | none => simp only [List.filterMap_cons, hparsed]
    | some w => simp only [List.filterMap_cons, hparsed, List.foldl_cons]

/-- A phone's write of any kind is not parsed from the packet by which the phone sends it, and a
capture that has the packet is counted as if it did not have it. -/
theorem host_write_unseen (w : AttWrite) (connection : Nat) (hconnection : connection < 2 ^ 12)
    (hfits : w.bytes.length + 4 < 2 ^ 16) :
    parseAclAtt (aclPacket connection hostBoundary w.bytes) = none ∧
      ∀ (file : Capture) (before after : List Record) (r : Record) (prefixLen : Int),
        r.packet = aclPacket connection hostBoundary w.bytes →
        collect { file with records := before ++ r :: after }.bytes prefixLen =
          collect { file with records := before ++ after }.bytes prefixLen := by
  have hunseen : parseAclAtt (aclPacket connection hostBoundary w.bytes) = none := by
    rw [parseAclAtt_aclPacket w hconnection (by decide) hfits, if_neg (by decide)]
  refine ⟨hunseen, ?_⟩
  intro file before after r prefixLen hpacket
  have hsame : (before ++ r :: after).filterMap (fun r => parseAclAtt r.packet) =
      (before ++ after).filterMap fun r => parseAclAtt r.packet := by
    rw [List.filterMap_append, List.filterMap_append, List.filterMap_cons_none]
    rw [hpacket, hunseen]
  rw [collect_bytes, collect_bytes, hsame]

/-- A write request of two bytes to handle 16. -/
def sampleWrite : AttWrite :=
  ⟨attWriteReq, "write_req", 16, 0, [0xA1, 0x01], [], rfl, of_decide_eq_true rfl,
    of_decide_eq_true rfl⟩

theorem host_write_unseen_sample :
    parseAclAtt
      [0x02, 0x40, 0x00, 0x09, 0x00, 0x05, 0x00, 0x04, 0x00, 0x12, 0x10, 0x00, 0xA1, 0x01] = none :=
  (host_write_unseen sampleWrite 0x40 (by decide) (by decide)).1

theorem sample_write_unseen :
    ¬∀ (w : AttWrite) (connection : Nat), connection < 2 ^ 12 → w.bytes.length + 4 < 2 ^ 16 →
      parseAclAtt (aclPacket connection hostBoundary w.bytes) =
        some ⟨w.opcodeName, w.handle, w.value⟩ := by
  intro h
  have hparsed := h sampleWrite 0x40 (by decide) (by decide)
  have hunseen : parseAclAtt (aclPacket 0x40 hostBoundary sampleWrite.bytes) = none := by decide
  cases hunseen.symm.trans hparsed

end BleUsageMeter.Tools
