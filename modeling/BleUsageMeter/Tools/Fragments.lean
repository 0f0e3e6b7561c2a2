import BleUsageMeter.Tools.ParseSnoop

/-! Which packets `parse_acl_att` reads a whole write from.  It takes two slices by lengths that the
packet declares, and checks of neither that it is there in full. -/

namespace BleUsageMeter.Tools

open Kit

variable {pkt : List UInt8} {w : GattWrite}

/-! ### What the parser reads -/

def boundary (pkt : List UInt8) : Nat := (ofLittleEndian (slice pkt 1 3) >>> 12) &&& 0x03

def aclLen (pkt : List UInt8) : Nat := ofLittleEndian (slice pkt 3 5)

def l2capLen (pkt : List UInt8) : Nat := ofLittleEndian (slice pkt 5 7)

def channel (pkt : List UInt8) : Nat := ofLittleEndian (slice pkt 7 9)

/-- The ATT PDU, if it is there in whole. -/
def pdu (pkt : List UInt8) : List UInt8 := slice pkt 9 (9 + l2capLen pkt)

/-- What there is of the ATT PDU within the packet. -/
def fragment (pkt : List UInt8) : List UInt8 :=
  slice pkt 9 (min (5 + aclLen pkt) (9 + l2capLen pkt))

theorem parseAclAtt_eq (pkt : List UInt8) :
    parseAclAtt pkt =
      if 9 ≤ pkt.length ∧ pkt.head? = some h4Acl ∧ boundary pkt = 0x02 ∧ 4 ≤ aclLen pkt ∧
        channel pkt = attCid then parseAtt (fragment pkt)
      else none := by
  by_cases hframed : pkt.length < 9 ∨ pkt.head? ≠ some h4Acl
  · rw [parseAclAtt, if_pos hframed, if_neg]
    rintro ⟨hlength, htype, -⟩
    rcases hframed with hshort | hother
    · omega
    · exact hother htype
  rw [parseAclAtt, if_neg hframed]
  rw [not_or, Nat.not_lt, not_not] at hframed
  obtain ⟨hlength, htype⟩ := hframed
  have hbody : (slice pkt 5 (5 + aclLen pkt)).length < 4 ↔ ¬4 ≤ aclLen pkt := by
    rw [slice_length]
    omega
  show (if boundary pkt ≠ 0x02 then none
    else if (slice pkt 5 (5 + aclLen pkt)).length < 4 then none
    else if ofLittleEndian (slice (slice pkt 5 (5 + aclLen pkt)) 2 4) ≠ attCid then none
    else parseAtt (slice (slice pkt 5 (5 + aclLen pkt)) 4
      (4 + ofLittleEndian (slice (slice pkt 5 (5 + aclLen pkt)) 0 2)))) = _
  by_cases hlong : 4 ≤ aclLen pkt
  · have hchannel : ofLittleEndian (slice (slice pkt 5 (5 + aclLen pkt)) 2 4) = channel pkt := by
      rw [slice_slice, Nat.min_eq_right (by omega), channel]
    have hl2cap : ofLittleEndian (slice (slice pkt 5 (5 + aclLen pkt)) 0 2) = l2capLen pkt := by
      rw [slice_slice, Nat.min_eq_right (by omega), l2capLen]
    have hatt : slice (slice pkt 5 (5 + aclLen pkt)) 4 (4 + l2capLen pkt) = fragment pkt := by
      rw [slice_slice, ← Nat.add_assoc, fragment]
    rw [if_neg (hbody.not.mpr (not_not.mpr hlong)), hchannel, hl2cap, hatt]
    simp only [ite_not, hlength, htype, hlong, true_and, ← ite_and]
  · rw [if_pos (hbody.mpr hlong), ite_self, if_neg fun h => hlong h.2.2.2.1]

theorem parseAtt_eq_some_iff {att : List UInt8} :
    parseAtt att = some w ↔
      ∃ opcode low high payload, att = opcode :: low :: high :: payload ∧
        writeOpcodes.lookup opcode = some w.opcodeName ∧ w.handle = ofLittleEndian [low, high] ∧
        w.payload = if opcode = attPrepareWriteReq ∧ 2 ≤ payload.length then payload.drop 2
          else payload := by
  constructor
  · intro h
    unfold parseAtt at h
    split at h
    · rename_i opcode low high payload
      split at h
      · cases h
      · rename_i name hname
        obtain rfl := Option.some.inj h
        exact ⟨opcode, low, high, payload, rfl, hname, rfl, rfl⟩
    · cases h
  · rintro ⟨opcode, low, high, payload, rfl, hname, hhandle, hpayload⟩
    simp only [parseAtt, hname, ← hhandle, ← hpayload]

/-! ### Whole writes -/

/-- The packet holds one ATT write PDU as its lengths declare it, and the payload is the whole value
of it, from the value's first byte on. -/
structure Whole (pkt : List UInt8) (w : GattWrite) : Prop where
  acl : 5 + aclLen pkt ≤ pkt.length
  l2cap : l2capLen pkt + 4 ≤ aclLen pkt
  length : (pdu pkt).length = l2capLen pkt
  value : ∃ opcode low high, writeOpcodes.lookup opcode = some w.opcodeName ∧
    w.handle = ofLittleEndian [low, high] ∧
    pdu pkt = opcode :: low :: high ::
      ((if opcode = attPrepareWriteReq then [0, 0] else []) ++ w.payload)

/-- The opcode and the handle of a write are there, in a fragment with `PB=0b10`. -/
def Candidate (pkt : List UInt8) : Prop :=
  pkt.head? = some h4Acl ∧ boundary pkt = 0x02 ∧ channel pkt = attCid ∧
    ∃ opcode low high payload, fragment pkt = opcode :: low :: high :: payload ∧
      (writeOpcodes.lookup opcode).isSome

/-- The capture has less of the packet than `acl_len`. -/
def Truncated (pkt : List UInt8) : Prop := pkt.length < 5 + aclLen pkt

/-- The PDU goes on in the next fragment. -/
def FirstFragment (pkt : List UInt8) : Prop := aclLen pkt < l2capLen pkt + 4

/-- A prepare write with another offset than 0, or with none. -/
def Continued (pkt : List UInt8) : Prop :=
  (pdu pkt).head? = some attPrepareWriteReq ∧ slice (pdu pkt) 3 5 ≠ [0, 0]

theorem exists_parseAclAtt_iff : (∃ w, parseAclAtt pkt = some w) ↔ Candidate pkt := by
  rw [parseAclAtt_eq]
  constructor
  · rintro ⟨w, hw⟩
    split at hw
    · rename_i hframed
      obtain ⟨opcode, low, high, payload, hfragment, hname, -⟩ := parseAtt_eq_some_iff.mp hw
      exact ⟨hframed.2.1, hframed.2.2.1, hframed.2.2.2.2, opcode, low, high, payload, hfragment,
        Option.isSome_of_eq_some hname⟩
    · cases hw
  · rintro ⟨htype, hpb, hchannel, opcode, low, high, payload, hfragment, hname⟩
    have hlength := congrArg List.length hfragment
    rw [fragment, slice_length] at hlength
    simp only [List.length_cons] at hlength
    obtain ⟨name, hname⟩ := Option.isSome_iff_exists.mp hname
    rw [if_pos ⟨by omega, htype, hpb, by omega, hchannel⟩]
    exact ⟨⟨name, _, _⟩, parseAtt_eq_some_iff.mpr
      ⟨opcode, low, high, payload, hfragment, hname, rfl, rfl⟩⟩

theorem Whole.of_parse (hw : parseAclAtt pkt = some w) (hacl : ¬Truncated pkt)
    (hl2cap : ¬FirstFragment pkt) (hoffset : ¬Continued pkt) : Whole pkt w := by
  rw [Truncated, Nat.not_lt] at hacl
  rw [FirstFragment, Nat.not_lt] at hl2cap
  have hpdu : fragment pkt = pdu pkt := by
    rw [fragment, pdu, Nat.min_eq_right (by omega)]
  have hlength : (pdu pkt).length = l2capLen pkt := by
    rw [pdu, slice_length]
    omega
  rw [parseAclAtt_eq] at hw
  split at hw
  · obtain ⟨opcode, low, high, payload, hfragment, hname, hhandle, hpayload⟩ :=
      parseAtt_eq_some_iff.mp hw
    rw [hpdu] at hfragment
    refine ⟨hacl, hl2cap, hlength, opcode, low, high, hname, hhandle, ?_⟩
    rw [hfragment, hpayload]
    by_cases hprepare : opcode = attPrepareWriteReq
    · have hzero : payload.take 2 = [0, 0] := by
        by_contra hne
        apply hoffset
        rw [Continued, hfragment, hprepare]
        exact ⟨rfl, hne⟩
      have hlong : 2 ≤ payload.length := by
        have htwo : min 2 payload.length = 2 := by
          rw [← List.length_take, hzero]
          rfl
        omega
      rw [if_pos hprepare, if_pos ⟨hprepare, hlong⟩, ← hzero, List.take_append_drop]
    · rw [if_neg hprepare, if_neg fun h => hprepare h.1, List.nil_append]
  · cases hw

/-- Whatever is read from a packet is a whole write, exactly when the packet is no truncated one, no
first fragment of several, and no continued prepare write. -/
theorem whole_iff (pkt : List UInt8) :
    (∀ w, parseAclAtt pkt = some w → Whole pkt w) ↔
      (Candidate pkt → ¬Truncated pkt ∧ ¬FirstFragment pkt ∧ ¬Continued pkt) := by
  constructor
  · intro hwhole hcandidate
    obtain ⟨w, hw⟩ := exists_parseAclAtt_iff.mpr hcandidate
    obtain ⟨hacl, hl2cap, -, opcode, low, high, -, -, hpdu⟩ := hwhole w hw
    refine ⟨Nat.not_lt.mpr hacl, Nat.not_lt.mpr hl2cap, ?_⟩
    rintro ⟨hprepare, hoffset⟩
    rw [hpdu] at hprepare hoffset
    rw [if_pos (Option.some.inj hprepare)] at hoffset
    exact hoffset rfl
  · intro hfits w hw
    obtain ⟨hacl, hl2cap, hoffset⟩ := hfits (exists_parseAclAtt_iff.mp ⟨w, hw⟩)
    exact .of_parse hw hacl hl2cap hoffset

/-- Of a write of ten bytes that was sent in fragments, the first fragment is read as a write of
two. -/
theorem first_fragment_parsed :
    parseAclAtt
        [0x02, 0x40, 0x20, 0x09, 0x00, 0x0D, 0x00, 0x04, 0x00, 0x12, 0x10, 0x00, 0xA1, 0x01] =
        some ⟨"write_req", 16, [0xA1, 0x01]⟩ ∧
      ¬∀ pkt w, parseAclAtt pkt = some w → Whole pkt w := by
  have hparsed : parseAclAtt
      [0x02, 0x40, 0x20, 0x09, 0x00, 0x0D, 0x00, 0x04, 0x00, 0x12, 0x10, 0x00, 0xA1, 0x01] =
      some ⟨"write_req", 16, [0xA1, 0x01]⟩ := by
    decide
  refine ⟨hparsed, fun h => ?_⟩
  exact absurd (h _ _ hparsed).l2cap (by decide)

end BleUsageMeter.Tools
