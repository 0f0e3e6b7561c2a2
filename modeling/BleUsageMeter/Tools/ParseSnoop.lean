import BleUsageMeter.Kit.Dict
import BleUsageMeter.Kit.Slice
import BleUsageMeter.Kit.Text

/-! `tools/parse_snoop.py`: the GATT writes in a capture of a phone's HCI traffic. -/

namespace BleUsageMeter.Tools

open Kit

/-- `BTSNOOP_MAGIC`: "btsnoop" and a zero byte. -/
def btsnoopMagic : List UInt8 := [0x62, 0x74, 0x73, 0x6E, 0x6F, 0x6F, 0x70, 0x00]

/-- The fields of `RECORD_HEADER`. -/
structure RecordHeader where
  origLen : Nat
  inclLen : Nat
  flags : Nat
  drops : Nat
  ts : Int

def RecordHeader.size : Nat := 24

/-- A 64-bit integer in two's complement. -/
def ofTwosComplement (n : Nat) : Int := if n < 2 ^ 63 then n else n - 2 ^ 64

/-- `RECORD_HEADER.unpack_from`. -/
def RecordHeader.unpackFrom (data : List UInt8) (off : Nat) : RecordHeader where
  origLen := ofBigEndian (slice data off (off + 4))
  inclLen := ofBigEndian (slice data (off + 4) (off + 8))
  flags := ofBigEndian (slice data (off + 8) (off + 12))
  drops := ofBigEndian (slice data (off + 12) (off + 16))
  ts := ofTwosComplement (ofBigEndian (slice data (off + 16) (off + 24)))

/-- The loop of `iter_records`, from `off` on.  `incl_len` is unsigned, so the test for a negative
one never holds. -/
def iterFrom (data : List UInt8) (off : Nat) : List (Nat × List UInt8) :=
  if off + RecordHeader.size ≤ data.length then
    let header := RecordHeader.unpackFrom data off
    let start := off + RecordHeader.size
    if start + header.inclLen > data.length then []
    else
      (header.flags, slice data start (start + header.inclLen)) ::
        iterFrom data (start + header.inclLen)
  else []
termination_by data.length - off
decreasing_by
  simp only [RecordHeader.size] at *
  omega

def iterRecords (data : List UInt8) : Except PyException (List (Nat × List UInt8)) :=
  if btsnoopMagic.isPrefixOf data then .ok (iterFrom data 16) else .error .valueError

def h4Acl : UInt8 := 0x02

def attWriteReq : UInt8 := 0x12

def attWriteCmd : UInt8 := 0x52

def attPrepareWriteReq : UInt8 := 0x16

def attSignedWriteCmd : UInt8 := 0xD2

def writeOpcodes : List (UInt8 × String) :=
  [(attWriteReq, "write_req"), (attWriteCmd, "write_cmd"),
    (attPrepareWriteReq, "prepare_write_req"), (attSignedWriteCmd, "signed_write_cmd")]

def attCid : Nat := 0x0004

structure GattWrite where
  opcodeName : String
  handle : Nat
  payload : List UInt8
deriving DecidableEq

/-- The write of an ATT packet. -/
def parseAtt (att : List UInt8) : Option GattWrite :=
  match att with
  | opcode :: low :: high :: payload =>
    match writeOpcodes.lookup opcode with
    | none => none
    | some name =>
      let payload := if opcode = attPrepareWriteReq ∧ 2 ≤ payload.length then payload.drop 2
        else payload
      some ⟨name, ofLittleEndian [low, high], payload⟩
  | _ => none

/-- `parse_acl_att`. -/
def parseAclAtt (pkt : List UInt8) : Option GattWrite :=
  if pkt.length < 9 ∨ pkt.head? ≠ some h4Acl then none
  else
    let handleFlags := ofLittleEndian (slice pkt 1 3)
    let pb := (handleFlags >>> 12) &&& 0x03
    if pb ≠ 0x02 then none
    else
      let aclLen := ofLittleEndian (slice pkt 3 5)
      let body := slice pkt 5 (5 + aclLen)
      if body.length < 4 then none
      else
        let l2capLen := ofLittleEndian (slice body 0 2)
        let cid := ofLittleEndian (slice body 2 4)
        if cid ≠ attCid then none
        else parseAtt (slice body 4 (4 + l2capLen))

/-- `payload[:prefix_len]`, from the end for a negative `prefix_len`. -/
def takePrefix (payload : List UInt8) (prefixLen : Int) : List UInt8 :=
  if 0 ≤ prefixLen then payload.take prefixLen.toNat
  else payload.take (payload.length - prefixLen.natAbs)

/-- What `collect` groups the writes by. -/
def GattWrite.key (w : GattWrite) (prefixLen : Int) : String × Nat × String :=
  (w.opcodeName, w.handle, String.ofList ((takePrefix w.payload prefixLen).flatMap hexByte))

/-- One more write in its group. -/
def tally (groups : Dict (String × Nat × String) Nat) (key : String × Nat × String) :
    Dict (String × Nat × String) Nat :=
  groups.insert key ((groups.get? key).getD 0 + 1)

/-- `collect`, for the bytes of a file. -/
def collect (data : List UInt8) (prefixLen : Int) :
    Except PyException (Dict (String × Nat × String) Nat) := do
  let records ← iterRecords data
  return records.foldl (fun groups record =>
    match parseAclAtt record.2 with
    | none => groups
    | some w => tally groups (w.key prefixLen)) .empty

end BleUsageMeter.Tools
