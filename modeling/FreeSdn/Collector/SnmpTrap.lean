import FreeSdn.Collector.Netflow
import FreeSdn.Lib.Utf8
import Mathlib.Algebra.Ring.Int.Defs
import Mathlib.Algebra.Ring.Nat

/-! The decoding of SNMP traps (`modules/collector/services/snmp_trap.py`): the walk over the fields of a
datagram with a running offset, which the containers' lengths do not bound, and the header check
that reads the community.  `none` stands for the exceptions that both functions catch. -/

namespace FreeSdn.Collector.Snmp

open FreeSdn.Lib

def tagInteger : UInt8 := 0x02

def tagOctetString : UInt8 := 0x04

def tagNull : UInt8 := 0x05

def tagOid : UInt8 := 0x06

def tagSequence : UInt8 := 0x30

def tagPduV1Trap : UInt8 := 0xA4

def tagPduV2Trap : UInt8 := 0xA7

/-! ### Fields -/

/-- `_decode_length`: the length and the offset after it. -/
def decodeLength (data : Bytes) (offset : Nat) : Option (Nat × Nat) := do
  let b ← data[offset]?
  if 128 ≤ b.toNat then
    let n := b.toNat - 128
    some (number data (offset + 1) n, offset + 1 + n)
  else some (b.toNat, offset + 1)

/-- `_skip_ber_field`. -/
def skipBerField (data : Bytes) (offset : Nat) : Option Nat :=
  if data.length ≤ offset then some offset
  else if data.length ≤ offset + 1 then some data.length
  else do
    let (length, offset) ← decodeLength data (offset + 1)
    some (offset + length)

/-- The loop that skips a number of fields, up to the end of the data. -/
def skipFields (data : Bytes) : Nat → Nat → Option Nat
  | 0, offset => some offset
  | count + 1, offset => do
    let offset ← skipBerField data offset
    if data.length ≤ offset then some offset else skipFields data count offset

/-! ### Values -/

/-- The digits that Python converts an integer to at most: above, `str` raises. -/
def maxStrDigits : Nat := 4300

/-- `str` of an arc. -/
def arcText (n : Nat) : Option (List Char) :=
  if (Json.natText n).length ≤ maxStrDigits then some (Json.natText n) else none

/-- `".".join(str(p) for p in parts)`. -/
def dotted (parts : List Nat) : Option String := do
  let texts ← parts.mapM arcText
  some (String.ofList (['.'].intercalate texts))

/-- The arcs in `count` octets, after the bits that were read of the current one. -/
def decodeArcs (data : Bytes) : Nat → Nat → Nat → Option (List Nat)
  | 0, _, _ => some []
  | count + 1, offset, value => do
    let b ← data[offset]?
    let value := 128 * value + b.toNat % 128
    if 128 ≤ b.toNat then decodeArcs data count (offset + 1) value
    else do
      let arcs ← decodeArcs data count (offset + 1) 0
      some (value :: arcs)

/-- The arcs of `_decode_oid`. -/
def oidArcs (data : Bytes) (offset length : Nat) : Option (List Nat) := do
  let first ← data[offset]?
  let arcs ← decodeArcs data (length - 1) (offset + 1) 0
  some (first.toNat / 40 :: first.toNat % 40 :: arcs)

/-- `_decode_oid`. -/
def decodeOid (data : Bytes) (offset length : Nat) : Option String := do
  let arcs ← oidArcs data offset length
  dotted arcs

/-- `int.from_bytes(raw, "big", signed=True)`. -/
def signedBigEndian (raw : Bytes) : Int :=
  if 2 * bigEndian raw < 256 ^ raw.length then bigEndian raw
  else (bigEndian raw : Int) - (256 ^ raw.length : Nat)

/-- `raw.hex()`. -/
def hexText (raw : Bytes) : String :=
  String.ofList (raw.flatMap fun b => [Json.hexDigit (b.toNat / 16), Json.hexDigit (b.toNat % 16)])

/-- `raw.decode("utf-8", errors="replace")`. -/
def utf8Text (raw : Bytes) : String := String.ofList (Utf8.decode raw)

/-- A value by its tag. -/
def decodeRaw (tag : UInt8) (raw : Bytes) : Option Json :=
  if tag = tagInteger then some (.int (signedBigEndian raw))
  else if tag = tagOctetString then some (.str (utf8Text raw))
  else if tag = tagOid then (decodeOid raw 0 raw.length).map .str
  else if tag = tagNull then some .null
  else some (.str (hexText raw))

/-- `_decode_value`. -/
def decodeValue (data : Bytes) (offset : Nat) : Option (Json × Nat) := do
  let tag ← data[offset]?
  let (length, offset) ← decodeLength data (offset + 1)
  let value ← decodeRaw tag (slice data offset length)
  some (value, offset + length)

/-! ### Messages -/

/-- `_extract_community`. -/
def extractCommunity (data : Bytes) : Option Bytes := do
  let first ← data[0]?
  if first ≠ tagSequence then none
  else do
    let (_, offset) ← decodeLength data 1
    let (length, offset) ← decodeLength data (offset + 1)
    let offset := offset + length
    let tag ← data[offset]?
    if tag ≠ tagOctetString then none
    else do
      let (length, offset) ← decodeLength data (offset + 1)
      let community := slice data offset length
      if community.length ≠ length then none else some community

structure Varbind where
  oid : String
  value : Json
  deriving DecidableEq

/-- One turn of the loop over the variable bindings, with the binding at the offset. -/
def readVarbind (data : Bytes) (offset : Nat) : Option (Varbind × Nat) := do
  let (_, offset) ← decodeLength data (offset + 1)
  let (oidLength, offset) ← decodeLength data (offset + 1)
  let oid ← decodeOid data offset oidLength
  let (value, offset) ← decodeValue data (offset + oidLength)
  some (⟨oid, value⟩, offset)

/-- The loop over the variable bindings: at most `fuel` turns. -/
def varbindLoop (data : Bytes) : Nat → Nat → Option (List Varbind)
  | 0, _ => none
  | fuel + 1, offset =>
    if data[offset]? = some tagSequence then do
      let (varbind, offset) ← readVarbind data offset
      let rest ← varbindLoop data fuel offset
      some (varbind :: rest)
    else some []

/-- The variable bindings from an offset on; a turn takes an octet at least. -/
def readVarbinds (data : Bytes) (offset : Nat) : Option (List Varbind) :=
  if data[offset]? = some tagSequence then do
    let (_, offset) ← decodeLength data (offset + 1)
    varbindLoop data (data.length + 1) offset
  else some []

/-- Where the PDU starts: after the version and the community, neither of whose tags is checked. -/
def pduOffset (data : Bytes) : Option Nat := do
  let first ← data[0]?
  if first ≠ tagSequence then none
  else do
    let (_, offset) ← decodeLength data 1
    let (length, offset) ← decodeLength data (offset + 1)
    let (length, offset) ← decodeLength data (offset + length + 1)
    some (offset + length)

/-- What a PDU has before its variable bindings, and where they start. -/
structure PduHeader where
  enterpriseOid : String
  trapType : String
  varbinds : Nat

def readPduHeader (data : Bytes) (tag : UInt8) (offset : Nat) : Option PduHeader :=
  if tag = tagPduV1Trap then do
    let (length, offset) ← decodeLength data (offset + 1)
    let enterprise ← decodeOid data offset length
    let varbinds ← skipFields data 4 (offset + length)
    some ⟨enterprise, "generic", varbinds⟩
  else if tag = tagPduV2Trap then do
    let varbinds ← skipFields data 3 offset
    some ⟨"", "v2c", varbinds⟩
  else some ⟨"", "generic", offset⟩

structure TrapRecord where
  sourceType : String
  sourceIp : String
  enterpriseOid : Option String
  trapType : String
  varbinds : List Varbind
  message : String
  timestamp : Int
  deriving DecidableEq

/-- The returned record; `enterprise_oid or None`. -/
def trapRecord (sourceIp : String) (now : Int) (header : PduHeader) (varbinds : List Varbind) :
    TrapRecord where
  sourceType := "snmp_trap"
  sourceIp := sourceIp
  enterpriseOid := if header.enterpriseOid = "" then none else some header.enterpriseOid
  trapType := header.trapType
  varbinds := varbinds
  message := "SNMP trap from " ++ sourceIp ++ " (community=<redacted>)"
  timestamp := now

/-- `_parse_snmp_trap`. -/
def parseSnmpTrap (data : Bytes) (sourceIp : String) (now : Int) : Option TrapRecord := do
  let offset ← pduOffset data
  let tag ← data[offset]?
  let (_, offset) ← decodeLength data (offset + 1)
  let header ← readPduHeader data tag offset
  let varbinds ← readVarbinds data header.varbinds
  some (trapRecord sourceIp now header varbinds)

/-! ### The walk goes forward -/

variable {data : Bytes} {i : Nat}

theorem decodeLength_advances {size j : Nat} (h : decodeLength data i = some (size, j)) :
    i < j ∧ i < data.length := by
  simp only [decodeLength, Option.bind_eq_bind, Option.bind_eq_some_iff] at h
  obtain ⟨b, octet, h⟩ := h
  have inside := (List.getElem?_eq_some_iff.mp octet).1
  split at h
  all_goals
    simp only [Option.some.injEq, Prod.mk.injEq] at h
    omega

theorem decodeValue_advances {value : Json} {j : Nat} (h : decodeValue data i = some (value, j)) :
    i < j := by
  simp only [decodeValue, Option.bind_eq_bind, Option.bind_eq_some_iff, Option.some.injEq,
    Prod.mk.injEq] at h
  obtain ⟨tag, -, ⟨length, offset⟩, read, value, -, -, rfl⟩ := h
  have := (decodeLength_advances read).1
  omega

theorem readVarbind_advances {varbind : Varbind} {j : Nat}
    (h : readVarbind data i = some (varbind, j)) : i < j := by
  simp only [readVarbind, Option.bind_eq_bind, Option.bind_eq_some_iff, Option.some.injEq,
    Prod.mk.injEq] at h
  obtain ⟨⟨whole, name⟩, first, ⟨size, oid⟩, second, _, -, ⟨_, stop⟩, value, -, rfl⟩ := h
  have := (decodeLength_advances first).1
  have := (decodeLength_advances second).1
  have := decodeValue_advances value
  omega

/-- The loop ends by itself: more turns than octets that are left change nothing. -/
theorem varbindLoop_fuel {fuel fuel' : Nat} (enough : data.length < i + fuel)
    (enough' : data.length < i + fuel') (positive : 0 < fuel) (positive' : 0 < fuel') :
    varbindLoop data fuel i = varbindLoop data fuel' i := by
  induction fuel generalizing i fuel' with
  | zero => exact absurd positive (Nat.lt_irrefl 0)
  | succ fuel ih =>
    obtain ⟨fuel', rfl⟩ : ∃ n, fuel' = n + 1 := ⟨fuel' - 1, by omega⟩
    rw [varbindLoop, varbindLoop]
    by_cases sequence : data[i]? = some tagSequence
    · have inside := (List.getElem?_eq_some_iff.mp sequence).1
      rw [if_pos sequence, if_pos sequence]
      cases read : readVarbind data i with
      | none => rfl
      | some p =>
        obtain ⟨varbind, j⟩ := p
        have forward := readVarbind_advances read
        have same := @ih j fuel' (by omega) (by omega) (by omega) (by omega)
        simp only [Option.bind_eq_bind, Option.bind_some, same]
    · rw [if_neg sequence, if_neg sequence]

end FreeSdn.Collector.Snmp
