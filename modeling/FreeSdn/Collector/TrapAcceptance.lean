import FreeSdn.Collector.SnmpTrap

/-! What the trap parser accepts: any PDU whose fields it can walk over, with a community of any tag and
with a last value that the datagram cuts short. -/

namespace FreeSdn.Collector.Snmp

open FreeSdn.Lib

/-! ### Where the fields of a datagram are -/

/-- The offset of the community's tag. -/
def communityOffset (data : Bytes) : Option Nat := do
  let (_, offset) ← decodeLength data 1
  let (length, offset) ← decodeLength data (offset + 1)
  some (offset + length)

/-- Where a value ends by its length, which may be after the data; an identifier has to be one that
can be converted. -/
def valueStop (data : Bytes) (i : Nat) : Option Nat := do
  let tag ← data[i]?
  let (length, start) ← decodeLength data (i + 1)
  let raw := slice data start length
  if tag = tagOid ∧ decodeOid raw 0 raw.length = none then none else some (start + length)

/-- Where a variable binding starts, where its value ends, and where its sequence ends by its own
length. -/
structure Span where
  start : Nat
  stop : Nat
  declared : Nat
  deriving DecidableEq

def bindingSpan (data : Bytes) (i : Nat) : Option Span := do
  let (length, name) ← decodeLength data (i + 1)
  let (size, start) ← decodeLength data (name + 1)
  let _ ← decodeOid data start size
  let stop ← valueStop data (start + size)
  some ⟨i, stop, name + length⟩

/-- The variable bindings from an offset on, each of which begins where the value of the one before it
ends. -/
def bindingSpans (data : Bytes) : Nat → Nat → Option (List Span)
  | 0, _ => none
  | fuel + 1, i =>
    if data[i]? = some tagSequence then do
      let span ← bindingSpan data i
      let rest ← bindingSpans data fuel span.stop
      some (span :: rest)
    else some []

def listSpans (data : Bytes) (i : Nat) : Option (List Span) :=
  if data[i]? = some tagSequence then do
    let (_, start) ← decodeLength data (i + 1)
    bindingSpans data (data.length + 1) start
  else some []

/-- Where the variable bindings of a message start and end, if its fields can be walked over. -/
def messageSpans (data : Bytes) : Option (List Span) := do
  let offset ← pduOffset data
  let tag ← data[offset]?
  let (_, offset) ← decodeLength data (offset + 1)
  let header ← readPduHeader data tag offset
  listSpans data header.varbinds

variable {data : Bytes} {i : Nat}

/-! ### The walk of the parser -/

/-- The variable bindings are read at the spans. -/
def ReadAt (data : Bytes) (varbinds : List Varbind) (spans : List Span) : Prop :=
  List.Forall₂ (fun varbind span => readVarbind data span.start = some (varbind, span.stop) ∧
    bindingSpan data span.start = some span) varbinds spans

/-- The variable binding lies inside the datagram, by the length of its value and by its own. -/
def Span.Inside (data : Bytes) (span : Span) : Prop :=
  span.stop ≤ data.length ∧ span.declared ≤ data.length

/-- The record is of a trap, its variable bindings lie inside the datagram, and the header check
finds a community. -/
structure Sound (data : Bytes) (r : TrapRecord) : Prop where
  trap : ∃ p, pduOffset data = some p ∧
    (data[p]? = some tagPduV1Trap ∨ data[p]? = some tagPduV2Trap)
  inside : ∃ spans, messageSpans data = some spans ∧ ReadAt data r.varbinds spans ∧
    ∀ span ∈ spans, span.Inside data
  community : (extractCommunity data).isSome

/-- Where the fields of a datagram can be walked over, its community is an octet string, its PDU is
a trap, and its variable bindings and their values end with the data or before. -/
def Framed (data : Bytes) : Prop :=
  ∀ spans, messageSpans data = some spans →
    (∃ c, communityOffset data = some c ∧ data[c]? = some tagOctetString) ∧
    (∃ p, pduOffset data = some p ∧
      (data[p]? = some tagPduV1Trap ∨ data[p]? = some tagPduV2Trap)) ∧
    ∀ span ∈ spans, span.Inside data

end FreeSdn.Collector.Snmp
