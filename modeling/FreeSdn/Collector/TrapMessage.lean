import FreeSdn.Collector.SnmpTrap
import FreeSdn.Lib.Ber

/-! The well-formed trap messages, by the octets that may write them, and what the parser makes of
each: its walk over a message reads the parts of the message one by one. -/

namespace FreeSdn.Collector.Snmp

open FreeSdn.Lib
open FreeSdn.Lib.Ber (At Field Identifier Signed)

/-! ### The messages -/

def tagIpAddress : UInt8 := 0x40

def tagTimeTicks : UInt8 := 0x43

/-- The value of a variable binding. -/
inductive Content
  | integer (v : Int)
  | octets (raw : Bytes)
  | oid (o : Identifier)
  | null
  | other (tag : UInt8) (raw : Bytes)

/-- The octets of a value; the tag of another value is that of a primitive one and is a single
octet. -/
inductive Content.Written : Content → Bytes → Prop
  | integer {v : Int} {raw bs : Bytes} (value : Signed v raw) (field : Field tagInteger raw bs) :
    Written (.integer v) bs
  | octets {raw bs : Bytes} (field : Field tagOctetString raw bs) : Written (.octets raw) bs
  | oid {o : Identifier} {bs : Bytes} (field : Field tagOid o.contents bs) : Written (.oid o) bs
  | null {bs : Bytes} (field : Field tagNull [] bs) : Written .null bs
  | other {tag : UInt8} {raw bs : Bytes} (primitive : tag &&& 0x20 = 0)
    (single : tag &&& 0x1F ≠ 0x1F) (unnamed : tag ∉ [tagInteger, tagOctetString, tagOid, tagNull])
    (field : Field tag raw bs) : Written (.other tag raw) bs

structure Binding where
  name : Identifier
  content : Content

inductive Binding.Written (b : Binding) : Bytes → Prop
  | mk {ns vs bs : Bytes} (name : Field tagOid b.name.contents ns) (value : b.content.Written vs)
    (whole : Field tagSequence (ns ++ vs) bs) : Written b bs

inductive BindingsWritten : List Binding → Bytes → Prop
  | nil : BindingsWritten [] []
  | cons {b : Binding} {bindings : List Binding} {bs rest : Bytes} (first : b.Written bs)
    (others : BindingsWritten bindings rest) : BindingsWritten (b :: bindings) (bs ++ rest)

/-- What a trap has before its variable bindings, by version. -/
inductive Pdu
  | v1 (enterprise : Identifier) (agentAddr genericTrap specificTrap timeStamp : Bytes)
  | v2 (requestId errorStatus errorIndex : Bytes)

def Pdu.tag : Pdu → UInt8
  | .v1 .. => tagPduV1Trap
  | .v2 .. => tagPduV2Trap

def Pdu.enterprise : Pdu → Option Identifier
  | .v1 o .. => some o
  | .v2 .. => none

inductive Pdu.Written : Pdu → Bytes → Prop
  | v1 {o : Identifier} {agent general special time os as gs ss ts : Bytes}
    (enterprise : Field tagOid o.contents os) (agentAddr : Field tagIpAddress agent as)
    (genericTrap : Field tagInteger general gs) (specificTrap : Field tagInteger special ss)
    (timeStamp : Field tagTimeTicks time ts) :
    Written (.v1 o agent general special time) (os ++ [as, gs, ss, ts].flatten)
  | v2 {request status index rs ss is : Bytes} (requestId : Field tagInteger request rs)
    (errorStatus : Field tagInteger status ss) (errorIndex : Field tagInteger index is) :
    Written (.v2 request status index) [rs, ss, is].flatten

structure Trap where
  version : Bytes
  community : Bytes
  pdu : Pdu
  bindings : List Binding

inductive Trap.Written (t : Trap) : Bytes → Prop
  | mk {vs cs hs bs ls ps data : Bytes} (version : Field tagInteger t.version vs)
    (community : Field tagOctetString t.community cs) (header : t.pdu.Written hs)
    (bindings : BindingsWritten t.bindings bs) (list : Field tagSequence bs ls)
    (pdu : Field t.pdu.tag (hs ++ ls) ps) (message : Field tagSequence (vs ++ (cs ++ ps)) data) :
    Written t data

/-! ### What the parser makes of them -/

/-- What `_decode_oid` makes of the octets of an identifier. -/
def oidText (o : Identifier) : Option String := decodeOid o.contents 0 o.contents.length

def Content.read : Content → Option Json
  | .integer v => some (.int v)
  | .octets raw => some (.str (utf8Text raw))
  | .oid o => (oidText o).map .str
  | .null => some .null
  | .other _ raw => some (.str (hexText raw))

def Binding.read (b : Binding) : Option Varbind := do
  let oid ← oidText b.name
  let value ← b.content.read
  some ⟨oid, value⟩

def Pdu.read (pdu : Pdu) (varbinds : Nat) : Option PduHeader :=
  match pdu with
  | .v1 o .. => (oidText o).map fun enterprise => ⟨enterprise, "generic", varbinds⟩
  | .v2 .. => some ⟨"", "v2c", varbinds⟩

def Trap.read (t : Trap) (sourceIp : String) (now : Int) : Option TrapRecord := do
  let header ← t.pdu.read 0
  let varbinds ← t.bindings.mapM Binding.read
  some (trapRecord sourceIp now header varbinds)

/-! ### The walk over a message -/

variable {data bs : Bytes} {i : Nat}

theorem slice_at {xs : Bytes} (h : At data i xs) : slice data i xs.length = xs := h.take

theorem decodeLength_at {size : Nat} (written : Ber.Length size bs) (h : At data i bs) :
    decodeLength data i = some (size, i + bs.length) := by
  cases written with
  | short _ small =>
    have octet := (At.cons.mp h).1
    have value : (UInt8.ofNat size).toNat = size := by
      rw [UInt8.toNat_ofNat']
      omega
    simp only [decodeLength, octet, Option.bind_eq_bind, Option.bind_some, value,
      if_neg (show ¬128 ≤ size by omega)]
    rfl
  | long digits some few =>
    obtain ⟨octet, rest⟩ := At.cons.mp h
    have value : (UInt8.ofNat (128 + digits.length)).toNat = 128 + digits.length := by
      rw [UInt8.toNat_ofNat']
      omega
    have count : 128 + digits.length - 128 = digits.length := by omega
    have read : number data (i + 1) digits.length = Ber.number digits :=
      congrArg bigEndian (slice_at rest)
    simp only [decodeLength, octet, Option.bind_eq_bind, Option.bind_some, value,
      if_pos (Nat.le_add_right 128 digits.length), count, read, List.length_cons]
    rw [Nat.add_assoc, Nat.add_comm 1]

/-- A field at offset `i`: its contents start at `start`, after the length. -/
structure FieldAt (data : Bytes) (i : Nat) (tag : UInt8) (contents : Bytes) (start : Nat) : Prop where
  tag : data[i]? = some tag
  length : decodeLength data (i + 1) = some (contents.length, start)
  contents : At data start contents
  after : i + 1 < start
  inside : start ≤ data.length

theorem fieldAt {tag : UInt8} {contents : Bytes} (written : Field tag contents bs)
    (h : At data i bs) :
    ∃ start, FieldAt data i tag contents start ∧ i + bs.length = start + contents.length := by
  cases written with
  | @mk length size =>
    obtain ⟨octet, rest⟩ := At.cons.mp h
    obtain ⟨lengthAt, contentsAt⟩ := At.append.mp rest
    have positive := List.length_pos_iff.mpr size.ne_nil
    have bound := lengthAt.bound size.ne_nil
    refine ⟨i + 1 + length.length, ⟨octet, decodeLength_at size lengthAt, contentsAt, by omega,
      bound⟩, ?_⟩
    rw [List.length_cons, List.length_append]
    omega

theorem skipBerField_at {tag : UInt8} {contents : Bytes} (written : Field tag contents bs)
    (h : At data i bs) : skipBerField data i = some (i + bs.length) := by
  obtain ⟨start, field, stop⟩ := fieldAt written h
  have after := field.after
  have inside := field.inside
  unfold skipBerField
  rw [if_neg (by omega), if_neg (by omega), field.length, stop]
  rfl

/-- The fields are skipped whether or not the loop ends early, with the data. -/
theorem skipFields_at {fields : List Bytes}
    (written : ∀ f ∈ fields, ∃ tag contents, Field tag contents f) (h : At data i fields.flatten) :
    skipFields data fields.length i = some (i + fields.flatten.length) := by
  induction fields generalizing i with
  | nil => rfl
  | cons f fields ih =>
    obtain ⟨tag, contents, first⟩ := written f List.mem_cons_self
    obtain ⟨firstAt, restAt⟩ := At.append.mp h
    have others := fun g mem => written g (List.mem_cons_of_mem f mem)
    have size : (f :: fields).flatten.length = f.length + fields.flatten.length := by
      rw [List.flatten_cons, List.length_append]
    simp only [List.length_cons, skipFields, skipBerField_at first firstAt, Option.bind_eq_bind,
      Option.bind_some]
    split
    · rename_i ended
      have empty : fields.flatten = [] := by
        by_contra some
        have bound := restAt.bound some
        have positive := List.length_pos_iff.mpr some
        omega
      rw [size, empty]
      rfl
    · rw [ih others restAt, size, Nat.add_assoc]

/-! ### Identifiers and values -/

theorem decodeArcs_at {other : Bytes} {j count n : Nat} (h : At data i bs) (h' : At other j bs)
    (within : count ≤ bs.length) :
    decodeArcs data count i n = decodeArcs other count j n := by
  induction bs generalizing i j count n with
  | nil =>
    obtain rfl : count = 0 := Nat.le_zero.mp within
    rfl
  | cons b bs ih =>
    cases count with
    | zero => rfl
    | succ count =>
      obtain ⟨octet, rest⟩ := At.cons.mp h
      obtain ⟨octet', rest'⟩ := At.cons.mp h'
      have fits : count ≤ bs.length := by
        rw [List.length_cons] at within
        omega
      simp only [decodeArcs, octet, octet', Option.bind_eq_bind, Option.bind_some,
        ih rest rest' fits]

/-- An identifier is read the same wherever it stands. -/
theorem decodeOid_at {o : Identifier} (h : At data i o.contents) :
    decodeOid data i o.contents.length = oidText o := by
  unfold oidText decodeOid oidArcs
  have whole : At o.contents 0 o.contents := At.self
  cases contents : o.contents with
  | nil => exact absurd contents o.contents_ne_nil
  | cons b bs =>
    rw [contents] at h whole
    obtain ⟨octet, rest⟩ := At.cons.mp h
    obtain ⟨octet', rest'⟩ := At.cons.mp whole
    have same := decodeArcs_at (n := 0) rest rest' (le_refl bs.length)
    simp only [octet, octet', Option.bind_eq_bind, Option.bind_some, List.length_cons,
      Nat.add_sub_cancel, same]

theorem signedBigEndian_of {v : Int} {raw : Bytes} (h : Signed v raw) : signedBigEndian raw = v := by
  have low := h.low
  have high := h.high
  have value : ((bigEndian raw : Nat) : Int) = v % ((256 ^ raw.length : Nat) : Int) := h.value
  unfold signedBigEndian
  generalize 256 ^ raw.length = m at *
  by_cases negative : v < 0
  · have shifted : v % (m : Int) = v + m := by
      rw [← Int.add_emod_right, Int.emod_eq_of_lt (by omega) (by omega)]
    rw [if_neg (by omega)]
    omega
  · have same : v % (m : Int) = v := Int.emod_eq_of_lt (by omega) (by omega)
    rw [if_pos (by omega)]
    omega

theorem decodeValue_field {tag : UInt8} {contents : Bytes} (written : Field tag contents bs)
    (h : At data i bs) :
    decodeValue data i = (decodeRaw tag contents).map fun value => (value, i + bs.length) := by
  obtain ⟨start, field, stop⟩ := fieldAt written h
  simp only [decodeValue, field.tag, field.length, Option.bind_eq_bind, Option.bind_some,
    slice_at field.contents, stop]
  cases decodeRaw tag contents with
  | none => rfl
  | some value => rfl

theorem decodeValue_at {c : Content} (written : c.Written bs) (h : At data i bs) :
    decodeValue data i = c.read.map fun value => (value, i + bs.length) := by
  cases written with
  | integer value field => rw [decodeValue_field field h, decodeRaw, signedBigEndian_of value]; rfl
  | octets field => exact decodeValue_field field h
  | oid field => exact decodeValue_field field h
  | null field => exact decodeValue_field field h
  | @other tag raw _ _ _ unnamed field =>
    simp only [List.mem_cons, List.not_mem_nil, or_false, not_or] at unnamed
    obtain ⟨integer, octets, oid, null⟩ := unnamed
    rw [decodeValue_field field h, decodeRaw, if_neg integer, if_neg octets, if_neg oid,
      if_neg null]
    rfl

/-! ### Variable bindings -/

theorem readVarbind_at {b : Binding} (written : b.Written bs) (h : At data i bs) :
    data[i]? = some tagSequence ∧
      readVarbind data i = b.read.map fun varbind => (varbind, i + bs.length) := by
  cases written with
  | @mk ns vs _ name value whole =>
    obtain ⟨start, field, stop⟩ := fieldAt whole h
    obtain ⟨nameAt, valueAt⟩ := At.append.mp field.contents
    obtain ⟨inner, nameField, nameStop⟩ := fieldAt name nameAt
    refine ⟨field.tag, ?_⟩
    have next : inner + b.name.contents.length + vs.length = i + bs.length := by
      rw [List.length_append] at stop
      omega
    simp only [readVarbind, Binding.read, field.length, nameField.length, Option.bind_eq_bind,
      Option.bind_some, decodeOid_at nameField.contents]
    cases oidText b.name with
    | none => rfl
    | some oid =>
      simp only [Option.bind_some]
      rw [← nameStop, decodeValue_at value valueAt, nameStop]
      cases b.content.read with
      | none => rfl
      | some v => simp only [Option.map_some, Option.bind_some, next]

theorem Binding.Written.ne_nil {b : Binding} (h : b.Written bs) : bs ≠ [] := by
  cases h with
  | mk _ _ whole => exact whole.ne_nil

theorem BindingsWritten.length_le {bindings : List Binding} (h : BindingsWritten bindings bs) :
    bindings.length ≤ bs.length := by
  induction h with
  | nil => exact le_refl 0
  | cons first _ ih =>
    have positive := List.length_pos_iff.mpr first.ne_nil
    rw [List.length_cons, List.length_append]
    omega

/-- The loop ends with the data, which ends with the last binding. -/
theorem varbindLoop_at {bindings : List Binding} (written : BindingsWritten bindings bs)
    (h : At data i bs) (last : i + bs.length = data.length) {fuel : Nat}
    (enough : bindings.length < fuel) :
    varbindLoop data fuel i = bindings.mapM Binding.read := by
  induction written generalizing i fuel with
  | nil =>
    obtain ⟨fuel, rfl⟩ : ∃ n, fuel = n + 1 := ⟨fuel - 1, by omega⟩
    have ended : data[i]? = none := List.getElem?_eq_none (by simpa using last.ge)
    rw [varbindLoop, ended, if_neg (by simp)]
    rfl
  | @cons b bindings octets rest first others ih =>
    obtain ⟨fuel, rfl⟩ : ∃ n, fuel = n + 1 := ⟨fuel - 1, by omega⟩
    obtain ⟨firstAt, restAt⟩ := At.append.mp h
    obtain ⟨tag, read⟩ := readVarbind_at first firstAt
    rw [List.length_append] at last
    have tail := ih restAt (by omega) (show bindings.length < fuel by
      rw [List.length_cons] at enough
      omega)
    rw [varbindLoop, if_pos tag, read, List.mapM_cons]
    cases b.read with
    | none => rfl
    | some varbind =>
      simp only [Option.map_some, Option.bind_eq_bind, Option.bind_some, tail, Option.pure_def]

theorem readVarbinds_at {bindings : List Binding} {ls : Bytes}
    (written : BindingsWritten bindings bs) (list : Field tagSequence bs ls) (h : At data i ls)
    (last : i + ls.length = data.length) :
    readVarbinds data i = bindings.mapM Binding.read := by
  obtain ⟨start, field, stop⟩ := fieldAt list h
  have few := written.length_le
  rw [readVarbinds, if_pos field.tag, field.length]
  exact varbindLoop_at written field.contents (by omega) (by omega)

/-! ### The message -/

theorem readPduHeader_at {pdu : Pdu} (written : pdu.Written bs) (h : At data i bs) :
    readPduHeader data pdu.tag i = pdu.read (i + bs.length) := by
  cases written with
  | @v1 o agent general special time os as gs ss ts enterprise agentAddr generic specific stamp =>
    obtain ⟨enterpriseAt, restAt⟩ := At.append.mp h
    obtain ⟨start, field, stop⟩ := fieldAt enterprise enterpriseAt
    have fields : ∀ f ∈ [as, gs, ss, ts], ∃ tag contents, Field tag contents f :=
      List.forall_iff_forall_mem.mp ⟨⟨_, _, agentAddr⟩, ⟨_, _, generic⟩, ⟨_, _, specific⟩, _, _, stamp⟩
    have skipped := skipFields_at fields restAt
    rw [stop] at skipped
    rw [Pdu.tag, readPduHeader, if_pos rfl, Pdu.read, List.length_append, ← Nat.add_assoc, stop]
    simp only [field.length, Option.bind_eq_bind, Option.bind_some, decodeOid_at field.contents]
    cases oidText o with
    | none => rfl
    | some text =>
      simp only [Option.bind_some, Option.map_some]
      exact congrArg (Option.bind · _) skipped
  | @v2 request status index rs ss is requestId errorStatus errorIndex =>
    have fields : ∀ f ∈ [rs, ss, is], ∃ tag contents, Field tag contents f :=
      List.forall_iff_forall_mem.mp ⟨⟨_, _, requestId⟩, ⟨_, _, errorStatus⟩, _, _, errorIndex⟩
    have skipped := skipFields_at fields h
    rw [Pdu.tag, readPduHeader, if_neg (by decide), if_pos rfl]
    exact congrArg (Option.bind · _) skipped

/-- Where the bindings start is all that a header has of it. -/
theorem Pdu.read_shift (pdu : Pdu) (varbinds : Nat) :
    pdu.read varbinds = (pdu.read 0).map fun header => { header with varbinds := varbinds } := by
  cases pdu with
  | v1 o =>
    simp only [Pdu.read]
    cases oidText o with
    | none => rfl
    | some text => rfl
  | v2 => rfl

end FreeSdn.Collector.Snmp
