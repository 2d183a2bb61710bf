import FreeSdn.Collector.TrapMessage
import Mathlib.Tactic.IntervalCases

/-! When the record of a well-formed trap has the identifiers and values that the trap was written
with: the first octet of an identifier is read as two arcs, which it is for the first arcs 0 and 1
and, below 40, for the second arc under 2. -/

namespace FreeSdn.Collector.Snmp

open FreeSdn.Lib
open FreeSdn.Lib.Ber (At Field Identifier Signed subidentifier upperDigits)

/-! ### The whole message -/

theorem parse_written {t : Trap} {data : Bytes} (written : t.Written data) (sourceIp : String)
    (now : Int) : parseSnmpTrap data sourceIp now = t.read sourceIp now := by
  cases written with
  | @mk vs cs hs bs ls ps _ version community header bindings list pdu message =>
    obtain ⟨start, outer, stop⟩ := fieldAt message At.self
    obtain ⟨versionAt, rest⟩ := At.append.mp outer.contents
    obtain ⟨communityAt, pduAt⟩ := At.append.mp rest
    obtain ⟨v, versionField, versionStop⟩ := fieldAt version versionAt
    obtain ⟨c, communityField, communityStop⟩ := fieldAt community communityAt
    obtain ⟨p, pduField, pduStop⟩ := fieldAt pdu pduAt
    obtain ⟨headerAt, listAt⟩ := At.append.mp pduField.contents
    have offset : pduOffset data = some (start + vs.length + cs.length) := by
      simp only [pduOffset, outer.tag, outer.length, Option.bind_eq_bind, Option.bind_some,
        ne_eq, not_true_eq_false, if_false, versionField.length, ← versionStop,
        communityField.length, ← communityStop]
    have last : p + hs.length + ls.length = data.length := by
      simp only [List.length_append] at stop pduStop
      omega
    simp only [parseSnmpTrap, Trap.read, offset, pduField.tag, pduField.length,
      Option.bind_eq_bind, Option.bind_some, readPduHeader_at header headerAt]
    rw [Pdu.read_shift]
    cases t.pdu.read 0 with
    | none => rfl
    | some head =>
      simp only [Option.map_some, Option.bind_some, readVarbinds_at bindings list listAt last]
      rfl

/-! ### Identifiers -/

/-- The dotted form of arcs. -/
def dottedForm (arcs : List Nat) : String :=
  String.ofList (['.'].intercalate (arcs.map Json.natText))

theorem arcText_eq (n : Nat) :
    arcText n = if n < 10 ^ maxStrDigits then some (Json.natText n) else none := by
  unfold arcText
  have few : (Json.natText n).length ≤ maxStrDigits ↔ n < 10 ^ maxStrDigits :=
    Nat.length_toDigits_le_iff (by decide) (by decide)
  by_cases small : n < 10 ^ maxStrDigits
  · rw [if_pos small, if_pos (few.mpr small)]
  · rw [if_neg small, if_neg (mt few.mp small)]

/-- Every arc has few enough digits, or the conversion raises. -/
theorem dotted_eq_some {parts : List Nat} {s : String} :
    dotted parts = some s ↔ s = dottedForm parts ∧ ∀ n ∈ parts, n < 10 ^ maxStrDigits := by
  have texts : ∀ cs, parts.mapM arcText = some cs ↔
      cs = parts.map Json.natText ∧ ∀ n ∈ parts, n < 10 ^ maxStrDigits := by
    induction parts with
    | nil => simp
    | cons n parts ih =>
      intro cs
      rw [List.mapM_cons, arcText_eq]
      by_cases small : n < 10 ^ maxStrDigits
      · rw [if_pos small]
        simp only [Option.bind_eq_bind, Option.bind_some, Option.bind_eq_some_iff, ih,
          Option.pure_def, Option.some.injEq, List.map_cons, List.forall_mem_cons, small, true_and]
        constructor
        · rintro ⟨_, ⟨rfl, others⟩, rfl⟩
          exact ⟨rfl, others⟩
        · rintro ⟨rfl, others⟩
          exact ⟨_, ⟨rfl, others⟩, rfl⟩
      · rw [if_neg small]
        simp [small]
  unfold dotted
  simp only [Option.bind_eq_bind, Option.bind_eq_some_iff, texts, Option.some.injEq]
  constructor
  · rintro ⟨_, ⟨rfl, small⟩, rfl⟩
    exact ⟨rfl, small⟩
  · rintro ⟨rfl, small⟩
    exact ⟨_, ⟨rfl, small⟩, rfl⟩

theorem decodeArcs_upper {data : Bytes} (n : Nat) {i count : Nat} (h : At data i (upperDigits n)) :
    decodeArcs data ((upperDigits n).length + count) i 0 =
      decodeArcs data count (i + (upperDigits n).length) n := by
  induction n using Nat.strongRecOn generalizing count with
  | ind n ih =>
    by_cases zero : n = 0
    · subst zero
      have none : upperDigits 0 = [] := by rw [upperDigits, if_pos rfl]
      rw [none, List.length_nil, Nat.zero_add]
      rfl
    · have split : upperDigits n = upperDigits (n / 128) ++ [UInt8.ofNat (128 + n % 128)] := by
        rw [upperDigits, if_neg zero]
      rw [split] at h ⊢
      obtain ⟨first, last⟩ := At.append.mp h
      have octet := (At.cons.mp last).1
      have value : (UInt8.ofNat (128 + n % 128)).toNat = 128 + n % 128 := by
        rw [UInt8.toNat_ofNat']
        omega
      have read : 128 * (n / 128) + (128 + n % 128) % 128 = n := by omega
      have size : (upperDigits (n / 128) ++ [UInt8.ofNat (128 + n % 128)]).length + count =
          (upperDigits (n / 128)).length + (count + 1) := by
        rw [List.length_append, List.length_singleton]
        omega
      rw [size, ih (n / 128) (by omega) first, decodeArcs]
      simp only [octet, Option.bind_eq_bind, Option.bind_some, value, read,
        if_pos (Nat.le_add_right 128 _), List.length_append, List.length_singleton, Nat.add_assoc]

theorem decodeArcs_subidentifier {data : Bytes} {n i count : Nat}
    (h : At data i (subidentifier n)) :
    decodeArcs data ((subidentifier n).length + count) i 0 =
      (decodeArcs data count (i + (subidentifier n).length) 0).map (n :: ·) := by
  obtain ⟨first, last⟩ := At.append.mp h
  have octet := (At.cons.mp last).1
  have value : (UInt8.ofNat (n % 128)).toNat = n % 128 := by
    rw [UInt8.toNat_ofNat']
    omega
  have size : (subidentifier n).length = (upperDigits (n / 128)).length + 1 := by
    rw [subidentifier, List.length_append, List.length_singleton]
  have read : 128 * (n / 128) + n % 128 % 128 = n := by omega
  rw [size, Nat.add_assoc, decodeArcs_upper _ first, Nat.add_comm 1, decodeArcs]
  simp only [octet, Option.bind_eq_bind, Option.bind_some, value, read,
    if_neg (show ¬128 ≤ n % 128 by omega), ← Nat.add_assoc]
  cases decodeArcs data count (i + (upperDigits (n / 128)).length + 1) 0 with
  | none => rfl
  | some arcs => rfl

theorem decodeArcs_all {data : Bytes} {subs : List Nat} {i : Nat}
    (h : At data i (subs.flatMap subidentifier)) :
    decodeArcs data (subs.flatMap subidentifier).length i 0 = some subs := by
  induction subs generalizing i with
  | nil => rfl
  | cons n subs ih =>
    obtain ⟨first, rest⟩ := At.append.mp h
    rw [List.flatMap_cons, List.length_append, decodeArcs_subidentifier first, ih rest]
    rfl

/-- The first octet of an identifier whose first two arcs take one octet. -/
theorem oidArcs_small {o : Identifier} (small : 40 * o.first + o.second < 128) :
    oidArcs o.contents 0 o.contents.length =
      some ((40 * o.first + o.second) / 40 :: (40 * o.first + o.second) % 40 :: o.later) := by
  have whole : At o.contents 0 o.contents := At.self
  rw [Identifier.contents_small small] at whole ⊢
  obtain ⟨octet, rest⟩ := At.cons.mp whole
  have value : (UInt8.ofNat (40 * o.first + o.second)).toNat = 40 * o.first + o.second := by
    rw [UInt8.toNat_ofNat']
    omega
  have arcs := decodeArcs_all rest
  simp only [oidArcs, octet, value, Option.bind_eq_bind, Option.bind_some, List.length_cons,
    Nat.add_sub_cancel, arcs]

/-- The first octet of an identifier whose first two arcs take more than one octet has the
continuation bit. -/
theorem oidArcs_large {o : Identifier} (large : 128 ≤ 40 * o.first + o.second) {arcs : List Nat}
    (h : oidArcs o.contents 0 o.contents.length = some arcs) :
    ∃ a rest, arcs = a :: rest ∧ 3 ≤ a ∧ a ≤ 6 := by
  obtain ⟨b, rest, digits, continued⟩ := Ber.subidentifier_large large
  have contents : o.contents = b :: (rest ++ o.later.flatMap subidentifier) := by
    rw [Identifier.contents, Identifier.subidentifiers, List.flatMap_cons, digits]
    rfl
  have bound := b.toNat_lt
  simp only [oidArcs, contents, List.getElem?_cons_zero, Option.bind_eq_bind, Option.bind_some,
    Option.bind_eq_some_iff, Option.some.injEq] at h
  obtain ⟨tail, -, rfl⟩ := h
  exact ⟨_, _, rfl, by omega, by omega⟩

/-- The identifiers that the parser can read: the two first arcs are as many as one octet below 120
has, and no arc is too long for `str`. -/
def Readable (o : Identifier) : Prop :=
  (o.first = 2 → o.second < 40) ∧ ∀ arc ∈ o.later, arc < 10 ^ maxStrDigits

instance (o : Identifier) : Decidable (Readable o) := inferInstanceAs (Decidable (_ ∧ _))

theorem dottedForm_head (a : Nat) (arcs : List Nat) :
    (dottedForm (a :: arcs)).toList.head? = (Json.natText a).head? := by
  have some : Json.natText a ≠ [] := Nat.toDigits_ne_nil
  unfold dottedForm
  rw [String.toList_ofList]
  cases text : Json.natText a with
  | nil => exact absurd text some
  | cons c cs =>
    cases arcs with
    | nil => simp [List.intercalate, text]
    | cons b arcs => simp [List.intercalate, text]

theorem small_arc {n : Nat} (small : n < 100) : n < 10 ^ maxStrDigits :=
  calc n < 10 ^ 2 := small
    _ ≤ 10 ^ maxStrDigits := Nat.pow_le_pow_right (by decide) (by decide)

theorem oidText_readable {o : Identifier} (readable : Readable o) :
    oidText o = some (dottedForm o.arcs) := by
  obtain ⟨second, later⟩ := readable
  have valid := o.valid
  have small : 40 * o.first + o.second < 128 := by omega
  have arcs : (40 * o.first + o.second) / 40 :: (40 * o.first + o.second) % 40 :: o.later =
      o.arcs := by
    have first : (40 * o.first + o.second) / 40 = o.first := by omega
    have next : (40 * o.first + o.second) % 40 = o.second := by omega
    rw [first, next]
    rfl
  have bounded : ∀ n ∈ o.arcs, n < 10 ^ maxStrDigits :=
    List.forall_mem_cons.mpr ⟨small_arc (by omega),
      List.forall_mem_cons.mpr ⟨small_arc (by omega), later⟩⟩
  simp only [oidText, decodeOid, oidArcs_small small, arcs, Option.bind_eq_bind, Option.bind_some]
  exact dotted_eq_some.mpr ⟨rfl, bounded⟩

theorem readable_of_oidText {o : Identifier} (h : oidText o = some (dottedForm o.arcs)) :
    Readable o := by
  have valid := o.valid
  simp only [oidText, decodeOid, Option.bind_eq_bind, Option.bind_eq_some_iff] at h
  obtain ⟨arcs, read, text⟩ := h
  obtain ⟨same, bounded⟩ := dotted_eq_some.mp text
  -- The first arc that was read is 3 at least where the first two arcs do not fit one octet.
  have misread : ∀ a rest, arcs = a :: rest → 3 ≤ a → a ≤ 6 → o.first = 2 → False := by
    rintro a rest rfl low high first
    have heads := congrArg (fun s => s.toList.head?) same
    simp only [Identifier.arcs, dottedForm_head, first] at heads
    interval_cases a <;> exact absurd heads (by decide)
  by_cases large : 128 ≤ 40 * o.first + o.second
  · obtain ⟨a, rest, split, low, high⟩ := oidArcs_large large read
    exact (misread a rest split low high (by omega)).elim
  · rw [oidArcs_small (by omega)] at read
    obtain rfl := Option.some.inj read
    have second : o.first = 2 → o.second < 40 := by
      intro first
      by_contra more
      exact misread _ _ rfl (by omega) (by omega) first
    refine ⟨second, fun arc mem => bounded arc ?_⟩
    exact List.mem_cons_of_mem _ (List.mem_cons_of_mem _ mem)

theorem oidText_exact_iff (o : Identifier) :
    oidText o = some (dottedForm o.arcs) ↔ Readable o :=
  ⟨readable_of_oidText, oidText_readable⟩

/-! ### Records -/

def Content.identifiers : Content → List Identifier
  | .oid o => [o]
  | _ => []

/-- The rendering of a value: the number, the text, the dotted form, null or the digits in hex. -/
def Content.rendering : Content → Json
  | .integer v => .int v
  | .octets raw => .str (utf8Text raw)
  | .oid o => .str (dottedForm o.arcs)
  | .null => .null
  | .other _ raw => .str (hexText raw)

def Binding.identifiers (b : Binding) : List Identifier := b.name :: b.content.identifiers

def Binding.rendering (b : Binding) : Varbind := ⟨dottedForm b.name.arcs, b.content.rendering⟩

def Trap.identifiers (t : Trap) : List Identifier :=
  t.pdu.enterprise.toList ++ t.bindings.flatMap Binding.identifiers

/-- The parser returns a record with the trap's enterprise, for version 1, and its bindings. -/
def Exact (t : Trap) (data : Bytes) (sourceIp : String) (now : Int) : Prop :=
  ∃ r, parseSnmpTrap data sourceIp now = some r ∧ r.varbinds = t.bindings.map Binding.rendering ∧
    ∀ o, t.pdu.enterprise = some o → r.enterpriseOid = some (dottedForm o.arcs)

theorem Content.read_exact_iff (c : Content) :
    c.read = some c.rendering ↔ ∀ o ∈ c.identifiers, Readable o := by
  cases c with
  | oid o =>
    show (oidText o).map Json.str = some (.str (dottedForm o.arcs)) ↔ ∀ p ∈ [o], Readable p
    rw [Option.map_eq_some_iff, List.forall_mem_singleton, ← oidText_exact_iff]
    simp
  | integer | octets | null | other => simp [Content.read, Content.rendering, Content.identifiers]

theorem Binding.read_exact_iff (b : Binding) :
    b.read = some b.rendering ↔ ∀ o ∈ b.identifiers, Readable o := by
  rw [Binding.identifiers, List.forall_mem_cons, ← oidText_exact_iff, ← Content.read_exact_iff]
  unfold Binding.read Binding.rendering
  cases oidText b.name <;> cases b.content.read <;> simp

theorem bindings_exact_iff (bindings : List Binding) :
    bindings.mapM Binding.read = some (bindings.map Binding.rendering) ↔
      ∀ o ∈ bindings.flatMap Binding.identifiers, Readable o := by
  induction bindings with
  | nil => simp
  | cons b bindings ih =>
    rw [List.flatMap_cons, List.forall_mem_append, ← Binding.read_exact_iff, ← ih, List.mapM_cons,
      List.map_cons]
    cases b.read <;> cases bindings.mapM Binding.read <;> simp

theorem dottedForm_ne_empty (o : Identifier) : dottedForm o.arcs ≠ "" := by
  intro empty
  have head := dottedForm_head o.first (o.second :: o.later)
  have some : Json.natText o.first ≠ [] := Nat.toDigits_ne_nil
  rw [show dottedForm (o.first :: o.second :: o.later) = "" from empty] at head
  exact some (List.head?_eq_none_iff.mp head.symm)

/-- The record of a well-formed trap is exact when every identifier in it is readable, and only
then. -/
theorem decoding_exact_iff {t : Trap} {data : Bytes} (written : t.Written data) (sourceIp : String)
    (now : Int) : Exact t data sourceIp now ↔ ∀ o ∈ t.identifiers, Readable o := by
  rw [Exact, parse_written written, Trap.identifiers, List.forall_mem_append,
    ← bindings_exact_iff, Trap.read]
  cases t.pdu with
  | v1 o agent general special time =>
    have enterprise : (∀ p ∈ (some o).toList, Readable p) ↔
        oidText o = some (dottedForm o.arcs) := by
      rw [oidText_exact_iff]
      simp
    have nonempty := dottedForm_ne_empty o
    simp only [Pdu.enterprise, enterprise, Pdu.read]
    cases oidText o with
    | none => simp
    | some text =>
      cases t.bindings.mapM Binding.read with
      | none => simp
      | some varbinds =>
        simp only [Option.map_some, Option.bind_eq_bind, Option.bind_some, Option.some.injEq,
          exists_eq_left', trapRecord, forall_eq', and_comm (a := varbinds = _)]
        refine and_congr_left fun _ => ?_
        by_cases empty : text = ""
        · rw [if_pos empty, empty]
          simp [nonempty.symm]
        · rw [if_neg empty, Option.some.injEq]
  | v2 request status index =>
    simp only [Pdu.enterprise, Pdu.read]
    cases t.bindings.mapM Binding.read with
    | none => simp
    | some varbinds => simp [trapRecord]

/-! ### Two traps -/

def ifIndex : Identifier := ⟨1, 3, [6, 1, 2, 1, 2, 2, 1, 1, 2], .inl (by decide)⟩

def ifDescr : Identifier := ⟨1, 3, [6, 1, 2, 1, 2, 2, 1, 2, 2], .inl (by decide)⟩

def netSnmp : Identifier := ⟨1, 3, [6, 1, 4, 1, 8072], .inl (by decide)⟩

/-- A trap of version 1 with two bindings, of a number and a text. -/
def linkDown : Trap where
  version := [0]
  community := [0x70]
  pdu := .v1 netSnmp [192, 0, 2, 1] [2] [0] [0x01, 0x2C]
  bindings := [⟨ifIndex, .integer 2⟩, ⟨ifDescr, .octets [0x65, 0x74, 0x68, 0x32]⟩]

def linkDownOctets : Bytes :=
  [0x30, 0x48, 0x02, 0x01, 0x00, 0x04, 0x01, 0x70, 0xA4, 0x40,
    0x06, 0x07, 0x2B, 0x06, 0x01, 0x04, 0x01, 0xBF, 0x08, 0x40, 0x04, 0xC0, 0x00, 0x02, 0x01,
    0x02, 0x01, 0x02, 0x02, 0x01, 0x00, 0x43, 0x02, 0x01, 0x2C, 0x30, 0x25,
    0x30, 0x0F, 0x06, 0x0A, 0x2B, 0x06, 0x01, 0x02, 0x01, 0x02, 0x02, 0x01, 0x01, 0x02, 0x02, 0x01, 0x02,
    0x30, 0x12, 0x06, 0x0A, 0x2B, 0x06, 0x01, 0x02, 0x01, 0x02, 0x02, 0x01, 0x02, 0x02, 0x04, 0x04,
    0x65, 0x74, 0x68, 0x32]

theorem netSnmp_contents : netSnmp.contents = [0x2B, 0x06, 0x01, 0x04, 0x01, 0xBF, 0x08] := by
  simp [netSnmp, Identifier.contents, Identifier.subidentifiers, subidentifier, upperDigits]

theorem ifIndex_contents :
    ifIndex.contents = [0x2B, 0x06, 0x01, 0x02, 0x01, 0x02, 0x02, 0x01, 0x01, 0x02] := by
  simp [ifIndex, Identifier.contents, Identifier.subidentifiers, subidentifier, upperDigits]

theorem ifDescr_contents :
    ifDescr.contents = [0x2B, 0x06, 0x01, 0x02, 0x01, 0x02, 0x02, 0x01, 0x02, 0x02] := by
  simp [ifDescr, Identifier.contents, Identifier.subidentifiers, subidentifier, upperDigits]

theorem linkDown_written : linkDown.Written linkDownOctets := by
  have short {n : Nat} (h : Nat.ble (n + 1) 128 = true) : n < 128 := Nat.le_of_ble_eq_true h
  have enterprise : Field tagOid netSnmp.contents
      [0x06, 0x07, 0x2B, 0x06, 0x01, 0x04, 0x01, 0xBF, 0x08] := by
    rw [netSnmp_contents]
    exact .short (short rfl)
  have index : Field tagOid ifIndex.contents
      [0x06, 0x0A, 0x2B, 0x06, 0x01, 0x02, 0x01, 0x02, 0x02, 0x01, 0x01, 0x02] := by
    rw [ifIndex_contents]
    exact .short (short rfl)
  have description : Field tagOid ifDescr.contents
      [0x06, 0x0A, 0x2B, 0x06, 0x01, 0x02, 0x01, 0x02, 0x02, 0x01, 0x02, 0x02] := by
    rw [ifDescr_contents]
    exact .short (short rfl)
  have two : Signed 2 [2] := ⟨by decide, by decide, by decide, by decide⟩
  have first := Binding.Written.mk (b := ⟨ifIndex, .integer 2⟩) index
    (.integer two (.short (short rfl))) (.short (short rfl))
  have second := Binding.Written.mk (b := ⟨ifDescr, .octets [0x65, 0x74, 0x68, 0x32]⟩) description
    (.octets (.short (short rfl))) (.short (short rfl))
  exact .mk (.short (short rfl)) (.short (short rfl))
    (.v1 enterprise (.short (short rfl)) (.short (short rfl)) (.short (short rfl)) (.short (short rfl)))
    (.cons first (.cons second .nil)) (.short (short rfl)) (.short (short rfl)) (.short (short rfl))

theorem linkDown_exact : Exact linkDown linkDownOctets "192.0.2.1" 0 :=
  (decoding_exact_iff linkDown_written "192.0.2.1" 0).mpr (by decide +kernel)

/-- A trap of version 2 with one binding, of a null value. -/
def nullTrap (name : Identifier) : Trap where
  version := [1]
  community := [0x70]
  pdu := .v2 [7] [0] [0]
  bindings := [⟨name, .null⟩]

/-- Its octets, for a name of one octet. -/
def nullTrapOctets (b : UInt8) : Bytes :=
  [0x30, 0x1A, 0x02, 0x01, 0x01, 0x04, 0x01, 0x70, 0xA7, 0x12, 0x02, 0x01, 0x07, 0x02, 0x01, 0x00,
    0x02, 0x01, 0x00, 0x30, 0x07, 0x30, 0x05, 0x06, 0x01, b, 0x05, 0x00]

theorem nullTrap_written {name : Identifier} {b : UInt8} (h : name.contents = [b]) :
    (nullTrap name).Written (nullTrapOctets b) := by
  have short {n : Nat} (h : Nat.ble (n + 1) 128 = true) : n < 128 := Nat.le_of_ble_eq_true h
  have nameField : Field tagOid name.contents [0x06, 0x01, b] := by
    rw [h]
    exact .short (short rfl)
  have binding : Binding.Written ⟨name, .null⟩ [0x30, 0x05, 0x06, 0x01, b, 0x05, 0x00] :=
    .mk nameField (.null (.short (short rfl))) (.short (short rfl))
  exact .mk (.short (short rfl)) (.short (short rfl))
    (.v2 (.short (short rfl)) (.short (short rfl)) (.short (short rfl))) (.cons binding .nil)
    (.short (short rfl)) (.short (short rfl)) (.short (short rfl))

/-- The identifier 2.40 is read as 3.0. -/
theorem decoding_not_exact : ∃ t data, t.Written data ∧ ¬ Exact t data "192.0.2.1" 0 := by
  have contents : Identifier.contents ⟨2, 40, [], .inr rfl⟩ = [0x78] :=
    Identifier.contents_small (by decide)
  refine ⟨nullTrap ⟨2, 40, [], .inr rfl⟩, nullTrapOctets 0x78, nullTrap_written contents, ?_⟩
  rintro ⟨r, parsed, same, -⟩
  have read : (parseSnmpTrap (nullTrapOctets 0x78) "192.0.2.1" 0).map (·.varbinds) =
      some [⟨"3.0", .null⟩] := by decide
  rw [parsed, Option.map_some, same] at read
  exact absurd read (by decide)

end FreeSdn.Collector.Snmp
