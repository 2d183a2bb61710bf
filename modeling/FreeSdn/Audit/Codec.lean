import FreeSdn.Audit.State
import FreeSdn.Lib.JsonKeys

/-! The codec of the sealed state as it stands at the boundary (`core/audit_state.py`): `validate_state`
takes any object, `encode_state` writes canonical bytes and `decode_state` reads bytes of any origin.
The typed state of `Audit.State` is what the accepted objects denote. -/

namespace FreeSdn.Audit.Codec

open FreeSdn.Lib
open FreeSdn.Lib.Json (item sortKeys Equal)
open FreeSdn.Lib.Utf8 (Octets)

/-! ### Validation -/

def positionFields : List String := ["hash", "id", "sequence", "timestamp"]

def stateFields : List String :=
  ["boundary", "epoch", "legacy_rows", "live_rows", "tail", "unsigned_history_rows", "v"]

/-- `set(value) == keys`, of a dictionary. -/
def hasKeys (keys : List String) (ms : Dict) : Bool := (ms.map Prod.fst).isPerm keys

/-- `_integer`. -/
def checkInteger (value : Json) (minimum : Int) : Except String Unit :=
  match value with
  | .int n => Audit.checkInteger n minimum
  | _ => .error "Invalid audit state integer"

/-- `_uuid`. -/
def checkUuid : Json → Except String Unit
  | .str text => raiseIf (!isUuidText text) "Invalid audit state identity"
  | _ => .error "Invalid audit state identity"

/-- The instant of a text that `isoformat` writes in UTC. -/
def readStamp : Json → Option Stamp
  | .str text => (Stamp.fromisoformat text.toList).filter fun t => t.isoformat = text.toList
  | _ => none

def checkTimestamp (stamp : Json) : Except String Unit :=
  match stamp with
  | .str text => do
    raiseIf (40 < text.length) "Invalid audit state timestamp"
    raiseIf (readStamp stamp).isNone "Audit state timestamp is not canonical UTC"
  | _ => .error "Invalid audit state timestamp"

def checkSequence (sequence : Json) : Except String Unit :=
  if sequence = .null then .ok () else checkInteger sequence 1

/-- The signature of a position; only a position without a sequence may be unsigned. -/
def checkSignature (sequence signature : Json) : Except String Unit :=
  match signature with
  | .null => raiseIf (sequence ≠ .null) "Unsigned sequenced audit position"
  | .str text => raiseIf (!isHex64 text) "Invalid audit position signature"
  | _ => .error "Invalid audit position signature"

/-- `validate_position`. -/
def validatePosition : Json → Except String Unit
  | .obj p => do
    raiseIf (!hasKeys positionFields p) "Invalid audit state position"
    checkUuid (item p "id")
    checkSequence (item p "sequence")
    checkTimestamp (item p "timestamp")
    checkSignature (item p "sequence") (item p "hash")
  | _ => .error "Invalid audit state position"

/-- `position["sequence"] or 0`. -/
def sequenceOf : Json → Nat
  | .int n => n.toNat
  | _ => 0

def textOf : Json → String
  | .str text => text
  | _ => ""

/-- `position_key`. -/
def positionKey : Json → Option Key
  | .obj p => (readStamp (item p "timestamp")).map fun t =>
      toLex (sequenceOf (item p "sequence"), toLex (t, textOf (item p "id")))
  | _ => none

/-- The keys of two positions compare. -/
def compareKeys (relation : Key → Key → Bool) (a b : Json) : Bool :=
  (positionKey a).any fun k => (positionKey b).any fun l => relation k l

/-- The checks of `validate_state` on the two positions. -/
def validateEnds (live tail boundary : Json) : Except String Unit := do
  raiseIf (tail = .null && (live ≠ .int 0 || boundary ≠ .null)) "Missing audit tail"
  raiseIf (boundary ≠ .null && compareKeys (fun b t => t < b) boundary tail)
    "Audit boundary follows tail"
  raiseIf (live = .int 0 && !decide (Equal tail boundary))
    "Empty retained audit chain has no matching boundary"
  raiseIf (live ≠ .int 0 && boundary ≠ .null && compareKeys (fun b t => t ≤ b) boundary tail)
    "Retained audit tail does not follow boundary"

def validateOptional (position : Json) : Except String Unit :=
  if position = .null then .ok () else validatePosition position

/-- `a > b`, of integers. -/
def exceeds : Json → Json → Bool
  | .int a, .int b => b < a
  | _, _ => false

/-- `validate_state`. -/
def validateState : Json → Except String Unit
  | .obj s => do
    raiseIf (!(hasKeys stateFields s && item s "v" = .int 1)) "Invalid audit state format"
    checkUuid (item s "epoch")
    checkInteger (item s "live_rows") 0
    checkInteger (item s "legacy_rows") 0
    checkInteger (item s "unsigned_history_rows") 0
    raiseIf (exceeds (item s "legacy_rows") (item s "live_rows")) "Invalid legacy audit count"
    validateOptional (item s "tail")
    validateOptional (item s "boundary")
    validateEnds (item s "live_rows") (item s "tail") (item s "boundary")
  | _ => .error "Invalid audit state format"

/-! ### The codec -/

/-- `encode_state`. -/
def encodeState (state : Json) : Except String Octets := do
  validateState state
  let data := Utf8.encode (sortKeys state).dumps
  raiseIf (8192 < data.length) "Audit state exceeds bound"
  .ok data

/-- What `sign_state` signs. -/
def message (revision : Int) (data : Octets) : Octets :=
  Utf8.encode ("freesdn.audit.chain-state.v1:".toList ++ (Json.intText revision ++ [':'])) ++ data

/-- `sign_state`; `hmac` is `hmac.new(key, message, sha256).hexdigest()`. -/
def signState (hmac : Octets → Octets → String) (revision : Int) (data key : Octets) :
    Except String String := do
  Audit.checkInteger revision 1
  raiseIf (!(1 ≤ data.length && data.length ≤ 8192) || key = []) "Invalid audit state signing input"
  .ok (hmac key (message revision data))

/-- A document of scalars and of objects, `depth` deep at most, without floats and with integers of 64
bits. -/
def Plain : Nat → Json → Bool
  | 0, _ => false
  | _ + 1, .null => true
  | _ + 1, .bool _ => true
  | _ + 1, .int n => decide (-maxRevision ≤ n) && decide (n ≤ maxRevision)
  | _ + 1, .float _ => false
  | _ + 1, .str _ => true
  | _ + 1, .arr _ => false
  | depth + 1, .obj ms => ms.all fun m => Plain depth m.2

/-- `json.loads` of bytes, with the members of an object as they come, repeated keys included.  It reads
back what `json.dumps` wrote for a small document; of other bytes it may make anything. -/
structure Reader where
  loads : Octets → Option Json
  reads : ∀ v, Plain 3 v = true → loads (Utf8.encode v.dumps) = some v

/-- `json.loads(data, object_pairs_hook=_pairs)`. -/
def loadPairs (r : Reader) (data : Octets) : Except String Json := do
  let value ← orRaise (r.loads data) "not a JSON document"
  raiseIf (!Json.keysDistinct value) "Duplicate audit state field"
  .ok value

/-- `decode_state` behind the signature. -/
def readCanonical (r : Reader) (data : Octets) : Except String Json := do
  let state ← loadPairs r data
  let again ← encodeState state
  raiseIf (again ≠ data) "Audit state is not canonical"
  .ok state

/-- `decode_state`; `none` is the state that a migration leaves unsealed. -/
def decodeState (r : Reader) (hmac : Octets → Octets → String) (revision : Int) (data : Octets)
    (signature : Option String) (key : Octets) : Except String (Option Json) := do
  Audit.checkInteger revision 0
  raiseIf (!(1 ≤ data.length && data.length ≤ 8192)) "Invalid audit state bytes"
  if revision = 0 ∧ data = Utf8.encode initialState ∧ signature = none then .ok none
  else do
    let signature ← orRaise signature "Invalid audit state signature"
    raiseIf (!isHex64 signature) "Invalid audit state signature"
    let expected ← signState hmac revision data key
    raiseIf (expected ≠ signature) "Audit state signature mismatch"
    let state ← readCanonical r data
    .ok (some state)

/-! ### What is accepted -/

theorem raiseIf_bind {β : Type} {condition : Bool} {message : String} {f : Unit → Except String β}
    {b : β} (h : (raiseIf condition message >>= f) = .ok b) : condition = false ∧ f () = .ok b := by
  obtain ⟨u, passed, rest⟩ := bind_ok h
  exact ⟨raiseIf_ok passed, rest⟩

theorem checkInteger_spec {value : Json} {minimum : Int} (h : checkInteger value minimum = .ok ()) :
    ∃ n : Int, value = .int n ∧ minimum ≤ n ∧ n ≤ maxRevision := by
  unfold checkInteger at h
  split at h
  · rename_i n
    have inside := raiseIf_ok h
    simp only [Bool.not_eq_false', Bool.and_eq_true, decide_eq_true_eq] at inside
    exact ⟨n, rfl, inside⟩
  · cases h

theorem checkUuid_spec {value : Json} (h : checkUuid value = .ok ()) :
    ∃ id : Uuid, value = .str id.text := by
  unfold checkUuid at h
  split at h
  · rename_i text
    have valid := raiseIf_ok h
    exact ⟨⟨text, by simpa using valid⟩, rfl⟩
  · cases h

theorem readStamp_spec {value : Json} {t : Stamp} (h : readStamp value = some t) :
    value = .str (String.ofList t.isoformat) := by
  unfold readStamp at h
  split at h
  · rename_i text
    obtain ⟨-, canonical⟩ := Option.filter_eq_some_iff.mp h
    rw [of_decide_eq_true canonical, String.ofList_toList]
  · cases h

theorem readStamp_isoformat (t : Stamp) : readStamp (.str (String.ofList t.isoformat)) = some t := by
  simp [readStamp, Stamp.fromisoformat_isoformat]

theorem checkTimestamp_spec {value : Json} (h : checkTimestamp value = .ok ()) :
    ∃ t : Stamp, readStamp value = some t := by
  unfold checkTimestamp at h
  split at h
  · have known := raiseIf_ok (raiseIf_bind h).2
    exact Option.isSome_iff_exists.mp (by simpa using known)
  · cases h

theorem checkSignature_spec {sequence signature : Json}
    (h : checkSignature sequence signature = .ok ()) :
    (signature = .null ∧ sequence = .null) ∨ ∃ text, signature = .str text ∧ isHex64 text = true := by
  unfold checkSignature at h
  split at h
  · exact Or.inl ⟨rfl, by simpa using raiseIf_ok h⟩
  · rename_i text
    exact Or.inr ⟨text, rfl, by simpa using raiseIf_ok h⟩
  · cases h

theorem positionFields_sorted : positionFields.Pairwise (· < ·) := by decide

theorem stateFields_sorted : stateFields.Pairwise (· < ·) := by decide

/-- The sequence and the signature that a position denotes. -/
theorem signature_spec {sequence signature : Json}
    (numbered : checkSequence sequence = .ok ())
    (signed : checkSignature sequence signature = .ok ()) :
    ∃ (n : Option Nat) (hash : Option String),
      sequence = optionJson (fun n : Nat => .int n) n ∧ signature = optionJson .str hash ∧
        n.getD 0 = sequenceOf sequence ∧ (∀ k, n = some k → 1 ≤ k ∧ (k : Int) ≤ maxRevision) ∧
          (n ≠ none → hash ≠ none) ∧ ∀ text, hash = some text → isHex64 text = true := by
  have number : ∃ n : Option Nat, sequence = optionJson (fun n : Nat => .int n) n ∧
      n.getD 0 = sequenceOf sequence ∧ ∀ k, n = some k → 1 ≤ k ∧ (k : Int) ≤ maxRevision := by
    unfold checkSequence at numbered
    split at numbered
    · rename_i unnumbered
      exact ⟨none, unnumbered, by simp [unnumbered, sequenceOf], by simp⟩
    · obtain ⟨n, rfl, low, high⟩ := checkInteger_spec numbered
      have natural : ((n.toNat : Nat) : Int) = n := by omega
      refine ⟨some n.toNat, by simp [optionJson, natural], rfl, ?_⟩
      rintro k same
      obtain rfl := Option.some.inj same
      omega
  obtain ⟨n, rfl, value, bounds⟩ := number
  rcases checkSignature_spec signed with ⟨rfl, unnumbered⟩ | ⟨text, rfl, hex⟩
  · refine ⟨n, none, rfl, rfl, value, bounds, ?_, by simp⟩
    cases n with
    | none => simp
    | some n => simp [optionJson] at unnumbered
  · refine ⟨n, some text, rfl, rfl, value, bounds, by simp, ?_⟩
    rintro _ same
    obtain rfl := Option.some.inj same
    exact hex

/-- An accepted position denotes a valid one. -/
theorem validatePosition_spec {value : Json} (h : validatePosition value = .ok ()) :
    ∃ p : AuditPosition, PositionOk p ∧ sortKeys value = positionJson p ∧
      positionKey value = some (Audit.positionKey p) := by
  unfold validatePosition at h
  split at h
  · rename_i ms
    obtain ⟨keys, h⟩ := raiseIf_bind h
    obtain ⟨_, uuid, h⟩ := bind_ok h
    obtain ⟨_, numbered, h⟩ := bind_ok h
    obtain ⟨_, stamped, signed⟩ := bind_ok h
    have same : (ms.map Prod.fst).Perm positionFields :=
      List.isPerm_iff.mp (by simpa [hasKeys] using keys)
    obtain ⟨id, idText⟩ := checkUuid_spec uuid
    obtain ⟨t, stamp⟩ := checkTimestamp_spec stamped
    obtain ⟨n, hash, sequence, signature, number, bounds, needed, hex⟩ := signature_spec numbered signed
    refine ⟨⟨id, n, t, hash⟩, ⟨bounds, needed, hex⟩, ?_, ?_⟩
    · have hashed : sortKeys (optionJson .str hash) = optionJson .str hash := by
        cases hash <;> simp [optionJson, sortKeys]
      have numbered : sortKeys (optionJson (fun n : Nat => .int n) n) =
          optionJson (fun n : Nat => .int n) n := by
        cases n <;> simp [optionJson, sortKeys]
      rw [Json.sortKeys_obj positionFields_sorted same]
      simp [positionFields, positionJson, idText, sequence, signature, readStamp_spec stamp, hashed,
        numbered, sortKeys]
    · simp [positionKey, stamp, idText, textOf, ← number, Audit.positionKey, chainKey]
  · cases h

/-- What an accepted optional position denotes. -/
theorem validateOptional_spec {value : Json} (h : validateOptional value = .ok ()) :
    ∃ p : Option AuditPosition, (∀ q, p = some q → PositionOk q) ∧
      sortKeys value = optionJson positionJson p ∧ (value = .null ↔ p = none) ∧
        ∀ q, p = some q → positionKey value = some (Audit.positionKey q) := by
  unfold validateOptional at h
  split at h
  · rename_i absent
    exact ⟨none, by simp, by simp [absent, sortKeys, optionJson], by simp [absent], by simp⟩
  · rename_i present
    obtain ⟨p, ok, sorted, key⟩ := validatePosition_spec h
    refine ⟨some p, ?_, sorted, by simp [present], ?_⟩
    · rintro q same
      obtain rfl := Option.some.inj same
      exact ok
    · rintro q same
      obtain rfl := Option.some.inj same
      exact key

theorem optionPosition_injective : Function.Injective (optionJson positionJson) := by
  intro p q same
  have read := readPosition_json p
  rw [same, readPosition_json] at read
  exact (Option.some.inj read).symm

/-- What the accepted ends of a chain denote. -/
theorem validateEnds_spec {live : Int} {tail boundary : Json} {t b : Option AuditPosition}
    (h : validateEnds (.int live) tail boundary = .ok ())
    (tailSorted : sortKeys tail = optionJson positionJson t)
    (boundarySorted : sortKeys boundary = optionJson positionJson b)
    (tailNull : tail = .null ↔ t = none) (boundaryNull : boundary = .null ↔ b = none)
    (tailKey : ∀ q, t = some q → positionKey tail = some (Audit.positionKey q))
    (boundaryKey : ∀ q, b = some q → positionKey boundary = some (Audit.positionKey q))
    {s : AuditState} (liveRows : s.liveRows = live) (isTail : s.tail = t) (isBoundary : s.boundary = b) :
    EndsOk s := by
  obtain ⟨missing, h⟩ := raiseIf_bind h
  obtain ⟨later, h⟩ := raiseIf_bind h
  obtain ⟨unmatched, retained⟩ := raiseIf_bind h
  have retained := raiseIf_ok retained
  have equal : Equal tail boundary ↔ t = b := by
    rw [Equal, tailSorted, boundarySorted, optionPosition_injective.eq_iff]
  unfold EndsOk
  rw [isTail, isBoundary, liveRows]
  cases t with
  | none =>
    have noTail : tail = .null := tailNull.mpr rfl
    simp only [noTail, decide_true, Bool.true_and, Bool.or_eq_false_iff, decide_eq_false_iff_not,
      not_not, Json.int.injEq] at missing
    have noBoundary := boundaryNull.mp missing.2
    rw [noBoundary]
    exact missing.1
  | some t =>
    cases b with
    | none =>
      simp only [equal, reduceCtorEq, decide_false, Bool.not_false, Bool.and_true,
        decide_eq_false_iff_not, Json.int.injEq] at unmatched
      exact unmatched
    | some b =>
      have present : boundary ≠ .null := fun null => by simpa using boundaryNull.mp null
      by_cases empty : live = 0
      · simp only [empty, decide_true, Bool.true_and, Bool.not_eq_false', decide_eq_true_eq,
          equal, Option.some.injEq] at unmatched
        exact Or.inl ⟨empty, unmatched⟩
      · refine Or.inr ⟨empty, ?_⟩
        simpa [empty, present, compareKeys, tailKey, boundaryKey] using retained

/-- An accepted object denotes a valid state. -/
theorem validateState_spec {value : Json} (h : validateState value = .ok ()) :
    ∃ s : AuditState, StateOk s ∧ sortKeys value = stateJson s := by
  unfold validateState at h
  split at h
  · rename_i ms
    obtain ⟨format, h⟩ := raiseIf_bind h
    obtain ⟨_, uuid, h⟩ := bind_ok h
    obtain ⟨_, live, h⟩ := bind_ok h
    obtain ⟨_, legacy, h⟩ := bind_ok h
    obtain ⟨_, unsigned, h⟩ := bind_ok h
    obtain ⟨counted, h⟩ := raiseIf_bind h
    obtain ⟨_, tail, h⟩ := bind_ok h
    obtain ⟨_, boundary, ends⟩ := bind_ok h
    simp only [Bool.not_eq_false', Bool.and_eq_true, decide_eq_true_eq] at format
    have same : (ms.map Prod.fst).Perm stateFields := List.isPerm_iff.mp format.1
    obtain ⟨epoch, epochText⟩ := checkUuid_spec uuid
    obtain ⟨n, liveRows, liveLow, liveHigh⟩ := checkInteger_spec live
    obtain ⟨l, legacyRows, legacyLow, legacyHigh⟩ := checkInteger_spec legacy
    obtain ⟨u, unsignedRows, unsignedLow, unsignedHigh⟩ := checkInteger_spec unsigned
    obtain ⟨t, tailOk, tailSorted, tailNull, tailKey⟩ := validateOptional_spec tail
    obtain ⟨b, boundaryOk, boundarySorted, boundaryNull, boundaryKey⟩ := validateOptional_spec boundary
    rw [liveRows] at ends counted
    have atMost : l ≤ n := by
      rw [legacyRows, exceeds, decide_eq_false_iff_not] at counted
      omega
    refine ⟨⟨epoch, t, b, n, l, u⟩, ⟨liveHigh, ⟨legacyLow, atMost⟩, ⟨unsignedLow, unsignedHigh⟩,
      tailOk, boundaryOk, ?_⟩, ?_⟩
    · exact validateEnds_spec ends tailSorted boundarySorted tailNull boundaryNull tailKey boundaryKey
        rfl rfl rfl
    · rw [Json.sortKeys_obj stateFields_sorted same]
      simp [stateFields, stateJson, epochText, liveRows, legacyRows, unsignedRows, tailSorted,
        boundarySorted, format.2, sortKeys]
  · cases h

/-! ### Valid states are accepted -/

theorem checkInteger_int {n minimum : Int} (low : minimum ≤ n) (high : n ≤ maxRevision) :
    checkInteger (.int n) minimum = .ok () := checkInteger_ok low high

theorem checkUuid_text (id : Uuid) : checkUuid (.str id.text) = .ok () :=
  raiseIf_false (by simp [id.valid]) _

theorem validatePosition_json {p : AuditPosition} (ok : PositionOk p) :
    validatePosition (positionJson p) = .ok () := by
  obtain ⟨id, sequence, timestamp, hash⟩ := p
  have numbered : checkSequence (optionJson (fun n : Nat => .int n) sequence) = .ok () := by
    cases sequence with
    | none => rfl
    | some n =>
      obtain ⟨low, high⟩ := ok.sequence n rfl
      rw [checkSequence, optionJson, if_neg (by simp)]
      exact checkInteger_int (by omega) high
  have stamped : checkTimestamp (.str (String.ofList timestamp.isoformat)) = .ok () := by
    have short := isoformat_length timestamp
    unfold checkTimestamp
    dsimp only
    rw [ok_bind (raiseIf_false (by simp; omega) _)]
    exact raiseIf_false (by rw [readStamp_isoformat]; rfl) _
  have signed : checkSignature (optionJson (fun n : Nat => .int n) sequence) (optionJson .str hash) =
      .ok () := by
    cases hash with
    | none =>
      cases sequence with
      | none => rfl
      | some n => exact absurd rfl (ok.signed (by simp))
    | some text => exact raiseIf_false (by simp [ok.hex text rfl]) _
  unfold validatePosition positionJson
  dsimp only
  refine (ok_bind (raiseIf_false rfl _)).trans ?_
  refine (ok_bind (checkUuid_text id)).trans ?_
  exact (ok_bind numbered).trans ((ok_bind stamped).trans signed)

theorem validateOptional_json {p : Option AuditPosition} (ok : ∀ q, p = some q → PositionOk q) :
    validateOptional (optionJson positionJson p) = .ok () := by
  cases p with
  | none => rfl
  | some p =>
    rw [validateOptional, optionJson, if_neg (by simp [positionJson])]
    exact validatePosition_json (ok p rfl)

theorem positionKey_json (p : AuditPosition) :
    positionKey (positionJson p) = some (Audit.positionKey p) := by
  obtain ⟨id, sequence, timestamp, hash⟩ := p
  have number : sequenceOf (optionJson (fun n : Nat => .int n) sequence) = sequence.getD 0 := by
    cases sequence <;> simp [sequenceOf, optionJson]
  have stamp := readStamp_isoformat timestamp
  simp [positionJson, positionKey, item, List.lookup_cons, stamp, textOf, number, Audit.positionKey,
    chainKey]

theorem validateEnds_json {s : AuditState} (ok : EndsOk s) :
    validateEnds (.int s.liveRows) (optionJson positionJson s.tail)
      (optionJson positionJson s.boundary) = .ok () := by
  unfold EndsOk at ok
  unfold validateEnds
  split at ok
  · rename_i tail boundary
    rw [tail, boundary, ok]
    rfl
  · exact ok.elim
  · rename_i t tail boundary
    have differs : ¬ Equal (positionJson t) .null := by
      unfold Equal positionJson
      simp [sortKeys]
    rw [tail, boundary]
    simp only [optionJson]
    rw [ok_bind (raiseIf_false (by simp [positionJson]) _), ok_bind (raiseIf_false (by simp) _),
      ok_bind (raiseIf_false (by simp [ok]) _)]
    exact raiseIf_false (by simp) _
  · rename_i t b tail boundary
    have known (relation : Key → Key → Bool) : compareKeys relation (positionJson b) (positionJson t) =
        relation (Audit.positionKey b) (Audit.positionKey t) := by
      simp [compareKeys, positionKey_json]
    rw [tail, boundary]
    simp only [optionJson, known]
    rw [ok_bind (raiseIf_false (by simp [positionJson]) _)]
    rcases ok with ⟨empty, rfl⟩ | ⟨live, before⟩
    · rw [ok_bind (raiseIf_false (by simp) _), ok_bind (raiseIf_false (by simp [Equal]) _)]
      exact raiseIf_false (by simp [empty]) _
    · rw [ok_bind (raiseIf_false (by simp [before.le]) _), ok_bind (raiseIf_false (by simp [live]) _)]
      exact raiseIf_false (by simp [live, before]) _

/-- The document of a valid state is accepted. -/
theorem validateState_json {s : AuditState} (ok : StateOk s) : validateState (stateJson s) = .ok () := by
  have live := checkInteger_int (ok.legacy.1.trans ok.legacy.2) ok.live
  have legacy := checkInteger_int ok.legacy.1 (ok.legacy.2.trans ok.live)
  have unsigned := checkInteger_int ok.unsigned.1 ok.unsigned.2
  have counted : raiseIf (exceeds (.int s.legacyRows) (.int s.liveRows)) "Invalid legacy audit count" =
      .ok () := raiseIf_false (by simpa [exceeds] using ok.legacy.2) _
  unfold validateState stateJson
  dsimp only
  refine (ok_bind (raiseIf_false rfl _)).trans ?_
  refine (ok_bind (checkUuid_text s.epoch)).trans ?_
  refine (ok_bind live).trans ((ok_bind legacy).trans ((ok_bind unsigned).trans ?_))
  refine (ok_bind counted).trans ?_
  refine (ok_bind (validateOptional_json ok.tail)).trans ?_
  exact (ok_bind (validateOptional_json ok.boundary)).trans (validateEnds_json ok.ends)

/-! ### The bytes -/

theorem sortKeys_stateJson (s : AuditState) : sortKeys (stateJson s) = stateJson s := by
  have position (p : Option AuditPosition) :
      sortKeys (optionJson positionJson p) = optionJson positionJson p := by
    cases p with
    | none => simp [optionJson, sortKeys]
    | some p =>
      have hash : sortKeys (optionJson .str p.hash) = optionJson .str p.hash := by
        cases p.hash <;> simp [optionJson, sortKeys]
      have sequence : sortKeys (optionJson (fun n : Nat => .int n) p.sequence) =
          optionJson (fun n : Nat => .int n) p.sequence := by
        cases p.sequence <;> simp [optionJson, sortKeys]
      rw [optionJson, positionJson, Json.sortKeys_obj positionFields_sorted (.refl _)]
      simp [positionFields, item, List.lookup_cons, hash, sequence, sortKeys]
  rw [stateJson, Json.sortKeys_obj stateFields_sorted (.refl _)]
  simp [stateFields, item, List.lookup_cons, position, sortKeys]

/-- An accepted object is encoded as the document of the state that it denotes. -/
theorem encodeState_spec {value : Json} {data : Octets} (h : encodeState value = .ok data) :
    ∃ s : AuditState, StateOk s ∧ sortKeys value = stateJson s ∧
      data = Utf8.encode (stateJson s).dumps := by
  obtain ⟨_, valid, h⟩ := bind_ok h
  obtain ⟨_, encoded⟩ := raiseIf_bind h
  obtain ⟨s, ok, sorted⟩ := validateState_spec valid
  refine ⟨s, ok, sorted, ?_⟩
  rw [← sorted]
  exact (Except.ok.inj encoded).symm

theorem data_length {s : AuditState} (ok : StateOk s) :
    1 ≤ (Utf8.encode (stateJson s).dumps).length ∧ (Utf8.encode (stateJson s).dumps).length ≤ 8192 := by
  rw [Json.length_encode (Json.dumps_ascii _)]
  exact ⟨dumps_state_ne_nil s, state_length ok⟩

theorem encodeState_valid {value : Json} {s : AuditState} (valid : validateState value = .ok ())
    (ok : StateOk s) (sorted : sortKeys value = stateJson s) :
    encodeState value = .ok (Utf8.encode (stateJson s).dumps) := by
  have bounded := (data_length ok).2
  rw [encodeState, ok_bind valid, sorted]
  exact ok_bind (raiseIf_false (by simpa using bounded) _)

/-- The typed encoder of `Audit.State` writes the same bytes. -/
theorem encodeState_typed {s : AuditState} {text : List Char} (ok : StateOk s) :
    Audit.encodeState s = .ok text ↔ encodeState (stateJson s) = .ok (Utf8.encode text) := by
  rw [Audit.encodeState_ok ok, encodeState_valid (validateState_json ok) ok (sortKeys_stateJson s),
    Except.ok.injEq, Except.ok.injEq]
  exact (Function.LeftInverse.injective Utf8.decode_encode).eq_iff.symm

/-! ### Reading back -/

theorem plain_obj (depth : Nat) (ms : Dict) :
    Plain (depth + 1) (.obj ms) = ms.all fun m => Plain depth m.2 := rfl

theorem plain_position {p : Option AuditPosition} (ok : ∀ q, p = some q → PositionOk q) :
    Plain 2 (optionJson positionJson p) = true := by
  cases p with
  | none => rfl
  | some p =>
    have hash : Plain 1 (optionJson .str p.hash) = true := by cases p.hash <;> rfl
    have sequence : Plain 1 (optionJson (fun n : Nat => .int n) p.sequence) = true := by
      cases numbered : p.sequence with
      | none => rfl
      | some n =>
        have high := ((ok p rfl).sequence n numbered).2
        have low : -maxRevision ≤ (n : Int) := by
          unfold maxRevision
          omega
        simp [optionJson, Plain, low, high]
    have text (t : String) : Plain 1 (.str t) = true := rfl
    show Plain 2 (positionJson p) = true
    rw [positionJson, plain_obj]
    simp only [List.all_cons, List.all_nil, hash, sequence, text, Bool.and_self]

theorem plain_state {s : AuditState} (ok : StateOk s) : Plain 3 (stateJson s) = true := by
  have number {n : Int} (low : 0 ≤ n) (high : n ≤ maxRevision) : Plain 2 (.int n) = true := by
    have below : -maxRevision ≤ n := by
      unfold maxRevision
      omega
    simp [Plain, below, high]
  have live := number (ok.legacy.1.trans ok.legacy.2) ok.live
  have legacy := number ok.legacy.1 (ok.legacy.2.trans ok.live)
  have unsigned := number ok.unsigned.1 ok.unsigned.2
  have text (t : String) : Plain 2 (.str t) = true := rfl
  have version : Plain 2 (.int 1) = true := number (by decide) (by decide)
  rw [stateJson, plain_obj]
  simp only [List.all_cons, List.all_nil, plain_position ok.tail, plain_position ok.boundary, live,
    legacy, unsigned, text, version, Bool.and_self]

theorem keysDistinct_state (s : AuditState) : Json.keysDistinct (stateJson s) = true := by
  have position (p : Option AuditPosition) : Json.keysDistinct (optionJson positionJson p) = true := by
    cases p with
    | none => rfl
    | some p =>
      have hash : Json.keysDistinct (optionJson .str p.hash) = true := by cases p.hash <;> rfl
      have sequence : Json.keysDistinct (optionJson (fun n : Nat => .int n) p.sequence) = true := by
        cases p.sequence <;> rfl
      show Json.keysDistinct (positionJson p) = true
      simp [positionJson, Json.keysDistinct, Json.membersDistinct, hash, sequence]
  simp [stateJson, Json.keysDistinct, Json.membersDistinct, position]

theorem readCanonical_spec {r : Reader} {data : Octets} {state : Json}
    (h : readCanonical r data = .ok state) : encodeState state = .ok data := by
  obtain ⟨value, -, h⟩ := bind_ok h
  obtain ⟨again, encoded, h⟩ := bind_ok h
  obtain ⟨same, h⟩ := raiseIf_bind h
  obtain rfl := Except.ok.inj h
  rw [encoded, of_not_not (of_decide_eq_false same)]

/-- What `decode_state` returns as a state was signed, and is encoded as the bytes. -/
theorem decodeState_spec {r : Reader} {hmac : Octets → Octets → String} {revision : Int}
    {data key : Octets} {signature : Option String} {state : Json}
    (h : decodeState r hmac revision data signature key = .ok (some state)) :
    encodeState state = .ok data ∧ 1 ≤ revision ∧
      signature = some (hmac key (message revision data)) := by
  obtain ⟨_, _, h⟩ := bind_ok h
  obtain ⟨_, h⟩ := raiseIf_bind h
  split at h
  · cases Except.ok.inj h
  · obtain ⟨text, given, h⟩ := bind_ok h
    obtain ⟨_, h⟩ := raiseIf_bind h
    obtain ⟨expected, signed, h⟩ := bind_ok h
    obtain ⟨same, h⟩ := raiseIf_bind h
    obtain ⟨value, read, h⟩ := bind_ok h
    obtain rfl := Option.some.inj (Except.ok.inj h)
    obtain ⟨_, numbered, signed⟩ := bind_ok signed
    obtain ⟨_, signed⟩ := raiseIf_bind signed
    have positive := raiseIf_ok numbered
    simp only [Bool.not_eq_false', Bool.and_eq_true, decide_eq_true_eq] at positive
    refine ⟨readCanonical_spec read, positive.1, ?_⟩
    rw [orRaise_ok given, ← of_not_not (of_decide_eq_false same), ← Except.ok.inj signed]

theorem readCanonical_state (r : Reader) {s : AuditState} (ok : StateOk s) :
    readCanonical r (Utf8.encode (stateJson s).dumps) = .ok (stateJson s) := by
  have loaded : loadPairs r (Utf8.encode (stateJson s).dumps) = .ok (stateJson s) := by
    unfold loadPairs
    rw [r.reads _ (plain_state ok)]
    exact (ok_bind rfl).trans (ok_bind (raiseIf_false (by simp [keysDistinct_state]) _))
  unfold readCanonical
  rw [ok_bind loaded, ok_bind (encodeState_valid (validateState_json ok) ok (sortKeys_stateJson s))]
  exact ok_bind (raiseIf_false (by simp) _)

/-- An accepted state, signed, decodes to itself. -/
theorem decodeState_encode (r : Reader) {hmac : Octets → Octets → String} {key : Octets}
    (nonempty : key ≠ []) (hex : ∀ m, isHex64 (hmac key m) = true) {value : Json}
    (valid : validateState value = .ok ()) {revision : Int} (low : 1 ≤ revision)
    (high : revision ≤ maxRevision) : ∃ data signature state, encodeState value = .ok data ∧
      data.length ≤ 8192 ∧ signState hmac revision data key = .ok signature ∧
        decodeState r hmac revision data (some signature) key = .ok (some state) ∧
          Equal state value := by
  obtain ⟨s, ok, sorted⟩ := validateState_spec valid
  have length := data_length ok
  have inside : raiseIf (!(1 ≤ (Utf8.encode (stateJson s).dumps).length &&
      (Utf8.encode (stateJson s).dumps).length ≤ 8192) || key = []) "Invalid audit state signing input" =
        .ok () := raiseIf_false (by simp [length, nonempty]) _
  have signed : signState hmac revision (Utf8.encode (stateJson s).dumps) key =
      .ok (hmac key (message revision (Utf8.encode (stateJson s).dumps))) := by
    unfold signState
    rw [ok_bind (checkInteger_ok low high), ok_bind inside]
  refine ⟨_, _, stateJson s, encodeState_valid valid ok sorted, length.2, signed, ?_, ?_⟩
  · unfold decodeState
    rw [ok_bind (checkInteger_ok (by omega) high), ok_bind (raiseIf_false (by simp [length]) _),
      if_neg (by simp)]
    refine (ok_bind rfl).trans ((ok_bind (raiseIf_false (by simp [hex]) _)).trans ?_)
    refine (ok_bind signed).trans ((ok_bind (raiseIf_false (by simp) _)).trans ?_)
    exact ok_bind (readCanonical_state r ok)
  · rw [Equal, sortKeys_stateJson, sorted]

/-- Equal states have the same bytes. -/
theorem encodeState_equal {a b : Json} {data data' : Octets} (first : encodeState a = .ok data)
    (second : encodeState b = .ok data') (same : Equal a b) : data = data' := by
  obtain ⟨s, -, sorted, rfl⟩ := encodeState_spec first
  obtain ⟨t, -, sorted', rfl⟩ := encodeState_spec second
  rw [← sorted, ← sorted', show sortKeys a = sortKeys b from same]

/-- A revision and the text behind it can be told from the signed message. -/
theorem intText_colon {m n : Int} {cs ds : List Char}
    (same : Json.intText m ++ ':' :: cs = Json.intText n ++ ':' :: ds) : m = n ∧ cs = ds := by
  have ends (es : List Char) : Json.Ends (':' :: es) := by
    intro c first
    obtain rfl := Option.some.inj first
    rfl
  have numbers := congrArg (List.takeWhile isNumberChar) same
  have rests := congrArg (List.dropWhile isNumberChar) same
  rw [Json.takeWhile_append_ends (Json.intText_number m) (ends cs),
    Json.takeWhile_append_ends (Json.intText_number n) (ends ds)] at numbers
  rw [Json.dropWhile_append_ends (Json.intText_number m) (ends cs),
    Json.dropWhile_append_ends (Json.intText_number n) (ends ds)] at rests
  have read := Json.readInt_intText m
  rw [numbers, Json.readInt_intText] at read
  exact ⟨(Option.some.inj read).symm, (List.cons.inj rests).2⟩

theorem message_injective {m n : Int} {cs ds : List Char}
    (same : message m (Utf8.encode cs) = message n (Utf8.encode ds)) : m = n ∧ cs = ds := by
  have joined (r : Int) (es : List Char) : message r (Utf8.encode es) =
      Utf8.encode ("freesdn.audit.chain-state.v1:".toList ++ (Json.intText r ++ ':' :: es)) := by
    simp [message, Utf8.encode]
  rw [joined, joined] at same
  have texts := Function.LeftInverse.injective Utf8.decode_encode same
  exact intText_colon (List.append_cancel_left texts)

/-- The codec is a canonical bijection: accepted states survive it, accepted bytes are those of their
state, and a signature belongs to one revision and its bytes, unless the digest collides. -/
theorem codec_bijective (r : Reader) (hmac : Octets → Octets → String) (key : Octets)
    (nonempty : key ≠ []) (hex : ∀ m, isHex64 (hmac key m) = true) :
    (∀ state revision, validateState state = .ok () → 1 ≤ revision → revision ≤ maxRevision →
      ∃ data signature again, encodeState state = .ok data ∧ data.length ≤ 8192 ∧
        signState hmac revision data key = .ok signature ∧
          decodeState r hmac revision data (some signature) key = .ok (some again) ∧
            Equal again state) ∧
    (∀ revision data signature state,
      decodeState r hmac revision data signature key = .ok (some state) →
        encodeState state = .ok data) ∧
    ∀ revision revision' data data' signature signature' state state',
      decodeState r hmac revision data signature key = .ok (some state) →
      decodeState r hmac revision' data' signature' key = .ok (some state') →
        (Equal state state' → data = data') ∧
        (signature = signature' →
          (hmac key (message revision data) = hmac key (message revision' data') →
            message revision data = message revision' data') →
          revision = revision' ∧ data = data') := by
  refine ⟨?_, fun _ _ _ _ accepted => (decodeState_spec accepted).1, ?_⟩
  · intro state revision valid low high
    exact decodeState_encode r nonempty hex valid low high
  · intro revision revision' data data' signature signature' state state' accepted accepted'
    obtain ⟨encoded, -, signed⟩ := decodeState_spec accepted
    obtain ⟨encoded', -, signed'⟩ := decodeState_spec accepted'
    refine ⟨encodeState_equal encoded encoded', ?_⟩
    intro same collisionFree
    have digests : hmac key (message revision data) = hmac key (message revision' data') :=
      Option.some.inj (signed.symm.trans (same.trans signed'))
    have messages := collisionFree digests
    obtain ⟨s, -, -, rfl⟩ := encodeState_spec encoded
    obtain ⟨t, -, -, rfl⟩ := encodeState_spec encoded'
    obtain ⟨rfl, texts⟩ := message_injective messages
    exact ⟨rfl, by rw [texts]⟩

/-- A reader of compact UTF-8 documents. -/
def textReader : Reader where
  loads data := Json.loads (Utf8.decode data)
  reads v _ := by rw [Utf8.decode_encode, Json.loads_dumps]

/-- A chain of two rows behind a boundary, with its members out of order. -/
def retainedChain : Json :=
  .obj [("v", .int 1), ("epoch", .str "00000000-0000-0000-0000-000000000003"),
    ("tail", .obj [("id", .str "00000000-0000-0000-0000-000000000004"), ("sequence", .int 3),
      ("timestamp", .str "2026-01-01T00:00:04+00:00"),
      ("hash", .str "5fcafb4305110e9e3a5a5f7f20217a49019d395935075d7073f9013aa69c8332")]),
    ("boundary", .obj [("id", .str "00000000-0000-0000-0000-000000000002"), ("sequence", .int 1),
      ("timestamp", .str "2026-01-01T00:00:02+00:00"),
      ("hash", .str "369fce5fe2316aea5827ed754ec22a6fd957270dbc63c40ca66dfae49cf8dd64")]),
    ("live_rows", .int 2), ("legacy_rows", .int 0), ("unsigned_history_rows", .int 0)]

/-- The bytes of `key`. -/
def shortKey : Octets := [107, 101, 121]

/-- HMAC-SHA256 under `shortKey` on the state above at revision 4, and some digest of everything else. -/
def shortKeyed (_ : Octets) (m : Octets) : String :=
  if m.length = 505 then "97347fd9ff916e66686543dc4112cc43d36077b79cc4ab834d4fb35c9aa9b7e8"
  else "".pushn '0' 64

theorem shortKeyed_hex (key m : Octets) : isHex64 (shortKeyed key m) = true := by
  unfold shortKeyed
  split <;> decide +kernel

theorem retainedChain_survives : ∃ data signature again, encodeState retainedChain = .ok data ∧
    data.length ≤ 8192 ∧ signState shortKeyed 4 data shortKey = .ok signature ∧
      decodeState textReader shortKeyed 4 data (some signature) shortKey = .ok (some again) ∧
        Equal again retainedChain :=
  (codec_bijective textReader shortKeyed shortKey (by decide) (shortKeyed_hex shortKey)).1
    retainedChain 4 (by decide +kernel) (by decide) (by decide)

end FreeSdn.Audit.Codec
