import FreeSdn.Lib.Except
import FreeSdn.Lib.JsonText
import FreeSdn.Lib.Text
import FreeSdn.Lib.Utc
import Mathlib.Data.Prod.Lex

/-! The sealed state of the audit chain (`core/audit_state.py`): what it holds, when it is valid, and
the canonical signed bytes that carry it.  Bytes are texts, since the encoding is ASCII. -/

namespace FreeSdn.Audit

open FreeSdn.Lib

/-- Raises `ValueError`. -/
def raiseIf (condition : Bool) (message : String) : Except String Unit :=
  if condition then .error message else .ok ()

def maxRevision : Int := 2 ^ 63 - 1

/-! ### Identities and signatures -/

def isHexLower (c : Char) : Bool := c.isDigit || ('a' ≤ c && c ≤ 'f')

/-- `_HEX`. -/
def isHex64 (text : String) : Bool := text.toList.length == 64 && text.toList.all isHexLower

/-- The text that `str` gives for a UUID. -/
def isUuidText (text : String) : Bool :=
  text.toList.length == 36 && text.toList.zipIdx.all fun (c, i) =>
    if i ∈ [8, 13, 18, 23] then c == '-' else isHexLower c

/-- A UUID, by its text: PostgreSQL orders them as their texts. -/
structure Uuid where
  text : String
  valid : isUuidText text = true
  deriving DecidableEq

theorem Uuid.text_injective : Function.Injective Uuid.text := by
  rintro ⟨a, _⟩ ⟨b, _⟩ same
  obtain rfl : a = b := same
  rfl

/-- `_uuid`. -/
def readUuid (text : String) : Option Uuid :=
  if h : isUuidText text = true then some ⟨text, h⟩ else none

@[simp] theorem readUuid_text (id : Uuid) : readUuid id.text = some id := by
  rw [readUuid, dif_pos id.valid]

/-! ### Positions -/

structure AuditPosition where
  id : Uuid
  sequence : Option Nat
  timestamp : Stamp
  hash : Option String
  deriving DecidableEq

/-- The place of a row in the chain: append sequence, occurrence time, identifier. -/
abbrev Key := Nat ×ₗ Stamp ×ₗ String

def chainKey (sequence : Option Nat) (timestamp : Stamp) (id : Uuid) : Key :=
  toLex (sequence.getD 0, toLex (timestamp, id.text))

/-- `position_key`. -/
def positionKey (p : AuditPosition) : Key := chainKey p.sequence p.timestamp p.id

/-- `_integer`. -/
def checkInteger (value minimum : Int) : Except String Unit :=
  raiseIf (!(minimum ≤ value && value ≤ maxRevision)) "Invalid audit state integer"

/-- `validate_position`; the identifier and the timestamp are canonical by their types. -/
def validatePosition (p : AuditPosition) : Except String Unit := do
  match p.sequence with
  | some n => checkInteger n 1
  | none => .ok ()
  match p.hash with
  | none => raiseIf p.sequence.isSome "Unsigned sequenced audit position"
  | some signature => raiseIf (!isHex64 signature) "Invalid audit position signature"

/-! ### The state -/

/-- `AuditState`; its version is always 1. -/
structure AuditState where
  epoch : Uuid
  tail : Option AuditPosition
  boundary : Option AuditPosition
  liveRows : Int
  legacyRows : Int
  unsignedHistoryRows : Int
  deriving DecidableEq

def validatePositions : List (Option AuditPosition) → Except String Unit
  | [] => .ok ()
  | none :: ps => validatePositions ps
  | some p :: ps => do
    validatePosition p
    validatePositions ps

/-- The checks of `validate_state` on the two positions. -/
def validateEnds (s : AuditState) : Except String Unit :=
  match s.tail, s.boundary with
  | none, boundary => raiseIf (s.liveRows != 0 || boundary.isSome) "Missing audit tail"
  | some _, none =>
    raiseIf (s.liveRows == 0) "Empty retained audit chain has no matching boundary"
  | some tail, some boundary => do
    raiseIf (positionKey tail < positionKey boundary) "Audit boundary follows tail"
    raiseIf (s.liveRows == 0 && tail != boundary)
      "Empty retained audit chain has no matching boundary"
    raiseIf (s.liveRows != 0 && decide (positionKey tail ≤ positionKey boundary))
      "Retained audit tail does not follow boundary"

/-- `validate_state`. -/
def validateState (s : AuditState) : Except String Unit := do
  checkInteger s.liveRows 0
  checkInteger s.legacyRows 0
  checkInteger s.unsignedHistoryRows 0
  raiseIf (s.liveRows < s.legacyRows) "Invalid legacy audit count"
  validatePositions [s.tail, s.boundary]
  validateEnds s

/-! ### The canonical bytes -/

def optionJson {α : Type} (f : α → Json) : Option α → Json
  | none => .null
  | some a => f a

def positionJson (p : AuditPosition) : Json :=
  .obj [("hash", optionJson .str p.hash), ("id", .str p.id.text),
    ("sequence", optionJson (fun n : Nat => .int n) p.sequence),
    ("timestamp", .str (String.ofList p.timestamp.isoformat))]

/-- The state, with its keys in order. -/
def stateJson (s : AuditState) : Json :=
  .obj [("boundary", optionJson positionJson s.boundary), ("epoch", .str s.epoch.text),
    ("legacy_rows", .int s.legacyRows), ("live_rows", .int s.liveRows),
    ("tail", optionJson positionJson s.tail),
    ("unsigned_history_rows", .int s.unsignedHistoryRows), ("v", .int 1)]

/-- `encode_state`. -/
def encodeState (s : AuditState) : Except String (List Char) := do
  validateState s
  let data := (stateJson s).dumps
  raiseIf (8192 < data.length) "Audit state exceeds bound"
  .ok data

def stateMessage (revision : Int) (data : List Char) : List Char :=
  "freesdn.audit.chain-state.v1:".toList ++ Json.intText revision ++ ':' :: data

/-- `sign_state`; `mac` is the keyed digest. -/
def signState (mac : List Char → String) (revision : Int) (data : List Char) :
    Except String String := do
  checkInteger revision 1
  raiseIf (!(1 ≤ data.length && data.length ≤ 8192)) "Invalid audit state signing input"
  .ok (mac (stateMessage revision data))

/-- `INITIAL_STATE`. -/
def initialState : List Char := "\x7b\"state\":\"uninitialized\",\"v\":1\x7d".toList

def readHash : Json → Option (Option String)
  | .null => some none
  | .str text => some (some text)
  | _ => none

def readSequence : Json → Option (Option Nat)
  | .null => some none
  | .int n => if 0 ≤ n then some (some n.toNat) else none
  | _ => none

def readPosition : Json → Option (Option AuditPosition)
  | .null => some none
  | .obj [("hash", hash), ("id", .str id), ("sequence", sequence), ("timestamp", .str stamp)] => do
    let hash ← readHash hash
    let id ← readUuid id
    let sequence ← readSequence sequence
    let timestamp ← Stamp.fromisoformat stamp.toList
    some (some ⟨id, sequence, timestamp, hash⟩)
  | _ => none

/-- The state of a document.  Its keys are in order: any other order is not canonical. -/
def readState : Json → Option AuditState
  | .obj [("boundary", boundary), ("epoch", .str epoch), ("legacy_rows", .int legacy),
      ("live_rows", .int live), ("tail", tail), ("unsigned_history_rows", .int unsigned),
      ("v", .int 1)] => do
    let boundary ← readPosition boundary
    let epoch ← readUuid epoch
    let tail ← readPosition tail
    some ⟨epoch, tail, boundary, live, legacy, unsigned⟩
  | _ => none

/-- `decode_state` behind the signature. -/
def readCanonical (data : List Char) : Except String AuditState :=
  match (Json.loads data).bind readState with
  | none => .error "Invalid audit state format"
  | some s => do
    let again ← encodeState s
    raiseIf (again != data) "Audit state is not canonical"
    .ok s

/-- `decode_state`; `none` is the state that a migration leaves unsealed. -/
def decodeState (mac : List Char → String) (revision : Int) (data : List Char)
    (signature : Option String) : Except String (Option AuditState) := do
  checkInteger revision 0
  raiseIf (!(1 ≤ data.length && data.length ≤ 8192)) "Invalid audit state bytes"
  if revision = 0 ∧ data = initialState ∧ signature = none then .ok none
  else
    match signature with
    | none => .error "Invalid audit state signature"
    | some signature => do
      raiseIf (!isHex64 signature) "Invalid audit state signature"
      let expected ← signState mac revision data
      raiseIf (expected != signature) "Audit state signature mismatch"
      let s ← readCanonical data
      .ok (some s)

/-! ### Valid states -/

/-- What `validate_position` accepts. -/
structure PositionOk (p : AuditPosition) : Prop where
  sequence : ∀ n, p.sequence = some n → 1 ≤ n ∧ (n : Int) ≤ maxRevision
  signed : p.sequence ≠ none → p.hash ≠ none
  hex : ∀ h, p.hash = some h → isHex64 h = true

/-- How the ends of the chain stand to each other and to the number of retained rows. -/
def EndsOk (s : AuditState) : Prop :=
  match s.tail, s.boundary with
  | none, none => s.liveRows = 0
  | none, some _ => False
  | some _, none => s.liveRows ≠ 0
  | some tail, some boundary =>
    (s.liveRows = 0 ∧ tail = boundary) ∨
      (s.liveRows ≠ 0 ∧ positionKey boundary < positionKey tail)

/-- What `validate_state` accepts. -/
structure StateOk (s : AuditState) : Prop where
  live : s.liveRows ≤ maxRevision
  legacy : 0 ≤ s.legacyRows ∧ s.legacyRows ≤ s.liveRows
  unsigned : 0 ≤ s.unsignedHistoryRows ∧ s.unsignedHistoryRows ≤ maxRevision
  tail : ∀ p, s.tail = some p → PositionOk p
  boundary : ∀ p, s.boundary = some p → PositionOk p
  ends : EndsOk s

theorem raiseIf_false {condition : Bool} (h : condition = false) (message : String) :
    raiseIf condition message = .ok () := by
  rw [raiseIf, h]
  rfl

theorem raiseIf_ok {condition : Bool} {message : String} (h : raiseIf condition message = .ok ()) :
    condition = false := by
  cases condition
  · rfl
  · simp [raiseIf] at h

theorem checkInteger_ok {value minimum : Int} (low : minimum ≤ value) (high : value ≤ maxRevision) :
    checkInteger value minimum = .ok () :=
  raiseIf_false (by simp [low, high]) _

theorem validatePosition_ok {p : AuditPosition} (ok : PositionOk p) :
    validatePosition p = .ok () := by
  obtain ⟨id, sequence, timestamp, hash⟩ := p
  unfold validatePosition
  cases sequence with
  | none =>
    cases hash with
    | none => rfl
    | some h => exact raiseIf_false (by simp [ok.hex h rfl]) _
  | some n =>
    obtain ⟨low, high⟩ := ok.sequence n rfl
    dsimp only
    rw [ok_bind (checkInteger_ok (by omega) high)]
    cases hash with
    | none => exact absurd rfl (ok.signed (by simp))
    | some h => exact raiseIf_false (by simp [ok.hex h rfl]) _

theorem validatePositions_ok {ps : List (Option AuditPosition)}
    (ok : ∀ p, some p ∈ ps → PositionOk p) : validatePositions ps = .ok () := by
  induction ps with
  | nil => rfl
  | cons p ps ih =>
    have rest := ih fun q mem => ok q (List.mem_cons_of_mem p mem)
    cases p with
    | none => exact rest
    | some p =>
      rw [validatePositions, ok_bind (validatePosition_ok (ok p List.mem_cons_self)), rest]

theorem validateEnds_ok {s : AuditState} (ok : EndsOk s) : validateEnds s = .ok () := by
  unfold EndsOk at ok
  unfold validateEnds
  split at ok
  · rename_i tail boundary
    rw [tail, boundary]
    exact raiseIf_false (by simp [ok]) _
  · exact ok.elim
  · rename_i t tail boundary
    rw [tail, boundary]
    exact raiseIf_false (by simp [ok]) _
  · rename_i t b tail boundary
    rw [tail, boundary]
    dsimp only
    rcases ok with ⟨empty, rfl⟩ | ⟨live, before⟩
    · rw [ok_bind (raiseIf_false (by simp) _), ok_bind (raiseIf_false (by simp) _)]
      exact raiseIf_false (by simp [empty]) _
    · rw [ok_bind (raiseIf_false (by simp [before.le]) _),
        ok_bind (raiseIf_false (by simp [live]) _)]
      exact raiseIf_false (by simp [live, before]) _

theorem validateState_ok {s : AuditState} (ok : StateOk s) : validateState s = .ok () := by
  obtain ⟨live, ⟨low, legacy⟩, ⟨unsignedLow, unsigned⟩, tail, boundary, ends⟩ := ok
  unfold validateState
  rw [ok_bind (checkInteger_ok (low.trans legacy) live),
    ok_bind (checkInteger_ok low (legacy.trans live)), ok_bind (checkInteger_ok unsignedLow unsigned),
    ok_bind (raiseIf_false (by simpa using legacy) _), ok_bind (validatePositions_ok ?_)]
  · exact validateEnds_ok ends
  · intro p mem
    simp only [List.mem_cons, List.not_mem_nil, or_false] at mem
    rcases mem with here | here
    · exact tail p here.symm
    · exact boundary p here.symm

/-! ### The bytes are short -/

theorem escapeChar_length (c : Char) : (Json.escapeChar c).length ≤ 12 := by
  unfold Json.escapeChar
  repeat' split
  all_goals simp [Json.unicodeEscape]

theorem closeString_length (cs : List Char) : (Json.closeString cs).length ≤ 12 * cs.length + 1 := by
  induction cs with
  | nil => simp [Json.closeString]
  | cons c cs ih =>
    have first := escapeChar_length c
    simp only [Json.closeString, List.flatMap_cons, List.length_append, List.length_cons,
      List.length_nil] at ih ⊢
    omega

theorem intText_length {n : Int} (low : 0 ≤ n) (high : n ≤ maxRevision) :
    (Json.intText n).length ≤ 19 := by
  have small : n.natAbs < 10 ^ 19 := by
    simp only [maxRevision] at high
    omega
  rw [Json.intText, if_neg (by omega)]
  exact (Nat.length_toDigits_le_iff (by decide) (by decide)).mpr small

theorem isoformat_length (s : Stamp) : s.isoformat.length ≤ 32 := by
  unfold Stamp.isoformat
  split <;> simp [length_pad]

theorem position_length {p : AuditPosition} (ok : PositionOk p) :
    (positionJson p).dumps.length ≤ 1800 := by
  obtain ⟨id, sequence, timestamp, hash⟩ := p
  have uuid : id.text.toList.length = 36 := by
    have valid := id.valid
    simp only [isUuidText, Bool.and_eq_true, beq_iff_eq] at valid
    exact valid.1
  have hashed : (optionJson Json.str hash).dumps.length ≤ 770 := by
    cases hash with
    | none => simp [optionJson, Json.dumps]
    | some h =>
      have valid := ok.hex h rfl
      simp only [isHex64, Bool.and_eq_true, beq_iff_eq] at valid
      have text := closeString_length h.toList
      simp only [optionJson, Json.dumps, List.length_cons]
      omega
  have numbered : (optionJson (fun n : Nat => Json.int n) sequence).dumps.length ≤ 19 := by
    cases sequence with
    | none => simp [optionJson, Json.dumps]
    | some n => exact intText_length (by omega) (ok.sequence n rfl).2
  have idText := closeString_length id.text.toList
  have stamp := closeString_length timestamp.isoformat
  have width := isoformat_length timestamp
  have keys : (Json.closeString "hash".toList).length = 5 ∧ (Json.closeString "id".toList).length = 3 ∧
      (Json.closeString "sequence".toList).length = 9 ∧
      (Json.closeString "timestamp".toList).length = 10 := by decide
  simp only [positionJson, Json.dumps, Json.dumpsMembers, List.length_cons, List.length_append,
    List.length_nil, String.toList_ofList, keys]
  omega

theorem state_length {s : AuditState} (ok : StateOk s) : (stateJson s).dumps.length ≤ 8192 := by
  have optional (p : Option AuditPosition) (each : ∀ q, p = some q → PositionOk q) :
      (optionJson positionJson p).dumps.length ≤ 1800 := by
    cases p with
    | none => simp [optionJson, Json.dumps]
    | some q => exact position_length (each q rfl)
  have tail := optional s.tail ok.tail
  have boundary := optional s.boundary ok.boundary
  have uuid : s.epoch.text.toList.length = 36 := by
    have valid := s.epoch.valid
    simp only [isUuidText, Bool.and_eq_true, beq_iff_eq] at valid
    exact valid.1
  have epoch := closeString_length s.epoch.text.toList
  have live := intText_length (ok.legacy.1.trans ok.legacy.2) ok.live
  have legacy := intText_length ok.legacy.1 (ok.legacy.2.trans ok.live)
  have unsigned := intText_length ok.unsigned.1 ok.unsigned.2
  have keys : (Json.closeString "boundary".toList).length = 9 ∧
      (Json.closeString "epoch".toList).length = 6 ∧
      (Json.closeString "legacy_rows".toList).length = 12 ∧
      (Json.closeString "live_rows".toList).length = 10 ∧
      (Json.closeString "tail".toList).length = 5 ∧
      (Json.closeString "unsigned_history_rows".toList).length = 22 ∧
      (Json.closeString "v".toList).length = 2 ∧ (Json.intText 1).length = 1 := by decide
  simp only [stateJson, Json.dumps, Json.dumpsMembers, List.length_cons, List.length_append,
    List.length_nil, keys]
  omega

/-! ### The bytes round trip -/

theorem readPosition_json (p : Option AuditPosition) :
    readPosition (optionJson positionJson p) = some p := by
  cases p with
  | none => rfl
  | some p =>
    obtain ⟨id, sequence, timestamp, hash⟩ := p
    have hashed : readHash (optionJson .str hash) = some hash := by cases hash <;> rfl
    have numbered : readSequence (optionJson (fun n : Nat => .int n) sequence) = some sequence := by
      cases sequence <;> simp [optionJson, readSequence]
    rw [optionJson, positionJson, readPosition]
    simp [hashed, numbered, Stamp.fromisoformat_isoformat]

theorem readState_json (s : AuditState) : readState (stateJson s) = some s := by
  simp [stateJson, readState, readPosition_json]

theorem encodeState_ok {s : AuditState} (ok : StateOk s) :
    encodeState s = .ok (stateJson s).dumps := by
  unfold encodeState
  rw [ok_bind (validateState_ok ok),
    ok_bind (raiseIf_false (by simpa using state_length ok) _)]

theorem dumps_state_ne_nil (s : AuditState) : 1 ≤ (stateJson s).dumps.length := by
  simp [stateJson, Json.dumps]

theorem signState_ok {s : AuditState} (ok : StateOk s) (mac : List Char → String) {revision : Int}
    (low : 1 ≤ revision) (high : revision ≤ maxRevision) :
    signState mac revision (stateJson s).dumps =
      .ok (mac (stateMessage revision (stateJson s).dumps)) := by
  unfold signState
  rw [ok_bind (checkInteger_ok low high),
    ok_bind (raiseIf_false (by simp [dumps_state_ne_nil, state_length ok]) _)]

/-- The bytes that `store_locked_state` writes decode to the state it was given. -/
theorem decodeState_encoded {s : AuditState} (ok : StateOk s) {mac : List Char → String}
    (hex : ∀ m, isHex64 (mac m) = true) {revision : Int} (low : 1 ≤ revision)
    (high : revision ≤ maxRevision) :
    decodeState mac revision (stateJson s).dumps
      (some (mac (stateMessage revision (stateJson s).dumps))) = .ok (some s) := by
  have read : readCanonical (stateJson s).dumps = .ok s := by
    unfold readCanonical
    rw [Json.loads_dumps, Option.bind_some, readState_json]
    dsimp only
    rw [ok_bind (encodeState_ok ok), ok_bind (raiseIf_false (by simp) _)]
  unfold decodeState
  rw [ok_bind (checkInteger_ok (by omega) high),
    ok_bind (raiseIf_false (by simp [dumps_state_ne_nil, state_length ok]) _),
    if_neg (by simp)]
  dsimp only
  rw [ok_bind (raiseIf_false (by simp [hex]) _), ok_bind (signState_ok ok mac low high),
    ok_bind (raiseIf_false (by simp) _), ok_bind read]

end FreeSdn.Audit
