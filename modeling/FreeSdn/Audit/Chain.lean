import FreeSdn.Lib.OrderBy
import FreeSdn.Lib.Run
import FreeSdn.Lib.Table
import FreeSdn.Audit.Record

/-! The audit chain over its table (`services/audit_chain.py`): appending and retention under the
sealed state, and the verification of one snapshot.  Each operation runs in one savepoint under the
chain lock: an error leaves the store as it was. -/

namespace FreeSdn.Audit

open FreeSdn.Lib

/-- The row of `audit_chain_state`. -/
structure Anchor where
  revision : Int
  bytes : List Char
  signature : Option String
  deriving DecidableEq

/-- The metadata of a snapshot. -/
structure Meta where
  anchor : Option Anchor
  liveRows : Int
  legacyRows : Int
  unsignedRows : Int
  tail : Option AuditLogRecord
  previous : Option AuditLogRecord
  startExists : Bool
  endExists : Bool
  boundsOrdered : Bool

/-- What the service takes from outside: the keyed digest, `str.lower`, what a `JSONB` column returns
for what was written, and the lengths of the JSON texts of a snapshot. -/
structure Env where
  mac : List Char → String
  lower : String → String
  jsonb : Json → Json
  rowBytes : AuditLogRecord → Nat
  metaBytes : Meta → Nat

structure Store where
  rows : List AuditLogRecord
  anchor : Option Anchor
  /-- The last value that the append sequence gave out. -/
  lastSequence : Nat
  deriving DecidableEq

instance : Keyed AuditLogRecord Uuid := ⟨AuditLogRecord.id⟩

@[simp] theorem key_record (r : AuditLogRecord) : Keyed.key r = r.id := rfl

/-- The rows in the order of the chain. -/
def chainOrder (rows : List AuditLogRecord) : List AuditLogRecord := orderBy rowKey rows

/-- The row that the `DESC LIMIT 1` queries return. -/
def tailRow (rows : List AuditLogRecord) : Option AuditLogRecord := (chainOrder rows).getLast?

def legacyCount (rows : List AuditLogRecord) : Nat := rows.countP fun r => r.appendSequence.isNone

def unsignedCount (rows : List AuditLogRecord) : Nat := rows.countP fun r => r.rowHmac.isNone

/-! ### The locked state -/

/-- `captured_state`. -/
def capturedState (rows : List AuditLogRecord) (epoch : Uuid) : AuditState :=
  { epoch := epoch, tail := (tailRow rows).map position, boundary := none, liveRows := rows.length
    legacyRows := legacyCount rows, unsignedHistoryRows := unsignedCount rows }

/-- `load_locked_state`; `epoch` is drawn for a state that is not sealed yet. -/
def loadLockedState (env : Env) (store : Store) (epoch : Uuid) : Except String (Int × AuditState) :=
  match store.anchor with
  | none => .error "Missing audit chain state; refusing silent genesis"
  | some anchor => do
    let state ← decodeState env.mac anchor.revision anchor.bytes anchor.signature
    raiseIf (anchor.revision == maxRevision) "Audit state revision exhausted"
    .ok (anchor.revision, state.getD (capturedState store.rows epoch))

/-- `check_locked_tail`. -/
def checkLockedTail (env : Env) (store : Store) (state : AuditState) : Except String Unit :=
  if state.liveRows ≠ 0 then
    match tailRow store.rows with
    | none => .error "Audit tail differs from authenticated state"
    | some row => do
      raiseIf (some (position row) != state.tail) "Audit tail differs from authenticated state"
      verifyBody env.mac row
  else
    raiseIf ((tailRow store.rows).isSome || state.tail != state.boundary)
      "Empty audit history differs from authenticated boundary"

/-- `store_locked_state`. -/
def storeLockedState (env : Env) (store : Store) (revision : Int) (state : AuditState) :
    Except String Store := do
  let payload ← encodeState state
  let signature ← signState env.mac (revision + 1) payload
  raiseIf ((store.anchor.map (·.revision)) != some revision)
    "Audit state changed during serialized operation"
  .ok { store with anchor := some ⟨revision + 1, payload, some signature⟩ }

/-! ### Appending -/

/-- The row as the database returns it. -/
def readBack (env : Env) (r : AuditLogRecord) : AuditLogRecord :=
  { r with
    changes := env.jsonb r.changes, previousState := env.jsonb r.previousState
    newState := env.jsonb r.newState, tags := env.jsonb r.tags
    extraMetadata := env.jsonb r.extraMetadata }

/-- The rows that fit a PostgreSQL table: 291 in each of its 2^32 - 1 pages. -/
def maxTableRows : Nat := 4294967295 * 291

/-- The row linked to the tail, numbered and signed. -/
def signRow (env : Env) (state : AuditState) (sequence : Nat) (record : AuditLogRecord) :
    AuditLogRecord :=
  let numbered :=
    { record with prevHash := state.tail.bind (·.hash), appendSequence := some sequence }
  { numbered with rowHmac := some (computeRowHmac env.mac numbered.prevHash numbered) }

/-- `persist_record` up to the flush of the row: the store with the row, and the state to seal. -/
def appendRow (env : Env) (store : Store) (draft : Draft) (generated : Uuid) (now : Stamp)
    (sequence : Nat) (epoch : Uuid) : Except String (Store × Int × AuditState) := do
  let record ← draft.complete env.lower generated now
  let (revision, state) ← loadLockedState env store epoch
  checkLockedTail env store state
  raiseIf (sequence ≤ (state.tail.bind (·.sequence)).getD 0)
    "Audit append sequence does not advance retained state"
  let row := signRow env state sequence record
  raiseIf (Table.lookup store.rows row.id).isSome "duplicate key value"
  raiseIf (maxTableRows ≤ store.rows.length) "table is full"
  .ok ({ store with rows := store.rows ++ [readBack env row] }, revision,
    { state with tail := some (position row), liveRows := state.liveRows + 1 })

/-- `persist_record`. -/
def persistRecord (env : Env) (store : Store) (draft : Draft) (generated : Uuid) (now : Stamp)
    (sequence : Nat) (epoch : Uuid) : Except String Store := do
  let (store, revision, state) ← appendRow env store draft generated now sequence epoch
  storeLockedState env store revision state

/-! ### Retention -/

/-- The rows that `prune_prefix` chooses, and the hash and the signed flag behind them. -/
def choose (env : Env) (cutoff : Stamp) (expected : Option String) (sawSignature : Bool) :
    List AuditLogRecord → Except String (List AuditLogRecord × Option String × Bool)
  | [] => .ok ([], expected, sawSignature)
  | row :: rows =>
    if cutoff ≤ row.timestamp then .ok ([], expected, sawSignature)
    else do
      verifyBody env.mac row
      raiseIf (row.prevHash != expected) "Audit retention would hide a broken link"
      raiseIf (row.rowHmac.isNone && sawSignature)
        "Audit retention would hide an unsigned interior row"
      let (chosen, behind) ← choose env cutoff row.rowHmac (row.rowHmac.isSome || sawSignature) rows
      .ok (row :: chosen, behind)

/-- The checks on what follows the chosen rows. -/
def checkFollowing (env : Env) (state : AuditState) (chosen : List AuditLogRecord)
    (expected : Option String) (sawSignature : Bool) :
    List AuditLogRecord → Except String Unit
  | following :: _ => do
    verifyBody env.mac following
    raiseIf (sawSignature && (following.rowHmac.isNone || following.prevHash != expected))
      "Audit retention boundary does not link to the retained row"
  | [] =>
    raiseIf ((chosen.length : Int) != state.liveRows || chosen.getLast?.map position != state.tail)
      "Audit retention tail/count differs from authenticated state"

/-- `prune_prefix` up to the deletion; `none` when no row is chosen. -/
def pruneRows (env : Env) (store : Store) (cutoff : Stamp) (batchSize : Int) (epoch : Uuid) :
    Except String (Option (Store × Int × AuditState)) := do
  raiseIf (!(1 ≤ batchSize && batchSize ≤ 1000)) "Invalid audit retention batch size"
  let (revision, state) ← loadLockedState env store epoch
  checkLockedTail env store state
  raiseIf ((store.rows.length : Int) != state.liveRows)
    "Audit retention refuses an unaccounted row-count change"
  let rows := (chainOrder store.rows).take (batchSize.toNat + 1)
  let expected := state.boundary.bind (·.hash)
  let (chosen, expected, sawSignature) ←
    choose env cutoff expected expected.isSome (rows.take batchSize.toNat)
  if chosen = [] then .ok none
  else do
    raiseIf (state.liveRows < chosen.length)
      "Audit retention count differs from authenticated state"
    checkFollowing env state chosen expected sawSignature (rows.drop chosen.length)
    let kept := store.rows.filter fun r => decide (r.id ∉ chosen.map (·.id))
    raiseIf (store.rows.length - kept.length != chosen.length)
      "Audit retention delete count changed"
    .ok (some ({ store with rows := kept }, revision,
      { state with
        boundary := chosen.getLast?.map position, liveRows := state.liveRows - chosen.length
        legacyRows := state.legacyRows - legacyCount chosen }))

/-- `prune_prefix`. -/
def prunePrefix (env : Env) (store : Store) (cutoff : Stamp) (batchSize : Int) (epoch : Uuid) :
    Except String Store := do
  match ← pruneRows env store cutoff batchSize epoch with
  | none => .ok store
  | some (store, revision, state) => storeLockedState env store revision state

/-! ### Verification -/

/-- The window between two rows, as far as they are given. -/
def inWindow (rows : List AuditLogRecord) (startId endId : Option Uuid) (r : AuditLogRecord) : Bool :=
  (startId.all fun id => (Table.lookup rows id).any fun s => decide (rowKey s ≤ rowKey r)) &&
    endId.all fun id => (Table.lookup rows id).any fun e => decide (rowKey r ≤ rowKey e)

/-- `snapshot`: one statement over the committed rows. -/
def snapshot (env : Env) (store : Store) (startId endId : Option Uuid) (size : Nat) :
    Except String (Meta × List AuditLogRecord) := do
  let rows := store.rows
  let picked := (chainOrder (rows.filter (inWindow rows startId endId))).take (size + 1)
  let previous := picked.head?.bind fun first =>
    tailRow (rows.filter fun r => decide (rowKey r < rowKey first))
  let startRow := startId.bind (Table.lookup rows)
  let endRow := endId.bind (Table.lookup rows)
  let info : Meta :=
    { anchor := store.anchor, liveRows := rows.length, legacyRows := legacyCount rows
      unsignedRows := unsignedCount rows, tail := tailRow rows, previous := previous
      startExists := startId.isNone || startRow.isSome
      endExists := endId.isNone || endRow.isSome
      boundsOrdered := startId.isNone || endId.isNone ||
        startRow.any fun s => endRow.any fun e => decide (rowKey s ≤ rowKey e) }
  raiseIf (8 * 1024 * 1024 < env.metaBytes info + (picked.map env.rowBytes).sum)
    "Audit verification window exceeds 8 MiB; choose a smaller window"
  .ok (info, picked)

/-- A rejection, with the row it names. -/
abbrev Rejection := Option AuditLogRecord × String

def plainly {α : Type} : Except String α → Except Rejection α
  | .ok a => .ok a
  | .error reason => .error (none, reason)

/-- The tail check of `verified_snapshot_state`. -/
def checkSnapshotTail (env : Env) (info : Meta) (state : AuditState) : Except Rejection Unit :=
  if state.liveRows ≠ 0 then
    match info.tail with
    | none => .error (none, "Audit tail differs from authenticated state")
    | some tail => do
      plainly (raiseIf (some (position tail) != state.tail)
        "Audit tail differs from authenticated state")
      match verifyBody env.mac tail with
      | .ok () => .ok ()
      | .error reason => .error (some tail, reason)
  else
    plainly (raiseIf (info.tail.isSome || state.tail != state.boundary)
      "Empty retained audit history differs from authenticated boundary")

/-- `verified_snapshot_state`. -/
def verifiedSnapshotState (env : Env) (info : Meta) : Except Rejection (Option AuditState) :=
  match info.anchor with
  | none => .error (none, "Missing audit chain state")
  | some anchor => do
    let state ← plainly (decodeState env.mac anchor.revision anchor.bytes anchor.signature)
    match state with
    | none => .ok none
    | some state => do
      plainly (raiseIf (info.liveRows != state.liveRows || info.legacyRows != state.legacyRows)
        "Retained audit row count differs from authenticated state")
      plainly (raiseIf (state.unsignedHistoryRows < info.unsignedRows)
        "Audit history contains unexpected unsigned records")
      checkSnapshotTail env info state
      .ok (some state)

/-- What the loop of `validate_audit_chain` keeps. -/
structure Scan where
  checked : Nat
  unchained : Nat
  legacy : Nat
  boundaryVerified : Bool
  lastSeen : Option String
  seenChained : Bool
  deriving DecidableEq

/-- One row of the loop: the scan with the row counted, and why it is broken. -/
def scanRow (env : Env) (s : Scan) (row : AuditLogRecord) : Scan × Option String :=
  let s := { s with
    checked := s.checked + 1, legacy := s.legacy + if row.appendSequence.isNone then 1 else 0 }
  match row.rowHmac with
  | none =>
    if s.seenChained || row.appendSequence.isSome then
      (s, some "row_hmac is NULL on a signed-chain row")
    else ({ s with unchained := s.unchained + 1, boundaryVerified := false }, none)
  | some signature =>
    if row.prevHash ≠ s.lastSeen then (s, some "prev_hash mismatch in append order")
    else
      match verifyBody env.mac row with
      | .error _ => (s, some "row_hmac mismatch (row body or append position modified)")
      | .ok () => ({ s with lastSeen := some signature, seenChained := true }, none)

def scanRows (env : Env) (s : Scan) : List AuditLogRecord → Scan × Option (AuditLogRecord × String)
  | [] => (s, none)
  | row :: rows =>
    match scanRow env s row with
    | (s, some reason) => (s, some (row, reason))
    | (s, none) => scanRows env s rows

structure Report where
  valid : Bool
  checked : Nat
  unchained : Nat
  brokenAt : Option Uuid
  brokenReason : Option String
  legacyRows : Nat
  boundaryVerified : Bool
  complete : Bool
  historyAuthenticated : Bool
  retainedHistoryAuthenticated : Bool
  stateAuthenticated : Bool
  unsignedHistoryRows : Option Int
  retentionApplied : Bool
  externalImmutabilityProven : Bool
  nextStartId : Option Uuid
  deriving DecidableEq

/-- `report`, with the variables that it closes over. -/
def report (bounded : Bool) (more : Bool) (nextId : Option Uuid) (state : Option AuditState)
    (s : Scan) (broken : Option Rejection) : Report :=
  let valid := broken.isNone
  let complete := valid && !more && !bounded
  { valid := valid, checked := s.checked, unchained := s.unchained
    brokenAt := broken.bind fun b => b.1.map (·.id), brokenReason := broken.map (·.2)
    legacyRows := s.legacy, boundaryVerified := valid && s.boundaryVerified, complete := complete
    historyAuthenticated := false
    retainedHistoryAuthenticated := complete && s.boundaryVerified && s.unchained == 0 &&
      state.any fun state => state.unsignedHistoryRows == 0
    stateAuthenticated := state.isSome
    unsignedHistoryRows := state.map (·.unsignedHistoryRows)
    retentionApplied := state.any fun state => state.boundary.isSome
    externalImmutabilityProven := false
    nextStartId := if valid then nextId else none }

def Scan.zero : Scan := ⟨0, 0, 0, false, none, false⟩

/-- Where the loop starts: behind the predecessor, the retention boundary, or at genesis. -/
def scanStart (state : Option AuditState) (predecessor : Option AuditLogRecord) : Scan :=
  match predecessor, state.bind (·.boundary) with
  | some row, _ =>
    { Scan.zero with
      lastSeen := row.rowHmac, seenChained := row.rowHmac.isSome
      boundaryVerified := state.isSome && row.rowHmac.isSome }
  | none, some boundary =>
    { Scan.zero with
      lastSeen := boundary.hash, seenChained := boundary.hash.isSome
      boundaryVerified := boundary.hash.isSome }
  | none, none => { Scan.zero with boundaryVerified := state.isSome }

/-- `validate_audit_chain` behind the snapshot. -/
def validateRows (env : Env) (bounded : Bool) (size : Nat) (info : Meta)
    (state : Option AuditState) (rows : List AuditLogRecord) : Report :=
  let reject (reason : String) := report bounded false none state Scan.zero (some (none, reason))
  if !info.startExists then reject "start_id does not exist"
  else if !info.endExists then reject "end_id does not exist"
  else if !info.boundsOrdered then reject "start_id follows end_id"
  else
    let more := decide (size < rows.length)
    let nextId := rows[size]?.map (·.id)
    let start := scanStart state info.previous
    match info.previous.map fun row => (row, verifyBody env.mac row) with
    | some (row, .error _) =>
      report bounded more nextId state { Scan.zero with boundaryVerified := state.isSome }
        (some (some row, "Predecessor row body modified"))
    | _ =>
      let (s, broken) := scanRows env start (rows.take size)
      report bounded more nextId state s (broken.map fun b => (some b.1, b.2))

/-- `validate_audit_chain`. -/
def validateAuditChain (env : Env) (store : Store) (startId endId : Option Uuid) (limit : Int) :
    Report :=
  let size := (max 1 (min limit 100000)).toNat
  let bounded := startId.isSome || endId.isSome
  match snapshot env store startId endId size with
  | .error reason => report bounded false none none Scan.zero (some (none, reason))
  | .ok (info, rows) =>
    match verifiedSnapshotState env info with
    | .error rejection => report bounded false none none Scan.zero (some rejection)
    | .ok state => validateRows env bounded size info state rows

/-! ### Runs -/

inductive Event
  | persist (draft : Draft) (generated : Uuid) (now : Stamp) (sequence : Nat) (epoch : Uuid)
  | prune (cutoff : Stamp) (batchSize : Int) (epoch : Uuid)

/-- The append sequence gives out growing values of a `bigint`. -/
def Advances (store : Store) (sequence : Nat) : Prop :=
  store.lastSequence < sequence ∧ (sequence : Int) ≤ maxRevision

instance (store : Store) (sequence : Nat) : Decidable (Advances store sequence) :=
  inferInstanceAs (Decidable (_ ∧ _))

/-- One operation; a failed one is rolled back, but for the value of the sequence. -/
def step (env : Env) (store : Store) : Event → Option Store
  | .persist draft generated now sequence epoch =>
    if Advances store sequence then
      let next := match persistRecord env store draft generated now sequence epoch with
        | .ok next => next
        | .error _ => store
      some { next with lastSequence := sequence }
    else none
  | .prune cutoff batchSize epoch =>
    match prunePrefix env store cutoff batchSize epoch with
    | .ok next => some next
    | .error _ => some store

end FreeSdn.Audit
