import FreeSdn.Signing.Keys
import Mathlib.Data.List.Dedup

/-! The journal of the signing identity (`models/agent_signing.py`): operations and the active identity with
the constraints and triggers of their tables, and the transactions of `agent_signing_lifecycle.py`. -/

namespace FreeSdn.Signing

open FreeSdn.Lib

/-- `HTTPException`, `SigningKeyError`, or what is no answer: `SigningBusyError`, `DBAPIError` and
`TimeoutError`. -/
inductive Refusal
  | http (code : Nat) (detail : String)
  | signing
  | unconfirmed
  deriving DecidableEq

def conflict (condition : Bool) (detail : String) : Except Refusal Unit :=
  require condition (.http 409 detail)

/-- A check of the database. -/
def constraint (condition : Bool) : Except Refusal Unit := require condition .unconfirmed

def signing : Except Raised α → Except Refusal α
  | .ok a => .ok a
  | .error _ => .error .signing

/-! ### Commands -/

inductive Action
  | initialization
  | adopt
  | resume
  | cancel
  | recover
  | inspect
  deriving DecidableEq

structure Command where
  action : Action
  operationId : Nat
  installationId : Nat
  identityEpoch : Nat
  expectedPublicSha256 : Option String

/-- `SigningCommand.__post_init__`. -/
def Command.valid (c : Command) : Bool :=
  1 ≤ c.identityEpoch && c.identityEpoch < 2 ^ 63 && c.expectedPublicSha256.all isDigest &&
    match c.action with
    | .inspect => c.operationId = 0 && c.installationId = 0 && c.identityEpoch = 1 &&
      c.expectedPublicSha256.isNone
    | .initialization => c.expectedPublicSha256.isNone
    | .adopt => c.expectedPublicSha256.isSome
    | .recover => c.expectedPublicSha256.isSome
    | _ => true

structure SigningCommand extends Command where
  ok : toCommand.valid = true

/-! ### Rows -/

inductive Kind
  | initialization
  | adopt
  deriving DecidableEq

inductive IntentState
  | pending
  | prepared
  | activated
  | cancelled
  deriving DecidableEq

structure AgentSigningIntent where
  operationId : Nat
  installationId : Nat
  identityEpoch : Nat
  kind : Kind
  expectedPublicSha256 : Option String
  state : IntentState
  requestedBy : Nat
  createdAt : Nat
  publicKeyPem : Option (List UInt8)
  publicKeySha256 : Option String
  preparedAt : Option Nat
  closedAt : Option Nat
  closedBy : Option Nat
  deriving DecidableEq

structure AgentSigningIdentity where
  formatVersion : Nat
  purpose : String
  installationId : Nat
  identityEpoch : Nat
  operationId : Nat
  publicKeyPem : List UInt8
  publicKeySha256 : String
  activatedBy : Nat
  activatedAt : Nat
  deriving DecidableEq

/-- `agents` and `releases` say if there is a row of `RemoteAgent` and of `AgentRelease`. -/
structure Journal where
  intents : List AgentSigningIntent
  identity : Option AgentSigningIdentity
  agents : Bool
  releases : Bool

variable (h : Host)

namespace AgentSigningIntent

def isOpen (i : AgentSigningIntent) : Bool := i.state = .pending || i.state = .prepared

def expectedIdentity (i : AgentSigningIntent) : Bool :=
  match i.kind with
  | .initialization => i.expectedPublicSha256.isNone
  | .adopt => i.expectedPublicSha256.any isDigest

def publicBinding (i : AgentSigningIntent) : Bool :=
  match i.publicKeyPem, i.publicKeySha256, i.preparedAt with
  | none, none, none => true
  | some pem, some sha256, some _ => 1 ≤ pem.length && pem.length ≤ 4096 && sha256 = h.sha256 pem &&
    (i.kind = .initialization || i.expectedPublicSha256 = some sha256)
  | _, _, _ => false

def phaseFields (i : AgentSigningIntent) : Bool :=
  match i.state with
  | .pending => i.preparedAt.isNone && i.closedAt.isNone && i.closedBy.isNone
  | .prepared => i.preparedAt.isSome && i.closedAt.isNone && i.closedBy.isNone
  | .activated => i.preparedAt.isSome && i.closedAt.isSome && i.closedBy.isSome
  | .cancelled => i.closedAt.isSome && i.closedBy.isSome

def timeOrder (i : AgentSigningIntent) : Bool :=
  i.preparedAt.all (i.createdAt ≤ ·) && i.closedAt.all (i.createdAt ≤ ·) &&
    i.preparedAt.all fun prepared => i.closedAt.all (prepared ≤ ·)

/-- The constraints of the table. -/
def constraints (i : AgentSigningIntent) : Bool :=
  0 < i.identityEpoch && i.expectedIdentity && i.publicBinding h && i.phaseFields && i.timeOrder

def sameRequest (i old : AgentSigningIntent) : Bool :=
  i.operationId = old.operationId && i.installationId = old.installationId &&
    i.identityEpoch = old.identityEpoch && i.kind = old.kind &&
    i.expectedPublicSha256 = old.expectedPublicSha256 && i.requestedBy = old.requestedBy &&
    i.createdAt = old.createdAt

def samePublic (i old : AgentSigningIntent) : Bool :=
  i.publicKeyPem = old.publicKeyPem && i.publicKeySha256 = old.publicKeySha256 &&
    i.preparedAt = old.preparedAt

/-- What `guard_signing_lifecycle` says of an update. -/
def guardUpdate (i old : AgentSigningIntent) : Bool :=
  i = old || i.sameRequest old &&
    match old.state, i.state with
    | .pending, .prepared => true
    | .pending, .cancelled => i.samePublic old
    | .prepared, .activated => i.samePublic old
    | .prepared, .cancelled => i.samePublic old
    | _, _ => false

end AgentSigningIntent

namespace AgentSigningIdentity

/-- The fields that the triggers compare. -/
def agrees (a : AgentSigningIdentity) (i : AgentSigningIntent) : Bool :=
  a.installationId = i.installationId && a.identityEpoch = i.identityEpoch &&
    some a.publicKeyPem = i.publicKeyPem && some a.publicKeySha256 = i.publicKeySha256 &&
    some a.activatedBy = i.closedBy && some a.activatedAt = i.closedAt

def constraints (a : AgentSigningIdentity) : Bool :=
  a.formatVersion = 1 && a.purpose = "agent-release" && 0 < a.identityEpoch &&
    1 ≤ a.publicKeyPem.length && a.publicKeyPem.length ≤ 4096 && a.publicKeySha256 = h.sha256 a.publicKeyPem

end AgentSigningIdentity

namespace Journal

def find (j : Journal) (operation : Nat) : Option AgentSigningIntent :=
  j.intents.find? (·.operationId = operation)

def put (j : Journal) (i : AgentSigningIntent) : Journal :=
  { j with intents := j.intents.map fun old => if old.operationId = i.operationId then i else old }

/-- At most one open intent. -/
def oneOpen (j : Journal) : Bool := (j.intents.filter (·.isOpen)).length ≤ 1

/-- An insert: the key, the constraints, the trigger and the unique index. -/
def insertIntent (j : Journal) (i : AgentSigningIntent) : Except Refusal Journal := do
  constraint (j.find i.operationId).isNone
  constraint (i.constraints h)
  constraint (i.state = .pending)
  let after := { j with intents := j.intents ++ [i] }
  constraint after.oneOpen
  return after

/-- An update of the row with the key of `i`. -/
def updateIntent (j : Journal) (i : AgentSigningIntent) : Except Refusal Journal := do
  let old ← orRaise (j.find i.operationId) .unconfirmed
  constraint (i.constraints h)
  constraint (i.guardUpdate old)
  constraint (j.put i).oneOpen
  return j.put i

def insertIdentity (j : Journal) (a : AgentSigningIdentity) : Except Refusal Journal := do
  constraint j.identity.isNone
  constraint (a.constraints h)
  constraint ((j.find a.operationId).any fun i => i.state = .activated && a.agrees i)
  return { j with identity := some a }

/-- `require_activated_signing_identity`, before a commit. -/
def requireActivated (j : Journal) (operation : Nat) : Except Refusal Journal := do
  let i ← orRaise (j.find operation) .unconfirmed
  constraint (!(i.state = .activated) ||
    j.identity.any fun a => a.operationId = i.operationId && a.agrees i)
  return j

end Journal

/-! ### Transactions -/

/-- `_same_operation`. -/
def sameOperation (intent : AgentSigningIntent) (c : SigningCommand) : Except Refusal Unit := do
  conflict (intent.operationId = c.operationId && intent.installationId = c.installationId &&
    intent.identityEpoch = c.identityEpoch) "Signing operation identity does not match"
  let expected :=
    if c.action = .recover then intent.publicKeySha256 else intent.expectedPublicSha256
  conflict (c.expectedPublicSha256 = expected) "Signing operation expectation does not match"
  conflict (!(c.action = .initialization && intent.kind = .adopt) &&
      !(c.action = .adopt && intent.kind = .initialization))
    "Signing operation kind does not match"

/-- The active row is that of the activated intent. -/
def AgentSigningIdentity.retained (a : AgentSigningIdentity) (intent : Option AgentSigningIntent) : Bool :=
  intent.any fun i => i.state = .activated && a.formatVersion = 1 && a.purpose = "agent-release" &&
    some a.publicKeyPem = i.publicKeyPem && some a.publicKeySha256 = i.publicKeySha256 &&
    some a.activatedBy = i.closedBy && some a.activatedAt = i.closedAt

/-- What `_load` checks of the active row. -/
def checkActive (intent : Option AgentSigningIntent) (c : SigningCommand) (a : AgentSigningIdentity) :
    Except Refusal Unit := do
  conflict (a.operationId = c.operationId && a.installationId = c.installationId &&
    a.identityEpoch = c.identityEpoch) "Installation already has another active signing identity"
  conflict (a.retained intent) "Active signing record conflicts with retained operation history"
  let _ ← signing (validatedAnchor h a.publicKeyPem a.publicKeySha256)
  return ()

/-- `_load`. -/
def load (j : Journal) (c : SigningCommand) :
    Except Refusal (Option AgentSigningIntent × Option AgentSigningIdentity) := do
  let intent := j.find c.operationId
  intent.elim (.ok ()) fun i => sameOperation i c
  j.identity.elim (.ok ()) fun a => checkActive h intent c a
  return (intent, j.identity)

/-- What `_begin` does when the operation is there. -/
def beginAgain (j : Journal) (actor now : Nat) (c : SigningCommand) (intent : AgentSigningIntent)
    (identity : Option AgentSigningIdentity) : Except Refusal (Journal × AgentSigningIntent) :=
  match intent.state with
  | .cancelled => .error (.http 409
    "Cancelled signing operation is retained; start a separate reviewed operation")
  | .activated => do
    conflict identity.isSome "Active signing identity is missing; restore the trusted database record"
    conflict (c.action ≠ .cancel) "An active signing identity cannot be cancelled"
    return (j, intent)
  | _ => do
    conflict (identity.isNone && c.action ≠ .recover)
      "Same-identity recovery requires its active trusted record"
    let cancelled := { intent with state := .cancelled, closedAt := some now, closedBy := some actor }
    if c.action = .cancel then
      (j.updateIntent h cancelled).bind fun j => (j.requireActivated c.operationId).map (·, cancelled)
    else return (j, intent)

/-- The kind of a first operation. -/
def Action.kind : Action → Option Kind
  | .initialization => some .initialization
  | .adopt => some .adopt
  | _ => none

/-- What `_begin` does when the operation is not there. -/
def beginFirst (j : Journal) (actor now : Nat) (c : SigningCommand)
    (identity : Option AgentSigningIdentity) : Except Refusal (Journal × AgentSigningIntent) := do
  let absent := .http 409 "Signing operation does not exist; do not infer initialization from absence"
  require identity.isNone absent
  let kind ← orRaise c.action.kind absent
  conflict (c.identityEpoch = 1)
    "A first signing identity must use epoch one; rotation is a separate lifecycle"
  conflict (j.intents.all (!·.isOpen)) "Another signing operation requires resolution"
  let history := ((j.intents.map fun i => (i.installationId, i.identityEpoch)).dedup).take 2
  conflict (history = [] || history = [(c.installationId, c.identityEpoch)])
    "Retained signing history belongs to another installation identity"
  conflict (kind = .adopt || !j.agents && !j.releases)
    "Existing agent history requires explicit trusted key adoption or recovery"
  let values : AgentSigningIntent :=
    { operationId := c.operationId
      installationId := c.installationId
      identityEpoch := c.identityEpoch
      kind
      expectedPublicSha256 := c.expectedPublicSha256
      state := .pending
      requestedBy := actor
      createdAt := now
      publicKeyPem := none
      publicKeySha256 := none
      preparedAt := none
      closedAt := none
      closedBy := none }
  let j ← j.insertIntent h values
  let j ← j.requireActivated c.operationId
  return (j, values)

/-- `_begin`: the journal, the intent and whether it is new. -/
def beginOperation (j : Journal) (actor now : Nat) (c : SigningCommand) :
    Except Refusal (Journal × AgentSigningIntent × Bool) := do
  let (intent, identity) ← load h j c
  match intent with
  | some intent => (beginAgain h j actor now c intent identity).map fun r => (r.1, r.2, false)
  | none => (beginFirst h j actor now c identity).map fun r => (r.1, r.2, true)

/-- `_prepare`. -/
def prepare (j : Journal) (now : Nat) (c : SigningCommand) (public_ : List UInt8) :
    Except Refusal (Journal × AgentSigningIntent) := do
  let changed := .http 409 "Signing operation changed before preparation"
  let (intent, identity) ← load h j c
  let intent ← orRaise intent changed
  require (identity.isNone && intent.state = .pending) changed
  let fingerprint := h.sha256 public_
  let _ ← signing (validatedAnchor h public_ fingerprint)
  conflict (intent.kind = .initialization || intent.expectedPublicSha256 = some fingerprint)
    "Stored key differs from the confirmed adoption fingerprint"
  let prepared :=
    { intent with
      state := .prepared
      publicKeyPem := some public_
      publicKeySha256 := some fingerprint
      preparedAt := some now }
  let j ← j.updateIntent h prepared
  let j ← j.requireActivated c.operationId
  return (j, prepared)

/-- What `_activate` does with a prepared intent. -/
def activatePrepared (j : Journal) (actor now : Nat) (c : SigningCommand) (intent : AgentSigningIntent) :
    Except Refusal (Journal × AgentSigningIntent) := do
  let activated := { intent with state := .activated, closedAt := some now, closedBy := some actor }
  let j ← j.updateIntent h activated
  let j ← j.insertIdentity h
    { formatVersion := 1
      purpose := "agent-release"
      installationId := c.installationId
      identityEpoch := c.identityEpoch
      operationId := c.operationId
      publicKeyPem := ← orRaise intent.publicKeyPem .unconfirmed
      publicKeySha256 := ← orRaise intent.publicKeySha256 .unconfirmed
      activatedBy := actor
      activatedAt := now }
  let j ← j.requireActivated c.operationId
  return (j, activated)

/-- `_activate`. -/
def activate (j : Journal) (actor now : Nat) (c : SigningCommand) (prepared : AgentSigningIntent) :
    Except Refusal (Journal × AgentSigningIntent) := do
  let changed := .http 409 "Signing operation changed before activation"
  let (intent, identity) ← load h j c
  let intent ← orRaise intent changed
  require (intent.state = .prepared || intent.state = .activated) changed
  conflict (intent.publicKeyPem = prepared.publicKeyPem &&
    intent.publicKeySha256 = prepared.publicKeySha256) "Prepared signing identity changed"
  if intent.state = .activated then
    (conflict identity.isSome "Trusted active identity requires database recovery").map
      fun _ => (j, intent)
  else
    (conflict identity.isNone "Unexpected active signing identity").bind
      fun _ => activatePrepared h j actor now c intent

/-- `_trusted`: the identity that signatures and enrollments use. -/
def trusted (j : Journal) : Except Raised AgentSigningIdentity := do
  let a ← orRaise j.identity (.refused
    "Trusted installation signing identity is unavailable; initialize or adopt explicitly")
  demand (a.formatVersion = 1 && a.purpose = "agent-release" && j.intents.all (!·.isOpen) &&
      (j.find a.operationId).any fun i => i.state = .activated && a.agrees i)
    "Trusted signing identity conflicts with operation history"
  let _ ← validatedAnchor h a.publicKeyPem a.publicKeySha256
  return a

end FreeSdn.Signing
