import FreeSdn.Artifact.Store
import FreeSdn.Lib.Rely
import FreeSdn.Releases.Steps

/-! The owners of release operations (`services/agent_release_preparation.py`, `_publication.py`,
`_cleanup_coordinator.py`) as coroutines: they await transactions on the journal and methods of a lease
on the artifact directory.  The system runs any number of them, one transaction or one system call at a
time, beside the operations that are single transactions. -/

namespace FreeSdn.Releases

open FreeSdn.Lib FreeSdn.Artifact
open FreeSdn.Audit (Uuid)

/-! ### What an owner awaits -/

/-- The transactions that an owner runs by `phase`. -/
inductive OwnedPhase
  | reserve (q : PublicationRequest)
  | preparationState (q : PublicationRequest)
  | recordPrepared (q : PublicationRequest) (receipt : PreparedArtifact)
  | inspect (q : PublicationRequest)
  | publish (q : PublicationRequest) (signature : Option String) (identity : Option Uuid)
      (prepared : Option PreparedArtifact)
  | state (q : CleanupRequest)
  | recordCleaned (q : CleanupRequest) (expected : Plan) (receipt : Option CleanedArtifact)
      (retirement : Option String)

abbrev OwnedPhase.Value : OwnedPhase → Type
  | .reserve _ => Operation × Bool
  | .preparationState _ => Operation
  | .recordPrepared _ _ => Operation
  | .inspect _ => Operation × Option Release
  | .publish _ _ _ _ => PublicationResult
  | .state _ => Operation × Plan
  | .recordCleaned _ _ _ _ => CleanupResult

abbrev Call.Value : Call → Type
  | .acquire _ => Unit
  | .begin_ => Unit
  | .append _ => Unit
  | .finish => PreparedArtifact
  | .verifyPrepared => PreparedArtifact
  | .read _ _ => List UInt8
  | .retire _ => String
  | .cleanupRetired _ => CleanedArtifact

/-- `sign` is `_signature`: the signature of the manifest, and the identity that verified it. -/
inductive Wait
  | phase (p : OwnedPhase)
  | acquire (intent : Intent) (exclusive create : Bool)
  | run (call : Call)
  | sign (q : PublicationRequest)

abbrev Wait.Value : Wait → Type
  | .phase p => p.Value
  | .acquire _ _ _ => Unit
  | .run call => Call.Value call
  | .sign _ => Option String × Option Uuid

abbrev Coroutine := Awaiting Refusal Wait Wait.Value

def phase (p : OwnedPhase) : Coroutine p.Value := await (Wait.phase p)

def run (call : Call) : Coroutine (Call.Value call) := await (Wait.run call)

def demand (condition : Bool) (refusal : Refusal) : Except Refusal Unit := require condition refusal

def orRefuse (x : Option α) (refusal : Refusal) : Except Refusal α := orRaise x refusal

/-- What `except OSError` raises. -/
def Refusal.withStorage (message : String) : Refusal → Refusal
  | .os => .http 503 message
  | refusal => refusal

def exceptOs (message : String) (p : Coroutine α) : Coroutine α := refusing (Refusal.withStorage message) p

/-! ### Preparation and publication -/

section
variable (d : Deployment)

/-- The loop over the body of the request. -/
def uploadBody (q : PublicationRequest) : List (List UInt8) → Coroutine Unit
  | [] => return ()
  | chunk :: chunks => do
    demand (chunk.length ≤ 1048576) (.http 413 "Artifact stream chunk exceeds its bound")
    if chunk.isEmpty then uploadBody q chunks
    else
      let _ ← phase (.preparationState q)
      run (.append chunk)
      uploadBody q chunks

/-- What `_prepare_under_owner` does with the bytes: it uploads a body, or verifies what is there. -/
def prepareBytes (q : PublicationRequest) : Option (List (List UInt8)) → Coroutine PreparedArtifact
  | none => run .verifyPrepared
  | some chunks => do
    run .begin_
    uploadBody q chunks
    let _ ← phase (.preparationState q)
    run .finish

/-- `_prepare_under_owner`: the mode is `upload` when there is a body, and else `resume`. -/
def prepareUnderOwner (q : PublicationRequest) (source : Option (List (List UInt8))) :
    Coroutine Operation := do
  let row ← phase (.preparationState q)
  demand (source.isNone || row.phase = .reserved)
    (.http 409 "Prepared bytes already exist; resume without uploading again")
  await (Wait.acquire (q.intent d.sha256) true source.isSome)
  let _ ← phase (.preparationState q)
  let receipt ← prepareBytes q source
  phase (.recordPrepared q receipt)

/-- `execute_release_preparation`. -/
def executePreparation (q : PublicationRequest) (source : Option (List (List UInt8))) :
    Coroutine Operation := do
  demand (q.storageKind = .owned) (.http 422 "Invalid owned artifact preparation command")
  if source.isSome then
    let _ ← phase (.reserve q)
  exceptOs "Artifact storage unavailable; preserve bytes and inspect the same operation"
    (prepareUnderOwner d q source)

/-- The owned bytes of a publication, verified under the lease that stays held. -/
def verifyOwned (q : PublicationRequest) : Coroutine (Option PreparedArtifact) := do
  if q.storageKind = .owned then
    await (Wait.acquire (q.intent d.sha256) true false)
    let _ ← phase (.inspect q)
    let receipt ← run .verifyPrepared
    let _ ← phase (.recordPrepared q receipt)
    return some receipt
  else return none

/-- A publication that is still to be decided. -/
def publishPending (q : PublicationRequest) : Coroutine PublicationResult := do
  let prepared ← verifyOwned d q
  let (signature, identity) ← await (Wait.sign q)
  phase (.publish q signature identity prepared)

/-- A publication whose reservation is there. -/
def publishReserved (q : PublicationRequest) : Coroutine PublicationResult := do
  let (row, release) ← phase (.inspect q)
  if row.decision = some .published then return response row release false false false
  else
    exceptOs "Retained release storage unavailable; inspect the same operation" (publishPending d q)

/-- `execute_release_publication`. -/
def executePublication (q : PublicationRequest) : Coroutine PublicationResult := do
  if q.storageKind = .external then
    let _ ← phase (.reserve q)
  publishReserved d q

/-! ### Cleanup -/

/-- The operation is inspected again, and `_same_plan` compares. -/
def samePlan (q : CleanupRequest) (plan : Plan) : Coroutine Unit := do
  let (_, observed) ← phase (.state q)
  demand (plan = observed) (.http 409 "Retained cleanup decision changed; inspect recovery state")

/-- The part of `_cleanup_under_owner` that removes an owned artifact. -/
def retireArtifact (q : CleanupRequest) (plan : Plan) (c : CleanupDecision) : Coroutine CleanupResult := do
  await (Wait.acquire c.intent true false)
  samePlan q plan
  let retirement ← run (.retire c)
  samePlan q plan
  let receipt ← run (.cleanupRetired c)
  phase (.recordCleaned q plan (some receipt) (some retirement))

/-- `_cleanup_under_owner`; `root` tells whether there is one. -/
def cleanupUnderOwner (q : CleanupRequest) (root : Bool) : Coroutine CleanupResult := do
  let (row, plan) ← phase (.state q)
  if plan.outcome = .retireOwned then
    let c ← orRefuse (if root then plan.decision else none)
      (.http 422 "Owned cleanup requires its configured storage root")
    exceptOs "Artifact cleanup evidence is unavailable; inspect retained state"
      (retireArtifact q plan c)
  else
    demand (!root) (.http 422 "This cleanup disposition cannot inspect a storage root")
    if plan.outcome = .retainUnverified then return cleanupResult row plan false false
    else phase (.recordCleaned q plan none none)

/-- `execute_managed_release_cleanup`. -/
def executeManagedCleanup (q : CleanupRequest) : Coroutine CleanupResult := do
  let (_, plan) ← phase (.state q)
  cleanupUnderOwner q (plan.outcome = .retireOwned)

/-! ### Delivery -/

def readPieces : List (Int × Int) → Coroutine Unit
  | [] => return ()
  | (offset, size) :: pieces => do
    let _ ← run (.read offset size)
    readPieces pieces

/-- The file side of a delivery (`_ReadStorage`): a shared lease, whose payload is read in pieces.  What
the response makes of its errors is left out. -/
def deliver (intent : Intent) (reads : List (Int × Int)) : Coroutine Unit := do
  await (Wait.acquire intent false false)
  let _ ← run .verifyPrepared
  readPieces reads

/-! ### Owners -/

inductive Task
  | preparation (q : PublicationRequest) (source : Option (List (List UInt8)))
  | publication (q : PublicationRequest)
  | cleanup (q : CleanupRequest) (root : Bool)
  | managedCleanup (q : CleanupRequest)
  | delivery (intent : Intent) (reads : List (Int × Int))

inductive Result
  | prepared (row : Operation)
  | published (result : PublicationResult)
  | cleaned (result : CleanupResult)
  | delivered

def Task.script : Task → Coroutine Result
  | preparation q source => do return .prepared (← executePreparation d q source)
  | publication q => do return .published (← executePublication d q)
  | cleanup q root => do return .cleaned (← cleanupUnderOwner q root)
  | managedCleanup q => do return .cleaned (← executeManagedCleanup q)
  | delivery intent reads => do deliver intent reads; return .delivered

/-- What is left of a coroutine. -/
abbrev Remaining := Prog Wait (fun k => Except Refusal k.Value) (Except Refusal Result)

inductive Todo
  | ready (rest : Remaining)
  -- A worker thread runs a method of the lease.
  | waiting (next : Except Refusal Reply → Remaining)

/-- An owner with its lease: the artifact, and its process in the store of that artifact. -/
structure Owner where
  authority : Authority
  lease : Option (Uuid × Nat)
  todo : Todo

/-- The journal, one directory for each artifact, and the owners; one that is gone leaves its place
empty. -/
structure System where
  db : Db
  stores : Uuid → World
  owners : List (Option Owner)

def System.empty : System := ⟨.empty, fun _ => .empty, []⟩

/-! ### Steps -/

def OwnedPhase.perform (w : Session) (s : Db) : (p : OwnedPhase) → Except Refusal (Db × p.Value)
  | .reserve q => Releases.reserve d w q s
  | .preparationState q => do
    w.enter q.organizationId
    return (s, ← pendingArtifact d w q s)
  | .recordPrepared q receipt => Releases.recordPrepared d w q receipt.intent s
  | .inspect q => do
    w.enter q.organizationId
    return (s, ← publicationState d w q s)
  | .publish q signature identity prepared =>
    Releases.publish d w q signature identity (prepared.map PreparedArtifact.intent) s
  | .state q => do return (s, ← Releases.inspect d w q s)
  | .recordCleaned q expected receipt retirement =>
    Releases.recordCleaned d w q expected receipt retirement s

end

/-- Where the answer of a method is not the one that the method gives, the coroutine ends. -/
def Call.answer : (call : Call) → Reply → Except Refusal (Call.Value call)
  | .acquire _, .nothing => .ok ()
  | .begin_, .nothing => .ok ()
  | .append _, .nothing => .ok ()
  | .finish, .prepared artifact => .ok artifact
  | .verifyPrepared, .prepared artifact => .ok artifact
  | .read _ _, .bytes data => .ok data
  | .retire _, .digest text => .ok text
  | .cleanupRetired _, .cleaned artifact => .ok artifact
  | _, _ => .error unconfirmed

/-- What becomes of an error of the store. -/
def ofRaised : Raised → Refusal
  | .unavailable message => .unavailable message
  | .missing => .os
  | .os => .os

/-- `transaction` is an operation that is a single transaction of its own.  The acknowledgement of a
commit may be lost; an owner leaves when it is done, cancelled, timed out or crashed. -/
inductive Label
  | transaction (e : Event)
  | start (authority : Authority) (task : Task)
  | phase (o : Nat) (elsewhere : Elsewhere) (acknowledged : Bool)
  | sign (o : Nat) (answer : Except Refusal (Option String × Option Uuid))
  | acquire (o : Nat) (created : Bool)
  | call (o : Nat)
  | turn (o : Nat) (t : Turn)
  | returned (o : Nat)
  | leave (o : Nat)

/-- The operations that need no lease on an artifact. -/
def Transaction.single : Transaction → Bool
  | .reserve _ => true
  | .cancel _ => true
  | .reserveDeletion _ => true
  | .delete _ => true
  | .cancelDeletion _ => true
  | .promote _ _ => true
  | _ => false

namespace System

def owner (s : System) (o : Nat) : Option Owner := (s.owners[o]?).join

def put (s : System) (o : Nat) (owner : Option Owner) : System :=
  { s with owners := s.owners.set o owner }

/-- A step of the store of the artifact. -/
def store (s : System) (h : Host) (artifact : Uuid) (e : Artifact.Event) : Option System :=
  ((s.stores artifact).step h e).map fun w =>
    { s with stores := Function.update s.stores artifact w }

/-- The answer of a transaction; one whose acknowledgement is lost is unknown. -/
def answered (s : System) (o : Nat) (owner : Owner) {p : OwnedPhase}
    (next : Except Refusal p.Value → Remaining) (acknowledged : Bool) :
    Except Refusal (Db × p.Value) → System
  | .error refusal => s.put o (some { owner with todo := .ready (next (.error refusal)) })
  | .ok (db, value) =>
    let answer := if acknowledged then .ok value else .error unconfirmed
    { s with db }.put o (some { owner with todo := .ready (next answer) })

/-- The answer of a method.  An `acquire` that fails leaves no lease. -/
def returned (s : System) (h : Host) (o : Nat) (owner : Owner) (artifact : Uuid) (pid : Nat)
    (next : Except Refusal Reply → Remaining) : Option System :=
  match (s.stores artifact).process pid with
  | some ⟨_, _, .busy call (.done (r, _))⟩ =>
    let lease := match call, r with
      | .acquire _, .error _ => none
      | _, _ => owner.lease
    (s.store h artifact (.finished pid)).map fun s =>
      s.put o (some { owner with lease, todo := .ready (next (r.mapError ofRaised)) })
  | _ => none

variable (d : Deployment) (h : Host)

def step (s : System) : Label → Option System
  | .transaction e =>
    if e.transaction.single then (Releases.step d s.db e).map fun db => { s with db } else none
  | .start authority task =>
    some { s with owners := s.owners ++ [some ⟨authority, none, .ready (task.script d).run⟩] }
  | .phase o elsewhere acknowledged =>
    match s.owner o with
    | some ⟨authority, lease, .ready (.call (.phase p) next)⟩ =>
      some (s.answered o ⟨authority, lease, .ready (.call (.phase p) next)⟩ next acknowledged
        (p.perform d ⟨authority, elsewhere⟩ s.db))
    | _ => none
  | .sign o answer =>
    match s.owner o with
    | some ⟨authority, lease, .ready (.call (.sign _) next)⟩ =>
      some (s.put o (some ⟨authority, lease, .ready (next answer)⟩))
    | _ => none
  | .acquire o created =>
    match s.owner o with
    | some ⟨authority, none, .ready (.call (.acquire intent exclusive create) next)⟩ =>
      if created && !create then none
      else
        let artifact := intent.artifactId
        (s.store h artifact (.acquire intent exclusive created)).map fun t =>
          t.put o (some ⟨authority, some (artifact, (s.stores artifact).processes.length),
            .waiting fun r => next (r.map fun _ => ())⟩)
    | _ => none
  | .call o =>
    match s.owner o with
    | some ⟨authority, some (artifact, pid), .ready (.call (.run call) next)⟩ =>
      (s.store h artifact (.call pid call)).map fun t =>
        t.put o (some ⟨authority, some (artifact, pid), .waiting fun r => next (r.bind (Call.answer call))⟩)
    | _ => none
  | .turn o t =>
    match s.owner o with
    | some ⟨_, some (artifact, pid), .waiting _⟩ => s.store h artifact (.turn pid t)
    | _ => none
  | .returned o =>
    match s.owner o with
    | some ⟨authority, some (artifact, pid), .waiting next⟩ =>
      s.returned h o ⟨authority, some (artifact, pid), .waiting next⟩ artifact pid next
    | _ => none
  | .leave o =>
    match s.owner o with
    | some ⟨_, none, _⟩ => some (s.put o none)
    | some ⟨_, some (artifact, pid), _⟩ =>
      (s.store h artifact (.leave pid)).map fun t => t.put o none
    | none => none

end System

end FreeSdn.Releases
