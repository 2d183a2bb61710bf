import FreeSdn.Staging.Validation
import FreeSdn.Proxmox.Tasks

/-! What `apply_change` records of an applier's answer: the exceptions whose outcome is unknown, the
acknowledgement of a write, and the row that each leads to. -/

namespace FreeSdn.Staging

open FreeSdn.Lib FreeSdn.Proxmox

/-! ### Exceptions -/

/-- `_UNKNOWN_OUTCOME_EXC_NAMES`. -/
def unknownOutcomeExcNames : List String :=
  ["ReadTimeout", "WriteTimeout", "ReadError", "WriteError", "RemoteProtocolError",
   "ServerTimeoutError", "SocketTimeoutError", "ServerDisconnectedError", "ClientPayloadError",
   "TimeoutError", "ConnectionResetError", "IncompleteReadError"]

/-- `_NEVER_SENT_EXC_NAMES`. -/
def neverSentExcNames : List String :=
  ["ConnectError", "ConnectTimeout", "PoolTimeout", "InvalidURL", "UnsupportedProtocol",
   "ClientConnectorError", "ConnectionTimeoutError", "AdapterReadOnlyError"]

/-- A class of exceptions: one of the three that the handlers of `apply_change` ask for, or another
one, which may share a name with them. -/
inductive ExcClass
  /-- `HTTPException` of fastapi. -/
  | httpException
  /-- The built-in `Exception`, of which `asyncio.CancelledError` is none. -/
  | exception
  | adapterOutcomeUnknownError
  | named (name : String)
  deriving DecidableEq, Repr

/-- `__name__`. -/
def ExcClass.name : ExcClass → String
  | httpException => "HTTPException"
  | exception => "Exception"
  | adapterOutcomeUnknownError => "AdapterOutcomeUnknownError"
  | named name => name

/-- An exception: its classes, the concrete one first, the text of the detail when it is an
`HTTPException`, and the objects it was raised from. -/
structure Exc where
  mro : List ExcClass
  detail : String
  cause : Option Nat
  context : Option Nat
  deriving DecidableEq, Repr

/-- An exception object in the heap of those it refers to. -/
structure Raised where
  heap : List Exc
  root : Nat
  deriving DecidableEq, Repr

/-- The walk of `outcome_is_unknown` over `__cause__` or else `__context__`, which stops at an
object already seen. -/
def excChain (heap : List Exc) : Nat → List Nat → Option Nat → List Exc
  | fuel + 1, seen, some i =>
    if i ∈ seen then []
    else
      match heap[i]? with
      | some e => e :: excChain heap fuel (i :: seen) (e.cause <|> e.context)
      | none => []
  | _, _, _ => []

def Raised.chain (e : Raised) : List Exc := excChain e.heap (e.heap.length + 1) [] (some e.root)

/-- `outcome_is_unknown`. -/
def outcomeIsUnknown (e : Raised) : Bool :=
  let names := e.chain.flatMap fun x => x.mro.map ExcClass.name
  if "AdapterOutcomeUnknownError" ∈ names then true
  else if names.any (decide <| · ∈ neverSentExcNames) then false
  else names.any (decide <| · ∈ unknownOutcomeExcNames)

/-- The classes of the exception itself. -/
def Raised.classes (e : Raised) : List ExcClass := ((e.heap[e.root]?).map (·.mro)).getD []

/-! ### Answers -/

/-- What an applier returns: an `AdapterResult` or a mapping, by its JSON members, or a bare
value. -/
inductive Response
  | mapping (fields : Dict)
  | value (v : Json)
  deriving DecidableEq

/-- `_jsonable_applied_response`. -/
def jsonableAppliedResponse : Response → Dict
  | .mapping fields => fields
  | .value v => [("data", v)]

/-- What the applier did. -/
inductive Answer
  | returned (response : Response)
  | raised (e : Raised)
  deriving DecidableEq

/-- `accepted_values`: the columns of an acknowledged write. -/
structure Accepted where
  appliedAt : Time
  appliedResponse : Dict
  providerTask : Option ProviderTask
  nextPollAt : Option Time
  deriving DecidableEq

/-- What the call is about to write: an acknowledged write, or a failure, of which the provider's
outcome may be unknown, with the receipt that was already set when bookkeeping raised. -/
inductive Outcome
  | accepted (values : Accepted)
  | rejected (unknown : Bool) (reason : String) (receipt : Option (Time × Dict))
  deriving DecidableEq

def unknownReason (name : String) : String :=
  name ++ ": the request reached the controller but no response was received, so the outcome is " ++
    "UNKNOWN. Verify the device before re-staging - the change may already have been applied."

def unverifiedReason : String :=
  "Write acknowledgement or readback did not verify the outcome. It may already have taken " ++
    "effect. Reconcile the device before re-staging."

/-- The handler of `HTTPException`. -/
def failedWith (detail : String) : Outcome :=
  .rejected false (if detail = "" then "applier raised HTTPException" else truncate 1000 detail)
    none

/-- The two exception handlers of `apply_change`; an exception that neither catches commits
nothing. -/
def raisedOutcome (e : Raised) : Option Outcome :=
  if .httpException ∈ e.classes then
    some (failedWith (((e.heap[e.root]?).map (·.detail)).getD ""))
  else if .exception ∈ e.classes then
    let name := ((e.classes.head?).map ExcClass.name).getD ""
    let unknown := outcomeIsUnknown e
    some (.rejected unknown
      (if .adapterOutcomeUnknownError ∈ e.classes then unverifiedReason
        else if unknown then unknownReason name else name) none)
  else none

/-- The text of the first member that is set. -/
def firstSet (print : Printing) (fields : Dict) : List String → Option String
  | [] => none
  | key :: keys =>
    match get fields key with
    | some (.str s) => if s = "" then firstSet print fields keys else some s
    | some v => if truthy v then some (print.str v) else firstSet print fields keys
    | none => firstSet print fields keys

/-- A response whose `success` is False: the detail of the 502 it is turned into. -/
def reportedFailure (print : Printing) : Response → Option String
  | .mapping fields =>
    if get fields "success" = some (.bool false) then
      some ((firstSet print fields ["error", "message"]).getD
        "adapter reported the write did not succeed")
    else none
  | .value _ => none

/-- From what the applier returned to what is written. -/
def returnedOutcome (print : Printing) (feature : String) (response : Response) (now : Time) :
    Outcome :=
  match reportedFailure print response with
  | some detail => failedWith detail
  | none =>
    let stored := jsonableAppliedResponse response
    match acceptedTask feature stored now with
    | .ok task => .accepted ⟨now, stored, task, task.map fun _ => now⟩
    | .error name => .rejected false name (some (now, stored))

/-- From the applier's answer to what is written, if anything is. -/
def answerOutcome (print : Printing) (feature : String) (answer : Answer) (now : Time) :
    Option Outcome :=
  match answer with
  | .raised e => raisedOutcome e
  | .returned response => some (returnedOutcome print feature response now)

/-! ### Writing the outcome -/

/-- The commit of an outcome: an update by primary key of the columns that the call changed since
its claim.  The status is not read again. -/
def Outcome.write (o : Outcome) (now : Time) (c : PendingChange) : PendingChange :=
  match o with
  | .accepted v =>
    { c with
      status := .applied, appliedAt := some v.appliedAt, appliedResponse := some v.appliedResponse
      providerTask := v.providerTask, nextPollAt := v.nextPollAt, updatedAt := now }
  | .rejected unknown reason receipt =>
    { c with
      status := if unknown then .reconciliationRequired else .failed
      failureReason := some reason
      appliedAt := (receipt.map (·.1)) <|> c.appliedAt
      appliedResponse := (receipt.map (·.2)) <|> c.appliedResponse
      updatedAt := now }

def recoveredReason : String :=
  "controller acknowledged the write but post-write bookkeeping commit failed; recovered to 'applied'"

/-- The fallback `UPDATE` after a failed commit, also by primary key. -/
def Accepted.recover (v : Accepted) (actor : Option Uuid) (now : Time) (c : PendingChange) :
    PendingChange :=
  { (Outcome.accepted v).write now c with
    updatedBy := actor, failureReason := some recoveredReason }

end FreeSdn.Staging
