import FreeSdn.Lib.Rely
import FreeSdn.Signing.Identity
import FreeSdn.Signing.Storage

/-! Operations of the signing lifecycle (`execute_signing_lifecycle`) that share the journal and the key
directory.  One of them owns the advisory lock at a time, but an operation that has lost its connection goes
on without it, and any of them can crash. -/

namespace FreeSdn.Signing

open FreeSdn.Lib

variable (h : Host)

/-! ### The coordinator -/

structure SigningOperationResult where
  operationId : Nat
  installationId : Nat
  identityEpoch : Nat
  state : IntentState
  publicKeySha256 : Option String
  deriving DecidableEq

/-- `_result`. -/
def AgentSigningIntent.result (i : AgentSigningIntent) : SigningOperationResult :=
  ⟨i.operationId, i.installationId, i.identityEpoch, i.state, i.publicKeySha256⟩

/-- The functions that `_phase` runs in a transaction. -/
inductive Transaction
  | start
  | prepare (public_ : List UInt8)
  | activate (prepared : AgentSigningIntent)

abbrev Transaction.Value : Transaction → Type
  | .start => AgentSigningIntent × Bool
  | .prepare _ => AgentSigningIntent
  | .activate _ => AgentSigningIntent

def Transaction.run (j : Journal) (actor now : Nat) (c : SigningCommand) :
    (t : Transaction) → Except Refusal (Journal × t.Value)
  | .start => beginOperation h j actor now c
  | .prepare public_ => Signing.prepare h j now c public_
  | .activate prepared => Signing.activate h j actor now c prepared

/-- What an operation waits for.  `check` stands for the confirmation, its claim and the local capacity. -/
inductive Wait
  | check
  | lock
  | transaction (actor : Nat) (c : SigningCommand) (t : Transaction)
  | storage (purpose : Purpose)

abbrev Wait.Value : Wait → Type
  | .check => Unit
  | .lock => Unit
  | .transaction _ _ t => t.Value
  | .storage _ => List UInt8

/-- The mode of `prepare_signing_identity`, and its checks. -/
def storageMode (intent : AgentSigningIntent) (created : Bool) : Except Refusal Purpose :=
  match intent.kind, intent.expectedPublicSha256 with
  | .adopt, some sha256 => (require (isDigest sha256) .signing).map fun _ => .adopt sha256
  | .initialization, none => .ok (if created then .initialization else .resume)
  | _, _ => .error .signing

/-- `check_signing_anchor`, before it reads the directory. -/
def anchor (intent : AgentSigningIntent) : Except Refusal (List UInt8) :=
  match intent.publicKeyPem, intent.publicKeySha256 with
  | some pem, some sha256 => signing (validatedAnchor h pem sha256)
  | _, _ => .error .signing

abbrev Lifecycle := Awaiting Refusal Wait Wait.Value

def check : Lifecycle Unit := await Wait.check

def lock : Lifecycle Unit := await Wait.lock

/-- `_phase`.  The confirmation is checked again behind the commit. -/
def phase (actor : Nat) (c : SigningCommand) (t : Transaction) : Lifecycle t.Value := do
  let result ← await (Wait.transaction actor c t)
  check
  return result

/-- `_storage`. -/
def storage (purpose : Purpose) : Lifecycle (List UInt8) := await (Wait.storage purpose)

/-- A pending operation is prepared. -/
def preparePending (actor : Nat) (c : SigningCommand) (intent : AgentSigningIntent) (created : Bool) :
    Lifecycle AgentSigningIntent :=
  if intent.state = .pending then do
    let mode ← (storageMode intent created : Except Refusal _)
    let public_ ← storage mode
    check
    phase actor c (.prepare public_)
  else return intent

/-- A prepared operation is activated. -/
def activateIntent (actor : Nat) (c : SigningCommand) (intent : AgentSigningIntent) :
    Lifecycle SigningOperationResult := do
  let expected ← (anchor h intent : Except Refusal _)
  let _ ← storage (.anchored expected)
  check
  let accepted ← phase actor c (.activate intent)
  return accepted.result

/-- `execute_signing_lifecycle`. -/
def executeSigningLifecycle (actor : Nat) (c : SigningCommand) : Lifecycle SigningOperationResult := do
  (require (c.action ≠ .inspect) (.http 403 "Inspection cannot mutate a signing identity") :
    Except Refusal Unit)
  check
  lock
  check
  let begun ← phase actor c .start
  if begun.1.state = .cancelled then return begun.1.result
  else preparePending actor c begun.1 begun.2 >>= activateIntent h actor c

/-- What the client is told. -/
def Refusal.response : Refusal → Nat × String
  | .http code detail => (code, detail)
  | .signing => (409,
    "Signing storage requires explicit same-identity recovery; pending history is retained")
  | .unconfirmed => (503,
    "Signing operation could not be confirmed; inspect retained state before a fresh retry")

/-! ### The system -/

abbrev Coroutine := Prog Wait (fun k => Except Refusal k.Value) (Except Refusal SigningOperationResult)

/-- `holder` is the operation that has the session of the key directory, if it is not a signature's. -/
structure System where
  store : World
  holder : Option Nat
  journal : Journal
  operations : List (Option Coroutine)
  owner : Option Nat
  answers : List (Except (Nat × String) SigningOperationResult)

def System.start (dir : Directory) (agents releases : Bool) : System :=
  ⟨⟨dir, none, []⟩, none, ⟨[], none, agents, releases⟩, [], none, []⟩

inductive Label
  | start (actor : Nat) (c : SigningCommand)
  | pass (n : Nat)
  | lock (n : Nat)
  | transact (n now : Nat) (acknowledged : Bool)
  | enter (n : Nat)
  | sign (expected : List UInt8)
  | turn (t : Turn)
  | stored
  | failed (e : Refusal)
  | refuse (n : Nat) (e : Refusal)
  | returned (n : Nat)
  | crash (n : Nat)
  | severed
  | agents (agents releases : Bool)

namespace System

variable (s : System)

def operation (n : Nat) : Option Coroutine := s.operations[n]?.join

def put (n : Nat) (p : Option Coroutine) : System := { s with operations := s.operations.set n p }

/-- The operation is gone, and its connection with it. -/
def gone (n : Nat) : System :=
  { s.put n none with owner := if s.owner = some n then none else s.owner }

/-- What the operation waits for is answered or refused. -/
def answer (n : Nat) (reply : (k : Wait) → Option (Except Refusal k.Value)) : Option System :=
  match s.operation n with
  | some (.call k next) => (reply k).map fun r => s.put n (some (next r))
  | _ => none

/-- The session of the key directory ends, and the operation that has it is told. -/
def leave (store : World) (r : Except Refusal (List UInt8)) : Option System :=
  match s.holder with
  | none => some { s with store }
  | some n => { s with store, holder := none }.answer n fun k =>
    match k with
    | .storage _ => some r
    | _ => none

/-- A transaction that commits may not be acknowledged. -/
def transact (n now : Nat) (acknowledged : Bool) : Option System :=
  match s.operation n with
  | some (.call (.transaction actor c t) next) =>
    match t.run h s.journal actor now c with
    | .ok (journal, r) =>
      some { s.put n (some (next (if acknowledged then .ok r else .error .unconfirmed))) with journal }
    | .error e => some (s.put n (some (next (.error e))))
  | _ => none

def enter (n : Nat) : Option System :=
  match s.operation n with
  | some (.call (.storage purpose) _) =>
    (s.store.step h (.enter purpose)).map fun store => { s with store, holder := some n }
  | _ => none

/-- What is asked of the operation is done, or refused without a change. -/
def finish (n : Nat) : Option System :=
  match s.operation n with
  | some (.done r) => some { s.gone n with answers := r.mapError Refusal.response :: s.answers }
  | _ => none

/-- The answers that need nothing but the operation. -/
def passed : (k : Wait) → Option (Except Refusal k.Value)
  | .check => some (.ok ())
  | _ => none

def locked : (k : Wait) → Option (Except Refusal k.Value)
  | .lock => some (.ok ())
  | _ => none

/-- A session of the directory is not given up while it runs. -/
def step : Label → Option System
  | .start actor c =>
    some { s with operations := s.operations ++ [some (executeSigningLifecycle h actor c).run] }
  | .pass n => s.answer n passed
  | .lock n => if s.owner.isSome then none else { s with owner := some n }.answer n locked
  | .transact n now acknowledged => if s.owner = some n then s.transact h n now acknowledged else none
  | .enter n => s.enter h n
  | .sign expected =>
    (s.store.step h (.enter (.anchored expected))).map fun store => { s with store, holder := none }
  | .turn t => (s.store.step h (.turn t)).map fun store => { s with store }
  | .stored => do
    let store ← s.store.step h .finished
    let pair ← store.returned.head?
    s.leave store (.ok pair.2)
  | .failed e => (s.store.step h .leave).bind fun store => s.leave store (.error e)
  | .refuse n e => if s.holder = some n then none else s.answer n fun _ => some (.error e)
  | .returned n => s.finish n
  | .crash n => if s.holder = some n then none else (s.operation n).map fun _ => s.gone n
  | .severed => some { s with owner := none }
  | .agents agents releases => some { s with journal := { s.journal with agents, releases } }

end System

end FreeSdn.Signing
