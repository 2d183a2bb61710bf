import FreeSdn.Lib.Json
import FreeSdn.Lib.Lease
import FreeSdn.Lib.Run
import FreeSdn.Lib.Table
import FreeSdn.Lib.Text

/-! The Fabric negotiator (`core/fabric/negotiator.py`): worker processes match bus events to their
loaded Connections, claim them in a shared Redis, and run the claimed step chains under the
permissions of the author.  Each step of the system is what happens between two awaits of a call, or
one command at the server; a reply may be lost before or behind it. -/

namespace FreeSdn.Fabric

open FreeSdn.Lib

/-- Milliseconds. -/
abbrev Time := Nat

inductive OperationTier
  | native | plugin
  deriving DecidableEq, Repr

structure Operation where
  id : String
  permission : Option String
  tier : OperationTier
  write : Bool
  deriving DecidableEq, Repr

structure ConnectionStep where
  operationId : String
  continueOnError : Bool
  deriving DecidableEq, Repr

structure Connection where
  id : String
  organizationId : String
  sourceEvent : String
  steps : List ConnectionStep
  enabled : Bool
  conditions : Option Dict
  actorId : Option String
  cooldownSeconds : Int
  deriving DecidableEq

instance : Keyed Connection String := ⟨Connection.id⟩

@[simp] theorem key_connection (c : Connection) : Keyed.key c = c.id := rfl

/-- What `handle_event` reads of an event. -/
structure BusEvent where
  id : Option String
  eventType : String
  organizationId : Option String
  deriving DecidableEq, Repr

/-! ### Matching -/

/-- `_event_matches`, on the characters. -/
def eventMatchesChars (eventType pattern : List Char) : Bool :=
  if pattern = ['*'] ∨ pattern = eventType then true
  else
    let front := pattern.take (pattern.length - 2)
    if ['.', '*'].isSuffixOf pattern then
      if (front ++ ['.']).isPrefixOf eventType then
        !(eventType.drop (front.length + 1)).contains '.'
      else false
    else if ['.', '#'].isSuffixOf pattern then
      eventType = front || (front ++ ['.']).isPrefixOf eventType
    else false

/-- `_event_matches`. -/
def eventMatches (eventType pattern : String) : Bool :=
  eventMatchesChars eventType.toList pattern.toList

/-- The Connection may fire on the event: it is enabled, belongs to the organization of the event,
and its source pattern matches. -/
def Connection.admits (conn : Connection) (event : BusEvent) : Bool :=
  conn.enabled && event.organizationId = some conn.organizationId &&
    eventMatches event.eventType conn.sourceEvent

/-- `if conn.conditions:`. -/
def Connection.hasConditions (conn : Connection) : Bool := conn.conditions.any fun d => !d.isEmpty

/-- The identity of the event, unless it is missing or empty. -/
def BusEvent.identity (event : BusEvent) : Option String := event.id.filter (· ≠ "")

/-! ### Permission -/

/-- What the permission checker does: there is none, it raises, or it answers. -/
inductive CheckerReply
  | unconfigured | raised
  | answered (granted : Bool)
  deriving DecidableEq, Repr

/-- `_check_permission`. -/
def checkPermission (op : Operation) (reply : CheckerReply) : Bool :=
  match op.permission with
  | none => op.tier = .native && !op.write
  | some _ =>
    match reply with
    | .unconfigured => false
    | .raised => false
    | .answered granted => granted

/-! ### Claims -/

def firedKey (connectionId eventId : String) : String :=
  "fabric:fired:" ++ connectionId ++ ":" ++ eventId

def cooldownKey (connectionId : String) : String := "fabric:cooldown:" ++ connectionId

def seconds (n : Nat) : Time := n * 1000

/-- How long an event claim lives. -/
def claimLifetime : Time := seconds 300

/-- The claim of an event for a Connection. -/
def eventLease (conn : Connection) (eventId : String) (since : Time) : Lease String :=
  ⟨firedKey conn.id eventId, since, claimLifetime⟩

def cooldownLease (conn : Connection) (since : Time) : Lease String :=
  ⟨cooldownKey conn.id, since, seconds conn.cooldownSeconds.toNat⟩

/-! ### Calls -/

/-- Where a step of a running chain stands: in front of the step, waiting for the permission check,
allowed, or inside the executor. -/
inductive Stage
  | between
  | checking (op : Operation)
  | allowed (op : Operation)
  | executing (op : Operation)
  deriving DecidableEq

/-- Where a `handle_event` call stands: in its loop, waiting for one of the two claims (sent, or
answered at a time), in front of the chain, or inside it. -/
inductive Phase
  | scanning
  | claiming (conn : Connection)
  | claimAnswered (conn : Connection) (acquired : Bool) (claimedAt : Time)
  | cooling (conn : Connection) (claimedAt : Time)
  | coolAnswered (conn : Connection) (claimedAt : Time) (acquired : Bool) (cooledAt : Time)
  | ready (conn : Connection) (claimedAt : Time) (cooledAt : Option Time)
  | running (conn : Connection) (steps : List ConnectionStep) (stage : Stage)
  deriving DecidableEq

/-- A `handle_event` call of a worker, with the Connection ids that its loop has not reached. -/
structure Call where
  id : Nat
  worker : Nat
  event : BusEvent
  remaining : List String
  phase : Phase

instance : Keyed Call Nat := ⟨Call.id⟩

@[simp] theorem key_call (c : Call) : Keyed.key c = c.id := rfl

/-- A started chain: who started it on what, and when its claims were granted. -/
structure Start where
  call : Nat
  worker : Nat
  connection : Connection
  event : BusEvent
  eventId : String
  claimedAt : Time
  cooledAt : Option Time
  startedAt : Time
  deriving DecidableEq

structure World where
  now : Time
  redis : Expiry String
  /-- The Connections that each worker has loaded. -/
  connections : Nat → List Connection
  calls : List Call
  /-- The chains started so far. -/
  started : List Start

/-- What a call does next. -/
inductive Act
  /-- The loop looks at the next Connection; `met` says whether its conditions hold. -/
  | advance (met : Bool)
  /-- The server executes the `SET` that the call has sent. -/
  | set
  /-- The call gets the reply, or an error in its place. -/
  | reply (lost : Bool)
  | start (conn : Connection)
  /-- The registry is asked for the operation of the next step. -/
  | lookup (op : Option Operation)
  | check (op : Operation) (actorId : Option String) (organizationId : String) (reply : CheckerReply)
  | execute (op : Operation)
  | settle (success : Bool)
  /-- The step raises. -/
  | crash
  | finish
  deriving DecidableEq

inductive Event
  | handle (call worker : Nat) (event : BusEvent)
  | act (call : Nat) (a : Act)
  /-- The call is cancelled, or its process dies. -/
  | die (call : Nat)
  /-- The worker adds, removes or reloads Connections. -/
  | change (worker : Nat) (connections : List Connection)
  /-- The server executes a `SET` whose caller has given up. -/
  | stray (key : String) (ttl : Time)
  | tick (d : Time)
  deriving DecidableEq

/-- What an act leaves. -/
structure Moved where
  redis : Expiry String
  call : Call
  started : List Start

/-- The call in another phase. -/
def Call.to (c : Call) (phase : Phase) : Call := { c with phase := phase }

/-- Behind a step of the chain: the next one, or the end of the chain. -/
def afterStep (conn : Connection) (step : ConnectionStep) (steps : List ConnectionStep)
    (success : Bool) : Phase :=
  if !success && !step.continueOnError then .scanning else .running conn steps .between

/-- The loop at its next Connection. -/
def Call.advance (connections : List Connection) (c : Call) (id : String) (ids : List String)
    (met : Bool) : Call :=
  let c := { c with remaining := ids }
  match Table.lookup connections id with
  | none => c
  | some conn =>
    if conn.admits c.event && (!conn.hasConditions || met) && c.event.identity.isSome then
      c.to (.claiming conn)
    else c

/-- `SET key NX EX ttl` for a call that waits in the phase that `answered` gives. -/
def sendSet (s : World) (c : Call) (l : Lease String) (answered : Bool → Phase) : Moved :=
  match setNx s.redis s.now l.key l.ttl with
  | some redis => ⟨redis, c.to (answered true), []⟩
  | none => ⟨s.redis, c.to (answered false), []⟩

def act (s : World) (c : Call) (a : Act) : Option Moved :=
  let stay (phase : Phase) : Option Moved := some ⟨s.redis, c.to phase, []⟩
  match a, c.phase with
  | .advance met, .scanning =>
    match c.remaining with
    | [] => none
    | id :: ids => some ⟨s.redis, c.advance (s.connections c.worker) id ids met, []⟩
  | .set, .claiming conn =>
    c.event.identity.map fun eventId =>
      sendSet s c (eventLease conn eventId s.now) fun acquired => .claimAnswered conn acquired s.now
  | .set, .cooling conn claimedAt =>
    some (sendSet s c (cooldownLease conn s.now) fun acquired =>
      .coolAnswered conn claimedAt acquired s.now)
  | .reply true, .claiming _ => stay .scanning
  | .reply lost, .claimAnswered conn acquired claimedAt =>
    if acquired && !lost then
      if 0 < conn.cooldownSeconds then stay (.cooling conn claimedAt)
      else stay (.ready conn claimedAt none)
    else stay .scanning
  | .reply true, .cooling _ _ => stay .scanning
  | .reply lost, .coolAnswered conn claimedAt acquired cooledAt =>
    if acquired && !lost then stay (.ready conn claimedAt (some cooledAt)) else stay .scanning
  | .start conn', .ready conn claimedAt cooledAt =>
    if conn' = conn then
      c.event.identity.map fun eventId =>
        ⟨s.redis, c.to (.running conn conn.steps .between),
          [⟨c.id, c.worker, conn, c.event, eventId, claimedAt, cooledAt, s.now⟩]⟩
    else none
  | .lookup op, .running conn (step :: steps) .between =>
    match op with
    | none => stay (afterStep conn step steps false)
    | some op =>
      if op.id = step.operationId then stay (.running conn (step :: steps) (.checking op)) else none
  | .check op actorId organizationId reply, .running conn (step :: steps) (.checking op') =>
    if op = op' ∧ actorId = conn.actorId ∧ organizationId = conn.organizationId then
      if checkPermission op reply then stay (.running conn (step :: steps) (.allowed op))
      else stay (afterStep conn step steps false)
    else none
  | .execute op, .running conn (step :: steps) (.allowed op') =>
    if op = op' then stay (.running conn (step :: steps) (.executing op)) else none
  | .settle success, .running conn (step :: steps) (.executing _) =>
    stay (afterStep conn step steps success)
  | .crash, .running conn (step :: steps) _ => stay (afterStep conn step steps false)
  | .finish, .running _ [] .between => stay .scanning
  | _, _ => none

def step (s : World) : Event → Option World
  | .handle call worker event =>
    if (Table.lookup s.calls call).isNone ∧ event.eventType ≠ "fabric.connection.changed" then
      some { s with
        calls := s.calls ++ [⟨call, worker, event, (s.connections worker).map (·.id), .scanning⟩] }
    else none
  | .act call a =>
    (Table.lookup s.calls call).bind fun c => (act s c a).map fun m =>
      { s with
        redis := m.redis, calls := Table.update s.calls call fun _ => m.call
        started := s.started ++ m.started }
  | .die call => some { s with calls := Table.remove s.calls call }
  | .change worker connections =>
    if Table.Unique connections then
      some { s with connections := fun w => if w = worker then connections else s.connections w }
    else none
  | .stray key ttl => (setNx s.redis s.now key ttl).map fun redis => { s with redis := redis }
  | .tick d => some { s with now := s.now + d }

end FreeSdn.Fabric
