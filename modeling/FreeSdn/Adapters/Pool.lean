import FreeSdn.Lib.Run
import FreeSdn.Lib.Table
import Mathlib.Data.List.Dedup

/-! The adapter connection pool (`adapters/pool.py`).  Calls that take the lock exclude each other; a
step runs from one `await` of the call that holds it to the next, and `invalidate_controller` takes no
lock and may run between any two steps.  The dictionary of lists is one list here: the connections of a
controller are those that name it, in the order in which they were appended. -/

namespace FreeSdn.Adapters

open FreeSdn.Lib

structure Settings where
  maxPerController : Nat
  maxIdleSeconds : Int
  maxAgeSeconds : Int

/-! ### Connections -/

/-- `PooledConnection`.  `epoch` counts the invalidations of the controller before the arguments were
passed with which the connection was opened; the pool does not have it. -/
structure Connection where
  id : Nat
  adapterId : String
  controllerId : String
  createdAt : Int
  lastUsedAt : Int
  useCount : Nat
  isHealthy : Bool
  isAcquired : Bool
  acquiredAt : Option Int
  epoch : Nat
  deriving DecidableEq

instance : Keyed Connection Nat := ⟨Connection.id⟩

@[simp] theorem key_id (c : Connection) : Keyed.key c = c.id := rfl

namespace Connection

def markUsed (c : Connection) (now : Int) : Connection :=
  { c with lastUsedAt := now, useCount := c.useCount + 1 }

def acquire (c : Connection) (now : Int) : Connection :=
  { c.markUsed now with isAcquired := true, acquiredAt := some now }

def release (c : Connection) : Connection := { c with isAcquired := false, acquiredAt := none }

def unhealthy (c : Connection) : Connection := { c with isHealthy := false }

/-- The connection after its controller, or another, was invalidated. -/
def invalidated (c : Connection) (controllerId : String) : Connection :=
  if c.controllerId = controllerId then c.unhealthy else c

/-- The tests of the cleanup: idle for too long, or too old. -/
def expired (c : Connection) (cfg : Settings) (now : Int) : Bool :=
  cfg.maxIdleSeconds < now - c.lastUsedAt || cfg.maxAgeSeconds < now - c.createdAt

/-- An invalidation touches nothing but the health. -/
theorem invalidated_keeps (c : Connection) (controllerId : String) :
    (c.invalidated controllerId).id = c.id ∧
    (c.invalidated controllerId).controllerId = c.controllerId ∧
    (c.invalidated controllerId).isAcquired = c.isAcquired ∧
    (c.invalidated controllerId).epoch = c.epoch := by
  unfold invalidated
  split_ifs <;> exact ⟨rfl, rfl, rfl, rfl⟩

end Connection

/-! ### Calls -/

/-- What a caller asks for, and the invalidations of the controller before it passed its arguments. -/
structure Ask where
  adapterId : String
  controllerId : String
  epoch : Nat
  deriving DecidableEq

inductive Request
  /-- `_acquire_connection`. -/
  | acquire (ask : Ask)
  /-- `get_or_create_shared`. -/
  | share (ask : Ask)
  /-- `adopt`, of an adapter opened at the epoch of `ask`. -/
  | adopt (ask : Ask)
  /-- `_release_connection`. -/
  | release (id : Nat)
  /-- `close_controller_connections`. -/
  | close (controllerId : String)
  /-- `_cleanup_connections`. -/
  | cleanup
  /-- `_close_all_connections`. -/
  | shutdown
  deriving DecidableEq

/-- Where the call that holds the lock waits. -/
inductive Point
  /-- In the health check of a connection, with those that follow it in the loop. -/
  | pinging (ask : Ask) (id : Nat) (rest : List Nat)
  /-- In `connect`, to track the connection afterwards, leased or shared. -/
  | connecting (lease : Bool) (ask : Ask)
  /-- In `connect` of an adapter that is not tracked. -/
  | connectingFresh (ask : Ask)
  /-- In the disconnect of the first of the connections taken out of the pool. -/
  | closing (rest : List Connection)
  /-- In the disconnect of the first of the connections to remove, with the controllers still to look
  at and the epochs when the pass began. -/
  | cleaning (removing : List Nat) (controllers : List String) (since : String → Nat)

/-- A connection that a call returned: what was asked, what it was opened for and when, whether it was
leased at that moment, and the invalidations of the controller by then. -/
structure Handout where
  ask : Ask
  adapterId : String
  controllerId : String
  epoch : Nat
  leased : Bool
  current : Nat
  deriving DecidableEq

/-- A connection that was closed, whether it was leased, and whether the cleanup did it. -/
structure Destroyed where
  id : Nat
  leased : Bool
  cleanup : Bool
  deriving DecidableEq

structure Pool where
  tracked : List Connection
  waiting : List Request
  holder : Option Point
  nextId : Nat
  epochs : String → Nat
  handouts : List Handout
  destroyed : List Destroyed
  /-- The idle connections from before a pass of the cleanup that outlived it. -/
  survivors : List Connection

def Pool.empty : Pool := ⟨[], [], none, 0, fun _ => 0, [], [], []⟩

/-- The time at which each connection is looked at. -/
abbrev Clock := Nat → Int

namespace Pool

/-- `self._connections.get(controller_id, [])`. -/
def connectionsOf (s : Pool) (controllerId : String) : List Connection :=
  s.tracked.filter (·.controllerId = controllerId)

def active (s : Pool) (controllerId : String) : Nat :=
  ((s.connectionsOf controllerId).filter (·.isAcquired)).length

/-- The call returns the connection and the lock. -/
def handOut (s : Pool) (ask : Ask) (c : Connection) : Pool :=
  { s with
    holder := none
    handouts := s.handouts ++
      [⟨ask, c.adapterId, c.controllerId, c.epoch, c.isAcquired, s.epochs ask.controllerId⟩] }

/-- A connection that has just been opened. -/
def opened (s : Pool) (ask : Ask) (clock : Clock) : Connection :=
  ⟨s.nextId, ask.adapterId, ask.controllerId, clock s.nextId, clock s.nextId, 0, true, false, none,
    ask.epoch⟩

/-- The connection is tracked, leased or not, and returned. -/
def register (s : Pool) (ask : Ask) (lease : Bool) (clock : Clock) : Pool :=
  let c := s.opened ask clock
  let tracked := if lease then c.acquire (clock c.id) else c
  { s.handOut ask c with tracked := s.tracked ++ [tracked], nextId := s.nextId + 1 }

/-- The loop of `_acquire_connection` over the rest of the list, up to its next `await`. -/
def scan (cfg : Settings) (s : Pool) (ask : Ask) : List Nat → Pool
  | [] =>
    if cfg.maxPerController ≤ s.active ask.controllerId then { s with holder := none }
    else { s with holder := some (.connecting true ask) }
  | id :: rest =>
    match Table.lookup s.tracked id with
    | some c =>
      if !c.isAcquired && c.isHealthy then { s with holder := some (.pinging ask id rest) }
      else scan cfg s ask rest
    | none => scan cfg s ask rest

/-- The health check has failed. -/
def unwell (s : Pool) (id : Nat) : Pool :=
  { s with tracked := Table.update s.tracked id Connection.unhealthy, holder := none }

/-- The connection that `get_or_create_shared` reuses. -/
def reusable (s : Pool) (ask : Ask) : Option Connection :=
  (s.connectionsOf ask.controllerId).find? fun c => c.adapterId = ask.adapterId && c.isHealthy

def share (cfg : Settings) (s : Pool) (ask : Ask) (clock : Clock) : Pool :=
  match s.reusable ask with
  | some c =>
    { s.handOut ask c with tracked := Table.update s.tracked c.id (·.markUsed (clock c.id)) }
  | none =>
    if cfg.maxPerController ≤ (s.connectionsOf ask.controllerId).length then
      { s with holder := some (.connectingFresh ask) }
    else { s with holder := some (.connecting false ask) }

def adopt (cfg : Settings) (s : Pool) (ask : Ask) (clock : Clock) : Pool :=
  if cfg.maxPerController ≤ (s.connectionsOf ask.controllerId).length then
    s.handOut ask (s.opened ask clock)
  else s.register ask false clock

/-- Connections that are closed one after the other. -/
def close (s : Pool) (taken kept : List Connection) : Pool :=
  { s with tracked := kept, holder := if taken = [] then none else some (.closing taken) }

/-- `_destroy_connection` by the cleanup, which removes the connection. -/
def destroy (s : Pool) (c : Connection) : Pool :=
  { s with
    tracked := Table.remove s.tracked c.id
    destroyed := s.destroyed ++ [⟨c.id, c.isAcquired, true⟩] }

/-- The idle connections from before the epochs `since`. -/
def stale (s : Pool) (since : String → Nat) : List Connection :=
  s.tracked.filter fun c => !c.isAcquired && c.epoch < since c.controllerId

/-- The connections of a controller that the cleanup removes. -/
def removals (cfg : Settings) (s : Pool) (clock : Clock) (controllerId : String) : List Nat :=
  ((s.connectionsOf controllerId).filter fun c => !c.isAcquired && c.expired cfg (clock c.id)).map
    Connection.id

/-- The cleanup of the controllers that are left, up to its next `await`. -/
def clean (cfg : Settings) (s : Pool) (since : String → Nat) (clock : Clock) : List String → Pool
  | [] => { s with holder := none, survivors := s.survivors ++ s.stale since }
  | c :: rest =>
    if s.removals cfg clock c = [] then clean cfg s since clock rest
    else { s with holder := some (.cleaning (s.removals cfg clock c) rest since) }

/-- `invalidate_controller`. -/
def invalidate (s : Pool) (controllerId : String) : Pool :=
  { s with
    tracked := s.tracked.map (·.invalidated controllerId)
    epochs := fun d => if d = controllerId then s.epochs d + 1 else s.epochs d }

/-- The call gets the lock and runs up to its first `await`. -/
def run (cfg : Settings) (s : Pool) (clock : Clock) : Request → Pool
  | .acquire ask => s.scan cfg ask ((s.connectionsOf ask.controllerId).map Connection.id)
  | .share ask => s.share cfg ask clock
  | .adopt ask => s.adopt cfg ask clock
  | .release id => { s with tracked := Table.update s.tracked id Connection.release }
  | .close controllerId =>
    s.close (s.connectionsOf controllerId) (s.tracked.filter (·.controllerId ≠ controllerId))
  | .cleanup => s.clean cfg s.epochs clock (s.tracked.map Connection.controllerId).dedup
  -- The source clears its dictionary after the last disconnect; nothing reads it before.
  | .shutdown => s.close s.tracked []

end Pool

/-! ### Steps -/

/-- The epoch that a request names is the one in which its arguments are passed; an adapter to adopt
may have been opened earlier. -/
def Request.current (s : Pool) : Request → Bool
  | .acquire ask | .share ask => ask.epoch = s.epochs ask.controllerId
  | .adopt ask => ask.epoch ≤ s.epochs ask.controllerId
  | _ => true

inductive Event
  | call (request : Request)
  /-- The lock goes to a waiting call. -/
  | enter (index : Nat) (clock : Clock)
  /-- The health check answers, or raises. -/
  | pong (answer : Option Bool) (clock : Clock)
  /-- `connect` returns, or raises. -/
  | connected (ok : Bool) (clock : Clock)
  | disconnected (clock : Clock)
  | invalidate (controllerId : String)

open Pool in
def step (cfg : Settings) (s : Pool) : Event → Option Pool
  | .call request =>
    if request.current s then some { s with waiting := s.waiting ++ [request] } else none
  | .enter index clock =>
    match s.holder, s.waiting[index]? with
    | none, some request =>
      some (run cfg { s with waiting := s.waiting.eraseIdx index, holder := none } clock request)
    | _, _ => none
  | .pong answer clock =>
    match s.holder with
    | some (.pinging ask id rest) =>
      match answer with
      | some true =>
        match Table.lookup s.tracked id with
        | some c =>
          some { s.handOut ask c with tracked := Table.update s.tracked id (·.acquire (clock id)) }
        | none => none
      | some false =>
        some ((s.unwell id).scan cfg ask rest)
      | none => some { s with holder := none }
    | _ => none
  | .connected ok clock =>
    match s.holder with
    | some (.connecting lease ask) =>
      some (if ok then s.register ask lease clock else { s with holder := none })
    | some (.connectingFresh ask) =>
      some (if ok then s.handOut ask (s.opened ask clock) else { s with holder := none })
    | _ => none
  | .disconnected clock =>
    match s.holder with
    | some (.closing (c :: rest)) =>
      some { s with
        destroyed := s.destroyed ++ [⟨c.id, c.isAcquired, false⟩]
        holder := if rest = [] then none else some (.closing rest) }
    | some (.cleaning (id :: rest) controllers since) =>
      match Table.lookup s.tracked id with
      | some c =>
        some (if rest = [] then (s.destroy c).clean cfg since clock controllers
          else { s.destroy c with holder := some (.cleaning rest controllers since) })
      | none => none
    | _ => none
  | .invalidate controllerId => some (s.invalidate controllerId)

/-! ### What a step can do -/

section
variable {cfg : Settings} {s t : Pool}

/-- None of the connections is idle and healthy. -/
def Pool.Exhausted (s : Pool) (ids : List Nat) : Prop :=
  ∀ id ∈ ids, ∀ c ∈ Table.lookup s.tracked id, c.isAcquired = true ∨ c.isHealthy = false

instance (s : Pool) (ids : List Nat) : Decidable (s.Exhausted ids) :=
  inferInstanceAs (Decidable (∀ id ∈ ids, ∀ c ∈ Table.lookup s.tracked id,
    c.isAcquired = true ∨ c.isHealthy = false))

/-- The loop of `_acquire_connection` raises, opens a connection, or checks an idle healthy one. -/
theorem Pool.scan_cases (cfg : Settings) (s : Pool) (ask : Ask) (ids : List Nat) :
    s.scan cfg ask ids = { s with holder := none } ∨
    (s.Exhausted ids ∧ s.active ask.controllerId < cfg.maxPerController ∧
      s.scan cfg ask ids = { s with holder := some (.connecting true ask) }) ∨
    ∃ id rest c, id :: rest ⊆ ids ∧ Table.lookup s.tracked id = some c ∧ c.isAcquired = false ∧
      c.isHealthy = true ∧ s.scan cfg ask ids = { s with holder := some (.pinging ask id rest) } := by
  induction ids with
  | nil =>
    by_cases full : cfg.maxPerController ≤ s.active ask.controllerId
    · exact .inl (by rw [scan, if_pos full])
    · exact .inr (.inl ⟨by simp [Exhausted], by omega, by rw [scan, if_neg full]⟩)
  | cons id ids ih =>
    -- Either this connection is checked, or the loop goes on as it would without it.
    have skip (busy : ∀ c ∈ Table.lookup s.tracked id, c.isAcquired = true ∨ c.isHealthy = false)
        (same : s.scan cfg ask (id :: ids) = s.scan cfg ask ids) :
        s.scan cfg ask (id :: ids) = { s with holder := none } ∨
        (s.Exhausted (id :: ids) ∧ s.active ask.controllerId < cfg.maxPerController ∧
          s.scan cfg ask (id :: ids) = { s with holder := some (.connecting true ask) }) ∨
        ∃ i rest c, i :: rest ⊆ id :: ids ∧ Table.lookup s.tracked i = some c ∧ c.isAcquired = false ∧
          c.isHealthy = true ∧
          s.scan cfg ask (id :: ids) = { s with holder := some (.pinging ask i rest) } := by
      rw [same]
      rcases ih with raised | ⟨none, room, opens⟩ | ⟨i, rest, c, sub, found, idle, healthy, pings⟩
      · exact .inl raised
      · refine .inr (.inl ⟨fun i mem => ?_, room, opens⟩)
        rcases List.mem_cons.mp mem with rfl | later
        · exact busy
        · exact none i later
      · exact .inr (.inr ⟨i, rest, c, List.subset_cons_of_subset _ sub, found, idle, healthy, pings⟩)
    cases found : Table.lookup s.tracked id with
    | none => exact skip (by simp [found]) (by rw [scan, found])
    | some c =>
      by_cases idle : (!c.isAcquired && c.isHealthy) = true
      · have facts : c.isAcquired = false ∧ c.isHealthy = true := by simpa using idle
        refine .inr (.inr ⟨id, ids, c, List.Subset.refl _, found, facts.1, facts.2, ?_⟩)
        rw [scan, found]
        exact if_pos idle
      · refine skip (fun d eq => ?_) (by rw [scan, found]; exact if_neg idle)
        obtain rfl := Option.some.inj (found.symm.trans eq)
        cases busy : c.isAcquired
        · simpa [busy] using idle
        · exact .inl rfl

/-- The cleanup ends, or removes the connections of the first controller that has some to remove. -/
theorem Pool.clean_cases (cfg : Settings) (s : Pool) (since : String → Nat) (clock : Clock)
    (controllers : List String) :
    ((∀ d ∈ controllers, s.removals cfg clock d = []) ∧ s.clean cfg since clock controllers =
      { s with holder := none, survivors := s.survivors ++ s.stale since }) ∨
    ∃ before c rest, controllers = before ++ c :: rest ∧
      (∀ d ∈ before, s.removals cfg clock d = []) ∧ s.clean cfg since clock controllers =
        { s with holder := some (.cleaning (s.removals cfg clock c) rest since) } := by
  induction controllers with
  | nil => exact .inl ⟨by simp, rfl⟩
  | cons c controllers ih =>
    by_cases none : s.removals cfg clock c = []
    · have same : s.clean cfg since clock (c :: controllers) = s.clean cfg since clock controllers := by
        rw [clean, if_pos none]
      rw [same]
      rcases ih with ⟨all, ends⟩ | ⟨before, d, rest, rfl, all, waits⟩
      · exact .inl ⟨by simpa [none] using all, ends⟩
      · exact .inr ⟨c :: before, d, rest, rfl, by simpa [none] using all, waits⟩
    · exact .inr ⟨[], c, controllers, rfl, by simp, by rw [clean, if_neg none]⟩

inductive Moves (cfg : Settings) (s : Pool) : Event → Pool → Prop
  | call {request : Request} (current : request.current s = true) :
      Moves cfg s (.call request) { s with waiting := s.waiting ++ [request] }
  | enter {index : Nat} {clock : Clock} {request : Request} (free : s.holder = none)
      (found : s.waiting[index]? = some request) :
      Moves cfg s (.enter index clock)
        (Pool.run cfg { s with waiting := s.waiting.eraseIdx index, holder := none } clock request)
  | lease {ask : Ask} {id : Nat} {rest : List Nat} {clock : Clock} {c : Connection}
      (holds : s.holder = some (.pinging ask id rest)) (found : Table.lookup s.tracked id = some c) :
      Moves cfg s (.pong (some true) clock)
        { s.handOut ask c with tracked := Table.update s.tracked id (·.acquire (clock id)) }
  | unwell {ask : Ask} {id : Nat} {rest : List Nat} {clock : Clock}
      (holds : s.holder = some (.pinging ask id rest)) :
      Moves cfg s (.pong (some false) clock) ((s.unwell id).scan cfg ask rest)
  | raise {e : Event} (open_ : ∀ rest, s.holder ≠ some (.closing rest))
      (still : ∀ c, e ≠ .invalidate c) : Moves cfg s e { s with holder := none }
  | register {lease : Bool} {ask : Ask} {clock : Clock} (holds : s.holder = some (.connecting lease ask)) :
      Moves cfg s (.connected true clock) (s.register ask lease clock)
  | fresh {ask : Ask} {clock : Clock} (holds : s.holder = some (.connectingFresh ask)) :
      Moves cfg s (.connected true clock) (s.handOut ask (s.opened ask clock))
  | closed {c : Connection} {rest : List Connection} {clock : Clock}
      (holds : s.holder = some (.closing (c :: rest))) :
      Moves cfg s (.disconnected clock)
        { s with
          destroyed := s.destroyed ++ [⟨c.id, c.isAcquired, false⟩]
          holder := if rest = [] then none else some (.closing rest) }
  | cleaned {id : Nat} {rest : List Nat} {controllers : List String} {since : String → Nat}
      {clock : Clock} {c : Connection} (holds : s.holder = some (.cleaning (id :: rest) controllers since))
      (found : Table.lookup s.tracked id = some c) :
      Moves cfg s (.disconnected clock)
        (if rest = [] then (s.destroy c).clean cfg since clock controllers
          else { s.destroy c with holder := some (.cleaning rest controllers since) })
  | invalidate (controllerId : String) :
      Moves cfg s (.invalidate controllerId) (s.invalidate controllerId)

theorem Moves.of_step {e : Event} (h : step cfg s e = some t) : Moves cfg s e t := by
  cases e with
  | call request =>
    simp only [step] at h
    split at h
    · next current =>
      obtain rfl := Option.some.inj h
      exact .call current
    · cases h
  | enter index clock =>
    cases free : s.holder with
    | some point => simp [step, free] at h
    | none =>
      cases found : s.waiting[index]? with
      | none => simp [step, free, found] at h
      | some request =>
        simp only [step, free, found] at h
        obtain rfl := Option.some.inj h
        exact .enter free found
  | pong answer clock =>
    cases holds : s.holder with
    | none => simp [step, holds] at h
    | some point =>
      cases point with
      | pinging ask id rest =>
        rcases answer with _ | _ | _
        · simp only [step, holds] at h
          obtain rfl := Option.some.inj h
          exact .raise (by simp [holds]) (by simp)
        · simp only [step, holds] at h
          obtain rfl := Option.some.inj h
          exact .unwell holds
        · cases found : Table.lookup s.tracked id with
          | none => simp [step, holds, found] at h
          | some c =>
            simp only [step, holds, found] at h
            obtain rfl := Option.some.inj h
            exact .lease holds found
      | _ => simp [step, holds] at h
  | connected ok clock =>
    cases holds : s.holder with
    | none => simp [step, holds] at h
    | some point =>
      cases point with
      | connecting lease ask =>
        simp only [step, holds] at h
        obtain rfl := Option.some.inj h
        cases ok with
        | true => exact .register holds
        | false => exact .raise (by simp [holds]) (by simp)
      | connectingFresh ask =>
        simp only [step, holds] at h
        obtain rfl := Option.some.inj h
        cases ok with
        | true => exact .fresh holds
        | false => exact .raise (by simp [holds]) (by simp)
      | _ => simp [step, holds] at h
  | disconnected clock =>
    cases holds : s.holder with
    | none => simp [step, holds] at h
    | some point =>
      cases point with
      | closing rest =>
        obtain _ | ⟨c, rest⟩ := rest
        · simp [step, holds] at h
        · simp only [step, holds] at h
          obtain rfl := Option.some.inj h
          exact .closed holds
      | cleaning removing controllers since =>
        obtain _ | ⟨id, rest⟩ := removing
        · simp [step, holds] at h
        · cases found : Table.lookup s.tracked id with
          | none => simp [step, holds, found] at h
          | some c =>
            simp only [step, holds, found] at h
            obtain rfl := Option.some.inj h
            exact .cleaned holds found
      | _ => simp [step, holds] at h
  | invalidate controllerId =>
    obtain rfl := Option.some.inj h
    exact .invalidate controllerId

end

end FreeSdn.Adapters
