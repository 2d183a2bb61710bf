import FreeSdn.Lib.Run
import FreeSdn.Staging.Service

/-! The staging service as a system: the committed rows, the `apply_change` calls in flight, and the
steps that any number of callers interleave.  Each step is one transaction or one step of a call
between two transactions. -/

namespace FreeSdn.Staging

open FreeSdn.Lib FreeSdn.Proxmox

/-- Where an `apply_change` call stands after its claim: before the applier, inside it, with an
outcome to commit, or, when the commit of an acknowledged write raised, before the fallback
`UPDATE`. -/
inductive Phase
  | claimed
  | executing
  | answered (outcome : Outcome)
  | unrecorded (values : Accepted)
  deriving DecidableEq

/-- A call that holds a claim. -/
structure Call where
  id : Nat
  changeId : Uuid
  feature : String
  actorId : Option Uuid
  phase : Phase
  deriving DecidableEq

instance : Keyed Call Nat := ⟨Call.id⟩

@[simp] theorem key_call (k : Call) : Keyed.key k = k.id := rfl

structure World where
  rows : List PendingChange
  calls : List Call
  deriving DecidableEq

/-- Nothing staged, nobody applying. -/
def World.empty : World := ⟨[], []⟩

/-- How a commit ends.  `unacknowledged`: it took effect, but it or the refresh after it raised;
`lost`: it raised and was rolled back. -/
inductive CommitResult
  | acknowledged | unacknowledged | lost
  deriving DecidableEq, Repr

def CommitResult.tookEffect : CommitResult → Bool
  | .lost => false
  | _ => true

inductive Event
  /-- `stage_change`, whose recovery of stale claims is a step of its own. -/
  | stage (request : StageRequest) (generated : Uuid) (now : Time)
  /-- The claim of `apply_change`; unacknowledged, the call ends before the applier. -/
  | claim (call : Nat) (request : ApplyRequest) (acknowledged : Bool) (now : Time)
  /-- The call invokes the applier. -/
  | invoke (call : Nat) (changeId : Uuid)
  | answer (call : Nat) (answer : Answer) (now : Time)
  | commit (call : Nat) (result : CommitResult) (now : Time)
  | fallback (call : Nat) (tookEffect : Bool) (now : Time)
  /-- The process of the call dies, or the call is cancelled, or its applier raises what no handler
  catches. -/
  | crash (call : Nat)
  | discard (request : DiscardRequest) (now : Time)
  | recover (organization : Option Uuid) (now : Time)
  /-- `poll_due_tasks` picks the row and observes it. -/
  | observe (changeId : Uuid) (poll : Poll) (now : Time)

/-- The call with another phase. -/
def Call.to (phase : Phase) (k : Call) : Call := { k with phase }

def World.setPhase (w : World) (call : Nat) (phase : Phase) : World :=
  { w with calls := Table.update w.calls call (Call.to phase) }

def World.endCall (w : World) (call : Nat) : World := { w with calls := Table.remove w.calls call }

def World.write (w : World) (changeId : Uuid) (f : PendingChange → PendingChange) : World :=
  { w with rows := Table.update w.rows changeId f }

/-- The commit of an outcome.  A call whose acknowledged write could not be committed goes on to
the fallback; a failed commit of a failure propagates. -/
def World.commitOutcome (w : World) (k : Call) (o : Outcome) (result : CommitResult) (now : Time) :
    World :=
  let written := if result.tookEffect then w.write k.changeId (o.write now) else w
  match o, result with
  | .accepted _, .acknowledged => written.endCall k.id
  | .accepted v, _ => written.setPhase k.id (.unrecorded v)
  | .rejected .., _ => written.endCall k.id

/-- One step; `none` when it is refused or not enabled. -/
def step (env : Env) (w : World) : Event → Option World
  | .stage request generated now =>
    match stageChange env w.rows request generated now with
    | .ok row => some { w with rows := w.rows ++ [row] }
    | .error _ => none
  | .claim call request acknowledged now =>
    match Table.lookup w.calls call, claim env w.rows request now with
    | none, .ok row =>
      let claimed := w.write row.id fun _ => row
      some (if acknowledged then
        { claimed with
          calls := claimed.calls ++ [⟨call, row.id, row.feature, request.actorId, .claimed⟩] }
      else claimed)
    | _, _ => none
  | .invoke call changeId =>
    match Table.lookup w.calls call with
    | some ⟨_, target, _, _, .claimed⟩ =>
      if target = changeId then some (w.setPhase call .executing) else none
    | _ => none
  | .answer call answer now =>
    match Table.lookup w.calls call with
    | some ⟨_, _, feature, _, .executing⟩ =>
      (answerOutcome env.print feature answer now).map fun o => w.setPhase call (.answered o)
    | _ => none
  | .commit call result now =>
    match Table.lookup w.calls call with
    | some ⟨id, changeId, feature, actorId, .answered o⟩ =>
      some (w.commitOutcome ⟨id, changeId, feature, actorId, .answered o⟩ o result now)
    | _ => none
  | .fallback call tookEffect now =>
    match Table.lookup w.calls call with
    | some ⟨_, changeId, _, actorId, .unrecorded v⟩ =>
      let written := if tookEffect then w.write changeId (v.recover actorId now) else w
      some (written.endCall call)
    | _ => none
  | .crash call => if (Table.lookup w.calls call).isSome then some (w.endCall call) else none
  | .discard request now =>
    match discard env.print w.rows request now with
    | .ok row => some (w.write row.id fun _ => row)
    | .error _ => none
  | .recover organization now =>
    some { w with rows := recoverStaleApplying w.rows organization now }
  | .observe changeId poll now =>
    match Table.lookup w.rows changeId with
    | some c =>
      if due now c then
        some (w.write changeId fun c => { observeTask env.sha256 c poll now with updatedAt := now })
      else none
    | none => none

end FreeSdn.Staging
