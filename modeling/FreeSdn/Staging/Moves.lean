import FreeSdn.Lib.Except
import FreeSdn.Staging.World

/-! What a step does to the rows.  `step_rows` says it once: a step inserts a staged row or maps
every row along a `Move`; the laws about runs follow from the moves. -/

namespace FreeSdn.Staging

open FreeSdn.Lib FreeSdn.Proxmox

/-! ### Checks that pass -/

theorem refuseIf_ok {condition : Bool} {error : HttpError} (h : refuseIf condition error = .ok ()) :
    condition = false := by
  cases condition
  · rfl
  · simp [refuseIf] at h

/-- What a successful claim found: an unlocked gate, the pending row, and both guards passed. -/
structure Claims (env : Env) (rows : List PendingChange) (request : ApplyRequest)
    (c : PendingChange) : Prop where
  found : Table.lookup rows request.changeId = some c
  pending : c.status = .pending
  cluster : guardClusterConflicts env rows c = .ok ()
  guest : guardGuestConflicts env rows c = .ok ()

theorem claimChecks_ok {env : Env} {rows : List PendingChange} {request : ApplyRequest}
    {c : PendingChange} (found : Table.lookup rows request.changeId = some c)
    (h : claimChecks env rows request c = .ok ()) : Claims env rows request c := by
  unfold claimChecks at h
  obtain ⟨_, _, h⟩ := bind_ok h
  obtain ⟨_, status, h⟩ := bind_ok h
  obtain ⟨_, _, h⟩ := bind_ok h
  obtain ⟨_, _, h⟩ := bind_ok h
  obtain ⟨_, _, h⟩ := bind_ok h
  obtain ⟨_, cluster, guest⟩ := bind_ok h
  have pending := refuseIf_ok status
  exact ⟨found, by simpa using pending, cluster, guest⟩

/-- The row that a claim commits. -/
def claimedRow (request : ApplyRequest) (now : Time) (c : PendingChange) : PendingChange :=
  { c with status := .applying, updatedBy := request.actorId, updatedAt := now }

theorem claim_ok {env : Env} {rows : List PendingChange} {request : ApplyRequest} {now : Time}
    {row : PendingChange} (h : claim env rows request now = .ok row) :
    ∃ c, Claims env rows request c ∧ row = claimedRow request now c := by
  unfold claim at h
  obtain ⟨_, _, h⟩ := bind_ok h
  split at h
  · simp at h
  · rename_i c found
    obtain ⟨_, checks, h⟩ := bind_ok h
    exact ⟨c, claimChecks_ok found checks, (Except.ok.inj h).symm⟩

/-- The row that a discard commits. -/
def discardedRow (request : DiscardRequest) (now : Time) (c : PendingChange) : PendingChange :=
  { c with
    status := .discarded, nextPollAt := none
    providerTask := if resolvedObservation request.force c then
        c.providerTask.map ({ · with detail := .str "operator_resolved_unknown_outcome" })
      else c.providerTask
    updatedBy := request.actorId, updatedAt := now }

/-- What a successful discard found. -/
structure Discards (rows : List PendingChange) (request : DiscardRequest) (c : PendingChange) :
    Prop where
  found : Table.lookup rows request.changeId = some c
  allowed : discardable request.force c.status ∨ resolvedObservation request.force c

theorem discard_ok {print : Printing} {rows : List PendingChange} {request : DiscardRequest}
    {now : Time} {row : PendingChange} (h : discard print rows request now = .ok row) :
    ∃ c, Discards rows request c ∧ row = discardedRow request now c := by
  unfold discard at h
  split at h
  · simp at h
  · rename_i c found
    obtain ⟨_, _, h⟩ := bind_ok h
    obtain ⟨_, _, h⟩ := bind_ok h
    obtain ⟨_, allowed, h⟩ := bind_ok h
    have passed := refuseIf_ok allowed
    refine ⟨c, ⟨found, ?_⟩, (Except.ok.inj h).symm⟩
    simp only [Bool.and_eq_false_iff, Bool.not_eq_false'] at passed
    exact passed

/-- The row that an observation commits. -/
def observedRow (env : Env) (poll : Poll) (now : Time) (c : PendingChange) : PendingChange :=
  { observeTask env.sha256 c poll now with updatedAt := now }

/-- The row that a recovery commits. -/
def recoveredRow (now : Time) (c : PendingChange) : PendingChange :=
  { c with status := .reconciliationRequired, failureReason := some staleReason, updatedAt := now }

/-! ### Moves -/

/-- What the step `e` taken in `w` may do to the row `r`. -/
inductive Move (env : Env) (w : World) : Event → PendingChange → PendingChange → Prop
  | same (e : Event) (r : PendingChange) : Move env w e r r
  | claim {call : Nat} {request : ApplyRequest} {acknowledged : Bool} {now : Time}
      {r : PendingChange} : Claims env w.rows request r →
      Move env w (.claim call request acknowledged now) r (claimedRow request now r)
  | write {k : Call} {o : Outcome} {result : CommitResult} {now : Time} {r : PendingChange} :
      k ∈ w.calls → k.changeId = r.id → k.phase = .answered o → result.tookEffect →
      Move env w (.commit k.id result now) r (o.write now r)
  | fallback {k : Call} {v : Accepted} {now : Time} {r : PendingChange} :
      k ∈ w.calls → k.changeId = r.id → k.phase = .unrecorded v →
      Move env w (.fallback k.id true now) r (v.recover k.actorId now r)
  | discard {request : DiscardRequest} {now : Time} {r : PendingChange} :
      Discards w.rows request r → Move env w (.discard request now) r (discardedRow request now r)
  | recover {organization : Option Uuid} {now : Time} {r : PendingChange} :
      stale organization now r → Move env w (.recover organization now) r (recoveredRow now r)
  | observe {poll : Poll} {now : Time} {r : PendingChange} : due now r →
      Move env w (.observe r.id poll now) r (observedRow env poll now r)

/-- The step inserts `row`. -/
def Inserts (env : Env) (w : World) (e : Event) (row : PendingChange) : Prop :=
  ∃ request generated now, e = .stage request generated now ∧
    stageChange env w.rows request generated now = .ok row

section Steps

variable {env : Env} {w w' : World} {e : Event}

theorem stageChange_ok {rows : List PendingChange} {request : StageRequest} {generated : Uuid}
    {now : Time} {row : PendingChange} (h : stageChange env rows request generated now = .ok row) :
    row = request.row generated now ∧ stageChecks env rows request row = .ok () ∧
      ∀ r ∈ rows, r.id ≠ row.id := by
  unfold stageChange at h
  dsimp only at h
  split at h
  · simp at h
  · rename_i checks
    split at h
    · simp at h
    · rename_i free
      obtain rfl := Except.ok.inj h
      refine ⟨rfl, checks, Table.lookup_none.mp ?_⟩
      simpa using free

/-- A write by primary key moves the row it finds and leaves the others. -/
theorem write_moves {id : Uuid} {f : PendingChange → PendingChange}
    (moves : ∀ r ∈ w.rows, r.id = id → Move env w e r (f r)) :
    ∃ g, (w.write id f).rows = w.rows.map g ∧ ∀ r ∈ w.rows, Move env w e r (g r) := by
  refine ⟨fun r => if r.id = id then f r else r, rfl, ?_⟩
  intro r mem
  dsimp only
  split
  · rename_i here
    exact moves r mem here
  · exact .same e r

theorem keep_moves (same : w'.rows = w.rows) :
    ∃ g, w'.rows = w.rows.map g ∧ ∀ r ∈ w.rows, Move env w e r (g r) :=
  ⟨id, by simpa using same, fun r _ => .same e r⟩

theorem commitOutcome_rows {k : Call} {o : Outcome} {result : CommitResult} {now : Time} :
    (w.commitOutcome k o result now).rows =
      (if result.tookEffect then w.write k.changeId (o.write now) else w).rows := by
  unfold World.commitOutcome
  cases o <;> cases result <;> rfl

theorem step_rows (unique : Table.Unique w.rows) (h : step env w e = some w') :
    (∃ row, Inserts env w e row ∧ w' = { w with rows := w.rows ++ [row] }) ∨
      ∃ g, w'.rows = w.rows.map g ∧ ∀ r ∈ w.rows, Move env w e r (g r) := by
  cases e with
  | stage request generated now =>
    left
    simp only [step] at h
    split at h
    · rename_i row staged
      obtain rfl := Option.some.inj h
      exact ⟨row, ⟨request, generated, now, rfl, staged⟩, rfl⟩
    · simp at h
  | claim call request acknowledged now =>
    right
    simp only [step] at h
    split at h
    · rename_i row free claimed
      obtain rfl := Option.some.inj h
      obtain ⟨c, claims, rfl⟩ := claim_ok claimed
      have moves : ∀ r ∈ w.rows, r.id = (claimedRow request now c).id →
          Move env w (.claim call request acknowledged now) r (claimedRow request now c) := by
        intro r mem here
        obtain rfl : r = c := unique.eq mem (Table.lookup_mem claims.found) here
        exact .claim claims
      obtain ⟨g, rows, all⟩ := write_moves moves
      refine ⟨g, ?_, all⟩
      rw [← rows]
      split <;> rfl
    · simp at h
  | invoke call changeId =>
    right
    simp only [step] at h
    split at h
    · split at h
      · obtain rfl := Option.some.inj h
        exact keep_moves rfl
      · simp at h
    · simp at h
  | answer call answer now =>
    right
    simp only [step] at h
    split at h
    · obtain ⟨o, -, rfl⟩ := Option.map_eq_some_iff.mp h
      exact keep_moves rfl
    · simp at h
  | commit call result now =>
    right
    simp only [step] at h
    split at h
    · rename_i id changeId feature actorId o found
      obtain rfl := Option.some.inj h
      obtain rfl : id = call := Table.lookup_key found
      rw [commitOutcome_rows]
      split
      · rename_i effect
        refine write_moves fun r _ here => ?_
        exact .write (Table.lookup_mem found) here.symm rfl effect
      · exact keep_moves rfl
    · simp at h
  | fallback call tookEffect now =>
    right
    simp only [step] at h
    split at h
    · rename_i id changeId feature actorId v found
      obtain rfl := Option.some.inj h
      obtain rfl : id = call := Table.lookup_key found
      cases tookEffect
      · exact keep_moves rfl
      · refine write_moves fun r _ here => ?_
        exact .fallback (Table.lookup_mem found) here.symm rfl
    · simp at h
  | crash call =>
    right
    simp only [step] at h
    split at h
    · obtain rfl := Option.some.inj h
      exact keep_moves rfl
    · simp at h
  | discard request now =>
    right
    simp only [step] at h
    split at h
    · rename_i row discarded
      obtain rfl := Option.some.inj h
      obtain ⟨c, discards, rfl⟩ := discard_ok discarded
      refine write_moves fun r mem here => ?_
      obtain rfl : r = c := unique.eq mem (Table.lookup_mem discards.found) here
      exact .discard discards
    · simp at h
  | recover organization now =>
    right
    obtain rfl := Option.some.inj h
    refine ⟨fun c => if stale organization now c then recoveredRow now c else c, rfl, ?_⟩
    intro r _
    dsimp only
    split
    · rename_i old
      exact .recover old
    · exact .same _ r
  | observe changeId poll now =>
    right
    simp only [step] at h
    split at h
    · rename_i c found
      split at h
      · rename_i isDue
        obtain rfl := Option.some.inj h
        refine write_moves fun r mem here => ?_
        obtain rfl : r = c := unique.eq mem (Table.lookup_mem found) (by
          rw [key_change, key_change, here]
          exact (Table.lookup_key found).symm)
        exact here ▸ .observe isDue
      · simp at h
    · simp at h

theorem Move.id {r s : PendingChange} (h : Move env w e r s) : s.id = r.id := by
  cases h with
  | write => rename Outcome => o; cases o <;> rfl
  | observe =>
    unfold observedRow
    rw [observeTask_frame]
  | _ => rfl

theorem step_unique (unique : Table.Unique w.rows) (h : step env w e = some w') :
    Table.Unique w'.rows := by
  rcases step_rows unique h with ⟨row, ⟨_, _, _, -, staged⟩, rfl⟩ | ⟨g, rows, moves⟩
  · exact unique.append (stageChange_ok staged).2.2
  · rw [rows]
    exact unique.map fun r mem => (moves r mem).id

/-- Where a row goes. -/
theorem step_forward (unique : Table.Unique w.rows) (h : step env w e = some w')
    {r : PendingChange} (mem : r ∈ w.rows) : ∃ s ∈ w'.rows, Move env w e r s := by
  rcases step_rows unique h with ⟨row, -, rfl⟩ | ⟨g, rows, moves⟩
  · exact ⟨r, List.mem_append_left _ mem, .same e r⟩
  · exact ⟨g r, rows ▸ List.mem_map_of_mem mem, moves r mem⟩

/-- Where a row comes from. -/
theorem step_backward (unique : Table.Unique w.rows) (h : step env w e = some w')
    {s : PendingChange} (mem : s ∈ w'.rows) :
    Inserts env w e s ∨ ∃ r ∈ w.rows, Move env w e r s := by
  rcases step_rows unique h with ⟨row, inserts, rfl⟩ | ⟨g, rows, moves⟩
  · rcases List.mem_append.mp mem with old | new
    · exact .inr ⟨s, old, .same e s⟩
    · obtain rfl := List.mem_singleton.mp new
      exact .inl inserts
  · rw [rows] at mem
    obtain ⟨r, old, rfl⟩ := List.mem_map.mp mem
    exact .inr ⟨r, old, moves r old⟩

/-! ### Columns that no step changes -/

/-- Two rows of one change: the columns that say what it writes, and for whom. -/
structure SameTarget (r s : PendingChange) : Prop where
  id : s.id = r.id
  organizationId : s.organizationId = r.organizationId
  controllerId : s.controllerId = r.controllerId
  siteId : s.siteId = r.siteId
  feature : s.feature = r.feature
  operation : s.operation = r.operation
  targetId : s.targetId = r.targetId
  payload : s.payload = r.payload
  createdBy : s.createdBy = r.createdBy

theorem Move.target {r s : PendingChange} (h : Move env w e r s) : SameTarget r s := by
  cases h with
  | write => rename Outcome => o; cases o <;> exact ⟨rfl, rfl, rfl, rfl, rfl, rfl, rfl, rfl, rfl⟩
  | observe =>
    unfold observedRow
    rw [observeTask_frame]
    exact ⟨rfl, rfl, rfl, rfl, rfl, rfl, rfl, rfl, rfl⟩
  | _ => exact ⟨rfl, rfl, rfl, rfl, rfl, rfl, rfl, rfl, rfl⟩

/-- No step returns a row to `pending`. -/
theorem Move.pending {r s : PendingChange} (h : Move env w e r s) (status : s.status = .pending) :
    r.status = .pending := by
  cases h with
  | same => exact status
  | claim => simp [claimedRow] at status
  | write =>
    rename Outcome => o
    cases o with
    | accepted v => simp [Outcome.write] at status
    | rejected unknown reason receipt => cases unknown <;> simp [Outcome.write] at status
  | fallback => simp [Accepted.recover, Outcome.write] at status
  | discard => simp [discardedRow] at status
  | recover => simp [recoveredRow] at status
  | observe =>
    unfold observedRow at status
    rw [observeTask_frame] at status
    exact status

/-! ### Calls -/

/-- The call that takes the step, if it is a step of a call that holds a claim. -/
def Event.call : Event → Option Nat
  | .invoke call _ | .answer call _ _ | .commit call _ _ | .fallback call _ _ | .crash call =>
    some call
  | _ => none

/-- What the step `e` may do to a call that it does not end. -/
inductive CallMove (env : Env) : Event → Call → Call → Prop
  | same {e : Event} {k : Call} : e.call ≠ some k.id → CallMove env e k k
  | invoke {k : Call} : k.phase = .claimed →
      CallMove env (.invoke k.id k.changeId) k (k.to .executing)
  | answer {k : Call} {answer : Answer} {o : Outcome} {now : Time} : k.phase = .executing →
      answerOutcome env.print k.feature answer now = some o →
      CallMove env (.answer k.id answer now) k (k.to (.answered o))
  | commit {k : Call} {v : Accepted} {result : CommitResult} {now : Time} :
      k.phase = .answered (.accepted v) →
      CallMove env (.commit k.id result now) k (k.to (.unrecorded v))

/-- The calls after a step come from those before it; none is added. -/
structure Shrinks (env : Env) (w : World) (e : Event) (w' : World) : Prop where
  ids : (w'.calls.map Call.id).Sublist (w.calls.map Call.id)
  changes : (w'.calls.map Call.changeId).Sublist (w.calls.map Call.changeId)
  moves : ∀ l ∈ w'.calls, ∃ k ∈ w.calls, CallMove env e k l

/-- The step is an acknowledged claim, which adds a call. -/
def AddsCall (env : Env) (w : World) (e : Event) (w' : World) : Prop :=
  ∃ call request now c, e = .claim call request true now ∧ Claims env w.rows request c ∧
    (∀ k ∈ w.calls, k.id ≠ call) ∧
    w'.calls = w.calls ++ [⟨call, c.id, c.feature, request.actorId, .claimed⟩] ∧
    claimedRow request now c ∈ w'.rows

theorem shrinks_same (calls : w'.calls = w.calls) (foreign : e.call = none) :
    Shrinks env w e w' := by
  refine ⟨by rw [calls], by rw [calls], ?_⟩
  intro k mem
  rw [calls] at mem
  exact ⟨k, mem, .same (by simp [foreign])⟩

theorem shrinks_endCall {call : Nat} (calls : w'.calls = Table.remove w.calls call)
    (own : e.call = some call) : Shrinks env w e w' := by
  have sub : w'.calls.Sublist w.calls := calls ▸ List.filter_sublist
  refine ⟨sub.map _, sub.map _, ?_⟩
  intro k mem
  rw [calls, Table.mem_remove] at mem
  exact ⟨k, mem.1, .same (by rw [own]; exact fun same => mem.2 (Option.some.inj same).symm)⟩

theorem shrinks_setPhase {call : Nat} {phase : Phase}
    (calls : w'.calls = Table.update w.calls call (Call.to phase)) (own : e.call = some call)
    (moves : ∀ k ∈ w.calls, k.id = call → CallMove env e k (k.to phase)) : Shrinks env w e w' := by
  have project {β : Type} (f : Call → β) (keeps : ∀ k : Call, f (k.to phase) = f k) :
      w'.calls.map f = w.calls.map f := by
    rw [calls, Table.update, List.map_map]
    refine List.map_congr_left fun k _ => ?_
    rw [Function.comp_apply]
    split
    · exact keeps k
    · rfl
  refine ⟨by rw [project Call.id fun _ => rfl], by rw [project Call.changeId fun _ => rfl], ?_⟩
  intro l mem
  rw [calls, Table.mem_update] at mem
  obtain ⟨k, old, rfl⟩ := mem
  refine ⟨k, old, ?_⟩
  split
  · rename_i here
    exact moves k old here
  · rename_i other
    exact .same (by rw [own]; exact fun same => other (Option.some.inj same).symm)

theorem step_calls (calls : Table.Unique w.calls) (h : step env w e = some w') :
    AddsCall env w e w' ∨ Shrinks env w e w' := by
  -- the call that a lookup found is the only one with its identifier
  have only {k l : Call} {id : Nat} (found : Table.lookup w.calls id = some k) (mem : l ∈ w.calls)
      (here : l.id = id) : l = k :=
    calls.eq mem (Table.lookup_mem found) (here.trans (Table.lookup_key found).symm)
  cases e with
  | stage request generated now =>
    simp only [step] at h
    split at h
    · obtain rfl := Option.some.inj h
      exact .inr (shrinks_same rfl rfl)
    · simp at h
  | claim call request acknowledged now =>
    simp only [step] at h
    split at h
    · rename_i row free claimed
      obtain rfl := Option.some.inj h
      obtain ⟨c, claims, rfl⟩ := claim_ok claimed
      cases acknowledged
      · exact .inr (shrinks_same rfl rfl)
      · refine .inl ⟨call, request, now, c, rfl, claims, Table.lookup_none.mp free, rfl, ?_⟩
        exact Table.mem_update.mpr ⟨c, Table.lookup_mem claims.found, by simp [claimedRow]⟩
    · simp at h
  | invoke call changeId =>
    right
    simp only [step] at h
    split at h
    · rename_i id target feature actorId found
      split at h
      · rename_i here
        obtain rfl := Option.some.inj h
        refine shrinks_setPhase rfl rfl fun k mem own => ?_
        obtain rfl := only found mem own
        subst here own
        exact .invoke rfl
      · simp at h
    · simp at h
  | answer call answer now =>
    right
    simp only [step] at h
    split at h
    · rename_i id target feature actorId found
      obtain ⟨o, writes, rfl⟩ := Option.map_eq_some_iff.mp h
      refine shrinks_setPhase rfl rfl fun k mem own => ?_
      obtain rfl := only found mem own
      subst own
      exact .answer rfl writes
    · simp at h
  | commit call result now =>
    right
    simp only [step] at h
    split at h
    · rename_i id changeId feature actorId o found
      obtain rfl := Option.some.inj h
      obtain rfl : id = call := Table.lookup_key found
      have unrecorded (v : Accepted) (own : o = .accepted v) : ∀ k ∈ w.calls, k.id = id →
          CallMove env (.commit id result now) k (k.to (.unrecorded v)) := by
        intro k mem here
        obtain rfl := only found mem here
        subst own
        exact .commit (k := ⟨id, changeId, feature, actorId, .answered (.accepted v)⟩) rfl
      cases o with
      | rejected unknown reason receipt =>
        refine shrinks_endCall ?_ rfl
        cases result <;> rfl
      | accepted v =>
        cases result
        · exact shrinks_endCall rfl rfl
        · exact shrinks_setPhase rfl rfl (unrecorded v rfl)
        · exact shrinks_setPhase rfl rfl (unrecorded v rfl)
    · simp at h
  | fallback call tookEffect now =>
    right
    simp only [step] at h
    split at h
    · obtain rfl := Option.some.inj h
      refine shrinks_endCall ?_ rfl
      cases tookEffect <;> rfl
    · simp at h
  | crash call =>
    right
    simp only [step] at h
    split at h
    · obtain rfl := Option.some.inj h
      exact shrinks_endCall rfl rfl
    · simp at h
  | discard request now =>
    simp only [step] at h
    split at h
    · obtain rfl := Option.some.inj h
      exact .inr (shrinks_same rfl rfl)
    · simp at h
  | recover organization now =>
    obtain rfl := Option.some.inj h
    exact .inr (shrinks_same rfl rfl)
  | observe changeId poll now =>
    simp only [step] at h
    split at h
    · split at h
      · obtain rfl := Option.some.inj h
        exact .inr (shrinks_same rfl rfl)
      · simp at h
    · simp at h

end Steps

end FreeSdn.Staging
