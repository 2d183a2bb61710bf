import FreeSdn.Staging.Dispatch

/-! Conflicting Proxmox changes exclude each other: the guards of the claim keep apart the active
rows of a controller, and of a guest, in every run whose outcome writes find their row active. -/

namespace FreeSdn.Staging

open FreeSdn.Lib FreeSdn.Proxmox

variable {env : Env} {w w' : World} {e : Event}

/-! ### Tracked tasks -/

/-- The task columns of a change: the task names its own node, and a scheduled poll has a task. -/
def TaskOk (task : Option ProviderTask) (nextPollAt : Option Time) : Prop :=
  (∀ t ∈ task, Identified t) ∧ (nextPollAt ≠ none → task ≠ none)

def Accepted.identity (v : Accepted) : Option String × Option String :=
  (v.providerTask.bind (·.id), v.providerTask.bind (·.node))

/-- The task columns that a call has still to write, against the row it will write them to. -/
def PhaseOk (phase : Phase) (r : PendingChange) : Prop :=
  match phase with
  | .answered (.accepted v) => r.status ≠ .applied ∧ TaskOk v.providerTask v.nextPollAt
  | .unrecorded v => TaskOk v.providerTask v.nextPollAt ∧
      (r.status = .applied → taskIdentity r = v.identity)
  | _ => r.status ≠ .applied

structure Tracked (w : World) : Prop where
  rows : ∀ r ∈ w.rows, TaskOk r.providerTask r.nextPollAt
  calls : ∀ k ∈ w.calls, ∀ r ∈ w.rows, r.id = k.changeId → PhaseOk k.phase r

theorem taskOk_none : TaskOk none none := ⟨by simp, by simp⟩

/-- What `apply_change` is about to record is tracked. -/
theorem answerOutcome_taskOk {print : Printing} {feature : String} {answer : Answer} {now : Time}
    {v : Accepted} (h : answerOutcome print feature answer now = some (.accepted v)) :
    TaskOk v.providerTask v.nextPollAt := by
  unfold answerOutcome at h
  split at h
  · unfold raisedOutcome failedWith at h
    split at h
    · simp at h
    · split at h <;> simp at h
  · have h := Option.some.inj h
    unfold returnedOutcome at h
    split at h
    · simp [failedWith] at h
    · dsimp only at h
      split at h
      · rename_i task accepted
        obtain rfl := Outcome.accepted.inj h
        refine ⟨?_, ?_⟩
        · intro t known
          have some_task : task = some t := known
          exact acceptedTask_identified _ _ _ t (some_task ▸ accepted)
        · intro scheduled none
          simp [show task = Option.none from none] at scheduled
      · simp at h

theorem observedRow_taskOk {poll : Poll} {now : Time} {r : PendingChange}
    (ok : TaskOk r.providerTask r.nextPollAt) :
    TaskOk (observedRow env poll now r).providerTask (observedRow env poll now r).nextPollAt := by
  refine ⟨?_, observeTask_scheduled⟩
  intro t known
  have identity := observeTask_identity env.sha256 poll now ok.1
  have found : (observeTask env.sha256 r poll now).providerTask = some t := known
  rw [taskIdentity, found] at identity
  obtain ⟨id, node⟩ := Prod.mk.inj identity
  simp only [Option.bind_some] at id node
  cases before : r.providerTask with
  | none =>
    rw [before] at id node
    exact ⟨by rw [id, node]; rfl, by rw [id, node]; rfl⟩
  | some old =>
    rw [before] at id node
    obtain ⟨named, shape⟩ := ok.1 old before
    exact ⟨by rw [id, node]; exact named, by rw [id, node]; exact shape⟩

theorem discardedRow_taskOk {request : DiscardRequest} {now : Time} {r : PendingChange}
    (ok : TaskOk r.providerTask r.nextPollAt) :
    TaskOk (discardedRow request now r).providerTask (discardedRow request now r).nextPollAt := by
  refine ⟨?_, fun h => absurd rfl h⟩
  intro t known
  simp only [discardedRow] at known
  split at known
  · obtain ⟨old, found, rfl⟩ := Option.map_eq_some_iff.mp known
    exact ok.1 old found
  · exact ok.1 t known

theorem PhaseOk.answered {o : Outcome} {v : Accepted} {r : PendingChange}
    (ok : PhaseOk (.answered o) r) (accepted : o = .accepted v) :
    r.status ≠ .applied ∧ TaskOk v.providerTask v.nextPollAt := by
  subst accepted
  exact ok

theorem PhaseOk.not_applied {phase : Phase} {r : PendingChange} (ok : PhaseOk phase r)
    (earlier : ∀ v, phase ≠ .unrecorded v) : r.status ≠ .applied := by
  unfold PhaseOk at ok
  split at ok
  · exact ok.1
  · exact absurd rfl (earlier _)
  · exact ok

/-- A row that is not applied fits every phase that the values of the call fit. -/
theorem phaseOk_of_status {phase : Phase} {r s : PendingChange} (ok : PhaseOk phase r)
    (status : s.status ≠ .applied) : PhaseOk phase s := by
  unfold PhaseOk at ok ⊢
  split at ok
  · exact ⟨status, ok.2⟩
  · exact ⟨ok.1, fun applied => absurd applied status⟩
  · exact status

theorem Tracked.rows_step (t : Tracked w) (c : Consistent w) (h : step env w e = some w') :
    ∀ s ∈ w'.rows, TaskOk s.providerTask s.nextPollAt := by
  intro s mem
  rcases step_backward c.rows h mem with ⟨request, generated, now, rfl, staged⟩ | ⟨r, old, move⟩
  · rw [(stageChange_ok staged).1]
    exact taskOk_none
  · have ok := t.rows r old
    cases move with
    | same | claim | recover => exact ok
    | @write k o _ _ _ held target phase =>
      have own := t.calls k held r old target.symm
      rw [phase] at own
      cases o with
      | accepted v => exact (own.answered rfl).2
      | rejected => exact ok
    | @fallback k v _ _ held target phase =>
      have own := t.calls k held r old target.symm
      rw [phase] at own
      exact own.1
    | discard => exact discardedRow_taskOk ok
    | observe => exact observedRow_taskOk ok

theorem Tracked.step (t : Tracked w) (c : Consistent w) (h : step env w e = some w') :
    Tracked w' := by
  refine ⟨t.rows_step c h, ?_⟩
  intro l mem s hs own
  rcases step_calls c.calls h with ⟨call, request, now, r, rfl, claims, fresh, calls, claimed⟩ | less
  · rw [calls] at mem
    rcases List.mem_append.mp mem with old | new
    · obtain ⟨q, hq, id, move⟩ := c.origin h old hs own
      have ok := t.calls l old q hq id
      cases move with
      | same => exact ok
      | claim => exact phaseOk_of_status ok (by simp [claimedRow])
    · obtain rfl := List.mem_singleton.mp new
      obtain rfl := (c.step h).row hs claimed own
      show (claimedRow request now r).status ≠ .applied
      simp [claimedRow]
  · obtain ⟨k, old, callMove⟩ := less.moves l mem
    rw [callMove.changeId] at own
    obtain ⟨r, hr, id, move⟩ := c.origin h old hs own
    have ok := t.calls k old r hr id
    cases move with
    | same =>
      cases callMove with
      | same => exact ok
      | invoke phase => exact ok.not_applied (by simp [phase])
      | @answer _ answer o now phase outcome =>
        have status := ok.not_applied (by simp [phase])
        cases o with
        | accepted v => exact ⟨status, answerOutcome_taskOk outcome⟩
        | rejected => exact status
      | @commit _ v _ _ phase =>
        rw [phase] at ok
        have pending := ok.answered rfl
        exact ⟨pending.2, fun applied => absurd applied pending.1⟩
    | claim => exact (c.unheld hr ‹Claims env w.rows _ r›.pending k old id.symm).elim
    | @write j o _ _ _ held target phase =>
      -- the call wrote its own values and goes on to the fallback with them
      obtain rfl := c.holder held old (target.trans id)
      obtain ⟨v, accepted, rfl⟩ := callMove.of_commit
      rw [phase] at ok accepted
      obtain rfl := Phase.answered.inj accepted
      exact ⟨(ok.answered rfl).2, fun _ => rfl⟩
    | fallback held target phase =>
      obtain rfl := c.holder held old (target.trans id)
      exact callMove.not_fallback.elim
    | discard =>
      cases callMove with
      | same => exact phaseOk_of_status ok (by simp [discardedRow])
    | recover =>
      cases callMove with
      | same => exact phaseOk_of_status ok (by simp [recoveredRow])
    | observe isDue =>
      cases callMove with
      | same =>
        have applied : r.status = .applied := by simp_all [due]
        cases phase : l.phase with
        | unrecorded v =>
          rw [phase] at ok
          refine ⟨ok.1, fun _ => ?_⟩
          exact (observeTask_identity env.sha256 _ _ (t.rows r hr).1).trans (ok.2 applied)
        | claimed | executing | answered =>
          exact absurd applied (ok.not_applied (by simp [phase]))

/-! ### Calm moves -/

/-- The call whose outcome the step writes to its row. -/
def Event.writes : Event → Option Nat
  | .commit call result _ => if result.tookEffect then some call else none
  | .fallback call tookEffect _ => if tookEffect then some call else none
  | _ => none

/-- Every write of an outcome, by the commit or by the fallback, finds its row still active. -/
def Attentive (w : World) (e : Event) : Prop :=
  ∀ k ∈ w.calls, e.writes = some k.id → ∀ r ∈ w.rows, r.id = k.changeId → active r = true

instance (w : World) (e : Event) : Decidable (Attentive w e) :=
  inferInstanceAs (Decidable (∀ k ∈ w.calls, _ → ∀ r ∈ w.rows, _ → _))

/-- One change at two times: it writes the same, and if it was applied it still is, with the same
task. -/
structure Calm (r s : PendingChange) : Prop extends SameTarget r s where
  applied : r.status = .applied → s.status = .applied ∧ taskIdentity s = taskIdentity r

theorem active_observed {r : PendingChange} {poll : Poll} {now : Time}
    (ok : TaskOk r.providerTask r.nextPollAt) (isDue : due now r)
    (act : active (observedRow env poll now r)) : active r := by
  simp only [due, Bool.and_eq_true, beq_iff_eq] at isDue
  obtain ⟨⟨applied, -⟩, scheduled⟩ := isDue
  obtain ⟨task, known⟩ : ∃ task, r.providerTask = some task := by
    refine Option.ne_none_iff_exists'.mp (ok.2 ?_)
    intro none
    simp [none] at scheduled
  cases ended : task.status.terminal with
  | false => simp [active, applied, openTask, known, ended]
  | true =>
    have unchanged : observedRow env poll now r = { r with nextPollAt := none, updatedAt := now } := by
      rw [observedRow, observeTask_terminal known ended]
    rw [unchanged] at act
    simp [active, applied, openTask, known, ended] at act

/-- A step that leaves a row active either claims it or finds it active, as the same change. -/
theorem Tracked.calm (t : Tracked w) (attentive : Attentive w e) {r s : PendingChange}
    (mem : r ∈ w.rows) (move : Move env w e r s) (act : active s) :
    (∃ call request acknowledged now, e = .claim call request acknowledged now ∧
      Claims env w.rows request r ∧ s = claimedRow request now r) ∨ active r ∧ Calm r s := by
  have target := move.target
  cases move with
  | same => exact .inr ⟨act, target, fun applied => ⟨applied, rfl⟩⟩
  | claim claims => exact .inl ⟨_, _, _, _, rfl, claims, rfl⟩
  | @write k o result now _ held own phase effect =>
    have status := t.calls k held r mem own.symm
    have live := attentive k held (by simp [Event.writes, effect]) r mem own.symm
    exact .inr ⟨live, target, fun applied => absurd applied (status.not_applied (by simp [phase]))⟩
  | @fallback k v now _ held own phase =>
    have values := t.calls k held r mem own.symm
    rw [phase] at values
    have live := attentive k held rfl r mem own.symm
    exact .inr ⟨live, target, fun applied => ⟨rfl, (values.2 applied).symm⟩⟩
  | discard => simp [active, discardedRow] at act
  | recover old =>
    have applying : r.status = .applying := by simp_all [stale]
    exact .inr ⟨by simp [active, applying], target, fun applied => by simp [applying] at applied⟩
  | observe isDue =>
    refine .inr ⟨active_observed (t.rows r mem) isDue act, target, fun applied => ⟨?_, ?_⟩⟩
    · rw [observedRow_status, applied]
    · exact observeTask_identity _ _ _ (t.rows r mem).1

/-- Rows that are inserted are not active. -/
theorem inserted_inactive {row : PendingChange} (h : Inserts env w e row) : active row = false := by
  obtain ⟨request, generated, now, -, staged⟩ := h
  rw [(stageChange_ok staged).1]
  rfl

/-! ### Laws of active rows -/

/-- A law of any two active rows holds after a step when calm moves keep it and a claim
establishes it. -/
theorem active_pairs_step {Q : PendingChange → PendingChange → Prop} (c : Consistent w)
    (t : Tracked w) (attentive : Attentive w e) (h : step env w e = some w')
    (symm : ∀ r s, Q r s → Q s r) (calm : ∀ r r' s s', Calm r r' → Calm s s' → Q r s → Q r' s')
    (claims : ∀ call request acknowledged now r s, e = .claim call request acknowledged now →
      Claims env w.rows request r → s ∈ w.rows → s.id ≠ r.id → active s →
      Q (claimedRow request now r) s)
    (law : ∀ r ∈ w.rows, ∀ s ∈ w.rows, r.id ≠ s.id → active r → active s → Q r s) :
    ∀ r ∈ w'.rows, ∀ s ∈ w'.rows, r.id ≠ s.id → active r → active s → Q r s := by
  -- a row that was not just claimed has an active origin
  have origin : ∀ r' ∈ w'.rows, active r' → ∃ r ∈ w.rows, Move env w e r r' := by
    intro r' mem act
    rcases step_backward c.rows h mem with inserted | found
    · simp [inserted_inactive inserted] at act
    · exact found
  intro r' hr s' hs apart actR actS
  obtain ⟨r, memR, moveR⟩ := origin r' hr actR
  obtain ⟨s, memS, moveS⟩ := origin s' hs actS
  rw [moveR.id, moveS.id] at apart
  -- the other row of a claim step does not move
  have still {call request acknowledged now} {q q' p : PendingChange}
      (own : e = .claim call request acknowledged now) (claimed : Claims env w.rows request p)
      (memQ : q ∈ w.rows) (other : q.id ≠ p.id) (move : Move env w e q q') : q' = q := by
    subst own
    cases move with
    | same => rfl
    | claim again =>
      have same := again.found.symm.trans claimed.found
      exact absurd (congrArg PendingChange.id (Option.some.inj same)) other
  rcases t.calm attentive memR moveR actR with
      ⟨call, request, acknowledged, now, own, claimed, rfl⟩ | ⟨liveR, calmR⟩
  · obtain rfl := still own claimed memS apart.symm moveS
    exact claims _ _ _ _ r _ own claimed memS apart.symm actS
  · rcases t.calm attentive memS moveS actS with
        ⟨call, request, acknowledged, now, own, claimed, rfl⟩ | ⟨liveS, calmS⟩
    · obtain rfl := still own claimed memR apart moveR
      exact symm _ _ (claims _ _ _ _ s _ own claimed memR apart actR)
    · exact calm r r' s s' calmR calmS (law r memR s memS apart liveR liveS)

/-! ### Disruptive operations -/

/-- `t` is a task-stop and `r` the applied row of the worker that it names. -/
def Stops (env : Env) (t r : PendingChange) : Prop :=
  t.feature = TaskStop.feature ∧
    ∃ plan, TaskStop.validatedPlan env.sha256 t = some plan ∧ originalWorker plan r

/-- Neither of the two is disruptive, or one stops the worker of the other. -/
def Compatible (env : Env) (r s : PendingChange) : Prop :=
  isDisruptive r = false ∧ isDisruptive s = false ∨ Stops env r s ∨ Stops env s r

/-- Any two active Proxmox rows of one organization and controller are compatible. -/
def Exclusive (env : Env) (w : World) : Prop :=
  ∀ r ∈ w.rows, ∀ s ∈ w.rows, r.id ≠ s.id → active r → active s →
    isProxmox r → isProxmox s → r.organizationId = s.organizationId →
    r.controllerId = s.controllerId → Compatible env r s

theorem Compatible.symm {r s : PendingChange} (h : Compatible env r s) : Compatible env s r := by
  rcases h with ⟨hr, hs⟩ | stops | stops
  · exact .inl ⟨hs, hr⟩
  · exact .inr (.inr stops)
  · exact .inr (.inl stops)

theorem SameTarget.proxmox {r s : PendingChange} (h : SameTarget r s) : isProxmox s = isProxmox r := by
  simp [isProxmox, h.feature]

theorem SameTarget.disruptive {r s : PendingChange} (h : SameTarget r s) :
    isDisruptive s = isDisruptive r := by
  simp [isDisruptive, h.feature]

theorem SameTarget.stopPlan {sha256 : String → String} {r s : PendingChange} (h : SameTarget r s) :
    TaskStop.validatedPlan sha256 s = TaskStop.validatedPlan sha256 r := by
  unfold TaskStop.validatedPlan isReviewedTaskStop isReviewed
  rw [h.feature, h.payload, h.operation, h.targetId]

theorem Calm.worker {plan : TaskStop.Plan} {r s : PendingChange} (h : Calm r s)
    (worker : originalWorker plan r) : originalWorker plan s := by
  simp only [originalWorker, Bool.and_eq_true, beq_iff_eq, bne_iff_ne] at worker ⊢
  obtain ⟨⟨⟨applied, other⟩, id⟩, node⟩ := worker
  obtain ⟨still, same⟩ := h.applied applied
  obtain ⟨sameId, sameNode⟩ := Prod.mk.inj same
  exact ⟨⟨⟨still, h.feature ▸ other⟩, sameId.trans id⟩, sameNode.trans node⟩

theorem Stops.calm {t t' r r' : PendingChange} (ht : Calm t t') (hr : Calm r r')
    (h : Stops env t r) : Stops env t' r' := by
  obtain ⟨feature, plan, known, worker⟩ := h
  exact ⟨ht.feature.trans feature, plan, ht.stopPlan.trans known, hr.worker worker⟩

theorem Compatible.calm {r r' s s' : PendingChange} (hr : Calm r r') (hs : Calm s s')
    (h : Compatible env r s) : Compatible env r' s' := by
  rcases h with ⟨plainR, plainS⟩ | stops | stops
  · exact .inl ⟨hr.disruptive.trans plainR, hs.disruptive.trans plainS⟩
  · exact .inr (.inl (stops.calm hr hs))
  · exact .inr (.inr (stops.calm hs hr))

/-- What the cluster guard establishes for the row it lets through. -/
theorem guardClusterConflicts_ok {rows : List PendingChange} {c s : PendingChange}
    (h : guardClusterConflicts env rows c = .ok ()) (proxmox : isProxmox c)
    (bound : c.controllerId ≠ none) (mem : s ∈ rows) (apart : s.id ≠ c.id) (act : active s)
    (other : isProxmox s) (organization : c.organizationId = s.organizationId)
    (controller : c.controllerId = s.controllerId) : Compatible env c s := by
  obtain ⟨ctrl, hc⟩ := Option.ne_none_iff_exists'.mp bound
  unfold guardClusterConflicts at h
  rw [proxmox, hc] at h
  simp only [Bool.not_true, Option.isNone_some, Bool.or_self, Bool.false_eq_true, if_false] at h
  obtain ⟨plan, planned, passed⟩ := bind_ok h
  have clear := refuseIf_ok passed
  have free : clusterConflict plan c s = false := by
    simpa using List.any_eq_false.mp clear s mem
  by_cases disruptive : isDisruptive c = false ∧ isDisruptive s = false
  · exact .inl disruptive
  · have either : (isDisruptive c || isDisruptive s) = true := by
      cases hd : isDisruptive c <;> cases hs : isDisruptive s <;> simp_all
    have worker : (plan.any fun p => originalWorker p s) = true := by
      simpa [clusterConflict, organization, controller, apart, act, other, either] using free
    obtain ⟨p, rfl, isWorker⟩ : ∃ p, plan = some p ∧ originalWorker p s := by
      cases plan with
      | none => simp at worker
      | some p => exact ⟨p, rfl, by simpa using worker⟩
    right; left
    unfold stopPlan at planned
    split at planned
    · rename_i stop
      refine ⟨stop, p, ?_, isWorker⟩
      unfold taskStopPlan at planned
      split at planned
      · rename_i found
        obtain rfl : _ = p := by simpa [Except.map] using planned
        exact found
      · simp [Except.map] at planned
    · simp at planned

theorem overlay_not_proxmox {feature : String} (overlay : startsWith feature "overlay.") :
    startsWith feature "proxmox." = false := by
  by_contra proxmox
  simp only [startsWith, Bool.not_eq_false, List.isPrefixOf_iff_prefix] at overlay proxmox
  obtain ⟨rest, first⟩ := overlay
  obtain ⟨other, second⟩ := proxmox
  rw [← first] at second
  simp at second

/-- Every Proxmox row is bound to a controller. -/
def Bound (w : World) : Prop := ∀ r ∈ w.rows, isProxmox r → r.controllerId ≠ none

theorem Bound.step (b : Bound w) (c : Consistent w) (h : step env w e = some w') : Bound w' := by
  intro s mem proxmox
  rcases step_backward c.rows h mem with ⟨request, generated, now, -, staged⟩ | ⟨r, old, move⟩
  · obtain ⟨rfl, checks, -⟩ := stageChange_ok staged
    unfold stageChecks at checks
    obtain ⟨_, -, checks⟩ := bind_ok checks
    obtain ⟨_, controlled, -⟩ := bind_ok checks
    have passed := refuseIf_ok controlled
    intro unbound
    have overlay : startsWith request.feature "overlay." := by
      have missing : request.controllerId = none := unbound
      simpa [missing] using passed
    have proxmox : startsWith request.feature "proxmox." := proxmox
    rw [overlay_not_proxmox overlay] at proxmox
    simp at proxmox
  · rw [move.target.controllerId]
    exact b r old (move.target.proxmox ▸ proxmox)

/-- What every run with attentive outcome writes keeps. -/
structure Guarded (w : World) : Prop where
  consistent : Consistent w
  tracked : Tracked w
  bound : Bound w

theorem guarded_empty : Guarded World.empty := by
  refine ⟨consistent_idle Table.unique_nil rfl, ⟨?_, ?_⟩, ?_⟩
  · intro r mem
    simp [World.empty] at mem
  · intro k mem
    simp [World.empty] at mem
  · intro r mem
    simp [World.empty] at mem

theorem Guarded.step (g : Guarded w) (h : step env w e = some w') : Guarded w' :=
  ⟨g.consistent.step h, g.tracked.step g.consistent h, g.bound.step g.consistent h⟩

theorem Exclusive.step (x : Exclusive env w) (g : Guarded w) (attentive : Attentive w e)
    (h : step env w e = some w') : Exclusive env w' := by
  refine active_pairs_step
    (Q := fun r s => isProxmox r → isProxmox s → r.organizationId = s.organizationId →
      r.controllerId = s.controllerId → Compatible env r s)
    g.consistent g.tracked attentive h ?_ ?_ ?_ x
  · intro r s law ps pr organization controller
    exact (law pr ps organization.symm controller.symm).symm
  · intro r r' s s' hr hs law pr ps organization controller
    rw [hr.proxmox] at pr
    rw [hs.proxmox] at ps
    rw [hr.organizationId, hs.organizationId] at organization
    rw [hr.controllerId, hs.controllerId] at controller
    exact (law pr ps organization controller).calm hr hs
  · intro call request acknowledged now r s _ claimed mem apart act pr ps organization controller
    have bound := g.bound r (Table.lookup_mem claimed.found) pr
    exact guardClusterConflicts_ok claimed.cluster pr bound mem apart act ps organization controller

/-- In every run whose outcome writes find their row active, two active Proxmox rows of one
organization and controller are both non-disruptive, unless one is a task-stop and the other the
applied row of the worker that it names. -/
theorem disruptive_operations_exclusive (env : Env) {es : List Event} {w : World}
    (run : Runs (step env) Attentive World.empty es w) : Exclusive env w := by
  have law : Guarded w ∧ Exclusive env w := by
    refine run.invariant (P := fun w => Guarded w ∧ Exclusive env w) ⟨guarded_empty, ?_⟩ ?_
    · intro r mem
      simp [World.empty] at mem
    · rintro t e u attentive next ⟨g, x⟩
      exact ⟨g.step next, x.step g attentive next⟩
  exact law.2

/-- Two guests started one after the other, the second while the task of the first is open. -/
def twoStarts : List Event :=
  completedApply ++ [.stage (startRequest 8) 0 4, .claim 1 (applyRequest 8) true 5]

theorem twoStarts_exclusive :
    ∃ w, Runs (step plainEnv) Attentive World.empty twoStarts w ∧
      (∃ r ∈ w.rows, ∃ s ∈ w.rows, r.id ≠ s.id ∧ active r ∧ active s) ∧ Exclusive plainEnv w := by
  have run : Runs (step plainEnv) Attentive World.empty twoStarts _ := Runs.to_after (by decide)
  exact ⟨_, run, by decide, disruptive_operations_exclusive plainEnv run⟩

/-- A running backup worker. -/
def workerUpid : String := "UPID:pve:00001235:00005679:68A0B0C1:vzdump::root@pam:"

/-- `plainEnv` with the digest of the worker's identity. -/
def stopEnv : Env :=
  { plainEnv with
    sha256 := fun upid => if upid = workerUpid then
      "f49e46025028e9aa3a7857f506a39568b78f5ecefaea1e7bd29ceb3cac181961" else "" }

/-- A reviewed request to stop the worker. -/
def stopRequest (id : Uuid) : StageRequest :=
  { organizationId := 1, controllerId := some 2, feature := TaskStop.feature, operation := "create"
    payload :=
      [("expected_digest",
         .str "0000000000000000000000000000000000000000000000000000000000000000"),
       ("node", .str "pve"), ("task_stop_version", .int 1), ("upid", .str workerUpid)]
    siteId := some 3
    targetId := some "f49e46025028e9aa3a7857f506a39568b78f5ecefaea1e7bd29ceb3cac181961"
    actorId := none, changeId := some id, granted := none }

/-- The started guest's task is found finished. -/
def finishedPoll : Poll :=
  { Poll.silent with
    target := some ⟨"proxmox", false, true, true, false, true, 1, 3⟩
    connect := some ()
    taskStatus := some (some
      ⟨"UPID:pve:00001234:00005678:68A0B0C0:qmstart:100:root@pam:", "pve", "stopped", .str "OK"⟩) }

/-- The commit of a started guest takes effect, but the refresh after it fails.  Before the
fallback, a poll sees the task finished and a task-stop of another worker is claimed. -/
def reactivation : List Event :=
  [.stage (startRequest 7) 0 0, .claim 0 (applyRequest 7) true 1, .invoke 0 7,
   .answer 0 startAnswer 2, .commit 0 .unacknowledged 3, .observe 7 finishedPoll 4,
   .stage (stopRequest 8) 0 5, .claim 1 (applyRequest 8) true 6, .fallback 0 true 7]

/-- The fallback makes the finished row active again, beside the disruptive one; no discard is
involved. -/
theorem fallback_breaks_exclusion :
    ∃ w, Runs (step stopEnv) Free World.empty reactivation w ∧
      (∀ e ∈ reactivation, e.forceDiscards = none) ∧ ¬ Exclusive stopEnv w := by
  have run : Runs (step stopEnv) Free World.empty reactivation _ := Runs.to_after (by decide)
  refine ⟨_, run, by decide, ?_⟩
  intro exclusive
  have clash : ∃ r ∈ (after (step stopEnv) Free World.empty reactivation).rows,
      ∃ s ∈ (after (step stopEnv) Free World.empty reactivation).rows,
      (r.id ≠ s.id ∧ active r ∧ active s ∧ isProxmox r ∧ isProxmox s ∧
        r.organizationId = s.organizationId ∧ r.controllerId = s.controllerId) ∧
      isDisruptive r = true ∧ s.feature ≠ TaskStop.feature ∧
      (TaskStop.validatedPlan stopEnv.sha256 r).all (fun p => !originalWorker p s) := by decide
  obtain ⟨r, hr, s, hs, ⟨apart, actR, actS, pr, ps, organization, controller⟩, disruptive, plain,
    unnamed⟩ := clash
  rcases exclusive r hr s hs apart actR actS pr ps organization controller with
    ⟨no, -⟩ | ⟨-, plan, found, worker⟩ | ⟨stop, -⟩
  · simp [disruptive] at no
  · simp [found, worker] at unnamed
  · exact plain stop

/-! ### Operations on one guest -/

/-- The row that the step claims. -/
def Event.claims : Event → Option Uuid
  | .claim _ request _ _ => some request.changeId
  | _ => none

/-- Besides attentive writes: a guest operation is claimed only if its payload names the guest. -/
def NamesGuest (w : World) (e : Event) : Prop :=
  Attentive w e ∧
    ∀ r ∈ w.rows, e.claims = some r.id → isGuestOperation r = true → hasKey r.payload "vmid" = true

instance (w : World) (e : Event) : Decidable (NamesGuest w e) :=
  inferInstanceAs (Decidable (_ ∧ ∀ r ∈ w.rows, _ → _ → _))

/-- No two active guest operations of one organization and controller target the same VMID. -/
def GuestExclusive (w : World) : Prop :=
  ∀ r ∈ w.rows, ∀ s ∈ w.rows, r.id ≠ s.id → active r → active s →
    isGuestOperation r → isGuestOperation s → r.organizationId = s.organizationId →
    r.controllerId = s.controllerId → ∀ vmid, guestVmid r = some vmid → guestVmid s ≠ some vmid

/-- Active guest operations name their guest in the payload. -/
def Named (w : World) : Prop :=
  ∀ r ∈ w.rows, active r → isGuestOperation r → hasKey r.payload "vmid"

theorem SameTarget.guestOperation {r s : PendingChange} (h : SameTarget r s) :
    isGuestOperation s = isGuestOperation r := by
  simp [isGuestOperation, h.feature]

theorem SameTarget.vmid {r s : PendingChange} (h : SameTarget r s) : guestVmid s = guestVmid r := by
  simp [guestVmid, h.payload, h.targetId]

/-- Where the payload has the key, the query's column is the VMID that the guard computes. -/
theorem vmidColumn_of_key {print : Printing} {r : PendingChange} {vmid : String}
    (named : hasKey r.payload "vmid") (h : guestVmid r = some vmid) :
    vmidColumn print r = some vmid := by
  unfold hasKey at named
  unfold guestVmid at h
  unfold vmidColumn
  cases value : get r.payload "vmid" with
  | none => simp [value] at named
  | some v =>
    rw [value] at h
    cases v with
    | str s => exact (Option.filter_eq_some_iff.mp h).1
    | int n => exact (Option.filter_eq_some_iff.mp h).1
    | null | bool | float | arr | obj => simp at h

theorem guest_proxmox {r : PendingChange} (h : isGuestOperation r) : isProxmox r := by
  have prefixed : ∀ f ∈ guestFamily, startsWith f "proxmox." := by decide
  exact prefixed _ (by simpa [isGuestOperation] using h)

/-- What the guest guard establishes for the row it lets through. -/
theorem guardGuestConflicts_ok {rows : List PendingChange} {c s : PendingChange} {vmid : String}
    (h : guardGuestConflicts env rows c = .ok ()) (guest : isGuestOperation c)
    (own : guestVmid c = some vmid) (mem : s ∈ rows) (apart : s.id ≠ c.id) (act : active s)
    (other : isGuestOperation s) (named : hasKey s.payload "vmid")
    (organization : c.organizationId = s.organizationId)
    (controller : c.controllerId = s.controllerId) : guestVmid s ≠ some vmid := by
  intro same
  unfold guardGuestConflicts at h
  rw [guest, own] at h
  simp only [Bool.not_true, Bool.false_eq_true, if_false] at h
  have clear := refuseIf_ok h
  have free : guestConflict env.print vmid c s = false := by
    simpa using List.any_eq_false.mp clear s mem
  simp [guestConflict, organization, controller, apart, guest_proxmox other,
    vmidColumn_of_key named same, act] at free

theorem Named.step (n : Named w) (g : Guarded w) (names : NamesGuest w e)
    (h : step env w e = some w') : Named w' := by
  intro s mem act guest
  rcases step_backward g.consistent.rows h mem with inserted | ⟨r, old, move⟩
  · simp [inserted_inactive inserted] at act
  · have target := move.target
    rw [target.guestOperation] at guest
    rw [target.payload]
    rcases g.tracked.calm names.1 old move act with ⟨call, request, _, now, rfl, claims, -⟩ | ⟨live, -⟩
    · have claimed : request.changeId = r.id := (Table.lookup_key claims.found).symm
      exact names.2 r old (congrArg some claimed) guest
    · exact n r old live guest

theorem GuestExclusive.step (x : GuestExclusive w) (n : Named w) (g : Guarded w)
    (names : NamesGuest w e) (h : step env w e = some w') : GuestExclusive w' := by
  refine active_pairs_step
    (Q := fun r s => isGuestOperation r → isGuestOperation s →
      r.organizationId = s.organizationId → r.controllerId = s.controllerId →
      ∀ vmid, guestVmid r = some vmid → guestVmid s ≠ some vmid)
    g.consistent g.tracked names.1 h ?_ ?_ ?_ x
  · intro r s law gs gr organization controller vmid hs hr
    exact law gr gs organization.symm controller.symm vmid hr hs
  · intro r r' s s' hr hs law gr gs organization controller vmid hv
    rw [hr.guestOperation] at gr
    rw [hs.guestOperation] at gs
    rw [hr.organizationId, hs.organizationId] at organization
    rw [hr.controllerId, hs.controllerId] at controller
    rw [hr.vmid] at hv
    rw [hs.vmid]
    exact law gr gs organization controller vmid hv
  · intro call request acknowledged now r s _ claimed mem apart act gr gs organization controller
      vmid hv
    exact guardGuestConflicts_ok claimed.guest gr hv mem apart act gs (n s mem act gs) organization
      controller

/-- In every run whose outcome writes find their row active and whose guest operations name their
guest in the payload, no two active guest operations of one organization and controller target the
same VMID. -/
theorem guest_operations_exclusive (env : Env) {es : List Event} {w : World}
    (run : Runs (step env) NamesGuest World.empty es w) : GuestExclusive w := by
  have law : Guarded w ∧ Named w ∧ GuestExclusive w := by
    refine run.invariant (P := fun w => Guarded w ∧ Named w ∧ GuestExclusive w)
      ⟨guarded_empty, ?_, ?_⟩ ?_
    · intro r mem
      simp [World.empty] at mem
    · intro r mem
      simp [World.empty] at mem
    · rintro t e u names next ⟨g, n, x⟩
      exact ⟨g.step next, n.step g names next, x.step n g names next⟩
  exact law.2.2

/-- A configuration change of a guest, as the generic staging endpoint takes it. -/
def configRequest (id : Uuid) (target : String) (payload : Dict) : StageRequest :=
  { organizationId := 1, controllerId := some 2, feature := "proxmox.vm.config"
    operation := "update", payload, siteId := some 3, targetId := some target, actorId := none
    changeId := some id, granted := none }

/-- Configuration changes of two guests. -/
def twoConfigs : List Event :=
  [.stage (configRequest 7 "100" [("vmid", .int 100)]) 0 0, .claim 0 (applyRequest 7) true 1,
   .stage (configRequest 8 "101" [("vmid", .int 101)]) 0 2, .claim 1 (applyRequest 8) true 3]

theorem twoConfigs_exclusive :
    ∃ w, Runs (step plainEnv) NamesGuest World.empty twoConfigs w ∧
      (∃ r ∈ w.rows, ∃ s ∈ w.rows, r.id ≠ s.id ∧ active r ∧ active s) ∧ GuestExclusive w := by
  have run : Runs (step plainEnv) NamesGuest World.empty twoConfigs _ := Runs.to_after (by decide)
  exact ⟨_, run, by decide, guest_operations_exclusive plainEnv run⟩

/-- The first change names its guest by the target alone, the second in the payload. -/
def sameGuestConfigs : List Event :=
  [.stage (configRequest 7 "100" []) 0 0, .claim 0 (applyRequest 7) true 1,
   .stage (configRequest 8 "100" [("vmid", .int 100)]) 0 2, .claim 1 (applyRequest 8) true 3]

/-- The query misses the change without a `vmid` key, and both are active on guest 100. -/
theorem target_only_guest_missed :
    ∃ w, Runs (step plainEnv) Free World.empty sameGuestConfigs w ∧
      (∀ e ∈ sameGuestConfigs, e.forceDiscards = none) ∧ ¬ GuestExclusive w := by
  have run : Runs (step plainEnv) Free World.empty sameGuestConfigs _ := Runs.to_after (by decide)
  refine ⟨_, run, by decide, ?_⟩
  intro exclusive
  have clash : ∃ r ∈ (after (step plainEnv) Free World.empty sameGuestConfigs).rows,
      ∃ s ∈ (after (step plainEnv) Free World.empty sameGuestConfigs).rows,
      (r.id ≠ s.id ∧ active r ∧ active s ∧ isGuestOperation r ∧ isGuestOperation s ∧
        r.organizationId = s.organizationId ∧ r.controllerId = s.controllerId) ∧
      guestVmid r = some "100" ∧ guestVmid s = some "100" := by decide
  obtain ⟨r, hr, s, hs, ⟨apart, actR, actS, gr, gs, organization, controller⟩, vr, vs⟩ := clash
  exact exclusive r hr s hs apart actR actS gr gs organization controller "100" vr vs

end FreeSdn.Staging
