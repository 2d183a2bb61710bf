import FreeSdn.Staging.Moves

/-! Two laws of every run: the applier is invoked at most once for a row, and only after the step
that claimed it; and what a commit recorded as the end of a change stays, as long as no forced
discard cuts into a call. -/

namespace FreeSdn.Staging

open FreeSdn.Lib FreeSdn.Proxmox

variable {env : Env} {w w' w₀ : World} {e : Event}

/-! ### Claims are exclusive -/

/-- Identifiers are unique, no two calls hold the same row, and the row that a call holds is not
pending. -/
structure Consistent (w : World) : Prop where
  rows : Table.Unique w.rows
  calls : Table.Unique w.calls
  single : (w.calls.map Call.changeId).Nodup
  owned : ∀ k ∈ w.calls, ∃ r ∈ w.rows, r.id = k.changeId ∧ r.status ≠ .pending

theorem consistent_idle (rows : Table.Unique w.rows) (idle : w.calls = []) : Consistent w := by
  refine ⟨rows, ?_, ?_, ?_⟩
  · rw [idle]
    exact Table.unique_nil
  · simp [idle]
  · simp [idle]

theorem CallMove.changeId {k l : Call} (h : CallMove env e k l) : l.changeId = k.changeId := by
  cases h <;> rfl

theorem Consistent.row (c : Consistent w) {r s : PendingChange} (hr : r ∈ w.rows) (hs : s ∈ w.rows)
    (same : r.id = s.id) : r = s := c.rows.eq hr hs same

/-- The call that holds a row is the only one. -/
theorem Consistent.holder (c : Consistent w) {k l : Call} (hk : k ∈ w.calls) (hl : l ∈ w.calls)
    (same : k.changeId = l.changeId) : k = l :=
  List.inj_on_of_nodup_map c.single hk hl same

/-- A pending row is held by no call. -/
theorem Consistent.unheld (c : Consistent w) {r : PendingChange} (mem : r ∈ w.rows)
    (pending : r.status = .pending) : ∀ k ∈ w.calls, k.changeId ≠ r.id := by
  intro k hk here
  obtain ⟨s, hs, id, status⟩ := c.owned k hk
  obtain rfl : s = r := c.row hs mem (id.trans here)
  exact status pending

/-- The row of a call, before the step, when the call survives it. -/
theorem Consistent.origin (c : Consistent w) (h : step env w e = some w') {k : Call}
    (held : k ∈ w.calls) {s : PendingChange} (mem : s ∈ w'.rows) (own : s.id = k.changeId) :
    ∃ r ∈ w.rows, r.id = k.changeId ∧ Move env w e r s := by
  rcases step_backward c.rows h mem with ⟨_, _, _, -, staged⟩ | ⟨r, old, move⟩
  · obtain ⟨r, hr, id, -⟩ := c.owned k held
    exact absurd (id.trans own.symm) ((stageChange_ok staged).2.2 r hr)
  · exact ⟨r, old, move.id.symm.trans own, move⟩

theorem Consistent.step (c : Consistent w) (h : step env w e = some w') : Consistent w' := by
  -- a row that a call holds stays out of `pending`
  have kept (k : Call) (hk : k ∈ w.calls) :
      ∃ s ∈ w'.rows, s.id = k.changeId ∧ s.status ≠ .pending := by
    obtain ⟨r, mem, id, status⟩ := c.owned k hk
    obtain ⟨s, new, move⟩ := step_forward c.rows h mem
    exact ⟨s, new, move.id.trans id, fun pending => status (move.pending pending)⟩
  have rows := step_unique c.rows h
  rcases step_calls c.calls h with ⟨call, request, now, r, rfl, claims, fresh, calls, claimed⟩ | less
  · refine ⟨rows, ?_, ?_, ?_⟩
    · rw [calls]
      exact c.calls.append fresh
    · rw [calls, List.map_append]
      refine List.nodup_append.mpr ⟨c.single, by simp, ?_⟩
      rintro a old b new rfl
      obtain ⟨k, hk, rfl⟩ := List.mem_map.mp old
      refine c.unheld (Table.lookup_mem claims.found) claims.pending k hk ?_
      simpa using new
    · intro k mem
      rw [calls] at mem
      rcases List.mem_append.mp mem with old | new
      · exact kept k old
      · obtain rfl := List.mem_singleton.mp new
        exact ⟨claimedRow request now r, claimed, rfl, by simp [claimedRow]⟩
  · refine ⟨rows, c.calls.sublist less.ids, c.single.sublist less.changes, ?_⟩
    intro l mem
    obtain ⟨k, old, move⟩ := less.moves l mem
    rw [move.changeId]
    exact kept k old

theorem Consistent.run {ok : World → Event → Prop} {es : List Event} (c : Consistent w₀)
    (run : Runs (Staging.step env) ok w₀ es w) : Consistent w :=
  run.invariant c fun _ _ _ _ next consistent => consistent.step next

/-! ### At most one dispatch -/

def Event.invokes (x : Uuid) : Event → Bool
  | .invoke _ y => y == x
  | _ => false

/-- How often the applier was invoked for the row. -/
def invocations (x : Uuid) (es : List Event) : Nat := es.countP (Event.invokes x)

/-- The invocations of a row against its claim: none before the claim, none while the claim is
unused, at most one at all. -/
structure Spent (x : Uuid) (n : Nat) (w : World) : Prop where
  once : n ≤ 1
  unused : ∀ k ∈ w.calls, k.changeId = x → k.phase = .claimed → n = 0
  unclaimed : ∀ r ∈ w.rows, r.id = x → r.status = .pending → n = 0
  absent : (∀ r ∈ w.rows, r.id ≠ x) → n = 0

theorem step_invoke {call x : Nat} (h : step env w (.invoke call x) = some w') :
    ∃ k ∈ w.calls, k.id = call ∧ k.changeId = x ∧ k.phase = .claimed ∧
      w' = w.setPhase call .executing := by
  simp only [step] at h
  split at h
  · rename_i id target feature actorId found
    split at h
    · rename_i here
      exact ⟨_, Table.lookup_mem found, Table.lookup_key found, here, rfl,
        (Option.some.inj h).symm⟩
    · simp at h
  · simp at h

theorem Spent.quiet {x : Uuid} {n : Nat} (s : Spent x n w) (c : Consistent w)
    (h : step env w e = some w') : Spent x n w' := by
  refine ⟨s.once, ?_, ?_, ?_⟩
  · intro l mem own unused
    rcases step_calls c.calls h with ⟨call, request, now, r, rfl, claims, -, calls, -⟩ | less
    · rw [calls] at mem
      rcases List.mem_append.mp mem with old | new
      · exact s.unused l old own unused
      · obtain rfl := List.mem_singleton.mp new
        exact s.unclaimed r (Table.lookup_mem claims.found) own claims.pending
    · obtain ⟨k, old, move⟩ := less.moves l mem
      cases move with
      | same => exact s.unused l old own unused
      | invoke => simp [Call.to] at unused
      | answer => simp [Call.to] at unused
      | commit => simp [Call.to] at unused
  · intro r mem own pending
    rcases step_backward c.rows h mem with ⟨_, _, _, -, staged⟩ | ⟨q, old, move⟩
    · exact s.absent fun q hq => own ▸ (stageChange_ok staged).2.2 q hq
    · exact s.unclaimed q old (move.id.symm.trans own) (move.pending pending)
  · intro none
    refine s.absent fun r mem own => ?_
    obtain ⟨q, new, move⟩ := step_forward c.rows h mem
    exact none q new (move.id.trans own)

/-- An invocation uses up the claim. -/
theorem Spent.invoke {x : Uuid} {n call : Nat} (s : Spent x n w) (c : Consistent w)
    (h : step env w (.invoke call x) = some w') : Spent x (n + 1) w' := by
  obtain ⟨k, held, id, own, unused, rfl⟩ := step_invoke h
  have none : n = 0 := s.unused k held own unused
  obtain ⟨r, mem, rid, status⟩ := c.owned k held
  refine ⟨by omega, ?_, ?_, ?_⟩
  · intro l new target phase
    obtain ⟨j, old, rfl⟩ := Table.mem_update.mp new
    exfalso
    by_cases here : Keyed.key j = call
    · rw [if_pos here] at phase
      simp [Call.to] at phase
    · rw [if_neg here] at target
      exact here (c.holder old held (target.trans own.symm) ▸ id)
  · intro q hq qid pending
    obtain rfl : q = r := c.row hq mem (qid.trans (rid.trans own).symm)
    exact absurd pending status
  · intro gone
    exact absurd (rid.trans own) (gone r mem)

theorem Spent.step {x : Uuid} {n : Nat} (s : Spent x n w) (c : Consistent w)
    (h : step env w e = some w') : Spent x (n + if e.invokes x then 1 else 0) w' := by
  by_cases own : e.invokes x
  · rw [if_pos own]
    cases e with
    | invoke call y =>
      obtain rfl : y = x := by simpa [Event.invokes] using own
      exact s.invoke c h
    | _ => simp [Event.invokes] at own
  · rw [if_neg own]
    exact s.quiet c h

theorem spent_idle (x : Uuid) (idle : w.calls = []) : Spent x 0 w :=
  ⟨by simp, by simp [idle], fun _ _ _ _ => rfl, fun _ => rfl⟩

theorem invocations_snoc (x : Uuid) (es : List Event) (e : Event) :
    invocations x (es ++ [e]) = invocations x es + if e.invokes x then 1 else 0 := by
  simp [invocations, List.countP_append, List.countP_cons]

/-- The committed status of a row. -/
def statusOf (w : World) (x : Uuid) : Option Status := (Table.lookup w.rows x).map (·.status)

theorem statusOf_mem {x : Uuid} (unique : Table.Unique w.rows) {r : PendingChange}
    (mem : r ∈ w.rows) (id : r.id = x) : statusOf w x = some r.status := by
  have found := unique.lookup mem
  rw [key_change, id] at found
  rw [statusOf, found]
  rfl

/-- Among `es`, taken from `w₀`, is a claim by this call that found the row committed as `pending`
and committed it as `applying`. -/
def ClaimedIn (env : Env) (w₀ : World) (es : List Event) (call : Nat) (x : Uuid) : Prop :=
  ∃ before request now after w₁ w₂, es = before ++ .claim call request true now :: after ∧
    Runs (step env) Free w₀ before w₁ ∧ step env w₁ (.claim call request true now) = some w₂ ∧
    statusOf w₁ x = some .pending ∧ statusOf w₂ x = some .applying

theorem ClaimedIn.extend {es : List Event} {call : Nat} {x : Uuid}
    (h : ClaimedIn env w₀ es call x) (e : Event) : ClaimedIn env w₀ (es ++ [e]) call x := by
  obtain ⟨before, request, now, after, w₁, w₂, rfl, rest⟩ := h
  exact ⟨before, request, now, after ++ [e], w₁, w₂, by simp, rest⟩

/-- Every call in flight was started by its claim. -/
theorem calls_claimed {es : List Event} (c : Consistent w₀) (idle : w₀.calls = [])
    (run : Runs (step env) Free w₀ es w) :
    ∀ k ∈ w.calls, ClaimedIn env w₀ es k.id k.changeId := by
  induction run with
  | nil => simp [idle]
  | @snoc t u es e prior _ next ih =>
    have ct := c.run prior
    intro l mem
    rcases step_calls ct.calls next with ⟨call, request, now, r, rfl, claims, -, calls, claimed⟩ | less
    · rw [calls] at mem
      rcases List.mem_append.mp mem with old | new
      · exact (ih l old).extend _
      · obtain rfl := List.mem_singleton.mp new
        refine ⟨es, request, now, [], t, u, rfl, prior, next, ?_, ?_⟩
        · rw [statusOf_mem ct.rows (Table.lookup_mem claims.found) rfl, claims.pending]
        · exact statusOf_mem (ct.step next).rows claimed rfl
    · obtain ⟨k, old, move⟩ := less.moves l mem
      have started := (ih k old).extend e
      cases move <;> exact started

/-- The applier is invoked at most once for a row over a whole run, and only by a call whose claim
found the row pending. -/
theorem dispatch_at_most_once (env : Env) {w₀ w : World} {es : List Event}
    (keys : Table.Unique w₀.rows) (idle : w₀.calls = []) (run : Runs (step env) Free w₀ es w)
    (x : Uuid) :
    invocations x es ≤ 1 ∧
      ∀ before call after, es = before ++ .invoke call x :: after →
        ClaimedIn env w₀ before call x := by
  have c := consistent_idle keys idle
  constructor
  · have spent : Spent x (invocations x es) w := by
      refine (run.traced (P := fun es w => Consistent w ∧ Spent x (invocations x es) w)
        ⟨c, spent_idle x idle⟩ ?_).2
      rintro es t e u _ next ⟨ct, spent⟩
      rw [invocations_snoc]
      exact ⟨ct.step next, spent.step ct next⟩
    exact spent.once
  · rintro before call after rfl
    obtain ⟨t, first, rest⟩ := run.split
    obtain ⟨u, -, one, -⟩ := rest.uncons
    obtain ⟨k, held, rfl, rfl, -, -⟩ := step_invoke one
    exact calls_claimed c idle first k held

/-! ### A small run -/

/-- The environment of the small runs below: their changes need no confirmation and no reviewed
plan. -/
def plainEnv : Env where
  sha256 := fun _ => ""
  print := ⟨fun s => "'" ++ s ++ "'", fun _ => "", fun t => String.ofList t.chars⟩
  vendorPreflight := fun _ _ => .ok ()
  validatedPlan := fun _ _ => .ok ()

/-- A request to start a guest. -/
def startRequest (id : Uuid) : StageRequest :=
  { organizationId := 1, controllerId := some 2, feature := "proxmox.vm.start"
    operation := "create", payload := [("node", .str "pve"), ("vmid", .int 100)], siteId := some 3
    targetId := some "100", actorId := none, changeId := some id, granted := none }

/-- An unlocked, forced apply. -/
def applyRequest (id : Uuid) : ApplyRequest :=
  { changeId := id, readOnly := false, force := true, confirmed := true, hasApplier := true
    actorId := none, granted := none }

def forcedDiscard (id : Uuid) : DiscardRequest :=
  { changeId := id, organizationId := 1, actorId := none, force := true, granted := none }

/-- Staging, the claim and the invocation of one change, with a crash and the recovery after it. -/
def crashedApply : List Event :=
  [.stage (startRequest 7) 0 0, .claim 0 (applyRequest 7) true 1, .invoke 0 7, .crash 0,
   .recover none (seconds 400)]

theorem crashedApply_dispatches_once :
    invocations 7 crashedApply ≤ 1 ∧
      ClaimedIn plainEnv World.empty
        [.stage (startRequest 7) 0 0, .claim 0 (applyRequest 7) true 1] 0 7 := by
  have run : Runs (step plainEnv) Free World.empty crashedApply _ := Runs.to_after (by decide)
  obtain ⟨once, claimed⟩ := dispatch_at_most_once plainEnv Table.unique_nil rfl run 7
  exact ⟨once, claimed _ _ _ rfl⟩

/-! ### Terminal statuses -/

/-- `discarded`, `failed` and `applied`. -/
def Status.ends : Status → Bool
  | .applied | .discarded | .failed => true
  | _ => false

/-- The row that a forced discard names. -/
def Event.forceDiscards : Event → Option Uuid
  | .discard request _ => if request.force then some request.changeId else none
  | _ => none

/-- A forced discard takes effect only on a row that no call in flight has claimed. -/
def Undisturbed (w : World) (e : Event) : Prop :=
  ∀ k ∈ w.calls, e.forceDiscards ≠ some k.changeId

instance (w : World) (e : Event) : Decidable (Undisturbed w e) :=
  inferInstanceAs (Decidable (∀ k ∈ w.calls, e.forceDiscards ≠ some k.changeId))

/-- The statuses that the row of a call in this phase may have. -/
def Holding : Phase → Status → Prop
  | _, .applying | _, .reconciliationRequired | .unrecorded _, .applied => True
  | _, _ => False

/-- Every call finds its row as its claim or a recovery left it, or, before the fallback, as its own
commit left it. -/
def Held (w : World) : Prop :=
  ∀ k ∈ w.calls, ∀ r ∈ w.rows, r.id = k.changeId → Holding k.phase r.status

theorem Holding.of_earlier {phase : Phase} {status : Status} (h : Holding phase status)
    (earlier : ∀ v, phase ≠ .unrecorded v) (later : Phase) : Holding later status := by
  cases status <;> cases phase <;> simp_all [Holding]

theorem Holding.not_ended {phase : Phase} {status : Status} (h : Holding phase status)
    (earlier : ∀ v, phase ≠ .unrecorded v) : status.ends = false := by
  cases status <;> cases phase <;> simp_all [Holding, Status.ends]

theorem Holding.not_pending {phase : Phase} {status : Status} (h : Holding phase status) :
    status ≠ .pending := by
  cases status <;> cases phase <;> simp_all [Holding]

theorem discardable_status {force : Bool} {status : Status} (h : discardable force status) :
    status = .pending ∨ (force = true ∧ status.ends = false) := by
  cases status <;> cases force <;> simp_all [discardable, Status.ends]

theorem resolved_force {force : Bool} {c : PendingChange} (h : resolvedObservation force c) :
    force = true ∧ c.status = .applied := by
  simp only [resolvedObservation, Bool.and_eq_true, beq_iff_eq] at h
  exact ⟨h.1.1.1, h.1.1.2⟩

theorem observedRow_status (poll : Poll) (now : Time) (r : PendingChange) :
    (observedRow env poll now r).status = r.status := by
  unfold observedRow
  rw [observeTask_frame]

/-- A discard of a row that a call holds is ruled out. -/
theorem Undisturbed.not_held {request : DiscardRequest} {now : Time} {r : PendingChange} {k : Call}
    (calm : Undisturbed w (.discard request now)) (discards : Discards w.rows request r)
    (held : k ∈ w.calls) (own : r.id = k.changeId) (status : r.status ≠ .pending) : False := by
  have id : r.id = request.changeId := Table.lookup_key discards.found
  have forced : request.force = true := by
    rcases discards.allowed with allowed | resolved
    · exact ((discardable_status allowed).resolve_left status).1
    · exact (resolved_force resolved).1
  refine calm k held ?_
  simp [Event.forceDiscards, forced, ← id, own]

/-- A call that survives its own commit could not record an acknowledged write. -/
theorem CallMove.of_commit {k l : Call} {result : CommitResult} {now : Time}
    (h : CallMove env (.commit k.id result now) k l) :
    ∃ v, k.phase = .answered (.accepted v) ∧ l = k.to (.unrecorded v) := by
  generalize he : Event.commit k.id result now = e at h
  cases h with
  | same foreign => exact absurd (by rw [← he]; rfl) foreign
  | commit phase => exact ⟨_, phase, rfl⟩
  | invoke | answer => simp at he

/-- No call survives its own fallback. -/
theorem CallMove.not_fallback {k l : Call} {tookEffect : Bool} {now : Time}
    (h : CallMove env (.fallback k.id tookEffect now) k l) : False := by
  generalize he : Event.fallback k.id tookEffect now = e at h
  cases h with
  | same foreign => exact absurd (by rw [← he]; rfl) foreign
  | invoke | answer | commit => simp at he

theorem Held.step (held : Held w) (c : Consistent w) (calm : Undisturbed w e)
    (h : step env w e = some w') : Held w' := by
  intro l mem s hs own
  rcases step_calls c.calls h with ⟨call, request, now, r, rfl, claims, fresh, calls, claimed⟩ | less
  · rw [calls] at mem
    rcases List.mem_append.mp mem with old | new
    · obtain ⟨q, hq, id, move⟩ := c.origin h old hs own
      have holding := held l old q hq id
      cases move with
      | same => exact holding
      | claim again => exact absurd again.pending holding.not_pending
    · obtain rfl := List.mem_singleton.mp new
      obtain rfl := (c.step h).row hs claimed own
      trivial
  · obtain ⟨k, old, callMove⟩ := less.moves l mem
    rw [callMove.changeId] at own
    obtain ⟨r, hr, id, move⟩ := c.origin h old hs own
    have holding := held k old r hr id
    cases move with
    | same =>
      cases callMove with
      | same => exact holding
      | invoke phase | answer phase | commit phase =>
        exact holding.of_earlier (by simp [phase]) _
    | claim claims => exact absurd claims.pending holding.not_pending
    | @write j o result now _ hj target phase =>
      -- the commit is the call's own, and it goes on to the fallback
      obtain rfl := c.holder hj old (target.trans id)
      obtain ⟨v, accepted, rfl⟩ := callMove.of_commit
      rw [accepted] at phase
      obtain rfl := Phase.answered.inj phase
      trivial
    | fallback hj target phase =>
      obtain rfl := c.holder hj old (target.trans id)
      exact callMove.not_fallback.elim
    | discard discards => exact (calm.not_held discards old id holding.not_pending).elim
    | recover => trivial
    | observe =>
      cases callMove with
      | same =>
        rw [observedRow_status]
        exact holding

/-- One step keeps what is over, apart from an operator's resolution of an unknown observation. -/
theorem Held.ended (held : Held w) {r s : PendingChange} (mem : r ∈ w.rows)
    (move : Move env w e r s) (ended : r.status.ends) :
    s.status = r.status ∨
      ∃ request now, e = .discard request now ∧ request.changeId = r.id ∧
        resolvedObservation request.force r ∧ s.status = .discarded := by
  cases move with
  | same => exact .inl rfl
  | claim claims => simp [claims.pending, Status.ends] at ended
  | @write k o result now _ hk target phase =>
    have open_ := (held k hk r mem target.symm).not_ended (by simp [phase])
    simp [open_] at ended
  | @fallback k v now _ hk target phase =>
    have holding := held k hk r mem target.symm
    rw [phase] at holding
    have applied : r.status = .applied := by
      cases status : r.status <;> simp_all [Holding, Status.ends]
    exact .inl applied.symm
  | @discard request now _ discards =>
    rcases discards.allowed with allowed | resolved
    · rcases discardable_status allowed with pending | ⟨-, open_⟩
      · simp [pending, Status.ends] at ended
      · simp [open_] at ended
    · exact .inr ⟨request, now, rfl, (Table.lookup_key discards.found).symm, resolved, rfl⟩
  | recover old =>
    have applying : r.status = .applying := by simp_all [stale]
    simp [applying, Status.ends] at ended
  | observe => exact .inl (observedRow_status _ _ r)

/-- Among `es`, taken from `w₁`, is a forced discard of the row that found it applied and reviewed,
with an unknown provider task. -/
def ResolvedIn (env : Env) (w₁ : World) (es : List Event) (x : Uuid) : Prop :=
  ∃ before request now after w, es = before ++ .discard request now :: after ∧
    request.changeId = x ∧ Runs (step env) Undisturbed w₁ before w ∧
    ∃ c ∈ w.rows, c.id = x ∧ resolvedObservation request.force c

theorem ResolvedIn.extend {w₁ : World} {es : List Event} {x : Uuid} (h : ResolvedIn env w₁ es x)
    (e : Event) : ResolvedIn env w₁ (es ++ [e]) x := by
  obtain ⟨before, request, now, after, w, rfl, rest⟩ := h
  exact ⟨before, request, now, after ++ [e], w, by simp, rest⟩

theorem held_idle (idle : w.calls = []) : Held w := by
  intro k mem
  simp [idle] at mem

theorem Held.run {es : List Event} (keys : Table.Unique w₀.rows) (idle : w₀.calls = [])
    (run : Runs (Staging.step env) Undisturbed w₀ es w) : Consistent w ∧ Held w :=
  run.invariant (P := fun w => Consistent w ∧ Held w) ⟨consistent_idle keys idle, held_idle idle⟩
    fun _ _ _ calm next ⟨c, held⟩ => ⟨c.step next, held.step c calm next⟩

/-- In every run in which forced discards leave claimed rows alone while their call is in flight,
a row recorded as discarded, failed or applied keeps that status, except that an applied row may be
discarded by the resolution of an unknown observation. -/
theorem terminal_status_absorbing (env : Env) {w₀ w₁ w₂ : World} {es fs : List Event}
    (keys : Table.Unique w₀.rows) (idle : w₀.calls = [])
    (before : Runs (step env) Undisturbed w₀ es w₁) (after : Runs (step env) Undisturbed w₁ fs w₂)
    {r : PendingChange} (mem : r ∈ w₁.rows) (ended : r.status.ends) :
    ∃ s ∈ w₂.rows, s.id = r.id ∧
      (s.status = r.status ∨
        r.status = .applied ∧ s.status = .discarded ∧ ResolvedIn env w₁ fs r.id) := by
  induction after with
  | nil => exact ⟨r, mem, rfl, .inl rfl⟩
  | @snoc t u fs e prior calm next ih =>
    obtain ⟨c, held⟩ := Held.run keys idle (before.append prior)
    obtain ⟨s, hs, id, status⟩ := ih
    obtain ⟨q, hq, move⟩ := step_forward c.rows next hs
    refine ⟨q, hq, move.id.trans id, ?_⟩
    rcases status with same | ⟨applied, discarded, resolved⟩
    · have ends : s.status.ends := by rw [same]; exact ended
      rcases held.ended hs move ends with kept | ⟨request, now, rfl, named, resolves, gone⟩
      · exact .inl (kept.trans same)
      · refine .inr ⟨same.symm.trans (resolved_force resolves).2, gone, ?_⟩
        exact ⟨fs, request, now, [], t, rfl, named.trans id, prior, s, hs, id, resolves⟩
    · have ends : s.status.ends := by rw [discarded]; rfl
      rcases held.ended hs move ends with kept | ⟨request, now, rfl, -, resolves, gone⟩
      · exact .inr ⟨applied, kept.trans discarded, resolved.extend e⟩
      · rw [(resolved_force resolves).2] at discarded
        simp at discarded

/-- The provider's acknowledgement of a started guest. -/
def startAnswer : Answer :=
  .returned (.mapping [("data", .obj [("upid",
    .str "UPID:pve:00001234:00005678:68A0B0C0:qmstart:100:root@pam:")]), ("success", .bool true)])

/-- One change, applied and committed. -/
def completedApply : List Event :=
  [.stage (startRequest 7) 0 0, .claim 0 (applyRequest 7) true 1, .invoke 0 7,
   .answer 0 startAnswer 2, .commit 0 .acknowledged 3]

theorem completedApply_stays :
    ∃ w₁ w₂, Runs (step plainEnv) Undisturbed World.empty completedApply w₁ ∧
      Runs (step plainEnv) Undisturbed w₁ [.recover none (seconds 400)] w₂ ∧
      ∃ r ∈ w₁.rows, r.status.ends ∧ ∃ s ∈ w₂.rows, s.id = r.id ∧
        (s.status = r.status ∨ r.status = .applied ∧ s.status = .discarded ∧
          ResolvedIn plainEnv w₁ [.recover none (seconds 400)] r.id) := by
  let w₁ := after (step plainEnv) Undisturbed World.empty completedApply
  have before : Runs (step plainEnv) Undisturbed World.empty completedApply w₁ :=
    Runs.to_after (by decide)
  have later : Runs (step plainEnv) Undisturbed w₁ [.recover none (seconds 400)] _ :=
    Runs.to_after (by decide)
  obtain ⟨r, mem, ends⟩ : ∃ r ∈ w₁.rows, r.status.ends := by decide
  exact ⟨_, _, before, later, r, mem, ends,
    terminal_status_absorbing plainEnv Table.unique_nil rfl before later mem ends⟩

/-- A forced discard while the applier executes, and what the call commits afterwards. -/
def discardedApply : List Event :=
  [.stage (startRequest 7) 0 0, .claim 0 (applyRequest 7) true 1, .invoke 0 7,
   .discard (forcedDiscard 7) 2]

/-- The outcome commit of the call overwrites the discarded row. -/
theorem discarded_row_overwritten :
    ∃ w₁ w₂, Runs (step plainEnv) Free World.empty discardedApply w₁ ∧
      Runs (step plainEnv) Free w₁ [.answer 0 startAnswer 3, .commit 0 .acknowledged 4] w₂ ∧
      statusOf w₁ 7 = some .discarded ∧ statusOf w₂ 7 = some .applied := by
  let w₁ := after (step plainEnv) Free World.empty discardedApply
  have before : Runs (step plainEnv) Free World.empty discardedApply w₁ :=
    Runs.to_after (by decide)
  have later : Runs (step plainEnv) Free w₁ [.answer 0 startAnswer 3, .commit 0 .acknowledged 4] _ :=
    Runs.to_after (by decide)
  exact ⟨_, _, before, later, by decide, by decide⟩

end FreeSdn.Staging
