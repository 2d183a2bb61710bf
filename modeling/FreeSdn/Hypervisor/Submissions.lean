import FreeSdn.Hypervisor.Operations

/-! What every step of the submissions keeps: each stage of a call says whether its row is stored,
whether the row is what the call asks for, and whether the call may have invoked the applier. -/

namespace FreeSdn.Hypervisor

open FreeSdn.Lib FreeSdn.Staging

variable {set : Setting} {d₀ d d' : Desk} {w w' : World} {e : Event} {es : List Event}

/-! ### What a step does to the staging service -/

def Event.invokes (x : Uuid) : Event → Bool
  | .staging e => e.invokes x
  | _ => false

/-- How often the applier was invoked for the row. -/
def dispatches (x : Uuid) (es : List Event) : Nat := es.countP (Event.invokes x)

/-- The event is an invocation of the applier by this call. -/
def Event.invokedBy (id : Nat) : Event → Bool
  | .staging (.invoke call _) => call == 2 * id
  | _ => false

/-- How often this call invoked the applier. -/
def dispatchesBy (id : Nat) (es : List Event) : Nat := es.countP (Event.invokedBy id)

theorem dispatches_snoc (x : Uuid) (es : List Event) (e : Event) :
    dispatches x (es ++ [e]) = dispatches x es + if e.invokes x then 1 else 0 := by
  simp [dispatches, List.countP_append, List.countP_cons]

theorem dispatchesBy_snoc {id : Nat} (es : List Event) (quiet : e.invokedBy id = false) :
    dispatchesBy id (es ++ [e]) = dispatchesBy id es := by
  simp [dispatchesBy, List.countP_append, quiet]

/-- The step of the staging service that a step of the desk takes. -/
inductive Inner (d : Desk) : Event → Staging.Event → Prop
  | insert {s : Submission} {now : Time} : s ∈ d.submissions →
      Inner d (.insert s.id now) (.stage s.stageRequest s.key now)
  | claim {s : Submission} {acknowledged : Bool} {now : Time} : s ∈ d.submissions →
      Inner d (.claim s.id acknowledged now) (.claim s.call s.applyRequest acknowledged now)
  | staging {e : Staging.Event} : foreign e → Inner d (.staging e) e

theorem Inner.invokes {e' : Staging.Event} (h : Inner d e e') (x : Uuid) :
    e'.invokes x = e.invokes x := by
  cases h <;> rfl

theorem step_world (h : step set d e = some d') :
    (d'.world = d.world ∧ ∀ x, e.invokes x = false) ∨
      ∃ e', Inner d e e' ∧ Staging.step set.env d.world e' = some d'.world := by
  cases e with
  | submit id q =>
    left
    simp only [step] at h
    split at h
    · obtain rfl := Option.some.inj h
      exact ⟨rfl, fun _ => rfl⟩
    · simp at h
  | insert id now =>
    simp only [step] at h
    split at h
    · rename_i s found
      obtain rfl : s.id = id := Table.lookup_key found
      split at h
      · split at h
        · rename_i row staged
          obtain rfl := Option.some.inj h
          refine .inr ⟨_, .insert (Table.lookup_mem found), ?_⟩
          simp only [Staging.step, staged]
          rfl
        · obtain rfl := Option.some.inj h
          exact .inl ⟨rfl, fun _ => rfl⟩
        · obtain rfl := Option.some.inj h
          exact .inl ⟨rfl, fun _ => rfl⟩
      · simp at h
    · simp at h
  | reread id =>
    left
    simp only [step] at h
    split at h
    · split at h
      · obtain rfl := Option.some.inj h
        exact ⟨rfl, fun _ => rfl⟩
      · obtain rfl := Option.some.inj h
        exact ⟨rfl, fun _ => rfl⟩
      · obtain rfl := Option.some.inj h
        exact ⟨rfl, fun _ => rfl⟩
      · simp at h
    · simp at h
  | claim id acknowledged now =>
    simp only [step] at h
    split at h
    · rename_i s found
      obtain rfl : s.id = id := Table.lookup_key found
      split at h
      · split at h
        · obtain rfl := Option.some.inj h
          exact .inl ⟨rfl, fun _ => rfl⟩
        · obtain ⟨v, next, rfl⟩ := Option.map_eq_some_iff.mp h
          exact .inr ⟨_, .claim (Table.lookup_mem found), next⟩
      · simp at h
    · simp at h
  | reload id =>
    left
    simp only [step] at h
    split at h
    · split at h
      · obtain rfl := Option.some.inj h
        exact ⟨rfl, fun _ => rfl⟩
      · obtain rfl := Option.some.inj h
        exact ⟨rfl, fun _ => rfl⟩
      · simp at h
    · simp at h
  | die id =>
    left
    simp only [step] at h
    split at h
    · split at h
      · simp at h
      · simp at h
      · obtain rfl := Option.some.inj h
        exact ⟨rfl, fun _ => rfl⟩
    · simp at h
  | staging e =>
    simp only [step] at h
    split at h
    · rename_i other
      obtain ⟨v, next, rfl⟩ := Option.map_eq_some_iff.mp h
      exact .inr ⟨e, .staging other, next⟩
    · simp at h

theorem stageChange_integrity {env : Env} {rows : List PendingChange} {request : StageRequest}
    {generated : Uuid} {now : Time}
    (h : stageChange env rows request generated now = .error .integrity) :
    ∃ r ∈ rows, r.id = request.changeId.getD generated := by
  unfold stageChange at h
  dsimp only at h
  split at h
  · simp at h
  · split at h
    · rename_i taken
      obtain ⟨r, found⟩ := Option.isSome_iff_exists.mp taken
      exact ⟨r, Table.lookup_mem found, Table.lookup_key found⟩
    · simp at h

/-! ### What stays -/

/-- Every row of `w` is still there in `w'`, as the same change, and not pending again. -/
def Persists (w w' : World) : Prop :=
  ∀ r ∈ w.rows, ∃ s ∈ w'.rows, SameTarget r s ∧ (r.status ≠ .pending → s.status ≠ .pending)

theorem persists_refl (w : World) : Persists w w :=
  fun r mem => ⟨r, mem, ⟨rfl, rfl, rfl, rfl, rfl, rfl, rfl, rfl, rfl⟩, id⟩

theorem persists_step {env : Env} {e : Staging.Event} (c : Consistent w)
    (h : Staging.step env w e = some w') : Persists w w' := by
  intro r mem
  obtain ⟨s, new, move⟩ := step_forward c.rows h mem
  exact ⟨s, new, move.target, fun spent pending => spent (move.pending pending)⟩

theorem sameIntent_congr {vault : Vault} {s : Submission} {r r' : PendingChange}
    (same : SameTarget r r') : s.sameIntent vault r' = s.sameIntent vault r := by
  unfold Submission.sameIntent samePayload
  rw [same.controllerId, same.siteId, same.feature, same.operation, same.targetId, same.payload,
    same.id]

/-- The row of the call is stored, and the comparison with it gives `same`. -/
def Compared (set : Setting) (w : World) (s : Submission) (same : Bool) : Prop :=
  ∃ r ∈ w.rows, r.id = s.key ∧ s.sameIntent set.vault r = same

/-- The row of the call is stored and was claimed. -/
def Settled (w : World) (s : Submission) : Prop :=
  ∃ r ∈ w.rows, r.id = s.key ∧ r.status ≠ .pending

/-- The row of the call is stored, and the call may not see it. -/
def Hidden (w : World) (s : Submission) : Prop :=
  ∃ r ∈ w.rows, r.id = s.key ∧ s.request.sees r.organizationId r.siteId = false

/-- Other callers stage a row under a key for the organization and the actor of the key, as
`_record` does, and a generated identifier is never a key. -/
def Derived (set : Setting) (_ : Desk) : Event → Prop
  | .staging (.stage request generated _) => ∀ organization actor id,
      request.changeId.getD generated = set.uuid5 organization actor id →
        request.organizationId = organization ∧ request.actorId = some actor
  | _ => True

/-- Since `d₀`, `stage_change` refused the insert of the call. -/
def InsertRefused (set : Setting) (d₀ : Desk) (es : List Event) (s : Submission)
    (error : HttpError) : Prop :=
  ∃ now, Took (step set) (Derived set) d₀ es (.insert s.id now) fun d =>
    stageChange set.env d.world.rows s.stageRequest s.key now = .error (.http error)

/-- Since `d₀`, `apply_change` refused the claim of the call. -/
def ClaimRefused (set : Setting) (d₀ : Desk) (es : List Event) (s : Submission)
    (error : HttpError) : Prop :=
  ∃ acknowledged now, Took (step set) (Derived set) d₀ es (.claim s.id acknowledged now) fun d =>
    Staging.claim set.env d.world.rows s.applyRequest now = .error error

/-- Since `d₀`, the call read its row again after an error of `apply_change` and found it pending. -/
def RereadPending (set : Setting) (d₀ : Desk) (es : List Event) (s : Submission) : Prop :=
  Took (step set) (Derived set) d₀ es (.reload s.id) fun d =>
    ∃ r ∈ d.world.rows, r.id = s.key ∧ r.status = .pending

/-- What each stage says about the row, about the invocations by this call and, where it was refused
something, about the step that refused it. -/
def Told (set : Setting) (d₀ : Desk) (es : List Event) (w : World) (s : Submission) : Prop :=
  match s.stage with
  | .missing => dispatchesBy s.id es = 0
  | .stored | .collided => dispatchesBy s.id es = 0 ∧ ∃ r ∈ w.rows, r.id = s.key
  | .matched => dispatchesBy s.id es = 0 ∧ Compared set w s true
  | .applying => Compared set w s true
  | .returned | .failed => Compared set w s true ∧ Settled w s
  | .refused e => dispatchesBy s.id es = 0 ∧ Compared set w s true ∧ ClaimRefused set d₀ es s e
  | .done (.report id _) => Compared set w s true ∧ id = s.key
  | .done (.refused e) => dispatchesBy s.id es = 0 ∧ InsertRefused set d₀ es s e
  | .done (.conflicted e) => dispatchesBy s.id es = 0 ∧ Compared set w s false ∧ e = requestTaken
  | .done .integrity => dispatchesBy s.id es = 0 ∧ Hidden w s
  | .done (.reraised e) => dispatchesBy s.id es = 0 ∧ Compared set w s true ∧
      ClaimRefused set d₀ es s e ∧ RereadPending set d₀ es s
  | .done .failed => False
  | .done .broken => dispatchesBy s.id es = 0 ∨ Compared set w s true

theorem Compared.persist {s : Submission} {same : Bool} (h : Compared set w s same)
    (p : Persists w w') : Compared set w' s same := by
  obtain ⟨r, mem, id, intent⟩ := h
  obtain ⟨r', new, target, -⟩ := p r mem
  exact ⟨r', new, target.id.trans id, (sameIntent_congr target).trans intent⟩

theorem Settled.persist {s : Submission} (h : Settled w s) (p : Persists w w') : Settled w' s := by
  obtain ⟨r, mem, id, spent⟩ := h
  obtain ⟨r', new, target, keep⟩ := p r mem
  exact ⟨r', new, target.id.trans id, keep spent⟩

theorem Hidden.persist {s : Submission} (h : Hidden w s) (p : Persists w w') : Hidden w' s := by
  obtain ⟨r, mem, id, hidden⟩ := h
  obtain ⟨r', new, target, -⟩ := p r mem
  exact ⟨r', new, target.id.trans id, by rw [target.organizationId, target.siteId, hidden]⟩

theorem ClaimRefused.extend {s : Submission} {error : HttpError}
    (h : ClaimRefused set d₀ es s error) (e : Event) : ClaimRefused set d₀ (es ++ [e]) s error := by
  obtain ⟨acknowledged, now, took⟩ := h
  exact ⟨acknowledged, now, took.extend e⟩

theorem InsertRefused.extend {s : Submission} {error : HttpError}
    (h : InsertRefused set d₀ es s error) (e : Event) : InsertRefused set d₀ (es ++ [e]) s error := by
  obtain ⟨now, took⟩ := h
  exact ⟨now, took.extend e⟩

theorem stored_persist {s : Submission} (h : ∃ r ∈ w.rows, r.id = s.key) (p : Persists w w') :
    ∃ r ∈ w'.rows, r.id = s.key := by
  obtain ⟨r, mem, id⟩ := h
  obtain ⟨r', new, target, -⟩ := p r mem
  exact ⟨r', new, target.id.trans id⟩

/-- A step that keeps the rows, and that is not an invocation by this call, keeps what is told. -/
theorem Told.persist {s : Submission} (h : Told set d₀ es w s) (p : Persists w w')
    (quiet : e.invokedBy s.id = false ∨ s.stage = .applying) : Told set d₀ (es ++ [e]) w' s := by
  by_cases applying : s.stage = .applying
  · simp only [Told, applying] at h ⊢
    exact h.persist p
  · have same := dispatchesBy_snoc es (quiet.resolve_right applying)
    unfold Told at h ⊢
    rw [same]
    split at h
    · exact h
    · exact ⟨h.1, stored_persist h.2 p⟩
    · exact ⟨h.1, stored_persist h.2 p⟩
    · exact ⟨h.1, h.2.persist p⟩
    · exact h.persist p
    · exact ⟨h.1.persist p, h.2.persist p⟩
    · exact ⟨h.1.persist p, h.2.persist p⟩
    · exact ⟨h.1, h.2.1.persist p, h.2.2.extend e⟩
    · exact ⟨h.1.persist p, h.2⟩
    · exact ⟨h.1, h.2.extend e⟩
    · exact ⟨h.1, h.2.1.persist p, h.2.2⟩
    · exact ⟨h.1, h.2.persist p⟩
    · exact ⟨h.1, h.2.1.persist p, h.2.2.1.extend e, Took.extend h.2.2.2 e⟩
    · exact h
    · exact h.imp_right (·.persist p)

/-! ### The invariant -/

/-- The rows whose identifier is a key belong to the organization and the actor of the key. -/
def Registered (set : Setting) (rows : List PendingChange) : Prop :=
  ∀ r ∈ rows, ∀ organization actor request, r.id = set.uuid5 organization actor request →
    r.organizationId = organization ∧ r.createdBy = some actor

structure Sound (set : Setting) (d₀ : Desk) (es : List Event) (d : Desk) : Prop where
  world : Consistent d.world
  ids : Table.Unique d.submissions
  registered : Registered set d.world.rows
  keyed : ∀ s ∈ d.submissions,
    s.key = set.uuid5 s.organization s.request.actorId s.request.requestId ∧
      s.request.sees s.organization (some s.site) = true
  held : ∀ k ∈ d.world.calls, k.id % 2 = 0 →
    ∃ s ∈ d.submissions, k.id = s.call ∧ s.stage = .applying ∧ k.changeId = s.key
  heard : ∀ id, dispatchesBy id es ≠ 0 → ∃ s ∈ d.submissions, s.id = id
  told : ∀ s ∈ d.submissions, Told set d₀ es d.world s

/-- Keys of different organizations, actors or request identifiers differ. -/
def Setting.Injective (set : Setting) : Prop :=
  ∀ o a q o' a' q', set.uuid5 o a q = set.uuid5 o' a' q' → o = o' ∧ a = a' ∧ q = q'

theorem Registered.step {e' : Staging.Event} (registered : Registered set d.world.rows)
    (injective : set.Injective) (sound : Sound set d₀ es d) (ok : Derived set d e)
    (inner : Inner d e e') (h : Staging.step set.env d.world e' = some w') :
    Registered set w'.rows := by
  intro r mem o a q key
  rcases step_backward sound.world.rows h mem with ⟨request, generated, now, rfl, staged⟩ | move
  · obtain ⟨rfl, -, -⟩ := stageChange_ok staged
    cases inner with
    | insert known =>
      rename_i s
      have own := (sound.keyed s known).1
      obtain ⟨rfl, rfl, -⟩ := injective _ _ _ _ _ _ (own.symm.trans key)
      exact ⟨rfl, rfl⟩
    | staging => exact ok o a q key
  · obtain ⟨old, here, move⟩ := move
    have target := move.target
    rw [target.organizationId, target.createdBy]
    exact registered old here o a q (target.id.symm.trans key)

/-- The three parts that do not concern the submissions. -/
theorem Sound.next (sound : Sound set d₀ es d) (injective : set.Injective) (ok : Derived set d e)
    (h : step set d e = some d') :
    Consistent d'.world ∧ Registered set d'.world.rows ∧ Persists d.world d'.world := by
  rcases step_world h with ⟨same, -⟩ | ⟨e', inner, next⟩
  · rw [same]
    exact ⟨sound.world, sound.registered, persists_refl _⟩
  · exact ⟨sound.world.step next, sound.registered.step injective sound ok inner next,
      persists_step sound.world next⟩

/-! ### Reading the row -/

theorem existing_some {s : Submission} {rows : List PendingChange} {r : PendingChange}
    (h : s.existing rows = some r) : r ∈ rows ∧ r.id = s.key := by
  obtain ⟨found, -⟩ := Option.filter_eq_some_iff.mp h
  exact ⟨Table.lookup_mem found, Table.lookup_key found⟩

/-- The call misses a stored row only where it may not see it. -/
theorem Sound.existing_none (sound : Sound set d₀ es d) {s : Submission} (mem : s ∈ d.submissions)
    {r : PendingChange} (stored : r ∈ d.world.rows) (id : r.id = s.key)
    (missed : s.existing d.world.rows = none) :
    s.request.sees r.organizationId r.siteId = false := by
  obtain ⟨-, creator⟩ := sound.registered r stored _ _ _ (id.trans (sound.keyed s mem).1)
  have found : Table.lookup d.world.rows s.key = some r := by
    rw [← id]
    exact sound.world.rows.lookup stored
  rw [Submission.existing, found] at missed
  simpa [creator] using missed

/-- The row that the comparison accepts may be seen by the call. -/
theorem Sound.sees (sound : Sound set d₀ es d) {s : Submission} (mem : s ∈ d.submissions)
    {r : PendingChange} (stored : r ∈ d.world.rows) (id : r.id = s.key)
    (same : s.sameIntent set.vault r = true) :
    s.request.sees r.organizationId r.siteId = true := by
  obtain ⟨key, sees⟩ := sound.keyed s mem
  have site : r.siteId = some s.site := by
    simp only [Submission.sameIntent, Bool.and_eq_true, beq_iff_eq] at same
    exact same.1.1.1.1.2
  rw [(sound.registered r stored _ _ _ (id.trans key)).1, site, sees]

theorem Sound.existing (sound : Sound set d₀ es d) {s : Submission} (mem : s ∈ d.submissions)
    {r : PendingChange} (stored : r ∈ d.world.rows) (id : r.id = s.key)
    (same : s.sameIntent set.vault r = true) : s.existing d.world.rows = some r := by
  cases found : s.existing d.world.rows with
  | none =>
    have hidden := sound.existing_none mem stored id found
    rw [sound.sees mem stored id same] at hidden
    simp at hidden
  | some r' =>
    obtain ⟨stored', id'⟩ := existing_some found
    rw [sound.world.row stored' stored (id'.trans id.symm)]

theorem told_examine {s : Submission} {r : PendingChange} (silent : dispatchesBy s.id es = 0)
    (stored : r ∈ w.rows) (id : r.id = s.key) :
    Told set d₀ es w (s.to (s.examine set.vault r)) := by
  unfold Submission.examine
  split
  · rename_i differs
    have other : s.sameIntent set.vault r = false := by simpa using differs
    exact ⟨silent, ⟨r, stored, id, other⟩, rfl⟩
  · rename_i agrees
    have same : s.sameIntent set.vault r = true := by simpa using agrees
    split
    · exact ⟨silent, r, stored, id, same⟩
    · exact ⟨⟨r, stored, id, same⟩, id⟩

theorem told_start (set : Setting) (w : World) {s : Submission} (silent : dispatchesBy s.id es = 0) :
    ∃ stage, s.start set.vault w.rows = s.to stage ∧ Told set d₀ es w (s.to stage) := by
  unfold Submission.start
  split
  · rename_i r found
    obtain ⟨stored, id⟩ := existing_some found
    exact ⟨_, rfl, told_examine silent stored id⟩
  · exact ⟨_, rfl, silent⟩

/-- After an HTTP error of `apply_change` the row is reported, unless it is still pending. -/
theorem Sound.settle (sound : Sound set d₀ es d) {s : Submission} (mem : s ∈ d.submissions)
    (agreed : Compared set d.world s true) (otherwise : Response) :
    (s.settle d.world.rows otherwise = .done otherwise ∧
        ∃ r ∈ d.world.rows, r.id = s.key ∧ r.status = .pending) ∨
      ∃ status, s.settle d.world.rows otherwise = .done (.report s.key status) := by
  obtain ⟨r, stored, id, same⟩ := agreed
  rw [Submission.settle, sound.existing mem stored id same]
  by_cases pending : r.status = .pending
  · exact .inl ⟨by simp [pending], r, stored, id, pending⟩
  · exact .inr ⟨r.status, by simp [pending, id]⟩

/-! ### The submissions after a step -/

theorem mem_to {id : Nat} {stage : Stage} {s : Submission} {subs : List Submission}
    (mem : s ∈ Table.update subs id (Submission.to stage)) :
    (s ∈ subs ∧ s.id ≠ id) ∨ ∃ old ∈ subs, old.id = id ∧ s = old.to stage := by
  obtain ⟨old, known, rfl⟩ := Table.mem_update.mp mem
  by_cases here : Keyed.key old = id
  · rw [if_pos here]
    exact .inr ⟨old, known, here, rfl⟩
  · rw [if_neg here]
    exact .inl ⟨known, here⟩

/-- One call, which holds no claim, moves on; `w` is the world after it. -/
theorem Sound.move (sound : Sound set d₀ es d) (consistent : Consistent w)
    (registered : Registered set w.rows) (persists : Persists d.world w)
    (quiet : ∀ id, e.invokedBy id = false) {s : Submission} (mem : s ∈ d.submissions)
    (unclaimed : s.stage ≠ .applying) {stage : Stage}
    (calls : ∀ k ∈ w.calls, k ∈ d.world.calls ∨
      (k.id = s.call ∧ k.changeId = s.key ∧ stage = .applying))
    (told : Told set d₀ (es ++ [e]) w (s.to stage)) :
    Sound set d₀ (es ++ [e]) (Desk.to { d with world := w } s.id stage) := by
  -- the call that moves is the only one of its name
  have only (old : Submission) (known : old ∈ d.submissions) (same : old.id = s.id) : old = s :=
    sound.ids.eq known mem same
  have moved : s.to stage ∈ Table.update d.submissions s.id (Submission.to stage) :=
    Table.mem_update.mpr ⟨s, mem, (if_pos rfl).symm⟩
  have kept (old : Submission) (known : old ∈ d.submissions) (other : old.id ≠ s.id) :
      old ∈ Table.update d.submissions s.id (Submission.to stage) :=
    Table.mem_update.mpr ⟨old, known, (if_neg other).symm⟩
  refine ⟨consistent, ?_, registered, ?_, ?_, ?_, ?_⟩
  · exact sound.ids.map (Table.update_keeps fun _ _ here => here)
  · intro t here
    rcases mem_to here with ⟨old, -⟩ | ⟨old, known, -, rfl⟩
    · exact sound.keyed t old
    · exact sound.keyed old known
  · intro k hk even
    rcases calls k hk with before | ⟨own, target, applying⟩
    · obtain ⟨old, known, name, claims⟩ := sound.held k before even
      refine ⟨old, kept old known fun same => ?_, name, claims⟩
      exact unclaimed (only old known same ▸ claims.1)
    · exact ⟨s.to stage, moved, own, applying, target⟩
  · intro id some
    rw [dispatchesBy_snoc es (quiet id)] at some
    obtain ⟨old, known, rfl⟩ := sound.heard id some
    by_cases here : old.id = s.id
    · exact ⟨s.to stage, moved, here.symm⟩
    · exact ⟨old, kept old known here, rfl⟩
  · intro t here
    rcases mem_to here with ⟨known, -⟩ | ⟨old, known, named, rfl⟩
    · exact (sound.told t known).persist persists (.inl (quiet t.id))
    · obtain rfl := only old known named
      exact told

/-- A move that leaves the staging service as it is. -/
theorem Sound.moveOnly (sound : Sound set d₀ es d) (quiet : ∀ id, e.invokedBy id = false)
    {s : Submission} (mem : s ∈ d.submissions) (unclaimed : s.stage ≠ .applying) {stage : Stage}
    (told : Told set d₀ (es ++ [e]) d.world (s.to stage)) :
    Sound set d₀ (es ++ [e]) (d.to s.id stage) :=
  sound.move sound.world sound.registered (persists_refl _) quiet mem unclaimed
    (fun _ hk => .inl hk) told

theorem gates_sees {q : Request} {organization site : Uuid} (h : q.gates = .ok (organization, site)) :
    q.sees organization (some site) = true := by
  unfold Request.gates at h
  obtain ⟨_, _, h⟩ := bind_ok h
  obtain ⟨_, _, h⟩ := bind_ok h
  obtain ⟨_, _, h⟩ := bind_ok h
  obtain ⟨_, _, h⟩ := bind_ok h
  obtain ⟨_, _, h⟩ := bind_ok h
  split at h
  · rename_i target found
    obtain rfl := Except.ok.inj h
    exact (Option.filter_eq_some_iff.mp found).2
  · simp at h

theorem Sound.submit (sound : Sound set d₀ es d) {id : Nat} {q : Request}
    (h : step set d (.submit id q) = some d') : Sound set d₀ (es ++ [.submit id q]) d' := by
  simp only [step] at h
  split at h
  · rename_i organization site passed new
    obtain rfl := Option.some.inj h
    have fresh := Table.lookup_none.mp new
    have quiet (i : Nat) : (Event.submit id q).invokedBy i = false := rfl
    have silent : dispatchesBy id (es ++ [.submit id q]) = 0 := by
      rw [dispatchesBy_snoc es (quiet id)]
      by_contra some
      obtain ⟨s, known, named⟩ := sound.heard id some
      exact fresh s known named
    obtain ⟨stage, same, told⟩ := told_start set d.world
      (s := ⟨id, q, organization, site, set.uuid5 organization q.actorId q.requestId, .missing⟩)
      silent
    rw [same]
    refine ⟨sound.world, ?_, sound.registered, ?_, ?_, ?_, ?_⟩
    · exact sound.ids.append fresh
    · intro t mem
      rcases List.mem_append.mp mem with old | last
      · exact sound.keyed t old
      · obtain rfl := List.mem_singleton.mp last
        exact ⟨rfl, gates_sees passed⟩
    · intro k hk even
      obtain ⟨s, known, claims⟩ := sound.held k hk even
      exact ⟨s, List.mem_append_left _ known, claims⟩
    · intro i some
      rw [dispatchesBy_snoc es (quiet i)] at some
      obtain ⟨s, known, named⟩ := sound.heard i some
      exact ⟨s, List.mem_append_left _ known, named⟩
    · intro t mem
      rcases List.mem_append.mp mem with old | last
      · exact (sound.told t old).persist (persists_refl _) (.inl (quiet t.id))
      · obtain rfl := List.mem_singleton.mp last
        exact told
  · simp at h

theorem Sound.insert (sound : Sound set d₀ es d) (injective : set.Injective)
    (run : Runs (Hypervisor.step set) (Derived set) d₀ es d) {id : Nat} {now : Time}
    (h : step set d (.insert id now) = some d') : Sound set d₀ (es ++ [.insert id now]) d' := by
  have ok : Derived set d (.insert id now) := trivial
  obtain ⟨consistent, registered, persists⟩ := sound.next injective ok h
  have quiet (i : Nat) : (Event.insert id now).invokedBy i = false := rfl
  simp only [step] at h
  split at h
  · rename_i s found
    obtain rfl : s.id = id := Table.lookup_key found
    have mem := Table.lookup_mem found
    split at h
    · rename_i missing
      have unclaimed : s.stage ≠ .applying := by simp [missing]
      have silent : dispatchesBy s.id (es ++ [.insert s.id now]) = 0 := by
        rw [dispatchesBy_snoc es (quiet s.id)]
        have told := sound.told s mem
        simpa only [Told, missing] using told
      split at h
      · rename_i row staged
        obtain rfl := Option.some.inj h
        obtain ⟨own, -, -⟩ := stageChange_ok staged
        refine sound.move consistent registered persists quiet mem unclaimed
          (fun _ hk => .inl hk) ⟨silent, row, List.mem_append_right _ (by simp), ?_⟩
        rw [own]
        rfl
      · rename_i error refused
        obtain rfl := Option.some.inj h
        exact sound.moveOnly quiet mem unclaimed ⟨silent, now, Took.last run refused⟩
      · rename_i collision
        obtain rfl := Option.some.inj h
        obtain ⟨r, taken⟩ := stageChange_integrity collision
        exact sound.moveOnly quiet mem unclaimed ⟨silent, r, taken⟩
    · simp at h
  · simp at h

theorem Sound.reread (sound : Sound set d₀ es d) {id : Nat} (h : step set d (.reread id) = some d') :
    Sound set d₀ (es ++ [.reread id]) d' := by
  have quiet (i : Nat) : (Event.reread id).invokedBy i = false := rfl
  simp only [step] at h
  split at h
  · rename_i s found
    obtain rfl : s.id = id := Table.lookup_key found
    have mem := Table.lookup_mem found
    have told := sound.told s mem
    split at h
    · rename_i stored
      simp only [Told, stored] at told
      obtain rfl := Option.some.inj h
      refine sound.moveOnly quiet mem (by simp [stored]) ?_
      rw [← dispatchesBy_snoc es (quiet s.id)] at told
      split
      · rename_i r row
        exact told_examine told.1 (Table.lookup_mem row) (Table.lookup_key row)
      · exact .inl told.1
    · rename_i collided
      simp only [Told, collided] at told
      obtain rfl := Option.some.inj h
      refine sound.moveOnly quiet mem (by simp [collided]) ?_
      rw [← dispatchesBy_snoc es (quiet s.id)] at told
      obtain ⟨silent, r, row, id⟩ := told
      split
      · rename_i r' seen
        exact told_examine silent (existing_some seen).1 (existing_some seen).2
      · rename_i unseen
        exact ⟨silent, r, row, id, sound.existing_none mem row id unseen⟩
    · rename_i returned
      simp only [Told, returned] at told
      obtain rfl := Option.some.inj h
      refine sound.moveOnly quiet mem (by simp [returned]) ?_
      split
      · rename_i r row
        exact ⟨told.1, Table.lookup_key row⟩
      · exact .inr told.1
    · simp at h
  · simp at h

theorem Sound.reload (sound : Sound set d₀ es d)
    (run : Runs (Hypervisor.step set) (Derived set) d₀ es d) {id : Nat}
    (h : Hypervisor.step set d (.reload id) = some d') :
    Sound set d₀ (es ++ [.reload id]) d' := by
  have quiet (i : Nat) : (Event.reload id).invokedBy i = false := rfl
  simp only [step] at h
  split at h
  · rename_i s found
    obtain rfl : s.id = id := Table.lookup_key found
    have mem := Table.lookup_mem found
    have told := sound.told s mem
    split at h
    · rename_i error refused
      simp only [Told, refused] at told
      obtain rfl := Option.some.inj h
      refine sound.moveOnly quiet mem (by simp [refused]) ?_
      rw [← dispatchesBy_snoc es (quiet s.id)] at told
      rcases sound.settle mem told.2.1 (.reraised error) with ⟨same, pending⟩ | ⟨status, same⟩
      · rw [same]
        exact ⟨told.1, told.2.1, told.2.2.extend _, Took.last run pending⟩
      · rw [same]
        exact ⟨told.2.1, rfl⟩
    · rename_i failed
      simp only [Told, failed] at told
      obtain rfl := Option.some.inj h
      refine sound.moveOnly quiet mem (by simp [failed]) ?_
      rcases sound.settle mem told.1 .failed with ⟨-, pending⟩ | ⟨status, same⟩
      · obtain ⟨r, stored, id, pending⟩ := pending
        obtain ⟨r', stored', id', spent⟩ := told.2
        obtain rfl := sound.world.row stored' stored (id'.trans id.symm)
        exact absurd pending spent
      · rw [same]
        exact ⟨told.1, rfl⟩
    · simp at h
  · simp at h

theorem Told.alive {s : Submission} (told : Told set d₀ es w s) (alive : ∀ r, s.stage ≠ .done r) :
    dispatchesBy s.id es = 0 ∨ Compared set w s true := by
  unfold Told at told
  split at told
  · exact .inl told
  · exact .inl told.1
  · exact .inl told.1
  · exact .inl told.1
  · exact .inr told
  · exact .inr told.1
  · exact .inr told.1
  · exact .inl told.1
  all_goals exact absurd ‹_› (alive _)

theorem Sound.die (sound : Sound set d₀ es d) {id : Nat} (h : step set d (.die id) = some d') :
    Sound set d₀ (es ++ [.die id]) d' := by
  have quiet (i : Nat) : (Event.die id).invokedBy i = false := rfl
  simp only [step] at h
  split at h
  · rename_i s found
    obtain rfl : s.id = id := Table.lookup_key found
    have mem := Table.lookup_mem found
    split at h
    · simp at h
    · simp at h
    · rename_i unclaimed alive
      obtain rfl := Option.some.inj h
      refine sound.moveOnly quiet mem unclaimed ?_
      have told := (sound.told s mem).alive alive
      rw [← dispatchesBy_snoc es (quiet s.id)] at told
      exact told
  · simp at h

theorem Sound.claim (sound : Sound set d₀ es d) (injective : set.Injective)
    (run : Runs (Hypervisor.step set) (Derived set) d₀ es d) {id : Nat}
    {acknowledged : Bool} {now : Time} (h : step set d (.claim id acknowledged now) = some d') :
    Sound set d₀ (es ++ [.claim id acknowledged now]) d' := by
  have ok : Derived set d (.claim id acknowledged now) := trivial
  obtain ⟨consistent, registered, persists⟩ := sound.next injective ok h
  have quiet (i : Nat) : (Event.claim id acknowledged now).invokedBy i = false := rfl
  simp only [step] at h
  split at h
  · rename_i s found
    obtain rfl : s.id = id := Table.lookup_key found
    have mem := Table.lookup_mem found
    have told := sound.told s mem
    split at h
    · rename_i matched
      simp only [Told, matched] at told
      have unclaimed : s.stage ≠ .applying := by simp [matched]
      split at h
      · rename_i error refused
        obtain rfl := Option.some.inj h
        rw [← dispatchesBy_snoc es (quiet s.id)] at told
        exact sound.moveOnly quiet mem unclaimed
          ⟨told.1, told.2, acknowledged, now, Took.last run refused⟩
      · obtain ⟨v, next, rfl⟩ := Option.map_eq_some_iff.mp h
        refine sound.move consistent registered persists quiet mem unclaimed ?_ ?_
        · intro k hk
          change k ∈ v.calls at hk
          rcases step_calls sound.world.calls next with
            ⟨call, request, now', c, same, claims, -, calls, -⟩ | less
          · obtain ⟨rfl, rfl, rfl, -⟩ := Staging.Event.claim.inj same
            rw [calls] at hk
            rcases List.mem_append.mp hk with old | new
            · exact .inl old
            · obtain rfl := List.mem_singleton.mp new
              exact .inr ⟨rfl, Table.lookup_key claims.found, rfl⟩
          · obtain ⟨j, old, move⟩ := less.moves k hk
            cases move
            exact .inl old
        · cases acknowledged
          · exact .inr (told.2.persist persists)
          · exact told.2.persist persists
    · simp at h
  · simp at h

/-! ### Steps of the staging service -/

/-- A call that is still in flight leaves its submission applying. -/
theorem afterStep_alive {env : Env} {e : Staging.Event} {k : Call}
    (h : Staging.step env w e = some w') (mem : k ∈ w'.calls) :
    afterStep w e k.id = .applying := by
  unfold afterStep
  split
  · rename_i id result now o phase
    split
    · rename_i here
      subst here
      obtain ⟨j, found, answered⟩ := Option.map_eq_some_iff.mp phase
      obtain ⟨i, target, feature, actor, p⟩ := j
      obtain rfl : p = .answered o := answered
      obtain rfl : i = k.id := Table.lookup_key found
      simp only [Staging.step, found, Option.some.injEq] at h
      subst h
      cases o with
      | rejected unknown reason receipt =>
        cases result <;>
          exact absurd rfl (Table.mem_remove.mp mem).2
      | accepted v =>
        cases result
        · exact absurd rfl (Table.mem_remove.mp mem).2
        · rfl
        · rfl
    · rfl
  · rename_i id effect now
    split
    · rename_i here
      subst here
      simp only [Staging.step] at h
      split at h
      · obtain rfl := Option.some.inj h
        cases effect <;> exact absurd rfl (Table.mem_remove.mp mem).2
      · simp at h
    · rfl
  · rename_i id
    split
    · rename_i here
      subst here
      simp only [Staging.step] at h
      split at h
      · obtain rfl := Option.some.inj h
        exact absurd rfl (Table.mem_remove.mp mem).2
      · simp at h
    · rfl
  · rfl

/-- Where a call in flight may lead its submission. -/
theorem afterStep_cases (w : World) (e : Staging.Event) (call : Nat) :
    afterStep w e call = .applying ∨ afterStep w e call = .done .broken ∨
      ((afterStep w e call = .returned ∨ afterStep w e call = .failed) ∧
        ∃ k ∈ w.calls, k.id = call) := by
  unfold afterStep
  split
  · rename_i id result now o phase
    obtain ⟨k, found, -⟩ := Option.map_eq_some_iff.mp phase
    have held : ∃ k ∈ w.calls, k.id = call := ⟨k, Table.lookup_mem found, Table.lookup_key found⟩
    split
    · cases o <;> cases result <;> simp [held]
    · simp
  · split <;> simp
  · split <;> simp
  · simp

/-- The submission after a step of the staging service. -/
def carried (w : World) (e : Staging.Event) (s : Submission) : Submission :=
  if s.stage = .applying then s.to (afterStep w e s.call) else s

theorem carried_id (w : World) (e : Staging.Event) (s : Submission) : (carried w e s).id = s.id := by
  unfold carried
  split <;> rfl

theorem Sound.carried_told (sound : Sound set d₀ es d) {e : Staging.Event}
    (persists : Persists d.world w') {s : Submission} (mem : s ∈ d.submissions)
    (quiet : (Event.staging e).invokedBy s.id = false ∨ s.stage = .applying) :
    Told set d₀ (es ++ [.staging e]) w' (carried d.world e s) := by
  have told := sound.told s mem
  unfold carried
  split
  · rename_i applying
    simp only [Told, applying] at told
    have agreed := told.persist persists
    rcases afterStep_cases d.world e s.call with same | same | ⟨same, k, hk, named⟩
    · rw [same]
      exact agreed
    · rw [same]
      exact .inr agreed
    · -- the call that ends had claimed the row
      obtain ⟨s', known, name, -, target⟩ := sound.held k hk (by simp [named, Submission.call])
      obtain rfl : s' = s := sound.ids.eq known mem (by
        simp only [named, Submission.call] at name
        simp only [key_submission]
        omega)
      obtain ⟨r, stored, id, spent⟩ := sound.world.owned k hk
      have settled : Settled w' s' :=
        Settled.persist ⟨r, stored, id.trans target, spent⟩ persists
      rcases same with same | same <;> rw [same] <;> exact ⟨agreed, settled⟩
  · exact told.persist persists quiet

/-- An invocation under the name of a submission is made by a submission that holds its claim. -/
theorem Sound.invoked (sound : Sound set d₀ es d) {e : Staging.Event} {id : Nat}
    (h : Staging.step set.env d.world e = some w') (own : (Event.staging e).invokedBy id = true) :
    ∃ s ∈ d.submissions, s.id = id ∧ s.stage = .applying := by
  cases e with
  | invoke call x =>
    obtain ⟨k, hk, rfl, -⟩ := step_invoke h
    have name : k.id = 2 * id := by simpa [Event.invokedBy] using own
    obtain ⟨s, known, same, applying, -⟩ := sound.held k hk (by simp [name])
    refine ⟨s, known, ?_, applying⟩
    simp only [Submission.call] at same
    omega
  | _ => simp [Event.invokedBy] at own

theorem Sound.staging (sound : Sound set d₀ es d) (injective : set.Injective) {e : Staging.Event}
    (ok : Derived set d (.staging e)) (h : step set d (.staging e) = some d') :
    Sound set d₀ (es ++ [.staging e]) d' := by
  obtain ⟨consistent, registered, persists⟩ := sound.next injective ok h
  simp only [step] at h
  split at h
  · rename_i other
    obtain ⟨v, next, rfl⟩ := Option.map_eq_some_iff.mp h
    have origin (t : Submission) (mem : t ∈ d.submissions.map (carried d.world e)) :
        ∃ s ∈ d.submissions, t = carried d.world e s := by
      obtain ⟨s, known, rfl⟩ := List.mem_map.mp mem
      exact ⟨s, known, rfl⟩
    refine ⟨consistent, ?_, registered, ?_, ?_, ?_, ?_⟩
    · exact sound.ids.map fun s _ => carried_id d.world e s
    · intro t mem
      obtain ⟨s, known, rfl⟩ := origin t mem
      unfold carried
      split <;> exact sound.keyed s known
    · intro k hk even
      -- a call under an even name is not new
      obtain ⟨j, old, named, target⟩ : ∃ j ∈ d.world.calls, k.id = j.id ∧ k.changeId = j.changeId := by
        rcases step_calls sound.world.calls next with ⟨call, _, _, c, rfl, -, -, calls, -⟩ | less
        · change k ∈ v.calls at hk
          rw [calls] at hk
          rcases List.mem_append.mp hk with old | new
          · exact ⟨k, old, rfl, rfl⟩
          · obtain rfl := List.mem_singleton.mp new
            simp only [foreign, beq_iff_eq] at other
            simp only at even
            omega
        · obtain ⟨j, old, move⟩ := less.moves k hk
          exact ⟨j, old, by cases move <;> rfl, move.changeId⟩
      obtain ⟨s, known, name, applying, own⟩ := sound.held j old (named ▸ even)
      refine ⟨carried d.world e s, List.mem_map_of_mem known, ?_, ?_, ?_⟩
      · rw [named, name, Submission.call, Submission.call, carried_id]
      · rw [carried, if_pos applying, ← name, ← named]
        exact afterStep_alive next hk
      · rw [target, own, carried, if_pos applying]
        rfl
    · intro id some
      by_cases own : (Event.staging e).invokedBy id = true
      · obtain ⟨s, known, rfl, -⟩ := sound.invoked next own
        exact ⟨carried d.world e s, List.mem_map_of_mem known, carried_id ..⟩
      · rw [dispatchesBy_snoc es (by simpa using own)] at some
        obtain ⟨s, known, rfl⟩ := sound.heard id some
        exact ⟨carried d.world e s, List.mem_map_of_mem known, carried_id ..⟩
    · intro t mem
      obtain ⟨s, known, rfl⟩ := origin t mem
      refine sound.carried_told persists known ?_
      by_cases own : (Event.staging e).invokedBy s.id = true
      · obtain ⟨s', known', same, applying⟩ := sound.invoked next own
        obtain rfl := sound.ids.eq known' known same
        exact .inr applying
      · exact .inl (by simpa using own)
  · simp at h

theorem Sound.step (sound : Sound set d₀ es d) (injective : set.Injective)
    (run : Runs (Hypervisor.step set) (Derived set) d₀ es d) (ok : Derived set d e)
    (h : Hypervisor.step set d e = some d') : Sound set d₀ (es ++ [e]) d' := by
  cases e with
  | submit id q => exact sound.submit h
  | insert id now => exact sound.insert injective run h
  | reread id => exact sound.reread h
  | claim id acknowledged now => exact sound.claim injective run h
  | reload id => exact sound.reload run h
  | die id => exact sound.die h
  | staging e => exact sound.staging injective ok h

end FreeSdn.Hypervisor
