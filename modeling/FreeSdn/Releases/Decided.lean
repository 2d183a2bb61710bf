import FreeSdn.Releases.Lifecycle

/-! What the journal says about the payload of an artifact: whether it is due, whether it is decided
against, and whether its cleanup is recorded, and how the transactions change that. -/

namespace FreeSdn.Releases

open FreeSdn.Lib FreeSdn.Artifact
open FreeSdn.Audit (Uuid)

variable {d : Deployment} {w : Session} {s t : Db} {row p r : Operation} {a : Uuid} {e : Event}

/-! ### Payloads that are due -/

/-- The payload of an owned publication is due from its preparation on: until the publication is
cancelled, and once it is published while the release is there. -/
def Due (s : Db) (p : Operation) : Prop :=
  p ∈ s.operations ∧ p.kind = .publish ∧ p.storageKind = .owned ∧
    (p.phase = .prepared ∨ (p.decision = some .published ∧ s.hasRelease p.releaseId = true))

/-- The publication of the artifact is cancelled, or a deletion of its release is decided. -/
def Dead (s : Db) (a : Uuid) : Prop :=
  ∃ p ∈ s.operations, p.kind = .publish ∧ p.storageKind = .owned ∧ p.operationId = a ∧
    (p.decision = some .cancelled ∨ Completed s.operations .delete .deleted p.releaseId)

/-- The removal of an owned payload is recorded. -/
def Cleaned (s : Db) (r : Operation) (a : Uuid) : Prop :=
  r ∈ s.operations ∧ r.phase = .cleaned ∧ r.storageKind = .owned ∧ r.artifactId = some a ∧
    (r.kind = .delete → r.decision = some .deleted)

theorem Accepted.artifact (accepted : Accepted d.sha256 r) (kind : r.kind = .publish)
    (owned : r.storageKind = .owned) : r.artifactId = some r.operationId := by
  have storage := accepted.facts.1
  simp only [Operation.storageAssociated, Operation.owned, kind, owned] at storage
  simpa using (Bool.and_eq_true_iff.mp storage).2

theorem Accepted.prepared (accepted : Accepted d.sha256 r) (phase : r.phase = .prepared) :
    r.decision = none :=
  accepted.undecided (by simp [Operation.pending, phase])

/-- An artifact that is decided against is not due. -/
theorem Lifecycle.not_due (life : Lifecycle d s) (dead : Dead s a) (due : Due s p) :
    p.operationId ≠ a := by
  rintro rfl
  obtain ⟨q, mem, kind, -, same, against⟩ := dead
  obtain ⟨here, -, -, still⟩ := due
  obtain rfl : q = p := life.unique.eq mem here same
  have accepted := life.recorded q mem
  rcases against with cancelled | completed
  · rcases still with phase | ⟨published, -⟩
    · cases cancelled.symm.trans (accepted.prepared phase)
    · cases cancelled.symm.trans published
  · have gone := (life.removed q.releaseId).mpr completed
    rcases still with phase | ⟨-, live⟩
    · obtain ⟨b, there, publish, release, published⟩ := (life.published q.releaseId).mp (life.order _ gone)
      obtain rfl := life.single b there q mem publish kind release
      cases published.symm.trans (accepted.prepared phase)
    · exact ((life.present q.releaseId).mp (mem_ids.mpr live)).2 gone

/-- A decided row keeps its identity and its decision. -/
theorem Lifecycle.keeps (life : Lifecycle d s) (moves : Moves d s e t) (mem : r ∈ s.operations) :
    ∃ r' ∈ t.operations, r'.identity = r.identity ∧ (r.decision ≠ none → r'.decision = r.decision) := by
  have advanced {row : Operation} {f : Operation → Operation} (advances : Advances d s row f)
      (keep : row.decision ≠ none → (f row).decision = row.decision) :
      ∃ r' ∈ Table.update s.operations row.operationId f, r'.identity = r.identity ∧
        (r.decision ≠ none → r'.decision = r.decision) := by
    rcases (advances.mem_before life.unique).mp mem with rfl | other
    · exact ⟨f r, (advances.mem life.unique).mpr (.inl rfl), advances.same r, keep⟩
    · exact ⟨r, (advances.mem life.unique).mpr (.inr other), rfl, fun _ => rfl⟩
  cases moves with
  | same => exact ⟨r, mem, rfl, fun _ => rfl⟩
  | reserve => exact ⟨r, List.mem_append_left _ mem, rfl, fun _ => rfl⟩
  | reserveDeletion => exact ⟨r, List.mem_append_left _ mem, rfl, fun _ => rfl⟩
  | prepare advances pending => exact advanced advances fun decided => absurd pending decided
  | cancel advances pending => exact advanced advances fun decided => absurd pending decided
  | publish advances pending => exact advanced advances fun decided => absurd pending decided
  | delete advances pending => exact advanced advances fun decided => absurd pending decided
  | clean advances _ _ next => exact advanced advances fun _ => next.1
  | promote => exact ⟨r, mem, rfl, fun _ => rfl⟩

theorem Lifecycle.completed (life : Lifecycle d s) (moves : Moves d s e t) {kind : Kind} {choice : Choice}
    {id : Uuid} (completed : Completed s.operations kind choice id) :
    Completed t.operations kind choice id := by
  obtain ⟨r, mem, rfl, rfl, decision⟩ := completed
  obtain ⟨r', there, same, keep⟩ := life.keeps moves mem
  obtain ⟨-, kind, release, -⟩ := Operation.of_identity same
  exact ⟨r', there, kind, release, (keep (by simp [decision])).trans decision⟩

/-- What is decided stays decided. -/
theorem Lifecycle.dead (life : Lifecycle d s) (moves : Moves d s e t) (dead : Dead s a) : Dead t a := by
  obtain ⟨p, mem, publish, owned, rfl, against⟩ := dead
  obtain ⟨p', there, same, keep⟩ := life.keeps moves mem
  obtain ⟨id, kind, release, storage, -⟩ := Operation.of_identity same
  refine ⟨p', there, kind.trans publish, storage.trans owned, id, ?_⟩
  rcases against with cancelled | completed
  · exact .inl ((keep (by simp [cancelled])).trans cancelled)
  · exact .inr (release ▸ life.completed moves completed)

/-- A plan with a decision retires, and not for a deletion that is cancelled. -/
theorem plan_decision {publication : Option Operation} {live : Bool} {plan : Plan} {c : CleanupDecision}
    (planned : planReleaseCleanup d.sha256 r publication live = .ok plan)
    (decided : plan.decision = some c) :
    plan.outcome = .retireOwned ∧ ¬(r.kind = .delete ∧ r.decision = some .cancelled) := by
  obtain ⟨q, recorded, rest⟩ := bind_ok planned
  obtain ⟨rfl, -⟩ := record_ok recorded
  obtain ⟨-, rest⟩ := require_bind rest
  obtain ⟨choice, chosen, rest⟩ := bind_ok rest
  obtain ⟨-, h⟩ := require_bind rest
  have chosen : q.decision = some choice := orRaise_ok chosen
  split at h
  · cases h
    cases decided
  · next other =>
    obtain ⟨-, h⟩ := require_bind h
    split at h
    · cases h
      cases decided
    · cases h
      cases decided
    · obtain ⟨_, -, returned⟩ := bind_ok h
      cases returned
      refine ⟨rfl, ?_⟩
      rw [chosen]
      exact fun cancelled => other ⟨cancelled.1, Option.some.inj cancelled.2⟩

/-- A cleanup that removes a payload is planned against a decision. -/
theorem inspectDb_dead {q : CleanupRequest} {plan : Plan} {c : CleanupDecision}
    (inspected : inspectDb d w q s = .ok (row, plan)) (decided : plan.decision = some c) :
    Dead s c.intent.artifactId := by
  obtain ⟨here, accepted, choice, publication, planned, -, fetched⟩ := inspectDb_ok inspected
  obtain ⟨retire, uncancelled⟩ := plan_decision planned decided
  have mem := Table.lookup_mem here
  rcases plan_ok planned with ⟨-, -, other⟩ | ⟨-, other⟩ | ⟨-, -, c', original, same, retires⟩
  · exact absurd retire other
  · exact absurd retire other
  · obtain rfl := Option.some.inj (decided.symm.trans same)
    have there : original ∈ s.operations := by
      rcases retires.source with found | ⟨-, rfl⟩
      · exact fetched original found
      · exact mem
    refine ⟨original, there, retires.kind, retires.owned, retires.artifact.2, ?_⟩
    have release : original.releaseId = row.releaseId := congrArg Prod.fst retires.target
    have precedes := retires.precedes
    cases kind : row.kind with
    | publish =>
      -- The operation is the publication itself, which can only be cancelled.
      simp only [Operation.precedes, kind, decide_eq_true_eq] at precedes
      subst precedes
      refine .inl (choice.resolve_right fun deleted => ?_)
      have allowed := accepted.facts.2.2.1
      simp [Operation.decisionAllowed, deleted, kind, Operation.completion] at allowed
    | delete =>
      have deleted := choice.resolve_left fun cancelled => uncancelled ⟨kind, cancelled⟩
      exact .inr ⟨row, mem, kind, release.symm, deleted⟩

/-! ### What becomes due -/

theorem hasRelease_insert {release : Release} {id : Uuid}
    (live : (s.insertRelease release).hasRelease id = true) : s.hasRelease id = true ∨ id = release.id := by
  rw [← mem_ids] at live ⊢
  have ids : (s.insertRelease release).releases.map Release.id =
      s.releases.map Release.id ++ [release.id] := by simp [Db.insertRelease, makeWay_ids]
  rw [ids] at live
  simpa using live

theorem hasRelease_delete {id gone : Uuid} (live : (s.deleteRelease gone).hasRelease id = true) :
    s.hasRelease id = true := by
  obtain ⟨release, mem, same⟩ := List.any_eq_true.mp live
  exact List.any_eq_true.mpr ⟨release, (Table.mem_remove.mp mem).1, same⟩

/-- What is due after a step was due before, or the step has prepared or published it. -/
theorem Lifecycle.due (life : Lifecycle d s) (moves : Moves d s e t) (due : Due t p) :
    Due s p ∨
      (∃ row f, Advances d s row f ∧ p = f row ∧ row.decision = none ∧
        ((∃ w q receipt, e = ⟨w, .recordPrepared q receipt⟩) ∨ t.inserted ≠ s.inserted)) := by
  obtain ⟨mem, kind, owned, still⟩ := due
  have other {row : Operation} {f : Operation → Operation} (advances : Advances d s row f)
      (mem : p ∈ Table.update s.operations row.operationId f)
      (undue : ¬((f row).phase = .prepared ∨ (f row).decision = some .published)) :
      p ∈ s.operations := by
    rcases (advances.mem life.unique).mp mem with rfl | ⟨old, -⟩
    · exact absurd (still.imp id And.left) undue
    · exact old
  cases moves with
  | same => exact .inl ⟨mem, kind, owned, still⟩
  | reserve _ _ _ _ opens =>
    rcases List.mem_append.mp mem with old | new
    · exact .inl ⟨old, kind, owned, still⟩
    · rw [List.mem_singleton.mp new, opens.phase, opens.decision] at still
      simp at still
  | reserveDeletion _ _ _ opens =>
    rcases List.mem_append.mp mem with old | new
    · exact .inl ⟨old, kind, owned, still⟩
    · rw [List.mem_singleton.mp new, opens.phase, opens.decision] at still
      simp at still
  | @prepare w q receipt row _ f advances pending =>
    rcases (advances.mem life.unique).mp mem with rfl | ⟨old, -⟩
    · exact .inr ⟨row, f, advances, rfl, pending, .inl ⟨w, q, receipt, rfl⟩⟩
    · exact .inl ⟨old, kind, owned, still⟩
  | cancel advances _ next => exact .inl ⟨other advances mem (by simp [next]), kind, owned, still⟩
  | @publish _ row release _ f advances pending publish _ unborn own =>
    rcases (advances.mem life.unique).mp mem with rfl | ⟨old, apart⟩
    · refine .inr ⟨row, f, advances, rfl, pending, .inr ?_⟩
      show s.inserted ++ [release.id] ≠ s.inserted
      simp
    · refine .inl ⟨old, kind, owned, still.imp id (And.imp id fun live => ?_)⟩
      refine (hasRelease_insert live).resolve_right fun same => apart ?_
      rw [life.single p old row (Table.lookup_mem advances.found) kind publish (same.trans own)]
  | delete advances _ deletion next =>
    refine .inl ⟨other advances mem (by simp [next]), kind, owned, ?_⟩
    exact still.imp id (And.imp id hasRelease_delete)
  | clean advances inspected _ next =>
    obtain ⟨-, -, choice, -⟩ := inspectDb_ok inspected
    refine .inl ⟨other advances mem ?_, kind, owned, still⟩
    rcases choice with choice | choice <;> simp [next, choice]
  | promote found =>
    refine .inl ⟨mem, kind, owned, still.imp id (And.imp id fun live => ?_)⟩
    rw [← mem_ids] at live ⊢
    rwa [promote_ids] at live

/-- What is recorded as cleaned was so before, or its retirement has been recorded as ended. -/
theorem Lifecycle.cleaned (life : Lifecycle d s) (moves : Moves d s e t) (cleaned : Cleaned t r a) :
    Cleaned s r a ∨ ∃ w q plan receipt retirement c, e = ⟨w, .recordCleaned q plan receipt retirement⟩ ∧
      plan.outcome = .retireOwned ∧ plan.decision = some c ∧ c.intent.artifactId = a := by
  obtain ⟨mem, phase, owned, artifact, action⟩ := cleaned
  have other {row : Operation} {f : Operation → Operation} (advances : Advances d s row f)
      (mem : r ∈ Table.update s.operations row.operationId f) (open_ : (f row).phase ≠ .cleaned) :
      r ∈ s.operations := by
    rcases (advances.mem life.unique).mp mem with rfl | ⟨old, -⟩
    · exact absurd phase open_
    · exact old
  have appended {row : Operation} (opens : row.Opens) (mem : r ∈ s.operations ++ [row]) :
      r ∈ s.operations := by
    rcases List.mem_append.mp mem with old | new
    · exact old
    · rw [List.mem_singleton.mp new, opens.phase] at phase
      cases phase
  cases moves with
  | same => exact .inl ⟨mem, phase, owned, artifact, action⟩
  | reserve _ _ _ _ opens => exact .inl ⟨appended opens mem, phase, owned, artifact, action⟩
  | reserveDeletion _ _ _ opens => exact .inl ⟨appended opens mem, phase, owned, artifact, action⟩
  | prepare advances _ next =>
    exact .inl ⟨other advances mem (by simp [next]), phase, owned, artifact, action⟩
  | cancel advances _ next =>
    exact .inl ⟨other advances mem (by simp [next]), phase, owned, artifact, action⟩
  | publish advances _ _ next =>
    exact .inl ⟨other advances mem (by simp [next]), phase, owned, artifact, action⟩
  | delete advances _ _ next =>
    exact .inl ⟨other advances mem (by simp [next]), phase, owned, artifact, action⟩
  | @clean w q plan receipt retirement row _ f advances inspected _ next =>
    rcases (advances.mem life.unique).mp mem with rfl | ⟨old, -⟩
    · obtain ⟨-, -, -, publication, planned, -⟩ := inspectDb_ok inspected
      obtain ⟨-, kind, -, storage, target⟩ := Operation.of_identity (advances.same row)
      have same : (f row).artifactId = row.artifactId := congrArg (·.2.2.1) target
      refine .inr ⟨w, q, plan, receipt, retirement, ?_⟩
      rcases plan_ok planned with
        ⟨delete, cancelled, -⟩ | ⟨unowned, -⟩ | ⟨-, retire, c, original, decided, retires⟩
      · have deleted := action (kind.trans delete)
        rw [next.1, cancelled] at deleted
        cases deleted
      · exact absurd (storage ▸ owned) unowned
      · refine ⟨c, rfl, retire, decided, ?_⟩
        exact Option.some.inj (retires.artifact.1.symm.trans (same ▸ artifact))
    · exact .inl ⟨old, phase, owned, artifact, action⟩
  | promote => exact .inl ⟨mem, phase, owned, artifact, action⟩

/-! ### Preparation and publication -/

theorem Operation.intent_of_identity (same : r.identity = p.identity) : r.intent = p.intent := by
  have intents : r.identity.intent = p.identity.intent := congrArg Operation.intent same
  exact intents

/-- A row that is new in a table keeps the key of the one that it replaces. -/
theorem mem_replaced {rows : List Operation} {id : Uuid} {f : Operation → Operation}
    (mem : r ∈ Table.update rows id f) (keeps : ∀ r, (f r).operationId = r.operationId) :
    r ∈ rows ∨ r.operationId = id := by
  obtain ⟨old, there, rfl⟩ := Table.mem_update.mp mem
  by_cases hit : old.operationId = id
  · rw [key_operationId, if_pos hit]
    exact .inr ((keeps old).trans hit)
  · rw [key_operationId, if_neg hit]
    exact .inl there

/-- A row that a step has changed to be due, and that was there before, was due. -/
theorem Lifecycle.due_old (life : Lifecycle d s) {row : Operation} {f : Operation → Operation}
    (advances : Advances d s row f) (changed : p = f row) (pending : row.decision = none)
    (mem : p ∈ s.operations) (due : Due t p) : Due s p := by
  have here := Table.lookup_mem advances.found
  obtain rfl : p = row := life.unique.eq mem here
    (changed ▸ (Operation.of_identity (advances.same row)).1)
  refine ⟨mem, due.2.1, due.2.2.1, .inl (due.2.2.2.resolve_right fun published => ?_)⟩
  cases published.1.symm.trans pending

theorem recordPrepared_binds {q : PublicationRequest} {receipt : Intent} {answer : Operation}
    (life : Lifecycle d s) (done : recordPrepared d w q receipt s = .ok (t, answer)) :
    receipt = q.intent d.sha256 ∧ ∀ r ∈ t.operations, r ∈ s.operations ∨ q.binds d r = true := by
  obtain ⟨own, done⟩ := require_bind done
  refine ⟨of_decide_eq_true own, fun r mem => ?_⟩
  obtain ⟨_, -, done⟩ := bind_ok done
  obtain ⟨row, pending, done⟩ := bind_ok done
  obtain ⟨found, loaded, pending⟩ := orRaise_bind pending
  obtain ⟨-, pending⟩ := require_bind pending
  obtain ⟨-, pending⟩ := require_bind pending
  obtain ⟨_, -, pending⟩ := bind_ok pending
  obtain ⟨-, pending⟩ := require_bind pending
  obtain rfl : found = row := Except.ok.inj pending
  obtain ⟨here, -, binds⟩ := load_some loaded
  split at done
  · cases done
    exact .inl mem
  · obtain ⟨rfl, -, -⟩ := transition_ok done
    rcases (life.unique.mem_update here).mp mem with rfl | ⟨old, -⟩
    · exact .inr binds
    · exact .inl old

/-- A request binds an owned row by its intent. -/
theorem PublicationRequest.binds_intent {q : PublicationRequest} (binds : q.binds d p = true)
    (accepted : Accepted d.sha256 p) (kind : p.kind = .publish) (owned : p.storageKind = .owned) :
    p.intent = q.intent d.sha256 ∧ p.operationId = q.operationId := by
  simp only [PublicationRequest.binds, Bool.and_eq_true, decide_eq_true_eq] at binds
  obtain ⟨⟨⟨⟨⟨⟨⟨⟨-, release⟩, -⟩, storage⟩, artifact⟩, -⟩, request⟩, payload⟩, size⟩ := binds
  have own := accepted.artifact kind owned
  have bound : some p.operationId = some q.operationId := by
    rw [← own, artifact, PublicationRequest.artifactId, if_pos (storage ▸ owned)]
  have same := Option.some.inj bound
  refine ⟨?_, same⟩
  simp [Operation.intent, PublicationRequest.intent, own, same, release, request, payload, size]

theorem recordPrepared_due {q : PublicationRequest} {receipt : Intent} {answer : Operation}
    (life : Lifecycle d s) (done : recordPrepared d w q receipt s = .ok (t, answer)) (due : Due t p) :
    Due s p ∨ (p.intent = receipt ∧ p.operationId = receipt.artifactId) := by
  have moves := recordPrepared_moves done
  rcases life.due moves due with old | ⟨row, f, advances, changed, pending, -⟩
  · exact .inl old
  · obtain ⟨rfl, binds⟩ := recordPrepared_binds life done
    rcases binds p due.1 with old | binds
    · exact .inl (life.due_old advances changed pending old due)
    · obtain ⟨intent, id⟩ := PublicationRequest.binds_intent binds ((life.moves moves).recorded p due.1)
        due.2.1 due.2.2.1
      exact .inr ⟨intent, id⟩

theorem publish_rows {q : PublicationRequest} {signature : Option String} {identity : Option Uuid}
    {artifact : Option Intent} {answer : PublicationResult}
    (done : publish d w q signature identity artifact s = .ok (t, answer)) :
    t = s ∨ ∃ row ∈ s.operations, (row.storageKind = .owned → row.phase = .prepared) ∧
      ∀ r ∈ t.operations, r ∈ s.operations ∨ r.operationId = row.operationId := by
  obtain ⟨_, -, done⟩ := bind_ok done
  obtain ⟨⟨row, release⟩, state, done⟩ := bind_ok done
  obtain ⟨here, -⟩ := publicationState_ok state
  dsimp only at done
  split at done
  · cases done
    exact .inl rfl
  · obtain ⟨⟨⟩, checked, done⟩ := bind_ok done
    obtain ⟨_, -, done⟩ := bind_ok done
    obtain ⟨⟨v, next⟩, prepared, done⟩ := bind_ok done
    obtain ⟨f, rfl, same, tables⟩ := prepareFirst_ok prepared
    obtain ⟨⟨x, _⟩, decided, returned⟩ := bind_ok done
    obtain ⟨rfl, -, -⟩ := transition_ok decided
    cases returned
    refine .inr ⟨row, Table.lookup_mem here, fun owned => ?_, fun r mem => ?_⟩
    · unfold checkArtifact at checked
      rw [if_pos (show row.owned = true by simp [Operation.owned, owned])] at checked
      have checked := require_ok checked
      simp only [Bool.and_eq_true, decide_eq_true_eq] at checked
      exact checked.1
    · have keeps (r : Operation) : (f r).operationId = r.operationId := (Operation.of_identity (same r)).1
      have mem : r ∈ Table.update v.operations (f row).operationId
          (Operation.decide .published 2 w.actor (d.clock (v.readings + 1))) := mem
      rcases mem_replaced mem (fun _ => rfl) with old | new
      · rw [tables] at old
        exact mem_replaced old keeps
      · exact .inr (new.trans (keeps row))

theorem publish_due {q : PublicationRequest} {signature : Option String} {identity : Option Uuid}
    {artifact : Option Intent} {answer : PublicationResult} (life : Lifecycle d s)
    (done : publish d w q signature identity artifact s = .ok (t, answer)) (due : Due t p) :
    ∃ old, Due s old ∧ p.identity = old.identity := by
  rcases life.due (publish_moves done) due with old | ⟨row, f, advances, changed, pending, -⟩
  · exact ⟨p, old, rfl⟩
  · obtain rfl | ⟨before, there, prepared, rows⟩ := publish_rows done
    · exact ⟨p, due, rfl⟩
    · rcases rows p due.1 with old | same
      · exact ⟨p, life.due_old advances changed pending old due, rfl⟩
      · have here := Table.lookup_mem advances.found
        obtain ⟨id, kind, -, storage, -⟩ := Operation.of_identity (advances.same row)
        subst changed
        obtain rfl : before = row := life.unique.eq there here (same.symm.trans id)
        refine ⟨before, ⟨here, kind.symm.trans due.2.1, storage.symm.trans due.2.2.1, .inl ?_⟩,
          advances.same before⟩
        exact prepared (storage.symm.trans due.2.2.1)

end FreeSdn.Releases
