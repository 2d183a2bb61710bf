import FreeSdn.Artifact.Marker
import FreeSdn.Lib.Table

/-! The retained operations on agent releases (`services/agent_release_cleanup.py`): when a row of the
journal is consistent, and what cleanup its decision calls for. -/

namespace FreeSdn.Releases

open FreeSdn.Lib FreeSdn.Artifact
open FreeSdn.Audit (Uuid isHex64)
open FreeSdn.Remote (utf8)

inductive StorageKind
  | owned
  | external
  | legacy
  deriving DecidableEq

inductive Phase
  | reserved
  | prepared
  | decided
  | cleaned
  deriving DecidableEq

/-- `ArtifactUnavailable`, or an `HTTPException`. -/
inductive Refusal
  | unavailable (message : String)
  | http (status : Nat) (message : String)
  /-- An `OSError`, on its way to the owner. -/
  | os
  deriving DecidableEq

/-- `ReleaseOperationRecord`.  Sizes are natural and times are in UTC by their types. -/
structure Operation where
  operationId : Uuid
  formatVersion : Int
  kind : Kind
  releaseId : Uuid
  organizationId : Option Uuid
  requestedBy : Uuid
  storageKind : StorageKind
  artifactId : Option Uuid
  requestBytes : List UInt8
  requestSha256 : String
  expectedSha256 : String
  expectedSize : Nat
  phase : Phase
  decision : Option Choice
  transitionSequence : Int
  createdAt : Stamp
  preparedAt : Option Stamp
  decidedAt : Option Stamp
  cleanedAt : Option Stamp
  lastTransitionBy : Uuid
  deriving DecidableEq

instance : Keyed Operation Uuid := ⟨Operation.operationId⟩

@[simp] theorem key_operationId (r : Operation) : Keyed.key r = r.operationId := rfl

namespace Operation

def owned (r : Operation) : Bool := r.storageKind = .owned

/-- The phases of an operation that is still open. -/
def pending (r : Operation) : Bool := r.phase = .reserved || r.phase = .prepared

def storageAssociated (r : Operation) : Bool :=
  (r.owned == r.artifactId.isSome) && !(r.kind = .publish && r.storageKind = .legacy) &&
    !(r.kind = .publish && r.owned && r.artifactId ≠ some r.operationId)

def sizeLimit (r : Operation) : Nat := if r.owned then 524288000 else 10737418240

def payloadBound (sha256 : List UInt8 → String) (r : Operation) : Bool :=
  1 ≤ r.requestBytes.length && r.requestBytes.length ≤ 65536 &&
    sha256 r.requestBytes = r.requestSha256 && isHex64 r.expectedSha256 && r.expectedSize ≤ r.sizeLimit

/-- The decision that completes an operation of this kind. -/
def completion : Kind → Choice
  | .publish => .published
  | .delete => .deleted

/-- The phase, the decision, the sequence number and the presence of the times agree. -/
def phaseConsistent (r : Operation) : Bool :=
  let prepared := r.preparedAt.isSome
  match r.phase with
  | .reserved => r.transitionSequence = 0 && !prepared && r.decision.isNone && r.decidedAt.isNone &&
      r.cleanedAt.isNone
  | .prepared => r.transitionSequence = 1 && prepared && r.decision.isNone && r.decidedAt.isNone &&
      r.cleanedAt.isNone
  | .decided => r.decision.isSome && r.decidedAt.isSome && r.cleanedAt.isNone &&
      r.transitionSequence = (if prepared then 2 else 1) && (prepared || r.decision = some .cancelled)
  | .cleaned => (r.decision = some .deleted || r.decision = some .cancelled) && r.decidedAt.isSome &&
      r.cleanedAt.isSome && r.transitionSequence = (if prepared then 3 else 2) &&
      (prepared || r.decision = some .cancelled)

/-- The times that are set, in the order of the phases. -/
def times (r : Operation) : List Stamp :=
  r.createdAt :: r.preparedAt.toList ++ r.decidedAt.toList ++ r.cleanedAt.toList

def decisionAllowed (r : Operation) : Bool :=
  r.decision ∈ [none, some .cancelled, some (completion r.kind)]

end Operation

/-- An `ArtifactUnavailable` that the store raises. -/
def fromStore : Except String α → Except Refusal α
  | .ok a => .ok a
  | .error message => .error (.unavailable message)

section
variable (sha256 : List UInt8 → String)

/-- `_record`. -/
def record (r : Operation) : Except Refusal Operation := do
  require (r.formatVersion = 1) (.unavailable "Unsupported release operation format")
  require ([r.operationId, r.releaseId, r.requestedBy, r.lastTransitionBy].all (!isNil ·))
    (.unavailable "Invalid retained operation identity")
  require ((r.organizationId.toList ++ r.artifactId.toList).all (!isNil ·))
    (.unavailable "Invalid retained operation association")
  require r.storageAssociated (.unavailable "Invalid retained storage association")
  require (r.payloadBound sha256)
    (.unavailable "Invalid retained release request or payload binding")
  require r.decisionAllowed (.unavailable "Invalid retained action and decision")
  require (r.phaseConsistent && decide (r.times.Pairwise (· ≤ ·)))
    (.unavailable "Retained release phase is inconsistent")
  return r

/-- The row passes `_record`. -/
def Accepted (r : Operation) : Prop := record sha256 r = .ok r

end

section
variable {sha256 : List UInt8 → String} {r : Operation}

/-- `_record` returns the row that it checks. -/
theorem record_ok {q : Operation} (h : record sha256 r = .ok q) : q = r ∧ Accepted sha256 r := by
  suffices same : q = r from ⟨same, by rw [Accepted, h, same]⟩
  unfold record at h
  iterate 7 obtain ⟨-, h⟩ := require_bind h
  exact (Except.ok.inj h).symm

/-- What a consistent row says. -/
theorem Accepted.facts (h : Accepted sha256 r) :
    r.storageAssociated = true ∧ r.payloadBound sha256 = true ∧ r.decisionAllowed = true ∧
      r.phaseConsistent = true := by
  unfold Accepted record at h
  iterate 3 obtain ⟨-, h⟩ := require_bind h
  obtain ⟨storage, h⟩ := require_bind h
  obtain ⟨payload, h⟩ := require_bind h
  obtain ⟨decision, h⟩ := require_bind h
  obtain ⟨phase, -⟩ := require_bind h
  exact ⟨storage, payload, decision, (Bool.and_eq_true_iff.mp phase).1⟩

end

/-! ### The cleanup plan -/

inductive Outcome
  | preserveLive
  | noOwnedFile
  | retainUnverified
  | retireOwned
  deriving DecidableEq

/-- `ReleaseCleanupPlan`. -/
structure Plan where
  outcome : Outcome
  operationId : Uuid
  decision : Option CleanupDecision
  deriving DecidableEq

/-- The fields by which a cleanup and a publication are about the same artifact. -/
def Operation.target (r : Operation) : Uuid × Option Uuid × Option Uuid × String × Nat :=
  (r.releaseId, r.organizationId, r.artifactId, r.expectedSha256, r.expectedSize)

/-- The intent of an owned publication. -/
def Operation.intent (original : Operation) : Intent where
  -- An owned publication has an artifact; another one never gets here.
  artifactId := original.artifactId.getD original.operationId
  publishOperationId := original.operationId
  releaseId := original.releaseId
  requestSha256 := original.requestSha256
  payloadSha256 := original.expectedSha256
  size := original.expectedSize

/-- The text that binds a cleanup to its decision.  Neither the phase nor the time of the cleanup is in
it. -/
def Operation.binding (r original : Operation) (intentSha256 : String) : Dict :=
  [("decided_at", .str (String.ofList (r.decidedAt.elim [] Stamp.isoformat))),
   ("decision", r.decision.elim .null fun c => .str c.text),
   ("decision_sequence", .int (if r.preparedAt.isSome then 2 else 1)), ("format", .int 1),
   ("intent_sha256", .str intentSha256), ("kind", .str r.kind.text),
   ("operation_id", .str r.operationId.text),
   ("organization_id", r.organizationId.elim .null fun id => .str id.text),
   ("publication_requested_by", .str original.requestedBy.text),
   ("request_sha256", .str r.requestSha256), ("requested_by", .str r.requestedBy.text)]

/-- The original publication belongs to the operation. -/
def Operation.precedes (original r : Operation) : Bool :=
  match r.kind with
  | .publish => original = r
  | .delete => original.phase = .decided && original.decision = some .published &&
      original.operationId ≠ r.operationId

def predecessorRefusal : Kind → String
  | .publish => "Cancellation differs from retained publication"
  | .delete => "Deletion has no retained published predecessor"

section
variable (sha256 : List UInt8 → String)

/-- The publication, or the operation itself. -/
def originalPublication (r : Operation) : Option Operation → Except Refusal Operation
  | some p => record sha256 p
  | none => .ok r

/-- The decision to retire the artifact of an owned operation. -/
def retireOwned (r : Operation) (choice : Choice) (publication : Option Operation) :
    Except Refusal CleanupDecision := do
  let original ← originalPublication sha256 r publication
  require (original.kind = .publish && original.owned)
    (.unavailable "Original owned publication is unavailable")
  require (original.target = r.target) (.unavailable "Cleanup targets another publication")
  require (original.precedes r) (.unavailable (predecessorRefusal r.kind))
  let intent := original.intent
  let intentBytes ← fromStore intent.encoded
  let digest := sha256 (utf8 (Json.dumps (.obj (r.binding original (sha256 intentBytes)))))
  let decision : CleanupDecision := ⟨intent, r.operationId, r.kind, choice, digest⟩
  let _ ← fromStore (decision.encoded sha256)
  return decision

/-- `plan_release_cleanup`. -/
def planReleaseCleanup (operation : Operation) (publication : Option Operation)
    (liveReferencePresent : Bool) : Except Refusal Plan := do
  let r ← record sha256 operation
  let undecided := Refusal.unavailable "Operation has no confirmed cleanup decision"
  require (r.phase = .decided || r.phase = .cleaned) undecided
  let choice ← orRaise r.decision undecided
  require (choice ≠ .published) undecided
  if r.kind = .delete ∧ choice = .cancelled then
    return ⟨.preserveLive, r.operationId, none⟩
  require (!liveReferencePresent) (.unavailable "A live release still references this artifact")
  match r.storageKind with
  | .external => return ⟨.noOwnedFile, r.operationId, none⟩
  | .legacy => return ⟨.retainUnverified, r.operationId, none⟩
  | .owned =>
    let decision ← retireOwned sha256 r choice publication
    return ⟨.retireOwned, r.operationId, some decision⟩

end

section
variable {sha256 : List UInt8 → String} {r original : Operation} {publication : Option Operation}

/-- What a decision to retire an artifact rests on. -/
structure Retires (sha256 : List UInt8 → String) (r original : Operation)
    (publication : Option Operation) (c : CleanupDecision) : Prop where
  accepted : Accepted sha256 original
  source : publication = some original ∨ (publication = none ∧ original = r)
  kind : original.kind = .publish
  owned : original.storageKind = .owned
  target : original.target = r.target
  precedes : original.precedes r = true
  intent : c.intent = original.intent
  operationId : c.operationId = r.operationId

theorem retireOwned_ok {choice : Choice} {c : CleanupDecision} (accepted : Accepted sha256 r)
    (h : retireOwned sha256 r choice publication = .ok c) :
    ∃ original, Retires sha256 r original publication c := by
  obtain ⟨original, found, h⟩ := bind_ok h
  obtain ⟨owned, h⟩ := require_bind h
  obtain ⟨target, h⟩ := require_bind h
  obtain ⟨precedes, h⟩ := require_bind h
  obtain ⟨_, -, h⟩ := bind_ok h
  obtain ⟨_, -, h⟩ := bind_ok h
  cases h
  obtain ⟨kind, owned⟩ := Bool.and_eq_true_iff.mp owned
  have source : Accepted sha256 original ∧
      (publication = some original ∨ (publication = none ∧ original = r)) := by
    cases publication with
    | none =>
      obtain rfl : r = original := Except.ok.inj found
      exact ⟨accepted, .inr ⟨rfl, rfl⟩⟩
    | some p =>
      obtain ⟨rfl, good⟩ := record_ok found
      exact ⟨good, .inl rfl⟩
  exact ⟨original, source.1, source.2, of_decide_eq_true kind, of_decide_eq_true owned,
    of_decide_eq_true target, precedes, rfl, rfl⟩

/-- The artifact of the intent is that of the operation. -/
theorem Retires.artifact {c : CleanupDecision} (h : Retires sha256 r original publication c) :
    r.artifactId = some c.intent.artifactId ∧ original.operationId = c.intent.artifactId := by
  have storage := h.accepted.facts.1
  have same : original.artifactId = r.artifactId := congrArg (·.2.2.1) h.target
  rw [h.intent, ← same]
  simp only [Operation.storageAssociated, Operation.owned, h.kind, h.owned] at storage
  have own : original.artifactId = some original.operationId := by
    simpa using (Bool.and_eq_true_iff.mp storage).2
  simp [Operation.intent, own]

/-- The cases of a cleanup plan. -/
theorem plan_ok {live : Bool} {plan : Plan}
    (h : planReleaseCleanup sha256 r publication live = .ok plan) :
    (r.kind = .delete ∧ r.decision = some .cancelled ∧ plan.outcome ≠ .retireOwned) ∨
    (r.storageKind ≠ .owned ∧ plan.outcome ≠ .retireOwned) ∨
    (live = false ∧ plan.outcome = .retireOwned ∧ ∃ c original, plan.decision = some c ∧
      Retires sha256 r original publication c) := by
  obtain ⟨q, recorded, rest⟩ := bind_ok h
  obtain ⟨rfl, accepted⟩ := record_ok recorded
  obtain ⟨-, rest⟩ := require_bind rest
  obtain ⟨choice, chosen, rest⟩ := bind_ok rest
  obtain ⟨-, h⟩ := require_bind rest
  split at h
  · next cancelled =>
    cases h
    refine .inl ⟨cancelled.1, ?_, by simp⟩
    rw [orRaise_ok chosen, cancelled.2]
  · obtain ⟨absent, h⟩ := require_bind h
    cases storage : q.storageKind with
    | external =>
      rw [storage] at h
      cases h
      exact .inr (.inl ⟨by simp, by simp⟩)
    | legacy =>
      rw [storage] at h
      cases h
      exact .inr (.inl ⟨by simp, by simp⟩)
    | owned =>
      rw [storage] at h
      obtain ⟨c, retired, returned⟩ := bind_ok h
      cases returned
      obtain ⟨original, retires⟩ := retireOwned_ok accepted retired
      exact .inr (.inr ⟨by simpa using absent, rfl, c, original, rfl, retires⟩)

end

end FreeSdn.Releases
