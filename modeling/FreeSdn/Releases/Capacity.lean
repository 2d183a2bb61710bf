import FreeSdn.Releases.Lifecycle

/-! Declared storage and retained history (`services/agent_release_capacity.py`).  The charge is not
stored but computed from both tables; no transaction but a reservation raises it, and a publication
leaves the charge only when its cleanup is recorded with the receipt for its artifact. -/

namespace FreeSdn.Releases

open FreeSdn.Lib FreeSdn.Artifact
open FreeSdn.Audit (Uuid)

variable {d : Deployment} {s t : Db} {row r : Operation} {f g : Operation → Operation}

/-! ### Changes of rows in place -/

/-- What a step that inserts no row does to the rows that are there. -/
structure Evolves (s t : Db) (g : Operation → Operation) : Prop where
  rows : t.operations = s.operations.map g
  same : ∀ r, (g r).identity = r.identity
  decision : ∀ r ∈ s.operations, r.decision ≠ none → (g r).decision = r.decision
  cleaned : ∀ r ∈ s.operations, r.phase = .cleaned → (g r).phase = .cleaned
  absent : ∀ r ∈ s.operations, r.kind = .publish → r.decision = some .published →
    s.hasRelease r.releaseId = false → t.hasRelease r.releaseId = false

theorem Evolves.mem (evolves : Evolves s t g) (mem : r ∈ s.operations) : g r ∈ t.operations := by
  rw [evolves.rows]
  exact List.mem_map_of_mem mem

theorem Evolves.refl : Evolves s s id :=
  ⟨by simp, fun _ => rfl, fun _ _ _ => rfl, fun _ _ h => h, fun _ _ _ _ h => h⟩

/-- A transition of one row, where the release of a publication does not come back. -/
theorem Evolves.advance (life : Lifecycle d s) (advances : Advances d s row f)
    (decision : row.decision ≠ none → (f row).decision = row.decision)
    (cleaned : row.phase = .cleaned → (f row).phase = .cleaned) {u : Db}
    (operations : u.operations = s.operations)
    (absent : ∀ r ∈ s.operations, r.kind = .publish → r.decision = some .published →
      s.hasRelease r.releaseId = false → u.hasRelease r.releaseId = false) (n : Nat) :
    Evolves s (u.advance row f n) fun r => if r.operationId = row.operationId then f r else r where
  rows := by
    rw [Db.advance, operations]
    rfl
  same r := by
    split_ifs
    · exact advances.same r
    · rfl
  decision r mem decided := by
    split_ifs with hit
    · obtain rfl := life.unique.eq mem (Table.lookup_mem advances.found) hit
      exact decision decided
    · rfl
  cleaned r mem phase := by
    split_ifs with hit
    · obtain rfl := life.unique.eq mem (Table.lookup_mem advances.found) hit
      exact cleaned phase
    · exact phase
  absent := absent

/-- A row that is still open is not cleaned. -/
theorem Accepted.open_phase (accepted : Accepted d.sha256 row) (pending : row.decision = none) :
    row.phase ≠ .cleaned := by
  intro phase
  have consistent := accepted.facts.2.2.2
  simp [Operation.phaseConsistent, phase, pending] at consistent

/-- Every step inserts a row, or changes rows in place. -/
inductive Effect (d : Deployment) (s : Db) (e : Event) (t : Db) : Prop
  | insert (row : Operation) (opens : row.Opens)
      (fresh : Table.lookup s.operations row.operationId = none)
      (operations : t.operations = s.operations ++ [row]) (releases : t.releases = s.releases)
      (history : s.historyLeft d row.organizationId = true)
      (bytes : row.kind = .publish → row.storageKind = .owned →
        s.bytesLeft d row.organizationId row.expectedSize = true)
  | keep (g : Operation → Operation) (evolves : Evolves s t g)
      (still : ∀ r ∈ s.operations, (g r).phase = .cleaned → r.phase = .cleaned)
  | clean (row : Operation) (f : Operation → Operation) (w : Session) (q : CleanupRequest) (plan : Plan)
      (receipt : Option CleanedArtifact) (retirement : Option String)
      (event : e = ⟨w, .recordCleaned q plan receipt retirement⟩) (advances : Advances d s row f)
      (evolves : Evolves s t fun r => if r.operationId = row.operationId then f r else r)
      (inspected : inspectDb d w q s = .ok (row, plan))
      (receipted : checkReceipt row plan receipt retirement = .ok ())

theorem advance_still (life : Lifecycle d s) (advances : Advances d s row f)
    (phase : (f row).phase ≠ .cleaned) (mem : r ∈ s.operations)
    (h : (if r.operationId = row.operationId then f r else r).phase = .cleaned) :
    r.phase = .cleaned := by
  split_ifs at h with hit
  · obtain rfl := life.unique.eq mem (Table.lookup_mem advances.found) hit
    exact absurd h phase
  · exact h

/-- The transition of a row that is still open, to a phase before the last. -/
theorem Effect.opened (life : Lifecycle d s) (advances : Advances d s row f)
    (pending : row.decision = none) (phase : (f row).phase ≠ .cleaned) {u : Db}
    (operations : u.operations = s.operations)
    (absent : ∀ r ∈ s.operations, r.kind = .publish → r.decision = some .published →
      s.hasRelease r.releaseId = false → u.hasRelease r.releaseId = false) (n : Nat) (e : Event) :
    Effect d s e (u.advance row f n) := by
  have evolves := Evolves.advance life advances (fun yes => absurd pending yes)
    (fun cleaned => absurd cleaned (advances.before.open_phase pending)) operations absent n
  exact .keep _ evolves fun r mem => advance_still life advances phase mem

theorem Effect.of_moves (life : Lifecycle d s) {e : Event} (moves : Moves d s e t) :
    Effect d s e t := by
  cases moves with
  | same => exact .keep id .refl fun _ _ h => h
  | reserve fresh _ _ _ opens _ history bytes =>
    exact .insert _ opens fresh rfl rfl history fun _ owned => bytes owned
  | reserveDeletion fresh _ kind opens _ history =>
    refine .insert _ opens fresh rfl rfl history fun publish => ?_
    rw [kind] at publish
    cases publish
  | prepare advances pending next =>
    exact .opened life advances pending (by simp [next.2]) rfl (fun _ _ _ _ h => h) _ _
  | cancel advances pending next =>
    exact .opened life advances pending (by simp [next.2]) rfl (fun _ _ _ _ h => h) _ _
  | @publish _ row release n f advances pending kind next unborn id =>
    refine .opened (u := s.insertRelease release) life advances pending (by simp [next.2]) rfl
      (fun r mem publish published absent => ?_) _ _
    -- The release that appears is not that of a publication that is already decided.
    have other : r.releaseId ≠ row.releaseId := by
      intro same
      have eq := life.single r mem row (Table.lookup_mem advances.found) publish kind same
      rw [eq, pending] at published
      cases published
    have ids : (s.insertRelease release).releases.map Release.id =
        s.releases.map Release.id ++ [row.releaseId] := by
      simp [Db.insertRelease, makeWay_ids, id]
    rw [← Bool.not_eq_true, ← mem_ids] at absent ⊢
    rw [ids, List.mem_append, List.mem_singleton, not_or]
    exact ⟨absent, other⟩
  | @delete _ row n f advances pending kind next live =>
    refine .opened (u := s.deleteRelease row.releaseId) life advances pending (by simp [next.2]) rfl
      (fun r mem _ _ absent => ?_) _ _
    rw [← Bool.not_eq_true, ← mem_ids] at absent ⊢
    intro back
    obtain ⟨release, here, id⟩ := List.mem_map.mp back
    exact absent (List.mem_map.mpr ⟨release, List.mem_of_mem_filter here, id⟩)
  | clean advances inspected receipted next =>
    exact .clean _ _ _ _ _ _ _ rfl advances (.advance life advances (fun _ => next.1)
      (fun _ => next.2) rfl (fun _ _ _ _ h => h) _) inspected receipted
  | @promote w snapshot release identity found =>
    refine .keep id ⟨by simp, fun _ => rfl, fun _ _ _ => rfl, fun _ _ h => h,
      fun r _ _ _ absent => ?_⟩ fun _ _ h => h
    rw [← Bool.not_eq_true, ← mem_ids] at absent ⊢
    rw [promote_ids]
    exact absent

/-! ### The charge -/

/-- Which rows are charged, spelled out. -/
theorem charged_iff : s.charged r = true ↔
    r.kind = .publish ∧ r.storageKind = .owned ∧ r.phase ≠ .cleaned ∧ s.deletedAndCleaned r = false := by
  simp [Db.charged, and_assoc]

theorem deletedAndCleaned_iff : s.deletedAndCleaned r = true ↔
    r.phase = .decided ∧ r.decision = some .published ∧ s.hasRelease r.releaseId = false ∧
      ∃ x ∈ s.operations, x.kind = .delete ∧ x.storageKind = .owned ∧ x.phase = .cleaned ∧
        x.decision = some .deleted ∧ x.target = r.target := by
  simp [Db.deletedAndCleaned, and_assoc]

/-- A publication that was deleted and cleaned stays so. -/
theorem Evolves.deletedAndCleaned (evolves : Evolves s t g) (after : Lifecycle d t)
    (mem : r ∈ s.operations) (kind : r.kind = .publish) (h : s.deletedAndCleaned r = true) :
    t.deletedAndCleaned (g r) = true := by
  obtain ⟨-, published, absent, x, inside, delete, owned, cleaned, deleted, target⟩ :=
    deletedAndCleaned_iff.mp h
  have decision := evolves.decision r mem (by simp [published])
  rw [published] at decision
  have choice := evolves.decision x inside (by simp [deleted])
  rw [deleted] at choice
  have same := Operation.of_identity (evolves.same r)
  have sameX := Operation.of_identity (evolves.same x)
  refine deletedAndCleaned_iff.mpr ⟨(after.recorded _ (evolves.mem mem)).published decision, decision,
    ?_, g x, evolves.mem inside, ?_, ?_, evolves.cleaned x inside cleaned, choice, ?_⟩
  · rw [same.2.2.1]
    exact evolves.absent r mem kind published absent
  · rw [sameX.2.1, delete]
  · rw [sameX.2.2.2.1, owned]
  · rw [sameX.2.2.2.2, same.2.2.2.2, target]

/-- A charged row was charged before. -/
theorem Evolves.charged (evolves : Evolves s t g) (after : Lifecycle d t) (mem : r ∈ s.operations)
    (h : t.charged (g r) = true) : s.charged r = true := by
  obtain ⟨kind, owned, phase, still⟩ := charged_iff.mp h
  have same := Operation.of_identity (evolves.same r)
  rw [same.2.1] at kind
  rw [same.2.2.2.1] at owned
  refine charged_iff.mpr ⟨kind, owned, fun cleaned => phase (evolves.cleaned r mem cleaned), ?_⟩
  cases gone : s.deletedAndCleaned r with
  | false => rfl
  | true =>
    rw [evolves.deletedAndCleaned after mem kind gone] at still
    cases still

/-- A completed deletion of a publication's artifact means that the publication was deleted. -/
theorem Lifecycle.deletedAndCleaned (life : Lifecycle d s) (mem : r ∈ s.operations)
    (kind : r.kind = .publish) {x : Operation} (inside : x ∈ s.operations) (delete : x.kind = .delete)
    (owned : x.storageKind = .owned) (cleaned : x.phase = .cleaned) (deleted : x.decision = some .deleted)
    (target : x.target = r.target) : s.deletedAndCleaned r = true := by
  have release : x.releaseId = r.releaseId := congrArg (·.1) target
  have gone : r.releaseId ∈ s.deleted := (life.removed _).mpr ⟨x, inside, delete, release, deleted⟩
  obtain ⟨p, here, publish, same, published⟩ := (life.published _).mp (life.order _ gone)
  obtain rfl := life.single p here r mem publish kind same
  refine deletedAndCleaned_iff.mpr ⟨(life.recorded _ mem).published published, published, ?_, x, inside,
    delete, owned, cleaned, deleted, target⟩
  rw [← Bool.not_eq_true, ← mem_ids, life.present]
  exact fun both => both.2 gone

/-- Without a new cleanup, a charged row stays charged. -/
theorem Evolves.stays (evolves : Evolves s t g) (life : Lifecycle d s)
    (still : ∀ r ∈ s.operations, (g r).phase = .cleaned → r.phase = .cleaned) (mem : r ∈ s.operations)
    (h : s.charged r = true) : t.charged (g r) = true := by
  obtain ⟨kind, owned, phase, kept⟩ := charged_iff.mp h
  have same := Operation.of_identity (evolves.same r)
  refine charged_iff.mpr ⟨same.2.1.trans kind, same.2.2.2.1.trans owned,
    fun cleaned => phase (still r mem cleaned), ?_⟩
  cases gone : t.deletedAndCleaned (g r) with
  | false => rfl
  | true =>
    obtain ⟨-, -, -, y, inside, delete, owned, cleaned, deleted, target⟩ :=
      deletedAndCleaned_iff.mp gone
    rw [evolves.rows] at inside
    obtain ⟨x, old, rfl⟩ := List.mem_map.mp inside
    have sameX := Operation.of_identity (evolves.same x)
    -- A cleaned row already had its decision.
    have before := still x old cleaned
    have decided : x.decision ≠ none := fun none =>
      (life.recorded x old).open_phase none before
    rw [evolves.decision x old decided] at deleted
    rw [sameX.2.1] at delete
    rw [sameX.2.2.2.1] at owned
    rw [sameX.2.2.2.2, same.2.2.2.2] at target
    rw [life.deletedAndCleaned mem kind old delete owned before deleted target] at kept
    cases kept

/-- A new row changes the charge of no other. -/
theorem charged_insert (opens : row.Opens) (operations : t.operations = s.operations ++ [row])
    (releases : t.releases = s.releases) (r : Operation) : t.charged r = s.charged r := by
  have new : (row.phase = .cleaned) = False := by simp [opens.phase]
  simp [Db.charged, Db.deletedAndCleaned, Db.hasRelease, operations, releases, new]

/-- A publication whose cleanup is recorded comes with the receipt for its artifact. -/
theorem receipt_artifact {w : Session} {q : CleanupRequest} {plan : Plan}
    {receipt : Option CleanedArtifact} {retirement : Option String}
    (inspected : inspectDb d w q s = .ok (row, plan))
    (receipted : checkReceipt row plan receipt retirement = .ok ()) (owned : row.storageKind = .owned)
    (kind : row.kind = .delete → row.decision = some .deleted) :
    ∃ c, receipt = some c ∧ row.artifactId = some c.artifactId := by
  obtain ⟨-, -, -, original, planned, -⟩ := inspectDb_ok inspected
  rcases plan_ok planned with ⟨delete, cancelled, -⟩ | ⟨other, -⟩ | ⟨-, outcome, e, p, decision, retires⟩
  · rw [kind delete] at cancelled
    cases cancelled
  · exact absurd owned other
  · rw [checkReceipt, if_pos outcome] at receipted
    obtain ⟨c, rfl, fits⟩ := (Option.any_eq_true _ _).mp (require_ok receipted)
    simp only [decision, Option.any_some, Bool.and_eq_true, decide_eq_true_eq] at fits
    exact ⟨c, rfl, by rw [retires.artifact.1, fits.1.1]⟩

/-- A publication leaves the charge only when its cleanup is recorded with a receipt. -/
theorem Effect.leaves (life : Lifecycle d s) (after : Lifecycle d t) {e : Event} (effect : Effect d s e t)
    {p p' : Operation} (mem : p ∈ s.operations) (charged : s.charged p = true)
    (here : p' ∈ t.operations) (same : p'.operationId = p.operationId) (left : t.charged p' = false) :
    ∃ w q plan receipt retirement, e = ⟨w, .recordCleaned q plan (some receipt) retirement⟩ ∧
      p.artifactId = some receipt.artifactId := by
  cases effect with
  | insert row opens fresh operations releases =>
    have old : p ∈ t.operations := by
      rw [operations]
      exact List.mem_append_left _ mem
    obtain rfl := after.unique.eq here old same
    rw [charged_insert opens operations releases, charged] at left
    cases left
  | keep g evolves still =>
    have key := (Operation.of_identity (evolves.same p)).1
    obtain rfl := after.unique.eq here (evolves.mem mem) (same.trans key.symm)
    rw [evolves.stays life still mem charged] at left
    cases left
  | clean row f w q plan receipt retirement event advances evolves inspected receipted =>
    obtain ⟨kind, owned, phase, kept⟩ := charged_iff.mp charged
    have found := Table.lookup_mem advances.found
    suffices artifact : ∃ c, receipt = some c ∧ p.artifactId = some c.artifactId by
      obtain ⟨c, rfl, fits⟩ := artifact
      exact ⟨w, q, plan, c, retirement, event, fits⟩
    by_cases hit : p.operationId = row.operationId
    · obtain rfl := life.unique.eq mem found hit
      refine receipt_artifact inspected receipted owned fun delete => ?_
      rw [kind] at delete
      cases delete
    · have key := (Operation.of_identity (evolves.same p)).1
      have unchanged := after.unique.eq here (evolves.mem mem) (same.trans key.symm)
      simp only [if_neg hit] at unchanged
      subst unchanged
      have gone : t.deletedAndCleaned p' = true := by
        by_contra other
        rw [charged_iff.mpr ⟨kind, owned, phase, by simpa using other⟩] at left
        cases left
      obtain ⟨-, -, -, y, inside, delete, ownedY, cleaned, deleted, target⟩ :=
        deletedAndCleaned_iff.mp gone
      rw [evolves.rows] at inside
      obtain ⟨x, old, rfl⟩ := List.mem_map.mp inside
      by_cases this : x.operationId = row.operationId
      · -- The deletion whose cleanup is recorded is that of the publication.
        obtain rfl := life.unique.eq old found this
        simp only [if_true] at delete ownedY deleted target
        have sameX := Operation.of_identity (advances.same x)
        rw [sameX.2.2.2.1] at ownedY
        rw [sameX.2.2.2.2] at target
        have decided : x.decision = some .deleted := by
          have kept := evolves.decision x old
          simp only [if_true] at kept
          rcases (inspectDb_ok inspected).2.2.1 with cancelled | yes
          · rw [kept (by simp [cancelled]), cancelled] at deleted
            cases deleted
          · exact yes
        obtain ⟨c, receipt, artifact⟩ := receipt_artifact inspected receipted ownedY fun _ => decided
        have artifacts : x.artifactId = p'.artifactId := congrArg (·.2.2.1) target
        exact ⟨c, receipt, artifacts ▸ artifact⟩
      · simp only [if_neg this] at delete ownedY cleaned deleted target
        rw [life.deletedAndCleaned mem kind old delete ownedY cleaned deleted target] at kept
        cases kept

/-! ### The budget -/

/-- Rows that change in place, and of which fewer are counted, sum to no more. -/
theorem sum_filter_map_le {rows : List Operation} {p q : Operation → Bool}
    (size : ∀ r, (g r).expectedSize = r.expectedSize) (fewer : ∀ r ∈ rows, q (g r) = true → p r = true) :
    (((rows.map g).filter q).map Operation.expectedSize).sum ≤
      ((rows.filter p).map Operation.expectedSize).sum := by
  induction rows with
  | nil => simp
  | cons r rows ih =>
    have rest := ih fun r mem => fewer r (List.mem_cons_of_mem _ mem)
    have first := fewer r List.mem_cons_self
    simp only [List.map_cons, List.filter_cons]
    by_cases after : q (g r) = true
    · simp only [after, first after, if_true, List.map_cons, List.sum_cons, size]
      omega
    · by_cases before : p r = true
      · simp only [after, before, if_true, Bool.false_eq_true, if_false, List.map_cons, List.sum_cons]
        omega
      · simpa [after, before] using rest

structure Within (d : Deployment) (s : Db) : Prop where
  bytes : s.chargedBytes s.operations ≤ d.budget.globalOwnedBytes
  scopedBytes : ∀ o, s.chargedBytes (s.inScope o) ≤ d.budget.organizationOwnedBytes
  history : s.operations.length ≤ d.budget.globalHistory
  scopedHistory : ∀ o, (s.inScope o).length ≤ d.budget.organizationHistory

theorem Within.empty : Within d Db.empty where
  bytes := Nat.zero_le _
  scopedBytes _ := Nat.zero_le _
  history := Nat.zero_le _
  scopedHistory _ := Nat.zero_le _

theorem Evolves.inScope (evolves : Evolves s t g) (o : Option Uuid) :
    t.inScope o = (s.inScope o).map g := by
  have organization (r : Operation) : (g r).organizationId = r.organizationId :=
    congrArg (·.2.1) (Operation.of_identity (evolves.same r)).2.2.2.2
  rw [Db.inScope, evolves.rows, List.filter_map, Db.inScope]
  congr 1
  refine List.filter_congr fun r _ => ?_
  simp [organization]

theorem Within.evolves (within : Within d s) (after : Lifecycle d t) (evolves : Evolves s t g) :
    Within d t := by
  have size (r : Operation) : (g r).expectedSize = r.expectedSize :=
    congrArg (·.2.2.2.2) (Operation.of_identity (evolves.same r)).2.2.2.2
  refine ⟨?_, fun o => ?_, ?_, fun o => ?_⟩
  · rw [Db.chargedBytes, evolves.rows]
    exact (sum_filter_map_le size fun r mem => evolves.charged after mem).trans within.bytes
  · rw [Db.chargedBytes, evolves.inScope o]
    exact (sum_filter_map_le size fun r mem =>
      evolves.charged after (List.mem_of_mem_filter mem)).trans (within.scopedBytes o)
  · rw [evolves.rows, List.length_map]
    exact within.history
  · rw [evolves.inScope o, List.length_map]
    exact within.scopedHistory o

/-- The charge with one more row. -/
theorem chargedBytes_append (opens : row.Opens) (operations : t.operations = s.operations ++ [row])
    (releases : t.releases = s.releases) (rows : List Operation) :
    t.chargedBytes (rows ++ [row]) =
      s.chargedBytes rows + if s.charged row = true then row.expectedSize else 0 := by
  have same : t.charged = s.charged := funext (charged_insert opens operations releases)
  rw [Db.chargedBytes, same, List.filter_append, List.map_append, List.sum_append, Db.chargedBytes]
  congr 1
  by_cases charged : s.charged row = true
  · simp [charged]
  · simp [charged]

theorem Within.insert (within : Within d s) (opens : row.Opens)
    (operations : t.operations = s.operations ++ [row]) (releases : t.releases = s.releases)
    (history : s.historyLeft d row.organizationId = true)
    (bytes : row.kind = .publish → row.storageKind = .owned →
      s.bytesLeft d row.organizationId row.expectedSize = true) : Within d t := by
  simp only [Db.historyLeft, Bool.and_eq_true, decide_eq_true_eq] at history
  have room (charged : s.charged row = true) :
      s.chargedBytes s.operations + row.expectedSize ≤ d.budget.globalOwnedBytes ∧
      s.chargedBytes (s.inScope row.organizationId) + row.expectedSize ≤
        d.budget.organizationOwnedBytes := by
    obtain ⟨kind, owned, -⟩ := charged_iff.mp charged
    simpa [Db.bytesLeft] using bytes kind owned
  have same : t.charged = s.charged := funext (charged_insert opens operations releases)
  have scope (o : Option Uuid) : t.inScope o =
      if row.organizationId = o then s.inScope o ++ [row] else s.inScope o := by
    rw [Db.inScope, operations, List.filter_append]
    split_ifs with here
    · simp [Db.inScope, here]
    · simp [Db.inScope, here]
  refine ⟨?_, fun o => ?_, ?_, fun o => ?_⟩
  · rw [operations, chargedBytes_append opens operations releases]
    split_ifs with charged
    · exact (room charged).1
    · exact within.bytes
  · rw [scope o]
    split_ifs with here
    · subst here
      rw [chargedBytes_append opens operations releases]
      split_ifs with charged
      · exact (room charged).2
      · exact within.scopedBytes _
    · rw [Db.chargedBytes, same]
      exact within.scopedBytes o
  · rw [operations, List.length_append]
    exact history.1
  · rw [scope o]
    split_ifs with here
    · subst here
      rw [List.length_append]
      exact history.2
    · exact within.scopedHistory o

theorem Within.effect (within : Within d s) (after : Lifecycle d t) {e : Event}
    (effect : Effect d s e t) : Within d t := by
  cases effect with
  | insert row opens fresh operations releases history bytes =>
    exact within.insert opens operations releases history bytes
  | keep g evolves => exact within.evolves after evolves
  | clean row f w q plan receipt retirement event advances evolves =>
    exact within.evolves after evolves

/-- Every row is kept, and one that is not charged is never charged again. -/
theorem Effect.kept (after : Lifecycle d t) {e : Event} (effect : Effect d s e t) {p : Operation}
    (mem : p ∈ s.operations) : ∃ p' ∈ t.operations, p'.operationId = p.operationId ∧
      (t.charged p' = true → s.charged p = true) := by
  have changed {g : Operation → Operation} (evolves : Evolves s t g) :
      ∃ p' ∈ t.operations, p'.operationId = p.operationId ∧
        (t.charged p' = true → s.charged p = true) :=
    ⟨g p, evolves.mem mem, (Operation.of_identity (evolves.same p)).1, evolves.charged after mem⟩
  cases effect with
  | insert row opens fresh operations releases =>
    refine ⟨p, ?_, rfl, fun charged => (charged_insert opens operations releases p).symm.trans charged⟩
    rw [operations]
    exact List.mem_append_left _ mem
  | keep g evolves => exact changed evolves
  | clean row f w q plan receipt retirement event advances evolves => exact changed evolves

/-- Declared storage and history stay within a fixed budget in every reachable state; no row is ever
removed, and what has left the charge does not come back; and a row leaves the charge only by the record of
a cleanup that was given the receipt for its artifact. -/
theorem declared_within_budget {events : List Event} (run : Runs (step d) Free Db.empty events s) :
    s.chargedBytes s.operations ≤ d.budget.globalOwnedBytes ∧
    (∀ o, s.chargedBytes (s.inScope o) ≤ d.budget.organizationOwnedBytes) ∧
    s.operations.length ≤ d.budget.globalHistory ∧
    (∀ o, (s.inScope o).length ≤ d.budget.organizationHistory) ∧
    (∀ later t, Runs (step d) Free s later t → Table.Unique t.operations ∧ ∀ p ∈ s.operations,
      ∃ p' ∈ t.operations, p'.operationId = p.operationId ∧
        (s.charged p = false → t.charged p' = false)) ∧
    ∀ e t, step d s e = some t → ∀ p ∈ s.operations, s.charged p = true →
      ∃ p' ∈ t.operations, p'.operationId = p.operationId ∧ (t.charged p' = true ∨
        ∃ w q plan receipt retirement, e = ⟨w, .recordCleaned q plan (some receipt) retirement⟩ ∧
          p.artifactId = some receipt.artifactId) := by
  obtain ⟨life, within⟩ : Lifecycle d s ∧ Within d s :=
    run.invariant (P := fun s => Lifecycle d s ∧ Within d s) ⟨.empty, .empty⟩
      fun _ _ _ _ next here =>
        have moves := Moves.of_step next
        have after := here.1.moves moves
        ⟨after, here.2.effect after (.of_moves here.1 moves)⟩
  refine ⟨within.bytes, within.scopedBytes, within.history, within.scopedHistory, ?_, ?_⟩
  · intro later t next
    obtain ⟨after, kept⟩ : Lifecycle d t ∧ ∀ p ∈ s.operations,
        ∃ q ∈ t.operations, q.operationId = p.operationId ∧ (t.charged q = true → s.charged p = true) :=
      next.invariant (P := fun t => Lifecycle d t ∧ ∀ p ∈ s.operations,
          ∃ q ∈ t.operations, q.operationId = p.operationId ∧ (t.charged q = true → s.charged p = true))
        ⟨life, fun p mem => ⟨p, mem, rfl, id⟩⟩ fun _ _ _ _ step prior => by
          obtain ⟨before, kept⟩ := prior
          have moves := Moves.of_step step
          have after := before.moves moves
          refine ⟨after, fun p mem => ?_⟩
          obtain ⟨q, inside, key, back⟩ := kept p mem
          obtain ⟨q', inside', key', back'⟩ := (Effect.of_moves before moves).kept after inside
          exact ⟨q', inside', key'.trans key, back ∘ back'⟩
    refine ⟨after.unique, fun p mem => ?_⟩
    obtain ⟨q, inside, key, back⟩ := kept p mem
    exact ⟨q, inside, key, fun uncharged => Bool.eq_false_iff.mpr fun charged =>
      Bool.eq_false_iff.mp uncharged (back charged)⟩
  · intro e t next p mem charged
    have moves := Moves.of_step next
    have after := life.moves moves
    have effect := Effect.of_moves life moves
    obtain ⟨p', here, same, -⟩ := effect.kept after mem
    refine ⟨p', here, same, ?_⟩
    cases left : t.charged p' with
    | true => exact .inl rfl
    | false => exact .inr (effect.leaves life after mem charged here same left)

/-! ### An owned release that is published, deleted and cleaned up -/

def ownedA : PublicationRequest :=
  ⟨publicationA, releaseA, none, .owned,
    { metadataA with
      downloadUrl := "/api/v1/agents/releases/63333333-3333-4333-8333-333333333333/binary"
      filename := some "agent" }, by decide +kernel⟩

/-- SHA-256 on what the runs of the owned release hash. -/
def sha256Owned (data : List UInt8) : String :=
  let letter (i : Nat) : Char := Char.ofNat (data[i]?.getD 0).toNat
  match letter 0, letter 2 with
  | 'F', _ =>
    -- the metadata, and what its deletion is bound to
    if letter 16 = 'p' then "373ab9a574677209e67c12ba1fb6eeec43b1256c25a7315bbf0d3361f0cac65c"
    else "c840cbaa00fc857907037d009828aae5d9c2b1ee441869e159406c96f1e94d03"
  | '{', 'f' =>
    -- the requests to publish and to delete it
    if letter 20 = 'p' then "b0ffaf8ba3f1eda4ac76c5e95b3a67f29831a4dea284315fcac94c431569f24d"
    else "2ccc7f58854c123a121363bee5af4dc0b34ffa42150c455a59bd21256cba4856"
  -- the intent of the artifact
  | '{', 'a' => "db419c5c24d8120ca96613f908c30acea2c3621c535ec5bde2eb46dc4cfdfaa9"
  | '{', 'd' =>
    match letter 6, letter 54 with
    -- the decision to remove the payload, and what it retains of a cancellation or a deletion
    | 's', _ => "ce07228842d9efae2dd748696dfd14a18da0a5129b36c9a70e0ccc83c8fbf0fd"
    | _, 'c' => "842a060fed2c716c51dde68dacbc7f51cc9ea3a539f49490e3f734da7d519d55"
    | _, _ => "73fc467423532203aa30489734b7e6c63b7ea13aa499b03ee548d48059314bec"
  -- the record of the removal
  | '{', 'c' => "4a02ac4cb1f2b2eec270eb30c50a8fc6ba838bffff747aa3f77f66413c7d359f"
  -- the payload
  | _, _ =>
    if data.length = 17 then "0a88111852095cae045340ea1f0b279944b2a756a213d9b50107d7489771e159"
    else "e3b0c44298fc1c149afbf4c8996fb92427ae41e4649b934ca495991b7852b855"

def deploymentOwned : Deployment := { deploymentA with sha256 := sha256Owned }

def deleteOwnedA : DeletionRequest :=
  ⟨deletionA, releaseA, none, ownedA.metadata, some "sig", morning, by decide +kernel⟩

def receivedA : Intent := ownedA.intent sha256Owned

def publishAndDeleteOwned : List Event :=
  [.reserve ownedA, .recordPrepared ownedA receivedA,
    .publish ownedA (some "sig") (some identityA) (some receivedA), .reserveDeletion deleteOwnedA,
    .delete deleteOwnedA].map (⟨sessionA, ·⟩)

/-- The decision to remove the payload, and the digest of the record that it is removed. -/
def cleanOwned : Event :=
  let retirement := "0e39ae40e6cd938e757ce8e8093df3ad5e8d869739171e4b286aa477d19f93ff"
  let decision : CleanupDecision := ⟨receivedA, deletionA, .delete, .deleted,
    "73fc467423532203aa30489734b7e6c63b7ea13aa499b03ee548d48059314bec"⟩
  ⟨sessionA, .recordCleaned (.deletion deleteOwnedA) ⟨.retireOwned, deletionA, some decision⟩
    (some ⟨publicationA, deletionA, retirement⟩) (some retirement)⟩

/-- The deletion alone does not release the charge, and the record of its cleanup does. -/
theorem cleanOwned_discharged : ∃ s t,
    Runs (step deploymentOwned) Free Db.empty publishAndDeleteOwned s ∧
    step deploymentOwned s cleanOwned = some t ∧ s.chargedBytes s.operations = 17 ∧
    t.chargedBytes t.operations = 0 ∧
    s.chargedBytes s.operations ≤ deploymentOwned.budget.globalOwnedBytes ∧
    ∀ later u, Runs (step deploymentOwned) Free t later u → Table.Unique u.operations ∧
      ∀ p ∈ t.operations, ∃ p' ∈ u.operations, p'.operationId = p.operationId ∧
        (t.charged p = false → u.charged p' = false) := by
  have ran : (exec (step deploymentOwned) Free Db.empty publishAndDeleteOwned).any (fun s =>
      decide (s.chargedBytes s.operations = 17) && (step deploymentOwned s cleanOwned).any fun t =>
        decide (t.chargedBytes t.operations = 0)) = true := by decide +kernel
  obtain ⟨s, ends, facts⟩ := (Option.any_eq_true _ _).mp ran
  obtain ⟨charged, cleans⟩ := Bool.and_eq_true_iff.mp facts
  obtain ⟨t, next, discharged⟩ := (Option.any_eq_true _ _).mp cleans
  have run := Runs.of_exec ends
  exact ⟨s, t, run, next, of_decide_eq_true charged, of_decide_eq_true discharged,
    (declared_within_budget run).1,
    (declared_within_budget (run.append (.one trivial next))).2.2.2.2.1⟩

end FreeSdn.Releases
