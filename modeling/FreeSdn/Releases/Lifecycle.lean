import FreeSdn.Releases.Steps

/-! The life of a release.  In every reachable state a release exists exactly when its publication was
decided and no deletion of it was, it is inserted and deleted at most once, every row of the journal is
consistent, and each bucket has at most one latest release. -/

namespace FreeSdn.Releases

open FreeSdn.Lib FreeSdn.Artifact
open FreeSdn.Audit (Uuid)

variable {d : Deployment} {s t : Db} {row : Operation} {f : Operation → Operation}

/-! ### Decided operations -/

/-- An operation of this kind on the release has this decision. -/
def Completed (rows : List Operation) (kind : Kind) (choice : Choice) (id : Uuid) : Prop :=
  ∃ r ∈ rows, r.kind = kind ∧ r.releaseId = id ∧ r.decision = some choice

theorem Advances.mem (advances : Advances d s row f) (unique : Table.Unique s.operations)
    {r : Operation} : r ∈ Table.update s.operations row.operationId f ↔
      r = f row ∨ (r ∈ s.operations ∧ r.operationId ≠ row.operationId) :=
  unique.mem_update advances.found

theorem Advances.mem_before (advances : Advances d s row f) (unique : Table.Unique s.operations)
    {r : Operation} : r ∈ s.operations ↔
      r = row ∨ (r ∈ s.operations ∧ r.operationId ≠ row.operationId) := by
  have here := Table.lookup_mem advances.found
  constructor
  · intro mem
    by_cases same : r.operationId = row.operationId
    · exact .inl (unique.eq mem here same)
    · exact .inr ⟨mem, same⟩
  · rintro (rfl | ⟨mem, -⟩)
    · exact here
    · exact mem

theorem Advances.unique (advances : Advances d s row f) (unique : Table.Unique s.operations) :
    Table.Unique (Table.update s.operations row.operationId f) :=
  unique.map (Table.update_keeps fun r _ key => (Operation.of_identity (advances.same r)).1.trans key)

section
variable {kind : Kind} {choice : Choice} {id : Uuid}

/-- A new row decides nothing. -/
theorem completed_append (opens : row.Opens) :
    Completed (s.operations ++ [row]) kind choice id ↔ Completed s.operations kind choice id := by
  constructor
  · rintro ⟨r, mem, kind, release, decision⟩
    rcases List.mem_append.mp mem with old | new
    · exact ⟨r, old, kind, release, decision⟩
    · rw [List.mem_singleton.mp new, opens.decision] at decision
      cases decision
  · rintro ⟨r, mem, facts⟩
    exact ⟨r, List.mem_append_left _ mem, facts⟩

theorem completed_update (advances : Advances d s row f) (unique : Table.Unique s.operations) :
    Completed (Table.update s.operations row.operationId f) kind choice id ↔
      (row.kind = kind ∧ row.releaseId = id ∧ (f row).decision = some choice) ∨
        ∃ r ∈ s.operations, r.operationId ≠ row.operationId ∧ r.kind = kind ∧ r.releaseId = id ∧
          r.decision = some choice := by
  obtain ⟨-, sameKind, sameRelease, -⟩ := Operation.of_identity (advances.same row)
  constructor
  · rintro ⟨r, mem, kind, release, decision⟩
    rcases (advances.mem unique).mp mem with rfl | ⟨old, other⟩
    · exact .inl ⟨sameKind ▸ kind, sameRelease ▸ release, decision⟩
    · exact .inr ⟨r, old, other, kind, release, decision⟩
  · rintro (⟨kind, release, decision⟩ | ⟨r, old, other, facts⟩)
    · exact ⟨f row, (advances.mem unique).mpr (.inl rfl), sameKind.trans kind,
        sameRelease.trans release, decision⟩
    · exact ⟨r, (advances.mem unique).mpr (.inr ⟨old, other⟩), facts⟩

theorem completed_before (advances : Advances d s row f) (unique : Table.Unique s.operations) :
    Completed s.operations kind choice id ↔
      (row.kind = kind ∧ row.releaseId = id ∧ row.decision = some choice) ∨
        ∃ r ∈ s.operations, r.operationId ≠ row.operationId ∧ r.kind = kind ∧ r.releaseId = id ∧
          r.decision = some choice := by
  constructor
  · rintro ⟨r, mem, facts⟩
    rcases (advances.mem_before unique).mp mem with rfl | ⟨old, other⟩
    · exact .inl facts
    · exact .inr ⟨r, old, other, facts⟩
  · rintro (facts | ⟨r, old, -, facts⟩)
    · exact ⟨row, Table.lookup_mem advances.found, facts⟩
    · exact ⟨r, old, facts⟩

/-- A transition that neither makes nor undoes the decision. -/
theorem completed_keep (advances : Advances d s row f) (unique : Table.Unique s.operations)
    (same : (f row).decision = some choice ↔ row.decision = some choice) :
    Completed (Table.update s.operations row.operationId f) kind choice id ↔
      Completed s.operations kind choice id := by
  rw [completed_update advances unique, completed_before advances unique, same]

/-- A transition that makes the decision. -/
theorem completed_new (advances : Advances d s row f) (unique : Table.Unique s.operations)
    (pending : row.decision = none) (decided : (f row).decision = some choice) :
    Completed (Table.update s.operations row.operationId f) kind choice id ↔
      Completed s.operations kind choice id ∨ (row.kind = kind ∧ row.releaseId = id) := by
  rw [completed_update advances unique, completed_before advances unique]
  simp only [decided, pending, reduceCtorEq, and_false, and_true, false_or]
  exact or_comm

end

/-! ### Latest releases -/

/-- No two latest releases share a bucket. -/
def Latest (releases : List Release) : Prop :=
  ∀ a ∈ releases, ∀ b ∈ releases, a.metadata.isLatest = true → b.metadata.isLatest = true →
    a.bucket = b.bucket → a.id = b.id

theorem mem_demote {releases : List Release} {bucket : Option Uuid × String × String} {a : Release}
    (mem : a ∈ demote releases bucket) (latest : a.metadata.isLatest = true) :
    a ∈ releases ∧ a.bucket ≠ bucket := by
  obtain ⟨r, here, rfl⟩ := List.mem_map.mp mem
  by_cases same : r.bucket = bucket
  · rw [if_pos same] at latest
    cases latest
  · rw [if_neg same]
    exact ⟨here, same⟩

theorem demote_ids (releases : List Release) (bucket : Option Uuid × String × String) :
    (demote releases bucket).map Release.id = releases.map Release.id := by
  unfold demote
  rw [List.map_map]
  refine List.map_congr_left fun r _ => ?_
  simp only [Function.comp_apply]
  split_ifs <;> rfl

theorem promote_ids (releases : List Release) (release : Release) :
    (Table.update (demote releases release.bucket) release.id (Release.markLatest true)).map Release.id =
      releases.map Release.id := by
  rw [← demote_ids releases release.bucket]
  unfold Table.update
  rw [List.map_map]
  refine List.map_congr_left fun r _ => ?_
  simp only [Function.comp_apply]
  split_ifs <;> rfl

theorem makeWay_ids (releases : List Release) (new : Release) :
    (makeWay releases new).map Release.id = releases.map Release.id := by
  unfold makeWay
  split_ifs
  · exact demote_ids _ _
  · rfl

/-- Among the releases that make way for a latest one, none of its bucket is the latest. -/
theorem mem_makeWay {releases : List Release} {new a : Release} (mem : a ∈ makeWay releases new)
    (latest : a.metadata.isLatest = true) :
    a ∈ releases ∧ (new.metadata.isLatest = true → a.bucket ≠ new.bucket) := by
  unfold makeWay at mem
  split_ifs at mem with isLatest
  · obtain ⟨old, other⟩ := mem_demote mem latest
    exact ⟨old, fun _ => other⟩
  · exact ⟨mem, fun yes => absurd yes isLatest⟩

theorem Latest.insert {releases : List Release} (h : Latest releases) (new : Release) :
    Latest (makeWay releases new ++ [new]) := by
  intro a ma b mb la lb same
  rcases List.mem_append.mp ma with ma | ma <;> rcases List.mem_append.mp mb with mb | mb
  · exact h a (mem_makeWay ma la).1 b (mem_makeWay mb lb).1 la lb same
  · rw [List.mem_singleton.mp mb] at lb same
    exact absurd same ((mem_makeWay ma la).2 lb)
  · rw [List.mem_singleton.mp ma] at la same
    exact absurd same.symm ((mem_makeWay mb lb).2 la)
  · rw [List.mem_singleton.mp ma, List.mem_singleton.mp mb]

theorem Latest.promote {releases : List Release} (h : Latest releases) {release : Release}
    (found : release ∈ releases) (distinct : Table.Unique releases) :
    Latest (Table.update (demote releases release.bucket) release.id (Release.markLatest true)) := by
  -- A latest release is the promoted one, or one of another bucket that was the latest before.
  have cases {a : Release} (mem : a ∈ Table.update (demote releases release.bucket) release.id
      (Release.markLatest true)) (latest : a.metadata.isLatest = true) :
      (a.id = release.id ∧ a.bucket = release.bucket) ∨ (a ∈ releases ∧ a.bucket ≠ release.bucket) := by
    obtain ⟨r, here, rfl⟩ := Table.mem_update.mp mem
    by_cases hit : r.id = release.id
    · rw [key_id, if_pos hit]
      refine .inl ⟨hit, ?_⟩
      obtain ⟨q, old, rfl⟩ := List.mem_map.mp here
      have same : q = release := distinct.eq old found (by
        have eq := hit
        split_ifs at eq <;> exact eq)
      subst same
      rw [if_pos rfl]
      rfl
    · rw [key_id, if_neg hit] at latest ⊢
      exact .inr (mem_demote here latest)
  intro a ma b mb la lb same
  rcases cases ma la with ⟨ida, ba⟩ | ⟨oa, na⟩ <;> rcases cases mb lb with ⟨idb, bb⟩ | ⟨ob, nb⟩
  · rw [ida, idb]
  · exact absurd (same.symm.trans ba) nb
  · exact absurd (same.trans bb) na
  · exact h a oa b ob la lb same

/-! ### The invariant -/

structure Lifecycle (d : Deployment) (s : Db) : Prop where
  unique : Table.Unique s.operations
  recorded : ∀ r ∈ s.operations, Accepted d.sha256 r
  single : ∀ r ∈ s.operations, ∀ q ∈ s.operations, r.kind = .publish → q.kind = .publish →
    r.releaseId = q.releaseId → r = q
  distinct : Table.Unique s.releases
  latest : Latest s.releases
  present : ∀ id, id ∈ s.releases.map Release.id ↔ id ∈ s.inserted ∧ id ∉ s.deleted
  published : ∀ id, id ∈ s.inserted ↔ Completed s.operations .publish .published id
  removed : ∀ id, id ∈ s.deleted ↔ Completed s.operations .delete .deleted id
  once : s.inserted.Nodup ∧ s.deleted.Nodup
  order : ∀ id ∈ s.deleted, id ∈ s.inserted

theorem Lifecycle.empty : Lifecycle d Db.empty where
  unique := Table.unique_nil
  recorded := by simp [Db.empty]
  single := by simp [Db.empty]
  distinct := Table.unique_nil
  latest := by simp [Db.empty, Latest]
  present := by simp [Db.empty]
  published := by simp [Db.empty, Completed]
  removed := by simp [Db.empty, Completed]
  once := ⟨List.nodup_nil, List.nodup_nil⟩
  order := by simp [Db.empty]

theorem mem_ids {id : Uuid} : id ∈ s.releases.map Release.id ↔ s.hasRelease id = true := by
  simp [Db.hasRelease]

/-- A new row, which decides nothing. -/
theorem Lifecycle.append (life : Lifecycle d s)
    (fresh : Table.lookup s.operations row.operationId = none) (accepted : Accepted d.sha256 row)
    (opens : row.Opens)
    (first : row.kind = .publish → ∀ r ∈ s.operations, r.releaseId ≠ row.releaseId) (n : Nat) :
    Lifecycle d { s with operations := s.operations ++ [row], readings := n } where
  unique := life.unique.append (Table.lookup_none.mp fresh)
  recorded r mem := by
    rcases List.mem_append.mp mem with old | new
    · exact life.recorded r old
    · exact List.mem_singleton.mp new ▸ accepted
  single r mr q mq kr kq same := by
    rcases List.mem_append.mp mr with mr | mr <;> rcases List.mem_append.mp mq with mq | mq
    · exact life.single r mr q mq kr kq same
    · rw [List.mem_singleton.mp mq] at kq same
      exact absurd same (first kq r mr)
    · rw [List.mem_singleton.mp mr] at kr same
      exact absurd same.symm (first kr q mq)
    · rw [List.mem_singleton.mp mr, List.mem_singleton.mp mq]
  distinct := life.distinct
  latest := life.latest
  present := life.present
  published id := by rw [completed_append opens, life.published]
  removed id := by rw [completed_append opens, life.removed]
  once := life.once
  order := life.order

/-- The rows after a transition. -/
theorem Lifecycle.rows (life : Lifecycle d s) (advances : Advances d s row f) :
    Table.Unique (Table.update s.operations row.operationId f) ∧
    (∀ r ∈ Table.update s.operations row.operationId f, Accepted d.sha256 r) ∧
    ∀ r ∈ Table.update s.operations row.operationId f,
      ∀ q ∈ Table.update s.operations row.operationId f, r.kind = .publish → q.kind = .publish →
        r.releaseId = q.releaseId → r = q := by
  have here := Table.lookup_mem advances.found
  obtain ⟨-, kind, release, -⟩ := Operation.of_identity (advances.same row)
  refine ⟨advances.unique life.unique, fun r mem => ?_, fun r mr q mq kr kq same => ?_⟩
  · rcases (advances.mem life.unique).mp mem with rfl | ⟨old, -⟩
    · exact advances.after
    · exact life.recorded r old
  · rcases (advances.mem life.unique).mp mr with rfl | ⟨mr, nr⟩ <;>
      rcases (advances.mem life.unique).mp mq with rfl | ⟨mq, nq⟩
    · rfl
    · rw [kind] at kr
      rw [release] at same
      exact absurd (life.single row here q mq kr kq same) fun eq => nq (eq ▸ rfl)
    · rw [kind] at kq
      rw [release] at same
      exact absurd (life.single r mr row here kr kq same) fun eq => nr (eq ▸ rfl)
    · exact life.single r mr q mq kr kq same

/-- A transition that completes nothing. -/
theorem Lifecycle.advance (life : Lifecycle d s) (advances : Advances d s row f) (n : Nat)
    (published : (f row).decision = some .published ↔ row.decision = some .published)
    (deleted : (f row).decision = some .deleted ↔ row.decision = some .deleted) :
    Lifecycle d (s.advance row f n) where
  unique := (life.rows advances).1
  recorded := (life.rows advances).2.1
  single := (life.rows advances).2.2
  distinct := life.distinct
  latest := life.latest
  present := life.present
  published id := (life.published id).trans (completed_keep advances life.unique published).symm
  removed id := (life.removed id).trans (completed_keep advances life.unique deleted).symm
  once := life.once
  order := life.order

theorem Lifecycle.publish (life : Lifecycle d s) (advances : Advances d s row f) {release : Release}
    (pending : row.decision = none) (kind : row.kind = .publish)
    (decided : (f row).decision = some .published) (unborn : s.hasRelease row.releaseId = false)
    (id : release.id = row.releaseId) (n : Nat) :
    Lifecycle d ((s.insertRelease release).advance row f n) := by
  have ids : (s.insertRelease release).releases.map Release.id =
      s.releases.map Release.id ++ [row.releaseId] := by
    simp [Db.insertRelease, makeWay_ids, id]
  have absent : row.releaseId ∉ s.releases.map Release.id := by
    rw [mem_ids, unborn]
    simp
  -- Only this row publishes the release, and it has not done so.
  have new : row.releaseId ∉ s.inserted := by
    intro mem
    obtain ⟨r, old, publish, same, already⟩ := (life.published _).mp mem
    have eq := life.single r old row (Table.lookup_mem advances.found) publish kind same
    rw [eq, pending] at already
    cases already
  have kept : row.releaseId ∉ s.deleted := fun mem => new (life.order _ mem)
  exact {
    unique := (life.rows advances).1
    recorded := (life.rows advances).2.1
    single := (life.rows advances).2.2
    distinct := by
      have nodup : ((s.insertRelease release).releases.map Release.id).Nodup := by
        rw [ids]
        exact List.nodup_append.mpr ⟨life.distinct, List.nodup_singleton _, by
          rintro a old b last rfl
          rw [List.mem_singleton.mp last] at old
          exact absent old⟩
      exact nodup
    latest := life.latest.insert release
    present := fun x => by
      change x ∈ (s.insertRelease release).releases.map Release.id ↔
        x ∈ s.inserted ++ [release.id] ∧ x ∉ s.deleted
      rw [ids, id, List.mem_append, List.mem_append, life.present, List.mem_singleton, or_and_right]
      exact or_congr_right ⟨fun same => ⟨same, same ▸ kept⟩, fun both => both.1⟩
    published := fun x => by
      refine Iff.trans ?_ (completed_new advances life.unique pending decided).symm
      change x ∈ s.inserted ++ [release.id] ↔ _
      rw [List.mem_append, List.mem_singleton, life.published, id, eq_comm (a := x)]
      exact or_congr_right ⟨fun same => ⟨kind, same⟩, fun both => both.2⟩
    removed := fun x => (life.removed x).trans (completed_keep advances life.unique
      (by simp [decided, pending])).symm
    once := ⟨List.nodup_append.mpr ⟨life.once.1, List.nodup_singleton _, by
      rintro a old b last rfl
      rw [List.mem_singleton.mp last, id] at old
      exact new old⟩, life.once.2⟩
    order := fun x mem => List.mem_append_left _ (life.order x mem) }

theorem Lifecycle.delete (life : Lifecycle d s) (advances : Advances d s row f)
    (pending : row.decision = none) (kind : row.kind = .delete)
    (decided : (f row).decision = some .deleted) (live : s.hasRelease row.releaseId = true) (n : Nat) :
    Lifecycle d ((s.deleteRelease row.releaseId).advance row f n) := by
  obtain ⟨born, kept⟩ := (life.present row.releaseId).mp (mem_ids.mpr live)
  have ids (x : Uuid) : x ∈ (Table.remove s.releases row.releaseId).map Release.id ↔
      x ∈ s.releases.map Release.id ∧ x ≠ row.releaseId := by
    simp only [List.mem_map, Table.mem_remove, key_id]
    constructor
    · rintro ⟨r, ⟨mem, other⟩, rfl⟩
      exact ⟨⟨r, mem, rfl⟩, other⟩
    · rintro ⟨⟨r, mem, rfl⟩, other⟩
      exact ⟨r, ⟨mem, other⟩, rfl⟩
  exact {
    unique := (life.rows advances).1
    recorded := (life.rows advances).2.1
    single := (life.rows advances).2.2
    distinct := life.distinct.remove
    latest := fun a ma b mb => life.latest a (List.mem_of_mem_filter ma) b (List.mem_of_mem_filter mb)
    present := fun x => by
      change x ∈ (Table.remove s.releases row.releaseId).map Release.id ↔
        x ∈ s.inserted ∧ x ∉ s.deleted ++ [row.releaseId]
      rw [ids, life.present, List.mem_append, List.mem_singleton, not_or, and_assoc]
    published := fun x => (life.published x).trans (completed_keep advances life.unique
      (by simp [decided, pending])).symm
    removed := fun x => by
      refine Iff.trans ?_ (completed_new advances life.unique pending decided).symm
      change x ∈ s.deleted ++ [row.releaseId] ↔ _
      rw [List.mem_append, List.mem_singleton, life.removed, eq_comm (a := x)]
      exact or_congr_right ⟨fun same => ⟨kind, same⟩, fun both => both.2⟩
    once := ⟨life.once.1, List.nodup_append.mpr ⟨life.once.2, List.nodup_singleton _, by
      rintro a old b last rfl
      exact kept (List.mem_singleton.mp last ▸ old)⟩⟩
    order := fun x mem => by
      rcases List.mem_append.mp mem with old | last
      · exact life.order x old
      · exact List.mem_singleton.mp last ▸ born }

theorem Lifecycle.promote (life : Lifecycle d s) {release : Release} {id : Uuid}
    (found : Table.lookup s.releases id = some release) :
    Lifecycle d { s with
      releases := Table.update (demote s.releases release.bucket) release.id
        (Release.markLatest true) } := by
  have ids := promote_ids s.releases release
  have mem := Table.lookup_mem found
  exact { life with
    distinct := by
      have nodup : (s.releases.map Release.id).Nodup := life.distinct
      rw [← ids] at nodup
      exact nodup
    latest := life.latest.promote mem life.distinct
    present := fun x => by
      change x ∈ (Table.update _ _ _).map Release.id ↔ _
      rw [ids, life.present] }

theorem Lifecycle.moves (life : Lifecycle d s) {e : Event} (moves : Moves d s e t) :
    Lifecycle d t := by
  cases moves with
  | same => exact life
  | reserve fresh _ first _ opens accepted =>
    exact life.append fresh accepted opens (fun _ => first) _
  | reserveDeletion fresh _ kind opens accepted =>
    refine life.append fresh accepted opens (fun publish => ?_) _
    rw [kind] at publish
    cases publish
  | prepare advances pending next =>
    exact life.advance advances _ (by rw [next.1, pending]) (by rw [next.1, pending])
  | cancel advances pending next =>
    exact life.advance advances _ (by simp [next.1, pending]) (by simp [next.1, pending])
  | publish advances pending kind next unborn id =>
    exact life.publish advances pending kind next.1 unborn id _
  | delete advances pending kind next live =>
    exact life.delete advances pending kind next.1 live _
  | clean advances _ _ next => exact life.advance advances _ (by rw [next.1]) (by rw [next.1])
  | promote found => exact life.promote found

theorem Lifecycle.run {events : List Event} (run : Runs (step d) Free Db.empty events s) :
    Lifecycle d s :=
  run.invariant .empty fun _ _ _ _ next life => life.moves (.of_step next)

/-- A published row is in the phase that decides it. -/
theorem Accepted.published (accepted : Accepted d.sha256 row) (h : row.decision = some .published) :
    row.phase = .decided := by
  have phase := accepted.facts.2.2.2
  cases here : row.phase <;> simp [Operation.phaseConsistent, here, h] at phase ⊢

/-- The lifecycle of releases, over every interleaving of the transactions and their retries: every row
is accepted by `_record`; a release has at most one publication; a bucket has at most one latest
release; a release exists if and only if its publication is decided and no deletion of it is; and no
release is inserted or deleted twice, nor deleted without having been inserted. -/
theorem release_lifecycle {events : List Event} (run : Runs (step d) Free Db.empty events s) :
    (∀ r ∈ s.operations, record d.sha256 r = .ok r) ∧
    (∀ id, (s.operations.filter fun r => r.kind = .publish && r.releaseId = id).length ≤ 1) ∧
    (∀ bucket, (s.releases.filter fun r => r.bucket = bucket && r.metadata.isLatest).length ≤ 1) ∧
    (∀ id, (∃ release ∈ s.releases, release.id = id) ↔
      (∃ p ∈ s.operations, p.kind = .publish ∧ p.releaseId = id ∧ p.phase = .decided ∧
        p.decision = some .published) ∧
      ∀ r ∈ s.operations, r.kind = .delete → r.releaseId = id → r.decision ≠ some .deleted) ∧
    ∀ id, s.deleted.count id ≤ s.inserted.count id ∧ s.inserted.count id ≤ 1 := by
  have life := Lifecycle.run run
  refine ⟨life.recorded, fun id => ?_, fun bucket => ?_, fun id => ?_, fun id => ?_⟩
  · refine life.unique.length_filter_le_one fun r mr q mq pr pq => ?_
    simp only [Bool.and_eq_true, decide_eq_true_eq] at pr pq
    rw [life.single r mr q mq pr.1 pq.1 (pr.2.trans pq.2.symm)]
  · refine life.distinct.length_filter_le_one fun r mr q mq pr pq => ?_
    simp only [Bool.and_eq_true, decide_eq_true_eq] at pr pq
    exact life.latest r mr q mq pr.2 pq.2 (pr.1.trans pq.1.symm)
  · have exists_iff : (∃ release ∈ s.releases, release.id = id) ↔ id ∈ s.releases.map Release.id := by
      simp
    rw [exists_iff, life.present, life.published, life.removed]
    refine and_congr ⟨?_, ?_⟩ ⟨?_, ?_⟩
    · rintro ⟨p, mem, kind, release, decision⟩
      exact ⟨p, mem, kind, release, (life.recorded p mem).published decision, decision⟩
    · rintro ⟨p, mem, kind, release, -, decision⟩
      exact ⟨p, mem, kind, release, decision⟩
    · intro none r mem kind release decision
      exact none ⟨r, mem, kind, release, decision⟩
    · rintro none ⟨r, mem, kind, release, decision⟩
      exact none r mem kind release decision
  · have bound := List.nodup_iff_count_le_one.mp life.once.1 id
    refine ⟨?_, bound⟩
    by_cases gone : id ∈ s.deleted
    · have one := List.nodup_iff_count_le_one.mp life.once.2 id
      have born := List.count_pos_iff.mpr (life.order id gone)
      omega
    · rw [List.count_eq_zero.mpr gone]
      exact Nat.zero_le _

/-! ### A release that is published and deleted -/

def publicationA : Uuid := ⟨"61111111-1111-4111-8111-111111111111", rfl⟩
def deletionA : Uuid := ⟨"62222222-2222-4222-8222-222222222222", rfl⟩
def releaseA : Uuid := ⟨"63333333-3333-4333-8333-333333333333", rfl⟩
def identityA : Uuid := ⟨"64444444-4444-4444-8444-444444444444", rfl⟩
def adminA : Uuid := ⟨"65555555-5555-4555-8555-555555555555", rfl⟩
def organizationA : Uuid := ⟨"66666666-6666-4666-8666-666666666666", rfl⟩

def metadataA : Metadata where
  version := "1.2.0"
  platform := "linux"
  agentType := "daemon"
  downloadUrl := "https://example.org/agent"
  checksumSha256 := "0a88111852095cae045340ea1f0b279944b2a756a213d9b50107d7489771e159"
  fileSize := 17
  releaseNotes := ""
  minBackendVersion := ""
  isPrerelease := false
  isLatest := true
  filename := none

def morning : Stamp := ⟨⟨2026, 1, 2, 8, 0, 0, 0⟩, rfl⟩

/-- SHA-256 on what the run below hashes: it tells the texts apart by a few of their letters. -/
def sha256A (data : List UInt8) : String :=
  let letter (i : Nat) : Char := Char.ofNat (data[i]?.getD 0).toNat
  match letter 0, letter 16, letter 20 with
  -- the metadata, and what its deletion is bound to
  | 'F', 'p', _ => "e08ad8d9752ea425055f2e9514fcef844c557cfe85c512b1fa004b13e7bef211"
  | 'F', _, _ => "cd358baf3e02aaf00191d09bcb1da819a5f017d49dc49536e877295f32465da1"
  -- the requests to publish and to delete it
  | '{', _, 'p' => "72fb5629d094732b206aee7f3235b04db993a0517055e593a9e6411d48721e63"
  | '{', _, _ => "f9c9c071b8710d87768aacd9e1b2d3d9c5c18a98455ae713e1277dbdb48b7396"
  | _, _, _ => "e3b0c44298fc1c149afbf4c8996fb92427ae41e4649b934ca495991b7852b855"

/-- The clock stands still. -/
def deploymentA : Deployment where
  sha256 := sha256A
  clock _ := morning
  budget := ⟨10, 10, 1000, 1000⟩

def publishA : PublicationRequest :=
  ⟨publicationA, releaseA, some organizationA, .external, metadataA, by decide +kernel⟩

def deleteA : DeletionRequest :=
  ⟨deletionA, releaseA, some organizationA, metadataA, some "sig", morning, by decide +kernel⟩

def sessionA : Session := ⟨⟨adminA, none, true, false⟩, ⟨true, fun _ => true, fun _ => true, true⟩⟩

/-- The first acknowledgements of the reservation and of the deletion are lost, and both are retried. -/
def publishAndDelete : List Event :=
  [.reserve publishA, .reserve publishA, .publish publishA (some "sig") (some identityA) none,
    .reserveDeletion deleteA, .delete deleteA, .delete deleteA].map (⟨sessionA, ·⟩)

theorem publishAndDelete_once : ∃ s, Runs (step deploymentA) Free Db.empty publishAndDelete s ∧
    s.operations.map Operation.decision = [some .published, some .deleted] ∧ s.releases = [] ∧
    s.inserted = [releaseA] ∧ s.deleted = [releaseA] ∧
    s.deleted.count releaseA ≤ s.inserted.count releaseA ∧ s.inserted.count releaseA ≤ 1 := by
  have ran : (exec (step deploymentA) Free Db.empty publishAndDelete).any (fun s =>
      decide (s.operations.map Operation.decision = [some .published, some .deleted] ∧
        s.releases = [] ∧ s.inserted = [releaseA] ∧ s.deleted = [releaseA])) = true := by
    decide +kernel
  obtain ⟨s, ends, facts⟩ := (Option.any_eq_true _ _).mp ran
  obtain ⟨decisions, gone, inserted, deleted⟩ := of_decide_eq_true facts
  have run := Runs.of_exec ends
  exact ⟨s, run, decisions, gone, inserted, deleted, (release_lifecycle run).2.2.2.2 releaseA⟩

end FreeSdn.Releases
