import FreeSdn.Staging.Dispatch

/-! Provider observation over any sequence of polls: a task that is over stays as it is, a reviewed
change succeeds only through its own readback, and a change that is no longer polled is over or can
be resolved. -/

namespace FreeSdn.Proxmox

open FreeSdn.Lib FreeSdn.Staging

/-! ### Readbacks that are never pending -/

/-- The readback leaves no change pending. -/
def NeverPending (x : Reply Readback) : Prop := ∀ r, x = some r → r.status ≠ .pending

theorem neverPending_none : NeverPending none := by
  intro r h
  simp at h

theorem neverPending_unknown (detail : String) : NeverPending (some (unknown detail)) := by
  intro r h
  obtain rfl := Option.some.inj h
  simp [unknown]

theorem neverPending_succeeded (detail : String) : NeverPending (some (succeeded detail)) := by
  intro r h
  obtain rfl := Option.some.inj h
  simp [succeeded]

theorem neverPending_bind {α : Type} {x : Reply α} {f : α → Reply Readback}
    (h : ∀ a, NeverPending (f a)) : NeverPending (x >>= f) := by
  cases x with
  | none => exact neverPending_none
  | some a => exact h a

theorem neverPending_ite {p : Prop} [Decidable p] (good bad : String) :
    NeverPending (some (if p then succeeded good else unknown bad)) := by
  split
  · exact neverPending_succeeded good
  · exact neverPending_unknown bad

theorem firewall_neverPending (plan : Reply Firewall.Plan) (ack : Json) (current : Reply Json) :
    NeverPending (Firewall.readback plan ack current) := by
  refine neverPending_bind fun plan => ?_
  split
  · exact neverPending_unknown _
  · split
    · refine neverPending_bind fun current => ?_
      split
      · exact neverPending_unknown _
      · exact neverPending_succeeded _
    · exact neverPending_unknown _

theorem taskStop_neverPending (plan : Reply TaskStop.Plan) (ack : Json)
    (answer : Reply (Answered TaskDetail)) : NeverPending (TaskStop.readback plan ack answer) := by
  refine neverPending_bind fun plan => ?_
  split
  · exact neverPending_unknown _
  · refine neverPending_bind fun answer => ?_
    cases answer with
    | none => exact neverPending_unknown _
    | some task =>
      dsimp only
      split
      · exact neverPending_unknown _
      · split
        · intro r h
          obtain rfl := Option.some.inj h
          simp
        · split
          · exact neverPending_succeeded _
          · exact neverPending_unknown _

theorem backupJob_neverPending (plan : Reply BackupJob.Plan) (ack : Json)
    (jobs : Reply (List (String × Reply Json))) :
    NeverPending (BackupJob.readback plan ack jobs) := by
  refine neverPending_bind fun plan => ?_
  split
  · exact neverPending_unknown _
  · split
    · exact neverPending_unknown _
    · refine neverPending_bind fun jobs => ?_
      refine neverPending_bind fun matched => ?_
      exact neverPending_ite _ _

theorem cluster_neverPending (plan : Reply Cluster.Plan)
    (answer : Reply (Answered (Reply (List (String × Bool))))) :
    NeverPending (Cluster.readback plan answer) := by
  refine neverPending_bind fun plan => ?_
  split
  · exact neverPending_unknown _
  · refine neverPending_bind fun answer => ?_
    cases answer with
    | none => exact neverPending_unknown _
    | some rows =>
      refine neverPending_bind fun rows => ?_
      exact neverPending_ite _ _

theorem storage_neverPending (plan : Reply Storage.Plan) (upid : String)
    (answer : Reply (Answered (Reply Storage.State))) :
    NeverPending (Storage.readback plan upid answer) := by
  refine neverPending_bind fun plan => ?_
  split
  · exact neverPending_unknown _
  · refine neverPending_bind fun answer => ?_
    cases answer with
    | none => exact neverPending_unknown _
    | some state =>
      refine neverPending_bind fun state => ?_
      split
      · exact neverPending_unknown _
      · split
        · exact neverPending_ite _ _
        · dsimp only
          split
          · exact neverPending_unknown _
          · exact neverPending_ite _ _

theorem creation_neverPending (plan : Reply Creation.Plan) (upid : String)
    (guests : Reply (Answered (List Creation.Inventory)))
    (config : Reply (Answered Creation.Config)) :
    NeverPending (Creation.readback plan upid guests config) := by
  refine neverPending_bind fun plan => ?_
  split
  · exact neverPending_unknown _
  · refine neverPending_bind fun guests => ?_
    split
    · split
      · exact neverPending_unknown _
      · refine neverPending_bind fun config => ?_
        cases config with
        | none => exact neverPending_unknown _
        | some config => exact neverPending_ite _ _
    · exact neverPending_unknown _

theorem deletion_neverPending (plan : Reply Deletion.Plan) (upid : String)
    (answer : Reply (Answered Json)) : NeverPending (Deletion.readback plan upid answer) := by
  refine neverPending_bind fun plan => ?_
  split
  · exact neverPending_unknown _
  · refine neverPending_bind fun answer => ?_
    exact neverPending_ite _ _

/-- Only a guest change and a certificate can be read back as pending. -/
theorem readbackOf_neverPending {sha256 : String → String} {poll : Poll} {c : PendingChange}
    {upid : Option String} {f : Family} (guest : f ≠ .guestChange) (certificate : f ≠ .certificate) :
    NeverPending (readbackOf sha256 poll c upid f) := by
  cases f with
  | firewall => exact firewall_neverPending _ _ _
  | taskStop => exact taskStop_neverPending _ _ _
  | backupJob => exact backupJob_neverPending _ _ _
  | cluster => exact cluster_neverPending _ _
  | storage => exact neverPending_bind fun upid => storage_neverPending _ upid _
  | creation => exact neverPending_bind fun upid => creation_neverPending _ upid _ _
  | deletion => exact neverPending_bind fun upid => deletion_neverPending _ upid _
  | certificate => exact absurd rfl certificate
  | guestChange => exact absurd rfl guest

/-! ### What a verified observation says -/

section Verified

variable {readback : Family → Reply Readback} {c : PendingChange} {o o' : Observation}

/-- The readback of the family succeeded. -/
def ReadsBack (readback : Family → Reply Readback) (f : Family) : Prop :=
  ∃ r, readback f = some r ∧ r.status = .succeeded

theorem observed_some {x : Reply Readback} (h : x.map Readback.observation = some o) :
    ∃ r, x = some r ∧ r.status = o.status := by
  obtain ⟨r, found, rfl⟩ := Option.map_eq_some_iff.mp h
  exact ⟨r, found, rfl⟩

theorem confirm_skip {x : Reply Readback} (h : confirm false x o = some o') : o' = o := by
  simpa [confirm, eq_comm] using h

theorem confirm_apply {x : Reply Readback} (h : confirm true x o = some o') :
    (∃ r, x = some r ∧ r.status = o'.status) ∨ o' = o ∧ o.status ≠ .succeeded := by
  unfold confirm at h
  split at h
  · exact .inl (observed_some h)
  · rename_i other
    exact .inr ⟨(Option.some.inj h).symm, by simpa using other⟩

theorem confirmUncertain_skip {failed warned : String} {x : Reply Readback}
    (h : confirmUncertain false failed warned x o = some o') : o' = o := by
  simpa [confirmUncertain, eq_comm] using h

/-- With the uncertain families, what is not read back is neither a success nor pending, unless the
task's own verdict was pending. -/
theorem confirmUncertain_apply {failed warned : String} {x : Reply Readback}
    (h : confirmUncertain true failed warned x o = some o') :
    (∃ r, x = some r ∧ r.status = o'.status) ∨
      o'.status ≠ .succeeded ∧ (o'.status = .pending → o.status = .pending) := by
  simp only [confirmUncertain, Bool.not_true, Bool.false_eq_true, if_false] at h
  split at h
  · obtain rfl := Option.some.inj h
    exact .inr ⟨by simp [unobserved], by simp [unobserved]⟩
  · exact .inl (observed_some h)
  · obtain ⟨r, found, rfl⟩ := Option.map_eq_some_iff.mp h
    split
    · exact .inr ⟨by simp, by simp⟩
    · exact .inl ⟨r, found, rfl⟩
  · rename_i notFailed notSucceeded notWarned
    obtain rfl := Option.some.inj h
    exact .inr ⟨fun same => notSucceeded same, id⟩

/-- The five verifications of a change of the family `f`: the verdict is `f`'s own readback, or
it is not a success, and pending only if the task was. -/
theorem verifyTask_family {f : Family} (reviewed : f.reviewed c)
    (late : f = .storage ∨ f = .certificate ∨ f = .creation ∨ f = .deletion ∨ f = .guestChange)
    (h : verifyTask readback c o = some o') :
    (∃ r, readback f = some r ∧ r.status = o'.status) ∨
      o'.status ≠ .succeeded ∧ (o'.status = .pending → o.status = .pending) := by
  have only (g : Family) (other : g ≠ f) : g.reviewed c = false := by
    by_contra also
    exact other (reviewed_unique (by simpa using also) reviewed)
  -- the verifications of the other families change nothing
  unfold verifyTask at h
  obtain ⟨o₁, h₁, h⟩ := Option.bind_eq_some_iff.mp h
  obtain ⟨o₂, h₂, h⟩ := Option.bind_eq_some_iff.mp h
  obtain ⟨o₃, h₃, h⟩ := Option.bind_eq_some_iff.mp h
  obtain ⟨o₄, h₄, h₅⟩ := Option.bind_eq_some_iff.mp h
  rcases late with rfl | rfl | rfl | rfl | rfl
  · rw [reviewed] at h₁
    rw [only _ (by decide)] at h₂ h₃ h₄ h₅
    obtain rfl := confirmUncertain_skip h₂
    obtain rfl := confirm_skip h₃
    obtain rfl := confirm_skip h₄
    obtain rfl := confirm_skip h₅
    exact confirmUncertain_apply h₁
  · rw [only _ (by decide)] at h₁ h₃ h₄ h₅
    rw [reviewed] at h₂
    obtain rfl := confirmUncertain_skip h₁
    obtain rfl := confirm_skip h₃
    obtain rfl := confirm_skip h₄
    obtain rfl := confirm_skip h₅
    exact confirmUncertain_apply h₂
  · rw [only _ (by decide)] at h₁ h₂ h₄ h₅
    rw [reviewed] at h₃
    obtain rfl := confirmUncertain_skip h₁
    obtain rfl := confirmUncertain_skip h₂
    obtain rfl := confirm_skip h₄
    obtain rfl := confirm_skip h₅
    exact (confirm_apply h₃).imp_right fun ⟨same, no⟩ => ⟨same ▸ no, fun p => same ▸ p⟩
  · rw [only _ (by decide)] at h₁ h₂ h₃ h₅
    rw [reviewed] at h₄
    obtain rfl := confirmUncertain_skip h₁
    obtain rfl := confirmUncertain_skip h₂
    obtain rfl := confirm_skip h₃
    obtain rfl := confirm_skip h₅
    exact (confirm_apply h₄).imp_right fun ⟨same, no⟩ => ⟨same ▸ no, fun p => same ▸ p⟩
  · rw [only _ (by decide)] at h₁ h₂ h₃ h₄
    rw [reviewed] at h₅
    obtain rfl := confirmUncertain_skip h₁
    obtain rfl := confirmUncertain_skip h₂
    obtain rfl := confirm_skip h₃
    obtain rfl := confirm_skip h₄
    exact (confirm_apply h₅).imp_right fun ⟨same, no⟩ => ⟨same ▸ no, fun p => same ▸ p⟩

theorem verifyTask_unreviewed (plain : ∀ f : Family, f.reviewed c = false)
    (h : verifyTask readback c o = some o') : o' = o := by
  unfold verifyTask at h
  obtain ⟨o₁, h₁, h⟩ := Option.bind_eq_some_iff.mp h
  obtain ⟨o₂, h₂, h⟩ := Option.bind_eq_some_iff.mp h
  obtain ⟨o₃, h₃, h⟩ := Option.bind_eq_some_iff.mp h
  obtain ⟨o₄, h₄, h₅⟩ := Option.bind_eq_some_iff.mp h
  rw [plain] at h₁ h₂ h₃ h₄ h₅
  obtain rfl := confirmUncertain_skip h₁
  obtain rfl := confirmUncertain_skip h₂
  obtain rfl := confirm_skip h₃
  obtain rfl := confirm_skip h₄
  exact confirm_skip h₅

theorem classifyTask_not_pending {upid node : String} {task : TaskDetail}
    (h : classifyTask upid node task = some o) : o.status ≠ .pending := by
  unfold classifyTask at h
  split at h
  · obtain rfl := Option.some.inj h
    simp [unobserved]
  · split at h
    · obtain rfl := Option.some.inj h
      simp
    · split at h
      · split at h
        · split at h
          · obtain rfl := Option.some.inj h
            simp
          · split at h
            · obtain rfl := Option.some.inj h
              simp
            · split at h <;> (obtain rfl := Option.some.inj h; simp [unobserved])
        · simp at h
      · obtain rfl := Option.some.inj h
        simp [unobserved]

variable {sha256 : String → String} {poll : Poll} {upid node : String}
  {task : Option (String × String)}

theorem askTask_family {f : Family} (reviewed : f.reviewed c)
    (late : f = .storage ∨ f = .certificate ∨ f = .creation ∨ f = .deletion ∨ f = .guestChange)
    (h : askTask poll readback c upid node = some o) :
    (∃ r, readback f = some r ∧ r.status = o.status) ∨
      o.status ≠ .succeeded ∧ o.status ≠ .pending := by
  unfold askTask at h
  split at h
  · simp at h
  · obtain rfl := Option.some.inj h
    exact .inr ⟨by simp [unobserved], by simp [unobserved]⟩
  · obtain ⟨verdict, classified, verified⟩ := Option.bind_eq_some_iff.mp h
    refine (verifyTask_family reviewed late verified).imp_right fun ⟨failed, pending⟩ => ⟨failed, ?_⟩
    exact fun same => classifyTask_not_pending classified (pending same)

/-- What a poll reports of a reviewed change is its family's readback, or neither success nor
pending. -/
theorem askProvider_family {f : Family} (reviewed : f.reviewed c)
    (h : askProvider sha256 poll c task = some o) :
    (∃ r, readbackOf sha256 poll c (task.map (·.1)) f = some r ∧ r.status = o.status) ∨
      o.status ≠ .succeeded ∧ o.status ≠ .pending ∨ task = none ∧ !observableWithoutTask c := by
  have flag (g : Family) : g.reviewed c = decide (g = f) := by
    by_cases same : g = f
    · simp [same, reviewed]
    · have other : ¬ g.reviewed c := fun also => same (reviewed_unique also reviewed)
      simpa [same] using other
  unfold askProvider at h
  dsimp only at h
  split at h
  · simp at h
  · simp only [flag, observableWithoutTask] at h ⊢
    cases f with
    | firewall | taskStop | backupJob | cluster =>
      simp only [reduceCtorEq, decide_true, decide_false, Bool.false_and, Bool.false_eq_true,
        if_true, if_false] at h
      exact .inl (observed_some h)
    | certificate =>
      cases task with
      | none =>
        simp only [reduceCtorEq, decide_true, decide_false, Option.isNone_none, Bool.and_self,
          Bool.false_eq_true, if_true, if_false] at h
        exact .inl (observed_some h)
      | some task =>
        simp only [reduceCtorEq, decide_true, decide_false, Option.isNone_some, Bool.and_false,
          Bool.false_eq_true, if_false] at h
        exact (askTask_family reviewed (by simp) h).imp_right .inl
    | guestChange =>
      cases task with
      | none =>
        simp only [reduceCtorEq, decide_false, Bool.false_and, Bool.false_eq_true, if_false] at h
        exact .inl (observed_some h)
      | some task =>
        simp only [reduceCtorEq, decide_false, Bool.false_and, Bool.false_eq_true, if_false] at h
        exact (askTask_family reviewed (by simp) h).imp_right .inl
    | storage | creation | deletion =>
      cases task with
      | none => exact .inr (.inr ⟨rfl, by simp⟩)
      | some task =>
        simp only [reduceCtorEq, decide_false, Bool.false_and, Bool.false_eq_true, if_false] at h
        exact (askTask_family reviewed (by simp) h).imp_right .inl

/-- Only a guest change or a certificate is reported as pending. -/
theorem askProvider_pending (observable : task = none → observableWithoutTask c)
    (h : askProvider sha256 poll c task = some o) (pending : o.status = .pending) :
    Family.guestChange.reviewed c ∨ Family.certificate.reviewed c := by
  by_cases some_family : ∃ f : Family, f.reviewed c
  · obtain ⟨f, reviewed⟩ := some_family
    rcases askProvider_family reviewed h with ⟨r, found, same⟩ | ⟨-, no⟩ | ⟨untracked, blind⟩
    · by_cases guest : f = .guestChange
      · exact .inl (guest ▸ reviewed)
      · by_cases certificate : f = .certificate
        · exact .inr (certificate ▸ reviewed)
        · exact absurd (same.trans pending)
            (readbackOf_neverPending guest certificate r found)
    · exact absurd pending no
    · simp [observable untracked] at blind
  · have plain : ∀ f : Family, f.reviewed c = false := by simpa using some_family
    cases task with
    | none =>
      have visible := observable rfl
      simp [observableWithoutTask, plain] at visible
    | some task =>
      unfold askProvider at h
      simp only [plain, Bool.false_and, Bool.false_eq_true, if_false] at h
      split at h
      · simp at h
      · unfold askTask at h
        split at h
        · simp at h
        · obtain rfl := Option.some.inj h
          simp [unobserved] at pending
        · obtain ⟨verdict, classified, verified⟩ := Option.bind_eq_some_iff.mp h
          obtain rfl := verifyTask_unreviewed plain verified
          exact absurd pending (classifyTask_not_pending classified)

end Verified

end FreeSdn.Proxmox

namespace FreeSdn.Staging

open FreeSdn.Lib FreeSdn.Proxmox

/-! ### Sequences of polls -/

/-- The status of the provider task. -/
def taskStatus (c : PendingChange) : Option TaskStatus := c.providerTask.map (·.status)

/-- A change after a sequence of polls, each at its own time. -/
def observeAll (sha256 : String → String) (c : PendingChange) (polls : List (Poll × Time)) :
    PendingChange :=
  polls.foldl (fun c p => observeTask sha256 c p.1 p.2) c

section Polls

variable {sha256 : String → String} {c : PendingChange} {poll : Poll} {o : Observation} {now : Time}

theorem reviewed_congr {r s : PendingChange} (feature : s.feature = r.feature)
    (payload : s.payload = r.payload) (f : Family) : f.reviewed s = f.reviewed r := by
  cases f <;>
    simp [Family.reviewed, isReviewedFirewall, isReviewedTaskStop, isReviewedBackupJob,
      isReviewedStorage, isReviewedCertificate, isReviewedClusterOperation, isReviewedCreation,
      isReviewedDeletion, isReviewedGuestChange, isReviewed, feature, payload]

/-- Polls change neither the status of the change nor what it writes. -/
theorem observeAll_frame (polls : List (Poll × Time)) :
    (observeAll sha256 c polls).status = c.status ∧ (observeAll sha256 c polls).feature = c.feature ∧
      (observeAll sha256 c polls).payload = c.payload := by
  induction polls generalizing c with
  | nil => exact ⟨rfl, rfl, rfl⟩
  | cons p polls ih =>
    have one : observeTask sha256 c p.1 p.2 = _ := observeTask_frame
    obtain ⟨status, feature, payload⟩ := ih (c := observeTask sha256 c p.1 p.2)
    refine ⟨status.trans ?_, feature.trans ?_, payload.trans ?_⟩ <;> rw [one]

theorem observeAll_terminal {status : TaskStatus} (known : taskStatus c = some status)
    (ended : status.terminal) (polls : List (Poll × Time)) :
    taskStatus (observeAll sha256 c polls) = some status := by
  induction polls generalizing c with
  | nil => exact known
  | cons p polls ih =>
    obtain ⟨task, found, rfl⟩ := Option.map_eq_some_iff.mp known
    refine ih ?_
    show taskStatus (observeTask sha256 c p.1 p.2) = some task.status
    rw [observeTask_terminal found ended]
    exact known

theorem record_succeeded (h : taskStatus (record c o now) = some .succeeded) :
    o.status = .succeeded := by
  unfold record at h
  dsimp only at h
  split at h
  · simpa [taskStatus] using h
  · split at h
    · simpa [taskStatus] using h
    · split at h
      · simp only [taskStatus, Option.map_some, Option.some.injEq] at h
        split at h
        · simp at h
        · exact h
      · simpa [taskStatus] using h

/-- A change that is recorded without a next poll is over or unknown, if only guest changes and
certificates are left pending. -/
theorem record_unscheduled (h : (record c o now).nextPollAt = none)
    (pending : o.status = .pending →
      Family.guestChange.reviewed c ∨ Family.certificate.reviewed c) :
    ∃ status, taskStatus (record c o now) = some status ∧
      (status.terminal ∨ status = .unknown) := by
  unfold record at h ⊢
  dsimp only at h ⊢
  split
  · rename_i ended
    exact ⟨o.status, rfl, .inl ended⟩
  · rename_i open_
    rw [if_neg open_] at h
    split
    · rename_i running
      simp [running] at h
    · rename_i idle
      rw [if_neg idle] at h
      split
      · refine ⟨_, rfl, .inr ?_⟩
        dsimp only
        split
        · rfl
        · rename_i plain
          -- what is neither over nor running nor pending is unknown
          cases status : o.status with
          | unknown => rfl
          | running => exact absurd status idle
          | succeeded | warnings | failed => simp [status, TaskStatus.terminal] at open_
          | pending =>
            rcases pending status with guest | certificate
            · simp [guest] at plain
            · simp [certificate] at plain
      · rename_i early
        simp [early] at h

variable (sha256 c poll now) in
/-- What one poll does: nothing to a task that is over, nothing but giving up on a task without
identity, and otherwise a record of the provider's answer or of an unknown state. -/
theorem observeTask_cases :
    (∃ status, taskStatus c = some status ∧ status.terminal ∧
      taskStatus (observeTask sha256 c poll now) = some status) ∨
    taskStatus (observeTask sha256 c poll now) = some .unknown ∨
    ∃ o, observeTask sha256 c poll now = record c o now ∧
      (trackedTask c = none → observableWithoutTask c) ∧
      (askProvider sha256 poll c (trackedTask c) = some o ∨ o.status = .unknown) := by
  by_cases ended : (c.providerTask.map (·.status.terminal)).getD false
  · left
    cases known : c.providerTask with
    | none => simp [known] at ended
    | some task =>
      have terminal : task.status.terminal := by simpa [known] using ended
      refine ⟨task.status, by simp [taskStatus, known], terminal, ?_⟩
      rw [observeTask_terminal known terminal]
      simp [taskStatus, known]
  · right
    unfold observeTask
    rw [if_neg ended]
    dsimp only
    split
    · exact .inl rfl
    · rename_i visible
      have observable : trackedTask c = none → observableWithoutTask c := by
        intro untracked
        simpa [untracked] using visible
      right
      split
      · exact ⟨_, rfl, observable, .inr rfl⟩
      · split
        · refine ⟨_, rfl, observable, ?_⟩
          cases answer : askProvider sha256 poll c (trackedTask c) with
          | none => exact .inr rfl
          | some o => exact .inl rfl
        · exact ⟨_, rfl, observable, .inr rfl⟩

/-- A success that a poll sets on a reviewed change is its family's readback. -/
theorem observeTask_succeeded {f : Family} (reviewed : f.reviewed c)
    (before : taskStatus c ≠ some .succeeded)
    (h : taskStatus (observeTask sha256 c poll now) = some .succeeded) :
    ReadsBack (readbackOf sha256 poll c ((trackedTask c).map (·.1))) f := by
  rcases observeTask_cases sha256 c poll now with
    ⟨status, known, -, same⟩ | unknown | ⟨o, recorded, observable, answer⟩
  · exact absurd (known.trans (same.symm.trans h)) before
  · rw [unknown] at h
    simp at h
  · rw [recorded] at h
    have success := record_succeeded h
    rcases answer with asked | unknown
    · rcases askProvider_family reviewed asked with ⟨r, found, same⟩ | ⟨no, -⟩ | ⟨untracked, blind⟩
      · exact ⟨r, found, same.trans success⟩
      · exact absurd success no
      · simp [observable untracked] at blind
    · rw [unknown] at success
      simp at success

/-- A poll that schedules no further one leaves the task over or unknown. -/
theorem observeTask_unscheduled (h : (observeTask sha256 c poll now).nextPollAt = none) :
    ∃ status, taskStatus (observeTask sha256 c poll now) = some status ∧
      (status.terminal ∨ status = .unknown) := by
  rcases observeTask_cases sha256 c poll now with
    ⟨status, -, ended, same⟩ | unknown | ⟨o, recorded, observable, answer⟩
  · exact ⟨status, same, .inl ended⟩
  · exact ⟨.unknown, unknown, .inr rfl⟩
  · rw [recorded] at h ⊢
    refine record_unscheduled h fun pending => ?_
    rcases answer with asked | unknown
    · exact askProvider_pending observable asked pending
    · simp [unknown] at pending

/-- A forced discard resolves an applied, reviewed change whose task is unknown. -/
theorem discard_resolves {print : Printing} {rows : List PendingChange} {r : PendingChange}
    (found : Table.lookup rows r.id = some r) (applied : r.status = .applied)
    (reviewed : isReviewedOperation r) (unknown : taskStatus r = some .unknown)
    (actor : Option Uuid) (later : Time) :
    ∃ row, discard print rows ⟨r.id, r.organizationId, actor, true, none⟩ later = .ok row ∧
      row.status = .discarded := by
  have resolved : resolvedObservation true r = true := by
    simp only [taskStatus] at unknown
    simp [resolvedObservation, applied, reviewed, unknown]
  refine ⟨discardedRow ⟨r.id, r.organizationId, actor, true, none⟩ later r, ?_, rfl⟩
  simp only [discard, found, bne_self_eq_false, refuseIf, assertSiteAccess, resolved]
  simp [bind, Except.bind, discardedRow, resolved]

end Polls

/-- Over any sequence of polls of an applied change: a task that is over keeps its status; a poll
that sets success on a reviewed change did so through the readback of its family; and a change that
is not polled again is over or unknown, where a reviewed one can be resolved by a forced discard. -/
theorem observation_monotone (env : Env) (c : PendingChange) (applied : c.status = .applied)
    (polls : List (Poll × Time)) (poll : Poll) (now : Time) :
    let before := observeAll env.sha256 c polls
    let after := observeTask env.sha256 before poll now
    (∀ status, taskStatus before = some status → status.terminal →
      ∀ more, taskStatus (observeAll env.sha256 before more) = some status) ∧
    (∀ f : Family, f.reviewed c → taskStatus before ≠ some .succeeded →
      taskStatus after = some .succeeded →
      ReadsBack (readbackOf env.sha256 poll before ((trackedTask before).map (·.1))) f) ∧
    (after.nextPollAt = none → ∃ status, taskStatus after = some status ∧
      (status.terminal ∨ status = .unknown) ∧
      (status = .unknown → isReviewedOperation c → ∀ rows actor later,
        Table.lookup rows after.id = some after →
        ∃ row, discard env.print rows ⟨after.id, after.organizationId, actor, true, none⟩ later =
          .ok row ∧ row.status = .discarded)) := by
  intro before after
  obtain ⟨status, feature, payload⟩ := observeAll_frame (c := c) polls
  refine ⟨fun _ known ended => observeAll_terminal known ended, ?_, ?_⟩
  · intro f reviewed fresh success
    refine observeTask_succeeded ?_ fresh success
    rw [reviewed_congr feature payload]
    exact reviewed
  · intro unscheduled
    obtain ⟨last, known, either⟩ := observeTask_unscheduled unscheduled
    refine ⟨last, known, either, ?_⟩
    rintro rfl reviewed rows actor later found
    have frame : after = _ := observeTask_frame
    have reviewedAfter : isReviewedOperation after := by
      obtain ⟨f, own⟩ := isReviewedOperation_iff.mp reviewed
      refine isReviewedOperation_iff.mpr ⟨f, ?_⟩
      have sameFeature : after.feature = c.feature := by
        rw [frame]
        exact feature
      have samePayload : after.payload = c.payload := by
        rw [frame]
        exact payload
      rw [reviewed_congr sameFeature samePayload]
      exact own
    have appliedAfter : after.status = .applied := by
      rw [frame]
      exact status.trans applied
    exact discard_resolves found appliedAfter reviewedAfter known actor later

/-- A reviewed guest configuration, applied with a readback that awaits a restart. -/
def pendingConfig : PendingChange :=
  { id := 7, organizationId := 1, controllerId := some 2, siteId := some 3
    feature := "proxmox.vm.config", operation := "update", targetId := some "100"
    payload := [("guest_change_version", .int 1), ("vmid", .int 100)], status := .applied
    appliedAt := some 0, appliedResponse := none
    providerTask := some
      { id := none, node := none, status := .pending
        detail := .str "configuration_pending_restart", checkedAt := some 0, finishedAt := none }
    nextPollAt := some 0, failureReason := none, createdBy := none, updatedBy := none
    updatedAt := 0 }

theorem pendingConfig_resolvable :
    (observeTask plainEnv.sha256 pendingConfig Poll.silent (week + 1)).nextPollAt = none ∧
      ∃ row, discard plainEnv.print [observeTask plainEnv.sha256 pendingConfig Poll.silent (week + 1)]
        ⟨7, 1, none, true, none⟩ 0 = .ok row ∧ row.status = .discarded := by
  have unscheduled :
      (observeTask plainEnv.sha256 pendingConfig Poll.silent (week + 1)).nextPollAt = none := by
    decide
  obtain ⟨-, -, last⟩ := observation_monotone plainEnv pendingConfig rfl [] Poll.silent (week + 1)
  obtain ⟨status, known, -, resolve⟩ := last unscheduled
  have unknown : status = .unknown := by
    have same : taskStatus (observeTask plainEnv.sha256 pendingConfig Poll.silent (week + 1)) =
        some .unknown := by decide
    exact Option.some.inj (known.symm.trans same)
  exact ⟨unscheduled, resolve unknown (by decide) _ none 0 (by decide)⟩

/-- A started guest whose task is never observed, eight days later. -/
def unobservedStart : List Event :=
  completedApply ++ [.observe 7 Poll.silent (seconds (8 * 24 * 3600))]

/-- It is not polled again, its task is unknown, and a forced discard is refused: the operation
carries no reviewed plan. -/
theorem unreviewed_unknown_not_resolved :
    ∃ w, Runs (step plainEnv) Free World.empty unobservedStart w ∧
      (∃ r ∈ w.rows, r.id = 7 ∧ r.nextPollAt = none ∧ taskStatus r = some .unknown) ∧
      ∃ error, discard plainEnv.print w.rows (forcedDiscard 7) 0 = .error error ∧
        error.status = 409 := by
  have run : Runs (step plainEnv) Free World.empty unobservedStart _ := Runs.to_after (by decide)
  exact ⟨_, run, by decide, ⟨409, "cannot discard a change with status='applied'"⟩, rfl, rfl⟩

end FreeSdn.Staging
