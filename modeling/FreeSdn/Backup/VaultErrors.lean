import FreeSdn.Backup.VaultRestore

/-! The errors about administrators are those of the last check of a vault restore: nothing in front of it
raises one, so that a preview raises one just when the restore does. -/

namespace FreeSdn.Backup

open FreeSdn.Lib

def platformLost : Error := "Vault restore would disable the last active platform super administrator."

def organizationLost : Error :=
  "Vault restore would disable the last active administrator of this organization."

/-- What `require_administrator_survivors` raises. -/
def administratorErrors : List Error := [platformLost, organizationLost]

/-- What is raised behind the decision about a record. -/
def lateErrors : List Error := Core.databaseError :: administratorErrors

/-! ### Account data -/

section

variable {k : Codec} {v archived existing : Value}

theorem decryptField_avoids : Avoids lateErrors (decryptField k v) := by
  unfold decryptField
  split
  · split
    · exact (avoids_orRaise (by decide)).map
    · exact avoids_ok
  · exact avoids_ok

theorem requirePortableSeed_avoids : Avoids lateErrors (requirePortableSeed v) := by
  unfold requirePortableSeed
  split
  · exact avoids_ok
  · exact avoids_require (by decide)
  · exact avoids_error (by decide)

theorem plainSeed_avoids : Avoids lateErrors (plainSeed k v) :=
  decryptField_avoids.bind fun _ => requirePortableSeed_avoids.bind fun _ => avoids_ok

theorem readTime_avoids : Avoids lateErrors (readTime k v) := by
  unfold readTime
  split
  · exact avoids_ok
  · exact (avoids_require (by decide)).bind fun _ => (avoids_orRaise (by decide)).map
  · exact avoids_error (by decide)

theorem readCode_avoids {item : Json} : Avoids lateErrors (readCode item) := by
  unfold readCode
  split
  · exact (avoids_require (by decide)).map
  · exact avoids_error (by decide)

theorem readCodes_avoids {items : Json} : Avoids lateErrors (readCodes items) := by
  unfold readCodes
  split
  · exact (avoids_require (by decide)).bind fun _ => (avoids_mapM (fun _ => readCode_avoids) _).bind
      fun _ => (avoids_require (by decide)).bind fun _ => avoids_ok
  · exact avoids_error (by decide)

theorem requireBackupCodeHashes_avoids : Avoids lateErrors (requireBackupCodeHashes k v) := by
  unfold requireBackupCodeHashes
  split
  · exact avoids_ok
  · exact (avoids_require (by decide)).bind fun _ => (avoids_orRaise (by decide)).bind
      fun _ => readCodes_avoids.map
  · exact avoids_error (by decide)

theorem mergeCodes_avoids : Avoids lateErrors (mergeCodes k archived existing) := by
  refine requireBackupCodeHashes_avoids.bind fun a => requireBackupCodeHashes_avoids.bind fun b => ?_
  split <;> exact avoids_ok

end

/-! ### Merging -/

section

variable {py : Python} {k : Codec} {archived record : Record} {current : Row}
  {currentGrants archivedGrants : List (Value × Value)} {provider : Bool}

theorem requireSameAccount_avoids : Avoids lateErrors
    (requireSameAccount py k.formats archived current currentGrants archivedGrants) := by
  refine (avoids_require (by decide)).bind fun _ => (avoids_require (by decide)).bind fun _ =>
    (avoids_require (by decide)).bind fun _ => (avoids_forM (fun field => ?_) _).bind fun _ =>
      (avoids_require (by decide)).bind fun _ => avoids_require (by decide)
  exact plainSeed_avoids.bind fun _ => avoids_require (by decide)

theorem mergeExistingUser_avoids : Avoids lateErrors
    (mergeExistingUser py k.formats archived current currentGrants archivedGrants) :=
  requireSameAccount_avoids.bind fun _ => readTime_avoids.map.bind fun _ =>
    readTime_avoids.map.bind fun _ => mergeCodes_avoids.bind fun _ => mergeCodes_avoids.bind
      fun _ => avoids_ok

theorem destinationMember_avoids {m : String × Value} :
    Avoids lateErrors (destinationMember k.formats m) := by
  unfold destinationMember
  split
  · exact avoids_ok
  split
  · exact readTime_avoids.map.map
  · exact avoids_ok

theorem destinationFields_avoids :
    Avoids lateErrors (destinationFields k.formats provider record) := by
  unfold destinationFields
  split
  · exact (avoids_require (by decide)).bind fun _ => avoids_ok
  · exact (avoids_mapM (fun _ => destinationMember_avoids) _).map

end

namespace Core

/-! ### The loops -/

section

variable {c : Call} {codec : Codec} {t : Tables} {s : Progress} {kind : Kind} {pk : Value}
  {existing : Option Row} {record : Record} {grants : List Dict} {portable : Dict} {dryRun : Bool}

theorem readRecord_avoids : Avoids lateErrors (readRecord c kind record) := by
  refine (avoids_mapM (fun m => ?_) _).map
  unfold readMember
  split
  · split
    · exact (avoids_orRaise (by decide)).map
    · exact avoids_ok
  · exact avoids_ok

theorem portableUser_avoids (formats : c.formats = codec.formats) :
    Avoids lateErrors (portableUser c t grants pk existing record) := by
  refine (avoids_require (by decide)).bind fun _ => ?_
  split
  · exact avoids_ok
  · split
    · rw [formats]
      exact mergeExistingUser_avoids
    · exact avoids_ok

theorem secureRecord_avoids (formats : c.formats = codec.formats) :
    Avoids lateErrors (secureRecord c t grants kind pk existing portable record) := by
  unfold secureRecord
  split
  · rw [formats]
    have sealed : Avoids lateErrors (do
        let sealed ← destinationFields codec.formats true (portableRecord portable)
        readRecord c .ssoProvider sealed) := destinationFields_avoids.bind fun _ => readRecord_avoids
    split
    · exact (avoids_require (by decide)).bind fun _ => sealed
    · exact avoids_ok.bind fun _ => sealed
  · refine (portableUser_avoids formats).bind fun _ => ?_
    rw [formats]
    exact destinationFields_avoids.bind fun _ => readRecord_avoids
  · exact avoids_ok

theorem freshSession_avoids : Avoids lateErrors (freshSession c kind existing record) := by
  unfold freshSession
  split
  · split
    · refine (avoids_require (by decide)).bind fun _ => ?_
      dsimp only
      split <;> exact avoids_ok
    · exact avoids_ok
  · exact avoids_ok

theorem judge_avoids (formats : c.formats = codec.formats) :
    Avoids lateErrors (judge c s grants kind portable pk record) := by
  unfold judge
  dsimp only
  split
  · split
    · exact avoids_error (by decide)
    · exact avoids_ok
  split
  · split
    · exact avoids_error (by decide)
    · exact avoids_ok
  unfold resolve
  split
  · exact avoids_ok
  dsimp only
  split
  · exact avoids_ok
  · exact (secureRecord_avoids formats).bind fun _ => freshSession_avoids.bind fun _ => avoids_ok

theorem examine_avoids {json : Json} : Avoids lateErrors (examine c kind json) := by
  unfold examine
  split
  · exact avoids_ok
  split
  · exact avoids_error (by decide)
  split <;> exact avoids_ok

theorem avoids_administrators {α : Type} {x : Except Error α} (late : Avoids lateErrors x) :
    Avoids administratorErrors x :=
  fun e mem => late e (List.mem_cons_of_mem _ mem)

theorem settle_avoids {p : Pass} {fate : Fate} :
    Avoids administratorErrors (p.settle c dryRun kind pk fate) := by
  cases fate with
  | skipped rejected => exact avoids_ok
  | taken existing secured record => exact (avoids_require (by decide)).bind fun _ => avoids_ok

theorem restoreOne_avoids {p : Pass} {json : Json} (formats : c.formats = codec.formats) :
    Avoids administratorErrors (restoreOne c dryRun grants kind p json) := by
  unfold restoreOne
  refine (avoids_administrators examine_avoids).bind fun reading => ?_
  cases reading with
  | skipped rejected => exact avoids_ok
  | record portable pk record =>
    exact (avoids_require (by decide)).bind fun _ => (avoids_administrators (judge_avoids formats)).bind
      fun _ => settle_avoids

theorem records_avoids {a : Archive} : Avoids lateErrors (a.records kind) := by
  unfold Archive.records
  split
  · exact avoids_ok
  · exact avoids_ok
  · exact avoids_ok
  · split
    · exact avoids_ok
    · exact avoids_orRaise (by decide)

theorem restoreKinds_avoids {a : Archive} {kinds : List Kind} (formats : c.formats = codec.formats) :
    Avoids administratorErrors (restoreKinds c dryRun a s kinds) := by
  induction kinds generalizing s with
  | nil => exact avoids_ok
  | cons kind kinds ih =>
    unfold restoreKinds
    refine Avoids.bind ?_ fun one => ih.bind fun _ => avoids_ok
    unfold restoreKind
    exact (avoids_administrators records_avoids).bind fun records =>
      (avoids_foldlM (fun _ _ => restoreOne_avoids formats) _ _).bind fun _ => avoids_ok

end

/-! ### Refused writes -/

/-- The database refuses the record when it is written to `s`. -/
def refused (c : Call) (a : Archive) (kind : Kind) (s : Progress) (json : Json) : Bool :=
  match examine c kind json with
  | .ok (.record portable pk record) =>
    match judge c s a.grants kind portable pk record with
    | .ok (.taken existing _ record) => !flushes c s.tables kind pk existing record
    | _ => false
  | _ => false

/-- The progress behind a record that was written. -/
def landOne (c : Call) (a : Archive) (kind : Kind) (s : Progress) (json : Json) : Progress :=
  match examine c kind json with
  | .ok (.record portable pk record) =>
    match judge c s a.grants kind portable pk record with
    | .ok (.taken existing secured record) => s.take c false kind pk existing secured record
    | _ => s
  | _ => s

def anyRefused (c : Call) (a : Archive) (kind : Kind) : Progress → List Json → Bool
  | _, [] => false
  | s, json :: records => refused c a kind s json || anyRefused c a kind (landOne c a kind s json) records

def land (c : Call) (a : Archive) (kind : Kind) (s : Progress) : Progress :=
  match a.records kind with
  | .ok records => records.foldl (landOne c a kind) s
  | .error _ => s

def kindsRefused (c : Call) (a : Archive) : Progress → List Kind → Bool
  | _, [] => false
  | s, kind :: kinds =>
    (match a.records kind with
      | .ok records => anyRefused c a kind s records
      | .error _ => false) || kindsRefused c a (land c a kind s) kinds

/-- The database refuses a record of the archive, behind those in front of it. -/
def restoreRefused (c : Call) (t : Tables) (data : Dict) : Bool :=
  match openArchive c data with
  | .ok a => kindsRefused c a (start t) (restoreMap c)
  | .error _ => false

section

variable {c : Call} {codec : Codec} {s : Progress} {kind : Kind} {a : Archive} {json : Json}
  {p p' : Pass} {records : List Json}

theorem restoreOne_landed (h : restoreOne c false a.grants kind p json = .ok p') :
    refused c a kind p.progress json = false ∧ p'.progress = landOne c a kind p.progress json := by
  unfold restoreOne at h
  obtain ⟨reading, read, h⟩ := bind_ok h
  cases reading with
  | skipped rejected =>
    obtain rfl := Except.ok.inj h
    simp [refused, landOne, read, Pass.skip]
  | record portable pk record =>
    obtain ⟨-, h⟩ := require_bind h
    obtain ⟨fate, judged, h⟩ := bind_ok h
    cases fate with
    | skipped rejected =>
      obtain rfl := Except.ok.inj h
      simp [refused, landOne, read, judged, Pass.skip]
    | taken existing secured record' =>
      obtain ⟨flushed, h⟩ := require_bind h
      obtain rfl := Except.ok.inj h
      rw [Bool.false_or] at flushed
      simp [refused, landOne, read, judged, Pass.take, flushed]

theorem restoreOne_refused (formats : c.formats = codec.formats)
    (h : restoreOne c false a.grants kind p json = .error databaseError) :
    refused c a kind p.progress json = true := by
  have late : databaseError ∈ lateErrors := List.mem_cons_self
  unfold restoreOne at h
  obtain ⟨reading, read, h⟩ := (bind_error h).resolve_left (examine_avoids _ late)
  cases reading with
  | skipped rejected => cases h
  | record portable pk record =>
    obtain ⟨_, -, h⟩ := (bind_error h).resolve_left (avoids_require (by decide) _ late)
    obtain ⟨fate, judged, h⟩ := (bind_error h).resolve_left (judge_avoids formats _ late)
    cases fate with
    | skipped rejected => cases h
    | taken existing secured record' =>
      rcases require_error h with ⟨flushed, -⟩ | ⟨-, last⟩
      · rw [Bool.false_or] at flushed
        simp [refused, read, judged, flushed]
      · cases last

theorem foldlM_landed (h : records.foldlM (restoreOne c false a.grants kind) p = .ok p') :
    anyRefused c a kind p.progress records = false ∧
      p'.progress = records.foldl (landOne c a kind) p.progress := by
  induction records generalizing p with
  | nil =>
    obtain rfl := Except.ok.inj h
    exact ⟨rfl, rfl⟩
  | cons json records ih =>
    obtain ⟨next, one, rest⟩ := foldlM_cons_ok.mp h
    obtain ⟨taken, landed⟩ := restoreOne_landed one
    have behind := ih rest
    rw [landed] at behind
    exact ⟨by rw [anyRefused, taken, behind.1]; rfl, behind.2⟩

theorem foldlM_refused (formats : c.formats = codec.formats)
    (h : records.foldlM (restoreOne c false a.grants kind) p = .error databaseError) :
    anyRefused c a kind p.progress records = true := by
  induction records generalizing p with
  | nil => cases h
  | cons json records ih =>
    rw [List.foldlM_cons] at h
    rw [anyRefused, Bool.or_eq_true]
    rcases bind_error h with stopped | ⟨next, one, rest⟩
    · exact .inl (restoreOne_refused formats stopped)
    · have behind := ih rest
      rw [(restoreOne_landed one).2] at behind
      exact .inr behind

/-- A restore that gets through its loops was refused nothing. -/
theorem restoreKinds_landed {kinds : List Kind} {s' : Progress} {counts : List (Kind × Counts)}
    (h : restoreKinds c false a s kinds = .ok (s', counts)) : kindsRefused c a s kinds = false := by
  induction kinds generalizing s s' counts with
  | nil => rfl
  | cons kind kinds ih =>
    unfold restoreKinds at h
    obtain ⟨⟨next, n⟩, one, h⟩ := bind_ok h
    obtain ⟨⟨last, ns⟩, others, -⟩ := bind_ok h
    unfold restoreKind at one
    obtain ⟨records, listed, one⟩ := bind_ok one
    obtain ⟨pass, run, one⟩ := bind_ok one
    obtain ⟨rfl, -⟩ := Prod.mk.inj (Except.ok.inj one)
    obtain ⟨taken, landed⟩ := foldlM_landed run
    have behind := ih others
    dsimp only at taken behind
    rw [landed] at behind
    rw [kindsRefused, land, listed]
    dsimp only
    rw [taken, Bool.false_or]
    exact behind

/-- A restore that the database stops was refused a record. -/
theorem restoreKinds_refused {kinds : List Kind} (formats : c.formats = codec.formats)
    (h : restoreKinds c false a s kinds = .error databaseError) : kindsRefused c a s kinds = true := by
  have late : databaseError ∈ lateErrors := List.mem_cons_self
  induction kinds generalizing s with
  | nil => cases h
  | cons kind kinds ih =>
    unfold restoreKinds at h
    rw [kindsRefused, Bool.or_eq_true]
    rcases bind_error h with stopped | ⟨⟨next, n⟩, one, h⟩
    · unfold restoreKind at stopped
      obtain ⟨records, listed, stopped⟩ := (bind_error stopped).resolve_left (records_avoids _ late)
      rcases bind_error stopped with refused | ⟨pass, -, last⟩
      · rw [listed]
        exact .inl (foldlM_refused formats refused)
      · cases last
    · unfold restoreKind at one
      obtain ⟨records, listed, one⟩ := bind_ok one
      obtain ⟨pass, run, one⟩ := bind_ok one
      obtain ⟨rfl, -⟩ := Prod.mk.inj (Except.ok.inj one)
      have landed := (foldlM_landed run).2
      rcases bind_error h with behind | ⟨_, -, last⟩
      · have taken := ih behind
        dsimp only at taken landed
        rw [landed] at taken
        refine .inr ?_
        rw [land, listed]
        exact taken
      · cases last

end

/-! ### The last check -/

/-- The checks behind the loops, which return nothing but the result. -/
def closing (c : Call) (dryRun : Bool) (s : Progress) (counts : List (Kind × Counts)) :
    Except Error (Tables × List (Kind × Counts)) := do
  require (!(s.moved.any (strands s)))
    "Core restore would leave dependent resources in another site."
  if c.securityRestore then requireAdministratorSurvivors c dryRun s else .ok ()
  .ok (s.tables, counts)

theorem restoreArchive_closing (c : Call) (dryRun : Bool) (t : Tables) (a : Archive) :
    restoreArchive c dryRun t a = (restoreKinds c dryRun a (start t) (restoreMap c) >>= fun x =>
      closing c dryRun x.1 x.2) := rfl

/-- A computation with a last step that only returns raises what the computation raises. -/
theorem bind_ok_error {ε α β : Type} {x : Except ε α} {f : α → β} {e : ε} :
    (x >>= fun a => (.ok (f a) : Except ε β)) = .error e ↔ x = .error e := by
  constructor
  · intro raised
    exact (bind_error raised).resolve_right fun ⟨_, _, last⟩ => by cases last
  · rintro rfl
    rfl

theorem Synced.closing {c : Call} {db : Database} {done : List Kind} {p r : Progress} {e : Error}
    {n m : List (Kind × Counts)} (synced : Synced c db done p r)
    (places : ∀ parent ∈ p.moved, parent.1 = .controller ∨ parent.1 = .credential) :
    Core.closing c true p n = .error e ↔ Core.closing c false r m = .error e := by
  have same : p.moved.any (Core.strands p) = r.moved.any (Core.strands r) := by
    rw [← synced.agree.moved, Bool.eq_iff_iff, List.any_eq_true, List.any_eq_true]
    refine exists_congr fun parent => and_congr_right fun mem => ?_
    rw [synced.strands (places parent mem)]
  unfold Core.closing
  rw [same]
  cases require (!(r.moved.any (Core.strands r)))
      "Core restore would leave dependent resources in another site." with
  | error e' => exact Iff.rfl
  | ok u =>
    rw [ok_bind rfl, ok_bind rfl]
    dsimp only
    cases security : c.securityRestore with
    | true =>
      rw [if_pos rfl, if_pos rfl, synced.survivors security, bind_ok_error, bind_ok_error]
    | false =>
      rw [if_neg (by decide), if_neg (by decide), bind_ok_error, bind_ok_error]

/-- A preview of a vault restore raises an error about administrators just when the restore does, unless
the database refuses a record of the restore. -/
theorem administrator_errors {c : Call} {codec : Codec} (formats : c.formats = codec.formats)
    (db : Database) (data : Dict) {e : Error} (mem : e ∈ administratorErrors) :
    (restoreData c true true db.tables data = .error e ↔
      restoreData c false true db.tables data = .error e) ↔
    (restoreData c true true db.tables data = .error e → restoreRefused c db.tables data = false) := by
  unfold restoreData restoreRefused
  cases opens : openArchive c data with
  | error e' => exact iff_of_true Iff.rfl fun _ => rfl
  | ok a =>
    rw [ok_bind rfl, ok_bind rfl]
    dsimp only
    have free (dryRun : Bool) {message : Error} :
        require (!(c.restoreUsers && !dryRun && !true)) message = (.ok () : Except Error Unit) := by
      simp [require]
    rw [ok_bind (free true), ok_bind (free false), restoreArchive_closing, restoreArchive_closing]
    have synced : Synced c db [] (start db.tables) (start db.tables) := .start
    have both := synced.kinds_lockstep (openArchive_opened opens) restoreMap_ordered restoreMap_grants
    have clear (dryRun : Bool) : restoreKinds c dryRun a (start db.tables) (restoreMap c) ≠ .error e :=
      restoreKinds_avoids formats e mem
    have apart (dryRun : Bool) {e' : Error}
        (raised : restoreKinds c dryRun a (start db.tables) (restoreMap c) = .error e') : e' ≠ e := by
      rintro rfl
      exact clear dryRun raised
    cases preview : restoreKinds c true a (start db.tables) (restoreMap c) with
    | error e₁ =>
      have first : (Except.error e₁ : Except Error (Tables × List (Kind × Counts))) ≠ .error e :=
        fun same => apart true preview (Except.error.inj same)
      rw [preview] at both
      cases real : restoreKinds c false a (start db.tables) (restoreMap c) with
      | ok y =>
        rw [real] at both
        exact both.elim
      | error e₂ =>
        refine iff_of_true (iff_of_false first fun same => ?_) fun same => absurd same first
        exact apart false real (Except.error.inj same)
    | ok x =>
      rw [preview] at both
      cases real : restoreKinds c false a (start db.tables) (restoreMap c) with
      | error e₂ =>
        -- the preview gets through the loops, so that only the database can have stopped the restore
        rw [real] at both
        obtain rfl : e₂ = databaseError := both
        have second : (Except.error databaseError : Except Error (Tables × List (Kind × Counts))) ≠ .error e :=
          fun same => apart false real (Except.error.inj same)
        have refused := restoreKinds_refused formats real
        constructor
        · exact fun same raised => absurd (same.mp raised) second
        · exact fun free => iff_of_false (fun raised => by
            rw [free raised] at refused
            cases refused) second
      | ok y =>
        rw [real] at both
        obtain ⟨⟨done, synced⟩, -⟩ := both
        exact iff_of_true (synced.closing (moved_parents preview restoreMap_ordered))
          fun _ => restoreKinds_landed real

end Core

end FreeSdn.Backup
