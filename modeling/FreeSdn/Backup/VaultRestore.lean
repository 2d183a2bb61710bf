import FreeSdn.Backup.VaultGrants

/-! A vault restore that overwrites, from its archive to the tables behind it: no account that was there
gains authority, and the organization and the platform keep an administrator. -/

namespace FreeSdn.Backup.Core

open FreeSdn.Lib

variable {c : Call} {db : Database} {s s' : Progress} {done : List Kind} {kind : Kind}
  {record archived secured : Record} {row : Row} {pk v : Value} {existing : Option Row}
  {grants : List Dict} {portable d : Dict} {t : Tables} {g : String}

/-! ### The archived accounts are taken -/

theorem ValidUser.examined (valid : ValidUser c d) (secrets : c.includeSecrets = true) :
    ∃ id record, member d "id" = .str (c.py.str (.uuid id)) ∧
      examine c .user (.obj d) = .ok (.record d (.uuid id) record) := by
  obtain ⟨id, name⟩ := valid.id
  have nodup : (d.map Prod.fst).Nodup := by
    rw [valid.keys]
    decide
  have found {g : String} (field : g ∈ userFields) : d.lookup g = some (member d g) := by
    obtain ⟨v, there⟩ := Option.isSome_iff_exists.mp (lookup_key (valid.keys ▸ field))
    rw [member, there]
    rfl
  have readable : ∀ m ∈ d, ∃ v, readField c.py Kind.user.model m.1 m.2 = some v := by
    intro m mem
    have field : m.1 ∈ userFields := valid.keys ▸ List.mem_map_of_mem mem
    have here := member_of_mem mem nodup
    by_cases column : m.1 ∈ Kind.user.model.uuidFields
    · have names := column
      simp only [Kind.model, userModel, List.mem_cons, List.not_mem_nil, or_false] at names
      rcases names with same | same | same | same | same <;> rw [same] at here field column ⊢
      · exact ⟨_, readField_uuid column (here.trans name) (c.readText id)⟩
      · exact ⟨_, readField_uuid column (here.trans valid.organization) (c.readText c.org)⟩
      · rcases valid.bound with null | ⟨provider, text⟩
        · rw [here, null]
          exact ⟨.none, if_pos column⟩
        · exact ⟨_, readField_uuid column (here.trans text) (c.readText provider)⟩
      · exact absurd field (by decide)
      · exact absurd field (by decide)
    · exact ⟨_, readField_plain column⟩
  obtain ⟨record, read⟩ := examine_known secrets (by decide) (by decide) readable (by decide)
    ((found (by decide)).trans (congrArg some name))
    (.inr ⟨(found (by decide)).trans (congrArg some valid.organization), by decide⟩)
  exact ⟨id, record, name, read⟩

/-- A vault skips no account. -/
theorem judge_account_taken {fate : Fate} (security : c.securityRestore = true)
    (h : judge c s grants .user portable pk record = .ok fate) :
    ∃ existing secured record', fate = .taken existing secured record' := by
  have guarded : c.secured .user = true := by simp [Call.secured, security]
  unfold judge at h
  dsimp only at h
  rw [guarded] at h
  split at h
  · cases h
  rename_i stored
  split at h
  · cases h
  unfold resolve at h
  rw [if_neg (by simp)] at h
  dsimp only at h
  have same : counterpart s.tables .user (load s.tables .user pk) record = load s.tables .user pk :=
    if_neg (by decide)
  rw [same, if_neg stored] at h
  obtain ⟨secured, -, h⟩ := bind_ok h
  obtain ⟨record', -, h⟩ := bind_ok h
  exact ⟨_, secured, record', (Except.ok.inj h).symm⟩

theorem restoreOne_account {p p' : Pass} (security : c.securityRestore = true) (valid : ValidUser c d)
    (h : restoreOne c false grants .user p (.obj d) = .ok p') :
    ∃ id archived existing secured record, member d "id" = .str (c.py.str (.uuid id)) ∧
      .uuid id ∉ p.seen ∧
      Taken c p.progress grants .user d (.uuid id) archived existing secured record ∧
      p' = Pass.take c { p with seen := p.seen ++ [.uuid id] } false .user (.uuid id) existing secured
        record := by
  obtain ⟨id, archived, name, read⟩ := valid.examined (securityRestore_secrets security)
  unfold restoreOne at h
  obtain ⟨reading, read', h⟩ := bind_ok h
  rw [read] at read'
  obtain rfl := Except.ok.inj read'
  dsimp only at h
  obtain ⟨new, h⟩ := require_bind h
  obtain ⟨fate, judged, h⟩ := bind_ok h
  obtain ⟨existing, secured, record, rfl⟩ := judge_account_taken security judged
  obtain ⟨-, h⟩ := require_bind h
  exact ⟨id, archived, existing, secured, record, name, by simpa using new, judge_taken judged,
    (Except.ok.inj h).symm⟩

/-! ### Sessions -/

/-- The account has no session left. -/
def Revoked (t : Tables) (account : Value) : Prop :=
  ∀ u ∈ t .userSession, u.column "user_id" = account → u.column "is_revoked" = .json (.bool true)

theorem Revoked.revoke {account : Value} (revoked : Revoked t account) (user : Value) :
    Revoked (Core.revoke t user) account := by
  intro u mem named
  unfold Core.revoke at mem
  rw [put_same] at mem
  obtain ⟨old, before, rfl⟩ := List.mem_map.mp mem
  by_cases here : old.column "user_id" = user
  · simp [here]
  · rw [if_neg here] at named ⊢
    exact revoked old before named

theorem revoke_revoked (t : Tables) (user : Value) : Revoked (Core.revoke t user) user := by
  intro u mem named
  unfold Core.revoke at mem
  rw [put_same] at mem
  obtain ⟨old, before, rfl⟩ := List.mem_map.mp mem
  by_cases here : old.column "user_id" = user
  · simp [here]
  · rw [if_neg here] at named
    exact absurd named here

/-- A write brings no session back. -/
theorem Revoked.written {account : Value} (revoked : Revoked t account)
    (other : Kind.userSession ≠ kind) : Revoked (written c t kind pk existing record) account := by
  have put {rows : List Row} : Revoked (t.put kind rows) account := by
    intro u mem
    rw [put_other other] at mem
    exact revoked u mem
  unfold Core.written
  cases existing with
  | none => exact put
  | some row =>
    dsimp only
    split
    · split
      · exact put.revoke _
      · exact put
    · exact revoked

theorem written_revoked (secrets : c.includeSecrets = true) (replaces : c.overwriteExisting = true) :
    Revoked (written c t .user pk (some row) record) (row.column "id") := by
  unfold written
  dsimp only
  rw [if_pos replaces, if_pos (by simp [secrets])]
  exact revoke_revoked _ _

/-! ### The loop over the accounts -/

/-- The account `row` behind a restore of the archived account `d`: no more permissive, and without
sessions. -/
structure Kept (k : Codec) (d : Dict) (row : Row) (t : Tables) : Prop where
  stricter : ∃ now ∈ t .user, now.column "id" = row.column "id" ∧ Stricter k row d now
  sessions : Revoked t (row.column "id")

/-- The real loop within the accounts of a vault, after those of `pre`. -/
structure Settled (vault : Vault) (db : Database) (done : List Kind) (grants pre : List Dict) (p : Pass) :
    Prop where
  ran : Ran vault.call db.tables done p.progress
  first : SeenFirst .user p
  accounts : Accounts vault.call db p.progress pre
  access : p.progress.tables .userSiteAccess = db.tables .userSiteAccess
  preserved : p.progress.preserved = []
  kept : ∀ d ∈ pre, ∀ row ∈ db.tables .user,
    row.column "id" = identifier vault.call.py (member d "id") →
    Kept vault.codec d row p.progress.tables ∧
      sameGrants (currentGrants vault.call db.tables row) (archivedGrants vault.call grants row) = true

theorem currentGrants_congr {t' : Tables} (same : t .userSiteAccess = t' .userSiteAccess) :
    currentGrants c t row = currentGrants c t' row := by
  unfold currentGrants
  rw [same]

theorem Settled.take {vault : Vault} {pre : List Dict} {p p' : Pass}
    (settled : Settled vault db done grants pre p) (current : .user ∈ done)
    (valid : ValidUser vault.call d) (distinct : ∀ x ∈ pre, member x "id" ≠ member d "id")
    (valids : ∀ x ∈ pre, ValidUser vault.call x)
    (h : restoreOne vault.call false grants .user p (.obj d) = .ok p') :
    Settled vault db done grants (pre ++ [d]) p' := by
  obtain ⟨id, archived, existing, secured, record, name, new, taken, rfl⟩ :=
    restoreOne_account vault.security valid h
  have secrets := securityRestore_secrets vault.security
  have given : Value.uuid id ≠ .none := by simp [Value.none]
  have fresh := settled.first.fresh new
  have found := taken.lookup_eq given rfl
  have tables : (p.progress.take vault.call false .user (.uuid id) existing secured record).tables =
      written vault.call p.progress.tables .user (.uuid id) existing record := rfl
  have rows {r : Row} :
      r ∈ written vault.call p.progress.tables .user (.uuid id) existing record .user ↔ _ :=
    mem_written rfl (settled.ran.unique .user) taken.stored_mem
  have noted : ∀ row, existing = some row → row.column "id" = .uuid id := by
    rintro row rfl
    exact Table.lookup_key found.symm
  refine ⟨settled.ran.take current rfl given taken, settled.first.take,
    settled.accounts.take settled.ran vault.security valid.toGoodUser given fresh taken, ?_, ?_, ?_⟩
  · show written vault.call p.progress.tables .user (.uuid id) existing record .userSiteAccess = _
    rw [written_other (by decide) rfl]
    exact settled.access
  · show (Core.noted vault.call p.progress .user (.uuid id) existing secured record).preserved = _
    simp [Core.noted, vault.overwrites, settled.preserved]
  · intro x mem row stored named
    show Kept vault.codec x row
      (written vault.call p.progress.tables .user (.uuid id) existing record) ∧ _
    rcases List.mem_append.mp mem with before | last
    · -- an account of before has another identifier
      obtain ⟨⟨⟨now, there, same, stricter⟩, sessions⟩, sites⟩ := settled.kept x before row stored named
      refine ⟨⟨⟨now, rows.mpr (.inr ⟨there, fun old known equal => ?_⟩), same, stricter⟩,
        sessions.written (by decide)⟩, sites⟩
      rw [noted old known, same, named] at equal
      obtain ⟨id', name'⟩ := (valids x before).id
      rw [name', identifier_str] at equal
      exact distinct x before (by rw [name, name', Value.uuid.inj equal])
    · rw [List.mem_singleton.mp last] at named ⊢
      rw [name, identifier_str] at named
      have there : existing = some row := by
        rw [found, settled.ran.kept .user rfl _ fresh, ← named]
        exact (db.unique .user).lookup stored
      subst there
      obtain ⟨stricter, sites⟩ := taken.stricter valid stored
      rw [currentGrants_congr settled.access] at sites
      refine ⟨⟨⟨_, rows.mpr (.inl rfl), ?_, ?_⟩, written_revoked secrets vault.overwrites⟩, sites⟩
      · rw [writtenRow, if_pos vault.overwrites, updatedRow_id]
      · rw [writtenRow, if_pos vault.overwrites]
        exact stricter

/-- The whole loop over the accounts. -/
theorem Settled.loop {vault : Vault} {pre ds : List Dict} {p p' : Pass}
    (settled : Settled vault db done grants pre p) (current : .user ∈ done)
    (valid : ∀ x ∈ pre ++ ds, ValidUser vault.call x)
    (distinct : (pre ++ ds).Pairwise fun x y => member x "id" ≠ member y "id")
    (h : (ds.map Json.obj).foldlM (restoreOne vault.call false grants .user) p = .ok p') :
    Settled vault db done grants (pre ++ ds) p' := by
  induction ds generalizing pre p with
  | nil =>
    obtain rfl := Except.ok.inj h
    rw [List.append_nil]
    exact settled
  | cons d ds ih =>
    rw [List.map_cons, foldlM_cons_ok] at h
    obtain ⟨next, one, rest⟩ := h
    have step := settled.take current (valid d (by simp))
      (fun x mem => (List.pairwise_append.mp distinct).2.2 x mem d List.mem_cons_self)
      (fun x mem => valid x (List.mem_append_left _ mem)) one
    have whole : pre ++ d :: ds = pre ++ [d] ++ ds := by simp
    rw [whole] at valid distinct ⊢
    exact ih step valid distinct rest


/-! ### The loops of a vault -/

/-- The resources in front of the accounts. -/
def resources (c : Call) : List Kind :=
  [.site, .credential, .controller, .automationRule] ++ (if c.restoreDevices then [.device] else []) ++
    [.ssoProvider]

theorem restoreMap_vault (security : c.securityRestore = true) :
    restoreMap c = resources c ++ [.user, .userSiteAccess] := by
  have users : c.restoreUsers = true := by
    simp only [Call.securityRestore, Bool.and_eq_true] at security
    exact security.2
  simp [restoreMap, resources, security, users]

theorem resources_ordered : Ordered [] (resources c) := by
  unfold resources
  cases c.restoreDevices <;> simp [Ordered, consumers, Kind.restored, Kind.access]

theorem resources_away : .user ∉ resources c ∧ .userSiteAccess ∉ resources c := by
  unfold resources
  cases c.restoreDevices <;> simp

theorem restoreKinds_append {dryRun : Bool} {a : Archive} {kinds rest : List Kind}
    {counts : List (Kind × Counts)}
    (h : restoreKinds c dryRun a s (kinds ++ rest) = .ok (s', counts)) :
    ∃ mid n m, restoreKinds c dryRun a s kinds = .ok (mid, n) ∧
      restoreKinds c dryRun a mid rest = .ok (s', m) := by
  induction kinds generalizing s counts with
  | nil => exact ⟨s, [], counts, rfl, h⟩
  | cons kind kinds ih =>
    rw [List.cons_append] at h
    unfold restoreKinds at h
    obtain ⟨⟨next, one⟩, first, h⟩ := bind_ok h
    obtain ⟨⟨last, others⟩, remaining, h⟩ := bind_ok h
    obtain ⟨rfl, -⟩ := Prod.mk.inj (Except.ok.inj h)
    obtain ⟨mid, n, m, front, behind⟩ := ih remaining
    refine ⟨mid, (kind, one) :: n, m, ?_, behind⟩
    unfold restoreKinds
    rw [ok_bind first]
    dsimp only
    rw [ok_bind front]

/-- In front of the accounts nothing was noted about them. -/
theorem resources_ran {a : Archive} {counts : List (Kind × Counts)}
    (h : restoreKinds c false a (start db.tables) (resources c) = .ok (s, counts)) :
    Ran c db.tables (resources c).reverse s ∧ s.transitions = [] ∧ s.preserved = [] := by
  have run := restoreKinds_inv (P := fun done s => Ran c db.tables done s ∧
    (.user ∉ done → s.transitions = [] ∧ s.preserved = [])) ?_ ?_ ?_ resources_ordered
    ⟨Ran.start db, fun _ => ⟨rfl, rfl⟩⟩ h
  · rw [List.append_nil] at run
    exact ⟨run.1, run.2 fun mem => resources_away.1 (List.mem_reverse.mp mem)⟩
  · rintro kind done s ⟨ran, idle⟩
    exact ⟨ran.mono kind, fun away => idle fun mem => away (List.mem_cons_of_mem kind mem)⟩
  · rintro done s ⟨ran, -⟩
    exact ran.fresh
  · rintro kind done s json portable pk archived existing secured record restored apart ⟨ran, idle⟩
      new read taken
    obtain ⟨-, -, -, -, -, given⟩ := examine_record read
    refine ⟨ran.take List.mem_cons_self restored given taken, fun away => ?_⟩
    have other : kind ≠ .user := by
      rintro rfl
      exact away List.mem_cons_self
    obtain ⟨transitions, preserved⟩ := idle away
    refine ⟨(take_transitions other).trans transitions, ?_⟩
    show (noted c s kind pk existing secured record).preserved = []
    simp [noted, other, preserved]

theorem restoreKind_records {dryRun : Bool} {a : Archive} {n : Counts} {records : List Json}
    (h : restoreKind c dryRun a s kind = .ok (s', n)) (listed : a.records kind = .ok records) :
    ∃ pass, records.foldlM (restoreOne c dryRun a.grants kind) ⟨s, [], ⟨0, 0, 0, 0⟩⟩ = .ok pass ∧
      s' = pass.progress := by
  unfold restoreKind at h
  obtain ⟨records', listed', h⟩ := bind_ok h
  obtain rfl := Except.ok.inj (listed.symm.trans listed')
  obtain ⟨pass, run, h⟩ := bind_ok h
  exact ⟨pass, run, (Prod.mk.inj (Except.ok.inj h)).1.symm⟩

/-- The state behind the loops of a vault. -/
structure Finished (vault : Vault) (db : Database) (accounts : Snapshot) (s : Progress) : Prop where
  kept : ∀ d ∈ accounts.users, ∀ row ∈ db.tables .user,
    row.column "id" = identifier vault.call.py (member d "id") →
    Kept vault.codec d row s.tables ∧ sameGrants (currentGrants vault.call db.tables row)
      (archivedGrants vault.call accounts.grants row) = true
  entries : grantEntries s.tables = (accounts.grants.map (archivedEntry vault.call.py)).foldl Entry.put
    (grantEntries db.tables)
  platform : administrators s.tables Prod.snd (fun _ => true) =
    administrators db.tables Prod.snd (fun _ => true) + gained Prod.snd s.transitions
  organization : administrators s.tables Prod.fst (inOrganization vault.call) =
    administrators db.tables Prod.fst (inOrganization vault.call) + gained Prod.fst s.transitions

theorem Kept.congr {k : Codec} {t' : Tables} (kept : Kept k d row t) (users : t' .user = t .user)
    (sessions : t' .userSession = t .userSession) : Kept k d row t' where
  stricter := by
    rw [users]
    exact kept.stricter
  sessions := by
    unfold Revoked
    rw [sessions]
    exact kept.sessions

/-- A vault restore that gets through its loops. -/
theorem restoreKinds_finished {vault : Vault} {db : Database} {data : Dict} {accounts : Snapshot}
    {counts : List (Kind × Counts)} (valid : ValidSnapshot vault.call accounts)
    (h : restoreKinds vault.call false ⟨data, some accounts⟩ (start db.tables) (restoreMap vault.call) =
      .ok (s, counts)) : Finished vault db accounts s := by
  rw [restoreMap_vault vault.security] at h
  obtain ⟨mid, _, _, front, h⟩ := restoreKinds_append h
  obtain ⟨ran, transitions, preserved⟩ := resources_ran front
  have away {k : Kind} (absent : k ∉ resources vault.call) : k ∉ (resources vault.call).reverse :=
    fun mem => absent (List.mem_reverse.mp mem)
  unfold restoreKinds at h
  obtain ⟨⟨behind, _⟩, users, h⟩ := bind_ok h
  obtain ⟨⟨last, _⟩, rest, h⟩ := bind_ok h
  obtain ⟨rfl, -⟩ := Prod.mk.inj (Except.ok.inj h)
  unfold restoreKinds at rest
  obtain ⟨⟨last, _⟩, grants, rest⟩ := bind_ok rest
  obtain ⟨rfl, -⟩ := Prod.mk.inj (Except.ok.inj rest)
  obtain ⟨pass, run, rfl⟩ := restoreKind_records users rfl
  obtain ⟨pass', run', rfl⟩ := restoreKind_records grants rfl
  have settled : Settled vault db (.user :: (resources vault.call).reverse) accounts.grants []
      ⟨mid, [], ⟨0, 0, 0, 0⟩⟩ := by
    refine ⟨ran.mono .user, fun id row noted => ?_,
      .start (ran.untouched .user (away resources_away.1) rfl) transitions,
      ran.untouched .userSiteAccess (away resources_away.2) rfl, preserved, by simp⟩
    rw [show mid.accepted .user id = none from ran.fresh .user (away resources_away.1) id] at noted
    cases noted
  have looped := settled.loop List.mem_cons_self valid.users valid.names run
  rw [List.nil_append] at looped
  have after := grants_put (p := ⟨pass.progress, [], ⟨0, 0, 0, 0⟩⟩) vault.security vault.overwrites
    valid.grants List.mem_cons_self (looped.ran.mono .userSiteAccess) looped.preserved run'
  have tables : pass'.progress.tables .user = pass.progress.tables .user := after.others .user (by decide)
  have accounts_ := looped.accounts.same tables after.transitions
  refine ⟨fun d mem row stored named => ?_, ?_, accounts_.platform, accounts_.organization⟩
  · obtain ⟨kept, sites⟩ := looped.kept d mem row stored named
    exact ⟨kept.congr tables (after.others .userSession (by decide)), sites⟩
  · rw [after.entries]
    show _ = List.foldl _ ((db.tables .userSiteAccess).map grantEntry) _
    rw [← looped.access]
    rfl

/-! ### Administrators -/

theorem gained_nonneg {bit : Bool × Bool → Bool} {ts : List Transition}
    (none : (ts.any fun x => bit x.before && !bit x.after) = false) : 0 ≤ gained bit ts := by
  induction ts with
  | nil => exact Int.le_refl 0
  | cons x ts ih =>
    rw [List.any_cons, Bool.or_eq_false_iff] at none
    obtain ⟨kept, others⟩ := none
    have rest := ih others
    have total : gained bit (x :: ts) =
        (((bit x.after).toNat : Int) - (bit x.before).toNat) + gained bit ts := by
      simp [gained]
    rw [total]
    cases before : bit x.before with
    | false => simp; omega
    | true =>
      have after : bit x.after = true := by simpa [before] using kept
      simp [after, rest]

theorem administrators_pos {bit : Bool × Bool → Bool} {inScope : Row → Bool} :
    0 < administrators t bit inScope ↔ ∃ u ∈ t .user, counts bit inScope u = true := by
  have count : administrators t bit inScope = ((t .user).countP (counts bit inScope) : Nat) := rfl
  rw [count, Int.natCast_pos, List.countP_pos_iff]

/-- Administrators that are counted along the restore do not vanish without an error. -/
theorem administrator_survives {bit : Bool × Bool → Bool} {inScope : Row → Bool} {t' : Tables}
    (total : administrators t' bit inScope = administrators t bit inScope + gained bit s.transitions)
    (checked : (!(removes s bit && administrators t' bit inScope ≤ 0)) = true)
    (before : ∃ u ∈ t .user, counts bit inScope u = true) :
    ∃ u ∈ t' .user, counts bit inScope u = true := by
  rw [← administrators_pos] at before ⊢
  cases removed : removes s bit with
  | true =>
    rw [removed] at checked
    simpa using checked
  | false =>
    have more := gained_nonneg removed
    omega

end FreeSdn.Backup.Core
