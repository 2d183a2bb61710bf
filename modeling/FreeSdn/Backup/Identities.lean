import FreeSdn.Backup.Coherence

/-! Accounts in a vault restore.  The snapshot has every field of every account, no external identity
twice and no grant twice; what is written for an account keeps the identity of the live one, so that
the checks of later accounts see the identities of before. -/

namespace FreeSdn.Backup.Core

open FreeSdn.Lib

variable {c : Call} {g : String} {record merged secured : Record} {row : Row} {pk : Value}
  {existing : Option Row} {t : Tables} {grants : List Dict} {portable : Dict} {archived : Record}

/-! ### Fields through a pass over a record -/

/-- A pass over the fields of a record that keeps their names: a field is there with the value that
the pass gave it. -/
theorem find_mapM {f : String × Value → Except Error (String × Value)} {fs fs' : List (String × Value)}
    (named : ∀ m m', f m = .ok m' → m'.1 = m.1) (run : fs.mapM f = .ok fs') :
    match (Record.mk fs).find g with
    | none => (Record.mk fs').find g = none
    | some v => ∃ v', f (g, v) = .ok (g, v') ∧ (Record.mk fs').find g = some v' := by
  induction fs generalizing fs' with
  | nil =>
    rw [List.mapM_nil] at run
    obtain rfl := Except.ok.inj run
    rfl
  | cons m fs ih =>
    rw [List.mapM_cons] at run
    obtain ⟨m', one, run⟩ := bind_ok run
    obtain ⟨rest, others, run⟩ := bind_ok run
    obtain rfl := Except.ok.inj run
    have name := named m m' one
    by_cases here : m.1 = g
    · have first : (Record.mk (m :: fs)).find g = some m.2 := by simp [Record.find, here]
      rw [first]
      refine ⟨m'.2, ?_, by simp [Record.find, name, here]⟩
      rw [show (g, m.2) = m from by rw [← here], one, ← here, ← name]
    · have skip : (Record.mk (m :: fs)).find g = (Record.mk fs).find g := by simp [Record.find, here]
      have skip' : (Record.mk (m' :: rest)).find g = (Record.mk rest).find g := by
        simp [Record.find, name, here]
      rw [skip, skip']
      exact ih others

theorem destinationMember_name {f : Formats} (m m' : String × Value)
    (h : destinationMember f m = .ok m') : m'.1 = m.1 := by
  unfold destinationMember at h
  split at h
  · rw [← Except.ok.inj h]
  split at h
  · obtain ⟨v, -, rfl⟩ := map_ok h
    rfl
  · rw [Except.ok.inj h]

theorem readMember_name {kind : Kind} (m m' : String × Value) (h : readMember c kind m = .ok m') :
    m'.1 = m.1 := by
  unfold readMember at h
  split at h
  · split at h
    · obtain ⟨v, -, rfl⟩ := map_ok h
      rfl
    · rw [← Except.ok.inj h]
  · rw [Except.ok.inj h]

/-- Fields that are neither seeds nor times reach the row as they were merged. -/
theorem find_destination (h : destinationFields c.formats false merged = .ok record)
    (plain : g ∉ userSeeds ∧ g ∉ userTimes) : record.find g = merged.find g := by
  unfold destinationFields at h
  rw [if_neg (by decide)] at h
  obtain ⟨fs, run, rfl⟩ := map_ok h
  have passed := find_mapM (g := g) destinationMember_name run
  split at passed
  · rename_i absent
    rw [passed]
    exact absent.symm
  · rename_i v found
    obtain ⟨v', one, there⟩ := passed
    simp only [destinationMember, plain, if_false, Except.ok.injEq, Prod.mk.injEq, true_and] at one
    rw [there, ← one]
    exact found.symm

theorem find_readRecord {kind : Kind} (h : readRecord c kind record = .ok secured)
    (plain : g ∉ kind.model.uuidFields) : secured.find g = record.find g := by
  unfold readRecord at h
  obtain ⟨fs, run, rfl⟩ := map_ok h
  have passed := find_mapM (g := g) readMember_name run
  split at passed
  · rename_i absent
    rw [passed]
    exact absent.symm
  · rename_i v found
    obtain ⟨v', one, there⟩ := passed
    have same : v' = v := by
      unfold readMember at one
      split at one
      · rename_i same
        obtain ⟨rfl, rfl⟩ := Prod.mk.inj same
        rw [if_neg plain] at one
        exact (Prod.mk.inj (Except.ok.inj one)).2.symm
      · exact (Prod.mk.inj (Except.ok.inj one)).2.symm
    rw [there, same]
    exact found.symm

/-- The text of an identifier is read back. -/
theorem find_readRecord_uuid {kind : Kind} {id : Uuid} (h : readRecord c kind record = .ok secured)
    (column : g ∈ kind.model.uuidFields)
    (found : record.find g = some (.json (.str (c.py.str (.uuid id))))) :
    secured.find g = some (.uuid id) := by
  unfold readRecord at h
  obtain ⟨fs, run, rfl⟩ := map_ok h
  have passed := find_mapM (g := g) readMember_name run
  rw [show (Record.mk record.fields).find g = _ from found] at passed
  obtain ⟨v', one, there⟩ := passed
  simp only [readMember, column, if_true, c.readText, orRaise] at one
  rw [there]
  exact congrArg some (Prod.mk.inj (Except.ok.inj one)).2.symm

theorem find_readRecord_null {kind : Kind} (h : readRecord c kind record = .ok secured)
    (found : record.find g = some .none) : secured.find g = some .none := by
  unfold readRecord at h
  obtain ⟨fs, run, rfl⟩ := map_ok h
  have passed := find_mapM (g := g) readMember_name run
  rw [show (Record.mk record.fields).find g = _ from found] at passed
  obtain ⟨v', one, there⟩ := passed
  rw [there]
  exact congrArg some (Prod.mk.inj (Except.ok.inj one)).2.symm

/-! ### The snapshot -/

theorem canonicalUuid_ok {py : Python} {j : Json} {id : Uuid} (h : canonicalUuid py j = .ok id) :
    j = .str (py.str (.uuid id)) := by
  unfold canonicalUuid at h
  split at h
  · split at h
    · split at h
      · rename_i same
        obtain rfl := Except.ok.inj h
        rw [same]
      · cases h
    · cases h
  · cases h

theorem mapM_keys {α : Type} {f : String × α → Except Error (String × α)} {d d' : List (String × α)}
    (named : ∀ m m', f m = .ok m' → m'.1 = m.1) (run : d.mapM f = .ok d') :
    d'.map Prod.fst = d.map Prod.fst := by
  induction d generalizing d' with
  | nil =>
    rw [List.mapM_nil] at run
    obtain rfl := Except.ok.inj run
    rfl
  | cons m d ih =>
    rw [List.mapM_cons] at run
    obtain ⟨m', one, run⟩ := bind_ok run
    obtain ⟨rest, others, run⟩ := bind_ok run
    obtain rfl := Except.ok.inj run
    rw [List.map_cons, List.map_cons, named m m' one, ih others]

theorem pick_keys {fields : List String} {json : Json} {d : Dict} (h : pick fields json = .ok d) :
    d.map Prod.fst = fields := by
  unfold pick at h
  split at h
  · rename_i members
    induction fields generalizing d with
    | nil =>
      rw [List.mapM_nil] at h
      obtain rfl := Except.ok.inj h
      rfl
    | cons field fields ih =>
      rw [List.mapM_cons] at h
      obtain ⟨m, one, h⟩ := bind_ok h
      obtain ⟨rest, others, h⟩ := bind_ok h
      obtain rfl := Except.ok.inj h
      obtain ⟨v, -, rfl⟩ := map_ok one
      rw [List.map_cons, ih others]
  · cases h

theorem isoTimes_keys {f : Formats} {d d' : Dict} (h : isoTimes f d = .ok d') :
    d'.map Prod.fst = d.map Prod.fst := by
  refine mapM_keys (fun m m' one => ?_) h
  split at one
  · obtain ⟨v, -, rfl⟩ := map_ok one
    rfl
  · rw [Except.ok.inj one]

/-- An account of the snapshot. -/
structure GoodUser (py : Python) (d : Dict) : Prop where
  keys : d.map Prod.fst = userFields
  bound : member d "sso_provider_id" = .null ∨
    ∃ id, member d "sso_provider_id" = .str (py.str (.uuid id))

theorem requireBinding_ok {py : Python} {providers : List Dict} {d : Dict}
    (h : requireBinding py providers d = .ok ()) : member d "sso_provider_id" = .null ∨
      ∃ id, member d "sso_provider_id" = .str (py.str (.uuid id)) := by
  unfold requireBinding at h
  split at h
  · obtain ⟨id, read, -⟩ := bind_ok h
    exact .inr ⟨id, canonicalUuid_ok read⟩
  · have passed := require_ok h
    simp only [Bool.and_eq_true, decide_eq_true_eq] at passed
    exact .inl passed.2

theorem validateUser_ok {py : Python} {f : Formats} {org : Uuid} {providers : List Dict} {json : Json}
    {d : Dict} (h : validateUser py f org providers json = .ok d) : GoodUser py d := by
  unfold validateUser at h
  obtain ⟨row, picked, h⟩ := bind_ok h
  obtain ⟨-, -, h⟩ := bind_ok h
  obtain ⟨-, -, h⟩ := bind_ok h
  obtain ⟨-, h⟩ := require_bind h
  obtain ⟨-, h⟩ := require_bind h
  obtain ⟨-, h⟩ := require_bind h
  obtain ⟨-, h⟩ := require_bind h
  obtain ⟨timed, times, h⟩ := bind_ok h
  obtain ⟨_, bound, h⟩ := bind_ok h
  obtain ⟨-, -, h⟩ := bind_ok h
  obtain rfl := Except.ok.inj h
  exact ⟨(isoTimes_keys times).trans (pick_keys picked), requireBinding_ok bound⟩

/-- A grant of the snapshot. -/
structure GoodGrant (py : Python) (d : Dict) : Prop where
  keys : d.map Prod.fst = grantFields
  user : ∃ id, member d "user_id" = .str (py.str (.uuid id))
  site : ∃ id, member d "site_id" = .str (py.str (.uuid id))

theorem pairwise_snoc {α : Type} {R : α → α → Prop} {xs : List α} {x : α} (h : xs.Pairwise R)
    (last : ∀ y ∈ xs, R y x) : (xs ++ [x]).Pairwise R := by
  rw [List.pairwise_append]
  refine ⟨h, List.pairwise_singleton R x, fun y mem z only => ?_⟩
  rw [List.mem_singleton.mp only]
  exact last y mem

/-- The accounts and the grants of a snapshot: complete, and none of them twice. -/
structure GoodSnapshot (py : Python) (accounts : Snapshot) : Prop where
  users : ∀ d ∈ accounts.users, GoodUser py d
  identities : accounts.users.Pairwise fun d x =>
    member x "sso_provider_id" = .null ∨ binding d ≠ binding x
  grants : ∀ d ∈ accounts.grants, GoodGrant py d
  pairs : accounts.grants.Pairwise fun d x => grantPair d ≠ grantPair x

theorem mem_snoc {α : Type} {P : α → Prop} {xs : List α} {x : α} (h : ∀ y ∈ xs, P y) (last : P x) :
    ∀ y ∈ xs ++ [x], P y := by
  intro y mem
  rcases List.mem_append.mp mem with old | new
  · exact h y old
  · rw [List.mem_singleton.mp new]
    exact last

theorem validateSnapshot_good {py : Python} {f : Formats} {org : Uuid} {data : Dict}
    {accounts : Snapshot} (h : validateSnapshot py f org data = .ok accounts) :
    GoodSnapshot py accounts := by
  unfold validateSnapshot at h
  obtain ⟨-, h⟩ := require_bind h
  obtain ⟨archivedUsers, -, h⟩ := bind_ok h
  obtain ⟨archivedProviders, -, h⟩ := bind_ok h
  obtain ⟨archivedGrants, -, h⟩ := bind_ok h
  obtain ⟨providers, -, h⟩ := bind_ok h
  obtain ⟨users, addedUsers, h⟩ := bind_ok h
  obtain ⟨grants, addedGrants, h⟩ := bind_ok h
  obtain rfl := Except.ok.inj h
  have good := foldlM_ok (P := fun users => (∀ d ∈ users, GoodUser py d) ∧
      users.Pairwise fun d x => member x "sso_provider_id" = .null ∨ binding d ≠ binding x) (by
    rintro users json users' ⟨all, distinct⟩ one
    unfold addUser at one
    obtain ⟨row, valid, one⟩ := bind_ok one
    obtain ⟨-, one⟩ := require_bind one
    obtain ⟨new, one⟩ := require_bind one
    obtain rfl := Except.ok.inj one
    refine ⟨mem_snoc all (validateUser_ok valid), pairwise_snoc distinct fun d mem => ?_⟩
    have free := List.all_eq_true.mp new d mem
    simpa using free) ⟨by simp, List.Pairwise.nil⟩ addedUsers
  have goodGrants := foldlM_ok (P := fun grants => (∀ d ∈ grants, GoodGrant py d) ∧
      grants.Pairwise fun d x => grantPair d ≠ grantPair x) (by
    rintro grants json grants' ⟨all, distinct⟩ one
    unfold addGrant at one
    obtain ⟨row, picked, one⟩ := bind_ok one
    obtain ⟨-, -, one⟩ := bind_ok one
    obtain ⟨user, readUser, one⟩ := bind_ok one
    obtain ⟨site, readSite, one⟩ := bind_ok one
    obtain ⟨-, one⟩ := require_bind one
    obtain ⟨new, one⟩ := require_bind one
    obtain ⟨-, one⟩ := require_bind one
    obtain rfl := Except.ok.inj one
    refine ⟨mem_snoc all ⟨pick_keys picked, ⟨user, canonicalUuid_ok readUser⟩, ⟨site, canonicalUuid_ok readSite⟩⟩,
      pairwise_snoc distinct fun d mem => ?_⟩
    have free := List.all_eq_true.mp new d mem
    simp only [Bool.and_eq_true, decide_eq_true_eq] at free
    exact free.2) ⟨by simp, List.Pairwise.nil⟩ addedGrants
  exact ⟨good.1, good.2, goodGrants.1, goodGrants.2⟩

/-! ### The fields of an account on their way to its row -/

theorem find_portableRecord : (portableRecord portable).find g = (portable.lookup g).map .json := by
  induction portable with
  | nil => rfl
  | cons m d ih =>
    obtain ⟨name, v⟩ := m
    rw [List.lookup_cons]
    by_cases here : name = g
    · simp [portableRecord, Record.find, here]
    · have other : (g == name) = false := by simpa using Ne.symm here
      rw [other]
      have rest : (portableRecord ((name, v) :: d)).find g = (portableRecord d).find g := by
        simp [portableRecord, Record.find, here]
      rw [rest]
      exact ih

theorem get_portableRecord : (portableRecord portable).get g = .json (member portable g) := by
  unfold Record.get member
  rw [find_portableRecord]
  cases portable.lookup g with
  | none => rfl
  | some v => rfl

theorem lookup_key {d : Dict} (h : g ∈ d.map Prod.fst) : (d.lookup g).isSome = true := by
  induction d with
  | nil => cases h
  | cons m d ih =>
    obtain ⟨name, v⟩ := m
    rw [List.lookup_cons]
    by_cases here : g = name
    · simp [here]
    · have other : (g == name) = false := by simpa using here
      rw [other]
      exact ih ((List.mem_cons.mp h).resolve_left here)

/-- A field of an account, with its value. -/
theorem GoodUser.find {py : Python} (good : GoodUser py portable) (field : g ∈ userFields) :
    (portableRecord portable).find g = some (.json (member portable g)) := by
  obtain ⟨v, found⟩ := Option.isSome_iff_exists.mp (lookup_key (good.keys ▸ field))
  rw [find_portableRecord, member, found]
  rfl

theorem find_setAll_head {v : Value} {fs : List (String × Value)} (other : ∀ m ∈ fs, m.1 ≠ g) :
    (record.setAll ((g, v) :: fs)).find g = some v := by
  show ((record.set g v).setAll fs).find g = some v
  rw [find_setAll other, Record.find_set, if_pos rfl]

/-- The identity of an account that overwrites the live one is that of the live one. -/
theorem mergeExistingUser_ok {py : Python} {f : Formats} {row : Row}
    {current archived : List (Value × Value)}
    (h : mergeExistingUser py f record row current archived = .ok merged) :
    (∀ g ∈ identityFields, record.get g = row.column g) ∧
      record.get "sso_provider_id" = textOf py (row.column "sso_provider_id") ∧
      merged.find "is_active" = some (bothTrue (record.get "is_active") (row.column "is_active")) ∧
      ∀ g, g = "role" ∨ g = "external_id" ∨ g = "sso_provider_id" → merged.find g = record.find g := by
  unfold mergeExistingUser at h
  obtain ⟨_, same, h⟩ := bind_ok h
  obtain ⟨_, -, h⟩ := bind_ok h
  obtain ⟨_, -, h⟩ := bind_ok h
  obtain ⟨_, -, h⟩ := bind_ok h
  obtain ⟨_, -, h⟩ := bind_ok h
  obtain rfl := Except.ok.inj h
  unfold requireSameAccount at same
  obtain ⟨fields, same⟩ := require_bind same
  obtain ⟨provider, -⟩ := require_bind same
  refine ⟨fun g mem => by simpa using List.all_eq_true.mp fields g mem, by simpa using provider, ?_, ?_⟩
  · exact find_setAll_head (by simp)
  · rintro g (rfl | rfl | rfl) <;> refine find_setAll ?_ <;> simp

/-- The archived account, merged or not, keeps role and external identity. -/
theorem portableUser_ok (h : portableUser c t grants pk existing record = .ok merged) :
    (∀ g, g = "role" ∨ g = "external_id" ∨ g = "sso_provider_id" → merged.find g = record.find g) ∧
      (existing = none → merged.find "is_active" = record.find "is_active") ∧
      ∀ row, existing = some row → c.overwriteExisting = true →
        (∀ g ∈ identityFields, record.get g = row.column g) ∧
        record.get "sso_provider_id" = textOf c.py (row.column "sso_provider_id") ∧
        merged.find "is_active" = some (bothTrue (record.get "is_active") (row.column "is_active")) := by
  unfold portableUser at h
  obtain ⟨-, h⟩ := require_bind h
  cases existing with
  | none =>
    obtain rfl := Except.ok.inj h
    refine ⟨?_, fun _ => ?_, fun row none => by cases none⟩
    · rintro g (rfl | rfl | rfl) <;> rw [Record.find_set, if_neg (by decide)]
    · rw [Record.find_set, if_neg (by decide)]
  | some row =>
    dsimp only at h
    split at h
    · obtain ⟨fields, provider, active, others⟩ := mergeExistingUser_ok h
      refine ⟨others, nofun, fun row' same _ => ?_⟩
      obtain rfl := Option.some.inj same
      exact ⟨fields, provider, active⟩
    · rename_i keep
      obtain rfl := Except.ok.inj h
      exact ⟨fun _ _ => rfl, fun _ => rfl, fun _ _ replaces => absurd replaces keep⟩

/-- What a vault restore writes for an account. -/
structure Secured (c : Call) (portable : Dict) (existing : Option Row) (secured : Record) : Prop where
  role : secured.find "role" = some (.json (member portable "role"))
  externalId : secured.find "external_id" = some (.json (member portable "external_id"))
  provider : member portable "sso_provider_id" = .null ∧ secured.find "sso_provider_id" = some .none ∨
    ∃ id, member portable "sso_provider_id" = .str (c.py.str (.uuid id)) ∧
      secured.find "sso_provider_id" = some (.uuid id)
  inserted : existing = none → ∃ v, secured.find "is_active" = some v
  merged : ∀ row, existing = some row → c.overwriteExisting = true →
    row.column "role" = .json (member portable "role") ∧
    row.column "external_id" = .json (member portable "external_id") ∧
    .json (member portable "sso_provider_id") = textOf c.py (row.column "sso_provider_id") ∧
    ∃ v, secured.find "is_active" = some (bothTrue v (row.column "is_active"))

theorem secureRecord_user (security : c.securityRestore = true) (good : GoodUser c.py portable)
    (h : secureRecord c t grants .user pk existing portable archived = .ok secured) :
    Secured c portable existing secured := by
  unfold secureRecord at h
  rw [security] at h
  dsimp only at h
  obtain ⟨merged, one, h⟩ := bind_ok h
  obtain ⟨record, sealed, read⟩ := bind_ok h
  obtain ⟨same, fresh, replaces⟩ := portableUser_ok one
  have plain {g : String} (seeds : g ∉ userSeeds ∧ g ∉ userTimes) (field : g ∉ Kind.user.model.uuidFields) :
      secured.find g = merged.find g := by
    rw [find_readRecord read field, find_destination sealed seeds]
  have active : secured.find "is_active" = merged.find "is_active" := plain (by decide) (by decide)
  have there {g : String} (field : g ∈ userFields) := good.find field
  constructor
  case role => rw [plain (by decide) (by decide), same _ (.inl rfl), there (by decide)]
  case externalId =>
    rw [plain (by decide) (by decide), same _ (.inr (.inl rfl)), there (by decide)]
  case provider =>
    have found : record.find "sso_provider_id" = some (.json (member portable "sso_provider_id")) := by
      rw [find_destination sealed (by decide), same _ (.inr (.inr rfl)), there (by decide)]
    rcases good.bound with null | ⟨id, text⟩
    · rw [null] at found
      exact .inl ⟨null, find_readRecord_null read found⟩
    · rw [text] at found
      exact .inr ⟨id, text, find_readRecord_uuid read (by decide) found⟩
  case inserted =>
    intro none
    exact ⟨_, by rw [active, fresh none, there (by decide)]⟩
  case merged =>
    intro row known overwrite
    obtain ⟨fields, provider, flag⟩ := replaces row known overwrite
    refine ⟨?_, ?_, ?_, ⟨_, active.trans flag⟩⟩
    · rw [← fields _ (by decide), get_portableRecord]
    · rw [← fields _ (by decide), get_portableRecord]
    · rw [← provider, get_portableRecord]

/-- A new token version changes nothing else. -/
theorem freshSession_find (h : freshSession c .user existing secured = .ok record)
    (version : g ≠ "token_version")
    (disabled : g = "is_active" → ∀ row, existing = some row → c.overwriteExisting = true →
      row.column "is_active" = .json (.bool false) → secured.get "is_active" ≠ .json (.bool true)) :
    record.find g = secured.find g := by
  unfold freshSession at h
  split at h
  · rename_i row
    split at h
    · rename_i account
      simp only [Bool.and_eq_true, decide_true, true_and] at account
      dsimp only at h
      obtain ⟨-, h⟩ := require_bind h
      split at h
      · rename_i reactivates
        obtain rfl := Except.ok.inj h
        simp only [Bool.and_eq_true, decide_eq_true_eq] at reactivates
        rw [Record.find_set]
        split
        · rename_i active
          have enabled := reactivates.2
          rw [Record.get, Record.find_set, if_neg (by decide), ← Record.get] at enabled
          exact absurd enabled (disabled active row rfl account.2 reactivates.1)
        · rw [Record.find_set, if_neg version]
      · obtain rfl := Except.ok.inj h
        rw [Record.find_set, if_neg version]
    · rw [Except.ok.inj h]
  · rw [Except.ok.inj h]

theorem bothTrue_disabled {v : Value} : bothTrue v (.json (.bool false)) ≠ .json (.bool true) := by
  unfold bothTrue
  split
  · simp
  · rename_i off
    exact off

/-- The record of an account has the fields that were secured. -/
theorem Secured.record_find (good : Secured c portable existing secured)
    (h : freshSession c .user existing secured = .ok record) (version : g ≠ "token_version") :
    record.find g = secured.find g := by
  refine freshSession_find h version fun _ row known replaces off => ?_
  obtain ⟨-, -, -, v, active⟩ := good.merged row known replaces
  rw [Record.get, active, off]
  exact bothTrue_disabled

/-! ### Columns of a vault account -/

/-- The fields of an account that a vault may write. -/
theorem account_free (secrets : c.includeSecrets = true)
    (field : g = "role" ∨ g = "external_id" ∨ g = "sso_provider_id" ∨ g = "is_active") :
    g ∉ c.blocked := by
  rcases field with rfl | rfl | rfl | rfl <;> simp [Call.blocked, secrets, audit]

theorem account_column
    (field : g = "role" ∨ g = "external_id" ∨ g = "sso_provider_id" ∨ g = "is_active") :
    g ∈ Kind.user.model.columns := by
  rcases field with rfl | rfl | rfl | rfl <;> decide

theorem updatedRow_account (secrets : c.includeSecrets = true)
    (field : g = "role" ∨ g = "external_id" ∨ g = "sso_provider_id" ∨ g = "is_active")
    {v : Value} (found : record.find g = some v) : (updatedRow c .user row record).column g = v := by
  simp [updatedRow, overwriteRow, find_profileOnly, find_writable, secrets, account_column field,
    account_free secrets field, found]

theorem insertedRow_account (secrets : c.includeSecrets = true)
    (field : g = "role" ∨ g = "external_id" ∨ g = "sso_provider_id" ∨ g = "is_active")
    {v : Value} (found : record.find g = some v) :
    (insertedRow c .user pk record).column g = v := by
  have free := account_free secrets field
  have id : g ≠ "id" := fun same => free (same ▸ id_blocked)
  have org : g ≠ "organization_id" := fun same => free (same ▸ organization_blocked)
  simp [insertedRow, rowOf, insertedFields, find_profileOnly, find_writable, secrets,
    account_column field, free, id, org, found]

/-! ### Identities and administrators along the loop -/

/-- Both rows are the same account to a check of external identities. -/
structure SameIdentity (u v : Row) : Prop where
  id : v.column "id" = u.column "id"
  provider : v.column "sso_provider_id" = u.column "sso_provider_id"
  externalId : v.column "external_id" = u.column "external_id"
  deleted : v.column "deleted_at" = u.column "deleted_at"

theorem SameIdentity.refl (u : Row) : SameIdentity u u := ⟨rfl, rfl, rfl, rfl⟩

/-- The row has the external identity of an archived account. -/
def HasBinding (c : Call) (row : Row) (d : Dict) : Prop :=
  row.column "external_id" = .json (member d "external_id") ∧
    ∃ id, member d "sso_provider_id" = .str (c.py.str (.uuid id)) ∧
      row.column "sso_provider_id" = .uuid id

/-- The accounts after the archived ones in `pre`: those of before with their identities, and new ones
with those of the archive; and the administrators are counted by the transitions. -/
structure Accounts (c : Call) (db : Database) (s : Progress) (pre : List Dict) : Prop where
  forward : ∀ u ∈ db.tables .user, ∃ v ∈ s.tables .user, SameIdentity u v
  backward : ∀ v ∈ s.tables .user, (∃ u ∈ db.tables .user, SameIdentity u v) ∨
    v.column "sso_provider_id" = .none ∨ ∃ d ∈ pre, HasBinding c v d
  platform : administrators s.tables Prod.snd (fun _ => true) =
    administrators db.tables Prod.snd (fun _ => true) + gained Prod.snd s.transitions
  organization : administrators s.tables Prod.fst (inOrganization c) =
    administrators db.tables Prod.fst (inOrganization c) + gained Prod.fst s.transitions

theorem Accounts.start {db : Database} {s : Progress} (users : s.tables .user = db.tables .user)
    (none : s.transitions = []) : Accounts c db s [] := by
  constructor
  case forward => exact fun u mem => ⟨u, users ▸ mem, .refl u⟩
  case backward => exact fun v mem => .inl ⟨v, users ▸ mem, .refl v⟩
  case platform =>
    rw [none, administrators, users]
    simp [gained, administrators]
  case organization =>
    rw [none, administrators, users]
    simp [gained, administrators]

theorem str_inj {a b : Uuid} (same : c.py.str (.uuid a) = c.py.str (.uuid b)) : a = b := by
  have read := c.readText a
  rw [same, c.readText b] at read
  exact (Option.some.inj read).symm

/-- The check for external identities sees those of before. -/
theorem Accounts.collides {db : Database} {s : Progress} {pre : List Dict}
    (accounts : Accounts c db s pre) (good : GoodUser c.py portable)
    (distinct : ∀ d ∈ pre, member portable "sso_provider_id" = .null ∨ binding d ≠ binding portable) :
    collides c s.tables pk (portableRecord portable) =
      Core.collides c db.tables pk (portableRecord portable) := by
  unfold Core.collides
  rw [get_portableRecord, get_portableRecord]
  rcases good.bound with null | ⟨id, text⟩
  · rw [null]
  rw [text]
  dsimp only
  rw [c.readText, Bool.eq_iff_iff]
  simp only [List.any_eq_true, Bool.and_eq_true, decide_eq_true_eq, Option.any_some]
  constructor
  · rintro ⟨v, mem, ⟨⟨provider, external⟩, live⟩, other⟩
    rcases accounts.backward v mem with ⟨u, known, same⟩ | none | ⟨d, before, external', id', text', provider'⟩
    · exact ⟨u, known, ⟨⟨same.provider ▸ provider, same.externalId ▸ external⟩, same.deleted ▸ live⟩,
        same.id ▸ other⟩
    · rw [none] at provider
      cases provider
    · -- the archive has no external identity twice
      have equal : id' = id := Value.uuid.inj (provider'.symm.trans provider)
      rcases distinct d before with null | apart
      · rw [text] at null
        cases null
      · refine absurd ?_ apart
        have same : member d "external_id" = member portable "external_id" :=
          Value.json.inj (external'.symm.trans external)
        rw [binding, binding, text', text, equal, same]
  · rintro ⟨u, mem, ⟨⟨provider, external⟩, live⟩, other⟩
    obtain ⟨v, known, same⟩ := accounts.forward u mem
    exact ⟨v, known, ⟨⟨same.provider.trans provider, same.externalId.trans external⟩,
      same.deleted.trans live⟩, by rw [same.id]; exact other⟩

theorem gained_snoc {bit : Bool × Bool → Bool} {ts : List Transition} {x : Transition} :
    gained bit (ts ++ [x]) = gained bit ts + (((bit x.after).toNat : Int) - (bit x.before).toNat) := by
  simp [gained]

/-- The account counts as an administrator. -/
def counts (bit : Bool × Bool → Bool) (inScope : Row → Bool) (u : Row) : Bool :=
  u.column "deleted_at" = .none && inScope u &&
    bit (administratorBits (u.column "is_active") (u.column "role"))

theorem administrators_append {bit : Bool × Bool → Bool} {inScope : Row → Bool} {t' : Tables}
    (here : t' .user = t .user ++ [row]) :
    administrators t' bit inScope =
      administrators t bit inScope + ((counts bit inScope row).toNat : Int) := by
  have one : [row].countP (counts bit inScope) = (counts bit inScope row).toNat := by
    cases h : counts bit inScope row <;> simp [h]
  unfold administrators
  rw [here]
  show (((t .user ++ [row]).countP (counts bit inScope) : Nat) : Int) =
    ((t .user).countP (counts bit inScope) : Nat) + _
  rw [List.countP_append, one]
  omega

theorem administrators_update {bit : Bool × Bool → Bool} {inScope : Row → Bool} {t' : Tables}
    {new : Row} (unique : Table.Unique (t .user)) (mem : row ∈ t .user)
    (here : t' .user = Table.update (t .user) (row.column "id") fun _ => new) :
    administrators t' bit inScope = administrators t bit inScope +
      (((counts bit inScope new).toNat : Int) - (counts bit inScope row).toNat) := by
  obtain ⟨a, b, before, after⟩ := unique.update_split (f := fun _ => new) (unique.lookup mem)
  have count (u : Row) : administrators (fun _ => a ++ u :: b) bit inScope =
      (a.countP (counts bit inScope) + b.countP (counts bit inScope) : Nat) +
        ((counts bit inScope u).toNat : Int) := by
    show (((a ++ u :: b).countP (counts bit inScope) : Nat) : Int) = _
    rw [List.countP_append, List.countP_cons]
    cases counts bit inScope u with
    | true => simp; omega
    | false => simp
  have now : administrators t' bit inScope = administrators (fun _ => a ++ new :: b) bit inScope := by
    unfold administrators
    rw [here]
    exact congrArg _ (congrArg _ after)
  have old : administrators t bit inScope = administrators (fun _ => a ++ row :: b) bit inScope := by
    unfold administrators
    rw [before]
  rw [now, old, count, count]
  omega

theorem Accounts.same {db : Database} {s s' : Progress} {pre : List Dict}
    (accounts : Accounts c db s pre) (users : s'.tables .user = s.tables .user)
    (transitions : s'.transitions = s.transitions) : Accounts c db s' pre := by
  have count (bit : Bool × Bool → Bool) (inScope : Row → Bool) :
      administrators s'.tables bit inScope = administrators s.tables bit inScope := by
    unfold administrators
    rw [users]
  constructor
  case forward =>
    rw [users]
    exact accounts.forward
  case backward =>
    rw [users]
    exact accounts.backward
  case platform =>
    rw [transitions, count]
    exact accounts.platform
  case organization =>
    rw [transitions, count]
    exact accounts.organization

theorem Accounts.mono {db : Database} {s : Progress} {pre : List Dict} (accounts : Accounts c db s pre)
    (d : Dict) : Accounts c db s (pre ++ [d]) where
  forward := accounts.forward
  backward v mem := by
    refine (accounts.backward v mem).imp_right fun rest => rest.imp_right fun ⟨x, before, has⟩ => ?_
    exact ⟨x, List.mem_append_left _ before, has⟩
  platform := accounts.platform
  organization := accounts.organization

/-- The administrators after the write of a live account of the organization. -/
theorem counts_account {bit : Bool × Bool → Bool} {inScope : Row → Bool}
    (live : row.column "deleted_at" = .none) (scope : inScope row = true) :
    counts bit inScope row = bit (administratorBits (row.column "is_active") (row.column "role")) := by
  simp [counts, live, scope]

theorem securityRestore_secrets (security : c.securityRestore = true) : c.includeSecrets = true := by
  simp only [Call.securityRestore, Bool.and_eq_true] at security
  exact security.1

/-- A new account. -/
theorem Accounts.insert {db : Database} {s : Progress} {pre : List Dict}
    (accounts : Accounts c db s pre) (security : c.securityRestore = true)
    (good : GoodUser c.py portable)
    (h : Taken c s grants .user portable pk archived none secured record) :
    Accounts c db (s.take c false .user pk none secured record) (pre ++ [portable]) := by
  have written := secureRecord_user security good h.passed
  obtain ⟨active, found⟩ := written.inserted rfl
  have column {g : String} {v : Value}
      (field : g = "role" ∨ g = "external_id" ∨ g = "sso_provider_id" ∨ g = "is_active")
      (there : secured.find g = some v) : (insertedRow c .user pk record).column g = v := by
    refine insertedRow_account (securityRestore_secrets security) field ?_
    rw [written.record_find h.renewed (by rcases field with rfl | rfl | rfl | rfl <;> decide), there]
  have users : (s.take c false .user pk none secured record).tables .user =
      s.tables .user ++ [insertedRow c .user pk record] := by
    rw [take_tables, written_insert]
  have noted : (s.take c false .user pk none secured record).transitions =
      s.transitions ++ [transition none secured] := by
    show (Core.noted c s .user pk none secured record).transitions = _
    simp [Core.noted, security]
  have count (bit : Bool × Bool → Bool) (inScope : Row → Bool) (off : bit (false, false) = false)
      (scope : inScope (insertedRow c .user pk record) = true) :
      administrators (s.take c false .user pk none secured record).tables bit inScope =
        administrators s.tables bit inScope + gained bit (s.transitions ++ [transition none secured]) -
          gained bit s.transitions := by
    rw [administrators_append users, counts_account insertedRow_deleted scope, gained_snoc,
      column (.inr (.inr (.inr rfl))) found, column (.inl rfl) written.role]
    simp only [transition, Record.get, found, written.role, Option.map_none, Option.getD_none,
      Option.getD_some, off]
    simp
    omega
  constructor
  case forward =>
    intro u mem
    obtain ⟨v, known, same⟩ := accounts.forward u mem
    exact ⟨v, users ▸ List.mem_append_left _ known, same⟩
  case backward =>
    intro v mem
    rw [users] at mem
    rcases List.mem_append.mp mem with old | last
    · exact (accounts.mono portable).backward v old
    · rw [List.mem_singleton.mp last]
      refine .inr ?_
      rcases written.provider with ⟨-, none⟩ | ⟨id, text, bound⟩
      · exact .inl (column (.inr (.inr (.inl rfl))) none)
      · exact .inr ⟨portable, by simp, column (.inr (.inl rfl)) written.externalId, id, text,
          column (.inr (.inr (.inl rfl))) bound⟩
  case platform =>
    have total := count Prod.snd (fun _ => true) rfl rfl
    rw [noted, total, accounts.platform]
    omega
  case organization =>
    have placed : (insertedRow c .user pk record).column "organization_id" = .uuid c.org :=
      insertedRow_organization (by decide)
    have total := count Prod.fst (inOrganization c) rfl
      (by simp [inOrganization, placed])
    rw [noted, total, accounts.organization]
    omega

theorem Taken.updated_column {s : Progress} {row : Row} {v : Value}
    (security : c.securityRestore = true) (good : GoodUser c.py portable)
    (h : Taken c s grants .user portable pk archived (some row) secured record)
    (field : g = "role" ∨ g = "external_id" ∨ g = "sso_provider_id" ∨ g = "is_active")
    (there : secured.find g = some v) : (updatedRow c .user row record).column g = v := by
  have written := secureRecord_user security good h.passed
  refine updatedRow_account (securityRestore_secrets security) field ?_
  rw [written.record_find h.renewed (by rcases field with rfl | rfl | rfl | rfl <;> decide), there]

/-- An overwritten account keeps its identity. -/
theorem Taken.sameIdentity {db : Database} {s : Progress} {row : Row}
    (security : c.securityRestore = true) (replaces : c.overwriteExisting = true)
    (good : GoodUser c.py portable) (stored : row ∈ db.tables .user)
    (h : Taken c s grants .user portable pk archived (some row) secured record) :
    SameIdentity row (updatedRow c .user row record) := by
  have written := secureRecord_user security good h.passed
  obtain ⟨-, external, provider, -⟩ := written.merged row rfl replaces
  have column {g : String} {v : Value} := h.updated_column (g := g) (v := v) security good
  have bound : (updatedRow c .user row record).column "sso_provider_id" =
      row.column "sso_provider_id" := by
    rcases db.typed .user row stored "sso_provider_id" (by decide) with none | ⟨id, known⟩
    · rw [none] at provider ⊢
      rcases written.provider with ⟨-, there⟩ | ⟨id, text, -⟩
      · exact column (.inr (.inr (.inl rfl))) there
      · rw [text] at provider
        cases provider
    · rw [known] at provider ⊢
      rcases written.provider with ⟨null, -⟩ | ⟨id', text, there⟩
      · rw [null] at provider
        cases provider
      · rw [text] at provider
        rw [column (.inr (.inr (.inl rfl))) there]
        exact congrArg _ (str_inj (c := c) (Json.str.inj (Value.json.inj provider)))
  exact ⟨updatedRow_id, bound, (column (.inr (.inl rfl)) written.externalId).trans external.symm,
    updatedRow_blocked deleted_blocked⟩

/-- An account that is there already. -/
theorem Accounts.overwrite {db : Database} {done : List Kind} {s : Progress} {pre : List Dict}
    {row : Row} (accounts : Accounts c db s pre) (ran : Ran c db.tables done s)
    (security : c.securityRestore = true) (replaces : c.overwriteExisting = true)
    (good : GoodUser c.py portable) (stored : row ∈ db.tables .user)
    (h : Taken c s grants .user portable pk archived (some row) secured record) :
    Accounts c db (s.take c false .user pk (some row) secured record) (pre ++ [portable]) := by
  have written := secureRecord_user security good h.passed
  obtain ⟨-, -, -, v, active⟩ := written.merged row rfl replaces
  have mem := h.stored_mem row rfl
  have ours := h.free row rfl
  have live : row.column "deleted_at" = .none := owned_alive ours
  have same := h.sameIdentity security replaces good stored
  have column {g : String} {v : Value} := h.updated_column (g := g) (v := v) security good
  have users : (s.take c false .user pk (some row) secured record).tables .user =
      Table.update (s.tables .user) (row.column "id") fun _ => updatedRow c .user row record := by
    rw [take_tables, written_update rfl, if_pos replaces]
  have noted : (s.take c false .user pk (some row) secured record).transitions =
      s.transitions ++ [transition (some row) secured] := by
    show (Core.noted c s .user pk (some row) secured record).transitions = _
    simp [Core.noted, security, replaces]
  have rows {r : Row} := (ran.unique .user).mem_update (k := row.column "id")
    (f := fun _ => updatedRow c .user row record) (s := r) ((ran.unique .user).lookup mem)
  have count (bit : Bool × Bool → Bool) (inScope : Row → Bool) (scope : inScope row = true)
      (scope' : inScope (updatedRow c .user row record) = true) :
      administrators (s.take c false .user pk (some row) secured record).tables bit inScope =
        administrators s.tables bit inScope +
          gained bit (s.transitions ++ [transition (some row) secured]) -
            gained bit s.transitions := by
    rw [administrators_update (ran.unique .user) mem users, gained_snoc,
      counts_account live scope,
      counts_account ((updatedRow_blocked deleted_blocked).trans live) scope',
      column (.inr (.inr (.inr rfl))) active, column (.inl rfl) written.role]
    simp only [transition, Record.get, active, written.role, Option.map_some, Option.getD_some]
    omega
  constructor
  case forward =>
    intro u known
    obtain ⟨v, there, kept⟩ := accounts.forward u known
    rw [users]
    by_cases here : v.column "id" = row.column "id"
    · have equal : v = row := (ran.unique .user).eq there mem here
      subst equal
      exact ⟨_, rows.mpr (.inl rfl), ⟨same.id.trans kept.id, same.provider.trans kept.provider,
        same.externalId.trans kept.externalId, same.deleted.trans kept.deleted⟩⟩
    · exact ⟨v, rows.mpr (.inr ⟨there, here⟩), kept⟩
  case backward =>
    intro v there
    rw [users] at there
    rcases rows.mp there with rfl | ⟨old, -⟩
    · exact .inl ⟨row, stored, same⟩
    · exact (accounts.mono portable).backward v old
  case platform =>
    have total := count Prod.snd (fun _ => true) rfl rfl
    rw [noted, total, accounts.platform]
    omega
  case organization =>
    have scope : inOrganization c row = true := tenant_inOrganization (by decide) ours
    have total := count Prod.fst (inOrganization c) scope
      ((inOrganization_same (updatedRow_blocked organization_blocked)).trans scope)
    rw [noted, total, accounts.organization]
    omega

/-- The loop through one archived account of a vault. -/
theorem Accounts.take {db : Database} {done : List Kind} {s : Progress} {pre : List Dict}
    (accounts : Accounts c db s pre) (ran : Ran c db.tables done s) (security : c.securityRestore = true)
    (good : GoodUser c.py portable) (given : pk ≠ .none) (new : s.accepted .user pk = none)
    (h : Taken c s grants .user portable pk archived existing secured record) :
    Accounts c db (s.take c false .user pk existing secured record) (pre ++ [portable]) := by
  cases existing with
  | none => exact accounts.insert security good h
  | some row =>
    by_cases replaces : c.overwriteExisting = true
    · have stored : row ∈ db.tables .user := by
        have found := h.lookup_eq given rfl
        rw [ran.kept .user rfl pk new] at found
        exact Table.lookup_mem found.symm
      exact accounts.overwrite ran security replaces good stored h
    · refine (accounts.mono portable).same ?_ ?_
      · rw [take_tables, written_update rfl, if_neg replaces]
      · show (Core.noted c s .user pk (some row) secured record).transitions = _
        simp [Core.noted, replaces]

end FreeSdn.Backup.Core
