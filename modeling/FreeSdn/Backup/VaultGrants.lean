import FreeSdn.Backup.Authority
import FreeSdn.Lib.Dictionary
import FreeSdn.Lib.TwoKeys

/-! The grants of a vault restore: every archived grant is written, in the place of the stored one with
its identifier or with its account and site.  An account keeps its grants unless a later archived grant
has the identifier of the stored row that one of them was written to. -/

namespace FreeSdn.Backup.Core

open FreeSdn.Lib

variable {c : Call} {db : Database} {s s' : Progress} {done : List Kind} {kind : Kind}
  {record archived secured : Record} {row : Row} {pk v : Value} {existing : Option Row}
  {grants : List Dict} {portable d : Dict} {t : Tables} {g : String}

/-! ### The archived accounts and grants -/

/-- The identifier that a text of the archive writes. -/
def identifier (py : Python) : Json → Value
  | .str text => ((py.readUuid text).map .uuid).getD .none
  | _ => .none

@[simp] theorem identifier_str (id : Uuid) : identifier c.py (.str (c.py.str (.uuid id))) = .uuid id := by
  simp [identifier, c.readText]

/-- An archived grant that was accepted. -/
structure ValidGrant (c : Call) (d : Dict) : Prop extends GoodGrant c.py d where
  id : ∃ id, member d "id" = .str (c.py.str (.uuid id))

/-- The accounts of a snapshot that was accepted. -/
structure ValidSnapshot (c : Call) (accounts : Snapshot) : Prop where
  users : ∀ d ∈ accounts.users, ValidUser c d
  names : accounts.users.Pairwise fun d x => member d "id" ≠ member x "id"
  grants : ∀ d ∈ accounts.grants, ValidGrant c d
  ids : accounts.grants.Pairwise fun d x => member d "id" ≠ member x "id" ∧ grantPair d ≠ grantPair x
  holders : ∀ d ∈ accounts.grants, ∃ u ∈ accounts.users, member u "id" = member d "user_id"

theorem validateSnapshot_valid {data : Dict} {accounts : Snapshot}
    (h : validateSnapshot c.py c.formats c.org data = .ok accounts) : ValidSnapshot c accounts := by
  unfold validateSnapshot at h
  obtain ⟨-, h⟩ := require_bind h
  obtain ⟨archivedUsers, -, h⟩ := bind_ok h
  obtain ⟨archivedProviders, -, h⟩ := bind_ok h
  obtain ⟨archivedGrants, -, h⟩ := bind_ok h
  obtain ⟨providers, -, h⟩ := bind_ok h
  obtain ⟨users, addedUsers, h⟩ := bind_ok h
  obtain ⟨grants, addedGrants, h⟩ := bind_ok h
  obtain rfl := Except.ok.inj h
  have good := foldlM_ok (P := fun users => (∀ d ∈ users, ValidUser c d) ∧
      users.Pairwise fun d x => member d "id" ≠ member x "id") (by
    rintro users json users' ⟨all, distinct⟩ one
    unfold addUser at one
    obtain ⟨row, valid, one⟩ := bind_ok one
    obtain ⟨new, one⟩ := require_bind one
    obtain ⟨-, one⟩ := require_bind one
    obtain rfl := Except.ok.inj one
    refine ⟨mem_snoc all (validateUser_valid valid), pairwise_snoc distinct fun d mem => ?_⟩
    simpa using List.all_eq_true.mp new d mem) ⟨by simp, List.Pairwise.nil⟩ addedUsers
  have goodGrants := foldlM_ok (P := fun grants => (∀ d ∈ grants, ValidGrant c d ∧
        ∃ u ∈ users, member u "id" = member d "user_id") ∧
      grants.Pairwise fun d x => member d "id" ≠ member x "id" ∧ grantPair d ≠ grantPair x) (by
    rintro grants json grants' ⟨all, distinct⟩ one
    unfold addGrant at one
    obtain ⟨row, picked, one⟩ := bind_ok one
    obtain ⟨id, readId, one⟩ := bind_ok one
    obtain ⟨user, readUser, one⟩ := bind_ok one
    obtain ⟨site, readSite, one⟩ := bind_ok one
    obtain ⟨-, one⟩ := require_bind one
    obtain ⟨new, one⟩ := require_bind one
    obtain ⟨holder, one⟩ := require_bind one
    obtain rfl := Except.ok.inj one
    obtain ⟨u, mem, same⟩ := List.any_eq_true.mp holder
    refine ⟨mem_snoc all ⟨⟨⟨pick_keys picked, ⟨user, canonicalUuid_ok readUser⟩,
      ⟨site, canonicalUuid_ok readSite⟩⟩, ⟨id, canonicalUuid_ok readId⟩⟩, u, mem, by simpa using same⟩,
      pairwise_snoc distinct fun d mem => ?_⟩
    simpa using List.all_eq_true.mp new d mem) ⟨by simp, List.Pairwise.nil⟩ addedGrants
  exact ⟨good.1, good.2, fun d mem => (goodGrants.1 d mem).1, goodGrants.2,
    fun d mem => (goodGrants.1 d mem).2⟩

/-! ### Records that are always read -/

theorem readFields_some {py : Python} {m : Model}
    (all : ∀ member ∈ portable, ∃ v, readField py m member.1 member.2 = some v) :
    ∃ fields, readFields py m portable = some fields := by
  induction portable with
  | nil => exact ⟨[], rfl⟩
  | cons first rest ih =>
    obtain ⟨name, value⟩ := first
    obtain ⟨v, one⟩ := all (name, value) List.mem_cons_self
    obtain ⟨fields, others⟩ := ih fun member mem => all member (List.mem_cons_of_mem _ mem)
    refine ⟨(name, v) :: fields, ?_⟩
    unfold readFields
    rw [show readField py m name value = some v from one, others]
    rfl

/-- A member of a dictionary without repeated keys. -/
theorem member_of_mem {m : String × Json} (mem : m ∈ d) (keys : (d.map Prod.fst).Nodup) :
    m.2 = member d m.1 := by
  rw [member, Dictionary.lookup_of_mem keys mem]
  rfl

theorem readField_uuid {py : Python} {m : Model} {v : Json} (column : g ∈ m.uuidFields) {text : String}
    {id : Uuid} (here : v = .str text) (read : py.readUuid text = some id) :
    readField py m g v = some (.uuid id) := by
  simp [readField, column, here, read]

theorem readField_plain {py : Python} {m : Model} {v : Json} (other : g ∉ m.uuidFields) :
    readField py m g v = some (.json v) := if_neg other

/-- A record with its own organization and an identifier is examined. -/
theorem examine_known {id : Uuid} (secrets : c.includeSecrets = true) (plain : kind ≠ .controller)
    (plain' : kind ≠ .credential)
    (all : ∀ m ∈ portable, ∃ v, readField c.py kind.model m.1 m.2 = some v)
    (column : "id" ∈ kind.model.uuidFields) (named : portable.lookup "id" = some (.str (c.py.str (.uuid id))))
    (own : portable.lookup "organization_id" = none ∨
      portable.lookup "organization_id" = some (.str (c.py.str (.uuid c.org))) ∧
        "organization_id" ∈ kind.model.uuidFields) :
    ∃ record, examine c kind (.obj portable) = .ok (.record portable (.uuid id) record) := by
  obtain ⟨fields, read⟩ := readFields_some all
  have pk : (Record.mk fields).get "id" = .uuid id := by
    have passed := find_readFields (g := "id") read
    rw [named] at passed
    obtain ⟨w, one, there⟩ := passed
    rw [readField_uuid column rfl (c.readText id)] at one
    rw [Record.get, there, ← Option.some.inj one]
    rfl
  have org : truthy ((Record.mk fields).get "organization_id") = false ∨
      (Record.mk fields).get "organization_id" = .uuid c.org := by
    have passed := find_readFields (g := "organization_id") read
    rcases own with none | ⟨text, column'⟩
    · rw [none] at passed
      exact .inl (by rw [Record.get, passed]; rfl)
    · rw [text] at passed
      obtain ⟨w, one, there⟩ := passed
      rw [readField_uuid column' rfl (c.readText c.org)] at one
      exact .inr (by rw [Record.get, there, ← Option.some.inj one]; rfl)
  refine ⟨⟨fields⟩, ?_⟩
  unfold examine
  rw [if_neg (by simp [secrets]), Call.dict]
  dsimp only
  rw [read]
  dsimp only
  rw [sealRecord_other plain plain', examineRecord, pk]
  rw [if_neg, if_neg (by simp [truthy])]
  rcases org with absent | there
  · simp [absent]
  · simp [there]


/-! ### Grants as entries -/

/-- A stored grant, by its identifier and by its account and site. -/
def grantEntry (row : Row) : Entry Value (Value × Value) Value :=
  ⟨row.column "id", (row.column "user_id", row.column "site_id"), row.column "access_level"⟩

def grantEntries (t : Tables) : List (Entry Value (Value × Value) Value) :=
  (t .userSiteAccess).map grantEntry

/-- An archived grant. -/
def archivedEntry (py : Python) (d : Dict) : Entry Value (Value × Value) Value :=
  ⟨identifier py (member d "id"), (identifier py (member d "user_id"), identifier py (member d "site_id")),
    .json (member d "access_level")⟩

/-- The record of an archived grant. -/
structure GrantRead (e : Entry Value (Value × Value) Value) (record : Record) : Prop where
  account : record.find "user_id" = some e.second.1
  site : record.find "site_id" = some e.second.2
  level : record.find "access_level" = some e.value

theorem ValidGrant.examined (valid : ValidGrant c d) (secrets : c.includeSecrets = true) :
    ∃ id record, (archivedEntry c.py d).key = .uuid id ∧
      examine c .userSiteAccess (.obj d) = .ok (.record d (.uuid id) record) ∧
      GrantRead (archivedEntry c.py d) record ∧
      ∃ user site, (archivedEntry c.py d).second = (.uuid user, .uuid site) := by
  obtain ⟨id, name⟩ := valid.id
  obtain ⟨user, account⟩ := valid.user
  obtain ⟨site, place⟩ := valid.site
  have nodup : (d.map Prod.fst).Nodup := by
    rw [valid.keys]
    decide
  have found {g : String} (field : g ∈ grantFields) : d.lookup g = some (member d g) := by
    obtain ⟨v, there⟩ := Option.isSome_iff_exists.mp (lookup_key (valid.keys ▸ field))
    rw [member, there]
    rfl
  have readable : ∀ m ∈ d, ∃ v, readField c.py Kind.userSiteAccess.model m.1 m.2 = some v := by
    intro m mem
    have field : m.1 ∈ grantFields := valid.keys ▸ List.mem_map_of_mem mem
    have here := member_of_mem mem nodup
    simp only [grantFields, List.mem_cons, List.not_mem_nil, or_false] at field
    rcases field with same | same | same | same <;> rw [same] at here ⊢
    · exact ⟨_, readField_uuid (by decide) (here.trans name) (c.readText id)⟩
    · exact ⟨_, readField_uuid (by decide) (here.trans account) (c.readText user)⟩
    · exact ⟨_, readField_uuid (by decide) (here.trans place) (c.readText site)⟩
    · exact ⟨_, readField_plain (by decide)⟩
  have keyless : d.lookup "organization_id" = none := by
    rw [List.lookup_eq_none_iff]
    intro m mem
    have field : m.1 ∈ grantFields := valid.keys ▸ List.mem_map_of_mem mem
    simp only [bne_iff_ne]
    rintro same
    rw [← same] at field
    exact absurd field (by decide)
  obtain ⟨record, read⟩ := examine_known secrets (by decide) (by decide) readable (by decide)
    ((found (by decide)).trans (congrArg some name)) (.inl keyless)
  obtain ⟨user', site', grant⟩ := examine_grant valid.toGoodGrant read
  have level : record.find "access_level" = some (.json (member d "access_level")) := by
    obtain ⟨fields, dict, passed, rfl, -⟩ := examine_record read
    rw [sealRecord_other (by decide) (by decide)]
    have one := find_readFields (g := "access_level") passed
    rw [found (by decide)] at one
    obtain ⟨w, value, there⟩ := one
    rw [readField_plain (by decide)] at value
    rw [there, ← Option.some.inj value]
  have pair := grant.pair
  rw [grantPair] at pair
  obtain ⟨account', place'⟩ := Prod.mk.inj pair
  have second : (archivedEntry c.py d).second = (.uuid user', .uuid site') := by
    rw [archivedEntry, account', place', identifier_str, identifier_str]
  refine ⟨id, record, ?_, read, ⟨?_, ?_, level⟩, user', site', second⟩
  · rw [archivedEntry, name, identifier_str]
  · rw [second, grant.named]
  · rw [second, grant.placed]

/-- The stored row of a grant, as an entry. -/
theorem counterpart_entry {e : Entry Value (Value × Value) Value} (read : GrantRead e record)
    (given : e.key ≠ .none) :
    Entry.counterpart (grantEntries t) e =
      (counterpart t .userSiteAccess (load t .userSiteAccess e.key) record).map grantEntry := by
  have first : Table.lookup (grantEntries t) e.key =
      (load t .userSiteAccess e.key).map grantEntry := by
    rw [load_lookup given]
    exact List.find?_map
  have second : ((grantEntries t).find? fun x => x.second = e.second) =
      (samePair t record).map grantEntry := by
    have same : ((fun x : Entry Value (Value × Value) Value => decide (x.second = e.second)) ∘ grantEntry) =
        fun row => row.column "user_id" = record.get "user_id" &&
          row.column "site_id" = record.get "site_id" := by
      funext row
      rw [get_of_find read.account, get_of_find read.site, ← Bool.decide_and, Function.comp_apply]
      exact decide_eq_decide.mpr Prod.ext_iff
    rw [grantEntries, List.find?_map, same]
    rfl
  rw [Entry.counterpart, first, second, counterpart, if_pos rfl]
  cases load t .userSiteAccess e.key <;> rfl

/-- An archived grant is put among the stored ones. -/
theorem grantEntries_written {e : Entry Value (Value × Value) Value} (read : GrantRead e record)
    (secrets : c.includeSecrets = true) (replaces : c.overwriteExisting = true) (given : e.key ≠ .none)
    (found : existing = counterpart t .userSiteAccess (load t .userSiteAccess e.key) record) :
    grantEntries (written c t .userSiteAccess e.key existing record) =
      Entry.put (grantEntries t) e := by
  have free {g : String} (field : g ∈ ["user_id", "site_id", "access_level"]) : g ∉ c.blocked := by
    simp only [List.mem_cons, List.not_mem_nil, or_false] at field
    rcases field with rfl | rfl | rfl <;> simp [Call.blocked, secrets, audit]
  have place := counterpart_entry (t := t) read given
  rw [← found] at place
  unfold Entry.put
  rw [place]
  cases existing with
  | none =>
    rw [grantEntries, written_insert, List.map_append]
    refine congrArg _ (congrArg (fun x => [x]) ?_)
    have column {g : String} {v : Value} (field : g ∈ ["user_id", "site_id", "access_level"])
        (model : g ∈ Kind.userSiteAccess.model.columns) (there : record.find g = some v) :
        (insertedRow c .userSiteAccess e.key record).column g = v := by
      rw [insertedRow_column (by decide) model (free field), there]
      rfl
    rw [grantEntry, column (by decide) (by decide) read.account, column (by decide) (by decide) read.site,
      column (by decide) (by decide) read.level]
    rfl
  | some row =>
    rw [grantEntries, written_update rfl, if_pos replaces]
    simp only [Table.update, grantEntries, List.map_map, Option.map_some]
    refine List.map_congr_left fun r _ => ?_
    have column {g : String} {v : Value} (field : g ∈ ["user_id", "site_id", "access_level"])
        (model : g ∈ Kind.userSiteAccess.model.columns) (there : record.find g = some v) :
        (updatedRow c .userSiteAccess row record).column g = v := by
      rw [updatedRow_column (by decide) model (free field), there]
      rfl
    have new : grantEntry (updatedRow c .userSiteAccess row record) =
        { e with key := row.column "id" } := by
      rw [grantEntry, column (by decide) (by decide) read.account,
        column (by decide) (by decide) read.site, column (by decide) (by decide) read.level, updatedRow_id]
    by_cases here : r.column "id" = row.column "id"
    · simp [grantEntry, here, Keyed.key] at new ⊢
      exact new
    · simp [grantEntry, here, Keyed.key]


/-! ### The loop over the grants -/

/-- The row with the account and the site of a valid grant is owned. -/
theorem samePair_owned (ran : Ran c db.tables done s)
    (refs : refsValid c s .userSiteAccess none record = true) (found : samePair s.tables record = some row) :
    owned c s.tables .userSiteAccess row = true := by
  have pair := List.find?_some found
  simp only [Bool.and_eq_true, decide_eq_true_eq] at pair
  simp only [refsValid, value, Bool.and_eq_true] at refs
  have site := ran.reference_any rfl refs.1
  have user := ran.reference_any rfl refs.2
  simp only [owned, pair.1, pair.2, Bool.and_eq_true]
  exact ⟨site, user⟩

/-- A vault skips no grant. -/
theorem judge_grant_taken {fate : Fate} (security : c.securityRestore = true)
    (ran : Ran c db.tables done s) (none : s.preserved = [])
    (h : judge c s grants .userSiteAccess portable pk record = .ok fate) :
    ∃ existing secured record', fate = .taken existing secured record' := by
  have guarded : c.secured .userSiteAccess = true := by simp [Call.secured, security]
  unfold judge at h
  dsimp only at h
  rw [guarded] at h
  split at h
  · cases h
  rename_i stored
  split at h
  · cases h
  rename_i refs
  rw [Bool.not_eq_true', Bool.not_eq_false] at refs
  have ours : ¬ ((counterpart s.tables .userSiteAccess (load s.tables .userSiteAccess pk) record).any
      fun row => !owned c s.tables .userSiteAccess row) = true := by
    rw [counterpart, if_pos rfl]
    cases found : load s.tables .userSiteAccess pk with
    | some row =>
      rw [found] at stored
      exact stored
    | none =>
      rw [found] at refs
      rw [Option.none_or]
      cases pair : samePair s.tables record with
      | none => simp
      | some row => simp [samePair_owned ran refs pair]
  unfold resolve at h
  rw [if_neg (by simp [none])] at h
  dsimp only at h
  rw [if_neg ours] at h
  obtain ⟨secured, -, h⟩ := bind_ok h
  obtain ⟨record', -, h⟩ := bind_ok h
  exact ⟨_, secured, record', (Except.ok.inj h).symm⟩

/-- What the grants of an archive leave: they are put, and nothing else has changed. -/
structure AfterGrants (c : Call) (ds : List Dict) (s s' : Progress) : Prop where
  entries : grantEntries s'.tables =
    (ds.map (archivedEntry c.py)).foldl Entry.put (grantEntries s.tables)
  others : ∀ k, k ≠ .userSiteAccess → s'.tables k = s.tables k
  transitions : s'.transitions = s.transitions

theorem AfterGrants.refl (s : Progress) : AfterGrants c [] s s := ⟨rfl, fun _ _ => rfl, rfl⟩

theorem AfterGrants.trans {s'' : Progress} {ds : List Dict} (first : AfterGrants c [d] s s')
    (rest : AfterGrants c ds s' s'') : AfterGrants c (d :: ds) s s'' where
  entries := by
    rw [rest.entries, first.entries]
    rfl
  others k other := (rest.others k other).trans (first.others k other)
  transitions := rest.transitions.trans first.transitions

theorem written_grant {k : Kind} (other : k ≠ .userSiteAccess) :
    written c t .userSiteAccess pk existing record k = t k := by
  unfold written
  cases existing with
  | none => exact put_other other
  | some row =>
    dsimp only
    split
    · exact put_other other
    · rfl

theorem restoreOne_grant {p p' : Pass} (security : c.securityRestore = true)
    (replaces : c.overwriteExisting = true) (valid : ValidGrant c d) (current : .userSiteAccess ∈ done)
    (ran : Ran c db.tables done p.progress) (none : p.progress.preserved = [])
    (h : restoreOne c false grants .userSiteAccess p (.obj d) = .ok p') :
    AfterGrants c [d] p.progress p'.progress ∧ Ran c db.tables done p'.progress ∧
      p'.progress.preserved = [] := by
  have secrets := securityRestore_secrets security
  obtain ⟨id, record, key, read, fields, -⟩ := valid.examined secrets
  unfold restoreOne at h
  obtain ⟨reading, read', h⟩ := bind_ok h
  rw [read] at read'
  obtain rfl := Except.ok.inj read'
  dsimp only at h
  obtain ⟨-, h⟩ := require_bind h
  obtain ⟨fate, judged, h⟩ := bind_ok h
  obtain ⟨existing, secured, record', rfl⟩ := judge_grant_taken security ran none judged
  obtain ⟨-, h⟩ := require_bind h
  obtain rfl := Except.ok.inj h
  have taken := judge_taken judged
  obtain ⟨-, rfl⟩ := taken.plain (by decide) (by decide)
  have given : Value.uuid id ≠ .none := by simp [Value.none]
  have after : (p.progress.take c false .userSiteAccess (.uuid id) existing secured record').tables =
      written c p.progress.tables .userSiteAccess (.uuid id) existing record' := rfl
  refine ⟨⟨?_, fun k other => ?_, ?_⟩, ran.take current rfl given taken, ?_⟩
  · show grantEntries (written c p.progress.tables .userSiteAccess (.uuid id) existing record') = _
    have found := taken.counterpart
    rw [← key] at given found ⊢
    exact grantEntries_written fields secrets replaces given found
  · exact written_grant other
  · show (noted c p.progress .userSiteAccess (.uuid id) existing secured record').transitions = _
    rw [noted_grant]
  · show (noted c p.progress .userSiteAccess (.uuid id) existing secured record').preserved = _
    rw [noted_grant]
    exact none

/-- The loop over the grants of a vault. -/
theorem grants_put {ds : List Dict} {p p' : Pass} (security : c.securityRestore = true)
    (replaces : c.overwriteExisting = true) (valid : ∀ d ∈ ds, ValidGrant c d)
    (current : .userSiteAccess ∈ done) (ran : Ran c db.tables done p.progress)
    (none : p.progress.preserved = [])
    (h : (ds.map Json.obj).foldlM (restoreOne c false grants .userSiteAccess) p = .ok p') :
    AfterGrants c ds p.progress p'.progress := by
  induction ds generalizing p with
  | nil =>
    obtain rfl := Except.ok.inj h
    exact .refl _
  | cons d ds ih =>
    rw [List.map_cons, foldlM_cons_ok] at h
    obtain ⟨next, one, rest⟩ := h
    obtain ⟨first, ran', none'⟩ := restoreOne_grant security replaces (valid d List.mem_cons_self) current
      ran none one
    exact first.trans (ih (fun d' mem => valid d' (List.mem_cons_of_mem d mem)) ran' none' rest)

/-! ### The grants of an account -/

/-- A state whose unique index of grants holds. -/
structure IndexedDatabase extends Database where
  pairs : ((grantEntries tables).map Entry.second).Nodup

/-- No archived grant of an account that is there has a new identifier and, behind it, another archived
grant with the identifier of the stored row of its account and site. -/
def Undisturbed (c : Call) (t : Tables) (grants : List Dict) : Prop :=
  ∀ pre d post, grants = pre ++ d :: post →
    (∃ row ∈ t .user, (archivedEntry c.py d).second.1 = row.column "id") →
    ∀ x ∈ post, ¬ Entry.Displaces (grantEntries t) (archivedEntry c.py d) (archivedEntry c.py x)

theorem mem_currentGrants {pair : Value × Value} : pair ∈ currentGrants c t row ↔
    ∃ x ∈ grantEntries t, x.second.1 = row.column "id" ∧ pair = (textOf c.py x.second.2, x.value) := by
  simp only [currentGrants, grantEntries, List.mem_map, List.mem_filter, decide_eq_true_eq]
  constructor
  · rintro ⟨grant, ⟨mem, named⟩, rfl⟩
    exact ⟨_, ⟨grant, mem, rfl⟩, named, rfl⟩
  · rintro ⟨_, ⟨grant, mem, rfl⟩, named, rfl⟩
    exact ⟨grant, ⟨mem, named⟩, rfl⟩

theorem textOf_inj {a b : Uuid} : textOf c.py (.uuid a) = textOf c.py (.uuid b) ↔ a = b :=
  ⟨fun same => str_inj (Json.str.inj (Value.json.inj same)), fun same => same ▸ rfl⟩

/-- The sites of stored and of archived grants are identifiers. -/
theorem site_typed (db : Database) : ∀ x ∈ grantEntries db.tables, ∃ id, x.second.2 = .uuid id := by
  intro x mem
  obtain ⟨row, known, rfl⟩ := List.mem_map.mp mem
  refine (db.typed .userSiteAccess row known "site_id" (by decide)).resolve_left fun none => ?_
  have there := db.sites .userSiteAccess (.inr (.inr rfl)) row known
  rw [none] at there
  cases there

theorem mem_archivedGrants {id : Uuid} {pair : Value × Value} (valid : ∀ d ∈ grants, ValidGrant c d)
    (named : row.column "id" = .uuid id) : pair ∈ archivedGrants c grants row ↔
    ∃ d ∈ grants, (archivedEntry c.py d).second.1 = row.column "id" ∧
      pair = (textOf c.py (archivedEntry c.py d).second.2, (archivedEntry c.py d).value) := by
  simp only [archivedGrants, List.mem_map, List.mem_filter, decide_eq_true_eq, named]
  have each {d : Dict} (mem : d ∈ grants) :
      (Value.json (member d "user_id") = textOf c.py (.uuid id) ↔
        (archivedEntry c.py d).second.1 = .uuid id) ∧
      Value.json (member d "site_id") = textOf c.py (archivedEntry c.py d).second.2 := by
    obtain ⟨user, account⟩ := (valid d mem).user
    obtain ⟨site, place⟩ := (valid d mem).site
    simp only [archivedEntry, account, place, identifier_str]
    refine ⟨?_, rfl⟩
    rw [show Value.json (.str (c.py.str (.uuid user))) = textOf c.py (.uuid user) from rfl, textOf_inj]
    simp
  constructor
  · rintro ⟨d, ⟨mem, holder⟩, rfl⟩
    exact ⟨d, mem, (each mem).1.mp holder, by rw [(each mem).2]; rfl⟩
  · rintro ⟨d, mem, holder, rfl⟩
    exact ⟨d, ⟨mem, (each mem).1.mpr holder⟩, by rw [← (each mem).2]; rfl⟩


theorem sameGrants_iff {xs ys : List (Value × Value)} : sameGrants xs ys = true ↔ ∀ g, g ∈ xs ↔ g ∈ ys := by
  simp only [sameGrants, Bool.and_eq_true, List.all_eq_true, decide_eq_true_eq]
  constructor
  · rintro ⟨forward, backward⟩ g
    exact ⟨forward g, backward g⟩
  · intro same
    exact ⟨fun g => (same g).mp, fun g => (same g).mpr⟩

theorem ValidGrant.site_typed (valid : ValidGrant c d) :
    ∃ id, (archivedEntry c.py d).second.2 = .uuid id := by
  obtain ⟨site, place⟩ := valid.site
  exact ⟨site, by rw [archivedEntry, place, identifier_str]⟩

theorem grantEntries_unique (db : Database) : Table.Unique (grantEntries db.tables) := by
  have keys : (grantEntries db.tables).map Keyed.key = (db.tables .userSiteAccess).map Keyed.key := by
    rw [grantEntries, List.map_map]
    rfl
  rw [Table.Unique, keys]
  exact db.unique .userSiteAccess

/-- The grants of a snapshot are distinct entries. -/
theorem ValidSnapshot.distinct {accounts : Snapshot} (valid : ValidSnapshot c accounts) :
    Entry.Distinct (accounts.grants.map (archivedEntry c.py)) := by
  refine List.pairwise_map.mpr (valid.ids.imp_of_mem ?_)
  intro d x mem mem' ⟨ids, pairs⟩
  obtain ⟨⟨-, ⟨user, account⟩, ⟨site, place⟩⟩, ⟨id, name⟩⟩ := valid.grants d mem
  obtain ⟨⟨-, ⟨user', account'⟩, ⟨site', place'⟩⟩, ⟨id', name'⟩⟩ := valid.grants x mem'
  simp only [archivedEntry, name, name', account, account', place, place', identifier_str]
  refine ⟨fun same => ids ?_, fun same => pairs ?_⟩
  · rw [name, name', same]
  · obtain ⟨users, sites⟩ := Prod.mk.inj same
    rw [grantPair, grantPair, account, account', place, place', users, sites]

/-- An account whose grants were those of the archive keeps them just when none of its archived grants
is displaced. -/
theorem grants_kept_iff {db : IndexedDatabase} {accounts : Snapshot} {id : Uuid}
    (valid : ValidSnapshot c accounts) (named : row.column "id" = .uuid id)
    (before : sameGrants (currentGrants c db.tables row) (archivedGrants c accounts.grants row) = true)
    (entries : grantEntries t =
      (accounts.grants.map (archivedEntry c.py)).foldl Entry.put (grantEntries db.tables)) :
    sameGrants (currentGrants c db.tables row) (currentGrants c t row) = true ↔
      ∀ pre d post, accounts.grants = pre ++ d :: post →
        (archivedEntry c.py d).second.1 = row.column "id" → ∀ x ∈ post,
          ¬ Entry.Displaces (grantEntries db.tables) (archivedEntry c.py d) (archivedEntry c.py x) := by
  have archived {pair : Value × Value} : pair ∈ archivedGrants c accounts.grants row ↔ _ :=
    mem_archivedGrants valid.grants named
  rw [sameGrants_iff] at before ⊢
  have distinct := valid.distinct
  have unique := grantEntries_unique db.toDatabase
  constructor
  · intro same pre d post whole holder x later displaces
    have mem : d ∈ accounts.grants := whole ▸ by simp
    have split : accounts.grants.map (archivedEntry c.py) =
        pre.map (archivedEntry c.py) ++ archivedEntry c.py d :: post.map (archivedEntry c.py) := by
      rw [whole, List.map_append, List.map_cons]
    rw [split] at entries distinct
    have gone := Entry.goes unique db.pairs distinct (List.mem_map_of_mem later) displaces
    rw [← entries] at gone
    have held := (same _).mp ((before _).mpr (archived.mpr ⟨d, mem, holder, rfl⟩))
    obtain ⟨y, there, account, pair⟩ := mem_currentGrants.mp held
    obtain ⟨site, place⟩ := (valid.grants d mem).site_typed
    have typed : ∃ site, y.second.2 = .uuid site := by
      rw [entries] at there
      rcases Entry.origin there with old | ⟨e, put, second, -⟩
      · exact Core.site_typed db.toDatabase y old
      · rw [← split] at put
        obtain ⟨x, known, rfl⟩ := List.mem_map.mp put
        rw [second]
        exact (valid.grants x known).site_typed
    obtain ⟨site', place'⟩ := typed
    rw [place, place'] at pair
    have equal := textOf_inj.mp (Prod.mk.inj pair).1
    refine gone y there (Prod.ext (account.trans holder.symm) ?_)
    rw [place, place', equal]
  · intro free pair
    constructor
    · intro held
      obtain ⟨d, mem, holder, rfl⟩ := archived.mp ((before pair).mp held)
      obtain ⟨pre, post, whole⟩ := List.append_of_mem mem
      have split : accounts.grants.map (archivedEntry c.py) =
          pre.map (archivedEntry c.py) ++ archivedEntry c.py d :: post.map (archivedEntry c.py) := by
        rw [whole, List.map_append, List.map_cons]
      rw [split] at entries distinct
      obtain ⟨y, there, second, value⟩ := Entry.stays unique distinct fun h put => by
        obtain ⟨x, later, rfl⟩ := List.mem_map.mp put
        exact free pre d post whole holder x later
      refine mem_currentGrants.mpr ⟨y, entries ▸ there, ?_, ?_⟩
      · rw [second, holder]
      · rw [second, value]
    · intro held
      obtain ⟨y, there, account, rfl⟩ := mem_currentGrants.mp held
      rw [entries] at there
      rcases Entry.origin there with old | ⟨e, put, second, value⟩
      · exact mem_currentGrants.mpr ⟨y, old, account, rfl⟩
      · obtain ⟨d, mem, rfl⟩ := List.mem_map.mp put
        rw [second] at account
        exact (before _).mpr (archived.mpr ⟨d, mem, account, by rw [second, value]⟩)

end FreeSdn.Backup.Core
