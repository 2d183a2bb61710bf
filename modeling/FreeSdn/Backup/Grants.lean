import FreeSdn.Backup.Agreement

/-! Grants, the one resource that is also found by its content: an archived grant meets the stored one
of its account and site.  As long as no stored grant was overwritten, the real restore finds the
grants that the preview finds. -/

namespace FreeSdn.Backup.Core

open FreeSdn.Lib

variable {c : Call} {db : Database} {p r : Progress} {done : List Kind}
  {record archived secured : Record} {row : Row} {pk v : Value} {existing : Option Row}
  {grants : List Dict} {portable : Dict}

/-! ### The record of a grant -/

theorem sealRecord_other {kind : Kind} (controller : kind ≠ .controller) (credential : kind ≠ .credential) :
    sealRecord c kind record = record := by
  have same : sealField c.cipher kind = fun m => m := by
    funext m
    unfold sealField
    split
    · exact absurd rfl controller
    · exact absurd rfl credential
    · rfl
  unfold sealRecord
  rw [same]
  split
  · exact congrArg Record.mk (List.map_id' record.fields)
  · rfl

/-- The references of a grant, as its record has them. -/
structure GrantRecord (c : Call) (d : Dict) (record : Record) (user site : Uuid) : Prop where
  named : record.find "user_id" = some (.uuid user)
  placed : record.find "site_id" = some (.uuid site)
  pair : grantPair d = (.str (c.py.str (.uuid user)), .str (c.py.str (.uuid site)))

theorem examine_grant {d : Dict} (good : GoodGrant c.py d)
    (h : examine c .userSiteAccess (.obj d) = .ok (.record portable pk record)) :
    ∃ user site, GrantRecord c d record user site := by
  obtain ⟨fields, dict, read, rfl, -⟩ := examine_record h
  obtain rfl := Option.some.inj dict
  rw [sealRecord_other (by decide) (by decide)]
  obtain ⟨user, named⟩ := good.user
  obtain ⟨site, placed⟩ := good.site
  have field {g : String} {id : Uuid} (key : g ∈ grantFields)
      (column : g ∈ Kind.userSiteAccess.model.uuidFields)
      (text : member d g = .str (c.py.str (.uuid id))) :
      (Record.mk fields).find g = some (.uuid id) := by
    obtain ⟨v, found⟩ := Option.isSome_iff_exists.mp (lookup_key (good.keys ▸ key))
    have value : v = .str (c.py.str (.uuid id)) := by
      rw [← text, member, found]
      rfl
    have passed := find_readFields (g := g) read
    rw [found, value] at passed
    obtain ⟨w, one, there⟩ := passed
    simp only [readField, column, if_true, c.readText, Option.map_some] at one
    rw [there, one]
  refine ⟨user, site, field (by decide) (by decide) named, field (by decide) (by decide) placed, ?_⟩
  rw [grantPair, named, placed]

theorem get_of_find {g : String} (found : record.find g = some v) : record.get g = v := by
  rw [Record.get, found]
  rfl

theorem value_of_find {g : String} (found : record.find g = some v)
    (replaces : existing.isSome = true → c.overwriteExisting = true) : value c existing record g = v := by
  cases existing with
  | none => exact get_of_find found
  | some row => simp [value, replaces rfl, found]

/-! ### The table of grants -/

/-- The grants of the real restore, when some may have been overwritten: those of before keep their
identifiers, and a changed one was owned and is. -/
structure GrantIds (c : Call) (db : Database) (r : Progress) (seen : List Value) : Prop where
  forward : ∀ row ∈ db.tables .userSiteAccess, ∃ now ∈ r.tables .userSiteAccess,
    now.column "id" = row.column "id" ∧ (now = row ∨ c.overwriteExisting = true ∧
      owned c db.tables .userSiteAccess row = true ∧ owned c r.tables .userSiteAccess now = true)
  backward : ∀ now ∈ r.tables .userSiteAccess,
    (∃ row ∈ db.tables .userSiteAccess, row.column "id" = now.column "id") ∨ now.column "id" ∈ seen

/-- The grants of the real restore while none was overwritten: new ones follow those of before. -/
structure GrantsAdded (c : Call) (db : Database) (r : Progress) (seen : List Value)
    (pre : List Json) : Prop where
  added : ∃ new, r.tables .userSiteAccess = db.tables .userSiteAccess ++ new ∧
    ∀ row ∈ new, row.column "id" ∈ seen ∧ ∃ d, .obj d ∈ pre ∧ ∃ user site,
      grantPair d = (.str (c.py.str (.uuid user)), .str (c.py.str (.uuid site))) ∧
      row.column "user_id" = .uuid user ∧ row.column "site_id" = .uuid site

theorem GrantIds.start (same : r.tables .userSiteAccess = db.tables .userSiteAccess)
    {seen : List Value} : GrantIds c db r seen where
  forward row mem := ⟨row, same ▸ mem, rfl, .inl rfl⟩
  backward now mem := .inl ⟨now, same ▸ mem, rfl⟩

theorem GrantsAdded.start (same : r.tables .userSiteAccess = db.tables .userSiteAccess)
    {seen : List Value} : GrantsAdded c db r seen [] :=
  ⟨[], by rw [same, List.append_nil], by simp⟩

theorem GrantIds.mono {seen : List Value} (ids : GrantIds c db r seen) (v : Value) :
    GrantIds c db r (seen ++ [v]) where
  forward := ids.forward
  backward now mem := (ids.backward now mem).imp_right (List.mem_append_left _)

theorem GrantsAdded.mono {seen : List Value} {pre : List Json} (grants : GrantsAdded c db r seen pre)
    (vs : List Value) (json : Json) : GrantsAdded c db r (seen ++ vs) (pre ++ [json]) := by
  obtain ⟨new, rows, facts⟩ := grants.added
  refine ⟨new, rows, fun row mem => ?_⟩
  obtain ⟨known, d, before, rest⟩ := facts row mem
  exact ⟨List.mem_append_left _ known, d, List.mem_append_left _ before, rest⟩

/-- The stored grant with an identifier that was not seen yet, on both sides. -/
theorem GrantIds.load_cases {seen : List Value} (ids : GrantIds c db r seen)
    (unique : Table.Unique (r.tables .userSiteAccess)) (new : pk ∉ seen) :
    load db.tables .userSiteAccess pk = load r.tables .userSiteAccess pk ∨
      ∃ row now, load db.tables .userSiteAccess pk = some row ∧
        load r.tables .userSiteAccess pk = some now ∧ c.overwriteExisting = true ∧
        owned c db.tables .userSiteAccess row = true ∧
        owned c r.tables .userSiteAccess now = true := by
  by_cases given : pk = .none
  · exact .inl (by simp [load, given])
  rw [load_lookup given, load_lookup given]
  cases old : Table.lookup (db.tables .userSiteAccess) pk with
  | none =>
    refine .inl (Eq.symm (Table.lookup_none.mpr fun now mem named => ?_))
    rcases ids.backward now mem with ⟨row, known, same⟩ | seen'
    · exact Table.lookup_none.mp old row known (same.trans named)
    · rw [show now.column "id" = pk from named] at seen'
      exact new seen'
  | some row =>
    have id : row.column "id" = pk := Table.lookup_key old
    obtain ⟨now, mem, same, kept⟩ := ids.forward row (Table.lookup_mem old)
    have here : Table.lookup (r.tables .userSiteAccess) pk = some now := by
      rw [← id, ← same]
      exact unique.lookup mem
    rw [here]
    rcases kept with rfl | changed
    · exact .inl rfl
    · exact .inr ⟨row, now, rfl, rfl, changed⟩

/-- A decision about a grant raises only for its owner and its references. -/
theorem resolve_grant : ∃ fate, resolve c p grants .userSiteAccess portable pk existing record = .ok fate := by
  unfold resolve
  split
  · exact ⟨_, rfl⟩
  dsimp only
  split
  · exact ⟨_, rfl⟩
  have passed {e : Option Row} : secureRecord c p.tables grants .userSiteAccess pk e portable record =
      .ok record := by
    unfold secureRecord
    cases c.securityRestore <;> rfl
  have renewed {e : Option Row} : freshSession c .userSiteAccess e record = .ok record := by
    cases e <;> rfl
  rw [passed, ok_bind rfl, renewed]
  exact ⟨_, rfl⟩

theorem judge_grant (existing' : Option Row)
    (stored : load p.tables .userSiteAccess pk = existing')
    (ours : ∀ row, existing' = some row → owned c p.tables .userSiteAccess row = true)
    (valid : refsValid c p .userSiteAccess existing' record = true) :
    ∃ fate, judge c p grants .userSiteAccess portable pk record = .ok fate := by
  unfold judge
  dsimp only
  rw [stored, if_neg, if_neg]
  · exact resolve_grant
  · simp [valid]
  · cases existing' with
    | none => simp
    | some row => simp [ours row rfl]

theorem judge_refused (existing' : Option Row)
    (stored : load p.tables .userSiteAccess pk = existing')
    (ours : ∀ row, existing' = some row → owned c p.tables .userSiteAccess row = true)
    (invalid : refsValid c p .userSiteAccess existing' record = false) :
    judge c p grants .userSiteAccess portable pk record =
      if c.secured .userSiteAccess then
        .error "Account-security restore requires every referenced parent."
      else .ok (.skipped true) := by
  unfold judge
  dsimp only
  rw [stored, if_neg, if_pos]
  · simp [invalid]
  · cases existing' with
    | none => simp
    | some row => simp [ours row rfl]

/-- Whatever was overwritten, a grant is refused on both sides or on none. -/
theorem GrantIds.judge_lockstep {seen : List Value} {user site : Uuid} {d : Dict}
    (ids : GrantIds c db r seen) (agree : Agree db p r) (ran : Ran c db.tables done r)
    (new : pk ∉ seen) (grant : GrantRecord c d record user site) :
    Lockstep (· = databaseError) (fun _ _ => True) (judge c p grants .userSiteAccess portable pk record)
      (judge c r grants .userSiteAccess portable pk record) := by
  have refs (existing : Option Row) : refsValid c p .userSiteAccess existing record =
      refsValid c r .userSiteAccess existing record :=
    refsValid_eq fun k _ steady v => agree.reference ran steady (by decide)
  rcases ids.load_cases (ran.unique _) new with same | ⟨row, now, old, here, replaces, before, after⟩
  · have owners : ((load p.tables .userSiteAccess pk).any fun row =>
        !owned c p.tables .userSiteAccess row) =
        (load r.tables .userSiteAccess pk).any fun row => !owned c r.tables .userSiteAccess row := by
      rw [agree.tables, ← same]
      cases found : load db.tables .userSiteAccess pk with
      | none => rfl
      | some row =>
        show (!owned c db.tables .userSiteAccess row) = !owned c r.tables .userSiteAccess row
        rw [ran.owned_init (load_mem found).1]
    unfold judge
    dsimp only
    rw [owners, agree.tables, same, refs]
    split
    · split <;> trivial
    split
    · split <;> trivial
    have admitted (q : Progress) : ∃ fate, resolve c q grants .userSiteAccess portable pk
        (load r.tables .userSiteAccess pk) record = .ok fate := resolve_grant
    obtain ⟨fate, one⟩ := admitted p
    obtain ⟨fate', two⟩ := admitted r
    rw [one, two]
    trivial
  · have values (row : Row) {g : String} {id : Uuid} (found : record.find g = some (.uuid id)) :
        value c (some row) record g = .uuid id := value_of_find found fun _ => replaces
    have valid : refsValid c r .userSiteAccess (some now) record =
        refsValid c p .userSiteAccess (some row) record := by
      rw [refs]
      simp only [refsValid, values row grant.named, values row grant.placed, values now grant.named,
        values now grant.placed]
    have ours : ∀ row', some row = some row' → owned c p.tables .userSiteAccess row' = true := by
      intro row' same
      rw [agree.tables, ← Option.some.inj same]
      exact before
    have ours' : ∀ now', some now = some now' → owned c r.tables .userSiteAccess now' = true := by
      intro now' same
      rw [← Option.some.inj same]
      exact after
    have old' : load p.tables .userSiteAccess pk = some row := agree.tables ▸ old
    by_cases good : refsValid c p .userSiteAccess (some row) record = true
    · have one : ∃ fate, judge c p grants .userSiteAccess portable pk record = .ok fate :=
        judge_grant _ old' ours good
      have two : ∃ fate, judge c r grants .userSiteAccess portable pk record = .ok fate :=
        judge_grant _ here ours' (valid ▸ good)
      obtain ⟨fate, one⟩ := one
      obtain ⟨fate', two⟩ := two
      rw [one, two]
      trivial
    · have bad : refsValid c p .userSiteAccess (some row) record = false := by simpa using good
      rw [judge_refused _ old' ours bad, judge_refused _ here ours' (valid ▸ bad)]
      split <;> trivial

/-! ### One grant -/

/-- The real restore takes a grant. -/
theorem GrantIds.take {seen : List Value} (ids : GrantIds c db r seen) (ran : Ran c db.tables done r)
    (given : pk ≠ .none)
    (h : Taken c r grants .userSiteAccess portable pk archived existing secured record) :
    GrantIds c db (r.take c false .userSiteAccess pk existing secured record) (seen ++ [pk]) := by
  have keeps := ran.keeps_written given h
  have ours := keeps.owned (ran.owned_written rfl h)
  have rows {x : Row} :
      x ∈ written c r.tables .userSiteAccess pk existing record .userSiteAccess ↔ _ :=
    mem_written rfl (ran.unique .userSiteAccess) h.stored_mem
  constructor
  case forward =>
    intro row mem
    obtain ⟨now, there, id, kept⟩ := ids.forward row mem
    have still : now = row ∨ c.overwriteExisting = true ∧
        owned c db.tables .userSiteAccess row = true ∧
        owned c (r.take c false .userSiteAccess pk existing secured record).tables .userSiteAccess
          now = true :=
      kept.imp_right fun ⟨replaces, before, after⟩ => ⟨replaces, before, keeps.owned after⟩
    by_cases here : ∃ stored, existing = some stored ∧ now.column "id" = stored.column "id"
    · obtain ⟨stored, known, same⟩ := here
      have equal : now = stored := (ran.unique _).eq there (h.stored_mem stored known) same
      refine ⟨_, rows.mpr (.inl rfl), ?_, ?_⟩
      · rw [known]
        simp only [writtenRow]
        split
        · rw [updatedRow_id, ← same, id]
        · rw [← same, id]
      · by_cases replaces : c.overwriteExisting = true
        · refine .inr ⟨replaces, ?_, ours⟩
          rcases kept with rfl | ⟨-, before, -⟩
          · rw [← ran.owned_init mem, equal]
            exact h.free stored known
          · exact before
        · have whole : writtenRow c .userSiteAccess pk existing record = now := by
            rw [known, equal]
            simp [writtenRow, replaces]
          rw [whole]
          exact still
    · refine ⟨now, rows.mpr (.inr ⟨there, fun stored known same => here ⟨stored, known, same⟩⟩), id,
        still⟩
  case backward =>
    intro now mem
    rcases rows.mp mem with rfl | ⟨old, -⟩
    · cases existing with
      | none => exact .inr (List.mem_append_right _ (by simp [writtenRow, insertedRow]))
      | some stored =>
        have id : (writtenRow c .userSiteAccess pk (some stored) record).column "id" =
            stored.column "id" := by
          simp only [writtenRow]
          split
          · exact updatedRow_id
          · rfl
        rw [id]
        exact (ids.backward stored (h.stored_mem stored rfl)).imp_right (List.mem_append_left _)
    · exact (ids.backward now old).imp_right (List.mem_append_left _)

/-- While nothing was overwritten both sides judge a grant alike. -/
theorem GrantsAdded.view {seen : List Value} {pre : List Json} {d : Dict} {user site : Uuid}
    (added : GrantsAdded c db r seen pre) (agree : Agree db p r) (ran : Ran c db.tables done r)
    (new : pk ∉ seen) (grant : GrantRecord c d record user site)
    (distinct : ∀ d', .obj d' ∈ pre → grantPair d' ≠ grantPair d) :
    SameView c grants .userSiteAccess portable pk record p r := by
  obtain ⟨fresh, rows, facts⟩ := added.added
  have pair : samePair r.tables record = samePair db.tables record := by
    unfold samePair
    rw [rows, List.find?_append]
    have absent : fresh.find? (fun g => g.column "user_id" = record.get "user_id" &&
        g.column "site_id" = record.get "site_id") = none := by
      rw [List.find?_eq_none]
      intro row mem same
      simp only [Bool.and_eq_true, decide_eq_true_eq, get_of_find grant.named,
        get_of_find grant.placed] at same
      obtain ⟨-, d', before, user', site', pair', named, placed⟩ := facts row mem
      refine distinct d' before ?_
      have users : user' = user := Value.uuid.inj (named.symm.trans same.1)
      have sites : site' = site := Value.uuid.inj (placed.symm.trans same.2)
      rw [pair', grant.pair, users, sites]
    rw [absent, Option.or_none]
  refine ⟨?_, fun _ => ?_, fun _ => agree.preserved, ?_, ?_, ?_⟩
  · rw [agree.tables]
    unfold load
    split
    · rfl
    · unfold Table.lookup
      rw [rows, List.find?_append]
      have absent : fresh.find? (fun g => Keyed.key g = pk) = none := by
        rw [List.find?_eq_none]
        intro row mem named
        refine new ?_
        have id : row.column "id" = pk := by simpa using named
        rw [← id]
        exact (facts row mem).1
      rw [absent, Option.or_none]
  · rw [agree.tables, pair]
  · intro row found
    rw [agree.tables] at found ⊢
    have mem : row ∈ db.tables .userSiteAccess := by
      rw [counterpart, if_pos rfl] at found
      rcases Option.or_eq_some_iff.mp found with here | ⟨-, there⟩
      · exact (load_mem here).1
      · exact List.mem_of_find?_eq_some there
    rw [ran.owned_init mem]
  · exact fun k _ steady v => agree.reference ran steady (by decide)
  · exact fun existing => secureRecord_eq fun same => by cases same

/-- A grant is taken without overwriting one. -/
theorem GrantsAdded.take {seen : List Value} {pre : List Json} {d : Dict} {user site : Uuid}
    (added : GrantsAdded c db r seen pre) (grant : GrantRecord c d record user site)
    (clean : existing = none ∨ c.overwriteExisting = false) :
    GrantsAdded c db (r.take c false .userSiteAccess pk existing secured record) (seen ++ [pk])
      (pre ++ [.obj d]) := by
  cases existing with
  | some row =>
    have keep : c.overwriteExisting = false := clean.resolve_left (by simp)
    obtain ⟨fresh, rows, facts⟩ := (added.mono [pk] (.obj d)).added
    refine ⟨fresh, ?_, facts⟩
    rw [take_tables, written_update rfl, keep]
    exact rows
  | none =>
    obtain ⟨fresh, rows, facts⟩ := (added.mono [pk] (.obj d)).added
    refine ⟨fresh ++ [insertedRow c .userSiteAccess pk record], ?_, ?_⟩
    · rw [take_tables, written_insert, rows, List.append_assoc]
    · refine mem_snoc facts ⟨by simp [insertedRow], d, by simp, user, site, grant.pair, ?_, ?_⟩
      · have account : "user_id" ∉ c.blocked := by
          cases secrets : c.includeSecrets <;>
            simp [Call.blocked, secrets, credentialSecretFields, audit]
        rw [insertedRow_column (by decide) (by decide) account, grant.named]
        rfl
      · rw [insertedRow_column (by decide) (by decide) (links_free (by decide)), grant.placed]
        rfl

end FreeSdn.Backup.Core
