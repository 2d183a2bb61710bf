import FreeSdn.Lib.Lockstep
import FreeSdn.Backup.Identities

/-! A preview beside the real restore.  Both judge a record alike, because the real one has changed no
row that it has not accepted, and what it accepted has the links that the preview kept aside. -/

namespace FreeSdn.Backup.Core

open FreeSdn.Lib

variable {c : Call} {db : Database} {kind k : Kind} {p r s : Progress} {done : List Kind}
  {record archived secured : Record} {row : Row} {pk v : Value} {existing : Option Row}
  {grants : List Dict} {portable : Dict}

/-! ### What a decision reads -/

/-- The checks of references read the sites of parents and nothing else. -/
theorem refsValid_eq
    (refs : ∀ k, k ≠ kind → k.steady = true → ∀ v, (reference c p k v).map (·.column "site_id") =
      (reference c r k v).map (·.column "site_id")) :
    refsValid c p kind existing record = refsValid c r kind existing record := by
  have some (k : Kind) (other : k ≠ kind) (steady : k.steady = true) (v : Value) :
      (reference c p k v).isSome = (reference c r k v).isSome := by
    have same := congrArg Option.isSome (refs k other steady v)
    simpa using same
  have any (k : Kind) (other : k ≠ kind) (steady : k.steady = true) (v : Value) (q : Value → Bool) :
      (reference c p k v).any (fun row => q (row.column "site_id")) =
        (reference c r k v).any (fun row => q (row.column "site_id")) := by
    have same := congrArg (Option.any q) (refs k other steady v)
    simpa [Option.any_map, Function.comp_def] using same
  have placed (credential : kind ≠ .credential) (site : kind ≠ .site) :
      placed c p existing record = placed c r existing record := by
    unfold Core.placed serves
    dsimp only
    rw [some .site site.symm rfl]
    exact congrArg _ (congrArg _ (any .credential credential.symm rfl _
      fun there => there = .none || there = value c existing record "site_id"))
  cases kind with
  | site =>
    simp only [refsValid]
    rw [some .siteGroup (by decide) rfl]
  | credential =>
    simp only [refsValid]
    rw [some .site (by decide) rfl]
  | controller => exact placed (by decide) (by decide)
  | device =>
    simp only [refsValid]
    rw [placed (by decide) (by decide), any .controller (by decide) rfl _
      fun there => there = value c existing record "site_id"]
  | user =>
    simp only [refsValid]
    rw [some .ssoProvider (by decide) rfl]
  | userSiteAccess =>
    simp only [refsValid]
    rw [some .site (by decide) rfl, some .user (by decide) rfl]
  | _ => rfl

/-- Everything that a decision reads. -/
structure SameView (c : Call) (grants : List Dict) (kind : Kind) (portable : Dict) (pk : Value)
    (record : Record) (p r : Progress) : Prop where
  stored : load p.tables kind pk = load r.tables kind pk
  pair : kind = .userSiteAccess → samePair p.tables record = samePair r.tables record
  preserved : kind = .userSiteAccess → p.preserved = r.preserved
  owned : ∀ row, counterpart p.tables kind (load p.tables kind pk) record = some row →
    owned c p.tables kind row = Core.owned c r.tables kind row
  refs : ∀ k, k ≠ kind → k.steady = true → ∀ v, (reference c p k v).map (·.column "site_id") =
    (reference c r k v).map (·.column "site_id")
  secure : ∀ existing, secureRecord c p.tables grants kind pk existing portable record =
    secureRecord c r.tables grants kind pk existing portable record

theorem SameView.any_owned (view : SameView c grants kind portable pk record p r) (existing : Option Row)
    (known : ∀ row, existing = some row →
      counterpart p.tables kind (load p.tables kind pk) record = some row) :
    (existing.any fun row => !Core.owned c p.tables kind row) =
      existing.any fun row => !Core.owned c r.tables kind row := by
  cases existing with
  | none => rfl
  | some row =>
    show (!Core.owned c p.tables kind row) = !Core.owned c r.tables kind row
    rw [view.owned row (known row rfl)]

theorem SameView.judge (view : SameView c grants kind portable pk record p r) :
    judge c p grants kind portable pk record = Core.judge c r grants kind portable pk record := by
  have same : counterpart p.tables kind (load p.tables kind pk) record =
      counterpart r.tables kind (load r.tables kind pk) record := by
    unfold counterpart
    split
    · rename_i grant
      rw [view.stored, view.pair grant]
    · exact view.stored
  have first := view.any_owned (load p.tables kind pk) fun row found => by
    unfold counterpart
    split
    · rw [found]
      rfl
    · exact found
  have second := view.any_owned (counterpart p.tables kind (load p.tables kind pk) record)
    fun row found => found
  unfold Core.judge
  dsimp only
  rw [first, ← view.stored, refsValid_eq view.refs]
  have resolved : resolve c p grants kind portable pk (load p.tables kind pk) record =
      Core.resolve c r grants kind portable pk (load p.tables kind pk) record := by
    unfold Core.resolve
    dsimp only
    rw [second, view.stored, ← same, view.stored]
    simp only [view.secure]
    by_cases grant : kind = .userSiteAccess
    · rw [view.preserved grant]
    · simp [grant]
  rw [resolved]

/-! ### The two restores -/

/-- The preview `p` beside the real restore `r`; grants are nobody's parents. -/
structure Agree (db : Database) (p r : Progress) : Prop where
  tables : p.tables = db.tables
  links : ∀ k, k ≠ .userSiteAccess → ∀ id, ∀ g ∈ links,
    (p.accepted k id).map (·.column g) = (r.accepted k id).map (·.column g)
  moved : p.moved = r.moved
  preserved : p.preserved = r.preserved
  transitions : p.transitions = r.transitions

theorem steady_grant (steady : k.steady = true) : k ≠ .userSiteAccess := by
  rintro rfl
  cases steady

theorem Agree.none_iff (agree : Agree db p r) (steady : k.steady = true) {id : Value} :
    p.accepted k id = none ↔ r.accepted k id = none := by
  have same := agree.links k (steady_grant steady) id "site_id" (by decide)
  cases here : p.accepted k id <;> cases there : r.accepted k id <;> simp_all

/-- References have the same links on both sides. -/
theorem Agree.reference (agree : Agree db p r) (ran : Ran c db.tables done r)
    (steady : k.steady = true) {g : String} (link : g ∈ Core.links) :
    (reference c p k v).map (·.column g) = (Core.reference c r k v).map (·.column g) := by
  unfold Core.reference
  by_cases given : v = .none
  · rw [if_pos given, if_pos given]
  rw [if_neg given, if_neg given]
  have same := agree.links k (steady_grant steady) v g link
  cases there : r.accepted k v with
  | some ref =>
    rw [there] at same
    cases here : p.accepted k v with
    | none => simp [here] at same
    | some ref' =>
      rw [here] at same
      exact same
  | none =>
    rw [(agree.none_iff steady).mpr there]
    dsimp only
    have loads : load r.tables k v = load db.tables k v := by
      rw [load_lookup given, load_lookup given, ran.kept k steady v there]
    rw [agree.tables, loads]
    congr 1
    cases found : load db.tables k v with
    | none => rfl
    | some row =>
      rw [Option.filter_some, Option.filter_some, ran.owned_init (load_mem found).1]

theorem portableUser_eq {t t' : Tables} (same : collides c t pk record = collides c t' pk record)
    (grants' : t .userSiteAccess = t' .userSiteAccess) :
    portableUser c t grants pk existing record = portableUser c t' grants pk existing record := by
  unfold portableUser currentGrants
  rw [same, grants']

theorem secureRecord_eq {t t' : Tables}
    (accounts : kind = .user → c.securityRestore = true →
      collides c t pk (portableRecord portable) = collides c t' pk (portableRecord portable) ∧
        t .userSiteAccess = t' .userSiteAccess) :
    secureRecord c t grants kind pk existing portable record =
      secureRecord c t' grants kind pk existing portable record := by
  by_cases user : kind = .user ∧ c.securityRestore = true
  · obtain ⟨rfl, security⟩ := user
    obtain ⟨same, grants'⟩ := accounts rfl security
    unfold secureRecord
    rw [security]
    dsimp only
    rw [portableUser_eq same grants']
  · unfold secureRecord
    split
    · rfl
    · rename_i security
      exact absurd ⟨rfl, security⟩ user
    · rfl

/-- Apart from grants both sides judge alike. -/
theorem Agree.view (agree : Agree db p r) (ran : Ran c db.tables done r) (steady : kind.steady = true)
    (given : pk ≠ .none) (new : r.accepted kind pk = none)
    (accounts : kind = .user → c.securityRestore = true →
      collides c db.tables pk (portableRecord portable) =
          collides c r.tables pk (portableRecord portable) ∧
        db.tables .userSiteAccess = r.tables .userSiteAccess) :
    SameView c grants kind portable pk record p r where
  stored := by
    rw [agree.tables, load_lookup given, load_lookup given, ran.kept kind steady pk new]
  pair grant := absurd grant (steady_grant steady)
  preserved grant := absurd grant (steady_grant steady)
  owned row found := by
    rw [counterpart, if_neg (steady_grant steady), agree.tables] at found
    rw [agree.tables, ran.owned_init (load_mem found).1]
  refs k _ steady v := agree.reference ran steady (by decide)
  secure existing := by
    rw [agree.tables]
    exact secureRecord_eq accounts

/-- Both sides take the record. -/
theorem Agree.take (agree : Agree db p r) :
    Agree db (p.take c true kind pk existing secured record)
      (r.take c false kind pk existing secured record) where
  tables := agree.tables
  links k other id g link := by
    rw [take_accepted, take_accepted]
    split
    · rw [Option.map_some, Option.map_some, acceptedRow_links true link, acceptedRow_links false link]
    · exact agree.links k other id g link
  moved := by
    show (noted c p kind pk existing secured record).moved =
      (noted c r kind pk existing secured record).moved
    simp only [noted]
    rw [agree.moved]
  preserved := by
    show (noted c p kind pk existing secured record).preserved =
      (noted c r kind pk existing secured record).preserved
    simp only [noted]
    rw [agree.preserved]
  transitions := by
    show (noted c p kind pk existing secured record).transitions =
      (noted c r kind pk existing secured record).transitions
    simp only [noted]
    rw [agree.transitions]

/-- A grant leaves everything but its table and its place aside as it is. -/
theorem noted_grant : noted c s .userSiteAccess pk existing secured record = s := by
  unfold noted moves
  simp

theorem Agree.grant_preview (agree : Agree db p r) :
    Agree db (p.take c true .userSiteAccess pk existing secured record) r where
  tables := agree.tables
  links k other id g link := by
    rw [take_accepted_other other]
    exact agree.links k other id g link
  moved := by
    show (noted c p .userSiteAccess pk existing secured record).moved = _
    rw [noted_grant, agree.moved]
  preserved := by
    show (noted c p .userSiteAccess pk existing secured record).preserved = _
    rw [noted_grant, agree.preserved]
  transitions := by
    show (noted c p .userSiteAccess pk existing secured record).transitions = _
    rw [noted_grant, agree.transitions]

theorem Agree.grant_real (agree : Agree db p r) :
    Agree db p (r.take c false .userSiteAccess pk existing secured record) where
  tables := agree.tables
  links k other id g link := by
    rw [take_accepted_other other]
    exact agree.links k other id g link
  moved := by
    show _ = (noted c r .userSiteAccess pk existing secured record).moved
    rw [noted_grant, agree.moved]
  preserved := by
    show _ = (noted c r .userSiteAccess pk existing secured record).preserved
    rw [noted_grant, agree.preserved]
  transitions := by
    show _ = (noted c r .userSiteAccess pk existing secured record).transitions
    rw [noted_grant, agree.transitions]

/-! ### The plan of a preview -/

/-- The record would be taken in the place of a stored row. -/
def replaces (c : Call) (a : Archive) (s : Progress) (kind : Kind) (json : Json) : Bool :=
  match examine c kind json with
  | .ok (.record portable pk record) =>
    match judge c s a.grants kind portable pk record with
    | .ok (.taken existing _ _) => existing.isSome && c.overwriteExisting
    | _ => false
  | _ => false

/-- What a record adds to the plan when it is judged in `s`. -/
def planOne (c : Call) (a : Archive) (s : Progress) (kind : Kind) (acc : Progress) (json : Json) :
    Progress :=
  match examine c kind json with
  | .ok (.record portable pk record) =>
    match judge c s a.grants kind portable pk record with
    | .ok (.taken existing secured record) => acc.take c true kind pk existing secured record
    | _ => acc
  | _ => acc

/-- What the records of a resource add to the plan. -/
def plan (c : Call) (a : Archive) (s : Progress) (kind : Kind) : Progress :=
  match a.records kind with
  | .ok records => records.foldl (planOne c a s kind) s
  | .error _ => s

/-- A record of the archive is taken in the place of a stored row. -/
def Replaces (c : Call) (a : Archive) : Progress → List Kind → Prop
  | _, [] => False
  | s, kind :: kinds => (∃ records, a.records kind = .ok records ∧
      ∃ json ∈ records, replaces c a s kind json = true) ∨ Replaces c a (plan c a s kind) kinds

/-- Within a resource the plan changes nothing that its decisions read. -/
structure Within (kind : Kind) (s p : Progress) : Prop where
  tables : p.tables = s.tables
  accepted : ∀ k, k ≠ kind → ∀ id, p.accepted k id = s.accepted k id
  preserved : kind = .userSiteAccess → p.preserved = s.preserved

theorem Within.refl (s : Progress) : Within kind s s := ⟨rfl, fun _ _ _ => rfl, fun _ => rfl⟩

theorem Within.take (within : Within kind s p) :
    Within kind s (p.take c true kind pk existing secured record) where
  tables := within.tables
  accepted k other id := by
    rw [take_accepted_other other]
    exact within.accepted k other id
  preserved grant := by
    subst grant
    show (noted c p .userSiteAccess pk existing secured record).preserved = _
    rw [noted_grant]
    exact within.preserved rfl

theorem Within.judge (within : Within kind s p) :
    judge c p grants kind portable pk record = Core.judge c s grants kind portable pk record := by
  refine SameView.judge ⟨?_, ?_, within.preserved, ?_, ?_, ?_⟩
  · rw [within.tables]
  · intro _
    rw [within.tables]
  · intro row _
    rw [within.tables]
  · intro k other _ v
    unfold reference
    rw [within.accepted k other, within.tables]
  · intro existing
    rw [within.tables]

theorem Within.planOne {a : Archive} (within : Within kind s p) (json : Json) :
    Within kind s (planOne c a s kind p json) := by
  unfold Core.planOne
  split
  · split
    · exact within.take
    · exact within
  · exact within

theorem within_plan {a : Archive} (records : List Json) :
    Within kind s (records.foldl (planOne c a s kind) s) := by
  suffices run : ∀ acc, Within kind s acc →
      Within kind s (records.foldl (planOne c a s kind) acc) from run s (.refl s)
  induction records with
  | nil => exact fun acc within => within
  | cons json records ih => exact fun acc within => ih _ (within.planOne json)

end FreeSdn.Backup.Core
