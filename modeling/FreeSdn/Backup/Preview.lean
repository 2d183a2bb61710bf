import FreeSdn.Lib.JsonText
import FreeSdn.Backup.Grants

/-! Core restore and its preview.  The real restore leaves a coherent state and stays in its
organization; the preview raises exactly when the real restore does.  Its counts are those of the real
restore exactly when no stored row is overwritten: an overwritten row counts as updated in the real
restore and as skipped in the preview. -/

namespace FreeSdn.Backup.Core

open FreeSdn.Lib

variable {c : Call} {db : Database} {kind : Kind} {p r s : Progress} {done : List Kind}
  {record archived secured : Record} {row : Row} {pk : Value} {existing : Option Row}
  {a : Archive} {portable : Dict}

/-! ### Counts -/

/-- The counts that a restore reports of a resource as created, updated and skipped. -/
def Counts.report (n : Counts) : Nat × Nat × Nat := (n.created, n.updated, n.skipped)

/-- The counts of a preview and of the real restore, when `n` stored rows are to be overwritten. -/
structure Tally (n : Nat) (preview real : Counts) : Prop where
  never : preview.updated = 0
  zero : real.updated = 0 ↔ n = 0
  same : n = 0 → preview = real

theorem Tally.start : Tally 0 ⟨0, 0, 0, 0⟩ ⟨0, 0, 0, 0⟩ := ⟨rfl, by simp, fun _ => rfl⟩

/-- The counts with a record skipped. -/
def Counts.skip (n : Counts) (rejected : Bool) : Counts :=
  { n with skipped := n.skipped + 1, rejectedCrossOrg := n.rejectedCrossOrg + rejected.toNat }

theorem Tally.skip {n : Nat} {preview real : Counts} (tally : Tally n preview real) (rejected : Bool) :
    Tally n (preview.skip rejected) (real.skip rejected) where
  never := tally.never
  zero := tally.zero
  same none := by rw [tally.same none]

/-- One more record of the same fate. -/
theorem Tally.take {n : Nat} {preview real : Counts} (tally : Tally n preview real) :
    Tally (n + (existing.isSome && c.overwriteExisting).toNat)
      (Counts.take c preview true existing) (Counts.take c real false existing) := by
  cases existing with
  | none => exact ⟨tally.never, tally.zero, fun none => by rw [tally.same none]; rfl⟩
  | some row =>
    cases replaces : c.overwriteExisting with
    | true =>
      constructor
      · simp [Counts.take, tally.never]
      · simp [Counts.take, replaces]
      · simp
    | false =>
      refine ⟨?_, ?_, fun none => ?_⟩
      · simp [Counts.take, tally.never]
      · simpa [Counts.take, replaces] using tally.zero
      · rw [tally.same none]
        simp [Counts.take, replaces]

/-- Once a row was overwritten the counts stay apart. -/
theorem Tally.apart {n m : Nat} {preview real preview' real' : Counts} (tally : Tally n preview real)
    (some : n ≠ 0) (more : n ≤ m) (never : preview'.updated = preview.updated)
    (grows : real.updated ≤ real'.updated) : Tally m preview' real' where
  never := never.trans tally.never
  zero := by
    have before : real.updated ≠ 0 := fun zero => some (tally.zero.mp zero)
    omega
  same none := by omega

theorem take_preview_updated {n : Counts} : (Counts.take c n true existing).updated = n.updated := by
  cases existing <;> simp [Counts.take]

theorem take_real_updated {n : Counts} : n.updated ≤ (Counts.take c n false existing).updated := by
  cases existing with
  | none => exact Nat.le_refl _
  | some row =>
    simp only [Counts.take]
    split
    · exact Nat.le_succ _
    · exact Nat.le_refl _

/-! ### Both restores, resource by resource -/

/-- Preview and real restore between two resources. -/
structure Synced (c : Call) (db : Database) (done : List Kind) (p r : Progress) : Prop where
  agree : Agree db p r
  ran : Ran c db.tables done r
  linked : Linked c db.tables r
  idle : .user ∉ done → r.transitions = []
  accounts : c.securityRestore = true → ∃ pre, Accounts c db r pre

/-- Preview and real restore within a resource, after the records `pre`, from the plan `s`. -/
structure Phase (c : Call) (db : Database) (a : Archive) (done : List Kind) (kind : Kind)
    (s : Progress) (pre : List Json) (p r : Pass) : Prop where
  synced : Synced c db (kind :: done) p.progress r.progress
  seen : p.seen = r.seen
  first : SeenFirst kind r
  plan : p.progress = pre.foldl (planOne c a s kind) s
  tally : Tally (pre.countP (replaces c a s kind)) p.counts r.counts
  accounts : kind = .user → c.securityRestore = true →
    ∃ ds, pre = ds.map .obj ∧ Accounts c db r.progress ds
  grants : kind = .userSiteAccess → GrantIds c db r.progress r.seen
  added : kind = .userSiteAccess → pre.countP (replaces c a s kind) = 0 →
    GrantsAdded c db r.progress r.seen pre

/-- The archive of a call: accounts are validated in a vault restore. -/
structure Opened (c : Call) (a : Archive) : Prop where
  vault : c.securityRestore = true → ∃ accounts, a.accounts = some accounts ∧
    GoodSnapshot c.py accounts
  plain : c.securityRestore = false → a.accounts = none

theorem openArchive_opened {data : Dict} (h : openArchive c data = .ok a) : Opened c a := by
  unfold openArchive at h
  split at h
  · rename_i security
    obtain ⟨accounts, valid, rfl⟩ := map_ok h
    exact ⟨fun _ => ⟨accounts, rfl, validateSnapshot_good valid⟩, fun plain => by simp [plain] at security⟩
  · rename_i security
    obtain rfl := Except.ok.inj h
    exact ⟨fun vault => absurd vault security, fun _ => rfl⟩

theorem countP_snoc {α : Type} {q : α → Bool} {xs : List α} {x : α} :
    (xs ++ [x]).countP q = xs.countP q + (q x).toNat := by
  rw [List.countP_append]
  cases h : q x <;> simp [h]

theorem foldl_snoc {json : Json} {pre : List Json} :
    (pre ++ [json]).foldl (planOne c a s kind) s =
      planOne c a s kind (pre.foldl (planOne c a s kind) s) json := by
  rw [List.foldl_append]
  rfl

/-- A record that neither side takes. -/
theorem Phase.skip {pre : List Json} {x y : Pass} {json : Json} {vs seen seen' : List Value}
    {rejected : Bool} (phase : Phase c db a done kind s pre x y)
    (extra : seen = x.seen ++ vs) (extra' : seen' = y.seen ++ vs)
    (plan : planOne c a s kind x.progress json = x.progress)
    (kept : replaces c a s kind json = false)
    (object : kind = .user → c.securityRestore = true → ∃ d, json = .obj d) :
    Phase c db a done kind s (pre ++ [json]) ({ x with seen := seen }.skip rejected)
      ({ y with seen := seen' }.skip rejected) := by
  subst extra extra'
  constructor
  case synced => exact phase.synced
  case seen =>
    show x.seen ++ vs = y.seen ++ vs
    rw [phase.seen]
  case first => exact fun id row noted => List.mem_append_left _ (phase.first id row noted)
  case plan =>
    rw [foldl_snoc, ← phase.plan]
    exact plan.symm
  case tally =>
    rw [countP_snoc, kept]
    exact phase.tally.skip rejected
  case accounts =>
    intro user security
    obtain ⟨d, rfl⟩ := object user security
    obtain ⟨ds, rfl, accounts⟩ := phase.accounts user security
    exact ⟨ds ++ [d], by simp, accounts.mono d⟩
  case grants =>
    intro grant
    have ids := phase.grants grant
    exact ⟨ids.forward, fun now mem => (ids.backward now mem).imp_right (List.mem_append_left _)⟩
  case added =>
    intro grant none
    rw [countP_snoc, kept] at none
    exact (phase.added grant none).mono vs json

theorem take_transitions {dryRun : Bool} (other : kind ≠ .user) :
    (s.take c dryRun kind pk existing secured record).transitions = s.transitions := by
  show (noted c s kind pk existing secured record).transitions = s.transitions
  simp [noted, other]

/-- The real side after a taken record, but for the accounts of a vault. -/
theorem Synced.real (synced : Synced c db (kind :: done) p r) (restored : kind.restored = true)
    (apart : ∀ child ∈ consumers kind, child ∉ kind :: done) (given : pk ≠ .none)
    (new : r.accepted kind pk = none)
    (taken : Taken c r a.grants kind portable pk archived existing secured record)
    {p' : Progress} (agree : Agree db p' (r.take c false kind pk existing secured record))
    (accounts : kind = .user → c.securityRestore = true →
      ∃ pre, Accounts c db (r.take c false kind pk existing secured record) pre) :
    Synced c db (kind :: done) p' (r.take c false kind pk existing secured record) where
  agree := agree
  ran := synced.ran.take List.mem_cons_self restored given taken
  linked := synced.linked.take synced.ran apart new given taken
  idle away := by
    rw [take_transitions (by rintro rfl; exact away List.mem_cons_self)]
    exact synced.idle away
  accounts security := by
    by_cases user : kind = .user
    · exact accounts user security
    · obtain ⟨pre, before⟩ := synced.accounts security
      exact ⟨pre, before.same (by rw [take_tables, written_other (Ne.symm user) rfl])
        (take_transitions user)⟩

theorem SeenFirst.take {dryRun : Bool} {x : Pass} (first : SeenFirst kind x) :
    SeenFirst kind (Pass.take c { x with seen := x.seen ++ [pk] } dryRun kind pk existing secured
      record) := by
  intro id row noted
  show id ∈ x.seen ++ [pk]
  by_cases same : id = pk
  · simp [same]
  · refine List.mem_append_left _ (first id row ?_)
    rw [← noted]
    exact (if_neg fun h => same h.2).symm

theorem SeenFirst.fresh {x : Pass} (first : SeenFirst kind x) (new : pk ∉ x.seen) :
    x.progress.accepted kind pk = none := by
  cases noted : x.progress.accepted kind pk with
  | none => rfl
  | some row => exact absurd (first pk row noted) new

/-- A record that both sides take alike. -/
theorem Phase.take {pre : List Json} {x y : Pass} {json : Json}
    (phase : Phase c db a done kind s pre x y) (restored : kind.restored = true)
    (apart : ∀ child ∈ consumers kind, child ∉ kind :: done)
    (read : examine c kind json = .ok (.record portable pk archived)) (new : pk ∉ y.seen)
    (judged : judge c s a.grants kind portable pk archived = .ok (.taken existing secured record))
    (taken : Taken c y.progress a.grants kind portable pk archived existing secured record)
    (user : kind = .user → c.securityRestore = true → ∃ d, json = .obj d ∧ GoodUser c.py d)
    (grant : kind = .userSiteAccess → ∃ d user site, json = .obj d ∧
      GrantRecord c d archived user site) :
    Phase c db a done kind s (pre ++ [json])
      (Pass.take c { x with seen := x.seen ++ [pk] } true kind pk existing secured record)
      (Pass.take c { y with seen := y.seen ++ [pk] } false kind pk existing secured record) := by
  obtain ⟨-, dict, -, -, -, given⟩ := examine_record read
  have fresh := phase.first.fresh new
  have replaced : replaces c a s kind json = (existing.isSome && c.overwriteExisting) := by
    simp only [replaces, read, judged]
  have accounts (is : kind = .user) (security : c.securityRestore = true) :
      ∃ ds, pre ++ [json] = ds.map .obj ∧
        Accounts c db (y.progress.take c false kind pk existing secured record) ds := by
    obtain ⟨d, rfl, good⟩ := user is security
    obtain rfl := Option.some.inj dict
    obtain ⟨ds, same, before⟩ := phase.accounts is security
    subst is
    exact ⟨ds ++ [d], by simp [same],
      before.take phase.synced.ran security good given fresh taken⟩
  constructor
  case synced =>
    refine phase.synced.real restored apart given fresh taken phase.synced.agree.take
      fun is security => ?_
    obtain ⟨ds, -, after⟩ := accounts is security
    exact ⟨ds, after⟩
  case seen =>
    show x.seen ++ [pk] = y.seen ++ [pk]
    rw [phase.seen]
  case first => exact phase.first.take
  case plan =>
    rw [foldl_snoc, ← phase.plan]
    simp only [planOne, read, judged]
    rfl
  case tally =>
    rw [countP_snoc, replaced]
    exact phase.tally.take
  case accounts => exact accounts
  case grants =>
    intro is
    subst is
    exact (phase.grants rfl).take phase.synced.ran given taken
  case added =>
    intro is none
    subst is
    rw [countP_snoc, replaced] at none
    obtain ⟨d, user, site, rfl, fields⟩ := grant rfl
    obtain ⟨-, rfl⟩ := taken.plain (by decide) (by decide)
    refine (phase.added rfl (by omega)).take fields ?_
    have clean : (existing.isSome && c.overwriteExisting) = false := by
      cases h : existing.isSome && c.overwriteExisting with
      | false => rfl
      | true =>
        rw [h] at none
        simp at none
    cases existing with
    | none => exact .inl rfl
    | some row => exact .inr (by simpa using clean)

/-- The pass that follows a decision. -/
def Pass.follow (c : Call) (x : Pass) (dryRun : Bool) (kind : Kind) (pk : Value) : Fate → Pass
  | .skipped rejected => x.skip rejected
  | .taken existing secured record => x.take c dryRun kind pk existing secured record

/-- Both sides settle their decisions, unless the database refuses a row of the real one. -/
theorem Pass.settle_lockstep {R : Pass → Pass → Prop} {x y : Pass} {fate fate' : Fate}
    (related : R (x.follow c true kind pk fate) (y.follow c false kind pk fate')) :
    Lockstep (· = databaseError) R (x.settle c true kind pk fate) (y.settle c false kind pk fate') := by
  have preview : x.settle c true kind pk fate = .ok (x.follow c true kind pk fate) := by
    cases fate <;> rfl
  rw [preview]
  cases fate' with
  | skipped rejected => exact related
  | taken existing secured record => exact .checked rfl fun _ => related

/-- Behind an overwritten grant the two sides may differ about grants, and about nothing else. -/
theorem Phase.grant_apart {pre : List Json} {x y : Pass} {json : Json} {fate fate' : Fate}
    (phase : Phase c db a done .userSiteAccess s pre x y)
    (apart : ∀ child ∈ consumers .userSiteAccess, child ∉ Kind.userSiteAccess :: done)
    (some : pre.countP (replaces c a s .userSiteAccess) ≠ 0)
    (read : examine c .userSiteAccess json = .ok (.record portable pk archived)) (new : pk ∉ y.seen)
    (judged : judge c s a.grants .userSiteAccess portable pk archived = .ok fate)
    (judged' : judge c y.progress a.grants .userSiteAccess portable pk archived = .ok fate') :
    Phase c db a done .userSiteAccess s (pre ++ [json])
      (Pass.follow c { x with seen := x.seen ++ [pk] } true .userSiteAccess pk fate)
      (Pass.follow c { y with seen := y.seen ++ [pk] } false .userSiteAccess pk fate') := by
  obtain ⟨-, -, -, -, -, given⟩ := examine_record read
  have fresh := phase.first.fresh new
  have more : pre.countP (replaces c a s .userSiteAccess) ≤
      (pre ++ [json]).countP (replaces c a s .userSiteAccess) := by
    rw [countP_snoc]
    omega
  have agree : Agree db (Pass.follow c { x with seen := x.seen ++ [pk] } true .userSiteAccess pk
      fate).progress y.progress := by
    cases fate with
    | skipped rejected => exact phase.synced.agree
    | taken existing secured record => exact phase.synced.agree.grant_preview
  constructor
  case synced =>
    cases fate' with
    | skipped rejected =>
      exact ⟨agree, phase.synced.ran, phase.synced.linked, phase.synced.idle, phase.synced.accounts⟩
    | taken existing secured record =>
      exact phase.synced.real rfl apart given fresh (judge_taken judged') agree.grant_real nofun
  case seen =>
    have both : x.seen ++ [pk] = y.seen ++ [pk] := by rw [phase.seen]
    cases fate <;> cases fate' <;> exact both
  case first =>
    cases fate' with
    | skipped rejected => exact fun id row noted => List.mem_append_left _ (phase.first id row noted)
    | taken existing secured record => exact phase.first.take
  case plan =>
    rw [foldl_snoc, ← phase.plan]
    cases fate <;> simp only [planOne, read, judged] <;> rfl
  case tally =>
    refine phase.tally.apart some more ?_ ?_
    · cases fate with
      | skipped rejected => rfl
      | taken existing secured record => exact take_preview_updated
    · cases fate' with
      | skipped rejected => exact Nat.le_refl _
      | taken existing secured record => exact take_real_updated
  case accounts => exact nofun
  case grants =>
    intro _
    cases fate' with
    | skipped rejected => exact (phase.grants rfl).mono pk
    | taken existing secured record =>
      exact (phase.grants rfl).take phase.synced.ran given (judge_taken judged')
  case added =>
    intro _ none
    omega

/-! ### One record on both sides -/

theorem split_records {l : List Dict} {pre post : List Json} {json : Json}
    (whole : l.map Json.obj = pre ++ json :: post) :
    ∃ before d after, l = before ++ d :: after ∧ before.map .obj = pre ∧ json = .obj d := by
  obtain ⟨before, rest, rfl, rfl, tail⟩ := List.map_eq_append_iff.mp whole
  obtain ⟨d, after, rfl, rfl, -⟩ := List.map_eq_cons_iff.mp tail
  exact ⟨before, d, after, rfl, rfl, rfl⟩

theorem obj_injective : Function.Injective Json.obj := fun _ _ same => Json.obj.inj same

/-- The decisions of both sides about an account agree. -/
theorem Phase.accounts_view {pre post : List Json} {x y : Pass} {json : Json} {records : List Json}
    (phase : Phase c db a done kind s pre x y) (opened : Opened c a)
    (apart : ∀ child ∈ consumers kind, child ∉ kind :: done)
    (listed : a.records kind = .ok records) (whole : records = pre ++ json :: post)
    (user : kind = .user) (security : c.securityRestore = true) :
    ∃ d, json = .obj d ∧ GoodUser c.py d ∧ ∀ pk,
      collides c db.tables pk (portableRecord d) =
          collides c y.progress.tables pk (portableRecord d) ∧
        db.tables .userSiteAccess = y.progress.tables .userSiteAccess := by
  subst user
  obtain ⟨accounts, known, good⟩ := opened.vault security
  have users : records = accounts.users.map .obj := by
    unfold Archive.records at listed
    rw [known] at listed
    exact (Except.ok.inj listed).symm
  rw [users] at whole
  obtain ⟨before, d, after, split, first, rfl⟩ := split_records whole
  obtain ⟨ds, same, identities⟩ := phase.accounts rfl security
  have equal : ds = before := List.map_injective_iff.mpr obj_injective (same.symm.trans first.symm)
  subst equal
  have inside : d ∈ accounts.users := by rw [split]; simp
  refine ⟨d, rfl, good.users d inside, fun pk => ⟨?_, ?_⟩⟩
  · refine (identities.collides (good.users d inside) fun d' mem => ?_).symm
    have distinct := good.identities
    rw [split, List.pairwise_append] at distinct
    exact distinct.2.2 d' mem d List.mem_cons_self
  · exact (phase.synced.ran.untouched .userSiteAccess (apart _ (by decide)) rfl).symm

/-- The record of a grant, and those in front of it. -/
theorem grant_record {pre post : List Json} {json : Json} {records : List Json} (opened : Opened c a)
    (users : c.restoreUsers = true) (listed : a.records .userSiteAccess = .ok records)
    (whole : records = pre ++ json :: post)
    (read : examine c .userSiteAccess json = .ok (.record portable pk archived)) :
    ∃ d user site, json = .obj d ∧ GrantRecord c d archived user site ∧
      ∀ d', .obj d' ∈ pre → grantPair d' ≠ grantPair d := by
  have secrets : c.includeSecrets = true := by
    cases plain : c.includeSecrets with
    | true => rfl
    | false => simp [examine, plain] at read
  obtain ⟨accounts, known, good⟩ := opened.vault (by simp [Call.securityRestore, secrets, users])
  have grants : records = accounts.grants.map .obj := by
    unfold Archive.records at listed
    rw [known] at listed
    exact (Except.ok.inj listed).symm
  rw [grants] at whole
  obtain ⟨before, d, after, split, rfl, rfl⟩ := split_records whole
  have inside : d ∈ accounts.grants := by rw [split]; simp
  obtain ⟨user, site, fields⟩ := examine_grant (good.grants d inside) read
  refine ⟨d, user, site, rfl, fields, fun d' mem => ?_⟩
  obtain ⟨d'', there, same⟩ := List.mem_map.mp mem
  rw [← obj_injective same]
  have distinct := good.pairs
  rw [split, List.pairwise_append] at distinct
  exact distinct.2.2 d'' there d List.mem_cons_self

/-- Both sides judge a record alike, until a grant was overwritten. -/
theorem Phase.judge {pre post : List Json} {x y : Pass} {json : Json} {records : List Json}
    (phase : Phase c db a done kind s pre x y) (opened : Opened c a) (restored : kind.restored = true)
    (apart : ∀ child ∈ consumers kind, child ∉ kind :: done)
    (users : kind = .userSiteAccess → c.restoreUsers = true)
    (listed : a.records kind = .ok records) (whole : records = pre ++ json :: post)
    (read : examine c kind json = .ok (.record portable pk archived)) (new : pk ∉ y.seen)
    (clean : kind = .userSiteAccess → pre.countP (replaces c a s kind) = 0) :
    Core.judge c x.progress a.grants kind portable pk archived =
      Core.judge c y.progress a.grants kind portable pk archived := by
  obtain ⟨-, dict, -, -, -, given⟩ := examine_record read
  by_cases grant : kind = .userSiteAccess
  · subst grant
    obtain ⟨d, user, site, -, fields, distinct⟩ := grant_record opened (users rfl) listed whole read
    exact ((phase.added rfl (clean rfl)).view phase.synced.agree phase.synced.ran new fields
      distinct).judge
  · have steady : kind.steady = true := by
      cases kind <;> first | rfl | exact absurd rfl grant | cases restored
    refine (phase.synced.agree.view phase.synced.ran steady given (phase.first.fresh new) ?_).judge
    intro user security
    obtain ⟨d, rfl, -, same⟩ := phase.accounts_view opened apart listed whole user security
    obtain rfl := Option.some.inj dict
    exact same pk

theorem planOne_skipped {json : Json} (h : (∃ rejected, examine c kind json = .ok (.skipped rejected)) ∨
      ∃ portable pk archived rejected, examine c kind json = .ok (.record portable pk archived) ∧
        judge c s a.grants kind portable pk archived = .ok (.skipped rejected)) :
    (∀ acc, planOne c a s kind acc json = acc) ∧ replaces c a s kind json = false := by
  rcases h with ⟨rejected, read⟩ | ⟨portable, pk, archived, rejected, read, judged⟩
  · simp [planOne, replaces, read]
  · simp [planOne, replaces, read, judged]

/-- One record, on both sides. -/
theorem Phase.step {pre post : List Json} {x y : Pass} {json : Json} {records : List Json}
    (phase : Phase c db a done kind s pre x y) (opened : Opened c a) (restored : kind.restored = true)
    (apart : ∀ child ∈ consumers kind, child ∉ kind :: done)
    (users : kind = .userSiteAccess → c.restoreUsers = true)
    (listed : a.records kind = .ok records) (whole : records = pre ++ json :: post) :
    Lockstep (· = databaseError) (Phase c db a done kind s (pre ++ [json]))
      (restoreOne c true a.grants kind x json) (restoreOne c false a.grants kind y json) := by
  have object : kind = .user → c.securityRestore = true → ∃ d, json = .obj d ∧ GoodUser c.py d := by
    intro user security
    obtain ⟨d, here, good, -⟩ := phase.accounts_view opened apart listed whole user security
    exact ⟨d, here, good⟩
  have plain : kind = .user → c.securityRestore = true → ∃ d, json = .obj d := by
    intro user security
    obtain ⟨d, here, -⟩ := object user security
    exact ⟨d, here⟩
  have within : Within kind s x.progress := by
    rw [phase.plan]
    exact within_plan pre
  unfold restoreOne
  refine (Lockstep.of_eq rfl).bind fun reading reading' read _ same => ?_
  subst same
  cases reading with
  | skipped rejected =>
    obtain ⟨plan, kept⟩ := planOne_skipped (a := a) (s := s) (.inl ⟨rejected, read⟩)
    exact phase.skip (x := x) (y := y) (List.append_nil x.seen).symm (List.append_nil y.seen).symm (plan _) kept
      plain
  | record portable pk archived =>
    by_cases new : pk ∈ y.seen
    · rw [phase.seen]
      simp only [new, not_true_eq_false, decide_false, require]
      trivial
    have passed : require (pk ∉ x.seen) "Core restore contains duplicate resource identifiers." =
        (.ok () : Except Error Unit) := by
      rw [phase.seen]
      simp [require, new]
    have passed' : require (pk ∉ y.seen) "Core restore contains duplicate resource identifiers." =
        (.ok () : Except Error Unit) := by
      simp [require, new]
    dsimp only
    rw [ok_bind passed, ok_bind passed']
    by_cases clean : kind = .userSiteAccess → pre.countP (replaces c a s kind) = 0
    · have equal := phase.judge opened restored apart users listed whole read new clean
      refine (Lockstep.of_eq equal).bind fun fate fate' judged judged' same => ?_
      subst same
      rw [within.judge] at judged
      refine Pass.settle_lockstep ?_
      cases fate with
      | skipped rejected =>
        obtain ⟨plan, kept⟩ := planOne_skipped (.inr ⟨portable, pk, archived, rejected, read, judged⟩)
        exact phase.skip rfl rfl (plan _) kept plain
      | taken existing secured record =>
        refine phase.take restored apart read new judged (judge_taken judged') object fun grant => ?_
        subst grant
        obtain ⟨d, user, site, here, fields, -⟩ := grant_record opened (users rfl) listed whole read
        exact ⟨d, user, site, here, fields⟩
    · obtain ⟨grant, some⟩ := Classical.not_imp.mp clean
      subst grant
      obtain ⟨d, user, site, -, fields, -⟩ := grant_record opened (users rfl) listed whole read
      have both : Lockstep (· = databaseError) (fun _ _ => True)
          (Core.judge c x.progress a.grants .userSiteAccess portable pk archived)
          (Core.judge c y.progress a.grants .userSiteAccess portable pk archived) :=
        (phase.grants rfl).judge_lockstep phase.synced.agree phase.synced.ran new fields
      refine both.bind fun fate fate' judged judged' _ => ?_
      rw [within.judge] at judged
      exact Pass.settle_lockstep (phase.grant_apart apart some read new judged judged')

/-! ### All records -/

theorem Synced.enter (synced : Synced c db done p r) (kind : Kind) :
    Synced c db (kind :: done) p r where
  agree := synced.agree
  ran := synced.ran.mono kind
  linked := synced.linked
  idle away := synced.idle fun mem => away (List.mem_cons_of_mem kind mem)
  accounts := synced.accounts

theorem Phase.start (synced : Synced c db done p r) (away : kind ∉ done) :
    Phase c db a done kind p [] ⟨p, [], ⟨0, 0, 0, 0⟩⟩ ⟨r, [], ⟨0, 0, 0, 0⟩⟩ where
  synced := synced.enter kind
  seen := rfl
  first id row noted := by
    rw [synced.ran.fresh kind away id] at noted
    cases noted
  plan := rfl
  tally := .start
  accounts user _ := by
    subst user
    exact ⟨[], rfl, .start (synced.ran.untouched .user away rfl) (synced.idle away)⟩
  grants grant := by
    subst grant
    exact .start (synced.ran.untouched .userSiteAccess away rfl)
  added grant _ := by
    subst grant
    exact .start (synced.ran.untouched .userSiteAccess away rfl)

/-- The records of a resource: both sides raise, or they agree and their counts are equal when no
stored row is overwritten. -/
theorem Synced.kind_lockstep (synced : Synced c db done p r) (opened : Opened c a)
    (restored : kind.restored = true) (away : kind ∉ done)
    (apart : ∀ child ∈ consumers kind, child ∉ kind :: done)
    (users : kind = .userSiteAccess → c.restoreUsers = true) :
    Lockstep (· = databaseError) (fun x y => Synced c db (kind :: done) x.1 y.1 ∧ x.1 = plan c a p kind ∧
        (x.2.report = y.2.report ↔ ¬ ∃ records, a.records kind = .ok records ∧
          ∃ json ∈ records, replaces c a p kind json = true))
      (restoreKind c true a p kind) (restoreKind c false a r kind) := by
  unfold restoreKind
  refine (Lockstep.of_eq rfl).bind fun records records' listed _ same => ?_
  subst same
  have run := foldlM_lockstep (R := Phase c db a done kind p)
    (fun pre json post x y whole phase =>
      phase.step opened restored apart users listed whole) (Phase.start (a := a) synced away)
  refine run.bind fun x y _ _ phase => ?_
  refine ⟨phase.synced, ?_, ?_⟩
  · rw [plan, listed]
    exact phase.plan
  · have none : (¬ ∃ records', a.records kind = .ok records' ∧
        ∃ json ∈ records', replaces c a p kind json = true) ↔
        records.countP (replaces c a p kind) = 0 := by
      rw [List.countP_eq_zero]
      constructor
      · intro free json mem one
        exact free ⟨records, listed, json, mem, one⟩
      · rintro zero ⟨records', listed', json, mem, one⟩
        obtain rfl := Except.ok.inj (listed.symm.trans listed')
        exact zero json mem one
    rw [none]
    constructor
    · intro equal
      refine phase.tally.zero.mp ?_
      have updated : x.counts.updated = y.counts.updated :=
        (Prod.mk.inj (Prod.mk.inj (show x.counts.report = y.counts.report from equal)).2).1
      rw [← updated]
      exact phase.tally.never
    · intro zero
      show x.counts.report = y.counts.report
      rw [phase.tally.same zero]

/-- The report of a whole restore, resource by resource. -/
def report (counts : List (Kind × Counts)) : List (Kind × Nat × Nat × Nat) :=
  counts.map fun n => (n.1, n.2.report)

/-- The whole loop on both sides. -/
theorem Synced.kinds_lockstep {kinds : List Kind} (synced : Synced c db done p r) (opened : Opened c a)
    (ordered : Ordered done kinds) (users : .userSiteAccess ∈ kinds → c.restoreUsers = true) :
    Lockstep (· = databaseError) (fun x y => (∃ done', Synced c db done' x.1 y.1) ∧
        (report x.2 = report y.2 ↔ ¬ Replaces c a p kinds))
      (restoreKinds c true a p kinds) (restoreKinds c false a r kinds) := by
  induction kinds generalizing done p r with
  | nil => exact ⟨⟨done, synced⟩, by simp [Replaces, report]⟩
  | cons kind kinds ih =>
    obtain ⟨restored, away, apart, rest⟩ := ordered
    unfold restoreKinds
    refine (synced.kind_lockstep opened restored away apart fun grant =>
      users (grant ▸ List.mem_cons_self)).bind ?_
    rintro ⟨x, n⟩ ⟨y, m⟩ - - ⟨next, planned, head⟩
    refine (ih next rest fun mem => users (List.mem_cons_of_mem kind mem)).bind ?_
    rintro ⟨x', ns⟩ ⟨y', ms⟩ - - ⟨last, tail⟩
    refine ⟨last, ?_⟩
    dsimp only at planned head tail ⊢
    rw [Replaces, not_or, ← head, ← planned, ← tail]
    simp [report]

/-! ### The checks behind the loop -/

/-- A child on the preview side, column by column. -/
theorem child_column {accepted : Option Row} {stored : Row} {g : String} :
    (accepted.getD stored).column g = (accepted.map (·.column g)).getD (stored.column g) := by
  cases accepted <;> rfl

/-- A moved parent strands a dependent in the preview just when it does in the restore. -/
theorem Synced.strands {parent : Kind × Value} (synced : Synced c db done p r)
    (place : parent.1 = .controller ∨ parent.1 = .credential) :
    strands p parent = Core.strands r parent := by
  obtain ⟨k, id⟩ := parent
  have steady : k.steady = true := by rcases place with rfl | rfl <;> rfl
  have child {d : Kind × String} (mem : d ∈ dependents k) :
      (d.1 = .controller ∨ d.1 = .device) ∧ d.2 ∈ links ∧
        (k = .credential ∧ d.2 = "credential_id" ∨
          k = .controller ∧ d.1 = .device ∧ d.2 = "controller_id") := by
    rcases place with rfl | rfl <;> simp only [dependents, List.mem_cons, List.not_mem_nil,
      or_false] at mem
    · subst mem
      decide
    · rcases mem with rfl | rfl <;> decide
  unfold Core.strands
  have same := synced.agree.links k (steady_grant steady) id "site_id" (by decide)
  cases there : r.accepted k id with
  | none => rw [(synced.agree.none_iff steady).mpr there]
  | some now =>
    cases here : p.accepted k id with
    | none =>
      rw [(synced.agree.none_iff steady).mp here] at there
      cases there
    | some virtual =>
      rw [here, there] at same
      have site : virtual.column "site_id" = now.column "site_id" := Option.some.inj same
      dsimp only
      rw [site, Bool.eq_iff_iff]
      simp only [Bool.and_eq_true, List.any_eq_true, decide_eq_true_eq]
      refine and_congr_right fun narrow => exists_congr fun d => and_congr_right fun mem => ?_
      obtain ⟨kid, link, field⟩ := child mem
      have steady' : d.1.steady = true := by rcases kid with h | h <;> rw [h] <;> rfl
      have columns (stored : Row) {g : String} (link : g ∈ links) :
          ((p.accepted d.1 (stored.column "id")).getD stored).column g =
            ((r.accepted d.1 (stored.column "id")).getD stored).column g := by
        rw [child_column, child_column,
          synced.agree.links d.1 (steady_grant steady') (stored.column "id") g link]
      constructor
      · rintro ⟨stored, known, ⟨refers, refers'⟩, away⟩
        rw [synced.agree.tables] at known
        rw [columns stored link] at refers'
        rw [columns stored (by decide)] at away
        cases noted : r.accepted d.1 (stored.column "id") with
        | none =>
          refine ⟨stored, ?_, ?_⟩
          · have found := (db.unique d.1).lookup known
            rw [key_row, ← synced.ran.kept d.1 steady' _ noted] at found
            exact Table.lookup_mem found
          · rw [noted] at refers' away ⊢
            exact ⟨⟨refers, refers'⟩, away⟩
        | some ref =>
          obtain ⟨row, found, -, links⟩ := synced.ran.aside d.1 steady' _ ref noted
          have name : row.column "id" = stored.column "id" := Table.lookup_key found
          rw [noted] at refers' away
          refine ⟨row, Table.lookup_mem found, ?_⟩
          rw [name, noted, links d.2 link]
          exact ⟨⟨refers', refers'⟩, away⟩
      · rintro ⟨stored, known, ⟨refers, refers'⟩, away⟩
        cases noted : r.accepted d.1 (stored.column "id") with
        | none =>
          refine ⟨stored, ?_, ⟨refers, ?_⟩, ?_⟩
          · rw [synced.agree.tables]
            exact synced.ran.unaccepted steady' known noted
          · rw [columns stored link]
            exact refers'
          · rw [columns stored (by decide)]
            exact away
        | some ref =>
          -- an accepted child was checked against the parent that is accepted now
          exfalso
          rw [noted] at refers' away
          have given := synced.linked.named k id now there
          have found : reference c r k id = some now := by
            rw [reference, if_neg given, there]
          rcases field with ⟨rfl, credential⟩ | ⟨rfl, device, controller⟩
          · rw [credential] at refers'
            rcases synced.linked.credentials d.1 kid _ ref noted with none | fits
            · exact given (refers'.symm.trans none)
            · rw [show ref.column "credential_id" = id from refers', found] at fits
              simp only [Option.any_some, serves, Bool.or_eq_true, decide_eq_true_eq] at fits
              rcases fits with wide | near
              · simp [wide] at narrow
              · simp [near] at away
          · rw [controller] at refers'
            rw [device] at noted
            rcases synced.linked.controllers _ ref noted with none | fits
            · exact given (refers'.symm.trans none)
            · rw [show ref.column "controller_id" = id from refers', found] at fits
              simp only [Option.any_some, decide_eq_true_eq] at fits
              simp [fits] at away

/-- Only controllers and credentials are noted as moved. -/
theorem moved_parents {dryRun : Bool} {kinds : List Kind} {counts : List (Kind × Counts)}
    (h : restoreKinds c dryRun a (start db.tables) kinds = .ok (s, counts)) (ordered : Ordered [] kinds) :
    ∀ parent ∈ s.moved, parent.1 = .controller ∨ parent.1 = .credential := by
  refine (restoreKinds_inv (P := fun done s => (∀ parent ∈ s.moved,
    parent.1 = .controller ∨ parent.1 = .credential) ∧ ∀ k, k ∉ done → ∀ id, s.accepted k id = none)
    ?_ (fun done s kept => kept.2) ?_ ordered ⟨by simp [start], fun _ _ _ => rfl⟩ h).1
  · rintro kind done s ⟨moved, fresh⟩
    exact ⟨moved, fun k away => fresh k fun mem => away (List.mem_cons_of_mem kind mem)⟩
  · rintro kind done s json portable pk archived existing secured record restored apart ⟨moved, fresh⟩
      new read taken
    refine ⟨fun parent mem => ?_, fun k away id => ?_⟩
    · have either : parent ∈ (noted c s kind pk existing secured record).moved := mem
      simp only [noted] at either
      split at either
      · rename_i moves
        rcases List.mem_append.mp either with old | last
        · exact moved parent old
        · rw [List.mem_singleton.mp last]
          simp only [Core.moves, Bool.and_eq_true, Bool.or_eq_true, decide_eq_true_eq] at moves
          exact moves.1.1
      · exact moved parent either
    · rw [take_accepted_other (by rintro rfl; exact away List.mem_cons_self)]
      exact fresh k away id

/-- The last administrators survive the preview just when they survive the restore. -/
theorem Synced.survivors (synced : Synced c db done p r) (security : c.securityRestore = true) :
    requireAdministratorSurvivors c true p = requireAdministratorSurvivors c false r := by
  obtain ⟨pre, accounts⟩ := synced.accounts security
  have platform : remaining true p Prod.snd (fun _ => true) =
      remaining false r Prod.snd (fun _ => true) := by
    simp only [remaining, synced.agree.tables, synced.agree.transitions]
    rw [accounts.platform]
    simp
  have organization : remaining true p Prod.fst (inOrganization c) =
      remaining false r Prod.fst (inOrganization c) := by
    simp only [remaining, synced.agree.tables, synced.agree.transitions]
    rw [accounts.organization]
    simp
  have removed (bit : Bool × Bool → Bool) : removes p bit = removes r bit := by
    unfold removes
    rw [synced.agree.transitions]
  unfold requireAdministratorSurvivors
  rw [removed, removed, platform]
  exact congrArg _ (funext fun _ => by
    rw [show (fun u : Row => decide (u.column "organization_id" = Value.uuid c.org)) =
      inOrganization c from rfl, organization])

theorem Synced.start : Synced c db [] (start db.tables) (start db.tables) where
  agree := ⟨rfl, fun _ _ _ _ _ => rfl, rfl, rfl, rfl⟩
  ran := .start db
  linked := .start _
  idle _ := rfl
  accounts _ := ⟨[], .start rfl rfl⟩

theorem restoreMap_grants (mem : .userSiteAccess ∈ restoreMap c) : c.restoreUsers = true := by
  cases users : c.restoreUsers with
  | true => rfl
  | false => cases devices : c.restoreDevices <;> simp [restoreMap, users, devices] at mem

/-- Preview and restore of an opened archive. -/
theorem archive_lockstep (db : Database) (opened : Opened c a) :
    Lockstep (· = databaseError)
      (fun x y => report x.2 = report y.2 ↔ ¬ Replaces c a (start db.tables) (restoreMap c))
      (restoreArchive c true db.tables a) (restoreArchive c false db.tables a) := by
  unfold restoreArchive
  refine (Synced.start.kinds_lockstep opened restoreMap_ordered restoreMap_grants).bind ?_
  rintro ⟨x, ns⟩ ⟨y, ms⟩ first second ⟨⟨done, synced⟩, reports⟩
  have places := moved_parents first restoreMap_ordered
  have same : x.moved.any (strands x) = y.moved.any (strands y) := by
    rw [← synced.agree.moved]
    rw [Bool.eq_iff_iff, List.any_eq_true, List.any_eq_true]
    refine exists_congr fun parent => and_congr_right fun mem => ?_
    rw [synced.strands (places parent mem)]
  dsimp only
  rw [same]
  refine (Lockstep.of_eq rfl).bind fun _ _ _ _ _ => ?_
  cases security : c.securityRestore with
  | true =>
    rw [if_pos rfl, if_pos rfl, synced.survivors security]
    exact (Lockstep.of_eq rfl).bind fun _ _ _ _ _ => reports
  | false => exact reports

/-! ### Core restore and its preview -/

/-- Rows of other organizations and soft-deleted rows are in their places as they were. -/
def Unchanged (c : Call) (before after : Tables) : Prop :=
  ∀ k, ∀ row ∈ before k,
    k.model.attr row "deleted_at" ≠ .none ∨ belongs c before k row = false →
    Table.lookup (after k) (row.column "id") = some row

/-- Rows that were not there before are of the organization. -/
def InsertedBelong (c : Call) (before after : Tables) : Prop :=
  ∀ k, ∀ row ∈ after k, (∀ r ∈ before k, r.column "id" ≠ row.column "id") →
    belongs c after k row = true

/-- A record of the archive is taken in the place of a stored row. -/
def OverwritesStored (c : Call) (db : Database) (data : Dict) : Prop :=
  ∃ a, openArchive c data = .ok a ∧ Replaces c a (start db.tables) (restoreMap c)

theorem Ran.unchanged (ran : Ran c db.tables done r) : Unchanged c db.tables r.tables := by
  intro k row mem outside
  have kept : row ∈ r.tables k := by
    by_cases access : k.access = true
    · refine ran.sessions k access row mem (outside.resolve_left fun deleted => ?_)
      cases k <;>
        first
        | exact absurd access (by decide)
        | exact deleted (by simp [Model.attr, Kind.model, otherModel, audit])
    · have plain : k.access = false := by simpa using access
      refine ran.foreign k plain row mem ?_
      cases ours : owned c db.tables k row with
      | false => rfl
      | true =>
        rcases outside with deleted | foreign
        · exact absurd (owned_alive ours) deleted
        · rw [owned_belongs plain ours] at foreign
          cases foreign
  exact (ran.unique k).lookup kept

/-- A restore that returns. -/
theorem restoreArchive_ok {t : Tables} {counts : List (Kind × Counts)}
    (coherent : Coherent c db.tables) (h : restoreArchive c false db.tables a = .ok (t, counts)) :
    Coherent c t ∧ Unchanged c db.tables t ∧ InsertedBelong c db.tables t := by
  unfold restoreArchive at h
  obtain ⟨⟨s, ns⟩, run, h⟩ := bind_ok h
  obtain ⟨settled, h⟩ := require_bind h
  have same : s.tables = t := by
    split at h
    · obtain ⟨_, -, h⟩ := bind_ok h
      exact (Prod.mk.inj (Except.ok.inj h)).1
    · exact (Prod.mk.inj (Except.ok.inj h)).1
  subst same
  obtain ⟨done, ran, linked⟩ := restoreKinds_ran run
  exact ⟨ran.coherent linked (by simpa using settled) coherent, ran.unchanged, ran.inserted⟩

/-- A core restore that returns leaves a coherent state, has changed only live rows of its
organization and inserted only rows of it.  If the database refuses none of its rows, its preview raises
exactly when it does.  The preview reports its counts exactly when no record is taken in the place of a
stored row. -/
theorem core_restore_previewed (c : Call) (db : Database) (coherent : Coherent c db.tables)
    (data : Dict) :
    (∀ lifecycleFree t counts, restoreData c false lifecycleFree db.tables data = .ok (t, counts) →
      Coherent c t ∧ Unchanged c db.tables t ∧ InsertedBelong c db.tables t) ∧
    (restoreData c false true db.tables data ≠ .error databaseError →
      ((∃ e, restoreData c true true db.tables data = .error e) ↔
        ∃ e, restoreData c false true db.tables data = .error e)) ∧
    ∀ t counts t' counts', restoreData c true true db.tables data = .ok (t, counts) →
      restoreData c false true db.tables data = .ok (t', counts') →
      (report counts = report counts' ↔ ¬ OverwritesStored c db data) := by
  have both : Lockstep (· = databaseError) (fun x y => report x.2 = report y.2 ↔ ¬ OverwritesStored c db data)
      (restoreData c true true db.tables data) (restoreData c false true db.tables data) := by
    unfold restoreData
    refine (Lockstep.of_eq rfl).bind fun a a' opens _ same => ?_
    subst same
    have free (dryRun : Bool) {message : Error} :
        require (!(c.restoreUsers && !dryRun && !true)) message = (.ok () : Except Error Unit) := by
      simp [require]
    rw [ok_bind (free true), ok_bind (free false)]
    refine (archive_lockstep db (openArchive_opened opens)).mono fun x y reports => ?_
    rw [reports]
    refine not_congr ⟨fun replaced => ⟨a, opens, replaced⟩, ?_⟩
    rintro ⟨a', opens', replaced⟩
    obtain rfl := Except.ok.inj (opens.symm.trans opens')
    exact replaced
  refine ⟨fun lifecycleFree t counts h => ?_, fun accepted => both.error_iff ?_, ?_⟩
  · unfold restoreData at h
    obtain ⟨a, -, h⟩ := bind_ok h
    obtain ⟨-, h⟩ := require_bind h
    exact restoreArchive_ok coherent h
  · rintro e raised rfl
    exact accepted raised
  · intro t counts t' counts' preview real
    rw [preview, real] at both
    exact both

/-! ### Small restores -/

/-- The text of an identifier below ten. -/
def zeros : List Char := "00000000-0000-0000-0000-00000000000".toList

def plainText (id : Uuid) : String := String.ofList (zeros ++ Json.natText id)

def readPlain (text : String) : Option Uuid :=
  if zeros.isPrefixOf text.toList then some (Nat.ofDigitChars 10 (text.toList.drop 35) 0) else none

def uuidPython : Python where
  str
    | .uuid id => plainText id
    | .json (.str text) => text
    | .json .null => "None"
    | _ => ""
  readUuid := readPlain

theorem readPlain_plainText (id : Uuid) : readPlain (plainText id) = some id := by
  unfold readPlain plainText
  rw [String.toList_ofList, if_pos (List.isPrefixOf_iff_prefix.mpr (List.prefix_append _ _))]
  rw [show (35 : Nat) = zeros.length from rfl, List.drop_left, Json.natText_value]

/-- Account data is not part of the small restores. -/
def noFormats : Formats where
  provider _ := .error incomplete
  user _ := .error incomplete
  isoTime _ := .error incomplete
  latest _ _ := .error incomplete
  plainSeed _ := .error incomplete
  mergeCodes _ _ := .error incomplete
  encryptField v := v
  decryptField v := v
  readTime _ := .error incomplete
  fits _ := true

/-- A configuration snapshot is restored over what is there. -/
def overwriting : Call where
  py := uuidPython
  readText := readPlain_plainText
  pairs _ := none
  cipher := ⟨id, some⟩
  formats := noFormats
  takes _ _ := true
  org := 1
  overwriteExisting := true
  restoreDevices := true
  restoreUsers := false
  includeSecrets := false

/-- A row with a few columns. -/
def rowWith (columns : List (String × Value)) : Row := ⟨fun g => (columns.lookup g).getD .none⟩

def headOffice : Row :=
  rowWith [("id", .uuid 2), ("organization_id", .uuid 1), ("name", .json (.str "HQ"))]

/-- A database with one live site. -/
def oneSite : Tables
  | .site => [headOffice]
  | _ => []

def oneSiteDatabase : Database where
  tables := oneSite
  unique k := by cases k <;> simp [oneSite, Table.Unique]
  typed := by
    intro k row mem g field
    cases k <;> simp only [oneSite, List.not_mem_nil, List.mem_singleton] at mem
    subst mem
    simp only [Kind.model, siteModel, List.mem_cons, List.not_mem_nil, or_false] at field
    rcases field with rfl | rfl | rfl | rfl | rfl <;> simp [headOffice, rowWith, List.lookup_cons]
  sites := by
    rintro k (rfl | rfl | rfl) row mem <;> cases mem
  users := by
    rintro k (rfl | rfl | rfl) row mem <;> cases mem

theorem oneSite_coherent : Coherent overwriting oneSiteDatabase.tables where
  credentials := by
    rintro k (rfl | rfl) row mem <;> cases mem
  controllers := by
    intro row mem
    cases mem

/-- A new controller in the site. -/
def newController : Dict :=
  [("controllers", .arr [.obj [("id", .str (plainText 3)), ("site_id", .str (plainText 2)),
    ("name", .str "edge")]])]

/-- The site again, under a new name. -/
def renamedSite : Dict :=
  [("sites", .arr [.obj [("id", .str (plainText 2)), ("name", .str "Main office")]])]

theorem newController_previewed : ∃ t counts t' counts',
    restoreData overwriting true true oneSiteDatabase.tables newController = .ok (t, counts) ∧
    restoreData overwriting false true oneSiteDatabase.tables newController = .ok (t', counts') ∧
    (.controller, 1, 0, 0) ∈ report counts' ∧ Coherent overwriting t' ∧
    (report counts = report counts' ↔ ¬ OverwritesStored overwriting oneSiteDatabase newController) := by
  have preview : (restoreData overwriting true true oneSite newController).toOption.isSome = true := by
    decide +kernel
  have real : (restoreData overwriting false true oneSite newController).toOption.any
      (fun x => (Kind.controller, 1, 0, 0) ∈ report x.2) = true := by decide +kernel
  have facts := core_restore_previewed overwriting oneSiteDatabase oneSite_coherent newController
  cases first : restoreData overwriting true true oneSiteDatabase.tables newController with
  | error e =>
    rw [show oneSite = oneSiteDatabase.tables from rfl, first] at preview
    cases preview
  | ok x =>
    cases second : restoreData overwriting false true oneSiteDatabase.tables newController with
    | error e =>
      rw [show oneSite = oneSiteDatabase.tables from rfl, second] at real
      cases real
    | ok y =>
      rw [show oneSite = oneSiteDatabase.tables from rfl, second] at real
      obtain ⟨t, counts⟩ := x
      obtain ⟨t', counts'⟩ := y
      simp only [Except.toOption, Option.any_some, decide_eq_true_eq] at real
      exact ⟨t, counts, t', counts', rfl, rfl, real,
        (facts.1 true t' counts' second).1, facts.2.2 t counts t' counts' first second⟩

/-- The preview of a renamed site reports it as skipped, the restore as updated. -/
theorem renamedSite_misreported : Coherent overwriting oneSiteDatabase.tables ∧
    ∃ t counts t' counts',
      restoreData overwriting true true oneSiteDatabase.tables renamedSite = .ok (t, counts) ∧
      restoreData overwriting false true oneSiteDatabase.tables renamedSite = .ok (t', counts') ∧
      report counts ≠ report counts' := by
  have preview : (restoreData overwriting true true oneSite renamedSite).toOption.any
      (fun x => (Kind.site, 0, 0, 1) ∈ report x.2 && (Kind.site, 0, 1, 0) ∉ report x.2) = true := by
    decide +kernel
  have real : (restoreData overwriting false true oneSite renamedSite).toOption.any
      (fun x => (Kind.site, 0, 1, 0) ∈ report x.2) = true := by decide +kernel
  refine ⟨oneSite_coherent, ?_⟩
  cases first : restoreData overwriting true true oneSiteDatabase.tables renamedSite with
  | error e =>
    rw [show oneSite = oneSiteDatabase.tables from rfl, first] at preview
    cases preview
  | ok x =>
    cases second : restoreData overwriting false true oneSiteDatabase.tables renamedSite with
    | error e =>
      rw [show oneSite = oneSiteDatabase.tables from rfl, second] at real
      cases real
    | ok y =>
      rw [show oneSite = oneSiteDatabase.tables from rfl, first] at preview
      rw [show oneSite = oneSiteDatabase.tables from rfl, second] at real
      obtain ⟨t, counts⟩ := x
      obtain ⟨t', counts'⟩ := y
      refine ⟨t, counts, t', counts', rfl, rfl, fun same => ?_⟩
      simp only [Except.toOption, Option.any_some, Bool.and_eq_true, decide_eq_true_eq] at preview real
      rw [← same] at real
      exact preview.2 real

end FreeSdn.Backup.Core
