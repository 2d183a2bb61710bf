import FreeSdn.Backup.AccountCodec
import FreeSdn.Backup.Preview

/-! One account in a vault restore: what is written for an account that the destination has gives it
nothing that it does not have. -/

namespace FreeSdn.Backup.Core

open FreeSdn.Lib

/-- A vault restore that overwrites, with the formats of account data. -/
structure Vault where
  call : Call
  codec : Codec
  formats : call.formats = codec.formats
  security : call.securityRestore = true
  overwrites : call.overwriteExisting = true

/-! ### What an account may not gain -/

/-- The fields that say who an account is and how it logs in. -/
def authorityFields : List String := identityFields ++ ["sso_provider_id"]

def flagFields : List String := ["is_active", "is_verified"]

def counterFields : List String := ["failed_login_attempts", "mfa_last_totp_step"]

def codeFields : List String := ["mfa_backup_codes", "mfa_pending_backup_codes"]

variable (k : Codec)

/-- The account `now` has the authority of `before`, and is no more permissive than it or than the
archived account. -/
structure Stricter (before : Row) (archived : Dict) (now : Row) : Prop where
  authority : ∀ g ∈ authorityFields, now.column g = before.column g
  seeds : ∀ g ∈ userSeeds, plainSeed k (now.column g) = plainSeed k (before.column g)
  flags : ∀ g ∈ flagFields, now.column g = .json (.bool true) → before.column g = .json (.bool true)
  counters : ∀ g ∈ counterFields, ∀ n,
    before.column g = .json (.int n) ∨ member archived g = .int n →
    ∃ m, now.column g = .json (.int m) ∧ n ≤ m
  locked : ∀ t, columnTime k (before.column "locked_until") = some t ∨
      columnTime k (.json (member archived "locked_until")) = some t →
    ∃ t', columnTime k (now.column "locked_until") = some t' ∧ t.instant ≤ t'.instant
  codes : ∀ g ∈ codeFields, (codesOf k (now.column g)).Sublist (codesOf k (before.column g)) ∧
    ∀ code ∈ codesOf k (now.column g), code ∈ codesOf k (.json (member archived g))
  version : ∃ n, now.column "token_version" = .json (.int n) ∧ n ≤ 2 ^ 31 - 1 ∧
    ∀ m, before.column "token_version" = .json (.int m) ∨ member archived "token_version" = .int m →
      m < n

variable {k} {c : Call} {g : String} {record merged secured : Record} {row : Row} {pk v : Value}
  {t : Tables} {s : Progress} {grants : List Dict} {portable : Dict} {archived : Record}

/-! ### Validated accounts -/

/-- An archived account that was accepted. -/
structure ValidUser (c : Call) (d : Dict) : Prop extends GoodUser c.py d where
  id : ∃ id, member d "id" = .str (c.py.str (.uuid id))
  organization : member d "organization_id" = .str (c.py.str (.uuid c.org))
  version : ∃ n, member d "token_version" = .int n
  attempts : ∃ n, member d "failed_login_attempts" = .int n
  step : member d "mfa_last_totp_step" = .null ∨ ∃ n, member d "mfa_last_totp_step" = .int n

theorem isInteger_ok {least most : Int} {v : Json} (h : isInteger least most v = true) :
    ∃ n, v = .int n := by
  unfold isInteger at h
  split at h
  · exact ⟨_, rfl⟩
  · cases h

/-- The times of a record change, and nothing else. -/
theorem isoTimes_member {f : Formats} {d d' : Dict} (h : isoTimes f d = .ok d') (other : g ∉ userTimes) :
    member d' g = member d g := by
  have all := mapM_ok h
  clear h
  induction all with
  | nil => rfl
  | @cons m m' d d' one _ ih =>
    unfold member at ih ⊢
    by_cases time : m.1 ∈ userTimes
    · rw [if_pos time] at one
      obtain ⟨w, -, rfl⟩ := map_ok one
      have apart : (g == m.1) = false := by
        simpa using fun same : g = m.1 => other (same ▸ time)
      rw [List.lookup_cons, List.lookup_cons, apart]
      exact ih
    · rw [if_neg time] at one
      obtain rfl := Except.ok.inj one
      rw [List.lookup_cons, List.lookup_cons]
      split
      · rfl
      · exact ih

theorem validateUser_valid {providers : List Dict} {json : Json} {d : Dict}
    (h : validateUser c.py c.formats c.org providers json = .ok d) : ValidUser c d := by
  have good := validateUser_ok h
  unfold validateUser at h
  obtain ⟨row, -, h⟩ := bind_ok h
  obtain ⟨id, named, h⟩ := bind_ok h
  obtain ⟨_, org, h⟩ := bind_ok h
  obtain ⟨-, h⟩ := require_bind h
  obtain ⟨-, h⟩ := require_bind h
  obtain ⟨integers, h⟩ := require_bind h
  obtain ⟨step, h⟩ := require_bind h
  obtain ⟨timed, times, h⟩ := bind_ok h
  obtain ⟨_, -, h⟩ := bind_ok h
  obtain ⟨_, -, h⟩ := bind_ok h
  obtain rfl := Except.ok.inj h
  have same {g : String} (other : g ∉ userTimes) : member timed g = member row g :=
    isoTimes_member times other
  simp only [Bool.and_eq_true] at integers
  simp only [Bool.or_eq_true, decide_eq_true_eq] at step
  refine ⟨good, ⟨id, ?_⟩, ?_, ?_, ?_, ?_⟩
  · rw [same (by decide)]
    exact canonicalUuid_ok named
  · unfold requireOrganization at org
    obtain ⟨named, read, org⟩ := bind_ok org
    have equal := require_ok org
    rw [same (by decide), canonicalUuid_ok read]
    exact congrArg _ (of_decide_eq_true equal)
  · rw [same (by decide)]
    exact isInteger_ok integers.1
  · rw [same (by decide)]
    exact isInteger_ok integers.2
  · rw [same (by decide)]
    exact step.imp_right isInteger_ok

/-! ### The record that is written -/

/-- A seed reaches the row under the cipher of this instance. -/
theorem find_destination_seed (h : destinationFields c.formats false merged = .ok record)
    (seed : g ∈ userSeeds) (found : merged.find g = some v) :
    record.find g = some (c.formats.encryptField v) := by
  unfold destinationFields at h
  rw [if_neg (by decide)] at h
  obtain ⟨fs, run, rfl⟩ := map_ok h
  have passed := find_mapM (g := g) destinationMember_name run
  rw [show (Record.mk merged.fields).find g = _ from found] at passed
  obtain ⟨v', one, there⟩ := passed
  rw [destinationMember, if_pos seed] at one
  rw [there]
  exact congrArg some (Prod.mk.inj (Except.ok.inj one)).2.symm

/-- A time reaches the row as it is read. -/
theorem find_destination_time (h : destinationFields c.formats false merged = .ok record)
    (time : g ∈ userTimes) (seed : g ∉ userSeeds) (found : merged.find g = some v) :
    ∃ w, c.formats.readTime v = .ok w ∧ record.find g = some w := by
  unfold destinationFields at h
  rw [if_neg (by decide)] at h
  obtain ⟨fs, run, rfl⟩ := map_ok h
  have passed := find_mapM (g := g) destinationMember_name run
  rw [show (Record.mk merged.fields).find g = _ from found] at passed
  obtain ⟨v', one, there⟩ := passed
  rw [destinationMember, if_neg seed, if_pos time] at one
  obtain ⟨w, read, same⟩ := map_ok one
  exact ⟨w, read, there.trans (congrArg some (Prod.mk.inj same).2.symm)⟩

/-- The merged account, field by field. -/
theorem mergeExistingUser_eq {py : Python} {f : Formats} {current archived : List (Value × Value)}
    (h : mergeExistingUser py f record row current archived = .ok merged) :
    requireSameAccount py f record row current archived = .ok () ∧
      ∃ lockedUntil lastLogin codes pending,
        f.latest (record.get "locked_until") (row.column "locked_until") = .ok lockedUntil ∧
        f.mergeCodes (record.get "mfa_backup_codes") (row.column "mfa_backup_codes") = .ok codes ∧
        f.mergeCodes (record.get "mfa_pending_backup_codes")
          (row.column "mfa_pending_backup_codes") = .ok pending ∧
        merged = record.setAll
          [("is_active", bothTrue (record.get "is_active") (row.column "is_active")),
           ("is_verified", bothTrue (record.get "is_verified") (row.column "is_verified")),
           ("failed_login_attempts", larger (record.get "failed_login_attempts")
             (row.column "failed_login_attempts")),
           ("locked_until", lockedUntil), ("last_login", lastLogin),
           ("mfa_last_totp_step", larger (record.get "mfa_last_totp_step")
             (row.column "mfa_last_totp_step")),
           ("mfa_backup_codes", codes), ("mfa_pending_backup_codes", pending)] := by
  unfold mergeExistingUser at h
  obtain ⟨_, same, h⟩ := bind_ok h
  obtain ⟨lockedUntil, locked, h⟩ := bind_ok h
  obtain ⟨lastLogin, -, h⟩ := bind_ok h
  obtain ⟨codes, merge, h⟩ := bind_ok h
  obtain ⟨pending, mergePending, h⟩ := bind_ok h
  exact ⟨same, lockedUntil, lastLogin, codes, pending, locked, merge, mergePending,
    (Except.ok.inj h).symm⟩

/-- What is written for an account that is overwritten. -/
theorem Taken.merge (security : c.securityRestore = true) (replaces : c.overwriteExisting = true)
    (h : Taken c s grants .user portable pk archived (some row) secured record) :
    ∃ merged sealed, mergeExistingUser c.py c.formats (portableRecord portable) row
        (currentGrants c s.tables row) (archivedGrants c grants row) = .ok merged ∧
      destinationFields c.formats false merged = .ok sealed ∧
      readRecord c .user sealed = .ok secured := by
  have passed := h.passed
  unfold secureRecord at passed
  rw [security] at passed
  dsimp only at passed
  obtain ⟨merged, one, passed⟩ := bind_ok passed
  obtain ⟨sealed, written, read⟩ := bind_ok passed
  unfold portableUser at one
  obtain ⟨-, one⟩ := require_bind one
  dsimp only at one
  rw [if_pos replaces] at one
  exact ⟨merged, sealed, one, written, read⟩

/-- A vault writes every field of an account but its identifier and its organization. -/
theorem updatedRow_field (secrets : c.includeSecrets = true) (field : g ∈ userFields)
    (free : g ≠ "id" ∧ g ≠ "organization_id") {w : Value} (found : record.find g = some w) :
    (updatedRow c .user row record).column g = w := by
  have column : g ∈ Kind.user.model.columns := List.mem_append_left _ field
  have open_ : g ∉ c.blocked := by
    intro blocked
    simp only [Call.blocked, secrets, if_true, audit, List.mem_append, List.mem_cons,
      List.not_mem_nil, or_false] at blocked
    rcases blocked with ((rfl | rfl) | rfl | rfl | rfl | rfl) | rfl <;> simp [userFields] at field free
  simp [updatedRow, overwriteRow, find_profileOnly, find_writable, secrets, column, open_, found]

/-- The token version of an overwritten account. -/
theorem freshSession_version (secrets : c.includeSecrets = true) (replaces : c.overwriteExisting = true)
    (h : freshSession c .user (some row) secured = .ok record) :
    ∃ a b, row.column "token_version" = .json (.int a) ∧
      (secured.find "token_version").getD (row.column "token_version") = .json (.int b) ∧
      a < 2 ^ 31 - 1 ∧ b < 2 ^ 31 - 1 ∧
      record.find "token_version" = some (.json (.int (max a b + 1))) := by
  unfold freshSession at h
  dsimp only at h
  rw [if_pos (by simp [secrets, replaces])] at h
  obtain ⟨valid, h⟩ := require_bind h
  have integer {w : Value} (ok : validVersion w = true) :
      ∃ n, w = .json (.int n) ∧ n < 2 ^ 31 - 1 := by
    unfold validVersion at ok
    split at ok
    · simp only [Bool.and_eq_true, decide_eq_true_eq] at ok
      exact ⟨_, rfl, ok.2⟩
    · cases ok
  rw [Bool.and_eq_true] at valid
  obtain ⟨a, current, small⟩ := integer valid.1
  obtain ⟨b, old, small'⟩ := integer valid.2
  refine ⟨a, b, current, old, small, small', ?_⟩
  rw [current] at h old
  rw [old] at h
  split at h
  · obtain rfl := Except.ok.inj h
    rw [Record.find_set, if_neg (by decide), Record.find_set, if_pos rfl]
    rfl
  · obtain rfl := Except.ok.inj h
    rw [Record.find_set, if_pos rfl]
    rfl

/-- The larger of two counters, when one of them is there. -/
theorem larger_int {a b : Value} {n : Int} (numbers : (a = .none ∨ ∃ m, a = .json (.int m)) ∧
      (b = .none ∨ ∃ m, b = .json (.int m)))
    (one : b = .json (.int n) ∨ a = .json (.int n)) :
    ∃ m, larger a b = .json (.int m) ∧ n ≤ m := by
  obtain ⟨rfl | ⟨x, rfl⟩, rfl | ⟨y, rfl⟩⟩ := numbers
  · rcases one with one | one <;> cases one
  · rcases one with one | one
    · obtain rfl := Json.int.inj (Value.json.inj one)
      exact ⟨y, rfl, Int.le_refl y⟩
    · cases one
  · rcases one with one | one
    · cases one
    · obtain rfl := Json.int.inj (Value.json.inj one)
      exact ⟨x, rfl, Int.le_refl x⟩
  · refine ⟨max x y, rfl, ?_⟩
    rcases one with one | one
    · obtain rfl := Json.int.inj (Value.json.inj one)
      exact Int.le_max_right x y
    · obtain rfl := Json.int.inj (Value.json.inj one)
      exact Int.le_max_left x y

theorem bothTrue_true {a b : Value} (h : bothTrue a b = .json (.bool true)) : b = .json (.bool true) := by
  unfold bothTrue at h
  split at h
  · exact h
  · exact absurd h ‹_›

theorem integerValue_ok {least most : Int} {w : Value} (h : integerValue least most w = true) :
    ∃ n, w = .json (.int n) := by
  cases w with
  | json j =>
    obtain ⟨n, rfl⟩ := isInteger_ok h
    exact ⟨n, rfl⟩
  | uuid id => cases h

/-- What the checks before a merge say. -/
theorem requireSameAccount_ok {py : Python} {f : Formats} {current archived : List (Value × Value)}
    (h : requireSameAccount py f record row current archived = .ok ()) :
    (∀ g ∈ identityFields, record.get g = row.column g) ∧ sameGrants current archived = true ∧
      (∀ g ∈ userSeeds, f.plainSeed (row.column g) = .ok (record.get g)) ∧
      (∃ n, row.column "failed_login_attempts" = .json (.int n)) ∧
      (row.column "mfa_last_totp_step" = .none ∨
        ∃ n, row.column "mfa_last_totp_step" = .json (.int n)) := by
  unfold requireSameAccount at h
  obtain ⟨fields, h⟩ := require_bind h
  obtain ⟨-, h⟩ := require_bind h
  obtain ⟨grants, h⟩ := require_bind h
  obtain ⟨_, seeds, h⟩ := bind_ok h
  obtain ⟨integers, -⟩ := require_bind h
  simp only [Bool.and_eq_true, Bool.or_eq_true, decide_eq_true_eq] at integers
  refine ⟨fun g mem => of_decide_eq_true (List.all_eq_true.mp fields g mem), grants, fun g mem => ?_,
    integerValue_ok integers.1.2, integers.2.imp_right integerValue_ok⟩
  obtain ⟨plain, read, same⟩ := bind_ok (forM_ok seeds g mem)
  rw [read, of_decide_eq_true (require_ok same)]

/-- An overwritten account is no more permissive than before, and keeps its grants if the archive had
the same. -/
theorem Taken.stricter {vault : Vault} {db : Database} (good : ValidUser vault.call portable)
    (stored : row ∈ db.tables .user)
    (h : Taken vault.call s grants .user portable pk archived (some row) secured record) :
    Stricter vault.codec row portable (updatedRow vault.call .user row record) ∧
      sameGrants (currentGrants vault.call s.tables row)
        (archivedGrants vault.call grants row) = true := by
  obtain ⟨merged, sealed, merge, destination, read⟩ := h.merge vault.security vault.overwrites
  obtain ⟨same, lockedUntil, lastLogin, codes, pending, locked, mergeCodes, mergePending, eq⟩ :=
    mergeExistingUser_eq merge
  obtain ⟨identity, sites, seeds, attempts, step⟩ := requireSameAccount_ok same
  have secrets := securityRestore_secrets vault.security
  have written := secureRecord_user vault.security good.toGoodUser h.passed
  have column {g : String} {w : Value} (field : g ∈ userFields)
      (free : g ≠ "id" ∧ g ≠ "organization_id" ∧ g ≠ "token_version") (found : secured.find g = some w) :
      (updatedRow vault.call .user row record).column g = w := by
    refine updatedRow_field secrets field ⟨free.1, free.2.1⟩ ?_
    rw [written.record_find h.renewed free.2.2, found]
  have plain {g : String} {w : Value} (field : g ∈ userFields)
      (free : g ≠ "id" ∧ g ≠ "organization_id" ∧ g ≠ "token_version" ∧ g ∉ userSeeds ∧ g ∉ userTimes)
      (other : g ∉ Kind.user.model.uuidFields) (found : merged.find g = some w) :
      (updatedRow vault.call .user row record).column g = w := by
    refine column field ⟨free.1, free.2.1, free.2.2.1⟩ ?_
    rw [find_readRecord read other, find_destination destination free.2.2.2, found]
  have there {g : String} (field : g ∈ userFields) :
      (portableRecord portable).find g = some (.json (member portable g)) := good.find field
  have kept {g : String} (field : g ∈ userFields)
      (other : g ≠ "is_active" ∧ g ≠ "is_verified" ∧ g ≠ "failed_login_attempts" ∧ g ≠ "locked_until" ∧
        g ≠ "last_login" ∧ g ≠ "mfa_last_totp_step" ∧ g ≠ "mfa_backup_codes" ∧
        g ≠ "mfa_pending_backup_codes") :
      merged.find g = some (.json (member portable g)) := by
    rw [eq, find_setAll, there field]
    obtain ⟨a, b, c, d, e, f, g, h⟩ := other
    simp [a.symm, b.symm, c.symm, d.symm, e.symm, f.symm, g.symm, h.symm]
  refine ⟨?_, sites⟩
  constructor
  case authority =>
    intro g mem
    rcases List.mem_append.mp mem with own | provider
    · rw [← identity g own, get_portableRecord]
      simp only [identityFields, List.mem_cons, List.not_mem_nil, or_false] at own
      rcases own with rfl | rfl | rfl | rfl | rfl <;>
        exact plain (by decide) (by decide) (by decide) (kept (by decide) (by decide))
    · rw [List.mem_singleton.mp provider]
      exact (h.sameIdentity vault.security vault.overwrites good.toGoodUser stored).provider
  case seeds =>
    intro g mem
    have plainSeed_eq := seeds g mem
    rw [vault.formats] at plainSeed_eq
    have encrypted : (updatedRow vault.call .user row record).column g =
        encryptField vault.codec ((portableRecord portable).get g) := by
      have sealed_eq {g : String} (seed : g ∈ userSeeds) (field : g ∈ userFields)
          (free : g ≠ "id" ∧ g ≠ "organization_id" ∧ g ≠ "token_version")
          (other : g ∉ Kind.user.model.uuidFields)
          (found : merged.find g = some (.json (member portable g))) :
          (updatedRow vault.call .user row record).column g =
            encryptField vault.codec ((portableRecord portable).get g) := by
        refine column field free ?_
        rw [find_readRecord read other, find_destination_seed destination seed found, vault.formats,
          get_portableRecord]
        rfl
      simp only [userSeeds, List.mem_cons, List.not_mem_nil, or_false] at mem
      rcases mem with rfl | rfl <;>
        exact sealed_eq (by decide) (by decide) (by decide) (by decide) (kept (by decide) (by decide))
    rw [encrypted]
    exact (plainSeed_encrypt plainSeed_eq).trans plainSeed_eq.symm
  case flags =>
    intro g mem on
    simp only [flagFields, List.mem_cons, List.not_mem_nil, or_false] at mem
    rcases mem with rfl | rfl <;>
      rw [plain (by decide) (by decide) (by decide) (by
        rw [eq]; simp only [Record.setAll, List.foldl_cons, List.foldl_nil, Record.find_set]; rfl)] at on <;>
      exact bothTrue_true on
  case counters =>
    intro g mem n one
    simp only [counterFields, List.mem_cons, List.not_mem_nil, or_false] at mem
    rcases mem with rfl | rfl
    · obtain ⟨m, numbers⟩ := attempts
      obtain ⟨m', numbers'⟩ := good.attempts
      rw [plain (by decide) (by decide) (by decide) (by
        rw [eq]; simp only [Record.setAll, List.foldl_cons, List.foldl_nil, Record.find_set]; rfl),
        get_portableRecord]
      exact larger_int ⟨.inr ⟨m', congrArg _ numbers'⟩, .inr ⟨m, numbers⟩⟩
        (one.imp_right (congrArg Value.json))
    · rw [plain (by decide) (by decide) (by decide) (by
        rw [eq]; simp only [Record.setAll, List.foldl_cons, List.foldl_nil, Record.find_set]; rfl),
        get_portableRecord]
      refine larger_int ⟨good.step.imp (congrArg _) (Exists.imp fun _ => congrArg _), step⟩
        (one.imp_right (congrArg Value.json))
  case locked =>
    intro time one
    have found : merged.find "locked_until" = some lockedUntil := by
      rw [eq]
      simp only [Record.setAll, List.foldl_cons, List.foldl_nil, Record.find_set]
      rfl
    obtain ⟨w, timed, there'⟩ := find_destination_time destination (by decide) (by decide) found
    rw [column (by decide) (by decide) ((find_readRecord read (by decide)).trans there')]
    rw [vault.formats] at timed locked
    obtain ⟨instant, readTime, rfl⟩ := map_ok timed
    rw [columnTime_writeTime, ← columnTime_read readTime]
    rw [get_portableRecord] at locked
    exact latest_ok locked one.symm
  case codes =>
    intro g mem
    rw [vault.formats] at mergeCodes mergePending
    rw [get_portableRecord] at mergeCodes mergePending
    simp only [codeFields, List.mem_cons, List.not_mem_nil, or_false] at mem
    rcases mem with rfl | rfl
    · rw [plain (by decide) (by decide) (by decide) (by
        rw [eq]; simp only [Record.setAll, List.foldl_cons, List.foldl_nil, Record.find_set]; rfl)]
      exact mergeCodes_ok mergeCodes
    · rw [plain (by decide) (by decide) (by decide) (by
        rw [eq]; simp only [Record.setAll, List.foldl_cons, List.foldl_nil, Record.find_set]; rfl)]
      exact mergeCodes_ok mergePending
  case version =>
    obtain ⟨a, b, current, old, small, small', next⟩ :=
      freshSession_version secrets vault.overwrites h.renewed
    rw [find_readRecord read (by decide), find_destination destination (by decide),
      kept (by decide) (by decide), Option.getD_some] at old
    refine ⟨max a b + 1, updatedRow_field secrets (by decide) (by decide) next, by omega, ?_⟩
    rintro m (here | there)
    · rw [current] at here
      obtain rfl := Json.int.inj (Value.json.inj here)
      omega
    · rw [there] at old
      obtain rfl := Json.int.inj (Value.json.inj old)
      omega

end FreeSdn.Backup.Core
