import FreeSdn.Lib.Run
import FreeSdn.Lib.Table
import FreeSdn.Lib.Utf8
import Mathlib.Data.List.Sort

/-! Durable token revocations (`core/token_blacklist.py`).  Any number of workers claim, revoke and
verify tokens, each with its own clock, while expired rows are pruned; a transaction may fail, and its
acknowledgement may be lost. -/

namespace FreeSdn.Tokens

open FreeSdn.Lib

/-! Times are in microseconds since the epoch. -/

def day : Int := 86400000000

/-! ### Identifiers and expiries -/

inductive Expiry
  | seconds (n : Int)
  | aware (t : Int)
  | naive

/-- `_expiry`: a time of the years 1 to 9999. -/
def Expiry.time (exp : Expiry) : Option Int :=
  let bounded (t : Int) := if -62135596800000000 ≤ t ∧ t ≤ 253402300799999999 then some t else none
  match exp with
  | .seconds n => bounded (n * 1000000)
  | .aware t => bounded t
  | .naive => none

/-- `_identity`. -/
def identity (sha256 : List UInt8 → String) (jti : String) : Option String :=
  if jti.isEmpty || 1024 < jti.length then none else some (sha256 (Utf8.encode jti.toList))

/-! ### The table -/

/-- `TokenRevocation`. -/
structure Row where
  jtiHash : String
  expiresAt : Int

instance : Keyed Row String := ⟨Row.jtiHash⟩

/-- `INSERT … ON CONFLICT DO NOTHING`, and whether it has inserted. -/
def insertMissing (rows : List Row) (k : String) (e : Int) : List Row × Bool :=
  match Table.lookup rows k with
  | none => (rows ++ [⟨k, e⟩], true)
  | some _ => (rows, false)

/-- `INSERT … ON CONFLICT DO UPDATE` with the greatest of the expiries. -/
def insertGreatest (rows : List Row) (k : String) (e : Int) : List Row :=
  match Table.lookup rows k with
  | none => rows ++ [⟨k, e⟩]
  | some _ => Table.update rows k fun r => { r with expiresAt := max r.expiresAt e }

/-- `prune_expired_revocations`: a batch of the oldest expired rows that no other transaction has
locked. -/
def prune (cutoff : Int) (locked : String → Bool) (rows : List Row) : List Row :=
  let expired := rows.filter fun r => r.expiresAt < cutoff && !locked r.jtiHash
  let batch := (expired.mergeSort fun a b => a.expiresAt ≤ b.expiresAt).take 1000
  rows.filter fun r => !batch.any fun b => b.jtiHash = r.jtiHash

/-! ### Requests -/

/-- A call of `claim_token_jti` or `blacklist_token`; `claimed` is one whose transaction has ended. -/
inductive Request
  | claim (k : String) (e : Int)
  | claimed (k : String) (e : Int) (won : Bool)
  | revoke (k : String) (e clock : Int)
  | ended

/-- A revocation that was reported as done, with the time that its worker read. -/
structure Revoked where
  jtiHash : String
  expiresAt : Int
  clock : Int
  deriving DecidableEq

/-- `granted` has the claims that were reported as won. -/
structure State where
  now : Int
  rows : List Row
  requests : List Request
  granted : List String
  revoked : List Revoked

def State.start (now : Int) : State := ⟨now, [], [], [], []⟩

/-- A worker reads its own clock.  A transaction is committed or not, and is acknowledged or not. -/
inductive Label
  | wait (t : Nat)
  | claim (jti : String) (exp : Expiry) (clock : Int)
  | revoke (jti : String) (exp : Expiry) (clock : Int)
  | transact (n : Nat) (committed acknowledged : Bool)
  | answer (n : Nat) (clock : Int)
  | prune (clock : Int) (locked : String → Bool)

namespace State

def put (s : State) (n : Nat) (r : Request) : State := { s with requests := s.requests.set n r }

def add (s : State) (r : Request) : State := { s with requests := s.requests ++ [r] }

variable (sha256 : List UInt8 → String)

def step (s : State) : Label → Option State
  | .wait t => some { s with now := s.now + t }
  | .claim jti exp clock =>
    match identity sha256 jti, exp.time with
    | some k, some e => some (s.add (if e ≤ clock then .ended else .claim k e))
    | _, _ => some (s.add .ended)
  | .revoke jti exp clock =>
    match identity sha256 jti, exp.time with
    | some k, some e =>
      -- An expired token is not written, and the revocation is done.
      if e ≤ clock then some ({ s with revoked := ⟨k, e, clock⟩ :: s.revoked }.add .ended)
      else some (s.add (.revoke k e clock))
    | _, _ => some (s.add .ended)
  | .transact n committed acknowledged =>
    match s.requests[n]? with
    | some (.claim k e) =>
      if committed then
        let (rows, won) := insertMissing s.rows k e
        some ({ s with rows }.put n (if acknowledged then .claimed k e won else .ended))
      else some (s.put n .ended)
    | some (.revoke k e clock) =>
      if committed then
        let rows := insertGreatest s.rows k e
        let revoked := if acknowledged then ⟨k, e, clock⟩ :: s.revoked else s.revoked
        some ({ s with rows, revoked }.put n .ended)
      else some (s.put n .ended)
    | _ => none
  | .answer n clock =>
    match s.requests[n]? with
    | some (.claimed k e won) =>
      let granted := if won && decide (clock < e) then k :: s.granted else s.granted
      some ({ s with granted }.put n .ended)
    | _ => none
  | .prune clock locked => some { s with rows := Tokens.prune (clock - day) locked s.rows }

end State

/-- `is_token_blacklisted`, while the table can be read. -/
def blacklisted (rows : List Row) (k : String) : Bool := (Table.lookup rows k).isSome

/-! ### Clocks -/

/-- How far a clock may be off, and the expiry with which a token is presented. -/
structure Setting where
  skew : Int
  due : String → Int

/-- A reading is near the time at which it is used. -/
def near (v : Setting) (now clock : Int) : Prop := now - v.skew ≤ clock ∧ clock ≤ now + v.skew

/-- A claim presents the expiry of its token, and the clocks are not far off. -/
def Fair (sha256 : List UInt8 → String) (v : Setting) (s : State) : Label → Prop
  | .claim jti exp _ => ∀ k ∈ identity sha256 jti, ∀ e ∈ exp.time, e = v.due k
  | .answer _ clock => near v s.now clock
  | .prune clock _ => clock ≤ s.now + v.skew
  | _ => True

instance (v : Setting) (now clock : Int) : Decidable (near v now clock) :=
  inferInstanceAs (Decidable (_ ∧ _))

instance (sha256 : List UInt8 → String) (v : Setting) (s : State) (label : Label) :
    Decidable (Fair sha256 v s label) :=
  match label with
  | .claim jti exp _ =>
    inferInstanceAs (Decidable (∀ k ∈ identity sha256 jti, ∀ e ∈ exp.time, e = v.due k))
  | .answer _ clock => inferInstanceAs (Decidable (near v s.now clock))
  | .prune clock _ => inferInstanceAs (Decidable (clock ≤ s.now + v.skew))
  | .wait _ => inferInstanceAs (Decidable True)
  | .revoke _ _ _ => inferInstanceAs (Decidable True)
  | .transact _ _ _ => inferInstanceAs (Decidable True)

variable {sha256 : List UInt8 → String} {v : Setting} {s t u : State} {label : Label} {k : String}
  {e : Int}

/-! ### Rows -/

/-- The token expired so long ago that no clock lets it pass. -/
def Late (v : Setting) (s : State) (e : Int) : Prop := e + day < s.now + v.skew

theorem Late.later (late : Late v s e) (passed : s.now ≤ t.now) : Late v t e := by
  unfold Late at *
  omega

/-- The token cannot be used again. -/
def Kept (v : Setting) (s : State) (k : String) (e : Int) : Prop :=
  (∃ r ∈ s.rows, r.jtiHash = k ∧ e ≤ r.expiresAt) ∨ Late v s e

theorem mem_insertMissing {rows : List Row} {r : Row} {k : String} {e : Int} (mem : r ∈ rows) :
    r ∈ (insertMissing rows k e).1 := by
  unfold insertMissing
  split
  · exact List.mem_append_left _ mem
  · exact mem

theorem insertMissing_won {rows : List Row} (won : (insertMissing rows k e).2 = true) :
    (∀ r ∈ rows, r.jtiHash ≠ k) ∧ ⟨k, e⟩ ∈ (insertMissing rows k e).1 := by
  unfold insertMissing at won ⊢
  split at won
  · next absent => exact ⟨Table.lookup_none.mp absent, List.mem_append_right _ List.mem_cons_self⟩
  · cases won

theorem kept_insertGreatest {rows : List Row} {r : Row} {k : String} {e : Int} (mem : r ∈ rows) :
    ∃ q ∈ insertGreatest rows k e, q.jtiHash = r.jtiHash ∧ r.expiresAt ≤ q.expiresAt := by
  unfold insertGreatest
  split
  · exact ⟨r, List.mem_append_left _ mem, rfl, le_refl _⟩
  · refine ⟨_, Table.mem_update.mpr ⟨r, mem, rfl⟩, ?_⟩
    split
    · exact ⟨rfl, le_max_left _ _⟩
    · exact ⟨rfl, le_refl _⟩

theorem insertGreatest_row (rows : List Row) (k : String) (e : Int) :
    ∃ r ∈ insertGreatest rows k e, r.jtiHash = k ∧ e ≤ r.expiresAt := by
  unfold insertGreatest
  split
  · exact ⟨⟨k, e⟩, List.mem_append_right _ List.mem_cons_self, rfl, le_refl _⟩
  · next r found =>
    refine ⟨_, Table.mem_update.mpr ⟨r, Table.lookup_mem found, rfl⟩, ?_⟩
    rw [if_pos (Table.lookup_key found)]
    exact ⟨Table.lookup_key found, le_max_right _ _⟩

/-- A row that is pruned has expired before the cutoff. -/
theorem mem_prune {rows : List Row} {r : Row} (cutoff : Int) (locked : String → Bool) (mem : r ∈ rows) :
    r ∈ prune cutoff locked rows ∨ ∃ q ∈ rows, q.jtiHash = r.jtiHash ∧ q.expiresAt < cutoff := by
  by_cases kept : r ∈ prune cutoff locked rows
  · exact .inl kept
  · refine .inr ?_
    simp only [prune, List.mem_filter, mem, true_and, Bool.not_eq_true', Bool.not_eq_false,
      List.any_eq_true, decide_eq_true_eq] at kept
    obtain ⟨q, batch, same⟩ := kept
    have expired := List.mem_mergeSort.mp (List.mem_of_mem_take batch)
    obtain ⟨there, expired⟩ := List.mem_filter.mp expired
    exact ⟨q, there, same, by simpa using (Bool.and_eq_true_iff.mp expired).1⟩

theorem insertMissing_unique {rows : List Row} (unique : Table.Unique rows) :
    Table.Unique (insertMissing rows k e).1 := by
  unfold insertMissing
  split
  · next absent => exact unique.append (r := ⟨k, e⟩) (Table.lookup_none.mp absent)
  · exact unique

theorem insertGreatest_unique {rows : List Row} (unique : Table.Unique rows) :
    Table.Unique (insertGreatest rows k e) := by
  unfold insertGreatest
  split
  · next absent => exact unique.append (r := ⟨k, e⟩) (Table.lookup_none.mp absent)
  · exact unique.map (Table.update_keeps fun _ _ same => same)

theorem prune_unique {rows : List Row} {cutoff : Int} {locked : String → Bool}
    (unique : Table.Unique rows) : Table.Unique (prune cutoff locked rows) :=
  List.Nodup.sublist (List.Sublist.map _ List.filter_sublist) unique

/-! ### Steps -/

/-- What a step can do. -/
inductive Moves (sha256 : List UInt8 → String) (s : State) : Label → State → Prop
  | wait (d : Nat) : Moves sha256 s (.wait d) { s with now := s.now + d }
  | claim {jti : String} {exp : Expiry} {clock e : Int} {k : String} (known : identity sha256 jti = some k)
      (time : exp.time = some e) (live : clock < e) :
      Moves sha256 s (.claim jti exp clock) (s.add (.claim k e))
  | expired {jti : String} {exp : Expiry} {clock e : Int} {k : String} (late : e ≤ clock) :
      Moves sha256 s (.revoke jti exp clock)
        ({ s with revoked := ⟨k, e, clock⟩ :: s.revoked }.add .ended)
  | revoke {jti : String} {exp : Expiry} {clock e : Int} {k : String} :
      Moves sha256 s (.revoke jti exp clock) (s.add (.revoke k e clock))
  | refused {label : Label} : Moves sha256 s label (s.add .ended)
  | failed {n : Nat} {committed acknowledged : Bool} :
      Moves sha256 s (.transact n committed acknowledged) (s.put n .ended)
  | claimed {n : Nat} {k : String} {e : Int} {acknowledged : Bool}
      (found : s.requests[n]? = some (.claim k e)) :
      Moves sha256 s (.transact n true acknowledged)
        ({ s with rows := (insertMissing s.rows k e).1 }.put n
          (if acknowledged then .claimed k e (insertMissing s.rows k e).2 else .ended))
  | revoked {n : Nat} {k : String} {e clock : Int} {acknowledged : Bool}
      (found : s.requests[n]? = some (.revoke k e clock)) :
      Moves sha256 s (.transact n true acknowledged)
        ({ s with
          rows := insertGreatest s.rows k e
          revoked := if acknowledged then ⟨k, e, clock⟩ :: s.revoked else s.revoked }.put n .ended)
  | answer {n : Nat} {clock e : Int} {k : String} {won : Bool}
      (found : s.requests[n]? = some (.claimed k e won)) :
      Moves sha256 s (.answer n clock)
        ({ s with granted := if won && decide (clock < e) then k :: s.granted else s.granted }.put n .ended)
  | prune {clock : Int} {locked : String → Bool} :
      Moves sha256 s (.prune clock locked) { s with rows := Tokens.prune (clock - day) locked s.rows }

theorem Moves.of_step (next : s.step sha256 label = some t) : Moves sha256 s label t := by
  unfold State.step at next
  cases label with
  | wait d =>
    obtain rfl := Option.some.inj next
    exact .wait d
  | claim jti exp clock =>
    dsimp only at next
    split at next
    · next known time =>
      obtain rfl := Option.some.inj next
      split
      · exact .refused
      · next live => exact .claim known time (not_le.mp live)
    · obtain rfl := Option.some.inj next
      exact .refused
  | revoke jti exp clock =>
    dsimp only at next
    split at next
    · split at next
      · next late =>
        obtain rfl := Option.some.inj next
        exact .expired late
      · obtain rfl := Option.some.inj next
        exact .revoke
    · obtain rfl := Option.some.inj next
      exact .refused
  | transact n committed acknowledged =>
    dsimp only at next
    split at next
    · next found =>
      cases committed
      · obtain rfl := Option.some.inj next
        exact .failed
      · obtain rfl := Option.some.inj next
        exact .claimed found
    · next found =>
      cases committed
      · obtain rfl := Option.some.inj next
        exact .failed
      · obtain rfl := Option.some.inj next
        exact .revoked found
    · cases next
  | answer n clock =>
    dsimp only at next
    split at next
    · next found =>
      obtain rfl := Option.some.inj next
      exact .answer found
    · cases next
  | prune clock locked =>
    obtain rfl := Option.some.inj next
    exact .prune

/-- What cannot be used again stays so. -/
theorem Kept.step (kept : Kept v s k e) (unique : Table.Unique s.rows) (fair : Fair sha256 v s label)
    (moves : Moves sha256 s label t) : Kept v t k e := by
  rcases kept with ⟨r, mem, same, later⟩ | late
  · have grown {rows : List Row} {u : State} (there : u.rows = rows)
        (kept : ∃ q ∈ rows, q.jtiHash = r.jtiHash ∧ r.expiresAt ≤ q.expiresAt) : Kept v u k e := by
      obtain ⟨q, mem, key, greater⟩ := kept
      exact .inl ⟨q, there ▸ mem, key.trans same, le_trans later greater⟩
    have still {u : State} (there : u.rows = s.rows) : Kept v u k e :=
      grown there ⟨r, mem, rfl, le_refl _⟩
    cases moves with
    | wait => exact still rfl
    | claim => exact still rfl
    | expired => exact still rfl
    | revoke => exact still rfl
    | refused => exact still rfl
    | failed => exact still rfl
    | claimed => exact grown rfl ⟨r, mem_insertMissing mem, rfl, le_refl _⟩
    | revoked => exact grown rfl (kept_insertGreatest mem)
    | answer => exact still rfl
    | @prune clock locked =>
      rcases mem_prune (clock - day) locked mem with left | ⟨q, there, key, expired⟩
      · exact .inl ⟨r, left, same, later⟩
      · obtain rfl : q = r := unique.eq there mem key
        have ahead : clock ≤ s.now + v.skew := fair
        refine .inr ?_
        show e + day < s.now + v.skew
        omega
  · refine .inr (late.later ?_)
    cases moves with
    | wait d =>
      show s.now ≤ s.now + d
      omega
    | _ => exact le_refl _

/-! ### Claims -/

/-- A request presents the expiry of its token. -/
def Request.Presents (v : Setting) : Request → Prop
  | .claim k e => e = v.due k
  | .claimed k e _ => e = v.due k
  | _ => True

/-- A claim has inserted the row, and has not yet been answered. -/
def State.Wins (s : State) (n : Nat) (k : String) : Prop := ∃ e, s.requests[n]? = some (.claimed k e true)

/-- Of the claims of one token at most one can still be granted, and none once one has been. -/
structure Good (v : Setting) (s : State) : Prop where
  unique : Table.Unique s.rows
  presents : ∀ (n : Nat) (r : Request), s.requests[n]? = some r → r.Presents v
  granted : ∀ k ∈ s.granted, Kept v s k (v.due k)
  won : ∀ n k, s.Wins n k → Kept v s k (v.due k)
  apart : ∀ m n k, m ≠ n → s.Wins m k → s.Wins n k → Late v s (v.due k)
  once : ∀ n, ∀ k ∈ s.granted, s.Wins n k → Late v s (v.due k)
  nodup : s.granted.Nodup

variable {n m : Nat} {r q : Request}

theorem put_some (found : (s.put n r).requests[m]? = some q) :
    (m ≠ n ∧ s.requests[m]? = some q) ∨ (m = n ∧ q = r) := by
  have found : (s.requests.set n r)[m]? = some q := found
  rw [List.getElem?_set] at found
  split at found
  · next same =>
    split at found
    · exact .inr ⟨same.symm, (Option.some.inj found).symm⟩
    · cases found
  · next other => exact .inl ⟨Ne.symm other, found⟩

theorem add_some (found : (s.add r).requests[m]? = some q) : s.requests[m]? = some q ∨ q = r := by
  have found : (s.requests ++ [r])[m]? = some q := found
  rw [List.getElem?_append] at found
  split at found
  · exact .inl found
  · rw [List.getElem?_singleton] at found
    split at found
    · exact .inr (Option.some.inj found).symm
    · cases found

namespace Good

/-- A step that neither wins nor grants a claim. -/
theorem frame (good : Good v s) (kept : ∀ k e, Kept v s k e → Kept v t k e) (passed : s.now ≤ t.now)
    (unique : Table.Unique t.rows)
    (presents : ∀ (n : Nat) (r : Request), t.requests[n]? = some r → r.Presents v)
    (wins : ∀ n k, t.Wins n k → s.Wins n k) (granted : t.granted = s.granted) : Good v t where
  unique := unique
  presents := presents
  granted k mem := kept _ _ (good.granted k (granted ▸ mem))
  won n k win := kept _ _ (good.won n k (wins n k win))
  apart m n k other first second := (good.apart m n k other (wins m k first) (wins n k second)).later passed
  once n k mem win := (good.once n k (granted ▸ mem) (wins n k win)).later passed
  nodup := granted ▸ good.nodup

/-- A request ends. -/
theorem put_presents (good : Good v s) (r : Request) (presents : r.Presents v) {u : State}
    (requests : u.requests = s.requests) :
    ∀ (m : Nat) (q : Request), (u.put n r).requests[m]? = some q → q.Presents v := by
  intro m q found
  rcases put_some found with ⟨-, found⟩ | ⟨-, rfl⟩
  · exact good.presents m q (requests ▸ found)
  · exact presents

theorem add_presents (good : Good v s) (r : Request) (presents : r.Presents v) {u : State}
    (requests : u.requests = s.requests) :
    ∀ (m : Nat) (q : Request), (u.add r).requests[m]? = some q → q.Presents v := by
  intro m q found
  rcases add_some found with found | rfl
  · exact good.presents m q (requests ▸ found)
  · exact presents

theorem put_wins {u : State} (requests : u.requests = s.requests) (ends : ∀ e, r ≠ .claimed k e true)
    (win : (u.put n r).Wins m k) : s.Wins m k := by
  obtain ⟨e, found⟩ := win
  rcases put_some found with ⟨-, found⟩ | ⟨-, same⟩
  · exact ⟨e, requests ▸ found⟩
  · exact absurd same.symm (ends e)

theorem add_wins {u : State} (requests : u.requests = s.requests) (ends : ∀ e, r ≠ .claimed k e true)
    (win : (u.add r).Wins m k) : s.Wins m k := by
  obtain ⟨e, found⟩ := win
  rcases add_some found with found | same
  · exact ⟨e, requests ▸ found⟩
  · exact absurd same.symm (ends e)

/-- The row was not there, so any other claim of the token is too late. -/
theorem inserted (good : Good v s) (found : s.requests[n]? = some (.claim k e))
    (won : (insertMissing s.rows k e).2 = true) :
    Good v ({ s with rows := (insertMissing s.rows k e).1 }.put n (.claimed k e true)) := by
  obtain ⟨absent, there⟩ := insertMissing_won won
  obtain rfl : e = v.due k := good.presents n _ found
  have late (kept : Kept v s k (v.due k)) : Late v s (v.due k) := by
    rcases kept with ⟨r, mem, same, -⟩ | late
    · exact absurd same (absent r mem)
    · exact late
  have kept (l : String) (e : Int) (kept : Kept v s l e) :
      Kept v ({ s with rows := (insertMissing s.rows k (v.due k)).1 }.put n
        (.claimed k (v.due k) true)) l e :=
    kept.imp (fun ⟨r, mem, same⟩ => ⟨r, mem_insertMissing mem, same⟩) id
  have old {m : Nat} {l : String}
      (win : ({ s with rows := (insertMissing s.rows k (v.due k)).1 }.put n
        (.claimed k (v.due k) true)).Wins m l) : s.Wins m l ∨ (m = n ∧ l = k) := by
    obtain ⟨e, found⟩ := win
    rcases put_some found with ⟨-, found⟩ | ⟨rfl, same⟩
    · exact .inl ⟨e, found⟩
    · exact .inr ⟨rfl, (Request.claimed.inj same).1⟩
  refine ⟨insertMissing_unique good.unique, good.put_presents (.claimed k _ true) rfl rfl, ?_, ?_, ?_, ?_,
    good.nodup⟩
  · exact fun l mem => kept _ _ (good.granted l mem)
  · intro m l win
    rcases old win with win | ⟨rfl, rfl⟩
    · exact kept _ _ (good.won m l win)
    · exact .inl ⟨_, there, rfl, le_refl _⟩
  · intro m m' l other first second
    rcases old first with first' | ⟨rfl, rfl⟩
    · rcases old second with second' | ⟨rfl, rfl⟩
      · exact good.apart m m' l other first' second'
      · exact late (good.won m l first')
    · rcases old second with second' | ⟨rfl, -⟩
      · exact late (good.won m' l second')
      · exact absurd rfl other
  · intro m l mem win
    rcases old win with win | ⟨rfl, rfl⟩
    · exact good.once m l mem win
    · exact late (good.granted l mem)

/-- A claim that is granted in time is the only one. -/
theorem grant (good : Good v s) (apart : 2 * v.skew ≤ day) {clock : Int} (close : near v s.now clock)
    (found : s.requests[n]? = some (.claimed k e true)) (live : clock < e) :
    Good v ({ s with granted := k :: s.granted }.put n .ended) := by
  obtain rfl : e = v.due k := good.presents n _ found
  have win : s.Wins n k := ⟨_, found⟩
  have early : ¬Late v s (v.due k) := by
    intro late
    obtain ⟨behind, -⟩ := close
    unfold Late at late
    omega
  have wins {m : Nat} {l : String} (win : ({ s with granted := k :: s.granted }.put n .ended).Wins m l) :
      m ≠ n ∧ s.Wins m l := by
    obtain ⟨e, found⟩ := win
    rcases put_some found with ⟨other, found⟩ | ⟨-, same⟩
    · exact ⟨other, e, found⟩
    · cases same
  refine ⟨good.unique, good.put_presents .ended trivial rfl, ?_, ?_, ?_, ?_, ?_⟩
  · intro l mem
    rcases List.mem_cons.mp mem with rfl | mem
    · exact good.won n l win
    · exact good.granted l mem
  · exact fun m l win => good.won m l (wins win).2
  · exact fun m m' l other first second => good.apart m m' l other (wins first).2 (wins second).2
  · intro m l mem next
    obtain ⟨other, before⟩ := wins next
    rcases List.mem_cons.mp mem with rfl | old
    · exact good.apart m n l other before win
    · exact good.once m l old before
  · refine List.nodup_cons.mpr ⟨fun mem => early (good.once n k mem win), good.nodup⟩

theorem step (good : Good v s) (apart : 2 * v.skew ≤ day) (fair : Fair sha256 v s label)
    (moves : Moves sha256 s label t) : Good v t := by
  have kept (k : String) (e : Int) (kept : Kept v s k e) : Kept v t k e := kept.step good.unique fair moves
  cases moves with
  | wait d =>
    refine good.frame kept ?_ good.unique good.presents (fun _ _ win => win) rfl
    show s.now ≤ s.now + d
    omega
  | @claim jti exp clock e k known time live =>
    refine good.frame kept (le_refl _) good.unique ?_ (fun _ _ => add_wins rfl (by simp)) rfl
    exact good.add_presents (.claim k e) (fair k known e time) rfl
  | expired =>
    refine good.frame kept (le_refl _) good.unique ?_ (fun _ _ => add_wins rfl (by simp)) rfl
    exact good.add_presents .ended trivial rfl
  | @revoke _ _ clock e k =>
    refine good.frame kept (le_refl _) good.unique ?_ (fun _ _ => add_wins rfl (by simp)) rfl
    exact good.add_presents (.revoke k e clock) trivial rfl
  | refused =>
    refine good.frame kept (le_refl _) good.unique ?_ (fun _ _ => add_wins rfl (by simp)) rfl
    exact good.add_presents .ended trivial rfl
  | failed =>
    refine good.frame kept (le_refl _) good.unique ?_ (fun _ _ => put_wins rfl (by simp)) rfl
    exact good.put_presents .ended trivial rfl
  | revoked found =>
    refine good.frame kept (le_refl _) (insertGreatest_unique good.unique) ?_
      (fun _ _ => put_wins rfl (by simp)) rfl
    exact good.put_presents .ended trivial rfl
  | prune =>
    exact good.frame kept (le_refl _) (prune_unique good.unique) good.presents (fun _ _ win => win) rfl
  | @claimed n k e acknowledged found =>
    have unique := insertMissing_unique (k := k) (e := e) good.unique
    cases acknowledged with
    | false =>
      refine good.frame kept (le_refl _) unique ?_ (fun _ _ => put_wins rfl (by simp)) rfl
      exact good.put_presents .ended trivial rfl
    | true =>
      cases inserted : (insertMissing s.rows k e).2 with
      | false =>
        refine good.frame kept (le_refl _) unique ?_ (fun _ _ => put_wins rfl (by simp)) rfl
        exact good.put_presents (.claimed k e false) (good.presents n (.claim k e) found) rfl
      | true => exact good.inserted found inserted
  | @answer n clock e k won found =>
    by_cases grants : (won && decide (clock < e)) = true
    · obtain ⟨rfl, live⟩ := Bool.and_eq_true_iff.mp grants
      rw [if_pos grants]
      exact good.grant apart fair found (of_decide_eq_true live)
    · rw [if_neg grants]
      refine good.frame kept (le_refl _) good.unique ?_ (fun _ _ => put_wins rfl (by simp)) rfl
      exact good.put_presents .ended trivial rfl

end Good

theorem Good.start (now : Int) : Good v (.start now) where
  unique := Table.unique_nil
  presents _ _ found := by cases found
  granted _ mem := by cases mem
  won := fun _ _ ⟨_, found⟩ => by cases found
  apart := fun _ _ _ _ ⟨_, found⟩ => by cases found
  once _ _ mem := by cases mem
  nodup := List.nodup_nil

/-! ### Revocations -/

/-- What was reported as revoked cannot be used again, unless it had expired on the clock of the worker
that revoked it. -/
def Settled (v : Setting) (s : State) : Prop :=
  ∀ x ∈ s.revoked, Kept v s x.jtiHash x.expiresAt ∨ x.expiresAt ≤ x.clock

theorem Settled.step (settled : Settled v s) (unique : Table.Unique s.rows) (fair : Fair sha256 v s label)
    (moves : Moves sha256 s label t) : Settled v t := by
  have old (x : Revoked) (mem : x ∈ s.revoked) :
      Kept v t x.jtiHash x.expiresAt ∨ x.expiresAt ≤ x.clock :=
    (settled x mem).imp (fun kept => kept.step unique fair moves) id
  cases moves with
  | expired late =>
    intro x mem
    rcases List.mem_cons.mp mem with rfl | mem
    · exact .inr late
    · exact old x mem
  | @revoked n k e clock acknowledged found =>
    cases acknowledged with
    | false => exact old
    | true =>
      intro x mem
      rcases List.mem_cons.mp mem with rfl | mem
      · exact .inl (.inl (insertGreatest_row s.rows k e))
      · exact old x mem
  | _ => exact old

theorem reached {labels : List Label} {start : Int} (apart : 2 * v.skew ≤ day)
    (run : Runs (State.step sha256) (Fair sha256 v) (.start start) labels s) : Good v s ∧ Settled v s := by
  refine run.invariant (P := fun s => Good v s ∧ Settled v s) ⟨.start start, fun _ mem => by cases mem⟩ ?_
  rintro s label t fair next ⟨good, settled⟩
  have moves := Moves.of_step next
  exact ⟨good.step apart fair moves, settled.step good.unique fair moves⟩

/-- After a revocation the token stays revoked, and no claim wins it any more. -/
structure Barred (v : Setting) (k : String) (e : Int) (before s : State) : Prop where
  good : Good v s
  kept : Kept v s k e
  wins : ∀ n, s.Wins n k → before.Wins n k ∨ Late v s e

theorem Barred.step (apart : 2 * v.skew ≤ day) (barred : Barred v k e u s) (fair : Fair sha256 v s label)
    (moves : Moves sha256 s label t) : Barred v k e u t := by
  have passed : s.now ≤ t.now := by
    cases moves with
    | wait d =>
      show s.now ≤ s.now + d
      omega
    | _ => exact le_refl _
  refine ⟨barred.good.step apart fair moves, barred.kept.step barred.good.unique fair moves, ?_⟩
  have old {n : Nat} (win : s.Wins n k) : u.Wins n k ∨ Late v t e :=
    (barred.wins n win).imp id fun late => late.later passed
  intro n win
  cases moves with
  | wait => exact old win
  | claim => exact old (Good.add_wins rfl (by simp) win)
  | expired => exact old (Good.add_wins rfl (by simp) win)
  | revoke => exact old (Good.add_wins rfl (by simp) win)
  | refused => exact old (Good.add_wins rfl (by simp) win)
  | failed => exact old (Good.put_wins rfl (by simp) win)
  | revoked => exact old (Good.put_wins rfl (by simp) win)
  | answer => exact old (Good.put_wins rfl (by simp) win)
  | prune => exact old win
  | @claimed m l e' acknowledged found =>
    obtain ⟨e'', found'⟩ := win
    rcases put_some found' with ⟨-, before⟩ | ⟨rfl, same⟩
    · exact old ⟨e'', before⟩
    · cases acknowledged with
      | false => cases same
      | true =>
        obtain ⟨rfl, rfl, won⟩ := Request.claimed.inj same
        rcases barred.kept with ⟨r, mem, key, -⟩ | late
        · exact absurd key ((insertMissing_won won.symm).1 r mem)
        · exact .inr (late.later passed)

theorem Barred.run {labels : List Label} (apart : 2 * v.skew ≤ day) (barred : Barred v k e u s)
    (run : Runs (State.step sha256) (Fair sha256 v) s labels t) : Barred v k e u t :=
  run.invariant barred fun _ _ _ fair next barred => barred.step apart fair (.of_step next)

/-! ### What the table guarantees -/

/-- Clocks that are at most a minute off, and a token that is due after an hour. -/
def settingA : Setting := ⟨60000000, fun _ => 3600000000⟩

/-- The digest of `"t"`. -/
def hashA : String := "e3b98a4da31a127d4bde6e43033f66ba274cab0eb7eb1c70ec41402bf6273dd8"

/-- SHA-256 on `"t"`, and some digest of everything else. -/
def digestA (data : List UInt8) : String :=
  if data = [116] then hashA
  else "e3b0c44298fc1c149afbf4c8996fb92427ae41e4649b934ca495991b7852b855"

/-- Whatever is interleaved, lost or pruned, a token is claimed at most once. -/
theorem claimed_once {labels : List Label} {start : Int} (apart : 2 * v.skew ≤ day)
    (run : Runs (State.step sha256) (Fair sha256 v) (.start start) labels s) : s.granted.Nodup :=
  (reached apart run).1.nodup

/-- Two workers present the same token, which is pruned two days later and presented again. -/
def racingClaims : List Label :=
  [.claim "t" (.seconds 3600) 0, .claim "t" (.seconds 3600) 0, .transact 1 true true, .transact 0 true true,
    .answer 0 0, .answer 1 0, .wait 180000000000, .prune 180000000000 fun _ => false,
    .claim "t" (.seconds 3600) 180000000000]

theorem racingClaims_once : ∃ s,
    Runs (State.step digestA) (Fair digestA settingA) (.start 0) racingClaims s ∧
      s.granted = [hashA] ∧ s.granted.Nodup := by
  have ran : (exec (State.step digestA) (Fair digestA settingA) (.start 0) racingClaims).any
      (fun s => decide (s.granted = [hashA])) = true := by decide +kernel
  obtain ⟨s, ends, granted⟩ := (Option.any_eq_true _ _).mp ran
  have run := Runs.of_exec ends
  exact ⟨s, run, of_decide_eq_true granted, claimed_once (by decide) run⟩

/-- A token whose revocation was reported is refused ever after: by every verification that reads its
clock later and looks the token up within `patience`, and by every claim that had not won before.  The
exception is a clock that is behind the one on which the token had already expired. -/
theorem revoked_for_good {labels later last : List Label} {start patience : Int} {x : Revoked}
    (apart : 2 * v.skew + patience ≤ day) (patient : 0 ≤ patience)
    (run : Runs (State.step sha256) (Fair sha256 v) (.start start) labels s) (acked : x ∈ s.revoked)
    (more : Runs (State.step sha256) (Fair sha256 v) s later t)
    (rest : Runs (State.step sha256) (Fair sha256 v) t last u) {clock : Int} (own : e ≤ x.expiresAt)
    (live : clock < e) :
    (near v t.now clock → u.now ≤ t.now + patience →
      blacklisted u.rows x.jtiHash = true ∨ x.expiresAt ≤ x.clock ∧ clock < x.clock) ∧
    (near v u.now clock → ∀ n, ¬s.Wins n x.jtiHash →
      u.requests[n]? = some (.claimed x.jtiHash e true) → x.expiresAt ≤ x.clock ∧ clock < x.clock) := by
  have apart' : 2 * v.skew ≤ day := by omega
  obtain ⟨good, settled⟩ := reached apart' run
  rcases settled x acked with kept | expired
  · have barred : Barred v x.jtiHash x.expiresAt s u :=
      Barred.run apart' ⟨good, kept, fun _ win => .inl win⟩ (more.append rest)
    constructor
    · intro close prompt
      rcases barred.kept with ⟨r, mem, key, -⟩ | late
      · refine .inl ?_
        cases found : Table.lookup u.rows x.jtiHash with
        | some r => simp [blacklisted, found]
        | none => exact absurd key (Table.lookup_none.mp found r mem)
      · obtain ⟨behind, -⟩ := close
        unfold Late at late
        omega
    · intro close n fresh found
      rcases barred.wins n ⟨e, found⟩ with win | late
      · exact absurd win fresh
      · obtain ⟨behind, -⟩ := close
        unfold Late at late
        omega
  · have behind : clock < x.clock := by omega
    exact ⟨fun _ _ => .inr ⟨expired, behind⟩, fun _ _ _ _ => ⟨expired, behind⟩⟩

/-- A logout, and a second later a request with the same token. -/
theorem logout_for_good : ∃ s t, Runs (State.step digestA) (Fair digestA settingA) (.start 0)
      [.revoke "t" (.seconds 3600) 0, .transact 0 true true] s ∧
    Runs (State.step digestA) (Fair digestA settingA) s [.wait 1000000] t ∧
    blacklisted t.rows hashA = true := by
  have ran : (exec (State.step digestA) (Fair digestA settingA) (.start 0)
      [.revoke "t" (.seconds 3600) 0, .transact 0 true true]).any
      (fun s => decide (⟨hashA, 3600000000, 0⟩ ∈ s.revoked ∧ s.now = 0)) = true := by decide +kernel
  obtain ⟨s, ends, facts⟩ := (Option.any_eq_true _ _).mp ran
  obtain ⟨acked, start⟩ := of_decide_eq_true facts
  have run := Runs.of_exec ends
  have wait : Runs (State.step digestA) (Fair digestA settingA) s [.wait 1000000]
      { s with now := s.now + 1000000 } := .one trivial rfl
  have refused := (revoked_for_good (by decide) (by decide) run acked (.nil s) wait (le_refl _)
    (show (0 : Int) < 3600000000 by decide)).1 (by rw [start]; decide) (le_refl _)
  exact ⟨s, _, run, wait, refused.resolve_right fun behind => lt_irrefl _ behind.2⟩

end FreeSdn.Tokens
