import FreeSdn.Lib.Run
import FreeSdn.Lib.Table
import FreeSdn.Remote.Intent

/-! The retained history of remote backup writes (`services/remote_write_journal.py`) under any order
of `reserve` and `advance` calls.  A call is one statement in a transaction of its own, and PostgreSQL
serialises the statements that meet in a row or a unique key, so the order of the events is the order
of the commits.  A caller may see an exception although its transaction committed. -/

namespace FreeSdn.Remote

open FreeSdn.Lib
open FreeSdn.Audit (Uuid)

/-! ### The table -/

inductive Phase
  | reserved | dispatched | acknowledged | cancelled
  deriving DecidableEq

def Phase.rank : Phase → Nat
  | .reserved => 0
  | .dispatched | .cancelled => 1
  | .acknowledged => 2

/-- A row of `backup.remote_write_operations`. -/
structure Operation where
  operationId : Uuid
  backupId : Uuid
  organizationId : Uuid
  intentBytes : List UInt8
  intentSha256 : String
  payloadSize : Int
  phase : Phase
  sequence : Nat
  deriving DecidableEq

instance : Keyed Operation Uuid := ⟨Operation.operationId⟩

@[simp] theorem key_eq (r : Operation) : Keyed.key r = r.operationId := rfl

inductive Call
  | reserve (intent : Intent)
  | advance (intent : Intent) (action : String)
  deriving DecidableEq

namespace Call

def intent : Call → Intent
  | .reserve i | .advance i _ => i

def operationId (c : Call) : Uuid := c.intent.fields.operationId

end Call

/-- The phase and sequence that an action needs, and those that it leaves. -/
def transitions (action : String) : Option ((Phase × Nat) × (Phase × Nat)) :=
  if action = "dispatch" then some ((.reserved, 0), (.dispatched, 1))
  else if action = "acknowledge" then some ((.dispatched, 1), (.acknowledged, 2))
  else if action = "cancel_before_dispatch" then some ((.reserved, 0), (.cancelled, 1))
  else none

section
variable (sha256 : List UInt8 → String)

def Intent.row (i : Intent) (raw : List UInt8) : Operation where
  operationId := i.fields.operationId
  backupId := i.fields.backupId
  organizationId := i.fields.organizationId
  intentBytes := raw
  intentSha256 := sha256 raw
  payloadSize := i.fields.payloadSize
  phase := .reserved
  sequence := 0

/-- `INSERT ... ON CONFLICT DO NOTHING`: both identifiers are unique in the table. -/
def reserve (i : Intent) (rows : List Operation) : Option (List Operation) := do
  let raw ← i.encoded
  if rows.any fun r => r.operationId = i.fields.operationId ∨ r.backupId = i.fields.backupId then none
  else some (rows ++ [i.row sha256 raw])

/-- The condition of the update. -/
def Operation.agrees (r : Operation) (i : Intent) (raw : List UInt8) (before : Phase × Nat) : Bool :=
  r.operationId = i.fields.operationId && r.organizationId = i.fields.organizationId &&
    r.intentSha256 = sha256 raw && r.intentBytes = raw && r.phase = before.1 && r.sequence = before.2

/-- The row that the update leaves in the place of `r`. -/
def Operation.advanced (r : Operation) (i : Intent) (raw : List UInt8) (before after : Phase × Nat) :
    Operation :=
  if r.agrees sha256 i raw before then { r with phase := after.1, sequence := after.2 } else r

def advance (i : Intent) (action : String) (rows : List Operation) : Option (List Operation) := do
  let (before, after) ← transitions action
  let raw ← i.encoded
  if rows.any fun r => r.agrees sha256 i raw before then
    some (rows.map fun r => r.advanced sha256 i raw before after)
  else none

/-- The rows after the call's transaction, `none` where it raises before the commit. -/
def commit (rows : List Operation) : Call → Option (List Operation)
  | .reserve i => reserve sha256 i rows
  | .advance i action => advance sha256 i action rows

/-! ### Runs -/

/-- How a call that could commit ends: without a commit, with an exception after it, or normally. -/
inductive Ending
  | failed | raised | returned
  deriving DecidableEq

structure Event where
  call : Call
  ending : Ending

/-- What became of a call. -/
structure Entry where
  call : Call
  committed : Bool
  returned : Bool
  deriving DecidableEq

structure State where
  rows : List Operation
  log : List Entry

def State.empty : State := ⟨[], []⟩

def step (s : State) (e : Event) : Option State :=
  match e.ending, commit sha256 s.rows e.call with
  | .failed, _ | _, none => some { s with log := s.log ++ [⟨e.call, false, false⟩] }
  | ending, some rows => some ⟨rows, s.log ++ [⟨e.call, true, ending = .returned⟩]⟩

/-- What a transaction that commits does. -/
inductive Committed (rows : List Operation) : Call → List Operation → Prop
  | reserve {i : Intent} {raw : List UInt8} (encoded : i.encoded = some raw)
      (operation : ∀ r ∈ rows, r.operationId ≠ i.fields.operationId)
      (backup : ∀ r ∈ rows, r.backupId ≠ i.fields.backupId) :
      Committed rows (.reserve i) (rows ++ [i.row sha256 raw])
  | advance {i : Intent} {action : String} {raw : List UInt8} {before after : Phase × Nat}
      (transition : transitions action = some (before, after)) (encoded : i.encoded = some raw)
      {r : Operation} (mem : r ∈ rows) (agrees : r.agrees sha256 i raw before = true) :
      Committed rows (.advance i action) (rows.map fun r => r.advanced sha256 i raw before after)

end

section
variable {sha256 : List UInt8 → String} {s t : State} {rows rows' : List Operation} {c : Call}

theorem Committed.of_commit (h : commit sha256 rows c = some rows') : Committed sha256 rows c rows' := by
  cases c with
  | reserve i =>
    obtain ⟨raw, encoded, h⟩ := Option.bind_eq_some_iff.mp h
    split at h
    · exact absurd h (by simp)
    · next free =>
      obtain rfl := Option.some.inj h
      simp only [List.any_eq_true, decide_eq_true_eq, not_exists, not_and, not_or] at free
      exact .reserve encoded (fun r mem => (free r mem).1) fun r mem => (free r mem).2
  | advance i action =>
    obtain ⟨⟨before, after⟩, transition, h⟩ := Option.bind_eq_some_iff.mp h
    obtain ⟨raw, encoded, h⟩ := Option.bind_eq_some_iff.mp h
    split at h
    · next found =>
      obtain rfl := Option.some.inj h
      obtain ⟨r, mem, agrees⟩ := List.any_eq_true.mp found
      exact .advance transition encoded mem agrees
    · exact absurd h (by simp)

/-- A step that commits appends one entry for it; any other leaves the rows. -/
theorem step_cases {e : Event} (h : step sha256 s e = some t) :
    (Committed sha256 s.rows e.call t.rows ∧ t.log = s.log ++ [⟨e.call, true, e.ending = .returned⟩]) ∨
      (t.rows = s.rows ∧ t.log = s.log ++ [⟨e.call, false, false⟩]) := by
  obtain ⟨call, ending⟩ := e
  cases hc : commit sha256 s.rows call with
  | none =>
    cases ending <;> simp only [step, hc] at h <;> obtain rfl := Option.some.inj h <;>
      exact .inr ⟨rfl, rfl⟩
  | some rows =>
    have done := Committed.of_commit hc
    cases ending <;> simp only [step, hc] at h <;> obtain rfl := Option.some.inj h
    · exact .inr ⟨rfl, rfl⟩
    · exact .inl ⟨done, rfl⟩
    · exact .inl ⟨done, rfl⟩

/-! ### The invariant -/

/-- What the calls on one operation did, in the order of their commits. -/
inductive Effect
  | reserve
  | advance (action : String)
  deriving DecidableEq

def Call.effect : Call → Effect
  | .reserve _ => .reserve
  | .advance _ action => .advance action

def effects (log : List Entry) (op : Uuid) : List Effect :=
  (log.filter fun e => e.committed && decide (e.call.operationId = op)).map (·.call.effect)

/-- The effects that lead to a phase, none before the reservation. -/
def history : Option Phase → List Effect
  | none => []
  | some .reserved => [.reserve]
  | some .dispatched => [.reserve, .advance "dispatch"]
  | some .cancelled => [.reserve, .advance "cancel_before_dispatch"]
  | some .acknowledged => [.reserve, .advance "dispatch", .advance "acknowledge"]

/-- The row retains the intent. -/
structure Retains (sha256 : List UInt8 → String) (r : Operation) (i : Intent) : Prop where
  bytes : i.encoded = some r.intentBytes
  operation : r.operationId = i.fields.operationId
  backup : r.backupId = i.fields.backupId
  organization : r.organizationId = i.fields.organizationId
  digest : r.intentSha256 = sha256 r.intentBytes

/-- The intents that were reserved. -/
def reservations (log : List Entry) : List Intent :=
  (log.filter fun e => e.committed && e.call.effect = .reserve).map (·.call.intent)

structure Sound (sha256 : List UInt8 → String) (s : State) : Prop where
  unique : Table.Unique s.rows
  backups : (s.rows.map Operation.backupId).Nodup
  rank : ∀ r ∈ s.rows, r.sequence = r.phase.rank
  retained : List.Forall₂ (Retains sha256) s.rows (reservations s.log)
  returned : ∀ e ∈ s.log, e.returned = true → e.committed = true
  ordered : ∀ op, effects s.log op = history ((Table.lookup s.rows op).map Operation.phase)

theorem Sound.empty : Sound sha256 State.empty where
  unique := Table.unique_nil
  backups := by simp [State.empty]
  rank := by simp [State.empty]
  retained := .nil
  returned := by simp [State.empty]
  ordered := by simp [State.empty, effects, Table.lookup, history]

theorem effects_snoc (log : List Entry) (e : Entry) (op : Uuid) :
    effects (log ++ [e]) op = effects log op ++
      if e.committed ∧ e.call.operationId = op then [e.call.effect] else [] := by
  by_cases h : e.committed ∧ e.call.operationId = op
  · simp [effects, h]
  · have skipped : (e.committed && decide (e.call.operationId = op)) = false := by
      simpa using h
    simp [effects, h, skipped]

theorem reservations_snoc (log : List Entry) (e : Entry) :
    reservations (log ++ [e]) = reservations log ++
      if e.committed ∧ e.call.effect = .reserve then [e.call.intent] else [] := by
  by_cases h : e.committed ∧ e.call.effect = .reserve
  · simp [reservations, h]
  · have skipped : (e.committed && decide (e.call.effect = .reserve)) = false := by
      simpa using h
    simp [reservations, h, skipped]

theorem Sound.returned_snoc (sound : Sound sha256 s) {e : Entry} (h : e.returned = true → e.committed = true)
    (log : t.log = s.log ++ [e]) : ∀ e ∈ t.log, e.returned = true → e.committed = true := by
  rw [log]
  intro d mem
  rcases List.mem_append.mp mem with old | last
  · exact sound.returned d old
  · rw [List.mem_singleton.mp last]
    exact h

theorem Sound.uncommitted (sound : Sound sha256 s) (same : t.rows = s.rows)
    (log : t.log = s.log ++ [⟨c, false, false⟩]) : Sound sha256 t where
  unique := same ▸ sound.unique
  backups := same ▸ sound.backups
  rank := same ▸ sound.rank
  retained := by
    rw [same, log, reservations_snoc]
    simpa using sound.retained
  returned := sound.returned_snoc (by simp) log
  ordered op := by
    rw [same, log, effects_snoc]
    simpa using sound.ordered op

theorem lookup_append (rows : List Operation) (r : Operation) (op : Uuid) :
    Table.lookup (rows ++ [r]) op =
      (Table.lookup rows op).or (if r.operationId = op then some r else none) := by
  by_cases h : r.operationId = op <;> simp [Table.lookup, List.find?_append, h]

theorem Sound.reserved (sound : Sound sha256 s) {i : Intent} {raw : List UInt8}
    (encoded : i.encoded = some raw)
    (operation : ∀ r ∈ s.rows, r.operationId ≠ i.fields.operationId)
    (backup : ∀ r ∈ s.rows, r.backupId ≠ i.fields.backupId)
    (rows : t.rows = s.rows ++ [i.row sha256 raw]) {r : Bool}
    (log : t.log = s.log ++ [⟨.reserve i, true, r⟩]) : Sound sha256 t where
  unique := rows ▸ sound.unique.append operation
  backups := by
    rw [rows, List.map_append, List.nodup_append]
    refine ⟨sound.backups, by simp, ?_⟩
    rintro b old b' last rfl
    obtain ⟨q, mem, rfl⟩ := List.mem_map.mp old
    exact backup q mem (by simpa [Intent.row] using last)
  rank := by
    rw [rows]
    intro q mem
    rcases List.mem_append.mp mem with old | last
    · exact sound.rank q old
    · rw [List.mem_singleton.mp last]
      rfl
  retained := by
    rw [rows, log, reservations_snoc]
    refine List.rel_append sound.retained ?_
    exact .cons ⟨encoded, rfl, rfl, rfl, rfl⟩ .nil
  returned := sound.returned_snoc (fun _ => rfl) log
  ordered op := by
    rw [rows, log, effects_snoc, lookup_append, sound.ordered op]
    by_cases here : i.fields.operationId = op
    · subst here
      have fresh : Table.lookup s.rows i.fields.operationId = none := Table.lookup_none.mpr operation
      simp [fresh, history, Call.operationId, Call.intent, Call.effect, Intent.row]
    · simp [here, Call.operationId, Call.intent, Intent.row]

theorem agrees_iff {r : Operation} {i : Intent} {raw : List UInt8} {before : Phase × Nat} :
    r.agrees sha256 i raw before = true ↔
      r.operationId = i.fields.operationId ∧ r.organizationId = i.fields.organizationId ∧
        r.intentSha256 = sha256 raw ∧ r.intentBytes = raw ∧ r.phase = before.1 ∧
        r.sequence = before.2 := by
  simp [Operation.agrees, and_assoc]

/-- An action that the table lists continues the history of a phase, and counts its steps. -/
theorem transitions_history {action : String} {before after : Phase × Nat}
    (h : transitions action = some (before, after)) :
    history (some after.1) = history (some before.1) ++ [.advance action] ∧
      after.2 = after.1.rank := by
  unfold transitions at h
  split_ifs at h with first second third
  all_goals
    obtain ⟨rfl, rfl⟩ := Prod.mk.inj (Option.some.inj h)
    simp_all [history, Phase.rank]

theorem advanced_retains {r : Operation} {i j : Intent} {raw : List UInt8} {before after : Phase × Nat}
    (h : Retains sha256 r j) : Retains sha256 (r.advanced sha256 i raw before after) j := by
  unfold Operation.advanced
  split
  · exact ⟨h.bytes, h.operation, h.backup, h.organization, h.digest⟩
  · exact h

@[simp] theorem advanced_operationId (r : Operation) (i : Intent) (raw : List UInt8)
    (before after : Phase × Nat) :
    (r.advanced sha256 i raw before after).operationId = r.operationId := by
  unfold Operation.advanced
  split <;> rfl

@[simp] theorem advanced_backupId (r : Operation) (i : Intent) (raw : List UInt8)
    (before after : Phase × Nat) :
    (r.advanced sha256 i raw before after).backupId = r.backupId := by
  unfold Operation.advanced
  split <;> rfl

theorem Sound.advanced (sound : Sound sha256 s) {i : Intent} {action : String} {raw : List UInt8}
    {before after : Phase × Nat} (transition : transitions action = some (before, after))
    {r : Operation} (mem : r ∈ s.rows) (agrees : r.agrees sha256 i raw before = true)
    (rows : t.rows = s.rows.map fun r => r.advanced sha256 i raw before after) {b : Bool}
    (log : t.log = s.log ++ [⟨.advance i action, true, b⟩]) : Sound sha256 t where
  unique := rows ▸ sound.unique.map fun r _ => advanced_operationId r i raw before after
  backups := by
    rw [rows, List.map_map]
    simpa [Function.comp_def] using sound.backups
  rank := by
    rw [rows]
    intro q mem
    obtain ⟨q, old, rfl⟩ := List.mem_map.mp mem
    unfold Operation.advanced
    split
    · exact (transitions_history transition).2
    · exact sound.rank q old
  retained := by
    rw [rows, log, reservations_snoc, List.forall₂_map_left_iff]
    simpa [Call.effect] using sound.retained.imp fun _ _ => advanced_retains
  returned := sound.returned_snoc (fun _ => rfl) log
  ordered op := by
    rw [rows, log, effects_snoc, sound.ordered op,
      Table.lookup_map fun r _ => advanced_operationId r i raw before after]
    by_cases here : i.fields.operationId = op
    · subst here
      have facts := agrees_iff.mp agrees
      have found : Table.lookup s.rows i.fields.operationId = some r := facts.1 ▸ sound.unique.lookup mem
      have phase : (r.advanced sha256 i raw before after).phase = after.1 := by
        simp [Operation.advanced, agrees]
      simp [found, phase, facts.2.2.2.2.1, (transitions_history transition).1, Call.operationId,
        Call.intent, Call.effect]
    · have kept : ∀ q, Table.lookup s.rows op = some q →
          q.advanced sha256 i raw before after = q := by
        intro q found
        refine if_neg fun agrees => here ?_
        rw [← (agrees_iff.mp agrees).1]
        exact Table.lookup_key found
      have same : (Table.lookup s.rows op).map (fun r => r.advanced sha256 i raw before after) =
          Table.lookup s.rows op := by
        cases found : Table.lookup s.rows op with
        | none => rfl
        | some q => rw [Option.map_some, kept q found]
      simp [same, here, Call.operationId, Call.intent]

theorem Sound.step {e : Event} (sound : Sound sha256 s) (h : step sha256 s e = some t) :
    Sound sha256 t := by
  rcases step_cases h with ⟨done, log⟩ | ⟨same, log⟩
  · generalize ht : t.rows = rows' at done
    obtain ⟨call, ending⟩ := e
    cases done with
    | reserve encoded operation backup => exact sound.reserved encoded operation backup ht log
    | advance transition encoded mem agrees => exact sound.advanced transition mem agrees ht log
  · exact sound.uncommitted same log

theorem Sound.run {events : List Event} (sound : Sound sha256 s)
    (run : Runs (Remote.step sha256) Free s events t) : Sound sha256 t :=
  run.invariant sound fun _ _ _ _ next here => here.step next

/-! ### At most once -/

/-- The entry of a call whose transaction had the effect on the operation. -/
def Entry.takes (e : Entry) (f : Effect) (op : Uuid) : Bool :=
  e.committed && e.call.operationId = op && e.call.effect = f

/-- The entry of such a call that also returned normally. -/
def Entry.returns (e : Entry) (f : Effect) (op : Uuid) : Bool :=
  e.returned && e.call.operationId = op && e.call.effect = f

theorem countP_takes (log : List Entry) (f : Effect) (op : Uuid) :
    log.countP (·.takes f op) = (effects log op).count f := by
  rw [effects, List.count_eq_countP, List.countP_map, List.countP_filter]
  refine List.countP_congr fun e _ => ?_
  simp [Entry.takes, and_comm]

theorem Sound.returns_le (sound : Sound sha256 s) (f : Effect) (op : Uuid) :
    s.log.countP (·.returns f op) ≤ (effects s.log op).count f := by
  rw [← countP_takes]
  refine List.countP_mono_left fun e mem h => ?_
  simp only [Entry.returns, Entry.takes, Bool.and_eq_true] at h ⊢
  exact ⟨⟨sound.returned e mem h.1.1, h.1.2⟩, h.2⟩

theorem mem_effects {log : List Entry} {f : Effect} {op : Uuid} :
    f ∈ effects log op ↔ ∃ e ∈ log, e.takes f op = true := by
  simp [effects, Entry.takes, and_assoc]

theorem history_count (p : Option Phase) (f : Effect) : (history p).count f ≤ 1 := by
  refine List.nodup_iff_count_le_one.mp ?_ f
  rcases p with _ | (_ | _ | _ | _) <;> simp [history]

theorem history_exclusive (p : Option Phase) :
    ¬ (.advance "dispatch" ∈ history p ∧ .advance "cancel_before_dispatch" ∈ history p) := by
  rcases p with _ | (_ | _ | _ | _) <;> simp [history]

theorem history_acknowledge {p : Option Phase} {before after : List Effect}
    (h : history p = before ++ .advance "acknowledge" :: after) :
    .advance "dispatch" ∈ before := by
  have mem : .advance "acknowledge" ∈ history p := by simp [h]
  obtain rfl : p = some .acknowledged := by
    rcases p with _ | (_ | _ | _ | _) <;> simp [history] at mem ⊢
  rcases before with _ | ⟨a, _ | ⟨b, before⟩⟩ <;> simp [history] at h
  simp [← h.2.1]

theorem effects_append (log log' : List Entry) (op : Uuid) :
    effects (log ++ log') op = effects log op ++ effects log' op := by
  simp [effects]

theorem retained_backups {xs : List Intent} (h : List.Forall₂ (Retains sha256) rows xs) :
    xs.map (·.fields.backupId) = rows.map Operation.backupId := by
  induction h with
  | nil => rfl
  | cons first _ ih => rw [List.map_cons, List.map_cons, ih, first.backup]

theorem retained_mem {xs : List Intent} (h : List.Forall₂ (Retains sha256) rows xs) {r : Operation}
    (mem : r ∈ rows) : ∃ x, Retains sha256 r x := by
  induction h with
  | nil => simp at mem
  | cons first _ ih =>
    rcases List.mem_cons.mp mem with rfl | later
    · exact ⟨_, first⟩
    · exact ih later

/-- A backup identifier is reserved by one operation only. -/
theorem Sound.backup_once (sound : Sound sha256 s) (backup : Uuid) :
    s.log.countP (fun e => e.returned && e.call.effect = .reserve &&
      e.call.intent.fields.backupId = backup) ≤ 1 := by
  have nodup : ((reservations s.log).map (·.fields.backupId)).Nodup :=
    retained_backups sound.retained ▸ sound.backups
  refine le_trans ?_ (List.nodup_iff_count_le_one.mp nodup backup)
  rw [reservations, List.map_map, List.count_eq_countP, List.countP_map, List.countP_filter]
  refine List.countP_mono_left fun e mem h => ?_
  simp only [Bool.and_eq_true, decide_eq_true_eq] at h
  simp [h.1.2, h.2, sound.returned e mem h.1.1]

/-- The columns that no update changes. -/
def Operation.fixed (r : Operation) : Uuid × Uuid × Uuid × List UInt8 × String × Int :=
  (r.operationId, r.backupId, r.organizationId, r.intentBytes, r.intentSha256, r.payloadSize)

theorem advanced_fixed (r : Operation) (i : Intent) (raw : List UInt8) (before after : Phase × Nat) :
    (r.advanced sha256 i raw before after).fixed = r.fixed := by
  unfold Operation.advanced
  split <;> rfl

theorem step_fixed {e : Event} (h : step sha256 s e = some t) {r : Operation} (mem : r ∈ s.rows) :
    ∃ q ∈ t.rows, q.fixed = r.fixed := by
  rcases step_cases h with ⟨done, -⟩ | ⟨same, -⟩
  · generalize ht : t.rows = rows' at done
    obtain ⟨call, ending⟩ := e
    cases done with
    | reserve => exact ⟨r, List.mem_append_left _ mem, rfl⟩
    | advance => exact ⟨_, List.mem_map_of_mem mem, advanced_fixed _ _ _ _ _⟩
  · exact ⟨r, same ▸ mem, rfl⟩

theorem run_fixed {events : List Event} (run : Runs (step sha256) Free s events t) {r : Operation}
    (mem : r ∈ s.rows) : ∃ q ∈ t.rows, q.fixed = r.fixed := by
  refine run.invariant (P := fun t => ∃ q ∈ t.rows, q.fixed = r.fixed) ⟨r, mem, rfl⟩ ?_
  rintro t e u - next ⟨q, here, same⟩
  obtain ⟨q', here', same'⟩ := step_fixed next here
  exact ⟨q', here', same'.trans same⟩

/-- A call with another intent leaves the row as it is. -/
theorem step_other {e : Event} (h : step sha256 s e = some t) {r : Operation} (mem : r ∈ s.rows)
    {x : Intent} (bytes : x.encoded = some r.intentBytes) (other : e.call.intent ≠ x) : r ∈ t.rows := by
  rcases step_cases h with ⟨done, -⟩ | ⟨same, -⟩
  · generalize ht : t.rows = rows' at done
    obtain ⟨call, ending⟩ := e
    cases done with
    | reserve => exact List.mem_append_left _ mem
    | @advance i _ raw _ _ _ encoded =>
      refine List.mem_map.mpr ⟨r, mem, if_neg fun agrees => other ?_⟩
      have same : r.intentBytes = raw := (agrees_iff.mp agrees).2.2.2.1
      exact Intent.encoded_injective encoded (same ▸ bytes)
  · exact same ▸ mem

/-- Remote writes are journalled at most once, whatever the order of the calls and however each ends:
one reservation and one dispatch return per operation, a dispatch excludes a cancellation, an
acknowledgement follows a dispatch, and the retained intent is fixed and closed to any other. -/
theorem journalled_at_most_once {events : List Event}
    (run : Runs (step sha256) Free State.empty events s) :
    (∀ op, s.log.countP (·.returns .reserve op) ≤ 1) ∧
    (∀ backup, s.log.countP (fun e => e.returned && e.call.effect = .reserve &&
      e.call.intent.fields.backupId = backup) ≤ 1) ∧
    (∀ op, s.log.countP (·.returns (.advance "dispatch") op) ≤ 1) ∧
    (∀ op, ¬ ((∃ e ∈ s.log, e.takes (.advance "dispatch") op) ∧
      ∃ e ∈ s.log, e.takes (.advance "cancel_before_dispatch") op)) ∧
    (∀ before e after op, s.log = before ++ e :: after → e.takes (.advance "acknowledge") op →
      ∃ d ∈ before, d.takes (.advance "dispatch") op) ∧
    Table.Unique s.rows ∧
    (∀ r ∈ s.rows, r.sequence = r.phase.rank) ∧
    (∀ later t, Runs (step sha256) Free s later t → ∀ r ∈ s.rows, ∃ q ∈ t.rows, q.fixed = r.fixed) ∧
    ∀ r ∈ s.rows, ∃ x : Intent, x.encoded = some r.intentBytes ∧
      x.fields.operationId = r.operationId ∧
      ∀ e t, e.call.intent ≠ x → step sha256 s e = some t → r ∈ t.rows := by
  have sound := Sound.empty.run run
  have once (f : Effect) (op : Uuid) : s.log.countP (·.returns f op) ≤ 1 :=
    (sound.returns_le f op).trans (sound.ordered op ▸ history_count _ f)
  refine ⟨once .reserve, sound.backup_once, once (.advance "dispatch"), fun op => ?_,
    fun before e after op split takes => ?_, sound.unique, sound.rank,
    fun later t next r mem => run_fixed next mem, fun r mem => ?_⟩
  · rw [← mem_effects, ← mem_effects, sound.ordered op]
    exact history_exclusive _
  · have order := sound.ordered op
    have here : effects (e :: after) op = .advance "acknowledge" :: effects after op := by
      simp only [Entry.takes, Bool.and_eq_true, decide_eq_true_eq] at takes
      simp [effects, takes]
    rw [split, effects_append, here] at order
    exact mem_effects.mp (history_acknowledge order.symm)
  · obtain ⟨x, holds⟩ := retained_mem sound.retained mem
    exact ⟨x, holds.bytes, holds.operation.symm, fun e t other next => step_other next mem holds.bytes other⟩

end

/-! ### A lost acknowledgement -/

def operationA : Uuid := ⟨"11111111-1111-4111-8111-111111111111", rfl⟩
def backupA : Uuid := ⟨"22222222-2222-4222-8222-222222222222", rfl⟩
def organizationA : Uuid := ⟨"33333333-3333-4333-8333-333333333333", rfl⟩
def storageA : Uuid := ⟨"44444444-4444-4444-8444-444444444444", rfl⟩
def userA : Uuid := ⟨"55555555-5555-4555-8555-555555555555", rfl⟩

def intentA : Intent := .backup
  { operationId := operationA, backupId := backupA, organizationId := organizationA,
    storageLocationId := storageA, requestedBy := some userA, scheduleId := none,
    includeSecrets := false,
    finalLocation := "sftp://192.0.2.10:22/22222222-2222-4222-8222-222222222222_a.fsdn",
    temporaryLocation := "sftp://192.0.2.10:22/22222222-2222-4222-8222-222222222222_a.fsdn" ++
      ".partial-11111111111141118111111111111111",
    destinationBinding := "aaaaaaaaaaaaaaaaaaaaaaaaaaaaaaaaaaaaaaaaaaaaaaaaaaaaaaaaaaaaaaaa",
    payloadSha256 := "bbbbbbbbbbbbbbbbbbbbbbbbbbbbbbbbbbbbbbbbbbbbbbbbbbbbbbbbbbbbbbbb",
    payloadSize := 17 }

/-- SHA-256 at the bytes of `intentA`. -/
def digestA : List UInt8 → String :=
  fun _ => "f5fab8d1fbf45bb77ab731d3aca6c7b751c15c8d14ee7b5db00dbab2126c0a8d"

/-- Two coordinators dispatch; the first does not learn that it won. -/
def lostDispatch : List Event :=
  [⟨.reserve intentA, .returned⟩, ⟨.reserve intentA, .returned⟩, ⟨.advance intentA "dispatch", .raised⟩,
   ⟨.advance intentA "dispatch", .returned⟩, ⟨.advance intentA "acknowledge", .returned⟩]

theorem lostDispatch_once : ∃ s, Runs (step digestA) Free State.empty lostDispatch s ∧
    s.rows.map Operation.phase = [.acknowledged] ∧
    s.log.countP (·.returns .reserve operationA) ≤ 1 ∧
    s.log.map Entry.returned = [true, false, false, false, true] := by
  have ran : (exec (step digestA) Free State.empty lostDispatch).any (fun s =>
      decide (s.rows.map Operation.phase = [.acknowledged] ∧
        s.log.map Entry.returned = [true, false, false, false, true])) = true := by decide +kernel
  obtain ⟨s, ends, facts⟩ := (Option.any_eq_true _ _).mp ran
  obtain ⟨phases, returned⟩ := of_decide_eq_true facts
  have run := Runs.of_exec ends
  exact ⟨s, run, phases, (journalled_at_most_once run).1 operationA, returned⟩

end FreeSdn.Remote
