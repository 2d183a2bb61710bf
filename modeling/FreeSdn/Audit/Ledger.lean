import FreeSdn.Audit.Chain

/-! What every append and every retention keeps: the links from the retention boundary to the tail,
the positions of both, and the counts.  From this follow that every new state is accepted, that the
stored one decodes, and that the verification of the whole table succeeds. -/

namespace FreeSdn.Audit

open FreeSdn.Lib

/-- What holds of a row behind a hash. -/
abbrev LinkLaw := Option String → AuditLogRecord → Prop

variable {env : Env} {store store' : Store} {rows : List AuditLogRecord} {state : AuditState}
  {r : AuditLogRecord} {last : Option String} {ok : LinkLaw}

/-! ### Links -/

/-- The rows, in this order, link behind the hash `last`. -/
def Verifies (ok : LinkLaw) : Option String → List AuditLogRecord → Prop
  | _, [] => True
  | last, r :: rs => ok last r ∧ Verifies ok r.rowHmac rs

/-- The hash behind the rows. -/
def endHash (last : Option String) : List AuditLogRecord → Option String
  | [] => last
  | r :: rs => endHash r.rowHmac rs

theorem verifies_append {a b : List AuditLogRecord} :
    Verifies ok last (a ++ b) ↔ Verifies ok last a ∧ Verifies ok (endHash last a) b := by
  induction a generalizing last with
  | nil => simp [Verifies, endHash]
  | cons r a ih => simp only [List.cons_append, Verifies, endHash, ih, and_assoc]

theorem endHash_getLast {a : List AuditLogRecord} :
    endHash last a = (a.getLast?.map (·.rowHmac)).getD last := by
  induction a generalizing last with
  | nil => rfl
  | cons r a ih =>
    rw [endHash, ih]
    cases a <;> simp [List.getLast?_cons]

theorem Verifies.row {a : List AuditLogRecord} (h : Verifies ok last a) (mem : r ∈ a) :
    ∃ before, ok before r := by
  induction a generalizing last with
  | nil => simp at mem
  | cons q a ih =>
    rcases List.mem_cons.mp mem with rfl | later
    · exact ⟨last, h.1⟩
    · exact ih h.2 later

/-- Signatures are digests, and a sequenced row has one. -/
structure LinkLaw.Signed (ok : LinkLaw) : Prop where
  sequenced : ∀ last r, ok last r → r.appendSequence ≠ none → r.rowHmac ≠ none
  hex : ∀ last r h, ok last r → r.rowHmac = some h → isHex64 h = true

/-! ### Rows in order -/

theorem distinct_rows (unique : Table.Unique rows) : Distinct rowKey rows :=
  fun _ ha _ hb same => unique.eq ha hb (rowKey_id same)

theorem nodup_rows (unique : Table.Unique rows) : rows.Nodup := List.Nodup.of_map _ unique

theorem mem_chainOrder : r ∈ chainOrder rows ↔ r ∈ rows := mem_orderBy

theorem tailRow_nil : tailRow [] = none := rfl

theorem tailRow_mem (h : tailRow rows = some r) : r ∈ rows :=
  mem_chainOrder.mp (List.mem_of_getLast? h)

theorem tailRow_none : tailRow rows = none ↔ rows = [] := by
  rw [tailRow, List.getLast?_eq_none_iff, ← List.length_eq_zero_iff, chainOrder, length_orderBy,
    List.length_eq_zero_iff]

/-- No row comes behind the tail. -/
theorem rowKey_le_tail {t : AuditLogRecord} (h : tailRow rows = some t) (mem : r ∈ rows) :
    rowKey r ≤ rowKey t := by
  obtain ⟨front, order⟩ := List.getLast?_eq_some_iff.mp h
  have sorted := orderBy_sorted rowKey rows
  have here := mem_chainOrder.mpr mem
  rw [order] at here
  rw [← chainOrder, order] at sorted
  rcases List.mem_append.mp here with before | at_end
  · exact (List.pairwise_append.mp sorted).2.2 r before t (by simp)
  · rw [List.mem_singleton.mp at_end]

theorem chainKey_lt {a : Option Nat} {n : Nat} (less : a.getD 0 < n) (s t : Stamp) (i j : Uuid) :
    chainKey a s i < chainKey (some n) t j := by
  rw [chainKey, chainKey, Prod.Lex.toLex_lt_toLex]
  exact .inl less

theorem sequence_le {a b : Option Nat} {s t : Stamp} {i j : Uuid}
    (le : chainKey a s i ≤ chainKey b t j) : a.getD 0 ≤ b.getD 0 := by
  rw [chainKey, chainKey, Prod.Lex.toLex_le_toLex] at le
  rcases le with less | ⟨same, -⟩
  · exact less.le
  · exact same.le

/-! ### The invariant -/

/-- The table and the state agree: the rows link from the boundary to the tail, and are counted. -/
structure Ledger (ok : LinkLaw) (rows : List AuditLogRecord) (state : AuditState) (sequence : Nat) :
    Prop where
  unique : Table.Unique rows
  full : rows.length ≤ maxTableRows
  links : Verifies ok (state.boundary.bind (·.hash)) (chainOrder rows)
  live : state.liveRows = rows.length
  legacy : state.legacyRows = legacyCount rows
  unsigned : unsignedCount rows ≤ state.unsignedHistoryRows ∧ state.unsignedHistoryRows ≤ maxRevision
  tail : state.tail = ((tailRow rows).map position).or state.boundary
  before : ∀ b, state.boundary = some b → ∀ r ∈ rows, positionKey b < rowKey r
  boundary : ∀ b, state.boundary = some b → PositionOk b ∧ b.sequence.getD 0 ≤ sequence
  numbered : ∀ r ∈ rows, ∀ n, r.appendSequence = some n → 1 ≤ n ∧ n ≤ sequence
  bounded : (sequence : Int) ≤ maxRevision

section

variable {sequence : Nat}

theorem Ledger.row (l : Ledger ok rows state sequence) (mem : r ∈ rows) :
    ∃ before, ok before r := l.links.row (mem_chainOrder.mpr mem)

theorem Ledger.position_ok (l : Ledger ok rows state sequence) (law : ok.Signed) (mem : r ∈ rows) :
    PositionOk (position r) := by
  obtain ⟨before, here⟩ := l.row mem
  have high := l.bounded
  refine ⟨?_, ?_, ?_⟩
  · intro n numbered
    obtain ⟨low, le⟩ := l.numbered r mem n numbered
    exact ⟨low, by omega⟩
  · exact law.sequenced before r here
  · exact fun h => law.hex before r h here

theorem legacyCount_le (rows : List AuditLogRecord) : legacyCount rows ≤ rows.length :=
  List.countP_le_length

theorem unsignedCount_le (rows : List AuditLogRecord) : unsignedCount rows ≤ rows.length :=
  List.countP_le_length

theorem Ledger.state_ok (l : Ledger ok rows state sequence) (law : ok.Signed) : StateOk state := by
  have full := l.full
  have counted := legacyCount_le rows
  refine ⟨?_, ?_, ?_, ?_, fun b here => (l.boundary b here).1, ?_⟩
  · rw [l.live, maxRevision]
    simp only [maxTableRows] at full
    omega
  · rw [l.legacy, l.live]
    omega
  · exact ⟨(Int.natCast_nonneg _).trans l.unsigned.1, l.unsigned.2⟩
  · intro p here
    rw [l.tail] at here
    cases found : tailRow rows with
    | none =>
      rw [found] at here
      exact (l.boundary p here).1
    | some t =>
      rw [found] at here
      obtain rfl := Option.some.inj here
      exact l.position_ok law (tailRow_mem found)
  · unfold EndsOk
    rw [l.tail, l.live]
    cases found : tailRow rows with
    | none =>
      obtain rfl := tailRow_none.mp found
      cases state.boundary <;> simp
    | some t =>
      have mem := tailRow_mem found
      have some_row : ((rows.length : Nat) : Int) ≠ 0 := by
        intro empty
        rw [Int.natCast_eq_zero, List.length_eq_zero_iff] at empty
        simp [empty] at mem
      cases edge : state.boundary with
      | none => simpa using some_row
      | some b => exact .inr ⟨some_row, l.before b edge t mem⟩

/-- The hash of the tail is the one behind all rows. -/
theorem Ledger.tail_hash (l : Ledger ok rows state sequence) :
    state.tail.bind (·.hash) = endHash (state.boundary.bind (·.hash)) (chainOrder rows) := by
  rw [endHash_getLast, l.tail, ← tailRow]
  cases tailRow rows <;> simp [position]

/-- No row and no boundary carries a sequence above the tail's. -/
theorem Ledger.below (l : Ledger ok rows state sequence) {n : Nat}
    (above : (state.tail.bind (·.sequence)).getD 0 < n) :
    (∀ r ∈ rows, r.appendSequence.getD 0 < n) ∧
      ∀ b, state.boundary = some b → b.sequence.getD 0 < n := by
  rw [l.tail] at above
  cases found : tailRow rows with
  | none =>
    obtain rfl := tailRow_none.mp found
    rw [found] at above
    refine ⟨by simp, fun b here => ?_⟩
    simpa [here] using above
  | some t =>
    rw [found] at above
    have top : t.appendSequence.getD 0 < n := above
    refine ⟨fun r mem => (sequence_le (rowKey_le_tail found mem)).trans_lt top, fun b here => ?_⟩
    exact (sequence_le (l.before b here t (tailRow_mem found)).le).trans_lt top

/-! ### Appending -/

/-- A signed row behind the tail. -/
theorem Ledger.append (l : Ledger ok rows state sequence) {n : Nat} {row : AuditLogRecord}
    (here : ok (state.tail.bind (·.hash)) row) (number : row.appendSequence = some n)
    (signed : row.rowHmac ≠ none) (above : (state.tail.bind (·.sequence)).getD 0 < n)
    (advance : sequence < n) (small : (n : Int) ≤ maxRevision) (free : ∀ q ∈ rows, q.id ≠ row.id)
    (room : rows.length < maxTableRows) :
    Ledger ok (rows ++ [row])
      { state with tail := some (position row), liveRows := state.liveRows + 1 } n := by
  have hmac : row.rowHmac.isNone = false := by simpa [Option.isSome_iff_ne_none] using signed
  obtain ⟨below, edge⟩ := l.below above
  have top : ∀ q ∈ rows, rowKey q < rowKey row := by
    intro q mem
    rw [rowKey, rowKey, number]
    exact chainKey_lt (below q mem) ..
  have order : chainOrder (rows ++ [row]) = chainOrder rows ++ [row] :=
    orderBy_snoc (distinct_rows l.unique) top
  have last : tailRow (rows ++ [row]) = some row := by simp [tailRow, order]
  refine ⟨?_, ?_, ?_, ?_, ?_, ?_, ?_, ?_, ?_, ?_, small⟩
  · exact l.unique.append free
  · rw [List.length_append, List.length_singleton]
    omega
  · rw [order]
    refine verifies_append.mpr ⟨l.links, ?_, trivial⟩
    rw [← l.tail_hash]
    exact here
  · simp [l.live]
  · simp [l.legacy, legacyCount, List.countP_append, number]
  · simpa [unsignedCount, List.countP_append, hmac] using l.unsigned
  · simp [last]
  · intro b here q mem
    rcases List.mem_append.mp mem with old | new
    · exact l.before b here q old
    · rw [List.mem_singleton.mp new, positionKey, rowKey, number]
      exact chainKey_lt (edge b here) ..
  · intro b here
    exact ⟨(l.boundary b here).1, (edge b here).le⟩
  · intro q mem m numbered
    rcases List.mem_append.mp mem with old | new
    · obtain ⟨low, le⟩ := l.numbered q old m numbered
      exact ⟨low, by omega⟩
    · rw [List.mem_singleton.mp new, number, Option.some.injEq] at numbered
      omega

/-! ### Retention -/

theorem choose_split {cutoff : Stamp} {saw : Bool} {chosen : List AuditLogRecord}
    {behind : Option String × Bool} {all : List AuditLogRecord}
    (h : choose env cutoff last saw all = .ok (chosen, behind)) : ∃ rest, all = chosen ++ rest := by
  induction all generalizing last saw chosen behind with
  | nil =>
    obtain ⟨rfl, -⟩ := Prod.mk.inj (Except.ok.inj h)
    exact ⟨[], rfl⟩
  | cons q all ih =>
    rw [choose] at h
    split at h
    · obtain ⟨rfl, -⟩ := Prod.mk.inj (Except.ok.inj h)
      exact ⟨q :: all, rfl⟩
    · obtain ⟨_, _, h⟩ := bind_ok h
      obtain ⟨_, _, h⟩ := bind_ok h
      obtain ⟨_, _, h⟩ := bind_ok h
      obtain ⟨⟨later, _⟩, found, h⟩ := bind_ok h
      obtain ⟨rfl, -⟩ := Prod.mk.inj (Except.ok.inj h)
      obtain ⟨rest, rfl⟩ := ih found
      exact ⟨rest, rfl⟩

theorem legacyCount_perm {a b : List AuditLogRecord} (perm : a.Perm b) :
    legacyCount a = legacyCount b := perm.countP_eq _

/-- A prefix of the chain is deleted, and its last row becomes the boundary. -/
theorem Ledger.prune (l : Ledger ok rows state sequence) {chosen rest : List AuditLogRecord}
    {b : AuditLogRecord} (law : ok.Signed)
    (order : chainOrder rows = chosen ++ rest) (final : chosen.getLast? = some b) :
    Ledger ok (rows.filter fun r => decide (r.id ∉ chosen.map (·.id)))
      { state with
        boundary := some (position b), liveRows := state.liveRows - chosen.length
        legacyRows := state.legacyRows - legacyCount chosen } sequence := by
  have perm : (chosen ++ rest).Perm rows := order ▸ orderBy_perm rowKey rows
  have unique : Table.Unique (chosen ++ rest) := (perm.map _).nodup_iff.mpr l.unique
  have member (q : AuditLogRecord) (mem : q ∈ chosen ++ rest) : q ∈ rows := perm.mem_iff.mp mem
  have final_mem : b ∈ chosen := List.mem_of_getLast? final
  have disjoint (q : AuditLogRecord) (mem : q ∈ rest) : q.id ∉ chosen.map (·.id) := by
    intro twice
    obtain ⟨c, hc, same⟩ := List.mem_map.mp twice
    rw [Table.Unique, List.map_append, List.nodup_append] at unique
    exact unique.2.2 c.id (List.mem_map_of_mem hc) q.id (List.mem_map_of_mem mem) same
  -- the chain that is left, and the rows that hold it
  have left : chainOrder (rows.filter fun r => decide (r.id ∉ chosen.map (·.id))) = rest := by
    refine orderBy_filter (distinct_rows l.unique) order ?_ ?_
    · intro q mem
      have inside : q.id ∈ chosen.map (·.id) := List.mem_map_of_mem mem
      simpa using inside
    · intro q mem
      simpa using disjoint q mem
  generalize kept : (rows.filter fun r => decide (r.id ∉ chosen.map (·.id))) = rows' at left ⊢
  have perm' : rest.Perm rows' := left ▸ orderBy_perm rowKey rows'
  have sub : ∀ q ∈ rows', q ∈ rows := fun q mem => (List.mem_filter.mp (kept ▸ mem)).1
  have sorted : (chosen ++ rest).Pairwise fun a b => rowKey a < rowKey b :=
    order ▸ orderBy_strict (distinct_rows l.unique) (nodup_rows l.unique)
  have size : rows.length = chosen.length + rows'.length := by
    rw [← perm.length_eq, List.length_append, perm'.length_eq]
  refine ⟨?_, ?_, ?_, ?_, ?_, ?_, ?_, ?_, ?_, ?_, l.bounded⟩
  · rw [← kept]
    exact List.Nodup.sublist (List.Sublist.map _ List.filter_sublist) l.unique
  · have full := l.full
    omega
  · have links := l.links
    rw [order, verifies_append, endHash_getLast, final] at links
    rw [left]
    exact links.2
  · simp only [l.live]
    omega
  · have split : legacyCount rows = legacyCount chosen + legacyCount rows' := by
      rw [← legacyCount_perm perm, ← legacyCount_perm perm', legacyCount, List.countP_append]
      rfl
    simp only [l.legacy]
    omega
  · have fewer : unsignedCount rows' ≤ unsignedCount rows := by
      rw [← kept]
      exact List.Sublist.countP_le List.filter_sublist
    obtain ⟨low, high⟩ := l.unsigned
    exact ⟨(Int.ofNat_le.mpr fewer).trans low, high⟩
  · -- the old tail is the last of the rest, or the new boundary
    have old : tailRow rows = (chosen ++ rest).getLast? := by rw [tailRow, order]
    rw [l.tail, old, tailRow, left]
    cases more : rest.getLast? with
    | none =>
      obtain rfl := List.getLast?_eq_none_iff.mp more
      simp [final]
    | some t => simp [List.getLast?_append, more]
  · intro c here q mem
    obtain rfl := Option.some.inj here
    rw [positionKey_position]
    exact (List.pairwise_append.mp sorted).2.2 b final_mem q (perm'.mem_iff.mpr mem)
  · intro c here
    obtain rfl := Option.some.inj here
    have old := member b (List.mem_append_left _ final_mem)
    refine ⟨l.position_ok law old, ?_⟩
    cases number : b.appendSequence with
    | none => simp [position, number]
    | some n => simpa [position, number] using (l.numbered b old n number).2
  · intro q mem
    exact l.numbered q (sub q mem)

end

/-! ### The stored state -/

/-- The anchor that `store_locked_state` writes. -/
def sealedAnchor (env : Env) (revision : Int) (state : AuditState) : Anchor :=
  ⟨revision, (stateJson state).dumps,
    some (env.mac (stateMessage revision (stateJson state).dumps))⟩

def unsealedAnchor : Anchor := ⟨0, initialState, none⟩

/-- The stored state fits the table: it is sealed over it, or not sealed yet. -/
inductive Kept (env : Env) (ok : LinkLaw) (store : Store) : Prop
  | unsealed : store.anchor = some unsealedAnchor →
      (∀ epoch, Ledger ok store.rows (capturedState store.rows epoch) store.lastSequence) →
      Kept env ok store
  | sealed {state : AuditState} {revision : Int} :
      store.anchor = some (sealedAnchor env revision state) → 1 ≤ revision →
      revision ≤ maxRevision → Ledger ok store.rows state store.lastSequence → Kept env ok store

theorem decode_unsealed (mac : List Char → String) :
    decodeState mac unsealedAnchor.revision unsealedAnchor.bytes unsealedAnchor.signature =
      .ok none := by
  have width : initialState.length = 31 := by decide
  unfold decodeState unsealedAnchor
  dsimp only
  rw [ok_bind (checkInteger_ok (by decide) (by decide)),
    ok_bind (raiseIf_false (by simp [width]) _), if_pos ⟨rfl, rfl, rfl⟩]

section

variable (law : ok.Signed) (hex : ∀ m, isHex64 (env.mac m) = true)
include hex

theorem decode_sealed {revision : Int} (valid : StateOk state) (low : 1 ≤ revision)
    (high : revision ≤ maxRevision) :
    decodeState env.mac (sealedAnchor env revision state).revision
      (sealedAnchor env revision state).bytes (sealedAnchor env revision state).signature =
      .ok (some state) :=
  decodeState_encoded valid hex low high

include law

theorem Kept.decodes (k : Kept env ok store) :
    ∃ anchor state, store.anchor = some anchor ∧
      decodeState env.mac anchor.revision anchor.bytes anchor.signature = .ok state := by
  cases k with
  | unsealed anchor => exact ⟨_, none, anchor, decode_unsealed env.mac⟩
  | sealed anchor low high ledger =>
    exact ⟨_, some _, anchor, decode_sealed hex (ledger.state_ok law) low high⟩

/-- The state that an operation loads fits the table. -/
theorem Kept.load (k : Kept env ok store) {epoch : Uuid} {revision : Int}
    (h : loadLockedState env store epoch = .ok (revision, state)) :
    Ledger ok store.rows state store.lastSequence ∧
      store.anchor.map (·.revision) = some revision ∧ 0 ≤ revision ∧ revision < maxRevision := by
  unfold loadLockedState at h
  cases k with
  | unsealed anchor ledger =>
    rw [anchor] at h ⊢
    dsimp only at h
    rw [ok_bind (decode_unsealed env.mac)] at h
    obtain ⟨_, _, h⟩ := bind_ok h
    obtain ⟨rfl, rfl⟩ := Prod.mk.inj (Except.ok.inj h)
    exact ⟨ledger epoch, rfl, by decide, by decide⟩
  | sealed anchor low high ledger =>
    rw [anchor] at h ⊢
    dsimp only at h
    rw [ok_bind (decode_sealed hex (ledger.state_ok law) low high)] at h
    obtain ⟨_, passed, h⟩ := bind_ok h
    obtain ⟨rfl, rfl⟩ := Prod.mk.inj (Except.ok.inj h)
    have unexhausted := raiseIf_ok passed
    simp only [sealedAnchor, beq_eq_false_iff_ne] at unexhausted ⊢
    exact ⟨ledger, rfl, by omega, by omega⟩

end

/-- `store_locked_state` accepts a valid state over the revision that was loaded. -/
theorem storeLockedState_ok {revision : Int} (valid : StateOk state) (low : 0 ≤ revision)
    (high : revision < maxRevision) (current : store.anchor.map (·.revision) = some revision) :
    storeLockedState env store revision state =
      .ok { store with anchor := some (sealedAnchor env (revision + 1) state) } := by
  unfold storeLockedState
  rw [ok_bind (encodeState_ok valid), ok_bind (signState_ok valid env.mac (by omega) (by omega)),
    ok_bind (raiseIf_false (by simp [current]) _)]
  rfl

/-! ### One operation -/

/-- What an append that reaches the seal has done. -/
structure Appended (env : Env) (ok : LinkLaw) (store store' : Store) (draft : Draft)
    (generated : Uuid) (now : Stamp) (n : Nat) (revision : Int) (state : AuditState) : Prop where
  anchor : store'.anchor = store.anchor
  current : store.anchor.map (·.revision) = some revision
  low : 0 ≤ revision
  high : revision < maxRevision
  /-- The row behind the tail of `before`, or another one at its position that links there, fits. -/
  row : ∃ record before, draft.complete env.lower generated now = .ok record ∧
    store'.rows = store.rows ++ [readBack env (signRow env before n record)] ∧
    ∀ row, position row = position (signRow env before n record) →
      ok (before.tail.bind (·.hash)) row → Ledger ok (store.rows ++ [row]) state n

section

variable (law : ok.Signed) (hex : ∀ m, isHex64 (env.mac m) = true)
include law hex

theorem appendRow_ok (k : Kept env ok store) {draft : Draft} {generated : Uuid} {now : Stamp}
    {n : Nat} {epoch : Uuid} {revision : Int} (advance : Advances store n)
    (h : appendRow env store draft generated now n epoch = .ok (store', revision, state)) :
    Appended env ok store store' draft generated now n revision state := by
  unfold appendRow at h
  obtain ⟨record, complete, h⟩ := bind_ok h
  obtain ⟨⟨rev, before⟩, loaded, h⟩ := bind_ok h
  obtain ⟨_, _, h⟩ := bind_ok h
  obtain ⟨_, grows, h⟩ := bind_ok h
  obtain ⟨_, fresh, h⟩ := bind_ok h
  obtain ⟨_, room, h⟩ := bind_ok h
  obtain ⟨rfl, rest⟩ := Prod.mk.inj (Except.ok.inj h)
  obtain ⟨rfl, rfl⟩ := Prod.mk.inj rest
  obtain ⟨ledger, current, low, high⟩ := k.load law hex loaded
  have above := raiseIf_ok grows
  have free := raiseIf_ok fresh
  have space := raiseIf_ok room
  simp only [decide_eq_false_iff_not, not_le] at above space
  have absent : Table.lookup store.rows (signRow env before n record).id = none := by
    simpa using free
  refine ⟨rfl, current, low, high, record, before, complete, rfl, ?_⟩
  intro row same here
  obtain ⟨id, number, -, signature⟩ := AuditPosition.mk.inj same
  have fits := ledger.append here number (by rw [signature]; simp [signRow]) above advance.1
    advance.2 (id ▸ Table.lookup_none.mp absent) space
  rw [same] at fits
  exact fits

theorem pruneRows_ok (k : Kept env ok store) {cutoff : Stamp} {batchSize : Int} {epoch : Uuid}
    {revision : Int}
    (h : pruneRows env store cutoff batchSize epoch = .ok (some (store', revision, state))) :
    store'.anchor = store.anchor ∧ store'.lastSequence = store.lastSequence ∧
      store.anchor.map (·.revision) = some revision ∧ 0 ≤ revision ∧ revision < maxRevision ∧
      Ledger ok store'.rows state store.lastSequence := by
  unfold pruneRows at h
  obtain ⟨_, _, h⟩ := bind_ok h
  obtain ⟨⟨rev, before⟩, loaded, h⟩ := bind_ok h
  obtain ⟨_, _, h⟩ := bind_ok h
  obtain ⟨_, _, h⟩ := bind_ok h
  obtain ⟨⟨chosen, expected, saw⟩, choice, h⟩ := bind_ok h
  dsimp only at h
  split at h
  · simp at h
  · rename_i some_chosen
    obtain ⟨_, _, h⟩ := bind_ok h
    obtain ⟨_, _, h⟩ := bind_ok h
    obtain ⟨_, _, h⟩ := bind_ok h
    obtain ⟨rfl, rest⟩ := Prod.mk.inj (Option.some.inj (Except.ok.inj h))
    obtain ⟨rfl, rfl⟩ := Prod.mk.inj rest
    obtain ⟨ledger, current, low, high⟩ := k.load law hex loaded
    obtain ⟨batch, split⟩ := choose_split choice
    -- the chosen rows are a prefix of the whole chain
    obtain ⟨rest, order⟩ : ∃ rest, chainOrder store.rows = chosen ++ rest := by
      have front := split ▸ List.take_prefix batchSize.toNat
        ((chainOrder store.rows).take (batchSize.toNat + 1))
      obtain ⟨rest, whole⟩ := ((List.prefix_append chosen batch).trans front).trans
        (List.take_prefix _ _)
      exact ⟨rest, whole.symm⟩
    obtain ⟨b, final⟩ := Option.isSome_iff_exists.mp (List.getLast?_isSome.mpr some_chosen)
    refine ⟨rfl, rfl, current, low, high, ?_⟩
    rw [final]
    exact ledger.prune law order final

end

theorem Ledger.later {sequence n : Nat} (l : Ledger ok rows state sequence) (le : sequence ≤ n)
    (small : (n : Int) ≤ maxRevision) : Ledger ok rows state n where
  __ := l
  boundary := fun b here => ⟨(l.boundary b here).1, (l.boundary b here).2.trans le⟩
  numbered := fun r mem m number =>
    ⟨(l.numbered r mem m number).1, (l.numbered r mem m number).2.trans le⟩
  bounded := small

theorem Kept.later (k : Kept env ok store) {n : Nat} (advance : Advances store n) :
    Kept env ok { store with lastSequence := n } := by
  cases k with
  | unsealed anchor ledger =>
    exact .unsealed anchor fun epoch => (ledger epoch).later advance.1.le advance.2
  | sealed anchor low high ledger =>
    exact .sealed anchor low high (ledger.later advance.1.le advance.2)

/-- The row of an append, as the database returns it, keeps the law of the links. -/
def Links (env : Env) (ok : LinkLaw) : Event → Prop
  | .persist draft generated now n _ => ∀ record before,
      draft.complete env.lower generated now = .ok record →
        ok (before.tail.bind (·.hash)) (readBack env (signRow env before n record))
  | .prune .. => True

section

variable (law : ok.Signed) (hex : ∀ m, isHex64 (env.mac m) = true)
include law hex

theorem Kept.persist (k : Kept env ok store) {draft : Draft} {generated : Uuid} {now : Stamp}
    {n : Nat} {epoch : Uuid} (advance : Advances store n)
    (links : Links env ok (.persist draft generated now n epoch))
    (h : persistRecord env store draft generated now n epoch = .ok store') :
    Kept env ok { store' with lastSequence := n } := by
  unfold persistRecord at h
  obtain ⟨⟨middle, revision, state⟩, appended, h⟩ := bind_ok h
  obtain ⟨anchor, current, low, high, record, before, complete, stored, fits⟩ :=
    appendRow_ok law hex k advance appended
  have ledger := fits (readBack env (signRow env before n record)) rfl
    (links record before complete)
  dsimp only at h
  rw [storeLockedState_ok (ledger.state_ok law) low high (anchor ▸ current)] at h
  obtain rfl := Except.ok.inj h
  exact .sealed rfl (by omega) (by omega) (by rw [stored]; exact ledger)

theorem Kept.prune (k : Kept env ok store) {cutoff : Stamp} {batchSize : Int} {epoch : Uuid}
    (h : prunePrefix env store cutoff batchSize epoch = .ok store') : Kept env ok store' := by
  unfold prunePrefix at h
  obtain ⟨pruned, done, h⟩ := bind_ok h
  split at h
  · obtain rfl := Except.ok.inj h
    exact k
  · rename_i middle revision state
    obtain ⟨anchor, number, current, low, high, ledger⟩ := pruneRows_ok law hex k done
    rw [storeLockedState_ok (ledger.state_ok law) low high (anchor ▸ current)] at h
    obtain rfl := Except.ok.inj h
    exact .sealed rfl (by omega) (by omega) (by rw [number]; exact ledger)

theorem Kept.step (k : Kept env ok store) {e : Event} (links : Links env ok e)
    (h : Audit.step env store e = some store') : Kept env ok store' := by
  cases e with
  | persist draft generated now n epoch =>
    simp only [Audit.step] at h
    split at h
    · rename_i advance
      obtain rfl := Option.some.inj h
      split
      · rename_i next done
        exact k.persist law hex advance links done
      · exact k.later advance
    · simp at h
  | prune cutoff batchSize epoch =>
    simp only [Audit.step] at h
    split at h
    · rename_i next done
      obtain rfl := Option.some.inj h
      exact k.prune law hex done
    · obtain rfl := Option.some.inj h
      exact k

end

/-- An unsealed table of legacy rows whose links verify. -/
structure LegacyTable (ok : LinkLaw) (store : Store) : Prop where
  anchor : store.anchor = some unsealedAnchor
  unique : Table.Unique store.rows
  full : store.rows.length ≤ maxTableRows
  legacy : ∀ r ∈ store.rows, r.appendSequence = none
  links : Verifies ok none (chainOrder store.rows)
  bounded : (store.lastSequence : Int) ≤ maxRevision

theorem LegacyTable.kept (h : LegacyTable ok store) : Kept env ok store := by
  refine .unsealed h.anchor fun epoch => ?_
  have counted := unsignedCount_le store.rows
  have full := h.full
  refine ⟨h.unique, h.full, h.links, rfl, rfl, ⟨le_refl _, ?_⟩, ?_, ?_, ?_, ?_, h.bounded⟩
  · simp only [capturedState, maxRevision, maxTableRows] at *
    omega
  · simp [capturedState]
  · simp [capturedState]
  · simp [capturedState]
  · intro r mem n number
    rw [h.legacy r mem] at number
    simp at number

end FreeSdn.Audit
