import FreeSdn.Audit.Ledger

/-! The audit chain stays verifiable: after every run of appends and retention passes the verification
of the whole table succeeds, every new state is accepted, and the stored one decodes. -/

namespace FreeSdn.Audit

open FreeSdn.Lib

variable {env : Env} {store store' : Store} {rows : List AuditLogRecord} {state : AuditState}
  {r : AuditLogRecord} {last : Option String}

/-- What the service relies on: a digest of 64 hexadecimal digits, and the column names in the JSON
text of a row. -/
structure Env.Lawful (env : Env) : Prop where
  hex : ∀ m, isHex64 (env.mac m) = true
  wide : ∀ r, 84 ≤ env.rowBytes r

/-! ### Verified links -/

/-- The row is signed over its body and its link to `last`, or it is an unsigned legacy row in front
of every signature. -/
def RowOk (env : Env) (last : Option String) (r : AuditLogRecord) : Prop :=
  match r.rowHmac with
  | none => last = none ∧ r.appendSequence = none
  | some signature => r.prevHash = last ∧ computeRowHmac env.mac r.prevHash r = signature

theorem rowOk_signed (hex : ∀ m, isHex64 (env.mac m) = true) : LinkLaw.Signed (RowOk env) := by
  constructor
  · intro last r ok numbered unsigned
    rw [RowOk, unsigned] at ok
    exact numbered ok.2
  · intro last r h ok signed
    rw [RowOk, signed] at ok
    exact ok.2 ▸ hex _

theorem RowOk.verified (h : RowOk env last r) : verifyBody env.mac r = .ok () := by
  cases signed : r.rowHmac with
  | none =>
    rw [RowOk, signed] at h
    rw [verifyBody, signed]
    exact raiseIf_false (by simp [h.2]) _
  | some signature =>
    rw [RowOk, signed] at h
    rw [verifyBody, signed]
    exact raiseIf_false (by simp [h.2]) _

/-- The record of an append reads back from the database as it was signed. -/
def ReadsBack (env : Env) (_ : Store) : Event → Prop
  | .persist draft generated now _ _ =>
    match draft.complete env.lower generated now with
    | .ok record => readBack env record = record
    | .error _ => True
  | .prune .. => True

instance (store : Store) (e : Event) : Decidable (ReadsBack env store e) :=
  match e with
  | .persist draft generated now _ _ =>
    match h : draft.complete env.lower generated now with
    | .ok record => decidable_of_iff (readBack env record = record) (by simp [ReadsBack, h])
    | .error _ => .isTrue (by simp [ReadsBack, h])
  | .prune .. => .isTrue trivial

theorem readBack_signRow {n : Nat} {record : AuditLogRecord} (h : readBack env record = record) :
    readBack env (signRow env state n record) = signRow env state n record := by
  obtain ⟨id, stamp, details, actorType, status, changes, previous, new, tags, extra, _, _, _⟩ := record
  simp only [readBack, AuditLogRecord.mk.injEq, true_and, and_true] at h
  simp only [readBack, signRow, h]

/-- A row that reads back as written links to the tail. -/
theorem ReadsBack.links {e : Event} (reads : ReadsBack env store e) : Links env (RowOk env) e := by
  cases e with
  | persist draft generated now n epoch =>
    intro record before complete
    simp only [ReadsBack, complete] at reads
    rw [readBack_signRow reads]
    exact ⟨rfl, rfl⟩
  | prune => trivial

/-! ### The loop of the verification -/

/-- The loop accepts the rows that link. -/
theorem scanRows_verifies {a : List AuditLogRecord} (h : Verifies (RowOk env) last a) {s : Scan}
    (seen : s.lastSeen = last) (chained : s.seenChained = last.isSome) :
    (scanRows env s a).2 = none := by
  induction a generalizing last s with
  | nil => rfl
  | cons q a ih =>
    obtain ⟨ok, rest⟩ := h
    have verified := ok.verified
    rw [scanRows, scanRow]
    dsimp only
    cases signed : q.rowHmac with
    | none =>
      rw [RowOk, signed] at ok
      obtain ⟨rfl, legacy⟩ := ok
      rw [signed] at rest
      simp only [chained, legacy, Option.isSome_none, Bool.or_self, Bool.false_eq_true, if_false]
      exact ih rest seen rfl
    | some signature =>
      rw [RowOk, signed] at ok
      rw [signed] at rest
      simp only [seen, ok.1, ne_eq, not_true_eq_false, if_false, verified]
      exact ih rest rfl rfl

/-! ### The snapshot of the whole table -/

/-- Without bounds every row is in the window. -/
theorem filter_inWindow (rows : List AuditLogRecord) :
    rows.filter (inWindow rows none none) = rows := by
  refine List.filter_eq_self.mpr fun r _ => ?_
  simp [inWindow]

/-- No row precedes the first of the chain. -/
theorem previous_none {size : Nat} :
    (((chainOrder rows).take (size + 1)).head?.bind fun first =>
      tailRow (rows.filter fun r => decide (rowKey r < rowKey first))) = none := by
  cases order : chainOrder rows with
  | nil => rfl
  | cons first rest =>
    rw [List.take_succ_cons, List.head?_cons, Option.bind_some]
    have nothing : rows.filter (fun r => decide (rowKey r < rowKey first)) = [] := by
      refine List.filter_eq_nil_iff.mpr fun r mem => ?_
      simpa using orderBy_head order mem
    rw [nothing, tailRow_nil]

/-- The metadata of a snapshot without bounds. -/
def wholeMeta (store : Store) : Meta :=
  { anchor := store.anchor, liveRows := store.rows.length, legacyRows := legacyCount store.rows
    unsignedRows := unsignedCount store.rows, tail := tailRow store.rows, previous := none
    startExists := true, endExists := true, boundsOrdered := true }

theorem snapshot_whole {size : Nat} :
    snapshot env store none none size =
      (raiseIf (8 * 1024 * 1024 <
          env.metaBytes (wholeMeta store) +
            (((chainOrder store.rows).take (size + 1)).map env.rowBytes).sum)
        "Audit verification window exceeds 8 MiB; choose a smaller window" >>= fun _ =>
      .ok (wholeMeta store, (chainOrder store.rows).take (size + 1))) := by
  unfold snapshot
  dsimp only
  rw [filter_inWindow, previous_none]
  rfl

theorem plainly_ok {α : Type} {x : Except String α} {a : α} (h : x = .ok a) :
    plainly x = .ok a := by
  rw [h]
  rfl

theorem Ledger.snapshotTail {sequence : Nat} (l : Ledger (RowOk env) store.rows state sequence) :
    checkSnapshotTail env (wholeMeta store) state = .ok () := by
  unfold checkSnapshotTail wholeMeta
  dsimp only
  rw [l.live, l.tail]
  cases found : tailRow store.rows with
  | none =>
    obtain empty := tailRow_none.mp found
    rw [if_neg (by simp [empty])]
    exact plainly_ok (raiseIf_false (by simp) _)
  | some t =>
    have mem := tailRow_mem found
    have live : ((store.rows.length : Nat) : Int) ≠ 0 := by
      intro empty
      rw [Int.natCast_eq_zero, List.length_eq_zero_iff] at empty
      simp [empty] at mem
    obtain ⟨_, row⟩ := l.row mem
    rw [if_pos live]
    dsimp only
    rw [ok_bind (plainly_ok (raiseIf_false (by simp) _)), row.verified]

theorem Kept.snapshotState (k : Kept env (RowOk env) store)
    (hex : ∀ m, isHex64 (env.mac m) = true) :
    ∃ state, verifiedSnapshotState env (wholeMeta store) = .ok state ∧
      Verifies (RowOk env) ((state.bind (·.boundary)).bind (·.hash)) (chainOrder store.rows) := by
  have same : (wholeMeta store).anchor = store.anchor := rfl
  unfold verifiedSnapshotState
  cases k with
  | unsealed anchor ledger =>
    rw [same, anchor]
    dsimp only
    rw [ok_bind (plainly_ok (decode_unsealed env.mac))]
    exact ⟨none, rfl, (ledger ⟨"00000000-0000-0000-0000-000000000000", by decide⟩).links⟩
  | sealed anchor low high ledger =>
    rename_i state revision
    have counted : decide (state.unsignedHistoryRows < (wholeMeta store).unsignedRows) = false :=
      decide_eq_false (not_lt.mpr ledger.unsigned.1)
    have valid := ledger.state_ok (rowOk_signed hex)
    refine ⟨some state, ?_, ledger.links⟩
    rw [same, anchor]
    dsimp only
    rw [ok_bind (plainly_ok (decode_sealed hex valid low high))]
    dsimp only
    rw [ok_bind (plainly_ok (raiseIf_false (by simp [wholeMeta, ledger.live, ledger.legacy]) _)),
      ok_bind (plainly_ok (raiseIf_false counted _)), ok_bind ledger.snapshotTail]

/-- The snapshot of the whole table fits the limit of `snapshot`. -/
def FitsWindow (env : Env) (store : Store) : Prop :=
  env.metaBytes (wholeMeta store) + (store.rows.map env.rowBytes).sum ≤ 8 * 1024 * 1024

theorem wide_sum (wide : ∀ r, 84 ≤ env.rowBytes r) (a : List AuditLogRecord) :
    84 * a.length ≤ (a.map env.rowBytes).sum := by
  induction a with
  | nil => simp
  | cons r a ih =>
    have first := wide r
    simp only [List.length_cons, List.map_cons, List.sum_cons]
    omega

/-- A table that fits has fewer rows than the largest window. -/
theorem FitsWindow.few (fits : FitsWindow env store) (lawful : env.Lawful) :
    store.rows.length ≤ 100000 := by
  have sum := wide_sum lawful.wide store.rows
  unfold FitsWindow at fits
  omega

/-- The verification of the whole table, in a window that holds it. -/
theorem Kept.valid (k : Kept env (RowOk env) store) (lawful : env.Lawful)
    (fits : FitsWindow env store) {limit : Int} (enough : store.rows.length ≤ limit) :
    (validateAuditChain env store none none limit).valid = true ∧
      (validateAuditChain env store none none limit).complete = true := by
  generalize window : (max 1 (min limit 100000)).toNat = size
  have few := fits.few lawful
  have wide : (chainOrder store.rows).length ≤ size := by
    rw [chainOrder, length_orderBy]
    omega
  have all : (chainOrder store.rows).take (size + 1) = chainOrder store.rows :=
    List.take_of_length_le (by omega)
  have whole : (chainOrder store.rows).take size = chainOrder store.rows :=
    List.take_of_length_le wide
  have bytes : env.metaBytes (wholeMeta store) + ((chainOrder store.rows).map env.rowBytes).sum ≤
      8 * 1024 * 1024 := by
    rw [chainOrder, ((orderBy_perm rowKey store.rows).map env.rowBytes).sum_nat]
    exact fits
  obtain ⟨state, verified, links⟩ := k.snapshotState lawful.hex
  have taken : snapshot env store none none size = .ok (wholeMeta store, chainOrder store.rows) := by
    rw [snapshot_whole, all]
    exact ok_bind (raiseIf_false (by simpa using bytes) _)
  have start : (scanStart state none).lastSeen = (state.bind (·.boundary)).bind (·.hash) ∧
      (scanStart state none).seenChained =
        ((state.bind (·.boundary)).bind (·.hash)).isSome := by
    unfold scanStart
    cases state.bind (·.boundary) <;> simp [Scan.zero]
  have scanned := scanRows_verifies links start.1 start.2
  unfold validateAuditChain
  dsimp only
  rw [window, taken]
  dsimp only
  rw [verified]
  unfold validateRows wholeMeta
  simp only [Bool.not_true, Bool.false_eq_true, if_false, Option.map_none, whole, scanned]
  constructor
  · rfl
  · have no_more : decide (size < (chainOrder store.rows).length) = false := by simpa using wide
    simp [report, no_more]

/-! ### Every run -/

theorem kept_run {s₀ s : Store} {es : List Event} (lawful : env.Lawful)
    (legacy : LegacyTable (RowOk env) s₀) (run : Runs (step env) (ReadsBack env) s₀ es s) :
    Kept env (RowOk env) s :=
  run.invariant legacy.kept fun _ _ _ reads next kept =>
    kept.step (rowOk_signed lawful.hex) lawful.hex reads.links next

/-- From a table of legacy rows whose links verify, every run of appends and retention passes keeps
the stored state decodable, never has a new state rejected, and leaves a table that verifies as a
whole where it fits the window of a verification. -/
theorem audit_chain_stays_verifiable (env : Env) (lawful : env.Lawful) {s₀ s : Store}
    {es : List Event} (legacy : LegacyTable (RowOk env) s₀)
    (run : Runs (step env) (ReadsBack env) s₀ es s) :
    (∃ anchor state, s.anchor = some anchor ∧
      decodeState env.mac anchor.revision anchor.bytes anchor.signature = .ok state) ∧
    (∀ draft generated now n epoch store' revision state, Advances s n →
      appendRow env s draft generated now n epoch = .ok (store', revision, state) →
        ∃ next, storeLockedState env store' revision state = .ok next) ∧
    (∀ cutoff batchSize epoch store' revision state,
      pruneRows env s cutoff batchSize epoch = .ok (some (store', revision, state)) →
        ∃ next, storeLockedState env store' revision state = .ok next) ∧
    (FitsWindow env s → ∀ limit : Int, s.rows.length ≤ limit →
      (validateAuditChain env s none none limit).valid = true ∧
        (validateAuditChain env s none none limit).complete = true) := by
  have kept := kept_run lawful legacy run
  have law := rowOk_signed lawful.hex
  refine ⟨kept.decodes law lawful.hex, ?_, ?_, fun fits limit => kept.valid lawful fits⟩
  · intro draft generated now n epoch store' revision state advance appended
    obtain ⟨anchor, current, low, high, record, before, -, -, fits⟩ :=
      appendRow_ok law lawful.hex kept advance appended
    -- the new state is valid even if the database returns another body than the signed one
    have ledger := fits (signRow env before n record) rfl ⟨rfl, rfl⟩
    exact ⟨_, storeLockedState_ok (ledger.state_ok law) low high (anchor ▸ current)⟩
  · intro cutoff batchSize epoch store' revision state pruned
    obtain ⟨anchor, -, current, low, high, ledger⟩ := pruneRows_ok law lawful.hex kept pruned
    exact ⟨_, storeLockedState_ok (ledger.state_ok law) low high (anchor ▸ current)⟩

/-! ### Small runs -/

/-- The digest of the texts that no run below signs. -/
def checksum (m : List Char) : String :=
  String.ofList (pad 64 (m.foldl (fun h c => (h * 131 + c.toNat) % 10 ^ 64) 7))

theorem checksum_hex (m : List Char) : isHex64 (checksum m) = true := by
  simp only [isHex64, checksum, String.toList_ofList, length_pad, beq_self_eq_true, Bool.true_and]
  refine List.all_eq_true.mpr fun c mem => ?_
  simp [isHexLower, pad_digits 64 _ c mem]

/-- HMAC-SHA256 under the key `key` on the texts that runs from the table below sign: it tells them apart by
a few of their characters. -/
def keyedDigest (m : List Char) : String :=
  match m[0]? with
  -- rows, behind the digest of the row before
  | some '{' => "369fce5fe2316aea5827ed754ec22a6fd957270dbc63c40ca66dfae49cf8dd64"
  | some '3' => "b5aa46e018384eafc55618f5be9fd0cf23fd537e9a03c0e231043e2fc33c39e2"
  -- states, by their revision and whether there is a boundary
  | some 'f' =>
    match m[29]?, m[43]? with
    | some '1', _ => "83dbc047f8390e70d85ec70319701158266ead88300c53c767d7c7a85a3fc6a0"
    | _, some 'n' => "1137f06ee0090417307ee606d3e5d85065f314e4aecd5420a70fd235f2e166b0"
    | _, _ => "debc0dd27ff9b6e879f75a2c9e0173b7b11ac9558ef99142555e2b57f59f9e8d"
  | _ => checksum m

theorem keyedDigest_hex (m : List Char) : isHex64 (keyedDigest m) = true := by
  unfold keyedDigest
  repeat' split
  all_goals first | decide +kernel | exact checksum_hex m

/-- A database whose `JSONB` columns return what was written. -/
def plainEnv : Env where
  mac := keyedDigest
  lower := id
  jsonb := id
  rowBytes := fun r => 84 + (canonicalRow r).dumps.length
  metaBytes := fun info => 1000 + info.liveRows.toNat

theorem plainEnv_lawful : plainEnv.Lawful := ⟨keyedDigest_hex, fun r => by simp [plainEnv]⟩

def instant (second : Nat) (h : second < 60) : Stamp :=
  ⟨⟨2026, 1, 1, 0, 0, second, 0⟩, by simp [Fields.valid, daysIn, h]⟩

def plainDetails (errorMessage : Option String) : Details :=
  { action := "login", resourceType := "user", resourceId := none, resourceName := none
    actorId := none, actorName := none, actorEmail := none, organizationId := none, siteId := none
    ipAddress := none, userAgent := none, sessionId := none, requestId := none
    requestMethod := none, requestPath := none, responseCode := none, responseTimeMs := none
    errorMessage := errorMessage }

def firstId : Uuid := ⟨"00000000-0000-0000-0000-000000000001", by decide⟩

def secondId : Uuid := ⟨"00000000-0000-0000-0000-000000000002", by decide⟩

def thirdId : Uuid := ⟨"00000000-0000-0000-0000-000000000003", by decide⟩

/-- A row from before the chain. -/
def unsignedRow (errorMessage : Option String) : AuditLogRecord :=
  { id := firstId, timestamp := instant 1 (by decide), details := plainDetails errorMessage
    actorType := "user", status := "success", changes := .null, previousState := .null
    newState := .null, tags := .arr [], extraMetadata := .obj [], appendSequence := none
    prevHash := none, rowHmac := none }

def legacyStore (errorMessage : Option String) : Store :=
  ⟨[unsignedRow errorMessage], some unsealedAnchor, 0⟩

theorem legacyStore_legacy (errorMessage : Option String) :
    LegacyTable (RowOk env) (legacyStore errorMessage) where
  anchor := rfl
  unique := by simp [Table.Unique, legacyStore]
  full := by simp [legacyStore, maxTableRows]
  legacy := by simp [legacyStore, unsignedRow]
  links := ⟨⟨rfl, rfl⟩, trivial⟩
  bounded := by simp [legacyStore, maxRevision]

def plainDraft : Draft :=
  { isTransient := true, id := none, timestamp := .missing, details := plainDetails none
    actorType := none, status := none, changes := none, previousState := none, newState := none
    tags := none, extraMetadata := none, appendSequence := none, prevHash := none, rowHmac := none }

instance (store : Store) : Decidable (FitsWindow env store) :=
  inferInstanceAs (Decidable (_ ≤ _))

/-- An append, and the retention of the legacy row. -/
def appendAndPrune : List Event :=
  [.persist plainDraft secondId (instant 2 (by decide)) 1 thirdId,
   .prune (instant 2 (by decide)) 1000 thirdId]

/-- The appended row is left, behind the boundary. -/
theorem appendAndPrune_verifies :
    ∃ s, Runs (step plainEnv) (ReadsBack plainEnv) (legacyStore none) appendAndPrune s ∧
      s.rows.length = 1 ∧ (validateAuditChain plainEnv s none none 1).valid = true ∧
      (validateAuditChain plainEnv s none none 1).complete = true := by
  have ran : (exec (step plainEnv) (ReadsBack plainEnv) (legacyStore none) appendAndPrune).any
      (fun s => decide (s.rows.length = 1 ∧ FitsWindow plainEnv s)) = true := by decide +kernel
  obtain ⟨s, ends, facts⟩ := (Option.any_eq_true _ _).mp ran
  obtain ⟨one, fits⟩ := of_decide_eq_true facts
  have run := Runs.of_exec ends
  obtain ⟨-, -, -, valid⟩ := audit_chain_stays_verifiable plainEnv plainEnv_lawful
    (legacyStore_legacy none) run
  exact ⟨s, run, one, valid fits 1 (by rw [one]; decide)⟩

theorem dumpsMembers_length {k : String} {v : Json} {ms : Dict} (mem : (k, v) ∈ ms) :
    v.dumps.length ≤ (Json.dumpsMembers ms).length := by
  induction ms with
  | nil => simp at mem
  | cons m ms ih =>
    obtain ⟨l, u⟩ := m
    simp only [Json.dumpsMembers, List.length_cons, List.length_append]
    rcases List.mem_cons.mp mem with here | later
    · obtain ⟨-, rfl⟩ := Prod.mk.inj here
      omega
    · have rest := ih later
      omega

/-- The text of an error message is part of the text of its row. -/
theorem errorMessage_length (m : String) :
    m.toList.length ≤ (canonicalRow (unsignedRow (some m))).dumps.length := by
  have quoted := Json.length_le_closeString m.toList
  generalize row : unsignedRow (some m) = r
  obtain ⟨k, v, ms, body, later⟩ : ∃ k v ms, canonicalRow r = .obj ((k, v) :: ms) ∧
      ("error_message", Json.str m) ∈ ms := by
    subst row
    exact ⟨_, _, _, rfl, List.mem_append_right _ (List.mem_cons_of_mem _ List.mem_cons_self)⟩
  have inside := dumpsMembers_length later
  rw [Json.dumps, List.length_cons] at inside
  rw [body, Json.dumps]
  simp only [List.length_cons, List.length_append]
  omega

/-- A verification of one row whose error message is longer than the window fails. -/
theorem oversized_row_not_verified :
    ¬ ∀ s₀ s es, LegacyTable (RowOk plainEnv) s₀ → Runs (step plainEnv) (ReadsBack plainEnv) s₀ es s →
      ∀ limit : Int, s.rows.length ≤ limit →
        (validateAuditChain plainEnv s none none limit).valid = true ∧
          (validateAuditChain plainEnv s none none limit).complete = true := by
  intro claim
  obtain ⟨m, long⟩ : ∃ m : String, m.toList.length = 9000000 :=
    ⟨String.ofList (List.replicate 9000000 'a'), by
      rw [String.toList_ofList, List.length_replicate]⟩
  have valid := (claim _ _ [] (legacyStore_legacy (some m)) (.nil _) 1 (by simp [legacyStore])).1
  have order : chainOrder [unsignedRow (some m)] = [unsignedRow (some m)] := rfl
  have bytes := errorMessage_length m
  have refused : snapshot plainEnv (legacyStore (some m)) none none 1 =
      .error "Audit verification window exceeds 8 MiB; choose a smaller window" := by
    rw [snapshot_whole, legacyStore, order, raiseIf, if_pos ?_]
    · rfl
    · simp only [plainEnv, List.take_succ_cons, List.take_nil, List.map_cons, List.map_nil,
        List.sum_cons, List.sum_nil, decide_eq_true_eq]
      omega
  simp [validateAuditChain, refused, report] at valid

end FreeSdn.Audit
