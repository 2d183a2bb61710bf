import FreeSdn.Lib.HashChain
import FreeSdn.Audit.Continuity

/-! The retained history is tamper evident: a table that verifies under the sealed state of another
one is that other one.  The seal holds the hash of the tail and the number of rows, and the hash of a
row commits to its body and to the hash before it. -/

namespace FreeSdn.Audit

open FreeSdn.Lib

variable {env : Env} {store store' : Store} {state : AuditState} {r : AuditLogRecord}
  {last : Option String}

/-! ### What the service wrote -/

/-- The row is what the database returns for a row that was linked and signed. -/
def SignedOk (env : Env) (last : Option String) (r : AuditLogRecord) : Prop :=
  r.prevHash = last ∧
    ∃ q, readBack env q = r ∧ r.rowHmac = some (computeRowHmac env.mac q.prevHash q)

theorem signedOk_signed (hex : ∀ m, isHex64 (env.mac m) = true) : LinkLaw.Signed (SignedOk env) := by
  constructor
  · rintro last r ⟨-, q, -, signed⟩ - unsigned
    rw [signed] at unsigned
    simp at unsigned
  · rintro last r h ⟨-, q, -, signed⟩ digest
    rw [signed] at digest
    exact Option.some.inj digest ▸ hex _

/-- Every append links and signs its row. -/
theorem links_signedOk (env : Env) (e : Event) : Links env (SignedOk env) e := by
  cases e with
  | persist draft generated now n epoch =>
    intro record before _
    exact ⟨rfl, signRow env before n record, rfl, rfl⟩
  | prune => trivial

/-- The empty table of a new deployment. -/
structure Genesis (store : Store) : Prop where
  rows : store.rows = []
  anchor : store.anchor = some unsealedAnchor
  bounded : (store.lastSequence : Int) ≤ maxRevision

theorem Genesis.legacy {ok : LinkLaw} (g : Genesis store) : LegacyTable ok store where
  anchor := g.anchor
  unique := by simp [g.rows, Table.Unique]
  full := by simp [g.rows]
  legacy := by simp [g.rows]
  links := by simp [g.rows, chainOrder, orderBy, Verifies]
  bounded := g.bounded

theorem signed_run {s₀ s : Store} {es : List Event} (hex : ∀ m, isHex64 (env.mac m) = true)
    (genesis : Genesis s₀) (run : Runs (step env) Free s₀ es s) : Kept env (SignedOk env) s :=
  run.invariant genesis.legacy.kept fun _ e _ _ next kept =>
    kept.step (signedOk_signed hex) hex (links_signedOk env e) next

/-- The digest in the row. -/
def storedDigest (r : AuditLogRecord) : String := r.rowHmac.getD ""

/-- The rows that the service wrote, as a chain of their digests. -/
theorem Verifies.linked {a : List AuditLogRecord} (h : Verifies (SignedOk env) last a) :
    Linked (·.prevHash) storedDigest last a := by
  induction a generalizing last with
  | nil => trivial
  | cons r a ih =>
    obtain ⟨⟨link, q, -, signed⟩, rest⟩ := h
    refine ⟨link, ?_⟩
    rw [storedDigest, signed]
    rw [signed] at rest
    exact ih rest

/-- A message that was signed for a row of the store, as far as the row tells. -/
def Signed (env : Env) (s : Store) (m : List Char) : Prop :=
  ∃ q, readBack env q ∈ s.rows ∧ q.rowHmac = some (env.mac m) ∧ m = message q.prevHash q

/-! ### What a verification found -/

/-- The digest that the row must carry. -/
def bodyDigest (env : Env) (r : AuditLogRecord) : String := computeRowHmac env.mac r.prevHash r

theorem scanRow_unchained {s s' : Scan} (h : scanRow env s r = (s', none)) :
    (r.rowHmac = none ∧ s'.unchained = s.unchained + 1) ∨
      (r.rowHmac = some (bodyDigest env r) ∧ r.prevHash = s.lastSeen ∧
        s'.unchained = s.unchained ∧ s'.lastSeen = some (bodyDigest env r)) := by
  unfold scanRow at h
  dsimp only at h
  split at h
  · rename_i unsigned
    split at h
    · simp at h
    · obtain ⟨rfl, -⟩ := Prod.mk.inj h
      exact .inl ⟨unsigned, rfl⟩
  · rename_i signature signed
    split at h
    · simp at h
    · rename_i linked
      split at h
      · simp at h
      · rename_i verified
        obtain ⟨rfl, -⟩ := Prod.mk.inj h
        unfold verifyBody at verified
        rw [signed] at verified
        have same : bodyDigest env r = signature := by
          simpa [bodyDigest] using raiseIf_ok verified
        exact .inr ⟨by rw [signed, same], by simpa using linked, rfl, by rw [same]⟩

theorem scanRows_unchained {a : List AuditLogRecord} {s s' : Scan}
    (h : scanRows env s a = (s', none)) : s.unchained ≤ s'.unchained ∧
      (s'.unchained = s.unchained → Linked (·.prevHash) (bodyDigest env) s.lastSeen a ∧
        ∀ r ∈ a, r.rowHmac = some (bodyDigest env r)) := by
  induction a generalizing s with
  | nil =>
    obtain ⟨rfl, -⟩ := Prod.mk.inj h
    exact ⟨le_refl _, fun _ => ⟨trivial, by simp⟩⟩
  | cons r a ih =>
    rw [scanRows] at h
    split at h
    · simp at h
    · rename_i middle first
      obtain ⟨grows, rest⟩ := ih h
      rcases scanRow_unchained first with ⟨-, more⟩ | ⟨signed, link, same, seen⟩
      · exact ⟨by omega, fun none => by omega⟩
      · refine ⟨by omega, fun none => ?_⟩
        obtain ⟨linked, all⟩ := rest (by omega)
        rw [seen] at linked
        refine ⟨⟨link, linked⟩, fun q mem => ?_⟩
        rcases List.mem_cons.mp mem with rfl | later
        · exact signed
        · exact all q later

/-- What an authenticated verification of the whole table has checked. -/
structure Authenticated (env : Env) (store : Store) (state : AuditState) : Prop where
  decodes : ∃ anchor, store.anchor = some anchor ∧
    decodeState env.mac anchor.revision anchor.bytes anchor.signature = .ok (some state)
  live : state.liveRows = store.rows.length
  tail : ∀ t, tailRow store.rows = some t → state.tail = some (position t)
  linked : Linked (·.prevHash) (bodyDigest env) (state.boundary.bind (·.hash))
    (chainOrder store.rows)
  signed : ∀ r ∈ store.rows, r.rowHmac = some (bodyDigest env r)

theorem plainly_inv {α : Type} {x : Except String α} {a : α} (h : plainly x = .ok a) : x = .ok a := by
  cases x with
  | error => simp [plainly] at h
  | ok b => simpa [plainly] using h

theorem verifiedSnapshotState_some
    (h : verifiedSnapshotState env (wholeMeta store) = .ok (some state)) :
    (∃ anchor, store.anchor = some anchor ∧
      decodeState env.mac anchor.revision anchor.bytes anchor.signature = .ok (some state)) ∧
    state.liveRows = store.rows.length ∧
    ∀ t, tailRow store.rows = some t → state.tail = some (position t) := by
  unfold verifiedSnapshotState at h
  split at h
  · simp at h
  · rename_i anchor found
    obtain ⟨decoded, decodes, h⟩ := bind_ok h
    cases decoded with
    | none => simp at h
    | some state' =>
      dsimp only at h
      obtain ⟨_, counts, h⟩ := bind_ok h
      obtain ⟨_, _, h⟩ := bind_ok h
      obtain ⟨_, ends, h⟩ := bind_ok h
      obtain rfl := Option.some.inj (Except.ok.inj h)
      have counted := raiseIf_ok (plainly_inv counts)
      simp only [wholeMeta, Bool.or_eq_false_iff, bne_eq_false_iff_eq] at counted
      refine ⟨⟨anchor, found, plainly_inv decodes⟩, counted.1.symm, fun t last => ?_⟩
      have live : state'.liveRows ≠ 0 := by
        have mem := tailRow_mem last
        rw [← counted.1]
        intro empty
        rw [Int.natCast_eq_zero, List.length_eq_zero_iff] at empty
        simp [empty] at mem
      have same : (wholeMeta store).tail = some t := last
      rw [checkSnapshotTail, if_pos live, same] at ends
      obtain ⟨_, here, -⟩ := bind_ok ends
      have equal := raiseIf_ok (plainly_inv here)
      exact (bne_eq_false_iff_eq.mp equal).symm

theorem report_authenticated {bounded more : Bool} {next : Option Uuid} {found : Option AuditState}
    {s : Scan} {broken : Option Rejection}
    (h : (report bounded more next found s broken).retainedHistoryAuthenticated = true) :
    broken = none ∧ more = false ∧ s.unchained = 0 ∧ ∃ state, found = some state := by
  simp only [report, Bool.and_eq_true, Bool.not_eq_true', Option.isNone_iff_eq_none,
    beq_iff_eq, Option.any_eq_true] at h
  obtain ⟨⟨⟨⟨⟨whole, last⟩, -⟩, -⟩, signed⟩, state, here, -⟩ := h
  exact ⟨whole, last, signed, state, here⟩

theorem validate_authenticated {limit : Int}
    (h : (validateAuditChain env store none none limit).retainedHistoryAuthenticated = true) :
    ∃ state, Authenticated env store state := by
  unfold validateAuditChain at h
  generalize (max 1 (min limit 100000)).toNat = size at h
  dsimp only at h
  rw [snapshot_whole] at h
  split at h
  · obtain ⟨broken, -⟩ := report_authenticated h
    simp at broken
  · rename_i info rows taken
    obtain ⟨_, _, same⟩ := bind_ok taken
    obtain ⟨rfl, rfl⟩ := Prod.mk.inj (Except.ok.inj same)
    split at h
    · obtain ⟨broken, -⟩ := report_authenticated h
      simp at broken
    · rename_i found verified
      unfold validateRows at h
      simp only [wholeMeta, Bool.not_true, Bool.false_eq_true, if_false, Option.map_none] at h
      obtain ⟨broken, more, signed, state, rfl⟩ := report_authenticated h
      simp only [Option.map_eq_none_iff] at broken
      -- the window holds every row
      have all : ((chainOrder store.rows).take (size + 1)).take size = chainOrder store.rows := by
        simp only [List.length_take, decide_eq_false_iff_not] at more
        rw [List.take_take]
        exact List.take_of_length_le (by omega)
      rw [all] at broken signed
      obtain ⟨decodes, live, tail⟩ := verifiedSnapshotState_some verified
      have scan : scanRows env (scanStart (some state) none) (chainOrder store.rows) =
          ((scanRows env (scanStart (some state) none) (chainOrder store.rows)).1, none) :=
        Prod.ext rfl broken
      have start : (scanStart (some state) none).unchained = 0 ∧
          (scanStart (some state) none).lastSeen = state.boundary.bind (·.hash) := by
        unfold scanStart
        cases edge : state.boundary <;> simp [Scan.zero, edge]
      obtain ⟨linked, rows⟩ := (scanRows_unchained scan).2 (by rw [signed, start.1])
      rw [start.2] at linked
      exact ⟨state, decodes, live, tail, linked, fun r mem => rows r (mem_chainOrder.mpr mem)⟩

/-! ### One table -/

theorem Kept.sealedState {anchor : Anchor} (k : Kept env (SignedOk env) store)
    (hex : ∀ m, isHex64 (env.mac m) = true) (found : store.anchor = some anchor)
    (decodes : decodeState env.mac anchor.revision anchor.bytes anchor.signature = .ok (some state)) :
    Ledger (SignedOk env) store.rows state store.lastSequence := by
  cases k with
  | unsealed initial =>
    obtain rfl := Option.some.inj (initial.symm.trans found)
    rw [decode_unsealed] at decodes
    simp at decodes
  | sealed written low high ledger =>
    obtain rfl := Option.some.inj (written.symm.trans found)
    rw [decode_sealed hex (ledger.state_ok (signedOk_signed hex)) low high] at decodes
    obtain rfl := Option.some.inj (Except.ok.inj decodes)
    exact ledger

/-- The entries of a chain name no hash, or a digest. -/
theorem linked_hashOrNone {digest : AuditLogRecord → String} {start : Option String}
    {a : List AuditLogRecord} (linked : Linked (·.prevHash) digest start a) (first : HashOrNone start)
    (digests : ∀ q ∈ a, isHex64 (digest q) = true) (mem : r ∈ a) : HashOrNone r.prevHash := by
  rcases linked_prev linked mem with edge | ⟨q, known, link⟩
  · rw [edge]
    exact first
  · intro h named
    rw [link, Option.some.injEq] at named
    exact named ▸ digests q known

/-- The start of the retained chain. -/
theorem Ledger.startHash {ok : LinkLaw} {sequence : Nat}
    (l : Ledger ok store.rows state sequence) : HashOrNone (state.boundary.bind (·.hash)) := by
  intro h named
  obtain ⟨b, edge, hash⟩ := Option.bind_eq_some_iff.mp named
  exact (l.boundary b edge).1.hex h hash

theorem lastDigest_tail {digest : AuditLogRecord → String} {start : Option String}
    {rows : List AuditLogRecord} (h : tailRow rows = some r) :
    lastDigest digest start (chainOrder rows) = some (digest r) := by
  rw [lastDigest, ← tailRow, h]
  rfl

/-- What the database returns reads back as it is. -/
theorem readBack_idem (idempotent : ∀ v, env.jsonb (env.jsonb v) = env.jsonb v) (r : AuditLogRecord) :
    readBack env (readBack env r) = readBack env r := by
  simp only [readBack, idempotent]

/-- A verified row with the digest of a written one is that row. -/
theorem written_eq {t : AuditLogRecord} (signs : SignedOk env last r)
    (reads : readBack env t = t) (signed : t.rowHmac = some (bodyDigest env t))
    (ht : HashOrNone t.prevHash) (hr : HashOrNone r.prevHash)
    (collisionFree : ∀ q, readBack env q = r → r.rowHmac = some (env.mac (message q.prevHash q)) →
      env.mac (message t.prevHash t) = env.mac (message q.prevHash q) →
      message t.prevHash t = message q.prevHash q)
    (same : bodyDigest env t = storedDigest r) : t = r := by
  obtain ⟨-, q, rfl, digest⟩ := signs
  rw [storedDigest, digest] at same
  have bodies := collisionFree q rfl digest same
  obtain ⟨link, body⟩ : t.prevHash = q.prevHash ∧ _ := message_injective ht hr bodies
  -- the columns, and the two hashes
  have columns := canonicalRow_injective body
  have hmac : q.rowHmac = t.rowHmac := by
    rw [signed, bodyDigest, computeRowHmac, bodies]
    exact digest
  rw [← link, hmac] at columns
  have whole : q = t := columns
  rw [whole]
  exact reads.symm

/-- Tamper evidence: any rows that verify as authenticated under the sealed state of a run from an
empty table are the rows of that run.  The digest of no verified row collides with one that the service
wrote for another body. -/
theorem retained_history_tamper_evident (env : Env) (lawful : env.Lawful)
    (idempotent : ∀ v, env.jsonb (env.jsonb v) = env.jsonb v) {s₀ s : Store} {es : List Event}
    (genesis : Genesis s₀) (run : Runs (step env) Free s₀ es s) (written : List AuditLogRecord)
    (collisionFree : ∀ t ∈ written.map (readBack env), ∀ m, Signed env s m →
      env.mac (message t.prevHash t) = env.mac m → message t.prevHash t = m)
    (limit : Int)
    (authenticated : (validateAuditChain env { s with rows := written.map (readBack env) } none none
      limit).retainedHistoryAuthenticated = true) :
    (written.map (readBack env)).Perm s.rows := by
  have kept := signed_run lawful.hex genesis run
  obtain ⟨state, checked⟩ := validate_authenticated authenticated
  have held : ∀ t ∈ written.map (readBack env), readBack env t = t := by
    intro t mem
    obtain ⟨q, -, rfl⟩ := List.mem_map.mp mem
    exact readBack_idem idempotent q
  generalize written.map (readBack env) = rows at *
  obtain ⟨anchor, found, decodes⟩ := checked.decodes
  have ledger := kept.sealedState lawful.hex found decodes
  have links := ledger.links.linked
  have first := ledger.startHash
  have size : rows.length = s.rows.length := by
    have counted := checked.live.symm.trans ledger.live
    exact Int.ofNat_inj.mp counted
  have agree : List.Forall₂ Eq (chainOrder rows) (chainOrder s.rows) := by
    refine linked_agree _ _ ?_ ?_ ?_ checked.linked links fun some_row => ?_
    · rw [chainOrder, chainOrder, length_orderBy, length_orderBy, size]
    · intro t ht r hr same
      obtain ⟨last, signs⟩ := ledger.links.row hr
      have mem := mem_chainOrder.mp ht
      refine written_eq signs (held t mem) (checked.signed t mem) ?_ ?_ ?_ same
      · exact linked_hashOrNone checked.linked first (fun q _ => lawful.hex _) ht
      · refine linked_hashOrNone links first (fun q known => ?_) hr
        obtain ⟨_, -, _, -, digest⟩ := ledger.links.row known
        rw [storedDigest, digest]
        exact lawful.hex _
      · intro q reads digest
        subst reads
        exact collisionFree t mem _ ⟨q, mem_chainOrder.mp hr, digest, rfl⟩
    · intro t _ r _ same
      rw [same]
    · -- both tails are at the sealed position
      obtain ⟨t, last⟩ := Option.ne_none_iff_exists'.mp
        (mt List.getLast?_eq_none_iff.mp some_row : tailRow rows ≠ none)
      obtain ⟨r, last'⟩ : ∃ r, tailRow s.rows = some r := by
        refine Option.ne_none_iff_exists'.mp fun empty => some_row ?_
        rw [tailRow_none.mp empty, List.length_nil, List.length_eq_zero_iff] at size
        rw [size]
        rfl
      have ends := (checked.tail t last).symm.trans ledger.tail
      rw [last', Option.map_some, Option.some_or, Option.some.injEq] at ends
      have hash : t.rowHmac = r.rowHmac := congrArg AuditPosition.hash ends
      rw [lastDigest_tail last, lastDigest_tail last', storedDigest, ← hash,
        checked.signed t (tailRow_mem last), Option.getD_some]
  rw [List.forall₂_eq_eq_eq] at agree
  have sorted := orderBy_perm rowKey s.rows
  rw [← chainOrder, ← agree] at sorted
  exact (orderBy_perm rowKey rows).symm.trans sorted

/-- A new deployment. -/
def emptyStore : Store := ⟨[], some unsealedAnchor, 0⟩

theorem emptyStore_genesis : Genesis emptyStore := ⟨rfl, rfl, by simp [emptyStore, maxRevision]⟩

def refusedDraft : Draft :=
  { plainDraft with details := plainDetails (some "refused"), status := some "failure" }

def changingDraft : Draft :=
  { plainDraft with changes := some [("name", .str "core"), ("ports", .arr [.int 1, .int 2])] }

def fourthId : Uuid := ⟨"00000000-0000-0000-0000-000000000004", rfl⟩

/-- HMAC-SHA256 under the key `key` on the texts that the run below signs. -/
def retainedDigest (m : List Char) : String :=
  match m[0]?, m[29]? with
  -- rows, behind the digest of the row before
  | some '{', _ => "369fce5fe2316aea5827ed754ec22a6fd957270dbc63c40ca66dfae49cf8dd64"
  | some '3', _ => "78a6cf2fd96c58bb6d854929aa894eafab583ffa23a52d8d1b0f09f3b201a251"
  | some '7', _ => "5fcafb4305110e9e3a5a5f7f20217a49019d395935075d7073f9013aa69c8332"
  -- states, by their revision
  | some 'f', some '1' => "2acd15f8d4b54ac5a85c46a427cc9c7e8b0b35c169a11add379a99653e01938c"
  | some 'f', some '2' => "0c12a5a5f3481931cc136704e7dca5aa83561ce866d5f6adc4165963e2c74eae"
  | some 'f', some '3' => "be9b7a7e5359f35b1b8bdf40eb7b0369032e5057c659ca23388405654402ec22"
  | some 'f', some '4' => "97347fd9ff916e66686543dc4112cc43d36077b79cc4ab834d4fb35c9aa9b7e8"
  | _, _ => checksum m

theorem retainedDigest_hex (m : List Char) : isHex64 (retainedDigest m) = true := by
  unfold retainedDigest
  split
  all_goals first | decide +kernel | exact checksum_hex m

def retainedEnv : Env := { plainEnv with mac := retainedDigest }

theorem retainedEnv_lawful : retainedEnv.Lawful := ⟨retainedDigest_hex, plainEnv_lawful.wide⟩

/-- Three rows are appended, and the first one is pruned. -/
def threeAppends : List Event :=
  [.persist plainDraft secondId (instant 2 (Nat.le_of_ble_eq_true rfl)) 1 thirdId,
   .persist refusedDraft thirdId (instant 3 (Nat.le_of_ble_eq_true rfl)) 2 thirdId,
   .persist changingDraft fourthId (instant 4 (Nat.le_of_ble_eq_true rfl)) 3 thirdId,
   .prune (instant 3 (Nat.le_of_ble_eq_true rfl)) 1000 thirdId]

/-- The two rows that are left are authenticated in either order, behind the boundary. -/
theorem threeAppends_evident :
    ∃ s t u, Runs (step retainedEnv) Free emptyStore threeAppends s ∧ s.rows = [t, u] ∧
      (validateAuditChain retainedEnv { s with rows := [u, t].map (readBack retainedEnv) } none none
        2).retainedHistoryAuthenticated = true ∧
      ([u, t].map (readBack retainedEnv)).Perm s.rows := by
  have ran : (exec (step retainedEnv) Free emptyStore threeAppends).any (fun s => decide (s.rows.length = 2 ∧
      (s.rows.map fun t => retainedEnv.mac (message t.prevHash t)).Nodup ∧
      (validateAuditChain retainedEnv { s with rows := s.rows.reverse } none none
        2).retainedHistoryAuthenticated = true)) = true := by
    decide +kernel
  obtain ⟨s, ends, facts⟩ := (Option.any_eq_true _ _).mp ran
  obtain ⟨two, distinct, authenticated⟩ := of_decide_eq_true facts
  obtain ⟨t, u, rows⟩ := List.length_eq_two.mp two
  have run := Runs.of_exec ends
  have turned : s.rows.reverse = [u, t].map (readBack retainedEnv) := by
    rw [rows]
    rfl
  rw [turned] at authenticated
  refine ⟨s, t, u, run, rows, authenticated, ?_⟩
  refine retained_history_tamper_evident retainedEnv retainedEnv_lawful (fun _ => rfl) emptyStore_genesis run
    [u, t] ?_ 2 authenticated
  -- the database returns what was written, so that the signed bodies are those of the two rows
  rintro v mem m ⟨q, written, -, rfl⟩ digests
  rw [← turned, List.mem_reverse] at mem
  exact congrArg (fun t => message t.prevHash t) (List.inj_on_of_nodup_map distinct mem written digests)

end FreeSdn.Audit
