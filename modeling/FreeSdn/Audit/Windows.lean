import FreeSdn.Audit.Continuity
import Mathlib.Algebra.Order.BigOperators.Group.List

/-! The verification in windows: `validate_audit_chain` from `next_start_id` to `next_start_id`
against one call over the whole table. -/

namespace FreeSdn.Audit

open FreeSdn.Lib

variable {env : Env} {store : Store} {rows front back : List AuditLogRecord} {r : AuditLogRecord}
  {last : Option String} {size : Nat} {state : Option AuditState}

/-- The reports of the windows of `limit` rows from `startId` on; `none` when `fuel` calls do not
reach a report without `next_start_id`. -/
def followWindows (env : Env) (store : Store) (limit : Int) : Nat → Option Uuid → Option (List Report)
  | 0, _ => none
  | fuel + 1, startId =>
    let window := validateAuditChain env store startId none limit
    match window.nextStartId with
    | none => some [window]
    | some id => (followWindows env store limit fuel (some id)).map (window :: ·)

/-! ### The loop -/

/-- A row is accepted exactly when it links behind what the loop has seen. -/
theorem scanRow_iff {s : Scan} (chained : s.seenChained = s.lastSeen.isSome) :
    (scanRow env s r).2 = none ↔ RowOk env s.lastSeen r := by
  unfold scanRow RowOk
  dsimp only
  cases signed : r.rowHmac with
  | none =>
    dsimp only
    rw [chained]
    cases s.lastSeen <;> cases r.appendSequence <;> simp
  | some signature =>
    dsimp only
    by_cases linked : r.prevHash = s.lastSeen
    · simp only [linked, ne_eq, not_true_eq_false, if_false, true_and]
      rw [verifyBody, signed]
      dsimp only
      by_cases same : computeRowHmac env.mac r.prevHash r = signature
      · rw [linked] at same
        simp [raiseIf, linked, same]
      · rw [linked] at same
        simp [raiseIf, linked, same]
    · simp [linked]

/-- What the loop keeps behind a row that it accepts. -/
theorem scanRow_next {s : Scan} (chained : s.seenChained = s.lastSeen.isSome)
    (accepted : (scanRow env s r).2 = none) :
    (scanRow env s r).1.lastSeen = r.rowHmac ∧
      (scanRow env s r).1.seenChained = r.rowHmac.isSome ∧
        (scanRow env s r).1.checked = s.checked + 1 := by
  have ok := (scanRow_iff chained).mp accepted
  have verified := ok.verified
  unfold scanRow
  dsimp only
  cases signed : r.rowHmac with
  | none =>
    rw [RowOk, signed] at ok
    simp [chained, ok.1, ok.2]
  | some signature =>
    rw [RowOk, signed] at ok
    simp [ok.1, verified]

/-- The loop accepts exactly the rows that link, and counts them. -/
theorem scanRows_iff {s : Scan} (chained : s.seenChained = s.lastSeen.isSome) :
    ((scanRows env s rows).2 = none ↔ Verifies (RowOk env) s.lastSeen rows) ∧
      ((scanRows env s rows).2 = none → (scanRows env s rows).1.checked = s.checked + rows.length) := by
  induction rows generalizing s with
  | nil => simp [scanRows, Verifies]
  | cons r rows ih =>
    rw [scanRows, Verifies, ← scanRow_iff chained]
    rcases result : scanRow env s r with ⟨next, reason⟩
    cases reason with
    | some reason => simp
    | none =>
      have kept := @scanRow_next env r s chained (by rw [result])
      rw [result] at kept
      obtain ⟨seen, seenChained, checked⟩ := kept
      have rest := @ih next (by rw [seenChained, seen])
      dsimp only at seen checked ⊢
      rw [seen] at rest
      refine ⟨by simpa using rest.1, fun accepted => ?_⟩
      rw [rest.2 accepted, checked, List.length_cons]
      omega

theorem endHash_append : endHash last (front ++ back) = endHash (endHash last front) back := by
  induction front generalizing last with
  | nil => rfl
  | cons r front ih => exact ih

/-! ### A window -/

/-- Where a window starts: at the first row, or at one that it names. -/
inductive StartsAt (front back : List AuditLogRecord) : Option Uuid → Prop
  | genesis : front = [] → StartsAt front back none
  | row {first : AuditLogRecord} {rest : List AuditLogRecord} : back = first :: rest →
      StartsAt front back (some first.id)

/-- The metadata of a window whose predecessor is `previous`. -/
def windowMeta (store : Store) (previous : Option AuditLogRecord) : Meta :=
  { wholeMeta store with previous := previous }

theorem verifiedSnapshotState_window (previous : Option AuditLogRecord) :
    verifiedSnapshotState env (windowMeta store previous) =
      verifiedSnapshotState env (wholeMeta store) := rfl

section
variable (unique : Table.Unique store.rows) (order : chainOrder store.rows = front ++ back)
include unique order

theorem strict : (front ++ back).Pairwise fun a b => rowKey a < rowKey b := by
  rw [← order]
  exact orderBy_strict (distinct_rows unique) (List.Nodup.of_map _ unique)

theorem rowKey_front {first : AuditLogRecord} {rest : List AuditLogRecord}
    (here : back = first :: rest) (mem : r ∈ front) : rowKey r < rowKey first :=
  (List.pairwise_append.mp (strict unique order)).2.2 r mem first (by simp [here])

theorem rowKey_back {first : AuditLogRecord} {rest : List AuditLogRecord}
    (here : back = first :: rest) (mem : r ∈ back) : rowKey first ≤ rowKey r := by
  have sorted := (List.pairwise_append.mp (strict unique order)).2.1
  rw [here, List.pairwise_cons] at sorted
  rw [here] at mem
  rcases List.mem_cons.mp mem with rfl | later
  · exact le_refl _
  · exact (sorted.1 r later).le

/-- The rows that a window picks from. -/
theorem picked_window {startId : Option Uuid} (starts : StartsAt front back startId) :
    chainOrder (store.rows.filter (inWindow store.rows startId none)) = back := by
  rw [chainOrder, orderBy_filter_comm (distinct_rows unique), ← chainOrder, order]
  cases starts with
  | genesis empty =>
    rw [empty, List.nil_append]
    exact List.filter_eq_self.mpr fun r _ => by simp [inWindow]
  | @row first rest here =>
    have mem : first ∈ store.rows := mem_orderBy.mp
      (show first ∈ chainOrder store.rows by rw [order, here]; simp)
    have found : Table.lookup store.rows first.id = some first := unique.lookup mem
    rw [List.filter_append, List.filter_eq_nil_iff.mpr, List.filter_eq_self.mpr, List.nil_append]
    · intro r mem
      simpa [inWindow, found] using rowKey_back unique order here mem
    · intro r mem
      simpa [inWindow, found] using rowKey_front unique order here mem

/-- The row in front of a window. -/
theorem previous_window {first : AuditLogRecord} {rest : List AuditLogRecord}
    (here : back = first :: rest) :
    tailRow (store.rows.filter fun r => decide (rowKey r < rowKey first)) = front.getLast? := by
  rw [tailRow, chainOrder, orderBy_filter_comm (distinct_rows unique), ← chainOrder, order,
    List.filter_append, List.filter_eq_self.mpr, List.filter_eq_nil_iff.mpr, List.append_nil]
  · intro r mem
    simpa using rowKey_back unique order here mem
  · intro r mem
    simpa using rowKey_front unique order here mem

/-- What a window reads: the rows from its start on, and the row in front of them. -/
theorem snapshot_window {startId : Option Uuid} (starts : StartsAt front back startId)
    {taken : Meta × List AuditLogRecord} (fits : snapshot env store startId none size = .ok taken) :
    taken = (windowMeta store front.getLast?, back.take (size + 1)) := by
  have exists_ : (startId.isNone || (startId.bind (Table.lookup store.rows)).isSome) = true := by
    cases starts with
    | genesis => rfl
    | @row first rest here =>
      have mem : first ∈ store.rows := mem_orderBy.mp
        (show first ∈ chainOrder store.rows by rw [order, here]; simp)
      have found : Table.lookup store.rows first.id = some first := unique.lookup mem
      simp [found]
  have previous : ((back.take (size + 1)).head?.bind fun first =>
      tailRow (store.rows.filter fun r => decide (rowKey r < rowKey first))) = front.getLast? := by
    cases here : back with
    | nil =>
      cases starts with
      | genesis empty => rw [empty]; rfl
      | row other => rw [here] at other; cases other
    | cons first rest =>
      rw [List.take_succ_cons, List.head?_cons, Option.bind_some]
      exact previous_window unique order here
  unfold snapshot at fits
  dsimp only at fits
  obtain ⟨_, _, fits⟩ := bind_ok fits
  rw [picked_window unique order starts, previous, exists_] at fits
  simpa [windowMeta, wholeMeta] using (Except.ok.inj fits).symm

end

/-! ### One window against the links -/

/-- The hash that the first row links to. -/
def genesisHash (state : Option AuditState) : Option String := (state.bind (·.boundary)).bind (·.hash)

/-- The loop of a window starts with what the loop over the whole table holds there. -/
theorem scanStart_window (state : Option AuditState) (front : List AuditLogRecord) :
    (scanStart state front.getLast?).lastSeen = endHash (genesisHash state) front ∧
      (scanStart state front.getLast?).seenChained =
        (scanStart state front.getLast?).lastSeen.isSome ∧
      (scanStart state front.getLast?).checked = 0 := by
  rw [endHash_getLast]
  unfold scanStart genesisHash
  cases front.getLast? with
  | some row => simp [Scan.zero]
  | none => cases state.bind (·.boundary) <;> simp [Scan.zero]

/-- A window behind rows that link is valid exactly when its own rows do. -/
theorem validateRows_window {bounded : Bool}
    (linked : Verifies (RowOk env) (genesisHash state) front) :
    let report := validateRows env bounded size (windowMeta store front.getLast?) state
      (back.take (size + 1))
    (report.valid = true ↔
        Verifies (RowOk env) (endHash (genesisHash state) front) (back.take size)) ∧
      (report.valid = true → report.checked = (back.take size).length) ∧
      report.nextStartId = if report.valid then back[size]?.map (·.id) else none := by
  intro window
  obtain ⟨seen, chained, zero⟩ := scanStart_window state front
  have scan := @scanRows_iff env (back.take size) _ chained
  rw [seen, zero, Nat.zero_add] at scan
  have shorter : (back.take (size + 1)).take size = back.take size := by
    rw [List.take_take, min_eq_left (by omega)]
  have at_ : (back.take (size + 1))[size]? = back[size]? := by
    rw [List.getElem?_take, if_pos (by omega)]
  have equal : window = report bounded (decide (size < (back.take (size + 1)).length))
      (back[size]?.map (·.id)) state (scanRows env (scanStart state front.getLast?) (back.take size)).1
      ((scanRows env (scanStart state front.getLast?) (back.take size)).2.map
        fun b => (some b.1, b.2)) := by
    have body : ∀ row, front.getLast? = some row → verifyBody env.mac row = .ok () := by
      intro row found
      obtain ⟨before, ok⟩ := linked.row (List.mem_of_getLast? found)
      exact ok.verified
    simp only [window, validateRows, windowMeta, wholeMeta, Bool.not_true, Bool.false_eq_true,
      if_false, shorter, at_]
    cases found : front.getLast? with
    | none => rfl
    | some row =>
      rw [Option.map_some, body row found]
  rw [equal]
  simp only [report, Option.isNone_map, Option.isNone_iff_eq_none]
  exact ⟨scan.1, scan.2, trivial⟩

/-! ### All windows -/

/-- No window of the table reaches the bound of `snapshot`. -/
def FitsWindows (env : Env) (store : Store) : Prop :=
  ∀ startId size, ∃ taken, snapshot env store startId none size = .ok taken

/-- The report of a window that starts behind `front`. -/
theorem validateAuditChain_window (unique : Table.Unique store.rows)
    (order : chainOrder store.rows = front ++ back) (fits : FitsWindows env store) {limit : Int}
    (window : (max 1 (min limit 100000)).toNat = size) {startId : Option Uuid}
    (starts : StartsAt front back startId)
    (sealed_ : verifiedSnapshotState env (wholeMeta store) = .ok state) :
    validateAuditChain env store startId none limit =
      validateRows env startId.isSome size (windowMeta store front.getLast?) state
        (back.take (size + 1)) := by
  obtain ⟨taken, read⟩ := fits startId size
  have picked := snapshot_window unique order starts read
  unfold validateAuditChain
  dsimp only
  rw [window, read, picked]
  dsimp only
  rw [verifiedSnapshotState_window, sealed_]
  simp

theorem validateAuditChain_unsealed (fits : FitsWindows env store)
    (unique : Table.Unique store.rows) {limit : Int} {rejection : Rejection}
    (rejected : verifiedSnapshotState env (wholeMeta store) = .error rejection) :
    (validateAuditChain env store none none limit).valid = false ∧
      (validateAuditChain env store none none limit).nextStartId = none := by
  obtain ⟨taken, read⟩ := fits none (max 1 (min limit 100000)).toNat
  have picked := snapshot_window unique (List.nil_append (chainOrder store.rows)).symm
    (.genesis rfl) read
  unfold validateAuditChain
  dsimp only
  rw [read, picked]
  dsimp only
  rw [verifiedSnapshotState_window, rejected]
  simp [report]

/-- The windows behind rows that link are all valid exactly when the rest of the rows link too. -/
theorem followWindows_iff (unique : Table.Unique store.rows) (fits : FitsWindows env store)
    {limit : Int} (sealed_ : verifiedSnapshotState env (wholeMeta store) = .ok state) {fuel : Nat}
    {startId : Option Uuid} (order : chainOrder store.rows = front ++ back)
    (starts : StartsAt front back startId)
    (linked : Verifies (RowOk env) (genesisHash state) front) (enough : back.length < fuel) :
    ∃ windows, followWindows env store limit fuel startId = some windows ∧
      ((∀ w ∈ windows, w.valid = true) ↔
        Verifies (RowOk env) (endHash (genesisHash state) front) back) ∧
      ((∀ w ∈ windows, w.valid = true) → (windows.map (·.checked)).sum = back.length) := by
  generalize window : (max 1 (min limit 100000)).toNat = size
  have some_ : 1 ≤ size := by omega
  induction fuel generalizing front back startId with
  | zero => omega
  | succ fuel ih =>
    obtain ⟨valid, checked, next⟩ := @validateRows_window env store front back size state
      startId.isSome linked
    rw [← validateAuditChain_window unique order fits window starts sealed_] at valid checked next
    rw [followWindows]
    by_cases here : Verifies (RowOk env) (endHash (genesisHash state) front) (back.take size)
    · rw [if_pos (valid.mpr here)] at next
      have counted := checked (valid.mpr here)
      rw [next]
      by_cases more : size < back.length
      · -- The rest of the rows, behind those of this window.
        have split : back = back.take size ++ back.drop size := (List.take_append_drop size back).symm
        have behind : back.drop size = back[size] :: back.drop (size + 1) :=
          List.drop_eq_getElem_cons more
        have ordered : chainOrder store.rows = (front ++ back.take size) ++ back.drop size := by
          rw [order, List.append_assoc, List.take_append_drop]
        obtain ⟨windows, followed, all, sum⟩ := ih ordered (.row behind)
          (verifies_append.mpr ⟨linked, here⟩) (by rw [List.length_drop]; omega)
        rw [List.getElem?_eq_getElem more, Option.map_some]
        dsimp only
        rw [followed]
        refine ⟨_, rfl, ?_, ?_⟩
        · rw [List.forall_mem_cons, all, endHash_append]
          conv_rhs => rw [split]
          rw [verifies_append]
          exact and_congr_left' valid
        · intro each
          rw [List.forall_mem_cons] at each
          rw [List.map_cons, List.sum_cons, sum each.2, counted, List.length_take,
            List.length_drop]
          omega
      · have whole : back.take size = back := List.take_of_length_le (by omega)
        rw [whole] at valid counted
        rw [List.getElem?_eq_none (by omega), Option.map_none]
        exact ⟨_, rfl, by simpa using valid, fun _ => by simpa using counted⟩
    · have bad : (validateAuditChain env store startId none limit).valid ≠ true :=
        fun good => here (valid.mp good)
      rw [if_neg bad] at next
      rw [next]
      refine ⟨_, rfl, ?_, fun each => absurd (each _ (by simp)) bad⟩
      constructor
      · intro each
        exact absurd (each _ (by simp)) bad
      · intro all
        rw [← List.take_append_drop size back] at all
        exact absurd (verifies_append.mp all).1 here

/-- A table whose windows fit has fewer rows than the largest window. -/
theorem FitsWindows.few (fits : FitsWindows env store) (wide : ∀ r, 84 ≤ env.rowBytes r) :
    store.rows.length ≤ 100000 := by
  obtain ⟨taken, read⟩ := fits none 100000
  rw [snapshot_whole] at read
  obtain ⟨_, low, -⟩ := bind_ok read
  have sum := wide_sum wide ((chainOrder store.rows).take (100000 + 1))
  rw [List.length_take, chainOrder, length_orderBy] at sum
  unfold raiseIf at low
  split at low
  · cases low
  · next small =>
    rw [decide_eq_true_eq, not_lt, chainOrder] at small
    by_contra many
    rw [min_eq_left (by omega)] at sum
    omega

/-- Following `next_start_id` ends, finds the table valid exactly when one call over all of it does,
and then has checked every row once. -/
theorem windows_agree_with_whole (env : Env) (wide : ∀ r, 84 ≤ env.rowBytes r) (store : Store)
    (unique : Table.Unique store.rows) (fits : FitsWindows env store) (n limit : Int)
    (enough : store.rows.length ≤ limit) :
    ∃ windows, followWindows env store n (store.rows.length + 1) none = some windows ∧
      ((∀ w ∈ windows, w.valid = true) ↔
        (validateAuditChain env store none none limit).valid = true) ∧
      ((∀ w ∈ windows, w.valid = true) → (windows.map (·.checked)).sum = store.rows.length) := by
  have order : chainOrder store.rows = [] ++ chainOrder store.rows := rfl
  have length : (chainOrder store.rows).length = store.rows.length := by
    rw [chainOrder, length_orderBy]
  cases sealed_ : verifiedSnapshotState env (wholeMeta store) with
  | error rejection =>
    obtain ⟨invalid, last⟩ := @validateAuditChain_unsealed env store fits unique n rejection sealed_
    have whole := @validateAuditChain_unsealed env store fits unique limit rejection sealed_
    refine ⟨[validateAuditChain env store none none n], ?_, ?_, ?_⟩
    · rw [followWindows, last]
    · simp [invalid, whole.1]
    · simp [invalid]
  | ok state =>
    obtain ⟨windows, followed, all, sum⟩ := @followWindows_iff env store [] (chainOrder store.rows)
      state unique fits n sealed_ (store.rows.length + 1) none order (.genesis rfl) trivial (by omega)
    refine ⟨windows, followed, ?_, fun each => (sum each).trans length⟩
    have few := fits.few wide
    generalize window : (max 1 (min limit 100000)).toNat = size
    obtain ⟨valid, -, -⟩ := @validateRows_window env store [] (chainOrder store.rows) size state
      false trivial
    have single := validateAuditChain_window unique order fits window (.genesis rfl) sealed_
    rw [Option.isSome_none] at single
    rw [← single, List.take_of_length_le (by omega)] at valid
    exact all.trans valid.symm

theorem fitsWindows_plain
    (small : 1000 + store.rows.length + (store.rows.map plainEnv.rowBytes).sum ≤ 8 * 1024 * 1024) :
    FitsWindows plainEnv store := by
  intro startId size
  have fewer : (((chainOrder (store.rows.filter (inWindow store.rows startId none))).take
      (size + 1)).map plainEnv.rowBytes).sum ≤ (store.rows.map plainEnv.rowBytes).sum := by
    calc
      _ ≤ ((chainOrder (store.rows.filter (inWindow store.rows startId none))).map
          plainEnv.rowBytes).sum := ((List.take_sublist _ _).map _).sum_le_sum fun _ _ => Nat.zero_le _
      _ = ((store.rows.filter (inWindow store.rows startId none)).map plainEnv.rowBytes).sum :=
        ((orderBy_perm rowKey _).map plainEnv.rowBytes).sum_nat
      _ ≤ _ := (List.filter_sublist.map _).sum_le_sum fun _ _ => Nat.zero_le _
  refine ⟨_, ok_bind (raiseIf_false ?_ _)⟩
  apply decide_eq_false
  simp only [plainEnv, Int.toNat_natCast] at fewer small ⊢
  omega

theorem second_two : 2 < 60 := by decide

theorem second_three : 3 < 60 := by decide

/-- Two appends behind the legacy row. -/
def twoAppends : List Event :=
  [.persist plainDraft secondId (instant 2 second_two) 1 thirdId,
   .persist plainDraft thirdId (instant 3 second_three) 2 thirdId]

theorem twoAppends_windows : ∃ s, exec (step plainEnv) (ReadsBack plainEnv) (legacyStore none)
      twoAppends = some s ∧ s.rows.length = 3 ∧
    ∃ windows, followWindows plainEnv s 1 (s.rows.length + 1) none = some windows ∧
      ((∀ w ∈ windows, w.valid = true) ↔ (validateAuditChain plainEnv s none none 3).valid = true) ∧
      ((∀ w ∈ windows, w.valid = true) → (windows.map (·.checked)).sum = s.rows.length) := by
  have ran : (exec (step plainEnv) (ReadsBack plainEnv) (legacyStore none) twoAppends).any
      (fun s => decide (s.rows.length = 3 ∧ Table.Unique s.rows ∧
        1000 + s.rows.length + (s.rows.map plainEnv.rowBytes).sum ≤ 8 * 1024 * 1024)) = true := by
    decide +kernel
  obtain ⟨s, ends, facts⟩ := (Option.any_eq_true _ _).mp ran
  obtain ⟨three, unique, small⟩ := of_decide_eq_true facts
  exact ⟨s, ends, three, windows_agree_with_whole plainEnv plainEnv_lawful.wide s unique
    (fitsWindows_plain small) 1 3 (by rw [three]; decide)⟩

end FreeSdn.Audit
