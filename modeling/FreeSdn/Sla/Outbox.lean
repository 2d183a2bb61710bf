import FreeSdn.Sla.Delivery

/-! At most one notice of an outbox row reaches the server: a claim is spent by the one call that it
allows, a row that is being sent is never claimed again, and only an answer that excludes acceptance
opens the row again. -/

namespace FreeSdn.Sla

open FreeSdn.Lib

variable {s s' : World} {e : Event} {es : List Event} {x : Uuid} {rows rows' : List SLAReportDelivery}
  {r r' : SLAReportDelivery} {notice : Option Notice}

/-! ### What a transaction does to a row -/

/-- The row is not claimed: it stays as it is, leaves the queue or goes back to it, or its claim is
quarantined. -/
structure Quiet (r r' : SLAReportDelivery) : Prop where
  id : r'.id = r.id
  attempts : r'.attempts = r.attempts
  state : r'.state = r.state ∨ (r.isOpen = true ∧ r'.state ≠ .sending) ∨
    (r.state = .sending ∧ r'.state = .unknown)

/-- The row is claimed for one more attempt. -/
structure Claims (r r' : SLAReportDelivery) : Prop where
  id : r'.id = r.id
  wasOpen : r.isOpen = true
  left : r.attempts < 5
  attempts : r'.attempts = r.attempts + 1
  state : r'.state = .sending

theorem Quiet.refl (r : SLAReportDelivery) : Quiet r r := ⟨rfl, rfl, .inl rfl⟩

theorem isOpen_iff : r.isOpen = true ↔ r.state = .pending ∨ r.state = .retry := by
  simp [SLAReportDelivery.isOpen]

theorem Quiet.isOpen (q : Quiet r r') (h : r'.isOpen = true) : r.isOpen = true := by
  rcases q.state with same | ⟨before, -⟩ | ⟨-, unknown⟩
  · rw [isOpen_iff] at h ⊢
    rwa [same] at h
  · exact before
  · rw [isOpen_iff, unknown] at h
    simp at h

theorem Quiet.trans {a b c : SLAReportDelivery} (p : Quiet a b) (q : Quiet b c) : Quiet a c := by
  refine ⟨q.id.trans p.id, q.attempts.trans p.attempts, ?_⟩
  rcases q.state with same | ⟨wasOpen, left⟩ | ⟨sending, unknown⟩
  · rw [same]
    exact p.state
  · exact .inr (.inl ⟨p.isOpen wasOpen, left⟩)
  · rcases p.state with same | ⟨-, idle⟩ | ⟨-, closed⟩
    · exact .inr (.inr ⟨same ▸ sending, unknown⟩)
    · exact absurd sending idle
    · rw [sending] at closed
      simp at closed

theorem Quiet.claims {a b c : SLAReportDelivery} (p : Quiet a b) (q : Claims b c) : Claims a c :=
  ⟨q.id.trans p.id, p.isOpen q.wasOpen, p.attempts ▸ q.left, p.attempts ▸ q.attempts, q.state⟩

theorem quiet_markUnknown {code : String} (h : r.isOpen = true ∨ r.state = .sending) :
    Quiet r (markUnknown code r) := by
  refine ⟨rfl, rfl, .inr ?_⟩
  rcases h with wasOpen | sending
  · exact .inl ⟨wasOpen, by simp [markUnknown]⟩
  · exact .inr ⟨sending, rfl⟩

theorem quiet_cancel (r : SLAReportDelivery) : Quiet r (cancelDelivery r) := by
  unfold cancelDelivery
  split
  · rename_i wasOpen
    exact ⟨rfl, rfl, .inr (.inl ⟨wasOpen, by simp⟩)⟩
  · exact .refl r

/-- The row that is due is claimed, or not, and only a claim hands out a notice. -/
theorem claimDelivery_spec {now : Time} {review : Review} (wasOpen : r.isOpen = true) :
    (Quiet r (claimDelivery now review r).1 ∧ (claimDelivery now review r).2 = none) ∨
      (Claims r (claimDelivery now review r).1 ∧
        ∃ n, (claimDelivery now review r).2 = some n ∧ n.deliveryId = r.id) := by
  unfold claimDelivery
  split
  · exact .inl ⟨⟨rfl, rfl, .inr (.inl ⟨wasOpen, by simp⟩)⟩, rfl⟩
  · rename_i fresh
    cases review with
    | refused | invalid | limited => exact .inl ⟨⟨rfl, rfl, .inr (.inl ⟨wasOpen, by simp⟩)⟩, rfl⟩
    | preference skipped =>
      exact .inl ⟨⟨rfl, rfl, .inr (.inl ⟨wasOpen, by cases skipped <;> simp⟩)⟩, rfl⟩
    | clear url =>
      have left : r.attempts < 5 := by omega
      exact .inr ⟨⟨rfl, wasOpen, left, rfl, rfl⟩, _, rfl, rfl⟩

theorem mem_select {key : SLAReportDelivery → Time} {condition : SLAReportDelivery → Bool}
    {busy : List Uuid} {limit : Nat} (h : r ∈ select key condition busy limit rows) :
    r ∈ rows ∧ condition r = true := by
  have inside := mem_orderBy.mp (List.mem_of_mem_take h)
  simp only [List.mem_filter, Bool.and_eq_true] at inside
  exact ⟨inside.1, inside.2.1⟩

/-- The quarantine of rows that are live. -/
theorem markAll_quiet {code : String} {picked : List SLAReportDelivery} (unique : Table.Unique rows)
    (live : ∀ p ∈ picked, p ∈ rows ∧ (p.isOpen = true ∨ p.state = .sending)) (mem : r ∈ rows) :
    Quiet r (if r.id ∈ picked.map (·.id) then markUnknown code r else r) := by
  split
  · rename_i marked
    obtain ⟨p, here, same⟩ := List.mem_map.mp marked
    obtain ⟨known, state⟩ := live p here
    obtain rfl := unique.eq known mem same
    exact quiet_markUnknown state
  · exact .refl r

/-- What the first transaction does to every row of the table. -/
structure Pass (rows rows' : List SLAReportDelivery) (notice : Option Notice) : Prop where
  moves : ∃ f, rows' = rows.map f ∧ ∀ r ∈ rows,
    (Quiet r (f r) ∧ ∀ n, notice = some n → n.deliveryId ≠ r.id) ∨
      (Claims r (f r) ∧ ∃ n, notice = some n ∧ n.deliveryId = r.id)
  found : ∀ n, notice = some n → ∃ r ∈ rows, r.id = n.deliveryId

theorem Pass.refl (rows : List SLAReportDelivery) : Pass rows rows none :=
  ⟨⟨id, by simp, fun r _ => .inl ⟨.refl r, by simp⟩⟩, by simp⟩

/-- A pass behind changes that claim nothing. -/
theorem Pass.behind {f : SLAReportDelivery → SLAReportDelivery}
    (quiet : ∀ r ∈ rows, Quiet r (f r)) (p : Pass (rows.map f) rows' notice) :
    Pass rows rows' notice := by
  obtain ⟨⟨g, rfl, moves⟩, found⟩ := p
  refine ⟨⟨g ∘ f, by rw [List.map_map], fun r mem => ?_⟩, fun n here => ?_⟩
  · have first := quiet r mem
    rcases moves (f r) (List.mem_map_of_mem mem) with ⟨second, other⟩ | ⟨second, n, here, same⟩
    · exact .inl ⟨first.trans second, fun n here => first.id ▸ other n here⟩
    · exact .inr ⟨first.claims second, n, here, same.trans first.id⟩
  · obtain ⟨q, mem, same⟩ := found n here
    obtain ⟨r, known, rfl⟩ := List.mem_map.mp mem
    exact ⟨r, known, (quiet r known).id.symm.trans same⟩

/-- A pass behind the quarantine of the rows that a query picked. -/
theorem Pass.behindMark {code : String} {key : SLAReportDelivery → Time} {busy : List Uuid}
    {limit : Nat} {condition : SLAReportDelivery → Bool} (unique : Table.Unique rows)
    (live : ∀ p, condition p = true → p.isOpen = true ∨ p.state = .sending)
    (p : Pass (markAll code (select key condition busy limit rows) rows) rows' notice) :
    Pass rows rows' notice := by
  refine Pass.behind (fun r mem => markAll_quiet unique (fun q here => ?_) mem) p
  obtain ⟨known, picked⟩ := mem_select here
  exact ⟨known, live q picked⟩

theorem markAll_unique {code : String} {picked : List SLAReportDelivery} (unique : Table.Unique rows) :
    Table.Unique (markAll code picked rows) := by
  refine unique.map fun r _ => ?_
  split <;> rfl

/-- The update of the row that is due. -/
theorem claimDelivery_pass {now : Time} {review : Review} (unique : Table.Unique rows) (mem : r ∈ rows)
    (wasOpen : r.isOpen = true) :
    Pass rows (Table.update rows r.id fun _ => (claimDelivery now review r).1)
      (claimDelivery now review r).2 := by
  have spec := @claimDelivery_spec r now review wasOpen
  refine ⟨⟨_, rfl, fun q known => ?_⟩, fun n here => ?_⟩
  · dsimp only
    split
    · rename_i same
      obtain rfl := unique.eq known mem same
      rcases spec with ⟨quiet, nothing⟩ | claimed
      · exact .inl ⟨quiet, by simp [nothing]⟩
      · exact .inr claimed
    · rename_i other
      refine .inl ⟨.refl q, fun n here same => other ?_⟩
      rcases spec with ⟨-, nothing⟩ | ⟨-, m, given, own⟩
      · simp [nothing] at here
      · obtain rfl := Option.some.inj (given.symm.trans here)
        exact same.symm.trans own
  · rcases spec with ⟨-, nothing⟩ | ⟨-, m, given, own⟩
    · simp [nothing] at here
    · obtain rfl := Option.some.inj (given.symm.trans here)
      exact ⟨r, mem, own.symm⟩

theorem claimOne_pass {epoch : Option Uuid} {now : Time} {busy : Busy} {review : Review}
    {progress : Bool} (unique : Table.Unique rows)
    (h : claimOne epoch now busy review rows = (rows', notice, progress)) : Pass rows rows' notice := by
  have untrusted (epoch : Option Uuid) (p : SLAReportDelivery) (h : isUntrusted epoch p = true) :
      p.isOpen = true ∨ p.state = .sending := by
    simp only [isUntrusted, Bool.and_eq_true, Bool.or_eq_true, decide_eq_true_eq] at h
    exact h.1
  unfold claimOne at h
  dsimp only at h
  cases epoch with
  | none =>
    obtain ⟨rfl, rest⟩ := Prod.mk.inj h
    obtain ⟨rfl, -⟩ := Prod.mk.inj rest
    exact .behindMark unique (untrusted none) (.refl _)
  | some epoch =>
    dsimp only at h
    have interrupted (p : SLAReportDelivery) (h : isInterrupted epoch now p = true) :
        p.isOpen = true ∨ p.state = .sending := by
      simp only [isInterrupted, Bool.and_eq_true, decide_eq_true_eq] at h
      exact .inr h.1.1
    split at h
    · obtain ⟨rfl, rest⟩ := Prod.mk.inj h
      obtain ⟨rfl, -⟩ := Prod.mk.inj rest
      exact .behindMark unique (untrusted (some epoch))
        (.behindMark (markAll_unique unique) interrupted (.refl _))
    · rename_i delivery due
      obtain ⟨mem, condition⟩ := mem_select (List.mem_of_head? due)
      simp only [isDue, Bool.and_eq_true] at condition
      obtain ⟨rfl, rest⟩ := Prod.mk.inj h
      obtain ⟨rfl, -⟩ := Prod.mk.inj rest
      exact .behindMark unique (untrusted (some epoch))
        (.behindMark (markAll_unique unique) interrupted
          (claimDelivery_pass (markAll_unique (markAll_unique unique)) mem condition.1.1))

/-! ### Steps -/

/-- The transactions that change rows, with the workers that go on. -/
inductive Moves (s : World) : Event → World → Prop
  | enqueue {id : Uuid} {recipientEmail : String} {epoch : Option Uuid} {now : Time} :
      Table.lookup s.rows id = none →
      Moves s (.enqueue id recipientEmail epoch now)
        { s with rows := s.rows ++ [newDelivery id recipientEmail epoch now] }
  | cancel {id : Uuid} : Moves s (.cancel id) { s with rows := Table.update s.rows id cancelDelivery }
  | passed {worker : Nat} {epoch : Option Uuid} {now : Time} {busy : Busy} {review : Review}
      {rows : List SLAReportDelivery} : Pass s.rows rows none →
      Moves s (.claim worker epoch now busy review) { s with rows := rows }
  | claim {worker : Nat} {epoch : Option Uuid} {now : Time} {busy : Busy} {review : Review}
      {rows : List SLAReportDelivery} {notice : Notice} :
      Table.lookup s.workers worker = none → Pass s.rows rows (some notice) →
      Moves s (.claim worker epoch now busy review)
        ⟨rows, s.workers ++ [⟨worker, notice, .claimed⟩]⟩
  | send {w : Worker} {t : Transmission} : w ∈ s.workers → w.phase = .claimed →
      Moves s (.send w.id w.notice.deliveryId t)
        { s with workers := Table.update s.workers w.id fun w => { w with phase := .sending t } }
  | answer {w : Worker} {t : Transmission} : w ∈ s.workers → w.phase = .sending t →
      Moves s (.answer w.id w.notice.deliveryId (sendNotice t))
        { s with
          workers := Table.update s.workers w.id fun w =>
            { w with phase := .answered (sendNotice t) } }
  | record {w : Worker} {outcome : MailOutcome} {now : Time} {committed : Bool} : w ∈ s.workers →
      w.phase = .answered outcome →
      Moves s (.record w.id w.notice.deliveryId now committed)
        { rows := if committed then
            Table.update s.rows w.notice.deliveryId (recordOutcome outcome now) else s.rows
          workers := Table.remove s.workers w.id }
  | crash {w : Worker} : w ∈ s.workers →
      Moves s (.crash w.id w.notice.deliveryId) { s with workers := Table.remove s.workers w.id }

theorem holder_spec {worker : Nat} {w : Worker} (h : s.holder worker x = some w) :
    w ∈ s.workers ∧ worker = w.id ∧ x = w.notice.deliveryId := by
  obtain ⟨found, here⟩ := Option.filter_eq_some_iff.mp h
  exact ⟨Table.lookup_mem found, (Table.lookup_key found).symm, (of_decide_eq_true here).symm⟩

theorem step_moves (unique : Table.Unique s.rows) (h : step s e = some s') : Moves s e s' := by
  cases e with
  | enqueue id recipientEmail epoch now =>
    simp only [step] at h
    split at h
    · rename_i fresh
      obtain rfl := Option.some.inj h
      exact .enqueue (by simpa using fresh)
    · simp at h
  | cancel id =>
    obtain rfl := Option.some.inj h
    exact .cancel
  | claim worker epoch now busy review =>
    simp only [step] at h
    split at h
    · rename_i fresh
      generalize tx : claimOne epoch now busy review s.rows = result at h
      obtain ⟨rows, notice, progress⟩ := result
      have pass := claimOne_pass unique tx
      cases notice with
      | none =>
        obtain rfl := Option.some.inj h
        exact .passed pass
      | some notice =>
        obtain rfl := Option.some.inj h
        exact .claim (by simpa using fresh) pass
    · simp at h
  | send worker deliveryId t =>
    simp only [step] at h
    split at h
    · rename_i held
      obtain ⟨mem, rfl, rfl⟩ := holder_spec held
      obtain rfl := Option.some.inj h
      exact .send mem rfl
    · simp at h
  | answer worker deliveryId outcome =>
    simp only [step] at h
    split at h
    · rename_i held
      obtain ⟨mem, rfl, rfl⟩ := holder_spec held
      split at h
      · rename_i returned
        subst returned
        obtain rfl := Option.some.inj h
        exact .answer mem rfl
      · simp at h
    · simp at h
  | record worker deliveryId now committed =>
    simp only [step] at h
    split at h
    · rename_i held
      obtain ⟨mem, rfl, rfl⟩ := holder_spec held
      obtain rfl := Option.some.inj h
      exact .record mem rfl
    · simp at h
  | crash worker deliveryId =>
    simp only [step] at h
    split at h
    · rename_i held
      obtain ⟨mem, rfl, rfl⟩ := holder_spec held
      obtain rfl := Option.some.inj h
      exact .crash mem
    · simp at h

/-! ### The invariant -/

/-- The event is a call of `send_notice` for the row. -/
def Event.sends (x : Uuid) : Event → Bool
  | .send _ y _ => y = x
  | _ => false

/-- How often `send_notice` was called for the row. -/
def sends (x : Uuid) (es : List Event) : Nat := es.countP (Event.sends x)

theorem sends_snoc (x : Uuid) (es : List Event) (e : Event) :
    sends x (es ++ [e]) = sends x es + if e.sends x then 1 else 0 := by
  simp [sends, List.countP_append, List.countP_cons]

theorem sends_quiet (quiet : e.sends x = false) : sends x (es ++ [e]) = sends x es := by
  simp [sends_snoc, quiet]

/-- The row is claimed, or was and is quarantined. -/
def SLAReportDelivery.taken (r : SLAReportDelivery) : Prop := r.state = .sending ∨ r.state = .unknown

theorem Quiet.taken (q : Quiet r r') (h : r.taken) : r'.taken := by
  rcases q.state with same | ⟨wasOpen, -⟩ | ⟨-, unknown⟩
  · rwa [SLAReportDelivery.taken, same]
  · rw [isOpen_iff] at wasOpen
    rcases h with state | state <;> simp [state] at wasOpen
  · exact .inr unknown

/-- Every worker behind its claim holds a row that is not open, alone, and every attempt that the row
counts allows one call. -/
structure Sound (es : List Event) (s : World) : Prop where
  rows : Table.Unique s.rows
  workers : Table.Unique s.workers
  held : ∀ w ∈ s.workers, ∃ r ∈ s.rows, r.id = w.notice.deliveryId ∧ r.taken
  alone : ∀ w ∈ s.workers, ∀ v ∈ s.workers, w.notice.deliveryId = v.notice.deliveryId → w = v
  counted : ∀ r ∈ s.rows, sends r.id es ≤ r.attempts ∧ r.attempts ≤ 5
  claimed : ∀ w ∈ s.workers, w.phase = .claimed → ∀ r ∈ s.rows, r.id = w.notice.deliveryId →
    sends r.id es < r.attempts
  known : ∀ x, (∀ r ∈ s.rows, r.id ≠ x) → sends x es = 0

/-- Rows of the table before any worker starts, within the `CHECK` on their attempts. -/
structure Idle (s : World) : Prop where
  rows : Table.Unique s.rows
  workers : s.workers = []
  attempts : ∀ r ∈ s.rows, r.attempts ≤ 5

theorem Idle.sound (idle : Idle s) : Sound [] s where
  rows := idle.rows
  workers := by simp [idle.workers, Table.unique_nil]
  held := by simp [idle.workers]
  alone := by simp [idle.workers]
  counted := fun r mem => ⟨Nat.zero_le _, idle.attempts r mem⟩
  claimed := by simp [idle.workers]
  known := fun _ _ => rfl

section

variable (sound : Sound es s)
include sound

/-- Rows that keep their attempts, and workers that go on. -/
theorem Sound.settle {f : SLAReportDelivery → SLAReportDelivery} {workers : List Worker}
    (quiet : ∀ x, e.sends x = false) (sub : workers.Sublist s.workers)
    (same : ∀ r ∈ s.rows, (f r).id = r.id ∧ (f r).attempts = r.attempts)
    (taken : ∀ w ∈ workers, ∀ r ∈ s.rows, r.id = w.notice.deliveryId → r.taken → (f r).taken) :
    Sound (es ++ [e]) ⟨s.rows.map f, workers⟩ := by
  refine ⟨?_, ?_, ?_, ?_, ?_, ?_, ?_⟩
  · exact sound.rows.map fun r mem => (same r mem).1
  · exact List.Nodup.sublist (sub.map _) sound.workers
  · intro w mem
    obtain ⟨r, known, here, state⟩ := sound.held w (sub.subset mem)
    exact ⟨f r, List.mem_map_of_mem known, (same r known).1.trans here, taken w mem r known here state⟩
  · intro w mem v other
    exact sound.alone w (sub.subset mem) v (sub.subset other)
  · intro q mem
    obtain ⟨r, known, rfl⟩ := List.mem_map.mp mem
    rw [sends_quiet (quiet _), (same r known).1, (same r known).2]
    exact sound.counted r known
  · intro w mem phase q row here
    obtain ⟨r, known, rfl⟩ := List.mem_map.mp row
    rw [sends_quiet (quiet _), (same r known).2]
    rw [(same r known).1] at here ⊢
    exact sound.claimed w (sub.subset mem) phase r known here
  · intro x absent
    rw [sends_quiet (quiet _)]
    refine sound.known x fun r mem other => absent (f r) (List.mem_map_of_mem mem) ?_
    exact (same r mem).1.trans other

/-- A row that no worker holds and no call was made for. -/
theorem Sound.enqueue (quiet : ∀ x, e.sends x = false) (fresh : ∀ q ∈ s.rows, q.id ≠ r.id)
    (new : r.attempts = 0) : Sound (es ++ [e]) { s with rows := s.rows ++ [r] } := by
  have none := sound.known r.id fresh
  refine ⟨?_, sound.workers, ?_, sound.alone, ?_, ?_, ?_⟩
  · exact sound.rows.append fresh
  · intro w mem
    obtain ⟨q, known, here⟩ := sound.held w mem
    exact ⟨q, List.mem_append_left _ known, here⟩
  · intro q mem
    rw [sends_quiet (quiet _)]
    rcases List.mem_append.mp mem with old | last
    · exact sound.counted q old
    · rw [List.mem_singleton.mp last, none]
      omega
  · intro w mem phase q row here
    rw [sends_quiet (quiet _)]
    rcases List.mem_append.mp row with old | last
    · exact sound.claimed w mem phase q old here
    · obtain ⟨p, known, own, -⟩ := sound.held w mem
      rw [List.mem_singleton.mp last] at here
      exact absurd (own.trans here.symm) (fresh p known)
  · intro x absent
    rw [sends_quiet (quiet _)]
    exact sound.known x fun q mem => absent q (List.mem_append_left _ mem)

/-- A claim: the row was open, so that no worker held it. -/
theorem Sound.claim {worker : Nat} {n : Notice} (quiet : ∀ x, e.sends x = false)
    (fresh : Table.lookup s.workers worker = none) (pass : Pass s.rows rows' (some n)) :
    Sound (es ++ [e]) ⟨rows', s.workers ++ [⟨worker, n, .claimed⟩]⟩ := by
  obtain ⟨⟨f, rfl, moves⟩, found⟩ := pass
  have kept (r : SLAReportDelivery) (mem : r ∈ s.rows) (other : r.id ≠ n.deliveryId) :
      Quiet r (f r) := by
    rcases moves r mem with ⟨quiet, -⟩ | ⟨-, m, same, here⟩
    · exact quiet
    · obtain rfl := Option.some.inj same
      exact absurd here.symm other
  obtain ⟨r₀, known₀, here₀⟩ := found n rfl
  have claims : Claims r₀ (f r₀) := by
    rcases moves r₀ known₀ with ⟨-, other⟩ | ⟨claims, -⟩
    · exact absurd here₀.symm (other n rfl)
    · exact claims
  have only (r : SLAReportDelivery) (mem : r ∈ s.rows) (same : r.id = n.deliveryId) : r = r₀ :=
    sound.rows.eq mem known₀ (same.trans here₀.symm)
  have unheld (w : Worker) (mem : w ∈ s.workers) : w.notice.deliveryId ≠ n.deliveryId := by
    intro same
    obtain ⟨r, row, here, taken⟩ := sound.held w mem
    obtain rfl := only r row (here.trans same)
    have wasOpen := isOpen_iff.mp claims.wasOpen
    rcases taken with state | state <;> simp [state] at wasOpen
  have ids (r : SLAReportDelivery) (mem : r ∈ s.rows) : (f r).id = r.id := by
    by_cases same : r.id = n.deliveryId
    · obtain rfl := only r mem same
      exact claims.id
    · exact (kept r mem same).id
  refine ⟨?_, ?_, ?_, ?_, ?_, ?_, ?_⟩
  · exact sound.rows.map ids
  · exact sound.workers.append (Table.lookup_none.mp fresh)
  · intro w mem
    rcases List.mem_append.mp mem with old | last
    · obtain ⟨r, row, here, taken⟩ := sound.held w old
      have other : r.id ≠ n.deliveryId := here ▸ unheld w old
      exact ⟨f r, List.mem_map_of_mem row, (ids r row).trans here, (kept r row other).taken taken⟩
    · rw [List.mem_singleton.mp last]
      exact ⟨f r₀, List.mem_map_of_mem known₀, claims.id.trans here₀, .inl claims.state⟩
  · intro w mem v other same
    rcases List.mem_append.mp mem with old | last <;> rcases List.mem_append.mp other with old' | last'
    · exact sound.alone w old v old' same
    · rw [List.mem_singleton.mp last'] at same
      exact absurd same (unheld w old)
    · rw [List.mem_singleton.mp last] at same
      exact absurd same.symm (unheld v old')
    · rw [List.mem_singleton.mp last, List.mem_singleton.mp last']
  · intro q mem
    obtain ⟨r, row, rfl⟩ := List.mem_map.mp mem
    rw [sends_quiet (quiet _), ids r row]
    obtain ⟨le, bound⟩ := sound.counted r row
    by_cases same : r.id = n.deliveryId
    · obtain rfl := only r row same
      have left := claims.left
      rw [claims.attempts]
      omega
    · rw [(kept r row same).attempts]
      exact ⟨le, bound⟩
  · intro w mem phase q row here
    obtain ⟨r, known, rfl⟩ := List.mem_map.mp row
    rw [ids r known] at here ⊢
    rw [sends_quiet (quiet _)]
    rcases List.mem_append.mp mem with old | last
    · have other : r.id ≠ n.deliveryId := here ▸ unheld w old
      rw [(kept r known other).attempts]
      exact sound.claimed w old phase r known here
    · rw [List.mem_singleton.mp last] at here
      obtain rfl := only r known here
      have le := (sound.counted r known).1
      rw [claims.attempts]
      omega
  · intro x absent
    rw [sends_quiet (quiet _)]
    refine sound.known x fun r mem other => absent (f r) (List.mem_map_of_mem mem) ?_
    exact (ids r mem).trans other

/-- A worker leaves its phase; the call, if it is one, spends its claim. -/
theorem Sound.phase {w : Worker} {p : Phase} (mem : w ∈ s.workers) (left : p ≠ .claimed)
    (call : ∀ x, e.sends x = true → x = w.notice.deliveryId ∧ w.phase = .claimed) :
    Sound (es ++ [e])
      { s with workers := Table.update s.workers w.id fun v => { v with phase := p } } := by
  have member (v' : Worker) (h : v' ∈ Table.update s.workers w.id fun v => { v with phase := p }) :
      ∃ v ∈ s.workers, v'.notice = v.notice ∧ v'.id = v.id ∧
        v' = if v.id = w.id then { v with phase := p } else v := by
    obtain ⟨v, old, rfl⟩ := Table.mem_update.mp h
    refine ⟨v, old, ?_, ?_, rfl⟩ <;> dsimp only [key_worker] <;> split <;> rfl
  have counts (r : SLAReportDelivery) (row : r ∈ s.rows) : sends r.id (es ++ [e]) ≤ r.attempts := by
    cases sent : e.sends r.id with
    | false =>
      rw [sends_quiet sent]
      exact (sound.counted r row).1
    | true =>
      obtain ⟨here, phase⟩ := call r.id sent
      have claim := sound.claimed w mem phase r row here
      rw [sends_snoc, sent, if_pos rfl]
      exact claim
  refine ⟨sound.rows, ?_, ?_, ?_, ?_, ?_, ?_⟩
  · exact sound.workers.map (Table.update_keeps fun v _ here => here)
  · intro v' h
    obtain ⟨v, old, notice, -, -⟩ := member v' h
    rw [notice]
    exact sound.held v old
  · intro v' h u' h' same
    obtain ⟨v, old, notice, -, shape⟩ := member v' h
    obtain ⟨u, old', notice', -, shape'⟩ := member u' h'
    rw [notice, notice'] at same
    rw [shape, shape', sound.alone v old u old' same]
  · intro r row
    exact ⟨counts r row, (sound.counted r row).2⟩
  · intro v' h phase r row here
    obtain ⟨v, old, notice, -, shape⟩ := member v' h
    split at shape
    · rw [shape] at phase
      exact absurd phase left
    · rename_i other
      subst shape
      -- the call is for the row of another worker
      cases sent : e.sends r.id with
      | false =>
        rw [sends_quiet sent]
        exact sound.claimed v' old phase r row here
      | true =>
        obtain ⟨same, -⟩ := call r.id sent
        rw [sound.alone v' old w mem (here.symm.trans same)] at other
        exact absurd rfl other
  · intro x absent
    cases sent : e.sends x with
    | false =>
      rw [sends_quiet sent]
      exact sound.known x absent
    | true =>
      obtain ⟨rfl, -⟩ := call x sent
      obtain ⟨r, row, here, -⟩ := sound.held w mem
      exact absurd here (absent r row)

/-- A worker ends without a write. -/
theorem Sound.ended {k : Nat} (quiet : ∀ x, e.sends x = false) :
    Sound (es ++ [e]) { s with workers := Table.remove s.workers k } := by
  have settled : Sound (es ++ [e]) ⟨s.rows.map id, Table.remove s.workers k⟩ :=
    sound.settle quiet List.filter_sublist (fun _ _ => ⟨rfl, rfl⟩) fun _ _ _ _ _ taken => taken
  rwa [List.map_id] at settled

/-- What a pass without a claim does. -/
theorem Sound.passed (quiet : ∀ x, e.sends x = false) (pass : Pass s.rows rows' none) :
    Sound (es ++ [e]) { s with rows := rows' } := by
  obtain ⟨⟨f, rfl, moves⟩, -⟩ := pass
  have kept (r : SLAReportDelivery) (mem : r ∈ s.rows) : Quiet r (f r) := by
    rcases moves r mem with ⟨quiet, -⟩ | ⟨-, n, none, -⟩
    · exact quiet
    · simp at none
  exact sound.settle quiet (List.Sublist.refl _) (fun r mem => ⟨(kept r mem).id, (kept r mem).attempts⟩)
    fun w _ r mem _ => (kept r mem).taken

end

theorem recordOutcome_same (outcome : MailOutcome) (now : Time) (r : SLAReportDelivery) :
    (recordOutcome outcome now r).id = r.id ∧
      (recordOutcome outcome now r).attempts = r.attempts := by
  unfold recordOutcome
  split
  · exact ⟨rfl, rfl⟩
  · dsimp only
    split
    · exact ⟨rfl, rfl⟩
    · exact ⟨rfl, rfl⟩
    · exact ⟨rfl, rfl⟩
    · split <;> exact ⟨rfl, rfl⟩

theorem Sound.step (sound : Sound es s) (h : step s e = some s') : Sound (es ++ [e]) s' := by
  cases step_moves sound.rows h with
  | enqueue fresh =>
    exact sound.enqueue (fun _ => rfl) (Table.lookup_none.mp fresh) rfl
  | cancel =>
    refine sound.settle (fun _ => rfl) (List.Sublist.refl _) (fun r _ => ?_) fun w _ r _ _ taken => ?_
    · split
      · exact ⟨(quiet_cancel r).id, (quiet_cancel r).attempts⟩
      · exact ⟨rfl, rfl⟩
    · split
      · exact (quiet_cancel r).taken taken
      · exact taken
  | passed pass => exact sound.passed (fun _ => rfl) pass
  | claim fresh pass => exact sound.claim (fun _ => rfl) fresh pass
  | send mem phase =>
    refine sound.phase mem (by simp) fun x sent => ?_
    exact ⟨(of_decide_eq_true sent).symm, phase⟩
  | answer mem phase => exact sound.phase mem (by simp) (by simp [Event.sends])
  | @record w outcome now committed mem phase =>
    cases committed with
    | false => exact sound.ended fun _ => rfl
    | true =>
      refine sound.settle (fun _ => rfl) List.filter_sublist (fun r _ => ?_) ?_
      · split
        · exact recordOutcome_same outcome now r
        · exact ⟨rfl, rfl⟩
      · intro v going r row here taken
        obtain ⟨old, other⟩ := Table.mem_remove.mp going
        rw [if_neg ?_]
        · exact taken
        · intro same
          exact other (congrArg Worker.id (sound.alone v old w mem (here.symm.trans same)))
  | crash mem => exact sound.ended fun _ => rfl

theorem sound_run {ok : World → Event → Prop} {s₀ : World} (idle : Idle s₀)
    (run : Runs step ok s₀ es s) : Sound es s :=
  run.traced idle.sound fun _ _ _ _ _ next sound => sound.step next

/-! ### Rows that are not sent again -/

/-- The call of this phase is made, and its answer is not a retry. -/
def Phase.ends : Phase → Bool
  | .claimed => false
  | .sending t => (sendNotice t).state ≠ .retry
  | .answered outcome => outcome.state ≠ .retry

/-- The row is not open, and will not be opened by the worker that holds it. -/
structure Spent (x : Uuid) (s : World) : Prop where
  row : ∃ r ∈ s.rows, r.id = x ∧ r.isOpen = false
  workers : ∀ w ∈ s.workers, w.notice.deliveryId = x → w.phase.ends = true

/-- A pass leaves a row that is not open. -/
theorem Pass.closed (p : Pass rows rows' notice) (mem : r ∈ rows) (closed : r.isOpen = false) :
    (∃ r' ∈ rows', r'.id = r.id ∧ r'.isOpen = false) ∧ ∀ n, notice = some n → n.deliveryId ≠ r.id := by
  obtain ⟨⟨f, rfl, moves⟩, -⟩ := p
  rcases moves r mem with ⟨quiet, other⟩ | ⟨claims, -⟩
  · refine ⟨⟨f r, List.mem_map_of_mem mem, quiet.id, ?_⟩, other⟩
    by_contra reopened
    simp [quiet.isOpen (by simpa using reopened)] at closed
  · simp [claims.wasOpen] at closed

theorem recordOutcome_closed {outcome : MailOutcome} {now : Time} (ends : outcome.state ≠ .retry)
    (closed : r.isOpen = false) : (recordOutcome outcome now r).isOpen = false := by
  unfold recordOutcome
  split
  · exact closed
  · dsimp only
    split
    · simp [SLAReportDelivery.isOpen]
    · simp [SLAReportDelivery.isOpen]
    · simp [SLAReportDelivery.isOpen]
    · rename_i retry
      exact absurd retry ends

theorem Spent.step (spent : Spent x s) (sound : Sound es s) (h : step s e = some s') :
    Spent x s' ∧ e.sends x = false := by
  obtain ⟨⟨r, row, rfl, closed⟩, workers⟩ := spent
  cases step_moves sound.rows h with
  | enqueue fresh =>
    exact ⟨⟨⟨r, List.mem_append_left _ row, rfl, closed⟩, workers⟩, rfl⟩
  | @cancel id =>
    refine ⟨⟨⟨r, Table.mem_update.mpr ⟨r, row, ?_⟩, rfl, closed⟩, workers⟩, rfl⟩
    simp [cancelDelivery, closed]
  | passed pass => exact ⟨⟨(pass.closed row closed).1, workers⟩, rfl⟩
  | claim fresh pass =>
    obtain ⟨stays, other⟩ := pass.closed row closed
    refine ⟨⟨stays, fun w mem here => ?_⟩, rfl⟩
    rcases List.mem_append.mp mem with old | last
    · exact workers w old here
    · rw [List.mem_singleton.mp last] at here
      exact absurd here (other _ rfl)
  | @send w t mem phase =>
    -- a worker in front of its call does not hold the row
    have other : w.notice.deliveryId ≠ r.id := by
      intro same
      have ends := workers w mem same
      simp [phase, Phase.ends] at ends
    refine ⟨⟨⟨r, row, rfl, closed⟩, fun v' going here => ?_⟩, by simpa [Event.sends] using other⟩
    obtain ⟨v, old, rfl⟩ := Table.mem_update.mp going
    split at here
    · rename_i same
      exact absurd here (sound.workers.eq old mem same ▸ other)
    · rename_i different
      rw [if_neg different]
      exact workers v old here
  | @answer w t mem phase =>
    refine ⟨⟨⟨r, row, rfl, closed⟩, fun v' going here => ?_⟩, rfl⟩
    obtain ⟨v, old, rfl⟩ := Table.mem_update.mp going
    split at here
    · rename_i same
      obtain rfl := sound.workers.eq old mem same
      have ends := workers v old here
      rw [if_pos same]
      simpa [phase, Phase.ends] using ends
    · rename_i different
      rw [if_neg different]
      exact workers v old here
  | @record w outcome now committed mem phase =>
    refine ⟨⟨?_, fun v going => workers v (Table.mem_remove.mp going).1⟩, rfl⟩
    cases committed with
    | false => exact ⟨r, row, rfl, closed⟩
    | true =>
      by_cases same : r.id = w.notice.deliveryId
      · have ends := workers w mem same.symm
        have final : outcome.state ≠ .retry := by simpa [phase, Phase.ends] using ends
        refine ⟨recordOutcome outcome now r, Table.mem_update.mpr ⟨r, row, ?_⟩,
          (recordOutcome_same outcome now r).1, recordOutcome_closed final closed⟩
        exact (if_pos same).symm
      · exact ⟨r, Table.mem_update.mpr ⟨r, row, (if_neg same).symm⟩, rfl, closed⟩
  | crash mem =>
    exact ⟨⟨⟨r, row, rfl, closed⟩, fun v going => workers v (Table.mem_remove.mp going).1⟩, rfl⟩

/-- A call of the row whose answer is not a retry, that answer, or the death of a worker that holds the
row. -/
def Event.ends (x : Uuid) : Event → Bool
  | .send _ y t => y = x && (sendNotice t).state ≠ .retry
  | .answer _ y outcome => y = x && outcome.state ≠ .retry
  | .crash _ y => y = x
  | _ => false

theorem SLAReportDelivery.taken.closed (h : r.taken) : r.isOpen = false := by
  rcases h with state | state <;> simp [SLAReportDelivery.isOpen, state]

/-- The worker that holds a row, in a phase that ends it, spends it. -/
theorem Sound.spent {w : Worker} {p : Phase} (sound : Sound es s) (mem : w ∈ s.workers)
    (ends : p.ends = true) :
    Spent w.notice.deliveryId
      { s with workers := Table.update s.workers w.id fun v => { v with phase := p } } := by
  obtain ⟨r, row, here, taken⟩ := sound.held w mem
  refine ⟨⟨r, row, here, taken.closed⟩, fun v' going same => ?_⟩
  obtain ⟨v, old, rfl⟩ := Table.mem_update.mp going
  by_cases own : Keyed.key v = w.id
  · rw [if_pos own]
    exact ends
  · rw [if_neg own] at same
    exact absurd (congrArg Worker.id (sound.alone v old w mem same)) own

theorem spent_of_ends (ends : e.ends x = true) (sound : Sound es s) (h : step s e = some s') :
    Spent x s' := by
  cases step_moves sound.rows h with
  | enqueue | cancel | passed | claim | record => simp [Event.ends] at ends
  | send mem phase =>
    simp only [Event.ends, Bool.and_eq_true, decide_eq_true_eq] at ends
    rw [← ends.1]
    exact sound.spent mem (by simpa [Phase.ends] using ends.2)
  | answer mem phase =>
    simp only [Event.ends, Bool.and_eq_true, decide_eq_true_eq] at ends
    rw [← ends.1]
    exact sound.spent mem (by simpa [Phase.ends] using ends.2)
  | @crash w mem =>
    obtain rfl := of_decide_eq_true ends
    obtain ⟨r, row, here, taken⟩ := sound.held w mem
    refine ⟨⟨r, row, here, taken.closed⟩, fun v going same => ?_⟩
    obtain ⟨old, other⟩ := Table.mem_remove.mp going
    exact absurd (congrArg Worker.id (sound.alone v old w mem same)) other

section

variable {ok : World → Event → Prop} {s₀ : World}

/-- Behind such an event the row is never sent again. -/
theorem ends_run {before after : List Event} (idle : Idle s₀)
    (run : Runs step ok s₀ (before ++ e :: after) s) (ends : e.ends x = true) : sends x after = 0 := by
  rw [← List.singleton_append, ← List.append_assoc] at run
  obtain ⟨m, first, rest⟩ := run.split
  obtain ⟨m₀, start, -, next⟩ := first.unsnoc
  have spent := spent_of_ends ends (sound_run idle start) next
  have kept : ∀ (fs : List Event) (u : World), Runs step ok m fs u →
      Sound (before ++ [e] ++ fs) u ∧ Spent x u ∧ sends x fs = 0 := by
    intro fs u run
    refine run.traced (P := fun fs u => Sound (before ++ [e] ++ fs) u ∧ Spent x u ∧ sends x fs = 0)
      ?_ ?_
    · rw [List.append_nil]
      exact ⟨sound_run idle first, spent, rfl⟩
    · rintro fs t a u - next ⟨sound, spent, none⟩
      obtain ⟨still, quiet⟩ := spent.step sound next
      rw [← List.append_assoc, sends_quiet quiet]
      exact ⟨sound.step next, still, none⟩
  exact (kept after s rest).2.2

end

/-! ### At most one mail -/

/-- The assumption on the server: a retry is answered only when it did not accept the message. -/
def Honest (_ : World) : Event → Prop
  | .send _ _ t => (sendNotice t).state = .retry → t.exchange.took = false
  | _ => True

/-- The message of this call is accepted by the server, whether the worker learns it or not. -/
def Event.delivers (x : Uuid) : Event → Bool
  | .send _ y t => y = x && t.exchange.took
  | _ => false

/-- The row must not be sent again: a call that times out, an accepted or unknown answer, or the death
of a worker behind its claim. -/
def Event.closes (x : Uuid) : Event → Bool
  | .send _ y t => y = x && !t.inTime
  | .answer _ y outcome => y = x && (outcome.state = .accepted || outcome.state = .unknown)
  | .crash _ y => y = x
  | _ => false

theorem ends_of_closes (h : e.closes x = true) : e.ends x = true := by
  cases e with
  | enqueue | cancel | claim | record => simp [Event.closes] at h
  | send _ y t =>
    simp only [Event.closes, Bool.and_eq_true, decide_eq_true_eq, Bool.not_eq_true'] at h
    simp [Event.ends, h.1, sendNotice, h.2]
  | answer _ y outcome =>
    simp only [Event.closes, Bool.and_eq_true, Bool.or_eq_true, decide_eq_true_eq] at h
    rcases h with ⟨rfl, state | state⟩ <;> simp [Event.ends, state]
  | crash => exact h

theorem ends_of_delivers (honest : Honest s e) (h : e.delivers x = true) : e.ends x = true := by
  cases e with
  | enqueue | cancel | claim | answer | record | crash => simp [Event.delivers] at h
  | send _ y t =>
    simp only [Event.delivers, Bool.and_eq_true, decide_eq_true_eq] at h
    have final : (sendNotice t).state ≠ .retry := fun retry => by
      simp [honest retry] at h
    simp [Event.ends, h.1, final]

theorem sends_of_delivers (h : e.delivers x = true) : e.sends x = true := by
  cases e with
  | enqueue | cancel | claim | answer | record | crash => simp [Event.delivers] at h
  | send =>
    simp only [Event.delivers, Bool.and_eq_true] at h
    exact h.1

theorem delivered_once {s₀ : World} (idle : Idle s₀) (run : Runs step Honest s₀ es s) (x : Uuid) :
    es.countP (Event.delivers x) ≤ 1 ∧ (es.countP (Event.delivers x) ≠ 0 → Spent x s) := by
  have kept : Sound es s ∧ es.countP (Event.delivers x) ≤ 1 ∧
      (es.countP (Event.delivers x) ≠ 0 → Spent x s) := by
    refine run.traced (P := fun es s => Sound es s ∧ es.countP (Event.delivers x) ≤ 1 ∧
      (es.countP (Event.delivers x) ≠ 0 → Spent x s)) ⟨idle.sound, by simp, by simp⟩ ?_
    rintro es t a u honest next ⟨sound, once, spent⟩
    refine ⟨sound.step next, ?_⟩
    rw [List.countP_append, List.countP_singleton]
    cases delivers : a.delivers x with
    | false =>
      rw [if_neg (by simp), Nat.add_zero]
      exact ⟨once, fun some_mail => ((spent some_mail).step sound next).1⟩
    | true =>
      -- the row was not spent, so that no earlier message was accepted
      have none : es.countP (Event.delivers x) = 0 := by
        by_contra some_mail
        have quiet := ((spent some_mail).step sound next).2
        simp [sends_of_delivers delivers] at quiet
      rw [none, if_pos rfl]
      exact ⟨le_refl _, fun _ => spent_of_ends (ends_of_delivers honest delivers) sound next⟩
  exact kept.2

/-- The worker that calls is the only one that holds the row. -/
theorem sender_alone {before after : List Event} {worker : Nat} {t : Transmission}
    {ok : World → Event → Prop} {s₀ : World} (idle : Idle s₀)
    (run : Runs step ok s₀ (before ++ .send worker x t :: after) s) :
    ∃ m, Runs step ok s₀ before m ∧ Runs step ok m (.send worker x t :: after) s ∧
      ∀ v ∈ m.workers, v.notice.deliveryId = x → v.id = worker := by
  obtain ⟨m, start, rest⟩ := run.split
  have sound := sound_run idle start
  refine ⟨m, start, rest, fun v mem here => ?_⟩
  obtain ⟨_, -, next, -⟩ := rest.uncons
  cases step_moves sound.rows next with
  | send holder phase => rw [sound.alone v mem _ holder here]

/-- Notices of a row, over every interleaving of workers, crashes, leases and epochs: at most five
calls, each by the only worker between its claim and its outcome, none behind a call that was
accepted or unknown, timed out or lost its worker; and at most one message that the server
accepts. -/
theorem report_mail_at_most_once {s₀ s : World} {es : List Event} (idle : Idle s₀)
    (run : Runs step Honest s₀ es s) (x : Uuid) :
    sends x es ≤ 5 ∧
    (∀ before worker t after, es = before ++ .send worker x t :: after →
      ∃ m, Runs step Honest s₀ before m ∧ Runs step Honest m (.send worker x t :: after) s ∧
        ∀ v ∈ m.workers, v.notice.deliveryId = x → v.id = worker) ∧
    (∀ before e after, es = before ++ e :: after → e.closes x = true → sends x after = 0) ∧
    es.countP (Event.delivers x) ≤ 1 := by
  have sound := sound_run idle run
  refine ⟨?_, ?_, ?_, (delivered_once idle run x).1⟩
  · by_cases known : ∀ r ∈ s.rows, r.id ≠ x
    · rw [sound.known x known]
      exact Nat.zero_le 5
    · push Not at known
      obtain ⟨r, row, rfl⟩ := known
      obtain ⟨le, bound⟩ := sound.counted r row
      exact le.trans bound
  · rintro before worker t after rfl
    exact sender_alone idle run
  · rintro before e after rfl closes
    exact ends_run idle run (ends_of_closes closes)

instance (s : World) (e : Event) : Decidable (Honest s e) :=
  match e with
  | .send _ _ _ => inferInstanceAs (Decidable (_ → _))
  | .enqueue .. | .cancel .. | .claim .. | .answer .. | .record .. | .crash .. => .isTrue trivial

def nobodyBusy : Busy := ⟨[], [], []⟩

/-- The server is busy first, and then accepts. -/
def retriedNotice : List Event :=
  [.enqueue 7 "ops@example.test" (some 1) 0,
   .claim 0 (some 1) (minutes 1) nobodyBusy (.clear "https://console.example.test"),
   .send 0 7 ⟨.submitted (.error (.response 451)) false, true⟩,
   .answer 0 7 ⟨.retry, some "smtp_refused"⟩,
   .record 0 7 (minutes 1) true,
   .claim 0 (some 1) (minutes 20) nobodyBusy (.clear "https://console.example.test"),
   .send 0 7 ⟨.submitted (.ok none) true, true⟩,
   .answer 0 7 ⟨.accepted, none⟩,
   .record 0 7 (minutes 20) true,
   .claim 0 (some 1) (minutes 60) nobodyBusy (.clear "https://console.example.test")]

theorem noRows_idle : Idle ⟨[], []⟩ := ⟨Table.unique_nil, rfl, by simp⟩

/-- Two calls, one message. -/
theorem retriedNotice_delivered_once :
    ∃ s, Runs step Honest ⟨[], []⟩ retriedNotice s ∧ sends 7 retriedNotice = 2 ∧
      retriedNotice.countP (Event.delivers 7) = 1 := by
  have run : Runs step Honest ⟨[], []⟩ retriedNotice _ := Runs.to_after (by decide)
  obtain ⟨-, -, -, once⟩ := report_mail_at_most_once noRows_idle run 7
  have some_mail : 0 < retriedNotice.countP (Event.delivers 7) := by decide
  exact ⟨_, run, by decide, le_antisymm once some_mail⟩

end FreeSdn.Sla
