import FreeSdn.Adapters.Accounting

/-! The limit, the types and the leases of the connection pool.  They hold in every run whose steps are
`proper`, and fail in others. -/

namespace FreeSdn.Adapters

open FreeSdn.Lib

variable {cfg : Settings} {s t : Pool}

/-- The loop of `_acquire_connection` over these connections does not open one beyond the limit. -/
def Pool.roomy (cfg : Settings) (s : Pool) (ask : Ask) (ids : List Nat) : Bool :=
  decide (s.Exhausted ids ∧ s.active ask.controllerId < cfg.maxPerController →
    (s.connectionsOf ask.controllerId).length < cfg.maxPerController)

/-- The steps that keep the limit, the types and the leases: `_acquire_connection` opens no connection
while the limit is reached and reuses one of the type asked for, and `get_or_create_shared` finds one
that is not leased. -/
def proper (cfg : Settings) (s : Pool) : Event → Bool
  | .enter index _ =>
    match s.waiting[index]? with
    | some (.acquire ask) => s.roomy cfg ask ((s.connectionsOf ask.controllerId).map Connection.id)
    | some (.share ask) => (s.reusable ask).all fun c => !c.isAcquired
    | _ => true
  | .pong (some answer) _ =>
    match s.holder with
    | some (.pinging ask id rest) =>
      if answer then (Table.lookup s.tracked id).all fun c => c.adapterId = ask.adapterId
      else (s.unwell id).roomy cfg ask rest
    | _ => true
  | _ => true

/-! ### The invariant -/

/-- What holds where the call with the lock waits. -/
def Pool.PointOk (cfg : Settings) (s : Pool) : Point → Prop
  | .pinging _ id _ => ∀ c ∈ Table.lookup s.tracked id, c.isAcquired = false
  | .connecting _ ask => (s.connectionsOf ask.controllerId).length < cfg.maxPerController
  | .cleaning removing _ _ => ∀ c ∈ s.tracked, c.id ∈ removing → c.isAcquired = false
  | .connectingFresh _ | .closing _ => True

/-- The connection was opened for what was asked, and nobody has leased it. -/
def Handout.Ok (h : Handout) : Prop :=
  h.adapterId = h.ask.adapterId ∧ h.controllerId = h.ask.controllerId ∧ h.leased = false

structure Orderly (cfg : Settings) (s : Pool) : Prop where
  limit : ∀ c, (s.connectionsOf c).length ≤ cfg.maxPerController
  point : ∀ p, s.holder = some p → s.PointOk cfg p
  handouts : ∀ h ∈ s.handouts, h.Ok
  destroyed : ∀ d ∈ s.destroyed, d.cleanup = true → d.leased = false

theorem Orderly.empty (cfg : Settings) : Orderly cfg Pool.empty where
  limit := by simp [Pool.empty, Pool.connectionsOf]
  point := by simp [Pool.empty]
  handouts := by simp [Pool.empty]
  destroyed := by simp [Pool.empty]

theorem length_connectionsOf_map {f : Connection → Connection} (rows : List Connection) (c : String)
    (same : ∀ x, (f x).controllerId = x.controllerId) :
    ((rows.map f).filter (·.controllerId = c)).length = (rows.filter (·.controllerId = c)).length := by
  rw [List.filter_map, List.length_map]
  simp [Function.comp_def, same]

/-- A change of the tracked connections that keeps their controllers, and closes none. -/
theorem Orderly.touch (orderly : Orderly cfg s) {f : Connection → Connection}
    (controllers : ∀ x, (f x).controllerId = x.controllerId) (tracked : t.tracked = s.tracked.map f)
    (destroyed : t.destroyed = s.destroyed) (handouts : ∀ h ∈ t.handouts, h.Ok)
    (point : ∀ p, t.holder = some p → t.PointOk cfg p) : Orderly cfg t where
  limit c := by
    rw [Pool.connectionsOf, tracked, length_connectionsOf_map _ _ controllers]
    exact orderly.limit c
  point := point
  handouts := handouts
  destroyed := by
    rw [destroyed]
    exact orderly.destroyed

theorem Orderly.update (orderly : Orderly cfg s) {k : Nat} {f : Connection → Connection}
    (controllers : ∀ x, (f x).controllerId = x.controllerId)
    (tracked : t.tracked = Table.update s.tracked k f) (destroyed : t.destroyed = s.destroyed)
    (handouts : ∀ h ∈ t.handouts, h.Ok) (point : ∀ p, t.holder = some p → t.PointOk cfg p) :
    Orderly cfg t := by
  refine orderly.touch (fun x => ?_) tracked destroyed handouts point
  split_ifs
  · exact controllers x
  · rfl

/-- A change that concerns none of the connections. -/
theorem Orderly.wait (orderly : Orderly cfg s) (tracked : t.tracked = s.tracked)
    (destroyed : t.destroyed = s.destroyed) (handouts : ∀ h ∈ t.handouts, h.Ok)
    (point : ∀ p, t.holder = some p → t.PointOk cfg p) : Orderly cfg t :=
  orderly.touch (f := id) (fun _ => rfl) (by simpa using tracked) destroyed handouts point

theorem handouts_snoc {hs : List Handout} {h : Handout} (old : ∀ h ∈ hs, h.Ok) (new : h.Ok) :
    ∀ g ∈ hs ++ [h], g.Ok := by
  intro g mem
  rcases List.mem_append.mp mem with earlier | last
  · exact old g earlier
  · rw [List.mem_singleton.mp last]
    exact new

/-! ### The operations -/

theorem Orderly.scan (orderly : Orderly cfg s) {ask : Ask} {ids : List Nat}
    (roomy : s.roomy cfg ask ids = true) : Orderly cfg (s.scan cfg ask ids) := by
  rcases Pool.scan_cases cfg s ask ids with eq | ⟨none, room, eq⟩ | ⟨id, rest, c, -, found, idle, -, eq⟩
  · rw [eq]
    exact orderly.wait rfl rfl orderly.handouts (by simp)
  · rw [eq]
    refine orderly.wait rfl rfl orderly.handouts ?_
    rintro p ⟨⟩
    exact of_decide_eq_true roomy ⟨none, room⟩
  · rw [eq]
    refine orderly.wait rfl rfl orderly.handouts ?_
    rintro p ⟨⟩ d hd
    obtain rfl := Option.some.inj (found.symm.trans hd)
    exact idle

theorem Orderly.handOut (orderly : Orderly cfg s) {ask : Ask} {c : Connection}
    (adapter : c.adapterId = ask.adapterId) (controller : c.controllerId = ask.controllerId)
    (idle : c.isAcquired = false) : Orderly cfg (s.handOut ask c) :=
  orderly.wait rfl rfl (handouts_snoc orderly.handouts ⟨adapter, controller, idle⟩)
    (by simp [Pool.handOut])

theorem Orderly.register (orderly : Orderly cfg s) {ask : Ask}
    (room : (s.connectionsOf ask.controllerId).length < cfg.maxPerController) (lease : Bool)
    (clock : Clock) : Orderly cfg (s.register ask lease clock) := by
  have own : (if lease then (s.opened ask clock).acquire (clock (s.opened ask clock).id)
      else s.opened ask clock).controllerId = ask.controllerId := by
    cases lease <;> rfl
  refine ⟨fun d => ?_, by simp [Pool.register, Pool.handOut], ?_, orderly.destroyed⟩
  · have length : ((s.register ask lease clock).connectionsOf d).length =
        (s.connectionsOf d).length + if ask.controllerId = d then 1 else 0 := by
      simp only [Pool.connectionsOf, Pool.register, Pool.handOut, List.filter_append,
        List.length_append]
      by_cases here : ask.controllerId = d <;> simp [own, here]
    rw [length]
    split_ifs with here
    · subst here
      omega
    · exact orderly.limit d
  · exact handouts_snoc orderly.handouts ⟨rfl, rfl, rfl⟩

theorem Orderly.share (orderly : Orderly cfg s) {ask : Ask}
    (idle : ∀ c ∈ s.reusable ask, c.isAcquired = false) (clock : Clock) :
    Orderly cfg (s.share cfg ask clock) := by
  cases found : s.reusable ask with
  | some c =>
    have holds := List.find?_some found
    have mem := List.mem_filter.mp (List.mem_of_find?_eq_some found)
    simp only [Bool.and_eq_true, decide_eq_true_eq] at holds
    have kept := orderly.handOut holds.1 (of_decide_eq_true mem.2) (idle c found)
    rw [Pool.share, found]
    exact kept.update (f := (·.markUsed (clock c.id))) (fun _ => rfl) rfl rfl kept.handouts
      (by simp [Pool.handOut])
  | none =>
    rw [Pool.share, found]
    by_cases full : cfg.maxPerController ≤ (s.connectionsOf ask.controllerId).length
    · simp only [if_pos full]
      refine orderly.wait rfl rfl orderly.handouts ?_
      rintro p ⟨⟩
      trivial
    · simp only [if_neg full]
      refine orderly.wait rfl rfl orderly.handouts ?_
      rintro p ⟨⟩
      exact Nat.lt_of_not_le full

theorem Orderly.adopt (orderly : Orderly cfg s) (ask : Ask) (clock : Clock) :
    Orderly cfg (s.adopt cfg ask clock) := by
  by_cases full : cfg.maxPerController ≤ (s.connectionsOf ask.controllerId).length
  · rw [Pool.adopt, if_pos full]
    exact orderly.handOut rfl rfl rfl
  · rw [Pool.adopt, if_neg full]
    exact orderly.register (Nat.lt_of_not_le full) false clock

/-- Connections leave the pool to be closed. -/
theorem Orderly.close (orderly : Orderly cfg s) {taken kept : List Connection}
    (sub : kept.Sublist s.tracked) : Orderly cfg (s.close taken kept) := by
  refine ⟨fun d => ?_, fun p eq => ?_, orderly.handouts, orderly.destroyed⟩
  · exact ((sub.filter _).length_le).trans (orderly.limit d)
  · unfold Pool.close at eq
    by_cases none : taken = []
    · simp [none] at eq
    · simp only [none, ↓reduceIte, Option.some.injEq] at eq
      subst eq
      trivial

theorem Orderly.closed (orderly : Orderly cfg s) (c : Connection) (rest : List Connection) :
    Orderly cfg { s with
      destroyed := s.destroyed ++ [⟨c.id, c.isAcquired, false⟩]
      holder := if rest = [] then none else some (.closing rest) } := by
  refine ⟨orderly.limit, fun p eq => ?_, orderly.handouts, fun d mem => ?_⟩
  · by_cases none : rest = []
    · simp [none] at eq
    · simp only [none, ↓reduceIte, Option.some.injEq] at eq
      subst eq
      trivial
  · rcases List.mem_append.mp mem with old | last
    · exact orderly.destroyed d old
    · rw [List.mem_singleton.mp last]
      simp

/-- A connection that the cleanup closes. -/
theorem Orderly.destroy (orderly : Orderly cfg s) {c : Connection} (idle : c.isAcquired = false)
    {p : Option Point} (point : ∀ q, p = some q → ({ s.destroy c with holder := p } : Pool).PointOk cfg q) :
    Orderly cfg { s.destroy c with holder := p } := by
  refine ⟨fun d => ?_, point, orderly.handouts, fun d mem => ?_⟩
  · exact ((List.filter_sublist.filter _).length_le).trans (orderly.limit d)
  · rcases List.mem_append.mp mem with old | last
    · exact orderly.destroyed d old
    · rw [List.mem_singleton.mp last]
      exact fun _ => idle

theorem Orderly.clean (orderly : Orderly cfg s) (unique : Table.Unique s.tracked)
    (since : String → Nat) (clock : Clock) (controllers : List String) :
    Orderly cfg (s.clean cfg since clock controllers) := by
  rcases Pool.clean_cases cfg s since clock controllers with ⟨-, eq⟩ | ⟨-, c, rest, -, -, eq⟩
  · rw [eq]
    exact orderly.wait rfl rfl orderly.handouts (by simp)
  · rw [eq]
    refine orderly.wait rfl rfl orderly.handouts ?_
    rintro p ⟨⟩ d mem removed
    obtain ⟨e, inside, same⟩ := List.mem_map.mp removed
    have facts := List.mem_filter.mp inside
    obtain rfl := unique.eq (List.mem_of_mem_filter facts.1) mem same
    simpa using (Bool.and_eq_true_iff.mp facts.2).1

/-! ### Runs -/

/-- Where a call waits matters nothing to a change that keeps what the connections are. -/
theorem Pool.PointOk.touch {p : Point} (ok : s.PointOk cfg p) {f : Connection → Connection}
    (tracked : t.tracked = s.tracked.map f) (ids : ∀ x, (f x).id = x.id)
    (controllers : ∀ x, (f x).controllerId = x.controllerId)
    (leases : ∀ x, (f x).isAcquired = x.isAcquired) : t.PointOk cfg p := by
  cases p with
  | pinging ask id rest =>
    intro d hd
    rw [tracked, Table.lookup_map fun x _ => ids x] at hd
    obtain ⟨c, here, rfl⟩ := Option.map_eq_some_iff.mp hd
    rw [leases]
    exact ok c here
  | connecting lease ask =>
    have room : (s.connectionsOf ask.controllerId).length < cfg.maxPerController := ok
    rw [Pool.PointOk, Pool.connectionsOf, tracked, length_connectionsOf_map _ _ controllers]
    exact room
  | connectingFresh | closing => trivial
  | cleaning removing =>
    intro d mem removed
    rw [tracked] at mem
    obtain ⟨c, here, rfl⟩ := List.mem_map.mp mem
    rw [leases]
    exact ok c here (ids c ▸ removed)

theorem Orderly.moves {e : Event} (located : Located s) (orderly : Orderly cfg s)
    (proper : proper cfg s e = true) (moves : Moves cfg s e t) : Orderly cfg t := by
  cases moves with
  | call current => exact orderly.wait rfl rfl orderly.handouts orderly.point
  | @enter index clock request free found =>
    have start : Orderly cfg { s with waiting := s.waiting.eraseIdx index, holder := none } :=
      orderly.wait rfl rfl orderly.handouts (by simp)
    simp only [Adapters.proper, found] at proper
    cases request with
    | acquire ask => exact start.scan proper
    | share ask =>
      refine start.share (fun c mem => ?_) clock
      simpa using (Option.all_eq_true _ _).mp proper c mem
    | adopt ask => exact start.adopt ask clock
    | release id =>
      exact start.update (f := Connection.release) (fun _ => rfl) rfl rfl start.handouts
        (by simp [Pool.run])
    | close c => exact start.close List.filter_sublist
    | cleanup => exact start.clean located.unique _ clock _
    | shutdown => exact start.close (List.nil_sublist _)
  | @lease ask id rest clock c holds found =>
    have type : c.adapterId = ask.adapterId := by
      simp only [Adapters.proper, holds, found] at proper
      simpa using proper
    have own := located.own ask id rest holds id List.mem_cons_self c found
    have kept := orderly.handOut type own (orderly.point _ holds c found)
    exact kept.update (f := (·.acquire (clock id))) (fun _ => rfl) rfl rfl kept.handouts
      (by simp [Pool.handOut])
  | @unwell ask id rest clock holds =>
    have start : Orderly cfg (s.unwell id) :=
      orderly.update (f := Connection.unhealthy) (fun _ => rfl) rfl rfl orderly.handouts
        (by simp [Pool.unwell])
    refine start.scan ?_
    simpa [Adapters.proper, holds] using proper
  | raise => exact orderly.wait rfl rfl orderly.handouts (by simp)
  | register holds => exact orderly.register (orderly.point _ holds) _ _
  | fresh => exact orderly.handOut rfl rfl rfl
  | closed => exact orderly.closed _ _
  | @cleaned id rest controllers since clock c holds found =>
    have idle := orderly.point _ holds
    have key : c.id = id := Table.lookup_key found
    subst key
    have alone := idle c (Table.lookup_mem found) List.mem_cons_self
    have left {d : Connection} (mem : d ∈ (s.destroy c).tracked) (removed : d.id ∈ c.id :: rest) :
        d.isAcquired = false := idle d (Table.mem_remove.mp mem).1 removed
    by_cases last : rest = []
    · rw [if_pos last]
      have after : Orderly cfg (s.destroy c) := by
        refine orderly.destroy alone (p := s.holder) fun q eq => ?_
        obtain rfl := Option.some.inj (holds.symm.trans eq)
        exact fun d => left
      exact after.clean located.unique.remove since clock controllers
    · rw [if_neg last]
      refine orderly.destroy alone ?_
      rintro q ⟨⟩ d mem removed
      exact left mem (List.mem_cons_of_mem _ removed)
  | invalidate controllerId =>
    have same (x : Connection) := x.invalidated_keeps controllerId
    refine orderly.touch (f := (·.invalidated controllerId)) (fun x => (same x).2.1) rfl rfl
      orderly.handouts fun p holds => ?_
    exact (orderly.point p holds).touch rfl (fun x => (same x).1) (fun x => (same x).2.1)
      fun x => (same x).2.2.1

/-- The pool keeps its limit, its types and its leases in every run whose steps are proper: the limit
holds for each controller, what a call returns was opened for what it asked and is leased to nobody,
and a connection is closed at most once, by the cleanup only when it is not leased. -/
theorem pool_orderly {events : List Event}
    (run : Runs (step cfg) (fun s e => proper cfg s e = true) Pool.empty events s) :
    (∀ c, (s.connectionsOf c).length ≤ cfg.maxPerController) ∧
    (∀ h ∈ s.handouts, h.adapterId = h.ask.adapterId ∧ h.controllerId = h.ask.controllerId ∧
      h.leased = false) ∧
    (s.destroyed.map Destroyed.id).Nodup ∧
    (∀ d ∈ s.destroyed, d.leased = true → d.cleanup = false) := by
  obtain ⟨located, orderly⟩ : Located s ∧ Orderly cfg s :=
    run.invariant (P := fun s => Located s ∧ Orderly cfg s) ⟨.empty, .empty cfg⟩
      fun _ _ _ ok next here =>
        ⟨here.1.moves (.of_step next), here.2.moves here.1 ok (.of_step next)⟩
  refine ⟨orderly.limit, orderly.handouts, ?_, fun d mem leased => ?_⟩
  · have nodup := located.nodup
    rw [Pool.ids, List.nodup_append] at nodup
    exact nodup.2.1
  · cases cleanup : d.cleanup with
    | false => rfl
    | true =>
      have idle := orderly.destroyed d mem cleanup
      rw [leased] at idle
      cases idle

/-! ### Two small runs -/

def oneConnection : Settings := ⟨1, 300, 3600⟩

def still : Clock := fun _ => 0

def askA : Ask := ⟨"omada", "c1", 0⟩

/-- A lease, its end, and a reuse of the same connection. -/
def leaseAndReuse : List Event :=
  [.call (.acquire askA), .enter 0 still, .connected true still, .call (.release 0), .enter 0 still,
   .call (.share askA), .enter 0 still]

theorem leaseAndReuse_orderly : ∃ s,
    Runs (step oneConnection) (fun s e => proper oneConnection s e = true) Pool.empty leaseAndReuse s ∧
    s.handouts.length = 2 ∧ (s.connectionsOf "c1").length ≤ 1 := by
  have ran : (exec (step oneConnection) (fun s e => proper oneConnection s e = true) Pool.empty
      leaseAndReuse).any (fun s => decide (s.handouts.length = 2)) = true := by decide
  obtain ⟨s, ends, facts⟩ := (Option.any_eq_true _ _).mp ran
  have run := Runs.of_exec ends
  exact ⟨s, run, of_decide_eq_true facts, (pool_orderly run).1 "c1"⟩

/-- A leased connection is shared; after its release it is leased for another adapter; and when it
fails its health check a second one joins it. -/
def sharedLease : List Event :=
  [.call (.acquire askA), .enter 0 still, .connected true still, .call (.share askA), .enter 0 still,
   .call (.release 0), .enter 0 still, .call (.acquire { askA with adapterId := "unifi" }),
   .enter 0 still, .pong (some true) still, .call (.release 0), .enter 0 still, .call (.acquire askA),
   .enter 0 still, .pong (some false) still, .connected true still]

theorem sharedLease_breaks :
    (¬ ∀ events s, Runs (step oneConnection) Free Pool.empty events s →
      ∀ c, (s.connectionsOf c).length ≤ oneConnection.maxPerController) ∧
    (¬ ∀ events s, Runs (step oneConnection) Free Pool.empty events s →
      ∀ h ∈ s.handouts, h.adapterId = h.ask.adapterId) ∧
    (¬ ∀ events s, Runs (step oneConnection) Free Pool.empty events s →
      ∀ h ∈ s.handouts, h.leased = false) := by
  have ran : (exec (step oneConnection) Free Pool.empty sharedLease).any (fun s =>
      decide ((s.connectionsOf "c1").length = 2 ∧
        (∃ h ∈ s.handouts, h.adapterId ≠ h.ask.adapterId) ∧ ∃ h ∈ s.handouts, h.leased = true)) =
      true := by decide
  obtain ⟨s, ends, facts⟩ := (Option.any_eq_true _ _).mp ran
  obtain ⟨two, ⟨g, gmem, other⟩, h, hmem, leased⟩ := of_decide_eq_true facts
  have run := Runs.of_exec ends
  refine ⟨fun limit => ?_, fun types => ?_, fun leases => ?_⟩
  · have bound := limit sharedLease s run "c1"
    rw [two] at bound
    exact absurd bound (by decide)
  · exact other (types sharedLease s run g gmem)
  · have idle := leases sharedLease s run h hmem
    rw [leased] at idle
    cases idle

end FreeSdn.Adapters
