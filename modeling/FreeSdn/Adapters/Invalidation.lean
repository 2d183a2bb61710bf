import FreeSdn.Adapters.Accounting

/-! Invalidation of a controller's connections.  A connection is current while its controller was not
invalidated after the arguments were passed with which it was opened.  In every run whose steps are
`quiet`, calls return current connections only, and a pass of the cleanup closes every idle connection
that was invalidated before it. -/

namespace FreeSdn.Adapters

open FreeSdn.Lib

variable {cfg : Settings} {s t : Pool}

/-! ### Quiet steps -/

/-- What a call asks for that returns a connection. -/
def Request.ask : Request → Option Ask
  | .acquire ask | .share ask | .adopt ask => some ask
  | _ => none

def Point.ask : Point → Option Ask
  | .pinging ask _ _ | .connecting _ ask | .connectingFresh ask => some ask
  | _ => none

/-- The calls whose arguments are passed and that have not returned. -/
def Pool.inFlight (s : Pool) : List Ask :=
  s.waiting.filterMap Request.ask ++ (s.holder.bind Point.ask).toList

/-- The idle connections of these controllers from before the pass began are expired. -/
def Pool.reaps (cfg : Settings) (s : Pool) (since : String → Nat) (clock : Clock)
    (controllers : List String) : Bool :=
  s.tracked.all fun c => c.controllerId ∉ controllers || c.isAcquired ||
    since c.controllerId ≤ c.epoch || c.expired cfg (clock c.id)

/-- The steps that keep invalidated connections out of use: no call for the controller is under way
when it is invalidated, no adapter from before is adopted, and the cleanup finds the idle connections
that were invalidated before it expired. -/
def quiet (cfg : Settings) (s : Pool) : Event → Bool
  | .call (.adopt ask) => ask.epoch = s.epochs ask.controllerId
  | .enter index clock =>
    match s.waiting[index]? with
    | some .cleanup => s.reaps cfg s.epochs clock (s.tracked.map Connection.controllerId)
    | _ => true
  | .disconnected clock =>
    match s.holder with
    | some (.cleaning _ controllers since) => s.reaps cfg since clock controllers
    | _ => true
  | .invalidate controllerId => s.inFlight.all fun ask => ask.controllerId ≠ controllerId
  | _ => true

/-! ### The invariant -/

def Pool.Current (s : Pool) (ask : Ask) : Prop := ask.epoch = s.epochs ask.controllerId

/-- A connection knows no later epoch, and a healthy one is current. -/
def Pool.Marked (s : Pool) (c : Connection) : Prop :=
  c.epoch ≤ s.epochs c.controllerId ∧ (c.isHealthy = true → c.epoch = s.epochs c.controllerId)

/-- What holds where the call with the lock waits. -/
def Pool.PointFresh (s : Pool) : Point → Prop
  | .pinging ask id _ => s.Current ask ∧
      ∀ c ∈ Table.lookup s.tracked id, c.epoch = s.epochs ask.controllerId
  | .connecting _ ask | .connectingFresh ask => s.Current ask
  | .closing _ => True
  | .cleaning removing controllers since => (∀ d, since d ≤ s.epochs d) ∧
      ∀ c ∈ s.tracked, c.isAcquired = true ∨ since c.controllerId ≤ c.epoch ∨ c.id ∈ removing ∨
        c.controllerId ∈ controllers

structure Fresh (s : Pool) : Prop where
  marked : ∀ c ∈ s.tracked, s.Marked c
  waiting : ∀ r ∈ s.waiting, ∀ ask ∈ r.ask, s.Current ask
  point : ∀ p, s.holder = some p → s.PointFresh p
  handouts : ∀ h ∈ s.handouts, h.epoch = h.current
  survivors : s.survivors = []

theorem Fresh.empty : Fresh Pool.empty where
  marked := by simp [Pool.empty]
  waiting := by simp [Pool.empty]
  point := by simp [Pool.empty]
  handouts := by simp [Pool.empty]
  survivors := rfl

/-- A change of the connections that lets none become healthy, while nothing is invalidated. -/
theorem Fresh.touch (fresh : Fresh s) {f : Connection → Connection}
    (keeps : ∀ x, (f x).controllerId = x.controllerId ∧ (f x).epoch = x.epoch ∧
      ((f x).isHealthy = true → x.isHealthy = true))
    (tracked : t.tracked = s.tracked.map f) (waiting : t.waiting ⊆ s.waiting)
    (epochs : t.epochs = s.epochs) (survivors : t.survivors = s.survivors)
    (handouts : ∀ h ∈ t.handouts, h.epoch = h.current)
    (point : ∀ p, t.holder = some p → t.PointFresh p) : Fresh t where
  marked := by
    intro d mem
    rw [tracked] at mem
    obtain ⟨c, here, rfl⟩ := List.mem_map.mp mem
    obtain ⟨controller, epoch, healthy⟩ := keeps c
    obtain ⟨low, current⟩ := fresh.marked c here
    rw [Pool.Marked, epochs, controller, epoch]
    exact ⟨low, fun well => current (healthy well)⟩
  waiting r mem ask has := by
    rw [Pool.Current, epochs]
    exact fresh.waiting r (waiting mem) ask has
  point := point
  handouts := handouts
  survivors := survivors.trans fresh.survivors

theorem Fresh.update (fresh : Fresh s) {k : Nat} {f : Connection → Connection}
    (keeps : ∀ x, (f x).controllerId = x.controllerId ∧ (f x).epoch = x.epoch ∧
      ((f x).isHealthy = true → x.isHealthy = true))
    (tracked : t.tracked = Table.update s.tracked k f) (waiting : t.waiting ⊆ s.waiting)
    (epochs : t.epochs = s.epochs) (survivors : t.survivors = s.survivors)
    (handouts : ∀ h ∈ t.handouts, h.epoch = h.current)
    (point : ∀ p, t.holder = some p → t.PointFresh p) : Fresh t := by
  refine fresh.touch (fun x => ?_) tracked waiting epochs survivors handouts point
  split_ifs
  · exact keeps x
  · exact ⟨rfl, rfl, fun well => well⟩

theorem Fresh.wait (fresh : Fresh s) (tracked : t.tracked ⊆ s.tracked) (waiting : t.waiting ⊆ s.waiting)
    (epochs : t.epochs = s.epochs) (survivors : t.survivors = [])
    (handouts : ∀ h ∈ t.handouts, h.epoch = h.current)
    (point : ∀ p, t.holder = some p → t.PointFresh p) : Fresh t where
  marked c mem := by
    rw [Pool.Marked, epochs]
    exact fresh.marked c (tracked mem)
  waiting r mem ask has := by
    rw [Pool.Current, epochs]
    exact fresh.waiting r (waiting mem) ask has
  point := point
  handouts := handouts
  survivors := survivors

theorem epochs_snoc {hs : List Handout} {h : Handout} (old : ∀ h ∈ hs, h.epoch = h.current)
    (new : h.epoch = h.current) : ∀ g ∈ hs ++ [h], g.epoch = g.current := by
  intro g mem
  rcases List.mem_append.mp mem with earlier | last
  · exact old g earlier
  · rw [List.mem_singleton.mp last]
    exact new

/-! ### The operations -/

theorem Fresh.scan (fresh : Fresh s) {ask : Ask} {ids : List Nat} (own : s.Own ask ids)
    (current : s.Current ask) : Fresh (s.scan cfg ask ids) := by
  have same {p : Option Point} (point : ∀ q, p = some q → s.PointFresh q) :
      Fresh { s with holder := p } :=
    fresh.wait (List.Subset.refl _) (List.Subset.refl _) rfl fresh.survivors fresh.handouts point
  rcases Pool.scan_cases cfg s ask ids with eq | ⟨-, -, eq⟩ | ⟨id, rest, c, sub, found, -, healthy, eq⟩
  · rw [eq]
    exact same (by simp)
  · rw [eq]
    refine same ?_
    rintro p ⟨⟩
    exact current
  · rw [eq]
    refine same ?_
    rintro p ⟨⟩
    refine ⟨current, fun d hd => ?_⟩
    obtain rfl := Option.some.inj (found.symm.trans hd)
    rw [← own id (sub List.mem_cons_self) c found]
    exact (fresh.marked c (Table.lookup_mem found)).2 healthy

theorem Fresh.handOut (fresh : Fresh s) {ask : Ask} {c : Connection}
    (epoch : c.epoch = s.epochs ask.controllerId) : Fresh (s.handOut ask c) :=
  fresh.wait (List.Subset.refl _) (List.Subset.refl _) rfl fresh.survivors
    (epochs_snoc fresh.handouts epoch) (by simp [Pool.handOut])

theorem Fresh.register (fresh : Fresh s) {ask : Ask} (current : s.Current ask) (lease : Bool)
    (clock : Clock) : Fresh (s.register ask lease clock) := by
  have next := fresh.handOut (c := s.opened ask clock) current
  refine ⟨fun c mem => ?_, next.waiting, by simp [Pool.register, Pool.handOut], next.handouts,
    next.survivors⟩
  rcases List.mem_append.mp mem with old | last
  · exact fresh.marked c old
  · rw [List.mem_singleton.mp last]
    cases lease <;> exact ⟨le_of_eq current, fun _ => current⟩

theorem Fresh.share (fresh : Fresh s) {ask : Ask} (current : s.Current ask) (clock : Clock) :
    Fresh (s.share cfg ask clock) := by
  have same {p : Option Point} (point : ∀ q, p = some q → s.PointFresh q) :
      Fresh { s with holder := p } :=
    fresh.wait (List.Subset.refl _) (List.Subset.refl _) rfl fresh.survivors fresh.handouts point
  cases found : s.reusable ask with
  | some c =>
    have holds := List.find?_some found
    have mem := List.mem_filter.mp (List.mem_of_find?_eq_some found)
    have own : c.controllerId = ask.controllerId := of_decide_eq_true mem.2
    have epoch := (fresh.marked c mem.1).2 (Bool.and_eq_true_iff.mp holds).2
    rw [own] at epoch
    have kept := fresh.handOut epoch
    rw [Pool.share, found]
    exact kept.update (f := (·.markUsed (clock c.id))) (fun _ => ⟨rfl, rfl, fun well => well⟩) rfl
      (List.Subset.refl _) rfl rfl kept.handouts (by simp [Pool.handOut])
  | none =>
    rw [Pool.share, found]
    by_cases full : cfg.maxPerController ≤ (s.connectionsOf ask.controllerId).length
    · simp only [if_pos full]
      refine same ?_
      rintro p ⟨⟩
      exact current
    · simp only [if_neg full]
      refine same ?_
      rintro p ⟨⟩
      exact current

theorem Fresh.adopt (fresh : Fresh s) {ask : Ask} (current : s.Current ask) (clock : Clock) :
    Fresh (s.adopt cfg ask clock) := by
  unfold Pool.adopt
  split_ifs
  · exact fresh.handOut current
  · exact fresh.register current false clock

theorem Fresh.close (fresh : Fresh s) {taken kept : List Connection} (sub : kept ⊆ s.tracked) :
    Fresh (s.close taken kept) := by
  refine fresh.wait sub (List.Subset.refl _) rfl fresh.survivors fresh.handouts fun p eq => ?_
  unfold Pool.close at eq
  by_cases none : taken = []
  · simp [none] at eq
  · simp only [none, ↓reduceIte, Option.some.injEq] at eq
    subst eq
    trivial

/-- The idle connections of a controller from before the pass are among those it removes. -/
theorem Pool.mem_removals {since : String → Nat} {clock : Clock} {controllers : List String}
    (reaps : s.reaps cfg since clock controllers = true) {c : Connection} (mem : c ∈ s.tracked)
    (idle : c.isAcquired = false) (before : c.epoch < since c.controllerId)
    (looked : c.controllerId ∈ controllers) : c.id ∈ s.removals cfg clock c.controllerId := by
  have facts := List.all_eq_true.mp reaps c mem
  have expired : c.expired cfg (clock c.id) = true := by
    simpa [looked, idle, Nat.not_le.mpr before] using facts
  refine List.mem_map.mpr ⟨c, List.mem_filter.mpr ⟨?_, by simp [idle, expired]⟩, rfl⟩
  exact List.mem_filter.mpr ⟨mem, by simp⟩

theorem Fresh.clean (fresh : Fresh s) {since : String → Nat} (low : ∀ d, since d ≤ s.epochs d)
    {controllers : List String}
    (left : ∀ c ∈ s.tracked, c.isAcquired = true ∨ since c.controllerId ≤ c.epoch ∨
      c.controllerId ∈ controllers)
    {clock : Clock} (reaps : s.reaps cfg since clock controllers = true) :
    Fresh (s.clean cfg since clock controllers) := by
  rcases Pool.clean_cases cfg s since clock controllers with
    ⟨none, eq⟩ | ⟨before, c, rest, split, none, eq⟩
  · rw [eq]
    have gone : s.stale since = [] := by
      refine List.filter_eq_nil_iff.mpr fun d mem stale => ?_
      obtain ⟨idle, old⟩ : d.isAcquired = false ∧ d.epoch < since d.controllerId := by
        simpa using stale
      rcases left d mem with leased | new | looked
      · rw [idle] at leased
        cases leased
      · omega
      · have inside := Pool.mem_removals reaps mem idle old looked
        rw [none _ looked] at inside
        simp at inside
    exact fresh.wait (List.Subset.refl _) (List.Subset.refl _) rfl (by simp [gone, fresh.survivors])
      fresh.handouts (by simp)
  · rw [eq]
    refine fresh.wait (List.Subset.refl _) (List.Subset.refl _) rfl fresh.survivors fresh.handouts ?_
    rintro p ⟨⟩
    refine ⟨low, fun d mem => ?_⟩
    by_cases leased : d.isAcquired = true
    · exact .inl leased
    by_cases new : since d.controllerId ≤ d.epoch
    · exact .inr (.inl new)
    rcases left d mem with yes | yes | looked
    · exact absurd yes leased
    · exact absurd yes new
    · have idle : d.isAcquired = false := by simpa using leased
      have inside := Pool.mem_removals reaps mem idle (by omega) looked
      rw [split] at looked
      rcases List.mem_append.mp looked with earlier | later
      · rw [none _ earlier] at inside
        simp at inside
      · rcases List.mem_cons.mp later with here | after
        · exact .inr (.inr (.inl (here ▸ inside)))
        · exact .inr (.inr (.inr after))

theorem Fresh.invalidate (fresh : Fresh s) {controllerId : String}
    (quiet : s.inFlight.all (fun ask => ask.controllerId ≠ controllerId) = true) :
    Fresh (s.invalidate controllerId) := by
  have other (ask : Ask) (mem : ask ∈ s.inFlight) : ask.controllerId ≠ controllerId := by
    simpa using List.all_eq_true.mp quiet ask mem
  have kept {d : String} (ne : d ≠ controllerId) : (s.invalidate controllerId).epochs d = s.epochs d :=
    if_neg ne
  have rises (d : String) : s.epochs d ≤ (s.invalidate controllerId).epochs d := by
    by_cases hit : d = controllerId
    · simp [Pool.invalidate, hit]
    · rw [kept hit]
  have same (x : Connection) := x.invalidated_keeps controllerId
  refine ⟨fun d mem => ?_, fun r mem ask has => ?_, fun p holds => ?_, fresh.handouts, fresh.survivors⟩
  · obtain ⟨c, here, rfl⟩ := List.mem_map.mp mem
    obtain ⟨low, current⟩ := fresh.marked c here
    rw [Pool.Marked, (same c).2.1, (same c).2.2.2]
    refine ⟨low.trans (rises _), fun well => ?_⟩
    by_cases hit : c.controllerId = controllerId
    · rw [Connection.invalidated, if_pos hit] at well
      cases well
    · rw [Connection.invalidated, if_neg hit] at well
      rw [kept hit]
      exact current well
  · have flying : ask ∈ s.inFlight :=
      List.mem_append_left _ (List.mem_filterMap.mpr ⟨r, mem, has⟩)
    rw [Pool.Current, kept (other ask flying)]
    exact fresh.waiting r mem ask has
  · have before := fresh.point p holds
    have flying {ask : Ask} (has : p.ask = some ask) : ask.controllerId ≠ controllerId := by
      refine other ask (List.mem_append_right _ ?_)
      have here : s.holder = some p := holds
      simp [here, has]
    cases p with
    | pinging ask id rest =>
      obtain ⟨current, epochs⟩ := before
      rw [Pool.PointFresh, Pool.Current, kept (flying rfl)]
      refine ⟨current, fun d found => ?_⟩
      rw [Pool.invalidate, Table.lookup_map fun x _ => (same x).1] at found
      obtain ⟨c, here, rfl⟩ := Option.map_eq_some_iff.mp found
      rw [(same c).2.2.2]
      exact epochs c here
    | connecting lease ask =>
      rw [Pool.PointFresh, Pool.Current, kept (flying rfl)]
      exact before
    | connectingFresh ask =>
      rw [Pool.PointFresh, Pool.Current, kept (flying rfl)]
      exact before
    | closing => trivial
    | cleaning removing controllers since =>
      refine ⟨fun d => (before.1 d).trans (rises d), fun d mem => ?_⟩
      obtain ⟨c, here, rfl⟩ := List.mem_map.mp mem
      rw [(same c).1, (same c).2.1, (same c).2.2.1, (same c).2.2.2]
      exact before.2 c here

/-! ### Runs -/

theorem Fresh.enter (located : Located s) (fresh : Fresh s) (free : s.holder = none) {clock : Clock}
    {r : Request} (current : ∀ ask ∈ r.ask, s.Current ask)
    (reaps : r = .cleanup → s.reaps cfg s.epochs clock (s.tracked.map Connection.controllerId) = true) :
    Fresh (s.run cfg clock r) := by
  cases r with
  | acquire ask => exact fresh.scan (located.own_all ask) (current ask rfl)
  | share ask => exact fresh.share (current ask rfl) clock
  | adopt ask => exact fresh.adopt (current ask rfl) clock
  | release id =>
    exact fresh.update (f := Connection.release) (fun _ => ⟨rfl, rfl, fun well => well⟩) rfl
      (List.Subset.refl _) rfl rfl fresh.handouts (by simp [Pool.run, free])
  | close c => exact fresh.close (List.filter_subset_self _)
  | shutdown => exact fresh.close (List.nil_subset _)
  | cleanup =>
    refine fresh.clean (fun _ => le_refl _) (fun c mem => ?_) ?_
    · exact .inr (.inr (List.mem_dedup.mpr (List.mem_map_of_mem mem)))
    · simpa [Pool.reaps] using reaps rfl

theorem Fresh.moves {e : Event} (located : Located s) (fresh : Fresh s) (quiet : quiet cfg s e = true)
    (moves : Moves cfg s e t) : Fresh t := by
  cases moves with
  | @call request current =>
    refine ⟨fresh.marked, fun r mem ask has => ?_, fresh.point, fresh.handouts, fresh.survivors⟩
    rcases List.mem_append.mp mem with old | last
    · exact fresh.waiting r old ask has
    · rw [List.mem_singleton.mp last] at has
      cases request with
      | acquire a | share a =>
        obtain rfl := Option.some.inj has
        have now : a.epoch = s.epochs a.controllerId := of_decide_eq_true current
        exact now
      | adopt a =>
        obtain rfl := Option.some.inj has
        have now : a.epoch = s.epochs a.controllerId := of_decide_eq_true quiet
        exact now
      | _ => cases has
  | @enter index clock request free found =>
    have mem : request ∈ s.waiting := List.mem_of_getElem? found
    have start : Located { s with waiting := s.waiting.eraseIdx index, holder := none } :=
      located.wait rfl (closing_of_free free).symm rfl rfl (by simp)
    have begin : Fresh { s with waiting := s.waiting.eraseIdx index, holder := none } :=
      fresh.wait (List.Subset.refl _) List.eraseIdx_subset rfl fresh.survivors fresh.handouts (by simp)
    refine begin.enter start rfl (fresh.waiting request mem) fun same => ?_
    subst same
    have all : s.reaps cfg s.epochs clock (s.tracked.map Connection.controllerId) = true := by
      simpa [Adapters.quiet, found] using quiet
    exact all
  | @lease ask id rest clock c holds found =>
    have kept := fresh.handOut ((fresh.point _ holds).2 c found)
    exact kept.update (f := (·.acquire (clock id))) (fun _ => ⟨rfl, rfl, fun well => well⟩) rfl
      (List.Subset.refl _) rfl rfl kept.handouts (by simp [Pool.handOut])
  | @unwell ask id rest clock holds =>
    have begin : Fresh (s.unwell id) :=
      fresh.update (f := Connection.unhealthy) (fun _ => ⟨rfl, rfl, fun well => by cases well⟩) rfl
        (List.Subset.refl _) rfl rfl fresh.handouts (by simp [Pool.unwell])
    have own : s.Own ask rest := fun i mem => located.own ask id rest holds i (List.mem_cons_of_mem _ mem)
    exact begin.scan (own.unwell id) (fresh.point _ holds).1
  | raise =>
    exact fresh.wait (List.Subset.refl _) (List.Subset.refl _) rfl fresh.survivors fresh.handouts
      (by simp)
  | register holds => exact fresh.register (fresh.point _ holds) _ _
  | fresh holds => exact fresh.handOut (fresh.point _ holds)
  | @closed c rest clock holds =>
    refine fresh.wait (List.Subset.refl _) (List.Subset.refl _) rfl fresh.survivors fresh.handouts
      fun p eq => ?_
    by_cases none : rest = []
    · simp [none] at eq
    · simp only [none, ↓reduceIte, Option.some.injEq] at eq
      subst eq
      trivial
  | @cleaned id rest controllers since clock c holds found =>
    obtain ⟨low, left⟩ := fresh.point _ holds
    have key : c.id = id := Table.lookup_key found
    subst key
    have others {d : Connection} (mem : d ∈ (s.destroy c).tracked) : d.isAcquired = true ∨
        since d.controllerId ≤ d.epoch ∨ d.id ∈ rest ∨ d.controllerId ∈ controllers := by
      obtain ⟨inside, other⟩ := Table.mem_remove.mp mem
      have place := left d inside
      have ne : d.id ≠ c.id := other
      rw [List.mem_cons, or_iff_right ne] at place
      exact place
    have after {p : Option Point} (point : ∀ q, p = some q → (s.destroy c).PointFresh q) :
        Fresh { s.destroy c with holder := p } :=
      fresh.wait (List.filter_subset_self _) (List.Subset.refl _) rfl fresh.survivors fresh.handouts point
    by_cases last : rest = []
    · rw [if_pos last]
      subst last
      have begin : Fresh (s.destroy c) := by
        refine after (p := s.holder) fun q eq => ?_
        obtain rfl := Option.some.inj (holds.symm.trans eq)
        exact ⟨low, fun d mem => left d (List.mem_of_mem_filter mem)⟩
      refine begin.clean low (fun d mem => by simpa using others mem) ?_
      have all : s.reaps cfg since clock controllers = true := by
        simpa [Adapters.quiet, holds] using quiet
      exact List.all_eq_true.mpr fun d mem => List.all_eq_true.mp all d (List.mem_of_mem_filter mem)
    · rw [if_neg last]
      refine after ?_
      rintro q ⟨⟩
      exact ⟨low, fun d => others⟩
  | invalidate controllerId => exact fresh.invalidate quiet

/-- Invalidated connections stay out of use in every run whose steps are quiet: what a call returns was
opened with arguments passed after every invalidation of its controller so far, no idle connection from
before a pass of the cleanup outlives it, and a connection that is no longer tracked when the lock is
free was closed. -/
theorem invalidated_unused {events : List Event}
    (run : Runs (step cfg) (fun s e => quiet cfg s e = true) Pool.empty events s) :
    (∀ h ∈ s.handouts, h.epoch = h.current) ∧ s.survivors = [] ∧
      (s.holder = none → ∀ id < s.nextId, id ∉ s.tracked.map Connection.id →
        id ∈ s.destroyed.map Destroyed.id) := by
  obtain ⟨located, fresh⟩ : Located s ∧ Fresh s :=
    run.invariant (P := fun s => Located s ∧ Fresh s) ⟨.empty, .empty⟩ fun _ _ _ ok next here =>
      ⟨here.1.moves (.of_step next), here.2.moves here.1 ok (.of_step next)⟩
  refine ⟨fresh.handouts, fresh.survivors, fun free id small gone => ?_⟩
  have somewhere : id ∈ s.ids := located.accounted.mem_iff.mpr (List.mem_range.mpr small)
  rw [Pool.ids, closing_of_free free] at somewhere
  simpa [gone] using somewhere

/-! ### Two small runs -/

def twoConnections : Settings := ⟨2, 300, 3600⟩

def askOld : Ask := ⟨"omada", "c1", 0⟩

def askNew : Ask := { askOld with epoch := 1 }

/-- A connection that is invalidated, reaped once it has been idle for long, and opened again. -/
def invalidateAndReap : List Event :=
  [.call (.share askOld), .enter 0 (fun _ => 0), .connected true (fun _ => 0), .invalidate "c1",
   .call .cleanup, .enter 0 (fun _ => 301), .disconnected (fun _ => 301), .call (.share askNew),
   .enter 0 (fun _ => 302), .connected true (fun _ => 302)]

theorem invalidateAndReap_unused : ∃ s,
    Runs (step twoConnections) (fun s e => quiet twoConnections s e = true) Pool.empty
      invalidateAndReap s ∧
    s.handouts.map Handout.current = [0, 1] ∧ s.survivors = [] := by
  have ran : (exec (step twoConnections) (fun s e => quiet twoConnections s e = true) Pool.empty
      invalidateAndReap).any (fun s => decide (s.handouts.map Handout.current = [0, 1])) = true := by
    decide
  obtain ⟨s, ends, facts⟩ := (Option.any_eq_true _ _).mp ran
  have run := Runs.of_exec ends
  exact ⟨s, run, of_decide_eq_true facts, (invalidated_unused run).2.1⟩

/-- The controller is invalidated while a connection is opened for it, and a pass of the cleanup right
after finds the connection neither idle for long nor old. -/
def invalidateWhileConnecting : List Event :=
  [.call (.share askOld), .enter 0 (fun _ => 0), .invalidate "c1", .connected true (fun _ => 0),
   .call .cleanup, .enter 0 (fun _ => 0)]

theorem invalidateWhileConnecting_used :
    (¬ ∀ events s, Runs (step twoConnections) Free Pool.empty events s →
      ∀ h ∈ s.handouts, h.epoch = h.current) ∧
    (¬ ∀ events s, Runs (step twoConnections) Free Pool.empty events s → s.survivors = []) := by
  have ran : (exec (step twoConnections) Free Pool.empty invalidateWhileConnecting).any (fun s =>
      decide ((∃ h ∈ s.handouts, h.epoch ≠ h.current) ∧ s.survivors ≠ [])) = true := by decide
  obtain ⟨s, ends, facts⟩ := (Option.any_eq_true _ _).mp ran
  obtain ⟨⟨h, mem, old⟩, left⟩ := of_decide_eq_true facts
  have run := Runs.of_exec ends
  exact ⟨fun current => old (current invalidateWhileConnecting s run h mem),
    fun none => left (none invalidateWhileConnecting s run)⟩

end FreeSdn.Adapters
