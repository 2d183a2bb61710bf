import FreeSdn.Fabric.Negotiator
import Mathlib.Data.List.Flatten

/-! When step chains run: at most once for an event while its claim lives, spaced by the cooldown
claims, only for a Connection that its worker admitted, and with every executed operation granted to
the author first. -/

namespace FreeSdn.Fabric

open FreeSdn.Lib

variable {s s' s₀ : World} {c : Call} {m : Moved} {e : Event} {es : List Event}

/-! ### What an act does -/

/-- The acts of a call, with what each leaves. -/
inductive Acted (s : World) (c : Call) : Act → Moved → Prop
  | advance {met : Bool} {id : String} {ids : List String} : c.phase = .scanning →
      c.remaining = id :: ids →
      Acted s c (.advance met) ⟨s.redis, c.advance (s.connections c.worker) id ids met, []⟩
  | claim {conn : Connection} {eventId : String} : c.phase = .claiming conn →
      c.event.identity = some eventId →
      Acted s c .set (sendSet s c (eventLease conn eventId s.now) fun acquired =>
        .claimAnswered conn acquired s.now)
  | cool {conn : Connection} {claimedAt : Time} : c.phase = .cooling conn claimedAt →
      Acted s c .set (sendSet s c (cooldownLease conn s.now) fun acquired =>
        .coolAnswered conn claimedAt acquired s.now)
  /-- The call goes on without the claim. -/
  | refused {lost : Bool} : Acted s c (.reply lost) ⟨s.redis, c.to .scanning, []⟩
  | claimed {conn : Connection} {claimedAt : Time} : c.phase = .claimAnswered conn true claimedAt →
      0 < conn.cooldownSeconds →
      Acted s c (.reply false) ⟨s.redis, c.to (.cooling conn claimedAt), []⟩
  | unlimited {conn : Connection} {claimedAt : Time} :
      c.phase = .claimAnswered conn true claimedAt → ¬ 0 < conn.cooldownSeconds →
      Acted s c (.reply false) ⟨s.redis, c.to (.ready conn claimedAt none), []⟩
  | cooled {conn : Connection} {claimedAt cooledAt : Time} :
      c.phase = .coolAnswered conn claimedAt true cooledAt →
      Acted s c (.reply false) ⟨s.redis, c.to (.ready conn claimedAt (some cooledAt)), []⟩
  | start {conn : Connection} {claimedAt : Time} {cooledAt : Option Time} {eventId : String} :
      c.phase = .ready conn claimedAt cooledAt → c.event.identity = some eventId →
      Acted s c (.start conn) ⟨s.redis, c.to (.running conn conn.steps .between),
        [⟨c.id, c.worker, conn, c.event, eventId, claimedAt, cooledAt, s.now⟩]⟩
  | checked {conn : Connection} {steps : List ConnectionStep} {op : Operation}
      {reply : CheckerReply} : c.phase = .running conn steps (.checking op) →
      checkPermission op reply = true →
      Acted s c (.check op conn.actorId conn.organizationId reply)
        ⟨s.redis, c.to (.running conn steps (.allowed op)), []⟩
  | execute {conn : Connection} {steps : List ConnectionStep} {op : Operation} :
      c.phase = .running conn steps (.allowed op) →
      Acted s c (.execute op) ⟨s.redis, c.to (.running conn steps (.executing op)), []⟩
  /-- The chain goes on, but to no allowed operation. -/
  | chain {a : Act} {conn : Connection} {steps steps' : List ConnectionStep} {stage stage' : Stage} :
      c.phase = .running conn steps stage → (∀ conn, a ≠ .start conn) → (∀ op, a ≠ .execute op) →
      (∀ op, stage' ≠ .allowed op) →
      Acted s c a ⟨s.redis, c.to (.running conn steps' stage'), []⟩
  /-- The chain ends. -/
  | ended {a : Act} {conn : Connection} {steps : List ConnectionStep} {stage : Stage} :
      c.phase = .running conn steps stage → (∀ conn, a ≠ .start conn) → (∀ op, a ≠ .execute op) →
      Acted s c a ⟨s.redis, c.to .scanning, []⟩

variable {a : Act}

theorem afterStep_acted {conn : Connection} {steps steps' : List ConnectionStep} {stage : Stage}
    {step : ConnectionStep} {success : Bool} (phase : c.phase = .running conn steps stage)
    (unstarted : ∀ conn, a ≠ .start conn) (unexecuted : ∀ op, a ≠ .execute op) :
    Acted s c a ⟨s.redis, c.to (afterStep conn step steps' success), []⟩ := by
  unfold afterStep
  split
  · exact .ended phase unstarted unexecuted
  · exact .chain phase unstarted unexecuted (by simp)

theorem act_acted (h : act s c a = some m) : Acted s c a m := by
  unfold act at h
  dsimp only at h
  split at h
  · rename_i met phase
    split at h
    · simp at h
    · rename_i id ids remaining
      obtain rfl := Option.some.inj h
      exact .advance phase remaining
  · rename_i conn phase
    obtain ⟨eventId, identity, rfl⟩ := Option.map_eq_some_iff.mp h
    exact .claim phase identity
  · rename_i conn claimedAt phase
    obtain rfl := Option.some.inj h
    exact .cool phase
  · obtain rfl := Option.some.inj h
    exact .refused
  · rename_i lost conn acquired claimedAt phase
    split at h
    · rename_i granted
      simp only [Bool.and_eq_true, Bool.not_eq_true'] at granted
      obtain ⟨rfl, rfl⟩ := granted
      split at h
      · rename_i limited
        obtain rfl := Option.some.inj h
        exact .claimed phase limited
      · rename_i unlimited
        obtain rfl := Option.some.inj h
        exact .unlimited phase unlimited
    · obtain rfl := Option.some.inj h
      exact .refused
  · obtain rfl := Option.some.inj h
    exact .refused
  · rename_i lost conn claimedAt acquired cooledAt phase
    split at h
    · rename_i granted
      simp only [Bool.and_eq_true, Bool.not_eq_true'] at granted
      obtain ⟨rfl, rfl⟩ := granted
      obtain rfl := Option.some.inj h
      exact .cooled phase
    · obtain rfl := Option.some.inj h
      exact .refused
  · rename_i conn' conn claimedAt cooledAt phase
    split at h
    · rename_i same
      subst same
      obtain ⟨eventId, identity, rfl⟩ := Option.map_eq_some_iff.mp h
      exact .start phase identity
    · simp at h
  · rename_i op conn step steps phase
    cases op with
    | none =>
      obtain rfl := Option.some.inj h
      exact afterStep_acted phase (by simp) (by simp)
    | some op =>
      dsimp only at h
      split at h
      · obtain rfl := Option.some.inj h
        exact .chain phase (by simp) (by simp) (by simp)
      · simp at h
  · rename_i op actorId organizationId reply conn step steps op' phase
    split at h
    · rename_i same
      obtain ⟨rfl, rfl, rfl⟩ := same
      split at h
      · rename_i granted
        obtain rfl := Option.some.inj h
        exact .checked phase granted
      · obtain rfl := Option.some.inj h
        exact afterStep_acted phase (by simp) (by simp)
    · simp at h
  · rename_i op conn step steps op' phase
    split at h
    · rename_i same
      subst same
      obtain rfl := Option.some.inj h
      exact .execute phase
    · simp at h
  · rename_i success conn step steps op phase
    obtain rfl := Option.some.inj h
    exact afterStep_acted phase (by simp) (by simp)
  · rename_i conn step steps stage phase
    obtain rfl := Option.some.inj h
    exact afterStep_acted phase (by simp) (by simp)
  · rename_i conn phase
    obtain rfl := Option.some.inj h
    exact .ended phase (by simp) (by simp)
  · simp at h

/-! ### The claims that a call holds -/

def claimLeases (conn : Connection) (eventId : String) (claimedAt : Time) (cooledAt : Option Time) :
    List (Lease String) :=
  eventLease conn eventId claimedAt :: (cooledAt.map (cooldownLease conn)).toList

/-- The leases that a call in this phase was granted and may still use. -/
def Phase.leases (eventId : String) : Phase → List (Lease String)
  | .claimAnswered conn true claimedAt => claimLeases conn eventId claimedAt none
  | .cooling conn claimedAt => claimLeases conn eventId claimedAt none
  | .coolAnswered conn claimedAt acquired cooledAt =>
    claimLeases conn eventId claimedAt (if acquired then some cooledAt else none)
  | .ready conn claimedAt cooledAt => claimLeases conn eventId claimedAt cooledAt
  | _ => []

def Call.leases (c : Call) : List (Lease String) := c.phase.leases (c.event.identity.getD "")

def Start.leases (x : Start) : List (Lease String) :=
  claimLeases x.connection x.eventId x.claimedAt x.cooledAt

/-- The leases of the started chains and of the calls. -/
def World.leases (s : World) : List (Lease String) :=
  s.started.flatMap Start.leases ++ s.calls.flatMap Call.leases

theorem advance_leases {connections : List Connection} {id : String} {ids : List String} {met : Bool}
    (phase : c.phase = .scanning) : (c.advance connections id ids met).leases = [] := by
  unfold Call.advance
  dsimp only
  split
  · simp [Call.leases, phase, Phase.leases]
  · split <;> simp [Call.leases, Call.to, phase, Phase.leases]

/-- The leases that a `SET` of the call leaves. -/
theorem sendSet_leases {l : Lease String} {answered : Bool → Phase} {rest : List (Lease String)}
    (since : l.since = s.now)
    (granted : (c.to (answered true)).leases.Perm (l :: c.leases))
    (refused : (c.to (answered false)).leases = c.leases)
    (g : Guarded s.redis s.now (c.leases ++ rest)) :
    Guarded (sendSet s c l answered).redis s.now
      ((sendSet s c l answered).started.flatMap Start.leases ++
        (sendSet s c l answered).call.leases ++ rest) := by
  unfold sendSet
  split
  · rename_i redis set
    have own : (⟨l.key, s.now, l.ttl⟩ : Lease String) = l := by rw [← since]
    have grown := g.grant set
    rw [own] at grown
    exact grown.perm (List.Perm.append_right rest granted.symm)
  · rw [refused]
    exact g

/-- An act keeps the leases of its call and of the others apart. -/
theorem Acted.guarded (acted : Acted s c a m) {rest : List (Lease String)}
    (g : Guarded s.redis s.now (c.leases ++ rest)) :
    Guarded m.redis s.now (m.started.flatMap Start.leases ++ m.call.leases ++ rest) := by
  have dropped : Guarded s.redis s.now rest := g.sublist (List.sublist_append_right _ _)
  cases acted with
  | advance phase => simpa [advance_leases phase] using dropped
  | @claim conn eventId phase identity =>
    refine sendSet_leases rfl ?_ ?_ g
    · simp [Call.leases, Call.to, Phase.leases, claimLeases, phase, identity]
    · simp [Call.leases, Call.to, Phase.leases, phase]
  | cool phase =>
    refine sendSet_leases rfl ?_ ?_ g
    · simpa [Call.leases, Call.to, Phase.leases, claimLeases, phase] using List.Perm.swap _ _ []
    · simp [Call.leases, Call.to, Phase.leases, phase]
  | refused => simpa [Call.leases, Call.to, Phase.leases] using dropped
  | claimed phase => simpa [Call.leases, Call.to, Phase.leases, phase] using g
  | unlimited phase => simpa [Call.leases, Call.to, Phase.leases, phase] using g
  | cooled phase => simpa [Call.leases, Call.to, Phase.leases, phase] using g
  | start phase identity =>
    simpa [Call.leases, Start.leases, Call.to, Phase.leases, phase, identity] using g
  | checked => simpa [Call.leases, Call.to, Phase.leases] using dropped
  | execute => simpa [Call.leases, Call.to, Phase.leases] using dropped
  | chain => simpa [Call.leases, Call.to, Phase.leases] using dropped
  | ended => simpa [Call.leases, Call.to, Phase.leases] using dropped

/-! ### Runs -/

/-- The calls are told apart, and the server guards what they and the started chains hold. -/
structure Kept (s : World) : Prop where
  calls : Table.Unique s.calls
  guarded : Guarded s.redis s.now s.leases

/-- What a step does to the calls. -/
inductive Stepped (s : World) : Event → World → Prop
  | handle {call worker : Nat} {event : BusEvent} : Table.lookup s.calls call = none →
      Stepped s (.handle call worker event)
        { s with
          calls := s.calls ++ [⟨call, worker, event, (s.connections worker).map (·.id), .scanning⟩] }
  | act {a : Act} {m : Moved} {front back : List Call} {c : Call} :
      s.calls = front ++ c :: back → Acted s c a m →
      Stepped s (.act c.id a)
        { s with
          redis := m.redis, calls := front ++ m.call :: back, started := s.started ++ m.started }
  | die {call : Nat} : Stepped s (.die call) { s with calls := Table.remove s.calls call }
  | change {worker : Nat} {connections : List Connection} :
      Stepped s (.change worker connections)
        { s with connections := fun w => if w = worker then connections else s.connections w }
  | stray {key : String} {ttl : Time} {redis : Expiry String} :
      setNx s.redis s.now key ttl = some redis → Stepped s (.stray key ttl) { s with redis := redis }
  | tick {d : Time} : Stepped s (.tick d) { s with now := s.now + d }

theorem step_stepped (unique : Table.Unique s.calls) (h : step s e = some s') : Stepped s e s' := by
  cases e with
  | handle call worker event =>
    simp only [step] at h
    split at h
    · rename_i fresh
      obtain rfl := Option.some.inj h
      exact .handle (by simpa using fresh.1)
    · simp at h
  | act call a =>
    obtain ⟨c, found, h⟩ := Option.bind_eq_some_iff.mp h
    obtain ⟨m, acts, rfl⟩ := Option.map_eq_some_iff.mp h
    obtain rfl := Table.lookup_key found
    obtain ⟨front, back, order, changed⟩ := unique.update_split (f := fun _ => m.call) found
    rw [changed]
    exact .act order (act_acted acts)
  | die call =>
    obtain rfl := Option.some.inj h
    exact .die
  | change worker connections =>
    simp only [step] at h
    split at h
    · obtain rfl := Option.some.inj h
      exact .change
    · simp at h
  | stray key ttl =>
    obtain ⟨redis, set, rfl⟩ := Option.map_eq_some_iff.mp h
    exact .stray set
  | tick d =>
    obtain rfl := Option.some.inj h
    exact .tick

theorem Acted.id (acted : Acted s c a m) : m.call.id = c.id := by
  cases acted with
  | advance =>
    unfold Call.advance
    dsimp only
    split
    · rfl
    · split <;> rfl
  | claim | cool =>
    unfold sendSet
    split <;> rfl
  | refused | claimed | unlimited | cooled | start | checked | execute | chain | ended => rfl

theorem Kept.step (kept : Kept s) (h : step s e = some s') : Kept s' := by
  obtain ⟨calls, guarded⟩ := kept
  cases step_stepped calls h with
  | handle fresh =>
    refine ⟨calls.append (Table.lookup_none.mp fresh), ?_⟩
    simpa [World.leases, List.flatMap_append, Call.leases, Phase.leases] using guarded
  | @act a m front back c order acted =>
    refine ⟨?_, ?_⟩
    · simpa [Table.Unique, order, acted.id] using calls
    · -- the leases of the call in front of all others
      have before : s.leases.Perm (c.leases ++ (s.started.flatMap Start.leases ++
          (front.flatMap Call.leases ++ back.flatMap Call.leases))) := by
        refine List.perm_iff_count.mpr fun l => ?_
        simp only [World.leases, order, List.flatMap_append, List.flatMap_cons, List.count_append]
        omega
      refine (acted.guarded (guarded.perm before)).perm (List.perm_iff_count.mpr fun l => ?_)
      simp only [World.leases, List.flatMap_append, List.flatMap_cons, List.count_append]
      omega
  | die =>
    refine ⟨calls.remove, guarded.sublist ?_⟩
    exact List.Sublist.append_left (List.Sublist.flatMap List.filter_sublist _) _
  | change => exact ⟨calls, guarded⟩
  | stray set => exact ⟨calls, guarded.stray set⟩
  | tick => exact ⟨calls, guarded.later _⟩

/-- Workers that have not handled an event; the server may hold any keys. -/
structure Boot (s : World) : Prop where
  calls : s.calls = []
  started : s.started = []

theorem Boot.kept (boot : Boot s) : Kept s := by
  refine ⟨by simp [boot.calls, Table.unique_nil], ?_⟩
  simpa [World.leases, boot.calls, boot.started] using Guarded.nil s.redis s.now

theorem kept_run (boot : Boot s₀) (run : Runs step Free s₀ es s) : Kept s :=
  run.invariant boot.kept fun _ _ _ _ next kept => kept.step next

/-- The leases of the started chains do not overlap. -/
theorem Kept.apart (kept : Kept s) : s.started.Pairwise fun x y =>
    ∀ l ∈ x.leases, ∀ k ∈ y.leases, Apart l k := by
  have all := kept.guarded.apart
  rw [World.leases, List.pairwise_append, List.pairwise_flatMap] at all
  exact all.1.2

/-! ### Admission -/

/-- In `m` the call of the worker goes on to send its claim for the Connection, which the worker has
loaded and which admits the event. -/
structure Sends (m : World) (call worker : Nat) (event : BusEvent) (conn : Connection) (met : Bool) :
    Prop where
  sends : ∃ c ∈ m.calls, c.id = call ∧ c.worker = worker ∧ c.event = event ∧
    (act m c (.advance met)).map (·.call.phase) = some (.claiming conn)
  loaded : conn ∈ m.connections worker
  admitted : conn.admits event = true
  identified : event.identity.isSome = true

/-- Among `es` is the act by which the call sent its claim for the Connection, at the latest at
`claimedAt`. -/
def Issued (s₀ : World) (es : List Event) (call worker : Nat) (event : BusEvent) (conn : Connection)
    (claimedAt : Time) : Prop :=
  ∃ met, Took step Free s₀ es (.act call (.advance met)) fun m =>
    Sends m call worker event conn met ∧ m.now ≤ claimedAt

theorem Issued.snoc {call worker : Nat} {event : BusEvent} {conn : Connection}
    {claimedAt later : Time} (h : Issued s₀ es call worker event conn claimedAt)
    (le : claimedAt ≤ later) : Issued s₀ (es ++ [e]) call worker event conn later := by
  obtain ⟨met, took⟩ := h
  exact ⟨met, (took.mono fun m h => ⟨h.1, h.2.trans le⟩).extend e⟩

/-- A cooldown claim stands exactly for a positive cooldown, and is not later than `now`. -/
def CooledFor (conn : Connection) (cooledAt : Option Time) (now : Time) : Prop :=
  (cooledAt.isSome = true ↔ 0 < conn.cooldownSeconds) ∧ ∀ t, cooledAt = some t → t ≤ now

theorem CooledFor.later {conn : Connection} {cooledAt : Option Time} {now later : Time}
    (h : CooledFor conn cooledAt now) (le : now ≤ later) : CooledFor conn cooledAt later :=
  ⟨h.1, fun t here => (h.2 t here).trans le⟩

/-- What the phase of a call says about the claims it waits for or holds. -/
def PhaseOk (s₀ : World) (es : List Event) (now : Time) (c : Call) : Prop :=
  let issued := Issued s₀ es c.id c.worker c.event
  match c.phase with
  | .claiming conn => issued conn now
  | .claimAnswered conn _ claimedAt => issued conn claimedAt
  | .cooling conn claimedAt => issued conn claimedAt ∧ 0 < conn.cooldownSeconds
  | .coolAnswered conn claimedAt _ cooledAt =>
    issued conn claimedAt ∧ CooledFor conn (some cooledAt) now
  | .ready conn claimedAt cooledAt => issued conn claimedAt ∧ CooledFor conn cooledAt now
  | _ => True

/-- What is known of a started chain. -/
structure StartOk (s₀ : World) (es : List Event) (x : Start) : Prop where
  identity : x.event.identity = some x.eventId
  issued : Issued s₀ es x.call x.worker x.event x.connection x.claimedAt
  cooled : CooledFor x.connection x.cooledAt x.startedAt

structure Traced (s₀ : World) (es : List Event) (s : World) : Prop where
  calls : ∀ c ∈ s.calls, PhaseOk s₀ es s.now c
  started : ∀ x ∈ s.started, StartOk s₀ es x

theorem StartOk.snoc {x : Start} (h : StartOk s₀ es x) : StartOk s₀ (es ++ [e]) x :=
  ⟨h.identity, h.issued.snoc (le_refl _), h.cooled⟩

theorem PhaseOk.snoc {now later : Time} (h : PhaseOk s₀ es now c) (le : now ≤ later) :
    PhaseOk s₀ (es ++ [e]) later c := by
  unfold PhaseOk at h ⊢
  dsimp only at h ⊢
  split
  · rename_i phase
    rw [phase] at h
    exact h.snoc le
  · rename_i phase
    rw [phase] at h
    exact h.snoc (le_refl _)
  · rename_i phase
    rw [phase] at h
    exact ⟨h.1.snoc (le_refl _), h.2⟩
  · rename_i phase
    rw [phase] at h
    exact ⟨h.1.snoc (le_refl _), h.2.later le⟩
  · rename_i phase
    rw [phase] at h
    exact ⟨h.1.snoc (le_refl _), h.2.later le⟩
  · trivial

/-- A call that has nothing to show. -/
theorem phaseOk_scanning {now : Time} (phase : c.phase = .scanning) : PhaseOk s₀ es now c := by
  simp [PhaseOk, phase]

theorem phaseOk_running {now : Time} {conn : Connection} {steps : List ConnectionStep} {stage : Stage}
    (phase : c.phase = .running conn steps stage) : PhaseOk s₀ es now c := by
  simp [PhaseOk, phase]

/-- The loop claims only for a Connection that is loaded and admits the event. -/
theorem advance_phaseOk {met : Bool} {id : String} {ids : List String}
    (run : Runs step Free s₀ es s) (known : c ∈ s.calls) (phase : c.phase = .scanning)
    (remaining : c.remaining = id :: ids) :
    PhaseOk s₀ (es ++ [.act c.id (.advance met)]) s.now
      (c.advance (s.connections c.worker) id ids met) := by
  unfold Call.advance
  dsimp only
  split
  · exact phaseOk_scanning phase
  · rename_i conn found
    split
    · rename_i admitted
      have claims : (act s c (.advance met)).map (·.call.phase) = some (.claiming conn) := by
        simp [act, phase, remaining, Call.advance, found, admitted, Call.to]
      simp only [Bool.and_eq_true] at admitted
      exact ⟨met, Took.last run ⟨⟨⟨c, known, rfl, rfl, rfl, claims⟩, Table.lookup_mem found,
        admitted.1.1, admitted.2⟩, le_refl _⟩⟩
    · exact phaseOk_scanning phase

/-- An act leaves a call and started chains that are accounted for. -/
theorem Acted.traced (acted : Acted s c a m) (run : Runs step Free s₀ es s) (known : c ∈ s.calls)
    (h : PhaseOk s₀ es s.now c) :
    PhaseOk s₀ (es ++ [.act c.id a]) s.now m.call ∧
      ∀ x ∈ m.started, StartOk s₀ (es ++ [.act c.id a]) x := by
  have held := h.snoc (e := .act c.id a) (le_refl s.now)
  cases acted with
  | advance phase remaining => exact ⟨advance_phaseOk run known phase remaining, by simp⟩
  | claim phase =>
    simp only [PhaseOk, phase] at held
    unfold sendSet
    split <;> exact ⟨held, by simp⟩
  | cool phase =>
    simp only [PhaseOk, phase] at held
    have cooled : CooledFor _ (some s.now) s.now := ⟨by simpa using held.2, by simp⟩
    unfold sendSet
    split <;> exact ⟨⟨held.1, cooled⟩, by simp⟩
  | refused => exact ⟨phaseOk_scanning rfl, by simp⟩
  | claimed phase limited =>
    simp only [PhaseOk, phase] at held
    exact ⟨⟨held, limited⟩, by simp⟩
  | unlimited phase unlimited =>
    simp only [PhaseOk, phase] at held
    exact ⟨⟨held, by simpa [CooledFor] using unlimited⟩, by simp⟩
  | cooled phase =>
    simp only [PhaseOk, phase] at held
    exact ⟨held, by simp⟩
  | start phase identity =>
    simp only [PhaseOk, phase] at held
    refine ⟨phaseOk_running rfl, fun x here => ?_⟩
    rw [List.mem_singleton.mp here]
    exact ⟨identity, held.1, held.2⟩
  | checked => exact ⟨phaseOk_running rfl, by simp⟩
  | execute => exact ⟨phaseOk_running rfl, by simp⟩
  | chain => exact ⟨phaseOk_running rfl, by simp⟩
  | ended => exact ⟨phaseOk_scanning rfl, by simp⟩

theorem Traced.step (traced : Traced s₀ es s) (kept : Kept s) (run : Runs step Free s₀ es s)
    (h : step s e = some s') : Traced s₀ (es ++ [e]) s' := by
  obtain ⟨calls, started⟩ := traced
  have old (x : Start) (mem : x ∈ s.started) : StartOk s₀ (es ++ [e]) x := (started x mem).snoc
  have still (c : Call) (mem : c ∈ s.calls) : PhaseOk s₀ (es ++ [e]) s.now c :=
    (calls c mem).snoc (le_refl _)
  cases step_stepped kept.calls h with
  | handle =>
    refine ⟨fun c mem => ?_, old⟩
    rcases List.mem_append.mp mem with known | new
    · exact still c known
    · rw [List.mem_singleton.mp new]
      exact phaseOk_scanning rfl
  | @act a m front back c order acted =>
    have here : c ∈ s.calls := by simp [order]
    obtain ⟨call, new⟩ := acted.traced run here (calls c here)
    refine ⟨fun d mem => ?_, fun x mem => ?_⟩
    · rcases List.mem_append.mp mem with before | later
      · exact still d (by simp [order, before])
      · rcases List.mem_cons.mp later with rfl | behind
        · exact call
        · exact still d (by simp [order, behind])
    · rcases List.mem_append.mp mem with known | fresh
      · exact old x known
      · exact new x fresh
  | die => exact ⟨fun c mem => still c (Table.mem_remove.mp mem).1, old⟩
  | change => exact ⟨still, old⟩
  | stray => exact ⟨still, old⟩
  | tick => exact ⟨fun c mem => (calls c mem).snoc (Nat.le_add_right _ _), old⟩

theorem traced_run (boot : Boot s₀) (run : Runs step Free s₀ es s) : Traced s₀ es s := by
  have both : Runs step Free s₀ es s ∧ Traced s₀ es s := by
    refine run.traced (P := fun es s => Runs step Free s₀ es s ∧ Traced s₀ es s)
      ⟨.nil s₀, by simp [boot.calls], by simp [boot.started]⟩ ?_
    rintro es t e u free next ⟨prior, traced⟩
    exact ⟨prior.snoc free next, traced.step (kept_run boot prior) prior next⟩
  exact both.2

/-! ### Permission -/

/-- The event starts a chain in this call. -/
def Event.starts (call : Nat) : Event → Bool
  | .act k (.start _) => k = call
  | _ => false

/-- The call is in the chain of this Connection. -/
def InChain (es : List Event) (call : Nat) (conn : Connection) : Prop :=
  ∃ before after, es = before ++ .act call (.start conn) :: after ∧
    ∀ e ∈ after, e.starts call = false

/-- In the chain that the call is in, the check granted the operation to the author of the Connection,
and the call has done nothing since. -/
def Granted (es : List Event) (call : Nat) (conn : Connection) (op : Operation) : Prop :=
  ∃ chain reply after,
    es = chain ++ .act call (.check op conn.actorId conn.organizationId reply) :: after ∧
    checkPermission op reply = true ∧ InChain chain call conn ∧
    ∀ e ∈ after, ∀ a, e ≠ .act call a

theorem InChain.snoc {call : Nat} {conn : Connection} (h : InChain es call conn)
    (quiet : e.starts call = false) : InChain (es ++ [e]) call conn := by
  obtain ⟨before, after, rfl, none⟩ := h
  refine ⟨before, after ++ [e], by simp, fun f mem => ?_⟩
  rcases List.mem_append.mp mem with old | new
  · exact none f old
  · rw [List.mem_singleton.mp new]
    exact quiet

theorem Granted.snoc {call : Nat} {conn : Connection} {op : Operation} (h : Granted es call conn op)
    (other : ∀ a, e ≠ .act call a) : Granted (es ++ [e]) call conn op := by
  obtain ⟨chain, reply, after, rfl, granted, inside, none⟩ := h
  refine ⟨chain, reply, after ++ [e], by simp, granted, inside, fun f mem => ?_⟩
  rcases List.mem_append.mp mem with old | new
  · exact none f old
  · rw [List.mem_singleton.mp new]
    exact other

/-- A running call is in the chain of its Connection, and an allowed operation was granted. -/
def Authorized (es : List Event) (c : Call) : Prop :=
  ∀ conn steps stage, c.phase = .running conn steps stage → InChain es c.id conn ∧
    ∀ op, stage = .allowed op → Granted es c.id conn op

theorem Authorized.snoc (h : Authorized es c) (other : ∀ a, e ≠ .act c.id a) :
    Authorized (es ++ [e]) c := by
  intro conn steps stage phase
  obtain ⟨inside, granted⟩ := h conn steps stage phase
  have quiet : e.starts c.id = false := by
    cases e with
    | act k a =>
      have different : k ≠ c.id := fun same => other a (by rw [same])
      cases a <;> simp [Event.starts, different]
    | handle | die | change | stray | tick => rfl
  exact ⟨inside.snoc quiet, fun op allowed => (granted op allowed).snoc other⟩

theorem authorized_idle (idle : ∀ conn steps stage, c.phase ≠ .running conn steps stage) :
    Authorized es c := fun conn steps stage phase => absurd phase (idle conn steps stage)

/-- The chain goes on to a stage that allows nothing. -/
theorem Authorized.on {conn : Connection} {steps steps' : List ConnectionStep} {stage stage' : Stage}
    (h : Authorized es c) (phase : c.phase = .running conn steps stage)
    (unstarted : ∀ conn, a ≠ .start conn) (idle : ∀ op, stage' ≠ .allowed op) :
    Authorized (es ++ [.act c.id a]) (c.to (.running conn steps' stage')) := by
  intro conn' steps'' stage'' next
  simp only [Call.to, Phase.running.injEq] at next
  obtain ⟨rfl, -, rfl⟩ := next
  have quiet : Event.starts c.id (.act c.id a) = false := by
    cases a with
    | start conn => exact absurd rfl (unstarted conn)
    | advance | set | reply | lookup | check | execute | settle | crash | finish => rfl
  exact ⟨(h _ _ _ phase).1.snoc quiet, fun op allowed => absurd allowed (idle op)⟩

theorem Acted.authorized (acted : Acted s c a m) (h : Authorized es c) :
    Authorized (es ++ [.act c.id a]) m.call := by
  cases acted with
  | advance phase =>
    refine authorized_idle fun conn steps stage => ?_
    unfold Call.advance
    dsimp only
    split
    · simp [phase]
    · split <;> simp [Call.to, phase]
  | claim | cool =>
    refine authorized_idle fun conn steps stage => ?_
    unfold sendSet
    split <;> simp [Call.to]
  | refused | claimed | unlimited | cooled | ended =>
    exact authorized_idle fun conn steps stage => by simp [Call.to]
  | start phase =>
    intro conn steps stage next
    simp only [Call.to, Phase.running.injEq] at next
    obtain ⟨rfl, -, rfl⟩ := next
    exact ⟨⟨es, [], rfl, by simp⟩, by simp⟩
  | checked phase granted =>
    intro conn steps stage next
    simp only [Call.to, Phase.running.injEq] at next
    obtain ⟨rfl, -, rfl⟩ := next
    have inside := (h _ _ _ phase).1
    refine ⟨inside.snoc rfl, fun op allowed => ?_⟩
    obtain rfl := Stage.allowed.inj allowed
    exact ⟨es, _, [], rfl, granted, inside, by simp⟩
  | execute phase => exact h.on phase (by simp) (by simp)
  | chain phase unstarted unexecuted idle => exact h.on phase unstarted idle

theorem authorized_step (kept : Kept s) (h : ∀ c ∈ s.calls, Authorized es c)
    (next : step s e = some s') : ∀ c ∈ s'.calls, Authorized (es ++ [e]) c := by
  cases step_stepped kept.calls next with
  | handle =>
    intro c mem
    rcases List.mem_append.mp mem with known | new
    · exact (h c known).snoc (by simp)
    · rw [List.mem_singleton.mp new]
      exact authorized_idle (by simp)
  | @act a m front back c order acted =>
    have unique := kept.calls
    rw [order, Table.Unique, List.map_append, List.nodup_append, List.map_cons,
      List.nodup_cons] at unique
    obtain ⟨-, ⟨behind, -⟩, apart⟩ := unique
    have other (d : Call) (known : d ∈ s.calls) (different : d.id ≠ c.id) :
        Authorized (es ++ [.act c.id a]) d := by
      refine (h d known).snoc fun b same => ?_
      exact different (Event.act.inj same).1.symm
    intro d mem
    rcases List.mem_append.mp mem with before | later
    · refine other d (by simp [order, before]) ?_
      exact apart d.id (List.mem_map_of_mem before) c.id (by simp)
    · rcases List.mem_cons.mp later with rfl | after
      · exact acted.authorized (h c (by simp [order]))
      · refine other d (by simp [order, after]) fun same => behind ?_
        exact List.mem_map.mpr ⟨d, after, same⟩
  | die => exact fun c mem => (h c (Table.mem_remove.mp mem).1).snoc (by simp)
  | change | stray | tick => exact fun c mem => (h c mem).snoc (by simp)

theorem authorized_run (boot : Boot s₀) (run : Runs step Free s₀ es s) :
    ∀ c ∈ s.calls, Authorized es c := by
  have both : Kept s ∧ ∀ c ∈ s.calls, Authorized es c := by
    refine run.traced (P := fun es s => Kept s ∧ ∀ c ∈ s.calls, Authorized es c)
      ⟨boot.kept, by simp [boot.calls]⟩ ?_
    rintro es t e u - next ⟨kept, authorized⟩
    exact ⟨kept.step next, authorized_step kept authorized next⟩
  exact both.2

/-- Every executed operation was granted in its chain. -/
theorem execute_granted {before after : List Event} {call : Nat} {op : Operation} (boot : Boot s₀)
    (run : Runs step Free s₀ (before ++ .act call (.execute op) :: after) s) :
    ∃ conn, Granted before call conn op := by
  obtain ⟨m, start, rest⟩ := run.split
  obtain ⟨u, -, next, -⟩ := rest.uncons
  obtain ⟨c, found, h⟩ := Option.bind_eq_some_iff.mp next
  obtain ⟨moved, acts, -⟩ := Option.map_eq_some_iff.mp h
  obtain rfl := Table.lookup_key found
  have authorized := authorized_run boot start c (Table.lookup_mem found)
  cases act_acted acts with
  | execute phase => exact ⟨_, (authorized _ _ _ phase).2 op rfl⟩
  | chain _ _ unexecuted => exact absurd rfl (unexecuted op)
  | ended _ _ unexecuted => exact absurd rfl (unexecuted op)

/-! ### Chains -/

/-- Two entries that cannot both be there leave at most one. -/
theorem length_le_one {α : Type} {l : List α} {R : α → α → Prop} (pairs : l.Pairwise R)
    (none : ∀ x ∈ l, ∀ y ∈ l, ¬ R x y) : l.length ≤ 1 := by
  match l with
  | [] => simp
  | [x] => simp
  | x :: y :: _ =>
    have first := (List.pairwise_cons.mp pairs).1 y (by simp)
    exact absurd first (none x (by simp) y (by simp))

/-- The chain was started for the event by a claim that was granted in the lifetime from `t` on. -/
def Start.firedIn (connectionId eventId : String) (t : Time) (x : Start) : Bool :=
  x.connection.id = connectionId && x.eventId = eventId && t ≤ x.claimedAt &&
    x.claimedAt < t + claimLifetime

theorem Kept.fired_once (kept : Kept s) (connectionId eventId : String) (t : Time) :
    (s.started.filter (Start.firedIn connectionId eventId t)).length ≤ 1 := by
  refine length_le_one (kept.apart.sublist List.filter_sublist) ?_
  intro x hx y hy apart
  have fired (z : Start) (hz : z ∈ s.started.filter (Start.firedIn connectionId eventId t)) :
      z.connection.id = connectionId ∧ z.eventId = eventId ∧ t ≤ z.claimedAt ∧
        z.claimedAt < t + claimLifetime := by
    have here := (List.mem_filter.mp hz).2
    simp only [Start.firedIn, Bool.and_eq_true, decide_eq_true_eq, and_assoc] at here
    exact here
  obtain ⟨rfl, rfl, low, high⟩ := fired x hx
  obtain ⟨same, event, low', high'⟩ := fired y hy
  have key : firedKey x.connection.id x.eventId = firedKey y.connection.id y.eventId := by
    rw [same, event]
  have spaced := apart (eventLease x.connection x.eventId x.claimedAt) (by simp [Start.leases, claimLeases])
    (eventLease y.connection y.eventId y.claimedAt) (by simp [Start.leases, claimLeases]) key
  rcases spaced with later | later
  · exact absurd (high'.trans_le ((Nat.add_le_add_right low _).trans later)) (lt_irrefl _)
  · exact absurd (high.trans_le ((Nat.add_le_add_right low' _).trans later)) (lt_irrefl _)

/-- The cooldown claims of two chains of one Connection do not overlap. -/
def SpacedByCooldown (x y : Start) : Prop :=
  x.connection.id = y.connection.id → 0 < x.connection.cooldownSeconds →
    0 < y.connection.cooldownSeconds → ∃ t u, x.cooledAt = some t ∧ y.cooledAt = some u ∧
      (t + seconds x.connection.cooldownSeconds.toNat ≤ u ∨
        u + seconds y.connection.cooldownSeconds.toNat ≤ t)

theorem Kept.spaced (kept : Kept s) (traced : Traced s₀ es s) :
    s.started.Pairwise SpacedByCooldown := by
  refine kept.apart.imp_of_mem ?_
  intro x y hx hy apart same cooling cooling'
  obtain ⟨t, here⟩ := Option.isSome_iff_exists.mp ((traced.started x hx).cooled.1.mpr cooling)
  obtain ⟨u, here'⟩ := Option.isSome_iff_exists.mp ((traced.started y hy).cooled.1.mpr cooling')
  have key : cooldownKey x.connection.id = cooldownKey y.connection.id := by rw [same]
  exact ⟨t, u, here, here', apart (cooldownLease x.connection t) (by simp [Start.leases, claimLeases, here])
    (cooldownLease y.connection u) (by simp [Start.leases, claimLeases, here']) key⟩

/-- Step chains over any interleaving of the workers: at most one for an event in the lifetime of its
claim, each for an event with an identity and a Connection that its worker had loaded, enabled, for
the organization and the type of the event, when it sent the claim; the cooldown claims behind two
chains of a Connection are spaced by the earlier cooldown, and no chain starts before its own; and no
operation is executed that the check did not grant to the author in that chain. -/
theorem chains_fire_once_with_authority {s₀ s : World} {es : List Event} (boot : Boot s₀)
    (run : Runs step Free s₀ es s) :
    (∀ connectionId eventId t,
      (s.started.filter (Start.firedIn connectionId eventId t)).length ≤ 1) ∧
    (∀ x ∈ s.started, x.event.identity = some x.eventId ∧
      Issued s₀ es x.call x.worker x.event x.connection x.claimedAt) ∧
    s.started.Pairwise SpacedByCooldown ∧
    (∀ x ∈ s.started, ∀ t, x.cooledAt = some t → t ≤ x.startedAt) ∧
    ∀ before call op after, es = before ++ .act call (.execute op) :: after →
      ∃ conn, Granted before call conn op := by
  have kept := kept_run boot run
  have traced := traced_run boot run
  refine ⟨kept.fired_once, fun x mem => ?_, kept.spaced traced, fun x mem => ?_, ?_⟩
  · exact ⟨(traced.started x mem).identity, (traced.started x mem).issued⟩
  · exact (traced.started x mem).cooled.2
  · rintro before call op after rfl
    exact execute_granted boot run

/-! ### Small runs -/

def notify : Operation := ⟨"fabric.notify", some "fabric:notify", .native, false⟩

def doorbell (cooldownSeconds : Int) : Connection :=
  { id := "c", organizationId := "o", sourceEvent := "door.*", steps := [⟨"fabric.notify", true⟩]
    enabled := true, conditions := none, actorId := some "u", cooldownSeconds := cooldownSeconds }

/-- Every worker has the Connection, and Redis is empty. -/
def oneConnection (cooldownSeconds : Int) : World :=
  ⟨0, fun _ => none, fun _ => [doorbell cooldownSeconds], [], []⟩

def ring (id : String) : BusEvent := ⟨some id, "door.rung", some "o"⟩

theorem oneConnection_boot (cooldownSeconds : Int) : Boot (oneConnection cooldownSeconds) := ⟨rfl, rfl⟩

/-- Two workers get one event, and the first to claim it runs the chain. -/
def racingWorkers : List Event :=
  [.handle 0 0 (ring "e"), .handle 1 1 (ring "e"), .act 0 (.advance true), .act 1 (.advance true),
   .act 0 .set, .act 1 .set, .act 1 (.reply false), .act 0 (.reply false),
   .act 0 (.start (doorbell 0)), .act 0 (.lookup (some notify)),
   .act 0 (.check notify (some "u") "o" (.answered true)), .act 0 (.execute notify)]

theorem racingWorkers_fire_once :
    ∃ s, Runs step Free (oneConnection 0) racingWorkers s ∧
      (s.started.filter (Start.firedIn "c" "e" 0)).length = 1 ∧
      ∃ conn, Granted (racingWorkers.dropLast) 0 conn notify := by
  have ran : (exec step Free (oneConnection 0) racingWorkers).any
      (fun s => decide (0 < (s.started.filter (Start.firedIn "c" "e" 0)).length)) = true := by
    decide +kernel
  obtain ⟨s, ends, fired⟩ := (Option.any_eq_true _ _).mp ran
  have run := Runs.of_exec ends
  obtain ⟨once, -, -, -, granted⟩ := chains_fire_once_with_authority (oneConnection_boot 0) run
  exact ⟨s, run, le_antisymm (once "c" "e" 0) (of_decide_eq_true fired), granted _ 0 notify [] rfl⟩

/-- The reply to the first cooldown claim takes three seconds, so that its chain starts only seven
seconds before the next one. -/
def lateReply : List Event :=
  [.handle 0 0 (ring "e"), .act 0 (.advance true), .act 0 .set, .act 0 (.reply false), .act 0 .set,
   .tick (seconds 3), .act 0 (.reply false), .act 0 (.start (doorbell 10)),
   .tick (seconds 7), .handle 1 1 (ring "f"), .act 1 (.advance true), .act 1 .set,
   .act 1 (.reply false), .act 1 .set, .act 1 (.reply false), .act 1 (.start (doorbell 10))]

/-- Two starts of one Connection may be closer than its cooldown. -/
theorem late_reply_shortens_cooldown :
    ¬ ∀ s₀ s es, Boot s₀ → Runs step Free s₀ es s → s.started.Pairwise fun x y =>
      x.connection = y.connection → 0 < x.connection.cooldownSeconds →
        x.startedAt + seconds x.connection.cooldownSeconds.toNat ≤ y.startedAt ∨
          y.startedAt + seconds y.connection.cooldownSeconds.toNat ≤ x.startedAt := by
  intro claim
  have ran : (exec step Free (oneConnection 10) lateReply).any (fun s =>
      decide (s.started.map (fun x => (x.connection, x.startedAt)) =
        [(doorbell 10, seconds 3), (doorbell 10, seconds 10)])) = true := by
    decide +kernel
  obtain ⟨s, ends, starts⟩ := (Option.any_eq_true _ _).mp ran
  have spaced := claim _ s _ (oneConnection_boot 10) (Runs.of_exec ends)
  have pairs : (s.started.map fun x => (x.connection, x.startedAt)).Pairwise fun x y =>
      x.1 = y.1 → 0 < x.1.cooldownSeconds → x.2 + seconds x.1.cooldownSeconds.toNat ≤ y.2 ∨
        y.2 + seconds y.1.cooldownSeconds.toNat ≤ x.2 := List.pairwise_map.mpr spaced
  rw [of_decide_eq_true starts] at pairs
  simp [doorbell, seconds] at pairs

end FreeSdn.Fabric
