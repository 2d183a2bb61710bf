import FreeSdn.Lib.Run
import Mathlib.Algebra.Order.Ring.Rat
import Mathlib.Data.Finset.Basic
import Mathlib.Data.Fintype.EquivFin
import Mathlib.Order.Lattice.Nat
import Mathlib.Tactic.Linarith

/-! The circuit breaker in front of a vendor API (`adapters/circuit_breaker.py`), and concurrent calls
through it.  The state after `OPEN` is meant for one probe, but `before_call` refuses calls only in
`OPEN`: a call that comes while the probe is out is admitted, and a call from before the trip that
reports while the probe is out ends the probing for it. -/

namespace FreeSdn.Adapters.Breaker

open FreeSdn.Lib

/-! ### The breaker -/

inductive CircuitState
  | closed
  | opened
  | halfOpen
  deriving DecidableEq

/-- Seconds of the monotonic clock. -/
abbrev Seconds := Rat

structure CircuitOpenError where
  name : String
  retryAfter : Seconds
  deriving DecidableEq

structure CircuitBreaker where
  name : String
  failureThreshold : Int
  cooldownSeconds : Seconds
  state : CircuitState
  consecutiveFailures : Int
  openedAt : Seconds

/-- A new breaker.  The threshold and the cooldown are at least one. -/
def create (name : String) (failureThreshold : Int) (cooldownSeconds : Seconds) : CircuitBreaker where
  name := name
  failureThreshold := max 1 failureThreshold
  cooldownSeconds := max 1 cooldownSeconds
  state := .closed
  consecutiveFailures := 0
  openedAt := 0

variable (b : CircuitBreaker) (now : Seconds)

/-- `_transition`. -/
def transition (state : CircuitState) : CircuitBreaker :=
  { b with
    state := state
    openedAt := if state = .opened then now else b.openedAt
    consecutiveFailures := if state = .closed then 0 else b.consecutiveFailures }

def beforeCall : Except CircuitOpenError CircuitBreaker :=
  if b.state = .opened then
    let elapsed := now - b.openedAt
    if b.cooldownSeconds ≤ elapsed then .ok (transition b now .halfOpen)
    else .error ⟨b.name, b.cooldownSeconds - elapsed⟩
  else .ok b

def onSuccess : CircuitBreaker :=
  let b := if b.state = .halfOpen then transition b now .closed else b
  { b with consecutiveFailures := 0 }

def onFailure : CircuitBreaker :=
  if b.state = .halfOpen then transition b now .opened
  else
    let b := { b with consecutiveFailures := b.consecutiveFailures + 1 }
    if b.failureThreshold ≤ b.consecutiveFailures then transition b now .opened else b

variable {b now}

/-! ### Concurrent calls -/

abbrev Call := Nat

/-- The steps of a call at their times: it asks to be admitted, and reports once. -/
inductive Event
  | before (call : Call) (now : Seconds)
  | success (call : Call) (now : Seconds)
  | failure (call : Call) (now : Seconds)

def Event.time : Event → Seconds
  | before _ now => now
  | success _ now => now
  | failure _ now => now

/-- A breaker and the calls through it.  An admitted call that has not reported is pending, with the
state in which it found the breaker. -/
structure World where
  breaker : CircuitBreaker
  clock : Seconds
  started : List Call
  pending : List (Call × CircuitState)

def World.report (w : World) (call : Call) (now : Seconds) (breaker : CircuitBreaker) : World :=
  { w with breaker := breaker, clock := now, pending := w.pending.filter (·.1 ≠ call) }

/-- One step of one call.  The clock does not go back, every call asks once and reports only after it
was admitted. -/
def step (w : World) (e : Event) : Option World :=
  if e.time < w.clock then none
  else
    match e with
    | .before call now =>
      if call ∈ w.started then none
      else
        match beforeCall w.breaker now with
        | .ok breaker => some ⟨breaker, now, call :: w.started, w.pending ++ [(call, w.breaker.state)]⟩
        | .error _ => some { w with clock := now, started := call :: w.started }
    | .success call now =>
      if call ∈ w.pending.map Prod.fst then some (w.report call now (onSuccess w.breaker now)) else none
    | .failure call now =>
      if call ∈ w.pending.map Prod.fst then some (w.report call now (onFailure w.breaker now)) else none

def start (b : CircuitBreaker) (clock : Seconds) : World := ⟨b, clock, [], []⟩

/-- A call that took the breaker out of `OPEN` has not reported. -/
def World.Probing (w : World) : Prop := ∃ call, (call, CircuitState.opened) ∈ w.pending

/-- A call is admitted while a probe is out. -/
def Intrudes (w : World) : Event → Prop
  | .before _ now => w.Probing ∧ ∃ breaker, beforeCall w.breaker now = .ok breaker
  | _ => False

/-- In `HALF_OPEN` no call asks to be admitted, and only a call that left `OPEN` reports. -/
def Orderly (w : World) (e : Event) : Prop :=
  w.breaker.state = .halfOpen →
    match e with
    | .before _ _ => False
    | .success call _ => (call, CircuitState.opened) ∈ w.pending
    | .failure call _ => (call, CircuitState.opened) ∈ w.pending

instance (w : World) : (e : Event) → Decidable (Orderly w e)
  | .before _ _ => inferInstanceAs (Decidable (w.breaker.state = .halfOpen → False))
  | .success call _ => inferInstanceAs
      (Decidable (w.breaker.state = .halfOpen → (call, CircuitState.opened) ∈ w.pending))
  | .failure call _ => inferInstanceAs
      (Decidable (w.breaker.state = .halfOpen → (call, CircuitState.opened) ∈ w.pending))

/-! ### What a step does -/

theorem beforeCall_ok {b' : CircuitBreaker} (h : beforeCall b now = .ok b') :
    b.state ≠ .opened ∧ b' = b ∨ b.state = .opened ∧ b' = transition b now .halfOpen := by
  unfold beforeCall at h
  split at h
  · rename_i opened
    dsimp only at h
    split at h
    · exact .inr ⟨opened, (Except.ok.inj h).symm⟩
    · cases h
  · rename_i other
    exact .inl ⟨other, (Except.ok.inj h).symm⟩

theorem beforeCall_admits (other : b.state ≠ .opened) : beforeCall b now = .ok b := if_neg other

theorem beforeCall_elapsed (opened : b.state = .opened) (h : b.cooldownSeconds ≤ now - b.openedAt) :
    beforeCall b now = .ok (transition b now .halfOpen) := by
  unfold beforeCall
  rw [if_pos opened]
  exact if_pos h

theorem onSuccess_state :
    (onSuccess b now).state = if b.state = .halfOpen then .closed else b.state := by
  unfold onSuccess
  split <;> rfl

theorem onFailure_probe (h : b.state = .halfOpen) : onFailure b now = transition b now .opened :=
  if_pos h

theorem onFailure_state : (onFailure b now).state ≠ .halfOpen := by
  unfold onFailure
  split
  · simp [transition]
  · rename_i other
    dsimp only
    split
    · simp [transition]
    · exact other

variable {w w' : World} {e : Event} {call : Call}

/-- Everything that a step can do. -/
theorem step_cases (h : step w e = some w') :
    w.clock ≤ e.time ∧
    ((∃ call now breaker, e = .before call now ∧ beforeCall w.breaker now = .ok breaker ∧
        w' = ⟨breaker, now, call :: w.started, w.pending ++ [(call, w.breaker.state)]⟩) ∨
      (∃ call now error, e = .before call now ∧ beforeCall w.breaker now = .error error ∧
        w' = { w with clock := now, started := call :: w.started }) ∨
      (∃ call now, e = .success call now ∧ w' = w.report call now (onSuccess w.breaker now)) ∨
      ∃ call now, e = .failure call now ∧ w' = w.report call now (onFailure w.breaker now)) := by
  unfold step at h
  split at h
  · cases h
  rename_i later
  refine ⟨not_lt.mp later, ?_⟩
  cases e with
  | before call now =>
    dsimp only at h
    split at h
    · cases h
    split at h
    · rename_i breaker admitted
      exact .inl ⟨call, now, breaker, rfl, admitted, (Option.some.inj h).symm⟩
    · rename_i error refused
      exact .inr (.inl ⟨call, now, error, rfl, refused, (Option.some.inj h).symm⟩)
  | success call now =>
    dsimp only at h
    split at h
    · exact .inr (.inr (.inl ⟨call, now, rfl, (Option.some.inj h).symm⟩))
    · cases h
  | failure call now =>
    dsimp only at h
    split at h
    · exact .inr (.inr (.inr ⟨call, now, rfl, (Option.some.inj h).symm⟩))
    · cases h

/-! ### The probe of an orderly run -/

/-- The pending calls that took the breaker out of `OPEN`. -/
def World.probes (w : World) : List (Call × CircuitState) := w.pending.filter (·.2 = .opened)

/-- There is one probe in `HALF_OPEN`, and none in the other states. -/
structure SoleProbe (w : World) : Prop where
  idle : w.breaker.state ≠ .halfOpen → w.probes = []
  one : w.breaker.state = .halfOpen → ∃ call, w.probes = [(call, .opened)]

theorem mem_probes : (call, .opened) ∈ w.probes ↔ (call, .opened) ∈ w.pending := by
  simp [World.probes]

theorem probes_report (breaker : CircuitBreaker) :
    (w.report call now breaker).probes = w.probes.filter (·.1 ≠ call) := by
  simp only [World.probes, World.report, List.filter_filter]
  congr 1
  funext entry
  exact Bool.and_comm _ _

theorem SoleProbe.probing (sole : SoleProbe w) : w.Probing ↔ w.breaker.state = .halfOpen := by
  constructor
  · rintro ⟨call, pending⟩
    by_contra other
    have mem := mem_probes.mpr pending
    rw [sole.idle other] at mem
    cases mem
  · intro here
    obtain ⟨call, only⟩ := sole.one here
    exact ⟨call, mem_probes.mp (by rw [only]; exact List.mem_singleton_self _)⟩

/-- A report in an orderly run leaves no probe. -/
theorem SoleProbe.report {breaker : CircuitBreaker} (sole : SoleProbe w)
    (orderly : w.breaker.state = .halfOpen → (call, CircuitState.opened) ∈ w.pending)
    (settled : breaker.state ≠ .halfOpen) : SoleProbe (w.report call now breaker) where
  idle _ := by
    rw [probes_report]
    by_cases here : w.breaker.state = .halfOpen
    · obtain ⟨probe, only⟩ := sole.one here
      have mem := mem_probes.mpr (orderly here)
      rw [only, List.mem_singleton] at mem
      obtain ⟨rfl, -⟩ := Prod.mk.inj mem
      rw [only]
      simp
    · rw [sole.idle here]
      rfl
  one here := absurd here settled

theorem SoleProbe.step (sole : SoleProbe w) (orderly : Orderly w e) (h : step w e = some w') :
    SoleProbe w' := by
  obtain ⟨-, ⟨call, now, breaker, rfl, admitted, rfl⟩ | ⟨call, now, error, rfl, refused, rfl⟩ |
    ⟨call, now, rfl, rfl⟩ | ⟨call, now, rfl, rfl⟩⟩ := step_cases h
  · have apart : w.breaker.state ≠ .halfOpen := fun here => orderly here
    have none := sole.idle apart
    rcases beforeCall_ok admitted with ⟨other, rfl⟩ | ⟨opened, rfl⟩
    · refine ⟨fun _ => ?_, fun here => absurd here apart⟩
      have plain : (World.mk w.breaker now (call :: w.started)
          (w.pending ++ [(call, w.breaker.state)])).probes = w.probes := by
        simp [World.probes, other]
      rw [plain, none]
    · refine ⟨fun settled => absurd rfl settled, fun _ => ⟨call, ?_⟩⟩
      have more : (World.mk (transition w.breaker now .halfOpen) now (call :: w.started)
          (w.pending ++ [(call, w.breaker.state)])).probes = w.probes ++ [(call, .opened)] := by
        simp [World.probes, opened]
      rw [more, none]
      rfl
  · exact ⟨sole.idle, sole.one⟩
  · refine sole.report orderly ?_
    rw [onSuccess_state]
    split
    · simp
    · assumption
  · exact sole.report orderly onFailure_state

theorem start_soleProbe {name : String} {threshold : Int} {cooldown clock : Seconds} :
    SoleProbe (start (create name threshold cooldown) clock) :=
  ⟨fun _ => rfl, fun here => by cases here⟩

/-- A call that has not asked yet. -/
theorem exists_fresh (started : List Call) : ∃ call, call ∉ started := by
  obtain ⟨call, fresh⟩ := Infinite.exists_notMem_finset started.toFinset
  exact ⟨call, by simpa using fresh⟩

/-- A fresh call that is admitted while a probe is out. -/
theorem intrusion (probing : w.Probing) (later : w.clock ≤ now) {breaker : CircuitBreaker}
    (admitted : beforeCall w.breaker now = .ok breaker) :
    ∃ call now w', step w (.before call now) = some w' ∧ Intrudes w (.before call now) := by
  obtain ⟨call, fresh⟩ := exists_fresh w.started
  refine ⟨call, now, ⟨breaker, now, call :: w.started, w.pending ++ [(call, w.breaker.state)]⟩, ?_,
    probing, breaker, admitted⟩
  have started : ¬ (Event.before call now).time < w.clock := not_lt.mpr later
  unfold Breaker.step
  rw [if_neg started]
  dsimp only
  rw [if_neg fresh, admitted]

/-- A step out of order lets a call in while the probe is out, at once or with one more call. -/
theorem SoleProbe.disorder (sole : SoleProbe w) (disorderly : ¬ Orderly w e)
    (h : Breaker.step w e = some w') :
    Intrudes w e ∨ ∃ call now w'', Breaker.step w' (.before call now) = some w'' ∧
      Intrudes w' (.before call now) := by
  obtain ⟨here, broken⟩ := Classical.not_imp.mp disorderly
  obtain ⟨probe, out⟩ := sole.probing.mpr here
  have stays {call : Call} {breaker : CircuitBreaker} {now : Seconds}
      (other : (call, CircuitState.opened) ∉ w.pending) : (w.report call now breaker).Probing := by
    refine ⟨probe, List.mem_filter.mpr ⟨out, ?_⟩⟩
    rw [decide_eq_true_eq]
    rintro rfl
    exact other out
  obtain ⟨-, ⟨call, now, breaker, rfl, admitted, rfl⟩ | ⟨call, now, error, rfl, refused, rfl⟩ |
    ⟨call, now, rfl, rfl⟩ | ⟨call, now, rfl, rfl⟩⟩ := step_cases h
  · exact .inl ⟨⟨probe, out⟩, breaker, admitted⟩
  · rw [beforeCall_admits (by rw [here]; simp)] at refused
    cases refused
  · refine .inr (intrusion (stays broken) le_rfl (beforeCall_admits ?_))
    show (onSuccess w.breaker now).state ≠ .opened
    rw [onSuccess_state, if_pos here]
    simp
  · -- the breaker opens again, and its cooldown may end before the probe reports
    have again : (w.report call now (onFailure w.breaker now)).breaker =
        transition w.breaker now .opened := onFailure_probe here
    have later : now ≤ now + max w.breaker.cooldownSeconds 0 := by
      have : 0 ≤ max w.breaker.cooldownSeconds 0 := le_max_right _ _
      linarith
    have waited : w.breaker.cooldownSeconds ≤ now + max w.breaker.cooldownSeconds 0 - now := by
      rw [add_sub_cancel_left]
      exact le_max_left _ _
    have admitted := beforeCall_elapsed (b := transition w.breaker now .opened) rfl waited
    rw [← again] at admitted
    exact .inr (intrusion (stays broken) later admitted)

theorem SoleProbe.unintruded (sole : SoleProbe w) (orderly : Orderly w e) : ¬ Intrudes w e := by
  cases e with
  | before call now => exact fun intrudes => orderly (sole.probing.mp intrudes.1)
  | success call now => exact id
  | failure call now => exact id

/-- No call is admitted while the probe is out, in every run in which nothing asks in `HALF_OPEN` and
no call from before the trip reports in it.  From every state of such a run a step out of that order
lets a call in while the probe is out, at once or with one more call. -/
theorem single_probe_admitted (name : String) (threshold : Int) (cooldown clock : Seconds)
    (es : List Event) (w : World)
    (run : Runs step Orderly (start (create name threshold cooldown) clock) es w) :
    Runs step (fun w e => ¬ Intrudes w e) (start (create name threshold cooldown) clock) es w ∧
    ∀ e w', step w e = some w' → ¬ Orderly w e →
      Intrudes w e ∨ ∃ call now w'', step w' (.before call now) = some w'' ∧
        Intrudes w' (.before call now) := by
  have both : Runs step (fun w e => ¬ Intrudes w e) (start (create name threshold cooldown) clock) es w ∧
      SoleProbe w := by
    induction run with
    | nil => exact ⟨.nil _, start_soleProbe⟩
    | snoc _ orderly next ih =>
      obtain ⟨kept, sole⟩ := ih
      exact ⟨kept.snoc (sole.unintruded orderly) next, sole.step orderly next⟩
  exact ⟨both.1, fun e w' next disorderly => both.2.disorder disorderly next⟩

/-- A breaker that one failure opens. -/
def quickBreaker : CircuitBreaker := create "omada" 1 30

/-- The breaker opens, a probe restores it, and the next call is admitted. -/
def probed : List Event :=
  [.before 0 0, .failure 0 1, .before 1 10, .before 2 31, .success 2 32, .before 3 32]

theorem probed_single : ∃ w, Runs step Orderly (start quickBreaker 0) probed w ∧
    Runs step (fun w e => ¬ Intrudes w e) (start quickBreaker 0) probed w := by
  have executes : (exec step Orderly (start quickBreaker 0) probed).isSome := by decide +kernel
  have run := Runs.to_after executes
  exact ⟨_, run, (single_probe_admitted "omada" 1 30 0 probed _ run).1⟩

/-- A second call is admitted while the probe is out. -/
theorem second_probe_admitted : ∃ w, Runs step Free (start quickBreaker 0)
    [.before 0 0, .failure 0 1, .before 1 31] w ∧ (step w (.before 2 31)).isSome ∧
      Intrudes w (.before 2 31) := by
  have executes : (exec step Free (start quickBreaker 0)
      [.before 0 0, .failure 0 1, .before 1 31]).isSome := by decide +kernel
  refine ⟨_, Runs.to_after executes, by decide +kernel, ⟨1, by decide +kernel⟩, ?_⟩
  exact ⟨_, beforeCall_admits (by decide +kernel)⟩

end FreeSdn.Adapters.Breaker
