import FreeSdn.Lib.Run
import Mathlib.Algebra.Order.Group.Multiset
import Mathlib.Tactic.Abel

/-! The flush task of the NetFlow receiver (`modules/collector/services/netflow.py`): what it drains,
what it stores, and where the flows are while it waits.  A step runs from one `await` of the task to
the next, so a cancellation is delivered between steps.  The lock is never held across an `await`. -/

namespace FreeSdn.Collector

open FreeSdn.Lib

variable {φ : Type}

/-- `_FlowBatch`. -/
structure FlowBatch (φ : Type) where
  flows : List φ
  attempts : Nat
  deriving DecidableEq

/-- `_MAX_BATCH_ATTEMPTS`. -/
def maxBatchAttempts : Nat := 3

/-- From where `_flush_loop` called `_flush`: the loop, the handler of the cancellation, or the
`finally` block. -/
inductive Caller
  | loop | handler | final
  deriving DecidableEq

/-- Where the flush task waits. -/
inductive Point (φ : Type)
  | created
  | sleeping
  /-- At the lock of `_flush`, before the drain. -/
  | draining (caller : Caller)
  /-- In the insert of a batch, with the batches that follow it. -/
  | inserting (caller : Caller) (batch : FlowBatch φ) (rest : List (FlowBatch φ))
  /-- The commit is done and the task has not resumed. -/
  | stored (caller : Caller) (rest : List (FlowBatch φ))
  /-- At the lock that guards the append of a failed batch. -/
  | requeueing (caller : Caller) (batch : FlowBatch φ) (rest : List (FlowBatch φ))
  | done
  deriving DecidableEq

structure Receiver (φ : Type) where
  /-- `_session_factory` is set. -/
  sessions : Bool
  pending : List φ
  pendingRetry : List (FlowBatch φ)
  task : Point φ
  database : List φ
  dropped : List φ
  /-- Every flow that was ever appended to `_pending`. -/
  added : List φ
  /-- `stop` has returned. -/
  stopped : Bool
  deriving DecidableEq

def Receiver.start (sessions : Bool) : Receiver φ := ⟨sessions, [], [], .created, [], [], [], false⟩

/-- `_flush` up to its lock. -/
def beginFlush (sessions : Bool) (caller : Caller) : Point φ :=
  if sessions then .draining caller
  else if caller = .loop then .sleeping else .done

/-- What the task waits for after a pass of `_flush`. -/
def endFlush (sessions : Bool) : Caller → Point φ
  | .loop => .sleeping
  | .handler => beginFlush sessions .final
  | .final => .done

/-- The batches still to be persisted. -/
def persist (sessions : Bool) (caller : Caller) : List (FlowBatch φ) → Point φ
  | [] => endFlush sessions caller
  | batch :: rest => .inserting caller batch rest

/-- Where a cancellation leads.  In the handler the `finally` block still flushes. -/
def Point.cancel (sessions : Bool) : Point φ → Option (Point φ)
  | .created => some .done
  | .sleeping => some (beginFlush sessions .handler)
  | .draining caller | .inserting caller _ _ | .stored caller _ | .requeueing caller _ _ =>
    match caller with
    | .loop => some (beginFlush sessions .handler)
    | .handler => some (beginFlush sessions .final)
    | .final => some .done
  | .done => none

inductive Event (φ : Type)
  /-- `_handle` appends the flows of a packet. -/
  | handle (flows : List φ)
  /-- The task begins, or its sleep ends. -/
  | wake
  /-- The task gets the lock it waits for. -/
  | lock
  | commit
  /-- The task resumes after the commit. -/
  | resume
  /-- The insert raises. -/
  | fail
  | cancel
  /-- `stop` returns. -/
  | stop

def step (s : Receiver φ) : Event φ → Option (Receiver φ)
  | .handle flows =>
    some { s with pending := s.pending ++ flows, added := s.added ++ flows }
  | .wake =>
    match s.task with
    | .created => some { s with task := .sleeping }
    | .sleeping => some { s with task := beginFlush s.sessions .loop }
    | _ => none
  | .lock =>
    match s.task with
    | .draining caller =>
      if s.pending = [] ∧ s.pendingRetry = [] then
        some { s with task := endFlush s.sessions caller }
      else
        let batches := s.pendingRetry ++ if s.pending = [] then [] else [⟨s.pending, 0⟩]
        some { s with pending := [], pendingRetry := [], task := persist s.sessions caller batches }
    | .requeueing caller batch rest =>
      some { s with
        pendingRetry := s.pendingRetry ++ [batch], task := persist s.sessions caller rest }
    | _ => none
  | .commit =>
    match s.task with
    | .inserting caller batch rest =>
      some { s with database := s.database ++ batch.flows, task := .stored caller rest }
    | _ => none
  | .resume =>
    match s.task with
    | .stored caller rest => some { s with task := persist s.sessions caller rest }
    | _ => none
  | .fail =>
    match s.task with
    | .inserting caller batch rest =>
      let batch := { batch with attempts := batch.attempts + 1 }
      if batch.attempts < maxBatchAttempts then some { s with task := .requeueing caller batch rest }
      else some { s with
        dropped := s.dropped ++ batch.flows, task := persist s.sessions caller rest }
    | _ => none
  | .cancel => (s.task.cancel s.sessions).map fun task => { s with task := task }
  | .stop =>
    match s.task with
    | .done => some { s with stopped := true }
    | _ => none

/-! ### Where the flows are -/

def flowsOf (batches : List (FlowBatch φ)) : List φ := batches.flatMap FlowBatch.flows

/-- The batches that a pass has drained and neither stored nor put away. -/
def Point.held : Point φ → List (FlowBatch φ)
  | .inserting _ batch rest | .requeueing _ batch rest => batch :: rest
  | .stored _ rest => rest
  | _ => []

/-- The flows in the five places where one may be. -/
def Receiver.places (s : Receiver φ) : List φ :=
  s.pending ++ flowsOf s.pendingRetry ++ flowsOf s.task.held ++ s.database ++ s.dropped

@[simp] theorem held_beginFlush (b : Bool) (c : Caller) : (beginFlush b c : Point φ).held = [] := by
  unfold beginFlush
  split_ifs <;> rfl

@[simp] theorem held_endFlush (b : Bool) (c : Caller) : (endFlush b c : Point φ).held = [] := by
  cases c with
  | loop | final => rfl
  | handler => exact held_beginFlush b .final

@[simp] theorem held_persist (b : Bool) (c : Caller) (rest : List (FlowBatch φ)) :
    (persist b c rest).held = rest := by
  cases rest with
  | nil => exact held_endFlush b c
  | cons => rfl

/-- A cancellation forgets the batches that the pass holds. -/
theorem held_cancel {b : Bool} {p q : Point φ} (h : p.cancel b = some q) : q.held = [] := by
  cases p with
  | created =>
    obtain rfl := Option.some.inj h
    rfl
  | sleeping =>
    obtain rfl := Option.some.inj h
    exact held_beginFlush b .handler
  | draining c | inserting c | stored c | requeueing c =>
    cases c with
    | loop =>
      obtain rfl := Option.some.inj h
      exact held_beginFlush b .handler
    | handler =>
      obtain rfl := Option.some.inj h
      exact held_beginFlush b .final
    | final =>
      obtain rfl := Option.some.inj h
      rfl
  | done => cases h

/-- What a step can do to the flows.  The other fields of the state stay as they are. -/
inductive Moves (s : Receiver φ) : Event φ → Receiver φ → Prop
  | handle (flows : List φ) :
      Moves s (.handle flows) { s with pending := s.pending ++ flows, added := s.added ++ flows }
  | idle {e : Event φ} {task : Point φ} (same : task.held = s.task.held) (cancel : e ≠ .cancel)
      (running : s.task ≠ .done) : Moves s e { s with task := task }
  | drain {task : Point φ} (none : s.task.held = [])
      (all : task.held = s.pendingRetry ++ if s.pending = [] then [] else [⟨s.pending, 0⟩])
      (running : s.task ≠ .done) :
      Moves s .lock { s with pending := [], pendingRetry := [], task := task }
  | requeue {task : Point φ} {batch : FlowBatch φ} {rest : List (FlowBatch φ)}
      (held : s.task.held = batch :: rest) (left : task.held = rest) (running : s.task ≠ .done) :
      Moves s .lock { s with pendingRetry := s.pendingRetry ++ [batch], task := task }
  | store {task : Point φ} {batch : FlowBatch φ} {rest : List (FlowBatch φ)}
      (held : s.task.held = batch :: rest) (left : task.held = rest) (running : s.task ≠ .done) :
      Moves s .commit { s with database := s.database ++ batch.flows, task := task }
  | retry {task : Point φ} {batch : FlowBatch φ} {rest : List (FlowBatch φ)}
      (held : s.task.held = batch :: rest)
      (left : task.held = { batch with attempts := batch.attempts + 1 } :: rest)
      (running : s.task ≠ .done) : Moves s .fail { s with task := task }
  | drop {task : Point φ} {batch : FlowBatch φ} {rest : List (FlowBatch φ)}
      (held : s.task.held = batch :: rest) (left : task.held = rest)
      (spent : maxBatchAttempts ≤ batch.attempts + 1) (running : s.task ≠ .done) :
      Moves s .fail { s with dropped := s.dropped ++ batch.flows, task := task }
  | cancel {task : Point φ} (lost : task.held = []) (running : s.task ≠ .done) :
      Moves s .cancel { s with task := task }
  | stop (ended : s.task = .done) : Moves s .stop { s with stopped := true }

theorem Moves.of_step {s t : Receiver φ} {e : Event φ} (h : step s e = some t) : Moves s e t := by
  cases e with
  | handle flows =>
    obtain rfl := Option.some.inj h
    exact .handle flows
  | wake =>
    cases ht : s.task with
    | created =>
      rw [step, ht] at h
      obtain rfl := Option.some.inj h
      exact .idle (by rw [ht]; rfl) (by simp) (by simp [ht])
    | sleeping =>
      rw [step, ht] at h
      obtain rfl := Option.some.inj h
      exact .idle (by rw [ht]; exact held_beginFlush _ _) (by simp) (by simp [ht])
    | _ => simp [step, ht] at h
  | lock =>
    cases ht : s.task with
    | draining c =>
      simp only [step, ht] at h
      split at h
      · obtain rfl := Option.some.inj h
        exact .idle (by rw [ht]; exact held_endFlush _ _) (by simp) (by simp [ht])
      · obtain rfl := Option.some.inj h
        exact .drain (by rw [ht]; rfl) (held_persist _ _ _) (by simp [ht])
    | requeueing c batch rest =>
      rw [step, ht] at h
      obtain rfl := Option.some.inj h
      exact .requeue (by rw [ht]; rfl) (held_persist _ _ _) (by simp [ht])
    | _ => simp [step, ht] at h
  | commit =>
    cases ht : s.task with
    | inserting c batch rest =>
      rw [step, ht] at h
      obtain rfl := Option.some.inj h
      exact .store (by rw [ht]; rfl) rfl (by simp [ht])
    | _ => simp [step, ht] at h
  | resume =>
    cases ht : s.task with
    | stored c rest =>
      rw [step, ht] at h
      obtain rfl := Option.some.inj h
      exact .idle (by rw [ht]; exact held_persist _ _ _) (by simp) (by simp [ht])
    | _ => simp [step, ht] at h
  | fail =>
    cases ht : s.task with
    | inserting c batch rest =>
      simp only [step, ht] at h
      split at h
      · obtain rfl := Option.some.inj h
        exact .retry (by rw [ht]; rfl) rfl (by simp [ht])
      · next spent =>
        obtain rfl := Option.some.inj h
        exact .drop (by rw [ht]; rfl) (held_persist _ _ _) (by simpa using spent) (by simp [ht])
    | _ => simp [step, ht] at h
  | cancel =>
    obtain ⟨task, led, rfl⟩ := Option.map_eq_some_iff.mp h
    refine .cancel (held_cancel led) fun ended => ?_
    rw [ended] at led
    cases led
  | stop =>
    simp only [step] at h
    split at h
    · next ended =>
      obtain rfl := Option.some.inj h
      exact .stop ended
    · cases h

theorem flowsOf_append (a b : List (FlowBatch φ)) : flowsOf (a ++ b) = flowsOf a ++ flowsOf b := by
  simp [flowsOf]

theorem flowsOf_cons (a : FlowBatch φ) (b : List (FlowBatch φ)) :
    flowsOf (a :: b) = a.flows ++ flowsOf b := by
  simp [flowsOf]

/-- The places and the flows of a packet are moved about, never copied or lost, by every step but a
cancellation. -/
theorem Moves.conserves {s t : Receiver φ} {e : Event φ} (moves : Moves s e t) (calm : e ≠ .cancel)
    (whole : s.places.Perm s.added) : t.places.Perm t.added := by
  rw [← Multiset.coe_eq_coe] at whole ⊢
  simp only [Receiver.places, ← Multiset.coe_add] at whole ⊢
  cases moves with
  | handle flows =>
    simp only [← Multiset.coe_add, ← whole]
    abel
  | idle same => simp only [same, ← whole]
  | drain none all =>
    have single : (flowsOf (if s.pending = [] then [] else [⟨s.pending, 0⟩]) : Multiset φ) =
        s.pending := by
      split_ifs with empty
      · simp [flowsOf, empty]
      · simp [flowsOf]
    simp only [none, all, flowsOf_append, ← Multiset.coe_add, single, ← whole]
    simp only [flowsOf, List.flatMap_nil, Multiset.coe_nil]
    abel
  | requeue held left =>
    simp only [held, left, flowsOf_append, flowsOf_cons, ← Multiset.coe_add, ← whole]
    simp only [flowsOf, List.flatMap_nil, Multiset.coe_nil]
    abel
  | store held left =>
    simp only [held, left, flowsOf_cons, ← Multiset.coe_add, ← whole]
    abel
  | retry held left => simp only [held, left, flowsOf_cons, ← whole]
  | drop held left =>
    simp only [held, left, flowsOf_cons, ← Multiset.coe_add, ← whole]
    abel
  | cancel => exact absurd rfl calm
  | stop => simp only [← whole]

/-- A cancellation loses what the pass holds and nothing else. -/
theorem Moves.cancelled {s t : Receiver φ} (moves : Moves s .cancel t) :
    s.places.Perm (t.places ++ flowsOf s.task.held) ∧ t.added = s.added := by
  cases moves with
  | idle _ cancel => exact absurd rfl cancel
  | cancel lost =>
    refine ⟨?_, rfl⟩
    rw [← Multiset.coe_eq_coe]
    simp only [Receiver.places, ← Multiset.coe_add, lost]
    simp only [flowsOf, List.flatMap_nil, Multiset.coe_nil]
    abel

/-- No cancellation reaches the task while it holds drained batches. -/
def Calm (s : Receiver φ) : Event φ → Prop
  | .cancel => s.task.held = []
  | _ => True

instance (s : Receiver φ) : (e : Event φ) → Decidable (Calm s e)
  | .cancel => inferInstanceAs (Decidable (s.task.held = []))
  | .handle _ | .wake | .lock | .commit | .resume | .fail | .stop => inferInstanceAs (Decidable True)

structure Kept (s : Receiver φ) : Prop where
  whole : s.places.Perm s.added
  /-- No batch is empty. -/
  filled : ∀ b ∈ s.pendingRetry ++ s.task.held, b.flows ≠ []
  ended : s.stopped = true → s.task = .done

theorem Kept.start (sessions : Bool) : Kept (Receiver.start sessions : Receiver φ) where
  whole := .refl _
  filled := by simp [Receiver.start, Point.held]
  ended := by simp [Receiver.start]

theorem Moves.filled {s t : Receiver φ} {e : Event φ} (moves : Moves s e t)
    (filled : ∀ b ∈ s.pendingRetry ++ s.task.held, b.flows ≠ []) :
    ∀ b ∈ t.pendingRetry ++ t.task.held, b.flows ≠ [] := by
  intro b mem
  cases moves with
  | handle | stop => exact filled b mem
  | idle same => exact filled b (by simpa [same] using mem)
  | drain none all =>
    rw [all] at mem
    have split : b ∈ s.pendingRetry ∨ s.pending ≠ [] ∧ b = ⟨s.pending, 0⟩ := by simpa using mem
    rcases split with old | ⟨some, rfl⟩
    · exact filled b (List.mem_append_left _ old)
    · exact some
  | requeue held left =>
    refine filled b ?_
    rw [held]
    simpa [left] using mem
  | store held left | drop held left =>
    refine filled b ?_
    rw [held]
    simp only [left, List.mem_append, List.mem_cons] at mem ⊢
    tauto
  | @retry task batch rest held left =>
    simp only [left, List.mem_append, List.mem_cons] at mem
    rcases mem with old | rfl | later
    · exact filled b (List.mem_append_left _ old)
    · exact filled batch (by simp [held])
    · exact filled b (by simp [held, later])
  | cancel lost =>
    rw [lost, List.append_nil] at mem
    exact filled b (List.mem_append_left _ mem)

theorem Moves.ended {s t : Receiver φ} {e : Event φ} (moves : Moves s e t)
    (ended : s.stopped = true → s.task = .done) : t.stopped = true → t.task = .done := by
  intro stopped
  cases moves with
  | handle => exact ended stopped
  | stop done => exact done
  | idle _ _ running | drain _ _ running | requeue _ _ running | store _ _ running
  | retry _ _ running | drop _ _ _ running | cancel _ running => exact absurd (ended stopped) running

theorem Kept.step {s t : Receiver φ} {e : Event φ} (kept : Kept s) (calm : Calm s e)
    (h : step s e = some t) : Kept t := by
  have moves := Moves.of_step h
  refine ⟨?_, moves.filled kept.filled, moves.ended kept.ended⟩
  cases e with
  | cancel =>
    obtain ⟨lost, same⟩ := moves.cancelled
    have held : s.task.held = [] := calm
    rw [held] at lost
    rw [same]
    exact ((List.append_nil t.places) ▸ lost).symm.trans kept.whole
  | _ => exact moves.conserves (by simp) kept.whole

/-- Where no cancellation reaches the task while it holds drained batches, every flow that was
collected is in one place, and nothing is held when `stop` returns.  A cancellation at any other point
loses flows. -/
theorem flows_conserved {sessions : Bool} {events : List (Event φ)} {s : Receiver φ}
    (run : Runs step Calm (Receiver.start sessions) events s) :
    s.places.Perm s.added ∧ (s.stopped = true → s.task.held = []) ∧
      ∀ t, step s .cancel = some t → (t.places.Perm t.added ↔ s.task.held = []) := by
  have kept : Kept s := run.invariant (.start sessions) fun _ _ _ calm next here => here.step calm next
  refine ⟨kept.whole, fun stopped => by rw [kept.ended stopped]; rfl, fun t next => ?_⟩
  constructor
  · intro whole
    obtain ⟨lost, same⟩ := (Moves.of_step next).cancelled
    have sizes := (lost.symm.trans (kept.whole.trans (same ▸ whole.symm))).length_eq
    have none : flowsOf s.task.held = [] := by
      rw [List.length_append] at sizes
      exact List.length_eq_zero_iff.mp (by omega)
    rw [List.eq_nil_iff_forall_not_mem]
    intro b mem
    refine kept.filled b (List.mem_append_right _ mem) ?_
    exact List.flatMap_eq_nil_iff.mp none b mem
  · intro held
    exact (kept.step (e := .cancel) held next).whole

/-- A pass that stores its flow and the shutdown after it. -/
def quietShutdown : List (Event Nat) :=
  [.wake, .handle [7], .wake, .lock, .commit, .resume, .handle [8], .cancel, .lock, .commit, .resume,
   .lock, .stop]

theorem quietShutdown_conserved : ∃ s, Runs step Calm (Receiver.start true) quietShutdown s ∧
    s.places.Perm [7, 8] ∧ s.database = [7, 8] ∧ s.stopped = true := by
  have ran : (exec step Calm (Receiver.start true) quietShutdown).any (fun s =>
      decide (s.added = [7, 8] ∧ s.database = [7, 8] ∧ s.stopped = true)) = true := by decide
  obtain ⟨s, ends, facts⟩ := (Option.any_eq_true _ _).mp ran
  obtain ⟨added, stored, stopped⟩ := of_decide_eq_true facts
  have run := Runs.of_exec ends
  exact ⟨s, run, added ▸ (flows_conserved run).1, stored, stopped⟩

/-- The cancellation reaches the task in the insert of the batch that it has just drained. -/
def cancelledInsert : List (Event Nat) :=
  [.wake, .handle [7], .wake, .lock, .cancel, .lock, .lock, .stop]

theorem cancelledInsert_loses : ¬ ∀ (events : List (Event Nat)) (s : Receiver Nat),
    Runs step Free (Receiver.start true) events s →
      s.places.Perm s.added ∧ (s.stopped = true → s.task.held = []) := by
  intro conserved
  have ran : (exec step Free (Receiver.start true) cancelledInsert).any (fun s =>
      decide (s.places = [] ∧ s.added = [7])) = true := by decide
  obtain ⟨s, ends, facts⟩ := (Option.any_eq_true _ _).mp ran
  obtain ⟨nowhere, added⟩ := of_decide_eq_true facts
  have whole := (conserved cancelledInsert s (Runs.of_exec ends)).1
  rw [nowhere, added] at whole
  simp at whole

end FreeSdn.Collector
