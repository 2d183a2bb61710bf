import FreeSdn.Staging.Outcome
import Mathlib.Data.List.Nodup
import Mathlib.Data.List.Range

/-! What `apply_change` commits for an exception of the applier, against `outcome_is_unknown`. -/

namespace FreeSdn.Staging

open FreeSdn.Lib

variable {heap : List Exc} {seen : List Nat} {start : Option Nat} {fuel : Nat} {e : Raised}

/-! ### The walk over the chain -/

/-- The objects of the heap that the walk has not seen. -/
def unseen (heap : List Exc) (seen : List Nat) : Nat :=
  ((List.range heap.length).filter (· ∉ seen)).length

theorem unseen_lt {i : Nat} (inside : i < heap.length) (new : i ∉ seen) :
    unseen heap (i :: seen) < unseen heap seen := by
  unfold unseen
  have here : i ∈ (List.range heap.length).filter (· ∉ seen) := by simp [inside, new]
  have fewer : ((List.range heap.length).filter (· ∉ i :: seen)) =
      ((List.range heap.length).filter (· ∉ seen)).filter (· ≠ i) := by
    rw [List.filter_filter]
    congr 1
    funext j
    simp [not_or]
  rw [fewer]
  apply List.length_filter_lt_length_iff_exists.mpr
  exact ⟨i, here, by simp⟩

/-- With more turns than unseen objects, one turn more makes no difference. -/
theorem excChain_enough (enough : unseen heap seen < fuel) :
    excChain heap (fuel + 1) seen start = excChain heap fuel seen start := by
  induction fuel generalizing seen start with
  | zero => omega
  | succ fuel ih =>
    cases start with
    | none => rfl
    | some i =>
      rw [excChain, excChain]
      split
      · rfl
      · next new =>
        cases found : heap[i]? with
        | none => rfl
        | some x =>
          have inside := (List.getElem?_eq_some_iff.mp found).1
          have less := unseen_lt inside new
          dsimp only
          rw [ih (by omega)]

theorem unseen_nil : unseen heap [] = heap.length := by simp [unseen]

/-- The walk ends by itself: any number of turns above the number of objects visits the same chain. -/
theorem chain_terminates (e : Raised) {turns : Nat} (enough : e.heap.length < turns) :
    excChain e.heap turns [] (some e.root) = e.chain := by
  induction turns with
  | zero => omega
  | succ turns ih =>
    by_cases last : e.heap.length = turns
    · rw [Raised.chain, last]
    · rw [excChain_enough (by rw [unseen_nil]; omega), ih (by omega)]

/-! ### The two handlers -/

/-- The status that the exception is committed with, if anything is. -/
def committedStatus (print : Printing) (feature : String) (e : Raised) (answeredAt now : Time)
    (c : PendingChange) : Option Status :=
  (answerOutcome print feature (.raised e) answeredAt).map fun o => (o.write now c).status

section

variable {print : Printing} {feature : String} {answeredAt now : Time} {c : PendingChange}

theorem committedStatus_http (http : .httpException ∈ e.classes) :
    committedStatus print feature e answeredAt now c = some .failed := by
  simp [committedStatus, answerOutcome, raisedOutcome, http, failedWith, Outcome.write]

theorem committedStatus_other (other : .httpException ∉ e.classes)
    (caught : .exception ∈ e.classes) :
    committedStatus print feature e answeredAt now c =
      some (if outcomeIsUnknown e then .reconciliationRequired else .failed) := by
  simp [committedStatus, answerOutcome, raisedOutcome, other, caught, Outcome.write]

theorem committedStatus_escaped (other : .httpException ∉ e.classes)
    (escaped : .exception ∉ e.classes) : committedStatus print feature e answeredAt now c = none := by
  simp [committedStatus, answerOutcome, raisedOutcome, other, escaped]

end

/-- What is committed tells whether the outcome is unknown, and the classification ends. -/
def Classified (print : Printing) (feature : String) (e : Raised) (answeredAt now : Time)
    (c : PendingChange) : Prop :=
  (committedStatus print feature e answeredAt now c = some .reconciliationRequired ↔
      outcomeIsUnknown e = true) ∧
    (committedStatus print feature e answeredAt now c = some .failed ↔
      outcomeIsUnknown e = false) ∧
    ∀ turns, e.heap.length < turns → excChain e.heap turns [] (some e.root) = e.chain

/-- The handler of `HTTPException` does not ask `outcome_is_unknown`, the other one does, and what is
no `Exception` passes both. -/
theorem failed_hides_no_unknown (print : Printing) (feature : String) (e : Raised)
    (answeredAt now : Time) (c : PendingChange) :
    Classified print feature e answeredAt now c ↔
      if .httpException ∈ e.classes then outcomeIsUnknown e = false
      else .exception ∈ e.classes := by
  have ends : ∀ turns, e.heap.length < turns →
      excChain e.heap turns [] (some e.root) = e.chain := fun turns enough =>
    chain_terminates e enough
  unfold Classified
  split
  · rename_i http
    rw [committedStatus_http http]
    cases outcomeIsUnknown e
    · simpa using ends
    · simp
  · rename_i other
    by_cases caught : .exception ∈ e.classes
    · rw [committedStatus_other other caught]
      cases outcomeIsUnknown e <;> simpa [caught] using ends
    · rw [committedStatus_escaped other caught]
      cases outcomeIsUnknown e <;> simp [caught]

/-- `raise HTTPException(502) from exc`, where `exc` is a read timeout of httpx. -/
def wrappedTimeout : Raised :=
  ⟨[⟨[.httpException, .named "HTTPException", .exception, .named "BaseException", .named "object"],
      "controller did not answer", some 1, some 1⟩,
    ⟨[.named "ReadTimeout", .named "TimeoutException", .named "TransportError",
      .named "RequestError", .named "HTTPError", .exception, .named "BaseException",
      .named "object"], "", none, none⟩], 0⟩

/-- A staged change while its applier runs. -/
def applyingChange : PendingChange :=
  { id := 7, organizationId := 1, controllerId := none, siteId := none
    feature := "omada.acl", operation := "create", targetId := none, payload := []
    status := .applying, appliedAt := none, appliedResponse := none, providerTask := none
    nextPollAt := none, failureReason := none, createdBy := none, updatedBy := none, updatedAt := 0 }

theorem wrappedTimeout_failed : outcomeIsUnknown wrappedTimeout = true ∧
    committedStatus ⟨id, fun _ => "", fun _ => ""⟩ "omada.acl" wrappedTimeout 0 0 applyingChange =
      some .failed :=
  ⟨by decide, committedStatus_http (by decide)⟩

end FreeSdn.Staging
