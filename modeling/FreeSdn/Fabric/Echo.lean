import FreeSdn.Lib.Run
import Mathlib.Data.Finset.Dedup
import Mathlib.Data.Finset.Insert
import Mathlib.Data.Finset.Erase

/-! The events that a process publishes come back over Redis (`EventBus` of `core/events.py`): `publish`
keeps the identifiers of its last events in a bounded queue and in a set, and the listener drops a
message whose identifier is in the set. -/

namespace FreeSdn.Fabric.Echo

open FreeSdn.Lib

/-- The length of the queue. -/
def maxlen : Nat := 10000

structure Bus where
  /-- `_locally_dispatched_ids`, the oldest first. -/
  ids : List String
  /-- `_locally_dispatched_set`. -/
  set : Finset String

/-- `EventBus.__init__`. -/
def Bus.new : Bus := ⟨[], ∅⟩

/-- `publish`, up to the local dispatch. -/
def Bus.publish (b : Bus) (id : String) : Bus :=
  match b.ids with
  | [] => ⟨[id], insert id b.set⟩
  | old :: rest =>
    if b.ids.length = maxlen then ⟨rest ++ [id], insert id (b.set.erase old)⟩
    else ⟨b.ids ++ [id], insert id b.set⟩

/-- `_listen_redis` hands the message to the local subscribers. -/
def Bus.dispatches (b : Bus) (id : String) : Bool := id ∉ b.set

/-! ### Runs -/

inductive Step
  | publish (id : String)
  | receive (id : String)

def Bus.step (b : Bus) : Step → Bus
  | .publish id => b.publish id
  | .receive _ => b

def bus (steps : List Step) : Bus := steps.foldl Bus.step .new

def Step.published : Step → Option String
  | .publish id => some id
  | .receive _ => none

/-- The identifiers that the process has published. -/
def published (steps : List Step) : List String := steps.filterMap Step.published

/-- The last of them. -/
def lastPublished (steps : List Step) : List String :=
  (published steps).drop ((published steps).length - maxlen)

/-- What the listener does at every message of a run, and what the set holds at every time. -/
structure NoEcho (steps : List Step) : Prop where
  own : ∀ before id, before ++ [.receive id] <+: steps → (bus before).dispatches id = true →
    id ∉ lastPublished before
  foreign : ∀ before id, before ++ [.receive id] <+: steps → id ∉ published before →
    (bus before).dispatches id = true
  inStep : ∀ before, before <+: steps → (bus before).set = (bus before).ids.toFinset

/-- No copy of the identifier that leaves the full queue stays behind, unless it is published again. -/
def LeavesAlone (ids : List String) (id : String) : Prop :=
  ∀ old rest, ids = old :: rest → ids.length = maxlen → old ∈ rest → old = id

/-- The queue holds the last identifiers. -/
theorem bus_ids (steps : List Step) : (bus steps).ids = lastPublished steps := by
  induction steps using List.reverseRecOn with
  | nil => rfl
  | append_singleton steps step ih =>
    have next : bus (steps ++ [step]) = (bus steps).step step := by simp [bus]
    rw [next]
    cases step with
    | receive id =>
      have same : published (steps ++ [.receive id]) = published steps := by
        simp [published, Step.published]
      rw [Bus.step, ih, lastPublished, lastPublished, same]
    | publish id =>
      have more : published (steps ++ [.publish id]) = published steps ++ [id] := by
        simp [published, Step.published]
      have length : (lastPublished steps).length = min (published steps).length maxlen := by
        rw [lastPublished, List.length_drop]
        omega
      have positive : 0 < maxlen := by decide
      rw [lastPublished, more, List.length_append, List.length_singleton, Bus.step, Bus.publish]
      split
      · rename_i empty
        rw [ih] at empty
        have none_yet : published steps = [] := by
          rw [empty, List.length_nil] at length
          exact List.length_eq_zero_iff.mp (by omega)
        have still : 0 + 1 - maxlen = 0 := by omega
        rw [none_yet, List.length_nil, still]
        rfl
      · rename_i old rest full
        rw [ih] at full
        rw [ih, length]
        split
        · rename_i long
          have beyond : (published steps).length + 1 - maxlen =
              (published steps).length - maxlen + 1 := by omega
          have rest_eq : rest = (published steps).drop ((published steps).length - maxlen + 1) := by
            rw [← List.drop_drop, ← lastPublished, full]
            rfl
          rw [beyond, List.drop_append_of_le_length (by omega), rest_eq]
        · rename_i short
          have all : (published steps).length - maxlen = 0 := by omega
          have still : (published steps).length + 1 - maxlen = 0 := by omega
          rw [still, lastPublished, all]
          rfl

/-- One step keeps the set in step with the queue exactly if nothing is left behind. -/
theorem step_set (b : Bus) (step : Step) (same : b.set = b.ids.toFinset) :
    (b.step step).set = (b.step step).ids.toFinset ↔
      ∀ id, step = .publish id → LeavesAlone b.ids id := by
  cases step with
  | receive id => simpa [Bus.step] using same
  | publish id =>
    simp only [Step.publish.injEq, forall_eq', Bus.step, Bus.publish]
    unfold LeavesAlone
    split
    · rename_i empty
      simp [same, empty]
    · rename_i old rest nonempty
      split
      · rename_i full
        have left : (insert id (b.set.erase old) = (rest ++ [id]).toFinset) ↔
            (old ∈ rest → old = id) := by
          rw [same, nonempty, Finset.ext_iff]
          simp only [Finset.mem_insert, Finset.mem_erase, List.mem_toFinset, List.mem_append,
            List.mem_cons, List.not_mem_nil, or_false]
          constructor
          · intro each inside
            rcases (each old).mpr (Or.inl inside) with here | ⟨other, -⟩
            · exact here
            · exact absurd rfl other
          · intro alone x
            constructor
            · rintro (rfl | ⟨other, rfl | inside⟩)
              · exact Or.inr rfl
              · exact absurd rfl other
              · exact Or.inl inside
            · rintro (inside | rfl)
              · by_cases here : x = old
                · subst here
                  exact Or.inl (alone inside)
                · exact Or.inr ⟨here, Or.inr inside⟩
              · exact Or.inl rfl
        rw [left]
        constructor
        · rintro alone old' rest' shape - inside
          rw [nonempty] at shape
          obtain ⟨rfl, rfl⟩ := List.cons.inj shape
          exact alone inside
        · exact fun alone inside => alone old rest nonempty full inside
      · rename_i short
        refine iff_of_true ?_ fun _ _ _ full => absurd full short
        rw [same, Finset.ext_iff]
        intro x
        rw [Finset.mem_insert, List.mem_toFinset, List.mem_toFinset, List.mem_append,
          List.mem_singleton]
        exact or_comm

/-- The set is in step with the queue at every time exactly if no publication leaves a copy behind. -/
theorem inStep_iff (steps : List Step) :
    (∀ before, before <+: steps → (bus before).set = (bus before).ids.toFinset) ↔
      ∀ before id, before ++ [.publish id] <+: steps → LeavesAlone (lastPublished before) id := by
  refine (always_iff (P := fun b : Bus => b.set = b.ids.toFinset) step_set rfl steps).trans ?_
  constructor
  · intro kept before id taken
    rw [← bus_ids]
    exact kept before (.publish id) taken id rfl
  · rintro alone before step taken id rfl
    have here := alone before id taken
    rwa [← bus_ids] at here

/-- A published event does not come back, exactly if no publication pushes an identifier out of the full
queue of which the queue keeps another copy. -/
theorem no_echo_iff (steps : List Step) : NoEcho steps ↔
    ∀ before id, before ++ [.publish id] <+: steps → LeavesAlone (lastPublished before) id := by
  rw [← inStep_iff]
  refine ⟨NoEcho.inStep, fun inStep => ⟨?_, ?_, inStep⟩⟩
  · intro before id taken dispatched
    have same := inStep before ((List.prefix_append _ _).trans taken)
    rw [bus_ids] at same
    simpa [Bus.dispatches, same] using dispatched
  · intro before id taken foreign
    have same := inStep before ((List.prefix_append _ _).trans taken)
    rw [bus_ids] at same
    have outside : id ∉ lastPublished before := fun inside => foreign (List.mem_of_mem_drop inside)
    simpa [Bus.dispatches, same] using outside

/-! ### A repeated event -/

/-- One event is published until it fills the queue, and then another one. -/
def repeated : List Step := List.replicate maxlen (.publish "a") ++ [.publish "b"]

/-- The set forgets the repeated event while the queue is still full of it. -/
theorem repeated_forgotten : ¬ ∀ steps, NoEcho steps := by
  intro all
  have copies : published (List.replicate maxlen (.publish "a")) = List.replicate maxlen "a" := by
    rw [published, List.filterMap_replicate]
    rfl
  have alone := (inStep_iff repeated).mp (all repeated).inStep (List.replicate maxlen (.publish "a")) "b"
    (List.prefix_refl _)
  rw [lastPublished, copies, List.length_replicate, Nat.sub_self, List.drop_zero] at alone
  have equal := alone "a" (List.replicate 9999 "a") rfl List.length_replicate
    (List.mem_replicate.mpr ⟨by decide, rfl⟩)
  exact absurd equal (by decide)

end FreeSdn.Fabric.Echo
