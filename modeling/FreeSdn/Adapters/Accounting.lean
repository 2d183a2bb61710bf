import FreeSdn.Adapters.Pool
import Mathlib.Data.List.Range

/-! Every connection that the pool ever tracked is tracked, or waits to be closed, or was closed, and is
in one of these places only; and the connections that `_acquire_connection` looks at are those of its
controller.  This holds in every run. -/

namespace FreeSdn.Adapters

open FreeSdn.Lib

variable {cfg : Settings} {s t : Pool}

/-- The connections that a call took out of the pool and has yet to close. -/
def Pool.closing (s : Pool) : List Connection :=
  match s.holder with
  | some (.closing rest) => rest
  | _ => []

/-- The identifiers of the connections, each where it is. -/
def Pool.ids (s : Pool) : List Nat :=
  s.tracked.map Connection.id ++ s.closing.map Connection.id ++ s.destroyed.map Destroyed.id

/-- The connections with these identifiers are those of the controller asked for. -/
def Pool.Own (s : Pool) (ask : Ask) (ids : List Nat) : Prop :=
  ∀ i ∈ ids, ∀ c ∈ Table.lookup s.tracked i, c.controllerId = ask.controllerId

structure Located (s : Pool) : Prop where
  accounted : s.ids.Perm (List.range s.nextId)
  own : ∀ ask id rest, s.holder = some (.pinging ask id rest) → s.Own ask (id :: rest)

theorem Located.empty : Located Pool.empty where
  accounted := .refl _
  own := by simp [Pool.empty]

theorem Located.nodup (located : Located s) : s.ids.Nodup :=
  located.accounted.nodup_iff.mpr List.nodup_range

theorem Located.unique (located : Located s) : Table.Unique s.tracked := by
  have nodup := located.nodup
  rw [Pool.ids, List.append_assoc, List.nodup_append] at nodup
  exact nodup.1

theorem closing_of_free (free : s.holder = none) : s.closing = [] := by rw [Pool.closing, free]

/-! ### Changes that move no connection -/

/-- A change of one connection that keeps what it is. -/
theorem Located.update (located : Located s) {k : Nat} {f : Connection → Connection}
    (ids : ∀ x, (f x).id = x.id) (tracked : t.tracked = Table.update s.tracked k f)
    (closing : t.closing = s.closing) (destroyed : t.destroyed = s.destroyed)
    (nextId : t.nextId = s.nextId)
    (own : ∀ ask id rest, t.holder = some (.pinging ask id rest) → t.Own ask (id :: rest)) :
    Located t where
  accounted := by
    have same : t.tracked.map Connection.id = s.tracked.map Connection.id := by
      rw [tracked, Table.update, List.map_map]
      refine List.map_congr_left fun x _ => ?_
      by_cases here : x.id = k <;> simp [here, ids]
    rw [Pool.ids, same, closing, destroyed, nextId]
    exact located.accounted
  own := own

theorem Located.wait (located : Located s) (tracked : t.tracked = s.tracked)
    (closing : t.closing = s.closing) (destroyed : t.destroyed = s.destroyed)
    (nextId : t.nextId = s.nextId)
    (own : ∀ ask id rest, t.holder = some (.pinging ask id rest) → t.Own ask (id :: rest)) :
    Located t where
  accounted := by
    rw [Pool.ids, tracked, closing, destroyed, nextId]
    exact located.accounted
  own := own

theorem lookup_update {rows : List Connection} {k i : Nat} {f : Connection → Connection} {d : Connection}
    (ids : ∀ x, (f x).id = x.id) (h : d ∈ Table.lookup (Table.update rows k f) i) :
    ∃ c ∈ Table.lookup rows i, d = if c.id = k then f c else c := by
  have keeps : ∀ x ∈ rows, Keyed.key (if Keyed.key x = k then f x else x) = Keyed.key x := by
    intro x _
    split_ifs
    · exact ids x
    · rfl
  rw [Table.update, Table.lookup_map keeps] at h
  obtain ⟨c, found, eq⟩ := Option.map_eq_some_iff.mp h
  exact ⟨c, found, eq.symm⟩

theorem Pool.Own.unwell {ask : Ask} {ids : List Nat} (own : s.Own ask ids) (k : Nat) :
    (s.unwell k).Own ask ids := by
  intro i mem d found
  obtain ⟨c, here, rfl⟩ := lookup_update (f := Connection.unhealthy) (fun _ => rfl) found
  have same := own i mem c here
  split_ifs <;> exact same

/-! ### The operations -/

theorem Located.scan (located : Located s) (free : s.holder = none) {ask : Ask} {ids : List Nat}
    (own : s.Own ask ids) : Located (s.scan cfg ask ids) := by
  have closing := closing_of_free free
  rcases Pool.scan_cases cfg s ask ids with eq | ⟨-, -, eq⟩ | ⟨id, rest, c, sub, -, -, -, eq⟩
  · rw [eq]
    exact located.wait rfl closing.symm rfl rfl (by simp)
  · rw [eq]
    exact located.wait rfl closing.symm rfl rfl (by simp)
  · rw [eq]
    refine located.wait rfl closing.symm rfl rfl ?_
    rintro a j r ⟨⟩ i mem
    exact own i (sub mem)

theorem Located.handOut (located : Located s) (closing : s.closing = []) (ask : Ask) (c : Connection) :
    Located (s.handOut ask c) :=
  located.wait rfl closing.symm rfl rfl (by simp [Pool.handOut])

theorem Located.register (located : Located s) (closing : s.closing = []) (ask : Ask) (lease : Bool)
    (clock : Clock) : Located (s.register ask lease clock) := by
  have id : (if lease then (s.opened ask clock).acquire (clock (s.opened ask clock).id)
      else s.opened ask clock).id = s.nextId := by
    cases lease <;> rfl
  refine ⟨?_, by simp [Pool.register, Pool.handOut]⟩
  have before := located.accounted
  simp only [Pool.ids, closing, List.map_nil, List.append_nil] at before
  simp only [Pool.ids, Pool.register, Pool.handOut, List.map_append, List.map_cons, List.map_nil, id,
    List.range_succ]
  refine List.Perm.trans ?_ (before.append_right [s.nextId])
  simp only [List.append_assoc]
  exact (List.perm_append_comm).append_left _

theorem Located.share (located : Located s) (free : s.holder = none) (ask : Ask) (clock : Clock) :
    Located (s.share cfg ask clock) := by
  have closing := closing_of_free free
  cases found : s.reusable ask with
  | some c =>
    rw [Pool.share, found]
    exact (located.handOut closing ask c).update (f := (·.markUsed (clock c.id))) (fun _ => rfl) rfl rfl
      rfl rfl (by simp [Pool.handOut])
  | none =>
    rw [Pool.share, found]
    by_cases full : cfg.maxPerController ≤ (s.connectionsOf ask.controllerId).length
    · simp only [if_pos full]
      exact located.wait rfl closing.symm rfl rfl (by simp)
    · simp only [if_neg full]
      exact located.wait rfl closing.symm rfl rfl (by simp)

theorem Located.adopt (located : Located s) (free : s.holder = none) (ask : Ask) (clock : Clock) :
    Located (s.adopt cfg ask clock) := by
  have closing := closing_of_free free
  unfold Pool.adopt
  split_ifs
  · exact located.handOut closing ask _
  · exact located.register closing ask false clock

/-- Connections leave the pool to be closed. -/
theorem Located.close (located : Located s) (free : s.holder = none) {taken kept : List Connection}
    (perm : (kept ++ taken).Perm s.tracked) : Located (s.close taken kept) := by
  have closing := closing_of_free free
  have now : (s.close taken kept).closing = taken := by
    unfold Pool.closing Pool.close
    cases taken <;> simp
  refine ⟨?_, fun ask id rest eq => ?_⟩
  · have before := located.accounted
    simp only [Pool.ids, closing, List.map_nil, List.append_nil] at before
    simp only [Pool.ids, now]
    refine List.Perm.trans ?_ before
    refine List.Perm.append_right _ ?_
    rw [← List.map_append]
    exact perm.map _
  · unfold Pool.close at eq
    by_cases none : taken = [] <;> simp [none] at eq

theorem Located.closed (located : Located s) {c : Connection} {rest : List Connection}
    (holds : s.holder = some (.closing (c :: rest))) :
    Located { s with
      destroyed := s.destroyed ++ [⟨c.id, c.isAcquired, false⟩]
      holder := if rest = [] then none else some (.closing rest) } := by
  have before : s.closing = c :: rest := by rw [Pool.closing, holds]
  refine ⟨?_, fun ask id tail eq => ?_⟩
  · have after : ({ s with
        destroyed := s.destroyed ++ [⟨c.id, c.isAcquired, false⟩]
        holder := if rest = [] then none else some (.closing rest) } : Pool).closing = rest := by
      unfold Pool.closing
      cases rest <;> simp
    have old := located.accounted
    rw [Pool.ids, before] at old
    rw [Pool.ids, after]
    refine List.Perm.trans ?_ old
    simp only [List.map_append, List.map_cons, List.map_nil, List.append_assoc, List.cons_append]
    refine List.Perm.append_left _ ?_
    rw [← List.append_assoc]
    exact List.perm_append_singleton _ _
  · by_cases none : rest = [] <;> simp [none] at eq

/-- A connection that the cleanup closes. -/
theorem Located.destroy (located : Located s) (closing : s.closing = []) {c : Connection}
    (found : Table.lookup s.tracked c.id = some c) {p : Option Point}
    (point : ∀ rest, p ≠ some (.closing rest)) (quiet : ∀ ask id rest, p ≠ some (.pinging ask id rest)) :
    Located { s.destroy c with holder := p } := by
  have after : ({ s.destroy c with holder := p } : Pool).closing = [] := by
    unfold Pool.closing
    split
    · next rest holds => exact absurd holds (point rest)
    · rfl
  refine ⟨?_, fun ask id rest holds => absurd holds (quiet ask id rest)⟩
  have before := located.accounted
  have moved := (located.unique.remove_perm found).map Connection.id
  simp only [Pool.ids, closing, List.map_nil, List.append_nil] at before
  rw [Pool.ids, after]
  simp only [Pool.destroy, List.map_append, List.map_cons, List.map_nil, List.append_nil]
  refine List.Perm.trans ?_ ((moved.append_right _).symm.trans before)
  rw [List.map_cons, List.cons_append, ← List.append_assoc]
  exact List.perm_append_singleton _ _

theorem Located.clean (located : Located s) (closing : s.closing = []) (since : String → Nat)
    (clock : Clock) (controllers : List String) : Located (s.clean cfg since clock controllers) := by
  rcases Pool.clean_cases cfg s since clock controllers with ⟨-, eq⟩ | ⟨-, c, rest, -, -, eq⟩
  · rw [eq]
    exact located.wait rfl closing.symm rfl rfl (by simp)
  · rw [eq]
    exact located.wait rfl closing.symm rfl rfl (by simp)

/-- The loop of `_acquire_connection` begins with the connections of its controller. -/
theorem Located.own_all (located : Located s) (ask : Ask) :
    s.Own ask ((s.connectionsOf ask.controllerId).map Connection.id) := by
  intro i mem c found
  obtain ⟨d, inside, rfl⟩ := List.mem_map.mp mem
  have facts := List.mem_filter.mp inside
  obtain rfl := Option.some.inj ((located.unique.lookup facts.1).symm.trans found)
  exact of_decide_eq_true facts.2

/-! ### Runs -/

theorem Located.enter (located : Located s) (free : s.holder = none) (clock : Clock) (r : Request) :
    Located (s.run cfg clock r) := by
  have closing := closing_of_free free
  cases r with
  | acquire ask => exact located.scan free (located.own_all ask)
  | share ask => exact located.share free ask clock
  | adopt ask => exact located.adopt free ask clock
  | release id =>
    exact located.update (f := Connection.release) (fun _ => rfl) rfl rfl rfl rfl
      (by simp [Pool.run, free])
  | close c =>
    refine located.close free ?_
    simpa [Pool.connectionsOf] using
      List.filter_append_perm (fun x => decide (x.controllerId ≠ c)) s.tracked
  | cleanup => exact located.clean closing _ clock _
  | shutdown => exact located.close free (.refl _)

theorem Located.moves {e : Event} (located : Located s) (moves : Moves cfg s e t) : Located t := by
  cases moves with
  | call current => exact located.wait rfl rfl rfl rfl located.own
  | @enter index clock request free found =>
    have start : Located { s with waiting := s.waiting.eraseIdx index, holder := none } :=
      located.wait rfl (closing_of_free free).symm rfl rfl (by simp)
    exact start.enter rfl clock request
  | @lease ask id rest clock c holds found =>
    have closing : s.closing = [] := by rw [Pool.closing, holds]
    exact (located.handOut closing ask c).update (f := (·.acquire (clock id))) (fun _ => rfl) rfl rfl rfl
      rfl (by simp [Pool.handOut])
  | @unwell ask id rest clock holds =>
    have closing : s.closing = [] := by rw [Pool.closing, holds]
    have start : Located (s.unwell id) :=
      located.update (f := Connection.unhealthy) (fun _ => rfl) rfl closing.symm rfl rfl
        (by simp [Pool.unwell])
    have own : s.Own ask rest := fun i mem => located.own ask id rest holds i (List.mem_cons_of_mem _ mem)
    exact start.scan rfl (own.unwell id)
  | raise notClosing =>
    have closing : s.closing = [] := by
      unfold Pool.closing
      split
      · next rest holds => exact absurd holds (notClosing rest)
      · rfl
    exact located.wait rfl closing.symm rfl rfl (by simp)
  | register holds => exact located.register (by rw [Pool.closing, holds]) _ _ _
  | fresh holds => exact located.handOut (by rw [Pool.closing, holds]) _ _
  | closed holds => exact located.closed holds
  | @cleaned id rest controllers since clock c holds found =>
    have closing : s.closing = [] := by rw [Pool.closing, holds]
    have key : c.id = id := Table.lookup_key found
    subst key
    by_cases last : rest = []
    · rw [if_pos last]
      have after : Located (s.destroy c) := located.destroy closing found (by simp [holds]) (by simp [holds])
      exact after.clean closing since clock controllers
    · rw [if_neg last]
      exact located.destroy closing found (by simp) (by simp)
  | invalidate controllerId =>
    have same (x : Connection) := x.invalidated_keeps controllerId
    refine ⟨?_, fun ask id rest holds i mem d found => ?_⟩
    · simpa [Pool.ids, Pool.closing, Pool.invalidate, Function.comp_def, same] using located.accounted
    · rw [Pool.invalidate, Table.lookup_map fun x _ => (same x).1] at found
      obtain ⟨c, here, rfl⟩ := Option.map_eq_some_iff.mp found
      rw [(same c).2.1]
      exact located.own ask id rest holds i mem c here

end FreeSdn.Adapters
