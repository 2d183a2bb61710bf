import FreeSdn.Artifact.Custody
import FreeSdn.Releases.Decided
import FreeSdn.Releases.Promises

/-! The journal and the artifact directories together.  In every state that the owners can reach, a
payload that is due is there with its declared bytes, a payload is removed only after a decision that is
final, and a cleanup is recorded only when the payload is gone for good. -/

namespace FreeSdn.Releases

open FreeSdn.Lib FreeSdn.Artifact
open FreeSdn.Audit (Uuid)

variable {d : Deployment} {h : Host} {w : Session} {u t : Db} {p r : Operation} {a : Uuid}

/-! ### Single transactions -/

/-- Only a publication inserts a release. -/
theorem perform_inserted {transaction : Transaction}
    (other : ∀ q signature identity artifact, transaction ≠ .publish q signature identity artifact)
    (done : perform d w u transaction = .ok t) : t.inserted = u.inserted := by
  cases transaction with
  | reserve q =>
    obtain ⟨⟨_, _⟩, ran, rfl⟩ := map_ok done
    obtain ⟨_, -, ran⟩ := bind_ok ran
    obtain ⟨existing, -, ran⟩ := bind_ok ran
    cases existing with
    | some r =>
      cases ran
      rfl
    | none =>
      obtain ⟨_, -, ran⟩ := bind_ok ran
      obtain ⟨-, ran⟩ := require_bind ran
      obtain ⟨-, ran⟩ := require_bind ran
      obtain ⟨-, ran⟩ := require_bind ran
      obtain ⟨⟨_, _⟩, inserted, returned⟩ := bind_ok ran
      cases returned
      rw [(insertOperation_ok inserted).1]
  | cancel q =>
    obtain ⟨⟨_, _⟩, ran, rfl⟩ := map_ok done
    obtain ⟨_, -, ran⟩ := bind_ok ran
    obtain ⟨row, -, ran⟩ := orRaise_bind ran
    split at ran
    · cases ran
      rfl
    · obtain ⟨-, ran⟩ := require_bind ran
      obtain ⟨-, ran⟩ := require_bind ran
      obtain ⟨⟨_, _⟩, moved, returned⟩ := bind_ok ran
      cases returned
      rw [(transition_ok moved).1]
      rfl
  | reserveDeletion q =>
    obtain ⟨⟨_, _⟩, ran, rfl⟩ := map_ok done
    obtain ⟨_, -, ran⟩ := bind_ok ran
    obtain ⟨existing, -, ran⟩ := bind_ok ran
    cases existing with
    | some r =>
      cases ran
      rfl
    | none =>
      obtain ⟨release, -, ran⟩ := orRaise_bind ran
      obtain ⟨-, ran⟩ := require_bind ran
      obtain ⟨-, ran⟩ := require_bind ran
      obtain ⟨_, -, ran⟩ := bind_ok ran
      obtain ⟨_, -, ran⟩ := bind_ok ran
      obtain ⟨⟨_, _⟩, inserted, returned⟩ := bind_ok ran
      cases returned
      rw [(insertOperation_ok inserted).1]
  | delete q =>
    obtain ⟨⟨_, _⟩, ran, rfl⟩ := map_ok done
    obtain ⟨_, -, ran⟩ := bind_ok ran
    obtain ⟨row, -, ran⟩ := orRaise_bind ran
    split at ran
    · cases ran
      rfl
    · obtain ⟨-, ran⟩ := require_bind ran
      obtain ⟨release, -, ran⟩ := orRaise_bind ran
      obtain ⟨_, -, ran⟩ := bind_ok ran
      obtain ⟨_, -, ran⟩ := bind_ok ran
      obtain ⟨-, ran⟩ := require_bind ran
      obtain ⟨⟨v, r⟩, prepared, ran⟩ := bind_ok ran
      obtain ⟨f, -, -, tables⟩ := prepareFirst_ok prepared
      obtain ⟨⟨_, _⟩, moved, returned⟩ := bind_ok ran
      cases returned
      rw [(transition_ok moved).1]
      have kept : v.inserted = u.inserted := by rw [tables]
      exact kept
  | cancelDeletion q =>
    obtain ⟨⟨_, _⟩, ran, rfl⟩ := map_ok done
    obtain ⟨_, -, ran⟩ := bind_ok ran
    obtain ⟨row, -, ran⟩ := orRaise_bind ran
    split at ran
    · cases ran
      rfl
    · obtain ⟨-, ran⟩ := require_bind ran
      obtain ⟨⟨_, _⟩, moved, returned⟩ := bind_ok ran
      cases returned
      rw [(transition_ok moved).1]
      rfl
  | promote snapshot identity =>
    obtain ⟨⟨_, _⟩, ran, rfl⟩ := map_ok done
    obtain ⟨_, -, ran⟩ := bind_ok ran
    obtain ⟨_, -, ran⟩ := bind_ok ran
    obtain ⟨release, -, ran⟩ := bind_ok ran
    obtain ⟨_, -, ran⟩ := bind_ok ran
    obtain ⟨-, ran⟩ := require_bind ran
    obtain ⟨-, ran⟩ := require_bind ran
    obtain ⟨-, ran⟩ := require_bind ran
    cases ran
    rfl
  | recordPrepared q receipt =>
    obtain ⟨⟨_, _⟩, ran, rfl⟩ := map_ok done
    obtain ⟨-, ran⟩ := require_bind ran
    obtain ⟨_, -, ran⟩ := bind_ok ran
    obtain ⟨row, -, ran⟩ := bind_ok ran
    split at ran
    · cases ran
      rfl
    · rw [(transition_ok ran).1]
      rfl
  | recordCleaned q expected receipt retirement =>
    obtain ⟨⟨_, _⟩, ran, rfl⟩ := map_ok done
    obtain ⟨_, -, ran⟩ := bind_ok ran
    obtain ⟨⟨row, plan⟩, -, ran⟩ := bind_ok ran
    obtain ⟨-, ran⟩ := require_bind ran
    obtain ⟨_, -, ran⟩ := bind_ok ran
    split at ran
    · cases ran
      rfl
    · obtain ⟨⟨_, _⟩, moved, returned⟩ := bind_ok ran
      cases returned
      rw [(transition_ok moved).1]
      rfl
  | publish q signature identity artifact => exact absurd rfl (other q signature identity artifact)

/-- A transaction that neither prepares nor publishes makes nothing due. -/
theorem perform_due {transaction : Transaction} (life : Lifecycle d u)
    (other : ∀ q signature identity artifact, transaction ≠ .publish q signature identity artifact)
    (unprepared : ∀ q receipt, transaction ≠ .recordPrepared q receipt)
    (done : perform d w u transaction = .ok t) (due : Due t p) : Due u p := by
  have next : Releases.step d u ⟨w, transaction⟩ = some t := by simp [Releases.step, done]
  rcases life.due (Moves.of_step next) due with old | ⟨row, f, -, -, -, prepared | inserted⟩
  · exact old
  · obtain ⟨_, q, receipt, same⟩ := prepared
    exact absurd (congrArg Event.transaction same) (unprepared q receipt)
  · exact absurd (perform_inserted other done) inserted

/-! ### What an owner knows -/

/-- What an owner knows in a state of the system. -/
def System.known (h : Host) (s : System) (owner : Owner) : Known where
  dead := Dead s.db
  gone a := Gone (s.stores a).dir
  lease := owner.lease.bind fun x => ((s.stores x.1).process x.2).map fun p => (p.intent, p.exclusive)
  kept data := ∃ a pid i x l, owner.lease = some (a, pid) ∧
    (s.stores a).process pid = some ⟨i, x, .idle l⟩ ∧ l.prepared ≠ none ∧ Kept data (s.stores a).dir ∧
    Exact h i data

/-- The coroutine goes on from whatever the method of its lease tells. -/
def Awaits (K : Known) (call : Call) (next : Except Refusal Reply → Remaining) : Prop :=
  ∀ r u, (∀ reply, r = .ok reply → K.Grows u ∧ u.lease = K.lease ∧
    ∀ value, Call.answer call reply = .ok value → Told K u call value) →
    knowing.Steady Promised (fun _ _ => True) (next r) u

theorem Awaits.moved {K L : Known} {call : Call} {next : Except Refusal Reply → Remaining}
    (awaits : Awaits K call next) (grows : K.Grows L) (lease : L.lease = K.lease) :
    Awaits L call next := by
  intro r u told
  refine awaits r u fun reply same => ?_
  obtain ⟨more, held, answered⟩ := told reply same
  exact ⟨grows.trans more, held.trans lease, fun value answer => (answered value answer).moved lease⟩

variable {s : System} {owner : Owner} {o pid : Nat}

/-- An owner between two calls has an idle lease, if one; an owner in a call has a busy one. -/
structure OwnerOk (h : Host) (s : System) (owner : Owner) : Prop where
  lease : ∀ a pid, owner.lease = some (a, pid) →
    ∃ p, (s.stores a).process pid = some p ∧ p.intent.artifactId = a
  ready : ∀ rest, owner.todo = .ready rest →
    (∀ a pid p, owner.lease = some (a, pid) → (s.stores a).process pid = some p →
      ∃ l, p.activity = .idle l) ∧
    knowing.Steady Promised (fun _ _ => True) rest (s.known h owner)
  waiting : ∀ next, owner.todo = .waiting next → ∃ a pid i x call rest, owner.lease = some (a, pid) ∧
    (s.stores a).process pid = some ⟨i, x, .busy call rest⟩ ∧
    (call.duty ≠ .prepare → Dead s.db a) ∧ Awaits (s.known h owner) call next

/-- Another state in which the owner's lease is as it was, and so is the directory under it. -/
structure Leaves (s t : System) (owner : Owner) : Prop where
  dead : ∀ a, Dead s.db a → Dead t.db a
  gone : ∀ a, Gone (s.stores a).dir → Gone (t.stores a).dir
  process : ∀ a pid p, owner.lease = some (a, pid) → (s.stores a).process pid = some p →
    (t.stores a).process pid = some p ∧ (t.stores a).dir = (s.stores a).dir

theorem Leaves.later {t : System} (leaves : Leaves s t owner)
    (lease : ∀ a pid, owner.lease = some (a, pid) → ∃ p, (s.stores a).process pid = some p) :
    (s.known h owner).Later (t.known h owner) where
  dead := leaves.dead
  gone := leaves.gone
  lease := by
    cases held : owner.lease with
    | none => simp [System.known, held]
    | some x =>
      obtain ⟨p, found⟩ := lease x.1 x.2 held
      simp [System.known, held, found, (leaves.process x.1 x.2 p held found).1]
  kept data := by
    rintro ⟨a, pid, i, x, l, held, found, prepared, kept, exact_⟩
    obtain ⟨still, dir⟩ := leaves.process a pid _ held found
    exact ⟨a, pid, i, x, l, held, still, prepared, dir ▸ kept, exact_⟩

theorem OwnerOk.leaves {t : System} (good : OwnerOk h s owner) (leaves : Leaves s t owner) :
    OwnerOk h t owner where
  lease a pid held := by
    obtain ⟨p, found, own⟩ := good.lease a pid held
    exact ⟨p, (leaves.process a pid p held found).1, own⟩
  ready rest ready := by
    obtain ⟨idle, steady⟩ := good.ready rest ready
    constructor
    · intro a pid p held found
      obtain ⟨q, before, -⟩ := good.lease a pid held
      obtain rfl := Option.some.inj ((leaves.process a pid q held before).1.symm.trans found)
      exact idle a pid q held before
    · refine steady.later (leaves.later fun a pid held => ?_)
      obtain ⟨p, found, -⟩ := good.lease a pid held
      exact ⟨p, found⟩
  waiting next waiting := by
    obtain ⟨a, pid, i, x, call, rest, held, busy, dead, awaits⟩ := good.waiting next waiting
    refine ⟨a, pid, i, x, call, rest, held, (leaves.process a pid _ held busy).1,
      fun duty => leaves.dead a (dead duty), ?_⟩
    have later := leaves.later (h := h) fun a pid held => by
      obtain ⟨p, found, -⟩ := good.lease a pid held
      exact ⟨p, found⟩
    exact awaits.moved later.toGrows later.lease

/-! ### The invariant -/

structure SystemOk (d : Deployment) (h : Host) (s : System) : Prop where
  life : Lifecycle d s.db
  worlds : ∀ a, WorldOk h (∃ p, Due s.db p ∧ p.operationId = a) (s.stores a)
  owners : ∀ o owner, s.owner o = some owner → OwnerOk h s owner
  apart : ∀ o o' owner owner' x, s.owner o = some owner → s.owner o' = some owner' →
    owner.lease = some x → owner'.lease = some x → o = o'
  held : ∀ a pid p, (s.stores a).process pid = some p →
    ∃ o owner, s.owner o = some owner ∧ owner.lease = some (a, pid)
  intact : ∀ p, Due s.db p → Verified h p.intent (s.stores p.operationId).dir
  cleaned : ∀ r a, Cleaned s.db r a → Gone (s.stores a).dir

namespace SystemOk

variable {t : System}

/-- The journal changes. -/
theorem journal (good : SystemOk d h s) {e : Event} {u : Db} (moves : Moves d s.db e u)
    (due : ∀ p, Due u p → (∃ old, Due s.db old ∧ p.identity = old.identity) ∨
      (WorldOk h True (s.stores p.operationId) ∧ Verified h p.intent (s.stores p.operationId).dir))
    (cleaned : ∀ r a, Cleaned u r a → Cleaned s.db r a ∨ Gone (s.stores a).dir) :
    SystemOk d h { s with db := u } where
  life := good.life.moves moves
  worlds a := by
    by_cases some_ : ∃ p, Due u p ∧ p.operationId = a
    · obtain ⟨p, now, rfl⟩ := some_
      rcases due p now with ⟨old, before, same⟩ | ⟨settled, -⟩
      · exact (good.worlds p.operationId).weaken fun _ =>
          ⟨old, before, (Operation.of_identity same).1.symm⟩
      · exact settled.weaken fun _ => trivial
    · exact (good.worlds a).weaken fun now => absurd now some_
  owners o owner found := (good.owners o owner found).leaves
    { dead := fun _ dead => good.life.dead moves dead
      gone := fun _ gone => gone
      process := fun _ _ _ _ found => ⟨found, rfl⟩ }
  apart := good.apart
  held := good.held
  intact p now := by
    rcases due p now with ⟨old, before, same⟩ | ⟨-, verified⟩
    · rw [Operation.intent_of_identity same, (Operation.of_identity same).1]
      exact good.intact old before
    · exact verified
  cleaned r a now := (cleaned r a now).elim (good.cleaned r a) id

end SystemOk

theorem owner_lt (found : s.owner o = some owner) : o < s.owners.length := by
  by_contra beyond
  simp [System.owner, List.getElem?_eq_none (Nat.le_of_not_lt beyond)] at found

theorem owner_put (found : s.owner o = some owner) (new : Option Owner) : (s.put o new).owner o = new := by
  simp [System.owner, System.put, owner_lt found]

theorem owner_put_other {o' : Nat} (other : o' ≠ o) (new : Option Owner) :
    (s.put o new).owner o' = s.owner o' := by
  simp [System.owner, System.put, Ne.symm other]

namespace SystemOk

/-- An owner goes on with the lease that it has, or leaves without one. -/
theorem goOn (good : SystemOk d h s) (found : s.owner o = some owner) {new : Option Owner}
    (lease : new.bind Owner.lease = owner.lease) (ok : ∀ n, new = some n → OwnerOk h s n) :
    SystemOk d h (s.put o new) where
  life := good.life
  worlds := good.worlds
  owners o' owner' found' := by
    have same : Leaves s (s.put o new) owner' :=
      { dead := fun _ dead => dead
        gone := fun _ gone => gone
        process := fun _ _ _ _ found => ⟨found, rfl⟩ }
    by_cases own : o' = o
    · subst own
      rw [owner_put found] at found'
      exact (ok owner' found').leaves same
    · rw [owner_put_other own] at found'
      exact (good.owners o' owner' found').leaves same
  apart o₁ o₂ owner₁ owner₂ x found₁ found₂ lease₁ lease₂ := by
    have before {o' : Nat} {owner' : Owner} (found' : (s.put o new).owner o' = some owner')
        (lease' : owner'.lease = some x) :
        ∃ owner'', s.owner o' = some owner'' ∧ owner''.lease = some x := by
      by_cases own : o' = o
      · subst own
        rw [owner_put found] at found'
        rw [found'] at lease
        exact ⟨owner, found, lease.symm.trans lease'⟩
      · rw [owner_put_other own] at found'
        exact ⟨owner', found', lease'⟩
    obtain ⟨_, found₁, lease₁⟩ := before found₁ lease₁
    obtain ⟨_, found₂, lease₂⟩ := before found₂ lease₂
    exact good.apart o₁ o₂ _ _ x found₁ found₂ lease₁ lease₂
  held a pid p process := by
    obtain ⟨o', owner', found', lease'⟩ := good.held a pid p process
    by_cases own : o' = o
    · subst own
      obtain rfl := Option.some.inj (found.symm.trans found')
      obtain ⟨n, same, held⟩ := Option.bind_eq_some_iff.mp (lease.trans lease')
      exact ⟨o', n, (owner_put found _).trans same, held⟩
    · exact ⟨o', owner', (owner_put_other own _).trans found', lease'⟩
  intact := good.intact
  cleaned := good.cleaned

/-- Who retires or cleans up has a decision against the artifact. -/
theorem duty (good : SystemOk d h s) {a : Uuid} {p : Process} {call : Call} {rest : Rest}
    (found : (s.stores a).process pid = some p) (busy : p.activity = .busy call rest)
    (duty : call.duty ≠ .prepare) : Dead s.db a := by
  obtain ⟨o, owner, owned, lease⟩ := good.held a pid p found
  have ok := good.owners o owner owned
  cases todo : owner.todo with
  | ready remaining =>
    obtain ⟨l, idle⟩ := (ok.ready remaining todo).1 a pid p lease found
    cases busy.symm.trans idle
  | waiting next =>
    obtain ⟨a', pid', i, x, call', rest', lease', process, dead, -⟩ := ok.waiting next todo
    obtain ⟨rfl, rfl⟩ := Prod.mk.inj (Option.some.inj (lease.symm.trans lease'))
    obtain rfl := Option.some.inj (found.symm.trans process)
    obtain ⟨rfl, -⟩ := Activity.busy.inj busy
    exact dead duty

end SystemOk

/-- The state after a step of the store of an artifact. -/
def System.stored (s : System) (a : Uuid) (w : World) (o : Nat) (new : Option Owner) : System :=
  { s with stores := Function.update s.stores a w }.put o new

theorem stored_same {a : Uuid} {w : World} {new : Option Owner} :
    (s.stored a w o new).stores a = w := by
  have updated : Function.update s.stores a w a = w := Function.update_self a w s.stores
  exact updated

theorem stored_other {a b : Uuid} {w : World} {new : Option Owner} (other : b ≠ a) :
    (s.stored a w o new).stores b = s.stores b := by
  have updated : Function.update s.stores a w b = s.stores b := Function.update_of_ne other w s.stores
  exact updated

/-- An owner takes a step with its lease, or with the lease that it acquires. -/
structure Owns (s : System) (o : Nat) (owner : Owner) (a : Uuid) (pid : Nat) : Prop where
  found : s.owner o = some owner
  mine : owner.lease = some (a, pid) ∨ (owner.lease = none ∧ pid = (s.stores a).processes.length)

namespace Owns

variable {a : Uuid} {e : Artifact.Event} {wd : World} {new : Option Owner}

/-- The lease of another owner is another one. -/
theorem apart (owns : Owns s o owner a pid) (good : SystemOk d h s) {o' pid' : Nat} {owner' : Owner}
    (other : o' ≠ o) (found : s.owner o' = some owner') (lease : owner'.lease = some (a, pid')) :
    pid' ≠ pid := by
  rintro rfl
  rcases owns.mine with mine | ⟨-, rfl⟩
  · exact other (good.apart o' o owner' owner _ found owns.found lease mine)
  · obtain ⟨p, process, -⟩ := (good.owners o' owner' found).lease a _ lease
    exact absurd (process_lt process) (lt_irrefl _)

/-- What a step of the store leaves of the state is what other owners rely on. -/
theorem leaves (owns : Owns s o owner a (e.process (s.stores a))) (good : SystemOk d h s)
    (next : (s.stores a).step h e = some wd) {o' : Nat} {owner' : Owner} (other : o' ≠ o)
    (found : s.owner o' = some owner') : Leaves s (s.stored a wd o new) owner' where
  dead _ dead := dead
  gone b gone := by
    by_cases same : b = a
    · subst same
      rw [stored_same]
      exact (good.worlds b).step_gone next gone
    · rwa [stored_other same]
  process b pid' p lease process := by
    by_cases same : b = a
    · subst same
      have apart := owns.apart good other found lease
      rw [stored_same]
      exact ⟨(step_process next apart).trans process, (good.worlds b).step_other next apart process⟩
    · rw [stored_other same]
      exact ⟨process, rfl⟩

/-- A payload that is due stays as it is. -/
theorem intact (good : SystemOk d h s) (next : (s.stores a).step h e = some wd) {p : Operation}
    (due : Due s.db p) (own : p.operationId = a) : Verified h p.intent wd.dir := by
  have verified := good.intact p due
  rw [own] at verified
  obtain ⟨data, kept, exact_⟩ := verified_iff.mp verified
  refine verified_iff.mpr ⟨data, ?_, exact_⟩
  refine (good.worlds a).step_kept next ⟨p, due, own⟩ (fun pid q call rest found busy => ?_) kept
  by_contra duty
  exact good.life.not_due (good.duty found busy duty) due own

theorem step (owns : Owns s o owner a (e.process (s.stores a))) (good : SystemOk d h s)
    (next : (s.stores a).step h e = some wd)
    (lease : ∀ n x, new = some n → n.lease = some x → x = (a, e.process (s.stores a)))
    (present : ∀ p, wd.process (e.process (s.stores a)) = some p →
      ∃ n, new = some n ∧ n.lease = some (a, e.process (s.stores a)))
    (ok : ∀ n, new = some n → OwnerOk h (s.stored a wd o new) n) : SystemOk d h (s.stored a wd o new) where
  life := good.life
  worlds b := by
    by_cases same : b = a
    · subst same
      rw [stored_same]
      exact step_ok (good.worlds b) next
    · rw [stored_other same]
      exact good.worlds b
  owners o' owner' found' := by
    by_cases own : o' = o
    · subst own
      have found : (s.put o' new).owner o' = some owner' := found'
      rw [owner_put owns.found] at found
      exact ok owner' found
    · have found : (s.put o new).owner o' = some owner' := found'
      rw [owner_put_other own] at found
      exact (good.owners o' owner' found).leaves (owns.leaves good next own found)
  apart o₁ o₂ owner₁ owner₂ x found₁ found₂ lease₁ lease₂ := by
    have found₁ : (s.put o new).owner o₁ = some owner₁ := found₁
    have found₂ : (s.put o new).owner o₂ = some owner₂ := found₂
    by_cases own₁ : o₁ = o <;> by_cases own₂ : o₂ = o
    · exact own₁.trans own₂.symm
    · subst own₁
      rw [owner_put owns.found] at found₁
      rw [owner_put_other own₂] at found₂
      rw [lease owner₁ x found₁ lease₁] at lease₂
      exact absurd rfl (owns.apart good own₂ found₂ lease₂)
    · subst own₂
      rw [owner_put owns.found] at found₂
      rw [owner_put_other own₁] at found₁
      rw [lease owner₂ x found₂ lease₂] at lease₁
      exact absurd rfl (owns.apart good own₁ found₁ lease₁)
    · rw [owner_put_other own₁] at found₁
      rw [owner_put_other own₂] at found₂
      exact good.apart o₁ o₂ _ _ x found₁ found₂ lease₁ lease₂
  held b pid p process := by
    have still {b : Uuid} {pid : Nat} (process : (s.stores b).process pid = some p)
        (other : (b, pid) ≠ (a, e.process (s.stores a))) :
        ∃ o' owner', (s.put o new).owner o' = some owner' ∧ owner'.lease = some (b, pid) := by
      obtain ⟨o', owner', found', lease'⟩ := good.held b pid p process
      refine ⟨o', owner', ?_, lease'⟩
      rw [owner_put_other ?_]
      · exact found'
      · rintro rfl
        obtain rfl := Option.some.inj (owns.found.symm.trans found')
        rcases owns.mine with mine | ⟨none_, -⟩
        · exact other (Option.some.inj (lease'.symm.trans mine))
        · cases none_.symm.trans lease'
    by_cases same : b = a
    · subst same
      rw [stored_same] at process
      by_cases own : pid = e.process (s.stores b)
      · subst own
        obtain ⟨n, rfl, held⟩ := present p process
        exact ⟨o, n, owner_put owns.found _, held⟩
      · exact still ((step_process next own).symm.trans process) fun eq => own (congrArg Prod.snd eq)
    · rw [stored_other same] at process
      exact still process fun eq => same (congrArg Prod.fst eq)
  intact p due := by
    have due : Due s.db p := due
    by_cases own : p.operationId = a
    · rw [own, stored_same]
      exact intact good next due own
    · rw [stored_other own]
      exact good.intact p due
  cleaned r b cleaned := by
    by_cases same : b = a
    · subst same
      rw [stored_same]
      exact (good.worlds b).step_gone next (good.cleaned r b cleaned)
    · rw [stored_other same]
      exact good.cleaned r b cleaned

end Owns

/-! ### Steps -/

namespace SystemOk

variable {t : System}

theorem transaction (good : SystemOk d h s) {e : Event} {u : Db} (single : e.transaction.single = true)
    (next : Releases.step d s.db e = some u) : SystemOk d h { s with db := u } := by
  have moves := Moves.of_step next
  refine good.journal moves (fun p due => .inl ⟨p, ?_, rfl⟩) fun r a cleaned => ?_
  · unfold Releases.step at next
    split at next
    · next done =>
      obtain rfl := Option.some.inj next
      refine perform_due good.life ?_ ?_ done due
      · intro q signature identity artifact same
        rw [same] at single
        cases single
      · intro q receipt same
        rw [same] at single
        cases single
    · obtain rfl := Option.some.inj next
      exact due
  · refine .inl ((good.life.cleaned moves cleaned).resolve_right ?_)
    rintro ⟨w, q, plan, receipt, retirement, c, rfl, -⟩
    cases single

theorem start (good : SystemOk d h s) (authority : Authority) (task : Task) :
    SystemOk d h { s with owners := s.owners ++ [some ⟨authority, none, .ready (task.script d).run⟩] } := by
  have old {o : Nat} {owner : Owner}
      (found : System.owner { s with
        owners := s.owners ++ [some ⟨authority, none, .ready (task.script d).run⟩] } o = some owner) :
      s.owner o = some owner ∨ owner = ⟨authority, none, .ready (task.script d).run⟩ := by
    unfold System.owner at found
    dsimp only at found
    rw [List.getElem?_append] at found
    split at found
    · exact .inl found
    · rw [List.getElem?_singleton] at found
      split at found
      · exact .inr (Option.some.inj found).symm
      · cases found
  exact
    { life := good.life
      worlds := good.worlds
      owners := fun o owner found => by
        rcases old found with found | rfl
        · exact (good.owners o owner found).leaves
            { dead := fun _ dead => dead
              gone := fun _ gone => gone
              process := fun _ _ _ _ found => ⟨found, rfl⟩ }
        · refine ⟨fun _ _ lease => (by cases lease), fun rest ready => ⟨?_, ?_⟩,
            fun _ waiting => by cases waiting⟩
          · exact fun _ _ _ lease => by cases lease
          · obtain rfl := Todo.ready.inj ready
            exact Rely.Steady.mono (script_keeps d task) fun _ _ _ => trivial
      apart := fun o₁ o₂ owner₁ owner₂ x found₁ found₂ lease₁ lease₂ => by
        rcases old found₁ with found₁ | rfl
        · rcases old found₂ with found₂ | rfl
          · exact good.apart o₁ o₂ owner₁ owner₂ x found₁ found₂ lease₁ lease₂
          · cases lease₂
        · cases lease₁
      held := fun a pid p process => by
        obtain ⟨o, owner, found, lease⟩ := good.held a pid p process
        refine ⟨o, owner, ?_, lease⟩
        unfold System.owner at found ⊢
        rw [List.getElem?_append_left (owner_lt found)]
        exact found
      intact := good.intact
      cleaned := good.cleaned }

/-- What the lease of an owner has verified is settled. -/
theorem settled (good : SystemOk d h s) (found : s.owner o = some owner) {artifact : PreparedArtifact}
    (holding : Holding artifact (s.known h owner)) :
    WorldOk h True (s.stores artifact.intent.artifactId) ∧
      Verified h artifact.intent (s.stores artifact.intent.artifactId).dir := by
  obtain ⟨lease, data, a, pid, i, x, l, held, process, prepared, kept, exact_⟩ := holding
  have lease : some (i, x) = some (artifact.intent, true) := by
    simpa [System.known, held, process] using lease
  obtain ⟨rfl, rfl⟩ := Prod.mk.inj (Option.some.inj lease)
  obtain ⟨p, process', own⟩ := (good.owners o owner found).lease a pid held
  obtain rfl := Option.some.inj (process.symm.trans process')
  obtain rfl : artifact.intent.artifactId = a := own
  refine ⟨(good.worlds _).settle process rfl rfl prepared ?_, verified_iff.mpr ⟨data, kept, exact_⟩⟩
  intro free
  simp [Kept, Directory.contents, Directory.file, free] at kept

theorem later (good : SystemOk d h s) (found : s.owner o = some owner) {e : Event} {u : Db}
    (moves : Moves d s.db e u) :
    (s.known h owner).Later (System.known h { s with db := u } owner) := by
  have leaves : Leaves s { s with db := u } owner :=
    { dead := fun _ dead => good.life.dead moves dead
      gone := fun _ gone => gone
      process := fun _ _ _ _ found => ⟨found, rfl⟩ }
  refine leaves.later fun a pid lease => ?_
  obtain ⟨p, process, -⟩ := (good.owners o owner found).lease a pid lease
  exact ⟨p, process⟩

/-- A phase of an owner that keeps its promise. -/
theorem phase (good : SystemOk d h s) (found : s.owner o = some owner) {p : OwnedPhase}
    (promised : Promised (s.known h owner) (.phase p)) {u : Db} {value : p.Value}
    (done : p.perform d w s.db = .ok (u, value)) :
    SystemOk d h { s with db := u } ∧
      Answers (s.known h owner) (.phase p) value (System.known h { s with db := u } owner) := by
  have uncleaned {e : Event} (moves : Moves d s.db e u)
      (other : ∀ w q plan receipt retirement, e ≠ ⟨w, .recordCleaned q plan receipt retirement⟩)
      (r : Operation) (a : Uuid) (cleaned : Cleaned u r a) : Cleaned s.db r a ∨ Gone (s.stores a).dir := by
    refine .inl ((good.life.cleaned moves cleaned).resolve_right ?_)
    rintro ⟨w, q, plan, receipt, retirement, c, same, -⟩
    exact other w q plan receipt retirement same
  cases p with
  | reserve q =>
    have done : reserve d w q s.db = .ok (u, value) := done
    have moves := reserve_moves done
    refine ⟨good.journal moves (fun p due => .inl ⟨p, ?_, rfl⟩) (uncleaned moves (by simp)),
      good.later found moves⟩
    have ran : perform d w s.db (.reserve q) = .ok u := by
      show (reserve d w q s.db).map Prod.fst = .ok u
      rw [done]
      rfl
    exact perform_due good.life (by simp) (by simp) ran due
  | preparationState q =>
    obtain ⟨_, -, done⟩ := bind_ok done
    obtain ⟨_, -, returned⟩ := bind_ok done
    cases returned
    exact ⟨good, Known.Later.refl _⟩
  | recordPrepared q receipt =>
    have done : recordPrepared d w q receipt.intent s.db = .ok (u, value) := done
    have moves := recordPrepared_moves done
    refine ⟨good.journal moves (fun p due => ?_) (uncleaned moves (by simp)), good.later found moves⟩
    rcases recordPrepared_due good.life done due with old | ⟨intent, id⟩
    · exact .inl ⟨p, old, rfl⟩
    · rw [id, intent]
      exact .inr (good.settled found promised)
  | inspect q =>
    obtain ⟨_, -, done⟩ := bind_ok done
    obtain ⟨_, -, returned⟩ := bind_ok done
    cases returned
    exact ⟨good, Known.Later.refl _⟩
  | publish q signature identity prepared =>
    have done : publish d w q signature identity (prepared.map PreparedArtifact.intent) s.db =
      .ok (u, value) := done
    have moves := publish_moves done
    refine ⟨good.journal moves (fun p due => .inl ?_) (uncleaned moves (by simp)), good.later found moves⟩
    exact publish_due good.life done due
  | state q =>
    obtain ⟨⟨row, plan⟩, inspected, returned⟩ := bind_ok done
    cases returned
    obtain ⟨_, -, inspected⟩ := bind_ok inspected
    exact ⟨good, Known.Later.refl _, fun c decided => inspectDb_dead inspected decided⟩
  | recordCleaned q plan receipt retirement =>
    have done : recordCleaned d w q plan receipt retirement s.db = .ok (u, value) := done
    have moves := recordCleaned_moves done
    refine ⟨good.journal moves (fun p due => .inl ⟨p, ?_, rfl⟩) fun r a cleaned => ?_,
      good.later found moves⟩
    · have ran : perform d w s.db (.recordCleaned q plan receipt retirement) = .ok u := by
        show (recordCleaned d w q plan receipt retirement s.db).map Prod.fst = .ok u
        rw [done]
        rfl
      exact perform_due good.life (by simp) (by simp) ran due
    · refine (good.life.cleaned moves cleaned).imp id ?_
      rintro ⟨w', q', plan', receipt', retirement', c, same, retire, decided, rfl⟩
      cases same
      exact promised retire c decided

end SystemOk

end FreeSdn.Releases
