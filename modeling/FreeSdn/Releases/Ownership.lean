import FreeSdn.Releases.Capacity
import FreeSdn.Releases.Retention

/-! Every step of an owner keeps the invariant, and so does every run: what a payload that is due, one
that is being removed, and one whose cleanup is recorded can rely on. -/

namespace FreeSdn.Releases

open FreeSdn.Lib FreeSdn.Artifact
open FreeSdn.Audit (Uuid)

variable {d : Deployment} {h : Host} {s t : System} {owner : Owner} {o pid : Nat} {a : Uuid}
  {authority : Authority} {lease : Option (Uuid × Nat)}

/-! ### An owner that goes on -/

theorem OwnerOk.on {todo : Todo} {rest : Remaining} (good : OwnerOk h s ⟨authority, lease, todo⟩)
    (idle : ∀ a pid p, lease = some (a, pid) → (s.stores a).process pid = some p →
      ∃ l, p.activity = .idle l)
    (steady : knowing.Steady Promised (fun _ _ => True) rest (s.known h ⟨authority, lease, todo⟩)) :
    OwnerOk h s ⟨authority, lease, .ready rest⟩ where
  lease := good.lease
  ready rest' ready := by
    obtain rfl := Todo.ready.inj ready
    exact ⟨idle, steady⟩
  waiting _ waiting := by cases waiting

/-- The knowledge of another owner, or of this one with another lease, after a step of a store. -/
theorem stored_grows (good : SystemOk d h s) {e : Artifact.Event} {wd : World} {new : Option Owner}
    (next : (s.stores a).step h e = some wd) (owner owner' : Owner) :
    (s.known h owner).Grows ((s.stored a wd o new).known h owner') where
  dead _ dead := dead
  gone b gone := by
    by_cases same : b = a
    · subst same
      show Gone ((s.stored b wd o new).stores b).dir
      rw [stored_same]
      exact (good.worlds b).step_gone next gone
    · show Gone ((s.stored a wd o new).stores b).dir
      rw [stored_other same]
      exact gone

/-- The lease that an owner with a process knows. -/
theorem known_lease {p : Process} {todo : Todo} (found : (s.stores a).process pid = some p) :
    (s.known h ⟨authority, some (a, pid), todo⟩).lease = some (p.intent, p.exclusive) := by
  simp [System.known, found]

theorem stored_still {w : World} (found : s.owner o = some owner) :
    s.stored a w o (some owner) = { s with stores := Function.update s.stores a w } := by
  unfold System.stored System.put
  congr
  refine List.ext_getElem? fun n => ?_
  rw [List.getElem?_set]
  split
  · next same =>
    subst same
    rw [if_pos (owner_lt found)]
    unfold System.owner at found
    exact (Option.join_eq_some_iff.mp found).symm
  · rfl

namespace SystemOk

variable {k : Wait} {next : Except Refusal k.Value → Remaining}

/-- What an owner that is at a wait has promised, and how it goes on. -/
theorem waits (good : SystemOk d h s)
    (found : s.owner o = some ⟨authority, lease, .ready (.call k next)⟩) :
    Promised (s.known h ⟨authority, lease, .ready (.call k next)⟩) k ∧ ∀ r u,
      (∀ value, r = .ok value → Answers (s.known h ⟨authority, lease, .ready (.call k next)⟩) k value u) →
      knowing.Steady Promised (fun _ _ => True) (next r) u :=
  ((good.owners o _ found).ready _ rfl).2 _ (Known.Later.refl _)

theorem idle (good : SystemOk d h s) {rest : Remaining}
    (found : s.owner o = some ⟨authority, lease, .ready rest⟩) :
    ∀ a pid p, lease = some (a, pid) → (s.stores a).process pid = some p → ∃ l, p.activity = .idle l :=
  ((good.owners o _ found).ready _ rfl).1

theorem phased {p : OwnedPhase} {next : Except Refusal p.Value → Remaining} (good : SystemOk d h s)
    (found : s.owner o = some ⟨authority, lease, .ready (.call (.phase p) next)⟩) (elsewhere : Elsewhere)
    (acknowledged : Bool) :
    SystemOk d h (s.answered o ⟨authority, lease, .ready (.call (.phase p) next)⟩ next acknowledged
      (p.perform d ⟨authority, elsewhere⟩ s.db)) := by
  obtain ⟨promised, steady⟩ := good.waits found
  cases done : p.perform d ⟨authority, elsewhere⟩ s.db with
  | error refusal =>
    refine good.goOn found rfl fun n same => ?_
    obtain rfl := Option.some.inj same
    exact (good.owners o _ found).on (good.idle found) (steady _ _ fun _ same => by cases same)
  | ok result =>
    obtain ⟨db, value⟩ := result
    obtain ⟨good', answers⟩ := good.phase found promised done
    have found' : System.owner { s with db } o =
      some ⟨authority, lease, .ready (.call (.phase p) next)⟩ := found
    refine good'.goOn found' rfl fun n same => ?_
    obtain rfl := Option.some.inj same
    refine (good'.owners o _ found').on (good'.idle found') (steady _ _ fun value' same => ?_)
    cases acknowledged with
    | true =>
      obtain rfl : value = value' := Except.ok.inj same
      exact answers
    | false => cases same

theorem signed {q : PublicationRequest} {next : Except Refusal (Wait.sign q).Value → Remaining}
    (good : SystemOk d h s) (found : s.owner o = some ⟨authority, lease, .ready (.call (.sign q) next)⟩)
    (answer : Except Refusal (Option String × Option Uuid)) :
    SystemOk d h (s.put o (some ⟨authority, lease, .ready (next answer)⟩)) := by
  refine good.goOn found rfl fun n same => ?_
  obtain rfl := Option.some.inj same
  refine (good.owners o _ found).on (good.idle found) ((good.waits found).2 _ _ fun _ _ => ?_)
  exact Known.Later.refl _

/-! ### Steps of a lease -/

/-- An owner waits for a method of its lease. -/
theorem waiting (good : SystemOk d h s) {e : Artifact.Event} {wd : World} {p : Process} {call : Call}
    {rest : Rest} {goOn : Except Refusal Reply → Remaining}
    (owns : Owns s o owner a (e.process (s.stores a))) (stepped : (s.stores a).step h e = some wd)
    (here : wd.process (e.process (s.stores a)) = some p) (own : p.intent.artifactId = a)
    (busy : p.activity = .busy call rest) (dead : call.duty ≠ .prepare → Dead s.db a)
    (awaits : ∀ L, (∀ owner, (s.known h owner).Grows L) → L.lease = some (p.intent, p.exclusive) →
      Awaits L call goOn) :
    SystemOk d h
      (s.stored a wd o (some ⟨authority, some (a, e.process (s.stores a)), .waiting goOn⟩)) := by
  refine owns.step good stepped ?_ (fun _ _ => ⟨_, rfl, rfl⟩) fun n same => ?_
  · intro n x same lease
    obtain rfl := Option.some.inj same
    exact (Option.some.inj lease).symm
  obtain rfl := Option.some.inj same
  have present : ((s.stored a wd o (some ⟨authority, some (a, e.process (s.stores a)),
      .waiting goOn⟩)).stores a).process (e.process (s.stores a)) = some p := by
    rw [stored_same]
    exact here
  refine ⟨?_, fun _ ready => (by cases ready), ?_⟩
  · intro b pid lease
    obtain ⟨rfl, rfl⟩ := Prod.mk.inj (Option.some.inj lease)
    exact ⟨p, present, own⟩
  · intro next waiting
    obtain rfl := Todo.waiting.inj waiting
    refine ⟨_, _, p.intent, p.exclusive, call, rest, rfl, ?_, dead, ?_⟩
    · rw [present, ← busy]
    · exact awaits _ (fun owner => stored_grows good stepped owner _) (known_lease present)

theorem acquired {intent : Intent} {exclusive create created : Bool}
    {next : Except Refusal Unit → Remaining} {wd : World} (good : SystemOk d h s)
    (found : s.owner o = some ⟨authority, none, .ready (.call (.acquire intent exclusive create) next)⟩)
    (stepped : (s.stores intent.artifactId).step h (.acquire intent exclusive created) = some wd) :
    SystemOk d h (s.stored intent.artifactId wd o (some ⟨authority,
      some (intent.artifactId, (s.stores intent.artifactId).processes.length),
      .waiting fun r => next (r.map fun _ => ())⟩)) := by
  obtain ⟨-, steady⟩ := good.waits found
  have owns : Owns s o _ intent.artifactId
    ((Event.acquire intent exclusive created).process (s.stores intent.artifactId)) :=
      ⟨found, .inr ⟨rfl, rfl⟩⟩
  obtain ⟨rest, here⟩ : ∃ rest, wd.process (s.stores intent.artifactId).processes.length =
      some ⟨intent, exclusive, .busy (.acquire created) rest⟩ := by
    cases World.Moves.of_step stepped with
    | acquire => exact ⟨_, by simp [World.process]; rfl⟩
  refine good.waiting owns stepped here rfl rfl (fun duty => absurd rfl duty) fun L grows lease => ?_
  refine fun r u told => steady _ _ fun value same => ?_
  cases r with
  | error e => cases same
  | ok reply =>
    obtain ⟨more, held, -⟩ := told reply rfl
    exact ⟨(grows _).trans more, held.trans lease⟩

theorem called {call : Call} {next : Except Refusal (Call.Value call) → Remaining} {wd : World}
    (good : SystemOk d h s)
    (found : s.owner o = some ⟨authority, some (a, pid), .ready (.call (.run call) next)⟩)
    (stepped : (s.stores a).step h (.call pid call) = some wd) :
    SystemOk d h (s.stored a wd o (some ⟨authority, some (a, pid),
      .waiting fun r => next (r.bind (Call.answer call))⟩)) := by
  obtain ⟨promised, steady⟩ := good.waits found
  have owns : Owns s o _ a ((Event.call pid call).process (s.stores a)) := ⟨found, .inl rfl⟩
  obtain ⟨p, process, own⟩ := (good.owners o _ found).lease a pid rfl
  have held : (s.known h ⟨authority, some (a, pid), .ready (.call (.run call) next)⟩).lease =
    some (p.intent, p.exclusive) := known_lease process
  obtain ⟨rest, here⟩ : ∃ rest, wd.process pid = some ⟨p.intent, p.exclusive, .busy call rest⟩ := by
    cases World.Moves.of_step stepped with
    | call process' =>
      obtain rfl := Option.some.inj (process.symm.trans process')
      exact ⟨_, process_put process' _⟩
  have dead (duty : call.duty ≠ .prepare) : Dead s.db a := by
    rw [← own]
    cases call with
    | retire c => exact promised _ _ held
    | cleanupRetired c => exact promised _ _ held
    | _ => exact absurd rfl duty
  refine good.waiting owns stepped here own rfl dead fun L grows lease r u told => ?_
  refine steady _ _ fun value same => ?_
  cases r with
  | error e => cases same
  | ok reply =>
    obtain ⟨more, still, answered⟩ := told reply rfl
    have moved : L.lease = (s.known h _).lease := lease.trans held.symm
    exact ⟨(grows _).trans more, still.trans moved, (answered value same).moved moved⟩

theorem turned {next : Except Refusal Reply → Remaining} {x : Turn} {wd : World} (good : SystemOk d h s)
    (found : s.owner o = some ⟨authority, some (a, pid), .waiting next⟩)
    (stepped : (s.stores a).step h (.turn pid x) = some wd) :
    SystemOk d h (s.stored a wd o (some ⟨authority, some (a, pid), .waiting next⟩)) := by
  have owns : Owns s o _ a ((Event.turn pid x).process (s.stores a)) := ⟨found, .inl rfl⟩
  obtain ⟨p, process, own⟩ := (good.owners o _ found).lease a pid rfl
  obtain ⟨_, _, i, e, call, rest, lease, process', dead, awaits⟩ := (good.owners o _ found).waiting next rfl
  obtain ⟨rfl, rfl⟩ := Prod.mk.inj (Option.some.inj lease)
  obtain rfl := Option.some.inj (process.symm.trans process')
  have held : (s.known h ⟨authority, some (a, pid), .waiting next⟩).lease = some (_, _) :=
    known_lease process
  obtain ⟨rest', here⟩ : ∃ rest', wd.process pid = some ⟨i, e, .busy call rest'⟩ := by
    cases World.Moves.of_step stepped with
    | turn process' =>
      cases process.symm.trans process'
      exact ⟨_, process_put process _⟩
  exact good.waiting owns stepped here own rfl dead fun L grows lease =>
    awaits.moved (grows _) (lease.trans held.symm)

/-- What a method that has returned tells. -/
theorem told {call : Call} {i : Intent} {x : Bool} {l : Lease} {dir : Directory} {reply : Reply}
    {K L : Known} (delivers : Delivers h i dir reply call) (prepared : call.verifies = true → l.prepared ≠ none)
    (lease : K.lease = some (i, x)) (gone : Gone dir → L.gone i.artifactId)
    (kept : ∀ data, l.prepared ≠ none → Kept data dir → Exact h i data → L.kept data)
    {value : Call.Value call} (answer : Call.answer call reply = .ok value) : Told K L call value := by
  have verified (holds : Verified h i dir) (prepared : l.prepared ≠ none) : ∃ data, L.kept data := by
    obtain ⟨data, there, exact_⟩ := verified_iff.mp holds
    exact ⟨data, kept data prepared there exact_⟩
  cases call with
  | finish =>
    obtain ⟨holds, state, rfl⟩ := delivers
    obtain rfl := Except.ok.inj answer
    exact ⟨verified holds (prepared rfl), x, lease⟩
  | verifyPrepared =>
    obtain ⟨holds, state, rfl⟩ := delivers
    obtain rfl := Except.ok.inj answer
    exact ⟨verified holds (prepared rfl), x, lease⟩
  | cleanupRetired c => exact ⟨i, x, lease, gone delivers.1⟩
  | _ => trivial

/-- The answer of a method; the lease of an `acquire` that fails is closed. -/
theorem returned_cases {next : Except Refusal Reply → Remaining}
    (ended : s.returned h o owner a pid next = some t) : ∃ i x call r l wd,
    (s.stores a).process pid = some ⟨i, x, .busy call (.done (r, l))⟩ ∧
    (s.stores a).step h (.finished pid) = some wd ∧
    ((∃ e, r = .error e ∧ Process.settle ⟨i, x, .idle l⟩ call r l = none ∧ t = s.stored a wd o
        (some { owner with lease := none, todo := .ready (next (r.mapError ofRaised)) })) ∨
      (Process.settle ⟨i, x, .idle l⟩ call r l = some ⟨i, x, .idle l⟩ ∧ t = s.stored a wd o
        (some { owner with todo := .ready (next (r.mapError ofRaised)) }))) := by
  unfold System.returned at ended
  split at ended
  swap
  · cases ended
  next i x call r l process =>
  obtain ⟨_, stored, rfl⟩ := Option.map_eq_some_iff.mp ended
  obtain ⟨wd, stepped, rfl⟩ := Option.map_eq_some_iff.mp stored
  refine ⟨i, x, call, r, l, wd, process, stepped, ?_⟩
  cases call <;> cases r
  case acquire.error => exact .inl ⟨_, rfl, rfl, rfl⟩
  all_goals exact .inr ⟨rfl, rfl⟩

theorem returned {next : Except Refusal Reply → Remaining} (good : SystemOk d h s)
    (found : s.owner o = some ⟨authority, some (a, pid), .waiting next⟩)
    (ended : s.returned h o ⟨authority, some (a, pid), .waiting next⟩ a pid next = some t) :
    SystemOk d h t := by
  obtain ⟨i, x, call, r, l, wd, process, stepped, closes⟩ := returned_cases ended
  have owns : Owns s o _ a ((Event.finished pid).process (s.stores a)) := ⟨found, .inl rfl⟩
  obtain ⟨p, process', own⟩ := (good.owners o _ found).lease a pid rfl
  obtain rfl := Option.some.inj (process.symm.trans process')
  obtain ⟨_, _, _, _, _, _, lease, process', -, awaits⟩ := (good.owners o _ found).waiting next rfl
  obtain ⟨rfl, rfl⟩ := Prod.mk.inj (Option.some.inj lease)
  cases process.symm.trans process'
  have ends : Ends h i x _ call (r, l) (s.stores a).dir := (good.worlds a).process process
  have held : (s.known h ⟨authority, some (a, pid), .waiting next⟩).lease = some (_, _) :=
    known_lease process
  obtain ⟨here, dir⟩ : wd.process pid = Process.settle ⟨i, x, .idle l⟩ call r l ∧
      wd.dir = (s.stores a).dir := by
    cases World.Moves.of_step stepped with
    | finished process' =>
      cases process.symm.trans process'
      exact ⟨process_put process _, rfl⟩
  rcases closes with ⟨e, rfl, closed, rfl⟩ | ⟨still, rfl⟩
  · refine owns.step good stepped ?_ ?_ fun n same => ?_
    · intro n x same lease
      obtain rfl := Option.some.inj same
      cases lease
    · intro p present
      cases (here.trans closed).symm.trans present
    · obtain rfl := Option.some.inj same
      refine ⟨fun _ _ lease => (by cases lease), fun rest ready => ?_, fun _ waiting => by cases waiting⟩
      obtain rfl := Todo.ready.inj ready
      exact ⟨fun _ _ _ lease => (by cases lease), awaits _ _ fun _ same => by cases same⟩
  · have present : ((s.stored a wd o (some ⟨authority, some (a, pid),
        .ready (next (r.mapError ofRaised))⟩)).stores a).process pid = some ⟨i, x, .idle l⟩ := by
      rw [stored_same]
      exact here.trans still
    refine owns.step good stepped ?_ (fun _ _ => ⟨_, rfl, rfl⟩) fun n same => ?_
    · intro n x same lease
      obtain rfl := Option.some.inj same
      exact (Option.some.inj lease).symm
    obtain rfl := Option.some.inj same
    refine ⟨?_, fun rest ready => ⟨?_, ?_⟩, fun _ waiting => by cases waiting⟩
    · intro b pid lease
      obtain ⟨rfl, rfl⟩ := Prod.mk.inj (Option.some.inj lease)
      exact ⟨_, present, own⟩
    · intro b pid p lease process
      obtain ⟨rfl, rfl⟩ := Prod.mk.inj (Option.some.inj lease)
      obtain rfl := Option.some.inj (present.symm.trans process)
      exact ⟨l, rfl⟩
    · obtain rfl := Todo.ready.inj ready
      refine awaits _ _ fun reply same => ⟨stored_grows good stepped _ _, ?_, fun value answer => ?_⟩
      · exact (known_lease present).trans held.symm
      · cases r with
        | error e => cases same
        | ok reply' =>
          obtain rfl : reply' = reply := Except.ok.inj same
          obtain ⟨delivers, prepared⟩ := ends.2 _ rfl
          refine told delivers prepared held ?_ ?_ answer
          · intro gone
            show Gone ((s.stored a wd o _).stores i.artifactId).dir
            have own : i.artifactId = a := own
            rw [own, stored_same, dir]
            exact gone
          · intro data prepared there exact_
            refine ⟨a, pid, i, x, l, rfl, present, prepared, ?_, exact_⟩
            rw [stored_same, dir]
            exact there

theorem left {todo : Todo} {wd : World} (good : SystemOk d h s)
    (found : s.owner o = some ⟨authority, some (a, pid), todo⟩)
    (stepped : (s.stores a).step h (.leave pid) = some wd) : SystemOk d h (s.stored a wd o none) := by
  have owns : Owns s o _ a ((Event.leave pid).process (s.stores a)) := ⟨found, .inl rfl⟩
  refine owns.step good stepped (fun _ _ same => by cases same) ?_ fun _ same => by cases same
  intro p present
  cases World.Moves.of_step stepped with
  | leave process => cases (process_put process none).symm.trans present

/-! ### Runs -/

theorem step {label : Label} (good : SystemOk d h s) (next : s.step d h label = some t) :
    SystemOk d h t := by
  unfold System.step at next
  cases label with
  | transaction e =>
    dsimp only at next
    split at next
    · next single =>
      obtain ⟨u, stepped, rfl⟩ := Option.map_eq_some_iff.mp next
      exact good.transaction single stepped
    · cases next
  | start authority task =>
    obtain rfl := Option.some.inj next
    exact good.start authority task
  | phase o elsewhere acknowledged =>
    dsimp only at next
    split at next
    · next found =>
      obtain rfl := Option.some.inj next
      exact good.phased found elsewhere acknowledged
    · cases next
  | sign o answer =>
    dsimp only at next
    split at next
    · next found =>
      obtain rfl := Option.some.inj next
      exact good.signed found answer
    · cases next
  | acquire o created =>
    dsimp only at next
    split at next
    · next found =>
      split at next
      · cases next
      · obtain ⟨_, stored, rfl⟩ := Option.map_eq_some_iff.mp next
        obtain ⟨wd, stepped, rfl⟩ := Option.map_eq_some_iff.mp stored
        exact good.acquired found stepped
    · cases next
  | call o =>
    dsimp only at next
    split at next
    · next found =>
      obtain ⟨_, stored, rfl⟩ := Option.map_eq_some_iff.mp next
      obtain ⟨wd, stepped, rfl⟩ := Option.map_eq_some_iff.mp stored
      exact good.called found stepped
    · cases next
  | turn o x =>
    dsimp only at next
    split at next
    · next found =>
      obtain ⟨wd, stepped, rfl⟩ := Option.map_eq_some_iff.mp next
      have turned := good.turned found stepped
      -- The owner goes on waiting.
      rwa [stored_still found] at turned
    · cases next
  | returned o =>
    dsimp only at next
    split at next
    · next found => exact good.returned found next
    · cases next
  | leave o =>
    dsimp only at next
    split at next
    · next found =>
      obtain rfl := Option.some.inj next
      exact good.goOn found rfl fun _ same => by cases same
    · next found =>
      obtain ⟨_, stored, rfl⟩ := Option.map_eq_some_iff.mp next
      obtain ⟨wd, stepped, rfl⟩ := Option.map_eq_some_iff.mp stored
      exact good.left found stepped
    · cases next

end SystemOk

theorem reached {labels : List Label} (run : Runs (System.step d h) Free .empty labels s) :
    SystemOk d h s := by
  refine run.invariant ?_ fun _ _ _ _ next good => good.step next
  exact
    { life := .empty
      worlds := fun _ =>
        { sound := ⟨fun _ _ entry => (by cases entry), .inl ⟨rfl, rfl⟩⟩
          settled := fun ⟨_, due, _⟩ => by cases due.1
          locked := fun _ _ _ _ there => by cases there
          processes := fun _ mem => by cases mem }
      owners := fun _ _ found => by cases found
      apart := fun _ _ _ _ _ found => by cases found
      held := fun _ _ _ process => by cases process
      intact := fun _ due => by cases due.1
      cleaned := fun _ _ cleaned => by cases cleaned.1 }

theorem OwnedPhase.perform_moves {w : Session} {p : OwnedPhase} {u v : Db} {value : p.Value}
    (done : p.perform d w u = .ok (v, value)) : ∃ e, Moves d u e v := by
  cases p with
  | reserve q => exact ⟨_, reserve_moves done⟩
  | preparationState q =>
    obtain ⟨_, -, done⟩ := bind_ok done
    obtain ⟨_, -, returned⟩ := bind_ok done
    cases returned
    exact ⟨⟨w, .reserve q⟩, .same⟩
  | recordPrepared q receipt => exact ⟨_, recordPrepared_moves done⟩
  | inspect q =>
    obtain ⟨_, -, done⟩ := bind_ok done
    obtain ⟨_, -, returned⟩ := bind_ok done
    cases returned
    exact ⟨⟨w, .reserve q⟩, .same⟩
  | publish q signature identity prepared => exact ⟨_, publish_moves done⟩
  | state q =>
    obtain ⟨_, -, returned⟩ := bind_ok done
    cases returned
    exact ⟨⟨w, .recordCleaned q value.2 none none⟩, .same⟩
  | recordCleaned q plan receipt retirement => exact ⟨_, recordCleaned_moves done⟩

/-- A step is a transaction of the journal, or a step of one store. -/
theorem step_cases {label : Label} (next : s.step d h label = some t) :
    (t.db = s.db ∨ ∃ e, Moves d s.db e t.db) ∧ (t.stores = s.stores ∨
      ∃ a e wd, (s.stores a).step h e = some wd ∧ t.stores = Function.update s.stores a wd) := by
  unfold System.step at next
  cases label with
  | transaction e =>
    dsimp only at next
    split at next
    · obtain ⟨u, stepped, rfl⟩ := Option.map_eq_some_iff.mp next
      exact ⟨.inr ⟨e, Moves.of_step stepped⟩, .inl rfl⟩
    · cases next
  | start authority task =>
    obtain rfl := Option.some.inj next
    exact ⟨.inl rfl, .inl rfl⟩
  | phase o elsewhere acknowledged =>
    dsimp only at next
    split at next
    · next authority lease p goOn found =>
      obtain rfl := Option.some.inj next
      cases done : p.perform d ⟨authority, elsewhere⟩ s.db with
      | error refusal => exact ⟨.inl rfl, .inl rfl⟩
      | ok result => exact ⟨.inr (OwnedPhase.perform_moves done), .inl rfl⟩
    · cases next
  | sign o answer =>
    dsimp only at next
    split at next
    · obtain rfl := Option.some.inj next
      exact ⟨.inl rfl, .inl rfl⟩
    · cases next
  | acquire o created =>
    dsimp only at next
    split at next
    · split at next
      · cases next
      · obtain ⟨_, stored, rfl⟩ := Option.map_eq_some_iff.mp next
        obtain ⟨wd, stepped, rfl⟩ := Option.map_eq_some_iff.mp stored
        exact ⟨.inl rfl, .inr ⟨_, _, wd, stepped, rfl⟩⟩
    · cases next
  | call o =>
    dsimp only at next
    split at next
    · obtain ⟨_, stored, rfl⟩ := Option.map_eq_some_iff.mp next
      obtain ⟨wd, stepped, rfl⟩ := Option.map_eq_some_iff.mp stored
      exact ⟨.inl rfl, .inr ⟨_, _, wd, stepped, rfl⟩⟩
    · cases next
  | turn o x =>
    dsimp only at next
    split at next
    · obtain ⟨wd, stepped, rfl⟩ := Option.map_eq_some_iff.mp next
      exact ⟨.inl rfl, .inr ⟨_, _, wd, stepped, rfl⟩⟩
    · cases next
  | returned o =>
    dsimp only at next
    split at next
    · obtain ⟨i, x, call, r, l, wd, -, stepped, ⟨-, -, -, rfl⟩ | ⟨-, rfl⟩⟩ := SystemOk.returned_cases next
      · exact ⟨.inl rfl, .inr ⟨_, _, wd, stepped, rfl⟩⟩
      · exact ⟨.inl rfl, .inr ⟨_, _, wd, stepped, rfl⟩⟩
    · cases next
  | leave o =>
    dsimp only at next
    split at next
    · obtain rfl := Option.some.inj next
      exact ⟨.inl rfl, .inl rfl⟩
    · obtain ⟨_, stored, rfl⟩ := Option.map_eq_some_iff.mp next
      obtain ⟨wd, stepped, rfl⟩ := Option.map_eq_some_iff.mp stored
      exact ⟨.inl rfl, .inr ⟨_, _, wd, stepped, rfl⟩⟩
    · cases next

namespace SystemOk

/-- What is decided stays decided, and what is gone stays gone. -/
theorem later_dead {labels : List Label} (good : SystemOk d h s)
    (run : Runs (System.step d h) Free s labels t) (dead : Dead s.db a) : SystemOk d h t ∧ Dead t.db a := by
  refine run.invariant (P := fun t => SystemOk d h t ∧ Dead t.db a) ⟨good, dead⟩ ?_
  rintro t label u - next ⟨good, dead⟩
  refine ⟨good.step next, ?_⟩
  obtain ⟨same | ⟨e, moves⟩, -⟩ := step_cases next
  · rwa [same]
  · exact good.life.dead moves dead

theorem later_gone {labels : List Label} (good : SystemOk d h s)
    (run : Runs (System.step d h) Free s labels t) (gone : Gone (s.stores a).dir) :
    Gone (t.stores a).dir := by
  suffices both : SystemOk d h t ∧ Gone (t.stores a).dir from both.2
  refine run.invariant (P := fun t => SystemOk d h t ∧ Gone (t.stores a).dir) ⟨good, gone⟩ ?_
  rintro t label u - next ⟨good, gone⟩
  refine ⟨good.step next, ?_⟩
  obtain ⟨-, same | ⟨b, e, wd, stepped, changed⟩⟩ := step_cases next
  · rwa [same]
  · rw [changed]
    by_cases own : a = b
    · subst own
      have updated : Function.update t.stores a wd a = wd := Function.update_self a wd t.stores
      rw [updated]
      exact (good.worlds a).step_gone stepped gone
    · have updated : Function.update t.stores b wd a = t.stores a := Function.update_of_ne own wd t.stores
      rw [updated]
      exact gone

end SystemOk

/-! ### A release that is prepared, cancelled and cleaned up -/

def payloadA : List UInt8 := List.replicate 17 0

def hostA : Host := ⟨sha256Owned, 0⟩

def phaseA (o : Nat) : Label := .phase o sessionA.elsewhere true

/-- The system calls of a method, and its return. -/
def turnsA (o turns : Nat) : List Label := List.replicate turns (.turn o calm) ++ [.returned o]

def prepareA : List Label :=
  .start sessionA.authority (.preparation ownedA (some [payloadA])) :: phaseA 0 :: phaseA 0 ::
    .acquire 0 true :: turnsA 0 15 ++ phaseA 0 :: .call 0 :: turnsA 0 22 ++ phaseA 0 :: .call 0 ::
    turnsA 0 9 ++ phaseA 0 :: .call 0 :: turnsA 0 92 ++ [phaseA 0, .leave 0]

/-- After the cancellation the payload is retired, and is about to be removed. -/
def retireA : List Label :=
  .transaction ⟨sessionA, .cancel ownedA⟩ ::
    .start sessionA.authority (.managedCleanup (.publication ownedA)) :: phaseA 1 :: phaseA 1 ::
    .acquire 1 false :: turnsA 1 14 ++ phaseA 1 :: .call 1 :: turnsA 1 72 ++ phaseA 1 :: .call 1 ::
    List.replicate 55 (.turn 1 calm)

def cleanA : List Label := turnsA 1 39 ++ [phaseA 1]

/-- The payload is due, then it is being removed, then its removal is recorded. -/
theorem ranA : ((exec (System.step deploymentOwned hostA) Free .empty prepareA).any fun s =>
    (s.db.operations.any fun p => decide (p.kind = .publish ∧ p.storageKind = .owned ∧
      p.phase = .prepared)) &&
    (exec (System.step deploymentOwned hostA) Free s retireA).any fun t =>
      (match (t.stores publicationA).process 1 with
        | some ⟨_, _, .busy _ (.call (.inr (.unlink _)) _)⟩ => true
        | _ => false) &&
      (exec (System.step deploymentOwned hostA) Free t cleanA).any fun u =>
        u.db.operations.any fun r => decide (r.phase = .cleaned ∧ r.storageKind = .owned ∧
          r.artifactId = some publicationA ∧ r.kind = .publish)) = true := by decide +kernel

/-! ### What the system keeps -/

/-- A payload that is due is there with its declared size and digest, whatever has been refused, lost or
interrupted so far. -/
theorem due_payload_intact {labels : List Label} {p : Operation}
    (run : Runs (System.step d h) Free .empty labels s) (due : Due s.db p) :
    Verified h p.intent (s.stores p.operationId).dir :=
  (reached run).intact p due

theorem prepareA_intact : ∃ s, Runs (System.step deploymentOwned hostA) Free .empty prepareA s ∧
    ∃ p, Due s.db p ∧ Verified hostA p.intent (s.stores p.operationId).dir := by
  obtain ⟨s, ends, holds⟩ := (Option.any_eq_true _ _).mp ranA
  obtain ⟨p, mem, facts⟩ := List.any_eq_true.mp (Bool.and_eq_true_iff.mp holds).1
  obtain ⟨kind, owned, phase⟩ := of_decide_eq_true facts
  have run := Runs.of_exec ends
  have due : Due s.db p := ⟨mem, kind, owned, .inl phase⟩
  exact ⟨s, run, p, due, due_payload_intact run due⟩

/-- Only a payload is ever removed, only when its publication is cancelled or the deletion of its release
is decided, and it is never due afterwards. -/
theorem removal_decided {labels : List Label} {p : Process} {call : Call} {name : Name}
    {next : Except Raised (Value (.inr (.unlink name))) → Rest}
    (run : Runs (System.step d h) Free .empty labels s) (process : (s.stores a).process pid = some p)
    (busy : p.activity = .busy call (.call (.inr (.unlink name)) next)) :
    name = .payload ∧ Dead s.db a ∧ ∀ later t, Runs (System.step d h) Free s later t →
      ∀ q, Due t.db q → q.operationId ≠ a := by
  have good := reached run
  have mem : some p ∈ (s.stores a).processes := List.mem_of_getElem? (process_some process)
  obtain ⟨payload, decision, rfl, -⟩ := (good.worlds a).removes mem busy
  have dead : Dead s.db a := good.duty process busy (fun duty => by cases duty)
  refine ⟨payload, dead, fun later t more q due => ?_⟩
  obtain ⟨good, dead⟩ := good.later_dead more dead
  exact good.life.not_due dead due

theorem retireA_decided : ∃ s, Runs (System.step deploymentOwned hostA) Free .empty (prepareA ++ retireA) s ∧
    Dead s.db publicationA ∧ ∀ later t, Runs (System.step deploymentOwned hostA) Free s later t →
      ∀ q, Due t.db q → q.operationId ≠ publicationA := by
  obtain ⟨s, ends, holds⟩ := (Option.any_eq_true _ _).mp ranA
  obtain ⟨t, more, holds⟩ := (Option.any_eq_true _ _).mp (Bool.and_eq_true_iff.mp holds).2
  have run := (Runs.of_exec ends).append (Runs.of_exec more)
  have removing := (Bool.and_eq_true_iff.mp holds).1
  split at removing
  · next process => exact ⟨t, run, (removal_decided run process rfl).2⟩
  · cases removing

/-- A removal is recorded only when the payload is gone, and then it is gone for good. -/
theorem cleaned_payload_gone {labels later : List Label} {r : Operation}
    (run : Runs (System.step d h) Free .empty labels s) (cleaned : Cleaned s.db r a)
    (more : Runs (System.step d h) Free s later t) : Gone (t.stores a).dir :=
  (reached run).later_gone more ((reached run).cleaned r a cleaned)

theorem cleanA_gone : ∃ s,
    Runs (System.step deploymentOwned hostA) Free .empty (prepareA ++ retireA ++ cleanA) s ∧
      (∃ r, Cleaned s.db r publicationA) ∧
      ∀ later t, Runs (System.step deploymentOwned hostA) Free s later t →
        Gone (t.stores publicationA).dir := by
  obtain ⟨s, ends, holds⟩ := (Option.any_eq_true _ _).mp ranA
  obtain ⟨t, more, holds⟩ := (Option.any_eq_true _ _).mp (Bool.and_eq_true_iff.mp holds).2
  obtain ⟨u, last, holds⟩ := (Option.any_eq_true _ _).mp (Bool.and_eq_true_iff.mp holds).2
  obtain ⟨r, mem, facts⟩ := List.any_eq_true.mp holds
  obtain ⟨phase, owned, artifact, kind⟩ := of_decide_eq_true facts
  have run := ((Runs.of_exec ends).append (Runs.of_exec more)).append (Runs.of_exec last)
  have cleaned : Cleaned u.db r publicationA :=
    ⟨mem, phase, owned, artifact, fun deletion => by cases kind.symm.trans deletion⟩
  exact ⟨u, run, ⟨r, cleaned⟩, fun later t more => cleaned_payload_gone run cleaned more⟩

end FreeSdn.Releases
