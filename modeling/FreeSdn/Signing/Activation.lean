import FreeSdn.Signing.Lifecycle

/-! Runs of the signing lifecycle: the active identity is the key in the directory, for good, and a private
key is only made for an initialization that the journal has. -/

namespace FreeSdn.Signing

open FreeSdn.Lib

variable {h : Host} {j j' : Journal} {actor now : Nat} {c : SigningCommand} {i : AgentSigningIntent}

/-! ### What an operation relies on -/

/-- The journal and the pairs that the key directory has returned. -/
structure Known where
  journal : Journal
  returned : List (Nat × List UInt8)

/-- An initialization is in the journal. -/
def Journal.Begun (j : Journal) : Prop := ∃ i ∈ j.intents, i.kind = .initialization

def Known.Seen (s : Known) (public_ : List UInt8) : Prop := ∃ key, (key, public_) ∈ s.returned

structure Known.Later (s t : Known) : Prop where
  identity : ∀ a, s.journal.identity = some a → t.journal.identity = some a
  begun : s.journal.Begun → t.journal.Begun
  returned : ∀ pair ∈ s.returned, pair ∈ t.returned

/-- A client that is told of an activation is told of the active identity. -/
def Known.Ends (s : Known) (r : SigningOperationResult) : Prop :=
  r.state = .cancelled ∨ ∃ a, s.journal.identity = some a ∧
    r = ⟨a.operationId, a.installationId, a.identityEpoch, .activated, some a.publicKeySha256⟩

theorem Known.Later.refl (s : Known) : s.Later s := ⟨fun _ active => active, id, fun _ mem => mem⟩

theorem Known.Later.trans {s t u : Known} (first : s.Later t) (second : t.Later u) : s.Later u where
  identity a active := second.identity a (first.identity a active)
  begun begun := second.begun (first.begun begun)
  returned pair mem := second.returned pair (first.returned pair mem)

theorem Known.Seen.later {s t : Known} {public_ : List UInt8} (seen : s.Seen public_) (moved : s.Later t) :
    t.Seen public_ := seen.imp fun _ mem => moved.returned _ mem

theorem Known.Ends.later {s t : Known} {r : SigningOperationResult} (ends : s.Ends r) (moved : s.Later t) :
    t.Ends r := ends.imp_right fun ⟨a, active, same⟩ => ⟨a, moved.identity a active, same⟩

/-- What an answer says. -/
def Answered (s : Known) : (k : Wait) → k.Value → Prop
  | .check, _ => True
  | .lock, _ => True
  | .transaction _ _ .start, r => r.2 = true → r.1 ∈ s.journal.intents
  | .transaction _ _ (.prepare _), _ => True
  | .transaction _ _ (.activate _), i => s.Ends i.result
  | .storage _, public_ => s.Seen public_

def lifecycle : Rely Wait Wait.Value Known where
  later := Known.Later
  refl := Known.Later.refl
  trans := Known.Later.trans
  may s k a t := s.Later t ∧ Answered t k a

/-- What an operation may ask for: a session that creates a key only when the journal has an
initialization, and a transaction that records only a key that is in the directory. -/
def Asked (s : Known) : Wait → Prop
  | .storage .legacy => False
  | .storage .initialization => s.journal.Begun
  | .transaction _ _ (.prepare public_) => s.Seen public_
  | _ => True

abbrev Does (p : Lifecycle α) (Q : α → Known → Prop) (s : Known) : Prop := lifecycle.Holds Asked p Q s

theorem checking {f : Unit → Lifecycle α} {Q : α → Known → Prop} {s : Known}
    (rest : ∀ t, s.Later t → Does (f ()) Q t) : Does (check >>= f) Q s :=
  Rely.Holds.waiting fun _ moved => ⟨trivial, fun _ u told => rest u (moved.trans told.1)⟩

/-- A transaction, and the check behind it. -/
theorem phasing {x : Transaction} {f : x.Value → Lifecycle α} {Q : α → Known → Prop} {s : Known}
    (wait : ∀ t, s.Later t → Asked t (.transaction actor c x) ∧
      ∀ a u, t.Later u → Answered u (.transaction actor c x) a → ∀ v, u.Later v → Does (f a) Q v) :
    Does (phase actor c x >>= f) Q s := by
  refine Rely.Holds.bind (Rely.Holds.waiting fun t moved => ⟨(wait t moved).1, fun a u told => ?_⟩)
  refine checking fun v later => Rely.Holds.pure fun w more => ?_
  exact (wait t moved).2 a u told.1 told.2 w (later.trans more)

theorem activateIntent_does (intent : AgentSigningIntent) (s : Known) :
    Does (activateIntent h actor c intent) (fun r s => s.Ends r) s := by
  refine Rely.Holds.lifting fun expected _ => ?_
  refine Rely.Holds.waiting fun _ _ => ⟨trivial, fun _ t _ => ?_⟩
  refine checking fun t _ => ?_
  refine phasing fun _ _ => ⟨trivial, fun accepted t _ ends u later => ?_⟩
  exact Rely.Holds.pure fun _ moved => Known.Ends.later ends (later.trans moved)

/-- The mode that creates is that of a new initialization. -/
theorem storageMode_creates {created : Bool} {mode : Purpose} (chosen : storageMode i created = .ok mode) :
    mode ≠ .legacy ∧ (mode = .initialization → i.kind = .initialization ∧ created = true) := by
  unfold storageMode at chosen
  split at chosen
  · obtain ⟨_, -, rfl⟩ := map_ok chosen
    exact ⟨by simp, fun same => by cases same⟩
  · next kind _ =>
    obtain rfl := Except.ok.inj chosen
    cases created with
    | true => exact ⟨by simp, fun _ => ⟨kind, rfl⟩⟩
    | false => exact ⟨by simp, fun same => by cases same⟩
  · cases chosen

theorem preparePending_does {intent : AgentSigningIntent} {created : Bool} {s : Known}
    (there : created = true → intent.kind = .initialization → s.journal.Begun) :
    Does (preparePending actor c intent created) (fun _ _ => True) s := by
  unfold preparePending
  split
  · refine Rely.Holds.lifting fun mode chosen => ?_
    obtain ⟨notLegacy, creates⟩ := storageMode_creates chosen
    refine Rely.Holds.waiting fun t moved => ⟨?_, fun public_ u told => ?_⟩
    · cases mode with
      | legacy => exact notLegacy rfl
      | initialization =>
        obtain ⟨kind, new⟩ := creates rfl
        exact moved.begun (there new kind)
      | anchored expected => trivial
      | adopt sha256 => trivial
      | resume => trivial
    · refine checking fun v later => ?_
      refine Rely.Holds.waiting fun w more => ⟨Known.Seen.later told.2 (later.trans more), fun _ _ _ => ?_⟩
      exact checking fun _ _ => Rely.Holds.pure fun _ _ => trivial
  · exact Rely.Holds.pure fun _ _ => trivial

theorem executeSigningLifecycle_does (s : Known) :
    Does (executeSigningLifecycle h actor c) (fun r s => s.Ends r) s := by
  refine Rely.Holds.lifting fun _ _ => ?_
  refine checking fun s _ => ?_
  refine Rely.Holds.waiting fun s _ => ⟨trivial, fun _ t _ => ?_⟩
  refine checking fun s _ => ?_
  refine phasing fun s _ => ⟨trivial, fun begun t _ there u later => ?_⟩
  split
  · next cancelled => exact Rely.Holds.pure fun _ _ => .inl cancelled
  · have known (new : begun.2 = true) (kind : begun.1.kind = .initialization) : u.journal.Begun :=
      later.begun ⟨begun.1, there new, kind⟩
    refine Rely.Holds.bind (Rely.Holds.mono (preparePending_does known) fun intent s _ => ?_)
    exact activateIntent_does intent s

/-! ### The invariant -/

def System.known (s : System) : Known := ⟨s.journal, s.store.returned⟩

/-- What an operation does from now on. -/
abbrev Coroutine.Steady (p : Coroutine) (s : Known) : Prop :=
  Rely.Steady lifecycle Asked (fun r s => ∀ a, r = .ok a → s.Ends a) p s

/-- `pin` is an identity that is known to be active. -/
structure SystemOk (h : Host) (start : Directory) (pin : Option AgentSigningIdentity) (s : System) : Prop where
  pinned : ∀ a, pin = some a → s.journal.identity = some a
  store : WorldOk h start s.store
  journal : JournalOk h s.journal
  keys : ∀ i ∈ s.journal.intents, ∀ pem, i.publicKeyPem = some pem → s.known.Seen pem
  made : s.store.dir.created = start.created ∨ s.journal.Begun
  session : ∀ x, s.store.session = some x →
    x.purpose ≠ .legacy ∧ (x.purpose = .initialization → s.journal.Begun)
  operations : ∀ n p, s.operation n = some p → p.Steady s.known
  answers : ∀ r, .ok r ∈ s.answers → s.known.Ends r

variable {start : Directory} {pin : Option AgentSigningIdentity} {s t : System} {n m : Nat} {p q : Coroutine}

theorem operation_put {r : Option Coroutine} (found : (s.put n r).operation m = some q) :
    r = some q ∨ s.operation m = some q := by
  unfold System.put System.operation at found
  rw [List.getElem?_set] at found
  split at found
  · split at found
    · exact .inl found
    · cases found
  · exact .inr found

theorem answer_ok {reply : (k : Wait) → Option (Except Refusal k.Value)}
    (done : s.answer n reply = some t) : ∃ k next r, s.operation n = some (.call k next) ∧
      reply k = some r ∧ t = s.put n (some (next r)) := by
  unfold System.answer at done
  split at done
  · next k next found =>
    obtain ⟨r, replied, rfl⟩ := Option.map_eq_some_iff.mp done
    exact ⟨k, next, r, found, replied, rfl⟩
  · cases done

namespace SystemOk

/-- Who has the lock and the session plays no part in the invariant. -/
theorem owned (good : SystemOk h start pin s) (owner holder : Option Nat) :
    SystemOk h start pin { s with owner, holder } :=
  ⟨good.pinned, good.store, good.journal, good.keys, good.made, good.session, good.operations, good.answers⟩

theorem put (good : SystemOk h start pin s) {r : Option Coroutine} (steady : ∀ p, r = some p → p.Steady s.known) :
    SystemOk h start pin (s.put n r) := by
  refine { good with operations := fun m q found => ?_ }
  rcases operation_put found with new | old
  · exact steady q new
  · exact good.operations m q old

theorem answer (good : SystemOk h start pin s) {reply : (k : Wait) → Option (Except Refusal k.Value)}
    (done : s.answer n reply = some t)
    (told : ∀ k a, reply k = some (.ok a) → Answered s.known k a) : SystemOk h start pin t := by
  obtain ⟨k, next, r, found, replied, rfl⟩ := answer_ok done
  refine good.put fun p same => ?_
  obtain rfl := Option.some.inj same
  obtain ⟨-, steady⟩ := good.operations n _ found s.known (Known.Later.refl _)
  refine steady r s.known fun a ok => ⟨Known.Later.refl _, told k a ?_⟩
  rw [replied, ok]

/-- The key directory moves on. -/
theorem stored (good : SystemOk h start pin s) {store : World} (ok : WorldOk h start store)
    (made : store.dir.created = start.created ∨ s.journal.Begun)
    (session : ∀ x, store.session = some x →
      x.purpose ≠ .legacy ∧ (x.purpose = .initialization → s.journal.Begun))
    (returned : ∀ pair ∈ s.store.returned, pair ∈ store.returned) :
    SystemOk h start pin { s with store } := by
  have moved : s.known.Later (System.known { s with store }) := ⟨fun _ active => active, id, returned⟩
  refine ⟨good.pinned, ok, good.journal, fun i mem pem key => ?_, made, session,
    fun n p found => ?_, fun r told => ?_⟩
  · exact (good.keys i mem pem key).later moved
  · exact (good.operations n p found).later moved
  · exact (good.answers r told).later moved

/-- The journal moves on. -/
theorem journaled (good : SystemOk h start pin s) (moves : Moves h s.known.Seen s.journal j) :
    SystemOk h start pin { s with journal := j } ∧ s.known.Later (System.known { s with journal := j }) := by
  have begun (before : s.journal.Begun) : j.Begun := by
    obtain ⟨i, mem, kind⟩ := before
    obtain ⟨x, there, -, same⟩ := moves.kept good.journal mem
    exact ⟨x, there, same.trans kind⟩
  have moved : s.known.Later (System.known { s with journal := j }) :=
    ⟨fun a active => moves.identity active, begun, fun _ mem => mem⟩
  refine ⟨⟨fun a same => moves.identity (good.pinned a same), good.store, good.journal.moves moves,
    fun i mem pem key => ?_, good.made.imp_right begun, fun x found => ?_, fun n p found => ?_,
    fun r told => ?_⟩, moved⟩
  · exact moves.keys good.keys i mem pem key
  · exact ⟨(good.session x found).1, fun same => begun ((good.session x found).2 same)⟩
  · exact (good.operations n p found).later moved
  · exact (good.answers r told).later moved

theorem enters {w w' : World} {purpose : Purpose} (next : w.step h (.enter purpose) = some w') :
    w'.dir = w.dir ∧ w'.returned = w.returned ∧ ∀ x, w'.session = some x → x.purpose = purpose := by
  have next : (if w.session.isSome then none else
    some { w with session := some ⟨purpose, (loadOrGenerate h purpose).run ()⟩ }) = some w' := next
  split at next
  · cases next
  · obtain rfl := Option.some.inj next
    exact ⟨rfl, rfl, fun x found => (congrArg Session.purpose (Option.some.inj found)).symm⟩

/-- A session begins for a purpose that may. -/
theorem entered (good : SystemOk h start pin s) {store : World} {purpose : Purpose}
    (next : s.store.step h (.enter purpose) = some store)
    (asked : Asked s.known (.storage purpose)) : SystemOk h start pin { s with store } := by
  obtain ⟨dir, returned, session⟩ := enters next
  refine good.stored (good.store.step next) (dir ▸ good.made) (fun x found => ?_) fun pair mem => returned ▸ mem
  rw [session x found]
  cases purpose with
  | legacy => exact absurd asked id
  | initialization => exact ⟨by simp, fun _ => asked⟩
  | anchored expected => exact ⟨by simp, fun same => by cases same⟩
  | adopt sha256 => exact ⟨by simp, fun same => by cases same⟩
  | resume => exact ⟨by simp, fun same => by cases same⟩

theorem turned (good : SystemOk h start pin s) {store : World} {c : Turn}
    (next : s.store.step h (.turn c) = some store) : SystemOk h start pin { s with store } := by
  obtain ⟨x, rest, session, session', returned, made⟩ := good.store.turn next
  refine good.stored (good.store.step next) ?_ (fun y found => ?_) fun pair mem => returned ▸ mem
  · rcases made with same | creates
    · exact same ▸ good.made
    · obtain ⟨notLegacy, begun⟩ := good.session x session
      refine .inr (begun ?_)
      cases purpose : x.purpose with
      | legacy => exact absurd purpose notLegacy
      | initialization => rfl
      | anchored expected => simp [purpose, Purpose.creates] at creates
      | adopt sha256 => simp [purpose, Purpose.creates] at creates
      | resume => simp [purpose, Purpose.creates] at creates
  · obtain rfl := Option.some.inj (session'.symm.trans found)
    exact good.session x session

theorem finishes {w w' : World} (next : w.step h .finished = some w') :
    w'.dir = w.dir ∧ w'.session = none ∧ ∃ pair, w'.returned = pair :: w.returned := by
  unfold World.step at next
  dsimp only at next
  split at next
  · next purpose pair _ _ =>
    obtain rfl := Option.some.inj next
    exact ⟨rfl, rfl, pair, rfl⟩
  · cases next

/-- The operation that has the session is told how it ended. -/
theorem left {store : World} {r : Except Refusal (List UInt8)}
    (ok : SystemOk h start pin { s with store })
    (seen : ∀ public_, r = .ok public_ → (System.known { s with store }).Seen public_)
    (done : s.leave store r = some t) : SystemOk h start pin t := by
  unfold System.leave at done
  split at done
  · obtain rfl := Option.some.inj done
    exact ok
  · refine (ok.owned s.owner none).answer done fun k a replied => ?_
    cases k with
    | storage purpose => exact seen a (Option.some.inj replied)
    | check => cases replied
    | lock => cases replied
    | transaction actor c t => cases replied

theorem returns (good : SystemOk h start pin s) {store : World}
    (next : s.store.step h .finished = some store) : SystemOk h start pin { s with store } := by
  obtain ⟨dir, session, pair, returned⟩ := finishes next
  refine good.stored (good.store.step next) (dir ▸ good.made) (fun x found => ?_) fun other mem => ?_
  · cases session.symm.trans found
  · exact returned ▸ List.mem_cons_of_mem _ mem

theorem fails (good : SystemOk h start pin s) {store : World}
    (next : s.store.step h .leave = some store) : SystemOk h start pin { s with store } := by
  have ok := good.store.step next
  obtain ⟨x, -, rfl⟩ := Option.map_eq_some_iff.mp next
  exact good.stored ok good.made (fun y found => by cases found) fun pair mem => mem

/-- The result of an activated intent is the active identity's. -/
theorem result_ends {s : Known} (good : JournalOk h s.journal) (mem : i ∈ s.journal.intents)
    (state : i.state = .activated) : s.Ends i.result := by
  obtain ⟨a, active, agrees, operation⟩ := good.activated i mem state
  obtain ⟨installation, epoch, -, sha256, -, -⟩ := JournalOk.agrees_iff.mp agrees
  refine .inr ⟨a, active, ?_⟩
  simp [AgentSigningIntent.result, operation, installation, epoch, sha256, state]

theorem run_ok {s : Known} {t : Transaction} {r : Journal × t.Value}
    (asked : Asked s (.transaction actor c t)) (done : t.run h s.journal actor now c = .ok r) :
    Moves h s.Seen s.journal r.1 ∧
      (JournalOk h r.1 → Answered { s with journal := r.1 } (.transaction actor c t) r.2) := by
  cases t with
  | start =>
    obtain ⟨moves, new⟩ := beginOperation_moves done
    exact ⟨moves, fun _ => new⟩
  | prepare public_ => exact ⟨prepare_moves asked done, fun _ => trivial⟩
  | activate prepared =>
    obtain ⟨moves, mem, state⟩ := activate_moves done
    exact ⟨moves, fun good => result_ends good mem state⟩

theorem transacted (good : SystemOk h start pin s) {acknowledged : Bool}
    (next : s.transact h n now acknowledged = some t) : SystemOk h start pin t := by
  unfold System.transact at next
  split at next
  · next actor c x more found =>
    obtain ⟨asked, steady⟩ := good.operations n _ found s.known (Known.Later.refl _)
    split at next
    · next journal r done =>
      obtain rfl := Option.some.inj next
      obtain ⟨moves, answered⟩ := run_ok asked done
      obtain ⟨ok, later⟩ := good.journaled moves
      refine ok.put fun p same => ?_
      obtain rfl := Option.some.inj same
      refine steady _ _ fun a told => ⟨later, ?_⟩
      cases acknowledged with
      | true => exact Except.ok.inj told ▸ answered ok.journal
      | false => cases told
    · obtain rfl := Option.some.inj next
      refine good.put fun p same => ?_
      obtain rfl := Option.some.inj same
      exact steady _ s.known fun a told => by cases told
  · cases next

theorem started (good : SystemOk h start pin s) (actor : Nat) (c : SigningCommand) :
    SystemOk h start pin
      { s with operations := s.operations ++ [some (executeSigningLifecycle h actor c).run] } := by
  refine { good with operations := fun m p found => ?_ }
  unfold System.operation at found
  dsimp only at found
  rw [List.getElem?_append] at found
  split at found
  · exact good.operations m p found
  · rw [List.getElem?_singleton] at found
    split at found
    · obtain rfl := Option.some.inj found
      exact executeSigningLifecycle_does s.known
    · cases found

theorem finished (good : SystemOk h start pin s) (next : s.finish n = some t) : SystemOk h start pin t := by
  unfold System.finish at next
  split at next
  · next r found =>
    obtain rfl := Option.some.inj next
    have ends := good.operations n _ found
    have ok : SystemOk h start pin (s.put n none) := good.put fun p none_ => by cases none_
    refine ⟨ok.pinned, ok.store, ok.journal, ok.keys, ok.made, ok.session, ok.operations, fun result mem => ?_⟩
    rcases List.mem_cons.mp mem with same | mem
    · cases r with
      | ok a => exact Except.ok.inj same ▸ ends s.known (Known.Later.refl _) a rfl
      | error e => cases same
    · exact good.answers result mem
  · cases next

theorem peopled (good : SystemOk h start pin s) (agents releases : Bool) :
    SystemOk h start pin { s with journal := { s.journal with agents, releases } } := by
  have moved : s.known.Later
      (System.known { s with journal := { s.journal with agents, releases } }) :=
    ⟨fun _ active => active, id, fun _ mem => mem⟩
  obtain ⟨unique, oneOpen, keys, activated, active⟩ := good.journal
  refine ⟨good.pinned, good.store, ⟨unique, oneOpen, keys, activated, fun a same => ?_⟩, good.keys,
    good.made, good.session, fun n p found => ?_, good.answers⟩
  · obtain ⟨format, purpose, valid, closed, intent⟩ := active a same
    exact ⟨format, purpose, valid, closed, intent⟩
  · exact (good.operations n p found).later moved

theorem step (good : SystemOk h start pin s) {label : Label} (next : s.step h label = some t) :
    SystemOk h start pin t := by
  cases label with
  | start actor c =>
    obtain rfl := Option.some.inj next
    exact good.started actor c
  | pass n =>
    refine good.answer next fun k a replied => ?_
    cases k with
    | check => trivial
    | lock => cases replied
    | transaction actor c t => cases replied
    | storage purpose => cases replied
  | lock n =>
    have next : (if s.owner.isSome then none else
      { s with owner := some n }.answer n System.locked) = some t := next
    split at next
    · cases next
    · refine (good.owned (some n) s.holder).answer next fun k a replied => ?_
      cases k with
      | lock => trivial
      | check => cases replied
      | transaction actor c t => cases replied
      | storage purpose => cases replied
  | transact n now acknowledged =>
    have next : (if s.owner = some n then s.transact h n now acknowledged else none) = some t := next
    split at next
    · exact good.transacted next
    · cases next
  | enter n =>
    have next : s.enter h n = some t := next
    unfold System.enter at next
    split at next
    · next purpose more found =>
      obtain ⟨store, enters, rfl⟩ := Option.map_eq_some_iff.mp next
      have asked := (good.operations n _ found s.known (Known.Later.refl _)).1
      exact (good.entered enters asked).owned s.owner (some n)
    · cases next
  | sign expected =>
    obtain ⟨store, enters, rfl⟩ := Option.map_eq_some_iff.mp next
    exact (good.entered enters trivial).owned s.owner none
  | turn c =>
    obtain ⟨store, turns, rfl⟩ := Option.map_eq_some_iff.mp next
    exact good.turned turns
  | stored =>
    obtain ⟨store, ends, next⟩ := Option.bind_eq_some_iff.mp next
    obtain ⟨pair, last, next⟩ := Option.bind_eq_some_iff.mp next
    refine left (good.returns ends) (fun public_ same => ⟨pair.1, ?_⟩) next
    obtain rfl := Except.ok.inj same
    exact List.mem_of_mem_head? last
  | failed e =>
    obtain ⟨store, leaves, next⟩ := Option.bind_eq_some_iff.mp next
    exact left (good.fails leaves) (fun public_ same => by cases same) next
  | refuse n e =>
    have next : (if s.holder = some n then none else s.answer n fun _ => some (.error e)) = some t := next
    split at next
    · cases next
    · exact good.answer next fun k a replied => by cases replied
  | returned n => exact good.finished next
  | crash n =>
    have next : (if s.holder = some n then none else (s.operation n).map fun _ => s.gone n) = some t := next
    split at next
    · cases next
    · obtain ⟨p, -, rfl⟩ := Option.map_eq_some_iff.mp next
      exact (good.put fun p none_ => by cases none_).owned _ s.holder
  | severed =>
    obtain rfl := Option.some.inj next
    exact good.owned none s.holder
  | agents agents releases =>
    obtain rfl := Option.some.inj next
    exact good.peopled agents releases

end SystemOk

variable {dir : Directory} {agents releases : Bool} {labels later : List Label}

theorem system_reached (bounded : Bounded dir)
    (run : Runs (System.step h) Free (.start dir agents releases) labels s) : SystemOk h dir none s := by
  refine run.invariant ?_ fun _ _ _ _ next good => good.step next
  exact
    { pinned := fun _ same => by cases same
      store := reached bounded (.nil _)
      journal :=
        { unique := fun _ mem => by cases mem
          oneOpen := fun _ mem => by cases mem
          keys := fun _ mem => by cases mem
          activated := fun _ mem => by cases mem
          active := fun _ same => by cases same }
      keys := fun _ mem => by cases mem
      made := .inl rfl
      session := fun _ same => by cases same
      operations := fun _ _ found => by cases found
      answers := fun _ mem => by cases mem }

/-- Whatever operations of the lifecycle run, overlap, lose their connections or crash: the active identity
is the key in the directory, a private key is only made once an initialization is in the journal, and a
client is told of an activation only when the identity that it is told of is active. -/
theorem signing_lifecycle_safe (bounded : Bounded dir)
    (run : Runs (System.step h) Free (.start dir agents releases) labels s) :
    (∀ a, s.journal.identity = some a → ∃ key, Matching h s.store.dir (key, a.publicKeyPem)) ∧
      (s.store.dir.created ≠ dir.created → ∃ i ∈ s.journal.intents, i.kind = .initialization) ∧
      ∀ r, .ok r ∈ s.answers → r.state = .cancelled ∨ ∃ a, s.journal.identity = some a ∧
        r = ⟨a.operationId, a.installationId, a.identityEpoch, .activated, some a.publicKeySha256⟩ := by
  have good := system_reached bounded run
  refine ⟨fun a active => ?_, good.made.resolve_left, good.answers⟩
  obtain ⟨-, -, -, -, i, mem, -, -, agrees, -⟩ := good.journal.active a active
  obtain ⟨-, -, pem, -, -, -⟩ := JournalOk.agrees_iff.mp agrees
  obtain ⟨key, returned⟩ := good.keys i mem a.publicKeyPem pem.symm
  exact ⟨key, good.store.returned _ returned⟩

def commandA (action : Action) (valid : (⟨action, 11, 5, 1, none⟩ : Command).valid = true) :
    SigningCommand := ⟨_, valid⟩

/-- An initialization crashes when the directory has its key. -/
def crashedA : List Label :=
  [.start 1 (commandA .initialization rfl), .pass 0, .lock 0, .pass 0, .transact 0 3 true,
      .pass 0, .enter 0] ++
    List.replicate 55 (.turn ⟨none, none, fileA, 0, 7⟩) ++ [.stored, .crash 0]

/-- It is resumed, and its key is activated. -/
def resumedA : List Label :=
  [.start 1 (commandA .resume rfl), .pass 1, .lock 1, .pass 1, .transact 1 4 true,
      .pass 1, .enter 1] ++
    List.replicate 48 (.turn ⟨none, none, fileA, 0, 7⟩) ++ [.stored, .pass 1, .transact 1 5 true,
      .pass 1, .enter 1] ++
    List.replicate 48 (.turn ⟨none, none, fileA, 0, 7⟩) ++
    [.stored, .pass 1, .transact 1 6 true, .pass 1, .returned 1]

def activeA : AgentSigningIdentity :=
  ⟨1, "agent-release", 5, 1, 11, pemA "PUBLIC KEY" 7,
    "25ff86d6be1edfe8c30c93ff021c6b977e61534f63726608ca4246b185ca8b45", 1, 6⟩

theorem resumedA_safe : ∃ s,
    Runs (System.step hostA) Free (.start emptyA false false) (crashedA ++ resumedA) s ∧
      s.journal.identity = some activeA ∧ s.store.dir.created = 1 ∧
      ∃ key, Matching hostA s.store.dir (key, activeA.publicKeyPem) := by
  have ran : (exec (System.step hostA) Free (.start emptyA false false) (crashedA ++ resumedA)).any
      (fun s => decide (s.journal.identity = some activeA ∧ s.store.dir.created = 1)) = true := by
    decide +kernel
  obtain ⟨s, ends, facts⟩ := (Option.any_eq_true _ _).mp ran
  obtain ⟨active, created⟩ := of_decide_eq_true facts
  have run := Runs.of_exec ends
  have bounded : Bounded emptyA := fun _ _ entry => by cases entry
  exact ⟨s, run, active, created, (signing_lifecycle_safe bounded run).1 activeA active⟩

/-- An active identity is for good: whatever is done later, it is the identity that signatures and
enrollments read, it is the key in the directory and that of every session that ever returned, no operation
is open, and an adopted one has the fingerprint that was asked for. -/
theorem identity_for_good {a : AgentSigningIdentity} (bounded : Bounded dir)
    (run : Runs (System.step h) Free (.start dir agents releases) labels s)
    (active : s.journal.identity = some a) (more : Runs (System.step h) Free s later t) :
    trusted h t.journal = .ok a ∧ (∃ key, Matching h t.store.dir (key, a.publicKeyPem)) ∧
      (∀ pair ∈ t.store.returned, pair.2 = a.publicKeyPem) ∧
      (∀ i ∈ t.journal.intents, i.isOpen = false) ∧
      ∃ i ∈ t.journal.intents, i.operationId = a.operationId ∧
        (i.kind = .adopt → i.expectedPublicSha256 = some a.publicKeySha256) := by
  have pinned : SystemOk h dir (some a) s :=
    { system_reached bounded run with pinned := fun _ same => Option.some.inj same ▸ active }
  have good : SystemOk h dir (some a) t := more.invariant pinned fun _ _ _ _ next good => good.step next
  have active := good.pinned a rfl
  obtain ⟨-, -, -, closed, i, mem, operation, -, agrees, adopted⟩ := good.journal.active a active
  obtain ⟨-, -, pem, -, -, -⟩ := JournalOk.agrees_iff.mp agrees
  obtain ⟨key, returned⟩ := good.keys i mem a.publicKeyPem pem.symm
  have matching := good.store.returned _ returned
  refine ⟨trusted_ok good.journal active, ⟨key, matching⟩, fun pair there => ?_, closed, i, mem, operation,
    adopted⟩
  exact (matching.same (good.store.returned pair there)).1

theorem activeA_for_good : ∃ s t,
    Runs (System.step hostA) Free (.start emptyA false false) (crashedA ++ resumedA) s ∧
      Runs (System.step hostA) Free s [.agents true true] t ∧ trusted hostA t.journal = .ok activeA := by
  have ran : (exec (System.step hostA) Free (.start emptyA false false) (crashedA ++ resumedA)).any
      (fun s => decide (s.journal.identity = some activeA)) = true := by
    decide +kernel
  obtain ⟨s, ends, active⟩ := (Option.any_eq_true _ _).mp ran
  have run := Runs.of_exec ends
  have more : Runs (System.step hostA) Free s [.agents true true] _ := .one trivial rfl
  have bounded : Bounded emptyA := fun _ _ entry => by cases entry
  exact ⟨s, _, run, more, (identity_for_good bounded run (of_decide_eq_true active) more).1⟩

end FreeSdn.Signing
