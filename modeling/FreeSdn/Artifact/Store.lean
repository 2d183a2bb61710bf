import FreeSdn.Artifact.Safety
import FreeSdn.Lib.Run

/-! Runs of the artifact store: leases of one directory are opened under its lock, call their methods
system call by system call, and end by `close` or by a crash between any two system calls. -/

namespace FreeSdn.Artifact

open FreeSdn.Lib

/-- The methods of a lease, with the `acquire` that opens it; `created` tells whether its `mkdir` made
the directory. -/
inductive Call
  | acquire (created : Bool)
  | begin_
  | append (chunk : List UInt8)
  | finish
  | verifyPrepared
  | read (offset size : Int)
  | retire (decision : CleanupDecision)
  | cleanupRetired (decision : CleanupDecision)

inductive Reply
  | nothing
  | prepared (artifact : PreparedArtifact)
  | bytes (data : List UInt8)
  | digest (text : String)
  | cleaned (artifact : CleanedArtifact)

def Call.run (h : Host) : Call → Act Reply
  | acquire created => do enter h created; return .nothing
  | begin_ => do Artifact.begin_ h; return .nothing
  | append chunk => do Artifact.append h chunk; return .nothing
  | finish => do return .prepared (← finishWriting h)
  | verifyPrepared => do return .prepared (← Artifact.verifyPrepared h)
  | read offset size => do return .bytes (← Artifact.read h offset size)
  | retire decision => do return .digest (← Artifact.retire h decision)
  | cleanupRetired decision => do return .cleaned (← Artifact.cleanupRetired h decision)

def Call.duty : Call → Duty
  | retire decision => .retire decision
  | cleanupRetired decision => .clean decision
  | _ => .prepare

/-- The calls that leave a verified payload behind. -/
def Call.verifies : Call → Bool
  | finish => true
  | verifyPrepared => true
  | read _ _ => true
  | _ => false

/-- What is left of a method, with the members of the lease at its end. -/
abbrev Rest := Prog (Query ⊕ Change) (fun k => Except Raised (Value k)) (Except Raised Reply × Lease)

inductive Activity
  | idle (l : Lease)
  | busy (call : Call) (rest : Rest)

/-- A lease that holds the lock of the directory. -/
structure Process where
  intent : Intent
  exclusive : Bool
  activity : Activity

/-- A process that is gone leaves its place empty. -/
structure World where
  dir : Directory
  processes : List (Option Process)

def Directory.empty : Directory := ⟨fun _ => none, fun _ => ⟨[], 0, 0, 0, 0, 0, 0, 0, 0⟩, 0, 0⟩

def World.empty : World := ⟨.empty, []⟩

/-- The members of a lease that `acquire` has just made. -/
def Lease.fresh (intent : Intent) (encodedIntent : List UInt8) (exclusive : Bool) : Lease where
  intent := intent
  encodedIntent := encodedIntent
  exclusive := exclusive
  writer := none
  reader := none
  poisoned := false
  written := 0
  digest := []
  writeState := none
  prepared := none

inductive Event
  | acquire (intent : Intent) (exclusive created : Bool)
  | call (pid : Nat) (call : Call)
  | turn (pid : Nat) (t : Turn)
  | finished (pid : Nat)
  -- `close`, or a crash.
  | leave (pid : Nat)

/-- `flock` without waiting. -/
def World.grants (w : World) (exclusive : Bool) : Bool :=
  w.processes.all fun p => p.all fun p => !(exclusive || p.exclusive)

def World.process (w : World) (pid : Nat) : Option Process := (w.processes[pid]?).join

def World.put (w : World) (pid : Nat) (p : Option Process) : World :=
  { w with processes := w.processes.set pid p }

/-- The next system call of a method. -/
def Rest.turn (d : Directory) (t : Turn) : Rest → Option (Rest × Directory)
  | .done _ => none
  | .call (.inl q) next => some (next (ask d t q), d)
  | .call (.inr k) next => some (next (act d t k).1, (act d t k).2)

/-- A lease whose `acquire` fails is closed. -/
def Process.settle (p : Process) (call : Call) (r : Except Raised Reply) (l : Lease) : Option Process :=
  match call, r with
  | .acquire _, .error _ => none
  | _, _ => some { p with activity := .idle l }

def World.step (h : Host) (w : World) : Event → Option World
  | .acquire intent exclusive created =>
    match intent.encoded with
    | .error _ => none
    | .ok encoded =>
      if w.grants exclusive && (!created || exclusive) then
        some { w with processes := w.processes ++ [some ⟨intent, exclusive, .busy (.acquire created)
          (((Call.acquire created).run h).run (.fresh intent encoded exclusive))⟩] }
      else none
  | .call pid call =>
    match w.process pid, call with
    | some ⟨_, _, .idle _⟩, .acquire _ => none
    | some ⟨intent, exclusive, .idle l⟩, call =>
      some (w.put pid (some ⟨intent, exclusive, .busy call ((call.run h).run l)⟩))
    | _, _ => none
  | .turn pid t =>
    match w.process pid with
    | some ⟨intent, exclusive, .busy call rest⟩ =>
      (Rest.turn w.dir t rest).map fun (rest, dir) =>
        { w with dir }.put pid (some ⟨intent, exclusive, .busy call rest⟩)
    | _ => none
  | .finished pid =>
    match w.process pid with
    | some ⟨intent, exclusive, .busy call (.done (r, l))⟩ =>
      some (w.put pid (Process.settle ⟨intent, exclusive, .idle l⟩ call r l))
    | _ => none
  | .leave pid => (w.process pid).map fun _ => w.put pid none

/-- What a step can do. -/
inductive World.Moves (h : Host) (w : World) : Event → World → Prop
  | acquire {intent : Intent} {exclusive created : Bool} {encoded : List UInt8}
      (encodes : intent.encoded = .ok encoded) (granted : w.grants exclusive = true) :
      Moves h w (.acquire intent exclusive created)
        { w with processes := w.processes ++ [some ⟨intent, exclusive, .busy (.acquire created)
          (((Call.acquire created).run h).run (.fresh intent encoded exclusive))⟩] }
  | call {pid : Nat} {call : Call} {intent : Intent} {exclusive : Bool} {l : Lease}
      (found : w.process pid = some ⟨intent, exclusive, .idle l⟩)
      (method : ∀ created, call ≠ .acquire created) :
      Moves h w (.call pid call) (w.put pid (some ⟨intent, exclusive, .busy call ((call.run h).run l)⟩))
  | turn {pid : Nat} {t : Turn} {intent : Intent} {exclusive : Bool} {call : Call} {rest rest' : Rest}
      {d : Directory} (found : w.process pid = some ⟨intent, exclusive, .busy call rest⟩)
      (taken : Rest.turn w.dir t rest = some (rest', d)) :
      Moves h w (.turn pid t) ({ w with dir := d }.put pid (some ⟨intent, exclusive, .busy call rest'⟩))
  | finished {pid : Nat} {intent : Intent} {exclusive : Bool} {call : Call} {r : Except Raised Reply}
      {l : Lease} (found : w.process pid = some ⟨intent, exclusive, .busy call (.done (r, l))⟩) :
      Moves h w (.finished pid) (w.put pid (Process.settle ⟨intent, exclusive, .idle l⟩ call r l))
  | leave {pid : Nat} {p : Process} (found : w.process pid = some p) :
      Moves h w (.leave pid) (w.put pid none)

theorem World.Moves.of_step {h : Host} {w w' : World} {e : Event} (next : World.step h w e = some w') :
    World.Moves h w e w' := by
  unfold World.step at next
  cases e with
  | acquire intent exclusive created =>
    dsimp only at next
    split at next
    · cases next
    · next encodes =>
      split at next
      · next granted =>
        obtain rfl := Option.some.inj next
        exact .acquire encodes (Bool.and_eq_true_iff.mp granted).1
      · cases next
  | call pid call =>
    dsimp only at next
    split at next
    · cases next
    · next found method =>
      obtain rfl := Option.some.inj next
      exact .call found method
    · cases next
  | turn pid t =>
    dsimp only at next
    split at next
    · next found =>
      obtain ⟨⟨rest', d⟩, taken, rfl⟩ := Option.map_eq_some_iff.mp next
      exact .turn found taken
    · cases next
  | finished pid =>
    dsimp only at next
    split at next
    · next found =>
      obtain rfl := Option.some.inj next
      exact .finished found
    · cases next
  | leave pid =>
    obtain ⟨p, found, rfl⟩ := Option.map_eq_some_iff.mp next
    exact .leave found

/-! ### What a method gives back -/

/-- Deliveries are of the declared payload, before its retirement; a cleanup ends without a payload. -/
def Delivers (h : Host) (i : Intent) (d : Directory) (reply : Reply) : Call → Prop
  | .finish => Verified h i d ∧ ∃ state, reply = .prepared ⟨i, state⟩
  | .verifyPrepared => Verified h i d ∧ ∃ state, reply = .prepared ⟨i, state⟩
  | .read offset size => Verified h i d ∧ ∃ all, d.contents .payload = some all ∧
      reply = .bytes (slice i offset size all)
  | .cleanupRetired _ => Gone d ∧ ∃ receipt, reply = .cleaned receipt ∧
      receipt.artifactId = i.artifactId
  | _ => True

variable {h : Host} {i : Intent} {x : Bool} {z : Prop} {l : Lease} {d : Directory}

theorem call_keeps (call : Call) (good : LeaseOk h i x z l d) :
    Keeps h i x z call.duty (call.run h) (fun reply l d => Delivers h i d reply call ∧
      (call.verifies = true → l.prepared ≠ none)) l d := by
  cases call with
  | acquire created =>
    refine Keeps.bind (enter_keeps created good) fun _ l d good _ => ?_
    exact Keeps.pure good ⟨trivial, by simp [Call.verifies]⟩
  | begin_ =>
    refine Keeps.bind (begin_keeps good) fun _ l d good _ => ?_
    exact Keeps.pure good ⟨trivial, by simp [Call.verifies]⟩
  | append chunk =>
    refine Keeps.bind (append_keeps chunk good) fun _ l d good _ => ?_
    exact Keeps.pure good ⟨trivial, by simp [Call.verifies]⟩
  | finish =>
    refine Keeps.bind (finishWriting_keeps good) fun receipt l d good found => ?_
    obtain ⟨verified, prepared, rfl⟩ := found
    exact Keeps.pure good ⟨⟨verified, receipt.fileState, rfl⟩, fun _ => prepared⟩
  | verifyPrepared =>
    refine Keeps.bind (verifyPrepared_keeps good) fun receipt l d good found => ?_
    obtain ⟨verified, prepared, rfl⟩ := found
    exact Keeps.pure good ⟨⟨verified, receipt.fileState, rfl⟩, fun _ => prepared⟩
  | read offset size =>
    refine Keeps.bind (read_keeps offset size good) fun data l d good found => ?_
    obtain ⟨⟨verified, all, contents, rfl⟩, prepared⟩ := found
    exact Keeps.pure good ⟨⟨verified, all, contents, rfl⟩, fun _ => prepared⟩
  | retire decision =>
    refine Keeps.bind (retire_keeps decision good) fun _ l d good _ => ?_
    exact Keeps.pure good ⟨trivial, by simp [Call.verifies]⟩
  | cleanupRetired decision =>
    refine Keeps.bind (cleanupRetired_keeps decision good) fun receipt l d good found => ?_
    exact Keeps.pure good ⟨⟨found.1, receipt, rfl, found.2⟩, by simp [Call.verifies]⟩

/-! ### The invariant of a run -/

/-- A method ends with a good lease, and returns what it delivers. -/
def Ends (h : Host) (i : Intent) (x : Bool) (z : Prop) (call : Call)
    (end_ : Except Raised Reply × Lease) (d : Directory) : Prop :=
  LeaseOk h i x z end_.2 d ∧ ∀ reply, end_.1 = .ok reply → Delivers h i d reply call ∧
    (call.verifies = true → end_.2.prepared ≠ none)

def ProcessOk (h : Host) (z : Prop) (d : Directory) (p : Process) : Prop :=
  match p.activity with
  | .idle l => LeaseOk h p.intent p.exclusive z l d
  | .busy call rest => machine.Safe (Admitted h p.exclusive z call.duty) rest
      (Ends h p.intent p.exclusive z call) d

/-- Exclusive leases exclude all others. -/
def Locked (processes : List (Option Process)) : Prop :=
  ∀ (m n : Nat) (p q : Process), processes[m]? = some (some p) → processes[n]? = some (some q) →
    p.exclusive = true → m = n

/-- Where `z` holds the payload is settled. -/
structure WorldOk (h : Host) (z : Prop) (w : World) : Prop where
  sound : Sound w.dir
  settled : z → w.dir.allocations ≠ 0
  locked : Locked w.processes
  processes : ∀ p, some p ∈ w.processes → ProcessOk h z w.dir p

theorem started_ok (call : Call) (good : LeaseOk h i x z l d) :
    machine.Safe (Admitted h x z call.duty) ((call.run h).run l) (Ends h i x z call) d := by
  refine Machine.Safe.mono (call_keeps call good) (fun _ _ admitted => admitted) fun r d found => ?_
  obtain ⟨r, l⟩ := r
  cases r with
  | ok reply =>
    obtain ⟨good, delivered⟩ := found
    refine ⟨good, fun reply' same => ?_⟩
    obtain rfl := Except.ok.inj same
    exact delivered
  | error e => exact ⟨found, fun _ same => by cases same⟩

/-- An admitted change keeps the directory sound. -/
theorem Admitted.sound {c : Duty} {k : Change} (t : Turn) (sound : Sound d)
    (admitted : Admitted h x z c d k) : Sound (act d t k).2 := by
  cases k with
  | create name =>
    have acted : (∃ e, act d t (.create name) = (.error e, d)) ∨ _ := act_create t
    obtain ⟨e, failed⟩ | ⟨f, free, done⟩ := acted
    · rw [failed]
      exact sound
    · rw [done]
      exact sound.add free admitted.2.1
  | write fd data =>
    have acted : (∃ e, act d t (.write fd data) = (.error e, d)) ∨ _ := act_write t data
    obtain ⟨e, failed⟩ | ⟨count, f, done⟩ := acted
    · rw [failed]
      exact sound
    · rw [done]
      exact sound.setFile
  | unlink name =>
    have acted : (∃ e, act d t (.unlink name) = (.error e, d)) ∨ _ := act_unlink t
    obtain ⟨e, failed⟩ | ⟨n, f, done⟩ := acted
    · rw [failed]
      exact sound
    · obtain ⟨-, rfl, decision, -, binding, raw, state, -, there, -⟩ := admitted
      rw [done]
      refine sound.setFile.remove fun none_ => ?_
      have none_ : d.entries .retired = none := none_
      simp [Directory.contents, Directory.file, none_] at there

theorem allocations_le (t : Turn) {k : Change} : d.allocations ≤ (act d t k).2.allocations := by
  cases k with
  | create name =>
    have acted : (∃ e, act d t (.create name) = (.error e, d)) ∨ _ := act_create t
    obtain ⟨e, failed⟩ | ⟨f, free, done⟩ := acted
    · rw [failed]
    · rw [done]
      show d.allocations ≤ if name = .payload then d.allocations + 1 else d.allocations
      split <;> omega
  | write fd data =>
    have acted : (∃ e, act d t (.write fd data) = (.error e, d)) ∨ _ := act_write t data
    obtain ⟨e, failed⟩ | ⟨count, f, done⟩ := acted
    · rw [failed]
    · rw [done]
      exact le_refl _
  | unlink name =>
    have acted : (∃ e, act d t (.unlink name) = (.error e, d)) ∨ _ := act_unlink t
    obtain ⟨e, failed⟩ | ⟨n, f, done⟩ := acted
    · rw [failed]
    · rw [done]
      exact le_refl _

variable {w w' : World} {pid : Nat} {p : Process}

theorem process_some (found : w.process pid = some p) : w.processes[pid]? = some (some p) := by
  unfold World.process at found
  cases there : w.processes[pid]? with
  | none => simp [there] at found
  | some q =>
    rw [there] at found
    exact congrArg some found

namespace WorldOk

theorem process (good : WorldOk h z w) (found : w.process pid = some p) : ProcessOk h z w.dir p :=
  good.processes p (List.mem_of_getElem? (process_some found))

/-- A place changes; a new process in it has the lock of the old one. -/
theorem put_locked (good : WorldOk h z w) (found : w.process pid = some p) {q : Option Process}
    (lock : ∀ q', q = some q' → q'.exclusive = p.exclusive) : Locked (w.processes.set pid q) := by
  have old {m : Nat} {r : Process} (there : (w.processes.set pid q)[m]? = some (some r)) :
      ∃ r', w.processes[m]? = some (some r') ∧ r'.exclusive = r.exclusive := by
    rw [List.getElem?_set] at there
    split at there
    · next same =>
      subst same
      split at there
      · exact ⟨p, process_some found, (lock r (Option.some.inj there)).symm⟩
      · cases there
    · exact ⟨r, there, rfl⟩
  intro m n r r' first second exclusive
  obtain ⟨a, first, same⟩ := old first
  obtain ⟨b, second, -⟩ := old second
  exact good.locked m n a b first second (same.trans exclusive)

/-- The directory stays, and one process goes on. -/
theorem put (good : WorldOk h z w) (found : w.process pid = some p) {q : Option Process}
    (lock : ∀ q', q = some q' → q'.exclusive = p.exclusive)
    (next : ∀ q', q = some q' → ProcessOk h z w.dir q') : WorldOk h z (w.put pid q) where
  sound := good.sound
  settled := good.settled
  locked := good.put_locked found lock
  processes r mem := by
    rcases List.mem_or_eq_of_mem_set mem with old | new
    · exact good.processes r old
    · exact next r new.symm

/-- An exclusive process changes the directory while no other has the lock. -/
theorem alone (good : WorldOk h z w) (found : w.process pid = some p) (exclusive : p.exclusive = true)
    {d : Directory} {q : Process} (sound : Sound d) (more : w.dir.allocations ≤ d.allocations)
    (lock : q.exclusive = p.exclusive) (next : ProcessOk h z d q) :
    WorldOk h z ({ w with dir := d }.put pid (some q)) where
  sound := sound
  settled holds := by
    have := good.settled holds
    show d.allocations ≠ 0
    omega
  locked := good.put_locked found fun q' same => Option.some.inj same ▸ lock
  processes r mem := by
    obtain ⟨n, there⟩ := List.getElem?_of_mem mem
    have there : (w.processes.set pid (some q))[n]? = some (some r) := there
    rw [List.getElem?_set] at there
    split at there
    · split at there
      · obtain rfl := Option.some.inj (Option.some.inj there)
        exact next
      · cases there
    · next other => exact absurd (good.locked pid n p r (process_some found) there exclusive) other

end WorldOk

theorem acquire_ok (good : WorldOk h z w) {encoded : List UInt8} {exclusive created : Bool}
    (granted : w.grants exclusive = true) :
    WorldOk h z { w with processes := w.processes ++ [some ⟨i, exclusive, .busy (.acquire created)
      (((Call.acquire created).run h).run (.fresh i encoded exclusive))⟩] } where
  sound := good.sound
  settled := good.settled
  locked := by
    have apart {m : Nat} {r : Process} (there : w.processes[m]? = some (some r)) :
        exclusive = false ∧ r.exclusive = false := by
      have free := List.all_eq_true.mp granted _ (List.mem_of_getElem? there)
      simpa using free
    have place {m : Nat} {r q : Process} (there : (w.processes ++ [some q])[m]? = some (some r)) :
        w.processes[m]? = some (some r) ∨ m = w.processes.length ∧ r = q := by
      rw [List.getElem?_append] at there
      split at there
      · exact .inl there
      · rw [List.getElem?_singleton] at there
        split at there
        · exact .inr ⟨by omega, (Option.some.inj (Option.some.inj there)).symm⟩
        · cases there
    intro m n r r' first second alone
    rcases place first with first | ⟨rfl, rfl⟩ <;> rcases place second with second | ⟨rfl, rfl⟩
    · exact good.locked m n r r' first second alone
    · simp [(apart first).2] at alone
    · exact absurd ((apart second).1.symm.trans alone) (by decide)
    · rfl
  processes r mem := by
    rcases List.mem_append.mp mem with old | new
    · exact good.processes r old
    · obtain rfl := Option.some.inj (List.mem_singleton.mp new)
      refine started_ok (.acquire created) ?_
      exact
        { intent := rfl
          exclusive := rfl
          sound := good.sound
          writing := fun writer => absurd rfl writer
          reading := fun _ reader => by cases reader
          verified := fun prepared => absurd rfl prepared
          settled := fun holds => ⟨rfl, good.settled holds⟩ }

theorem turn_ok (good : WorldOk h z w) {call : Call} {rest rest' : Rest} {t : Turn} {d : Directory}
    (found : w.process pid = some ⟨i, x, .busy call rest⟩)
    (taken : Rest.turn w.dir t rest = some (rest', d)) :
    WorldOk h z ({ w with dir := d }.put pid (some ⟨i, x, .busy call rest'⟩)) := by
  have safe : machine.Safe (Admitted h x z call.duty) rest (Ends h i x z call) w.dir := good.process found
  cases rest with
  | done end_ => cases taken
  | call k next =>
    cases k with
    | inl q =>
      obtain ⟨rfl, rfl⟩ := Prod.mk.inj (Option.some.inj taken)
      refine good.put found (fun _ same => ?_) fun _ same => ?_
      · obtain rfl := Option.some.inj same
        rfl
      · obtain rfl := Option.some.inj same
        exact safe t
    | inr k =>
      obtain ⟨rfl, rfl⟩ := Prod.mk.inj (Option.some.inj taken)
      obtain ⟨admitted, after⟩ := safe
      have exclusive : x = true := by
        cases k with
        | create name => exact admitted.1
        | write fd data => exact admitted.1
        | unlink name => exact admitted.1
      exact good.alone found exclusive (admitted.sound t good.sound) (allocations_le t) rfl (after t)

theorem step_ok (good : WorldOk h z w) {e : Event} (next : World.step h w e = some w') :
    WorldOk h z w' := by
  cases World.Moves.of_step next with
  | acquire _ granted => exact acquire_ok good granted
  | call found _ =>
    refine good.put found (fun _ same => ?_) fun _ same => ?_
    · obtain rfl := Option.some.inj same
      rfl
    · obtain rfl := Option.some.inj same
      exact started_ok _ (good.process found)
  | turn found taken => exact turn_ok good found taken
  | finished found =>
    have safe := good.process found
    refine good.put found (fun _ same => ?_) fun _ same => ?_ <;>
      (unfold Process.settle at same; split at same)
    · cases same
    · obtain rfl := Option.some.inj same
      rfl
    · cases same
    · obtain rfl := Option.some.inj same
      exact safe.1
  | leave found => exact good.put found (fun _ same => by cases same) fun _ same => by cases same

theorem reached_ok {events : List Event} (run : Runs (World.step h) Free .empty events w) :
    WorldOk h False w := by
  refine run.invariant ?_ fun _ _ _ _ next good => step_ok good next
  exact
    { sound := ⟨fun _ _ entry => (by cases entry), .inl ⟨rfl, rfl⟩⟩
      settled := False.elim
      locked := fun _ _ _ _ there => by cases there
      processes := fun _ mem => by cases mem }

namespace WorldOk

variable {call : Call} {rest : Rest}

theorem safe (good : WorldOk h z w) (mem : some p ∈ w.processes) (busy : p.activity = .busy call rest) :
    machine.Safe (Admitted h p.exclusive z call.duty) rest (Ends h p.intent p.exclusive z call) w.dir := by
  have kept := good.processes p mem
  unfold ProcessOk at kept
  rw [busy] at kept
  exact kept

theorem delivers (good : WorldOk h z w) (mem : some p ∈ w.processes) {reply : Reply}
    (busy : p.activity = .busy call (.done (.ok reply, l))) : Delivers h p.intent w.dir reply call :=
  ((good.safe mem busy).2 reply rfl).1

/-- Only a cleanup removes something, and only the payload that its record is about. -/
theorem removes (good : WorldOk h z w) (mem : some p ∈ w.processes) {name : Name}
    {next : Except Raised (Value (.inr (.unlink name))) → Rest}
    (busy : p.activity = .busy call (.call (.inr (.unlink name)) next)) :
    name = .payload ∧ ∃ decision, call = .cleanupRetired decision ∧ Recorded h w.dir decision := by
  obtain ⟨-, rfl, decision, duty, recorded⟩ := (good.safe mem busy).1
  refine ⟨rfl, decision, ?_, recorded⟩
  cases call with
  | cleanupRetired c => exact congrArg Call.cleanupRetired (Duty.clean.inj duty)
  | _ => cases duty

end WorldOk

/-- Over all runs a payload is created at most once.  A delivery that succeeds is of the declared
payload, from which it takes the requested slice, and no retirement has begun; a payload is only removed
by a cleanup whose decision has a complete retirement record, with the state that the payload is in. -/
theorem artifact_store_safe {events : List Event} (run : Runs (World.step h) Free .empty events w) :
    w.dir.allocations ≤ 1 ∧ ∀ p call rest, some p ∈ w.processes → p.activity = .busy call rest →
      (∀ reply l, rest = .done (.ok reply, l) → Delivers h p.intent w.dir reply call) ∧
      ∀ name next, rest = .call (.inr (.unlink name)) next → name = .payload ∧
        ∃ decision, call = .cleanupRetired decision ∧ Recorded h w.dir decision := by
  have good := reached_ok run
  constructor
  · rcases good.sound.once with never | ⟨once, -⟩ <;> omega
  · intro p call rest mem busy
    constructor
    · rintro reply l rfl
      exact good.delivers mem busy
    · rintro name next rfl
      exact good.removes mem busy

/-! ### A delivery -/

/-- SHA-256 on the payload and on the intent of the run below. -/
def deliveryHost : Host where
  sha256 data :=
    if data = [1, 2, 3] then "039058c6f2c0cb492c533b0a4d14ef77cc0f78abccced5287d84a1a2011cfb81"
    else "2bdba0f994020a08856141d7836c24b3fe690c01d03ba2314ebb291f3e593600"
  euid := 0

def deliveryIntent : Intent where
  artifactId := ⟨"00000000-0000-0000-0000-000000000001", rfl⟩
  publishOperationId := ⟨"00000000-0000-0000-0000-000000000002", rfl⟩
  releaseId := ⟨"00000000-0000-0000-0000-000000000003", rfl⟩
  requestSha256 := "e3b0c44298fc1c149afbf4c8996fb92427ae41e4649b934ca495991b7852b855"
  payloadSha256 := "039058c6f2c0cb492c533b0a4d14ef77cc0f78abccced5287d84a1a2011cfb81"
  size := 3

/-- No fault, no short transfer, and a new file with mode `0o100600`. -/
def calm : Turn := ⟨none, none, ⟨[], 1, 2, 33152, 1, 0, 0, 0, 0⟩, 0⟩

/-- A call of the only lease, with its system calls. -/
def whole (call : Call) (turns : Nat) : List Event :=
  .call 0 call :: List.replicate turns (.turn 0 calm)

/-- A payload of three bytes is prepared, and two of them are delivered. -/
def delivery : List Event :=
  .acquire deliveryIntent true true :: List.replicate 15 (.turn 0 calm) ++ .finished 0 ::
    whole .begin_ 22 ++ .finished 0 :: whole (.append [1, 2, 3]) 9 ++ .finished 0 ::
    whole .finish 92 ++ .finished 0 :: whole (.read 1 2) 10

set_option maxRecDepth 100000 in
theorem delivery_safe :
    let w := after (World.step deliveryHost) Free .empty delivery
    w.dir.allocations ≤ 1 ∧ ∀ p call rest, some p ∈ w.processes → p.activity = .busy call rest →
      (∀ reply l, rest = .done (.ok reply, l) → Delivers deliveryHost p.intent w.dir reply call) ∧
      ∀ name next, rest = .call (.inr (.unlink name)) next → name = .payload ∧
        ∃ decision, call = .cleanupRetired decision ∧ Recorded deliveryHost w.dir decision :=
  artifact_store_safe (Runs.to_after (by decide +kernel))

end FreeSdn.Artifact
