import FreeSdn.Artifact.Answers

/-! What the methods of a lease change, and what they find.  The invariant of a lease is kept by every
method, also by one that raises; a payload is only created before the retirement and only removed as
the record of the retirement says. -/

namespace FreeSdn.Artifact

open FreeSdn.Lib

variable {h : Host} {i : Intent} {x : Bool} {z : Prop} {l : Lease} {d : Directory} {fd : Nat} {name : Name}

/-! ### Invariants -/

/-- A payload is created once: a name that is gone again left a retirement behind. -/
structure Sound (d : Directory) : Prop where
  bounded : ∀ name n, d.entries name = some n → n < d.next
  once : (d.allocations = 0 ∧ d.entries .payload = none) ∨
    (d.allocations = 1 ∧ (d.entries .payload ≠ none ∨ d.entries .retired ≠ none))

/-- A lease of the intent `i` that is exclusive as `x` says.  Where `z` holds the payload is settled: no
lease is writing it, and none will. -/
structure LeaseOk (h : Host) (i : Intent) (x : Bool) (z : Prop) (l : Lease) (d : Directory) : Prop where
  intent : l.intent = i
  exclusive : l.exclusive = x
  sound : Sound d
  writing : l.writer ≠ none → x = true
  -- The descriptor for delivery is the payload, whatever happens to other files.
  reading : ∀ fd, l.reader = some fd →
    l.writer = none ∧ fd < d.next ∧ ∀ n, d.entries .payload = some n → n = fd
  verified : l.prepared ≠ none → ∃ fd, l.reader = some fd ∧ Exact h i (d.files fd).contents
  settled : z → l.writer = none ∧ d.allocations ≠ 0

/-- `retired.json` is complete, belongs to the decision, and records the payload that is there. -/
def Recorded (h : Host) (d : Directory) (c : CleanupDecision) : Prop :=
  ∃ binding raw state, c.encoded h.sha256 = .ok binding ∧ d.contents .retired = some raw ∧
    retirement h.sha256 binding (some state) = .ok raw ∧
    (d.file .payload).map File.state = some state

/-- What a method is for: preparation or delivery, a retirement, or the cleanup after it. -/
inductive Duty
  | prepare
  | retire (decision : CleanupDecision)
  | clean (decision : CleanupDecision)

/-- The changes that a lease may make. -/
def Admitted (h : Host) (x : Bool) (z : Prop) (c : Duty) (d : Directory) : Change → Prop
  | .create name => x = true ∧ (name = .payload → d.entries .retired = none) ∧
      (name = .retired ∨ name = .cleaned → c ≠ .prepare)
  | .write fd _ => x = true ∧ (z → d.entries .payload ≠ some fd)
  | .unlink name => x = true ∧ name = .payload ∧ ∃ decision, c = .clean decision ∧ Recorded h d decision

/-- The method returns as `Q` says, and keeps the invariant of the lease. -/
abbrev Keeps (h : Host) (i : Intent) (x : Bool) (z : Prop) (c : Duty) (p : Act α)
    (Q : α → Lease → Directory → Prop) (l : Lease) (d : Directory) : Prop :=
  machine.Holds (Admitted h x z c) p (fun a l d => LeaseOk h i x z l d ∧ Q a l d) (LeaseOk h i x z) l d

variable {c : Duty}

theorem Sound.add (sound : Sound d) {f : File} (free : d.entries name = none)
    (fresh : name = .payload → d.entries .retired = none) : Sound (d.add name f) where
  bounded other n entry := by
    show n < d.next + 1
    have entry : Function.update d.entries name (some d.next) other = some n := entry
    rw [Function.update_apply] at entry
    split at entry
    · have := Option.some.inj entry
      omega
    · have := sound.bounded other n entry
      omega
  once := by
    by_cases payload : name = .payload
    · subst payload
      have none_yet : d.allocations = 0 := by
        rcases sound.once with ⟨none_yet, -⟩ | ⟨-, there | there⟩
        · exact none_yet
        · exact absurd free there
        · exact absurd (fresh rfl) there
      right
      simp [Directory.add, none_yet]
    · have count : (d.add name f).allocations = d.allocations := by simp [Directory.add, payload]
      have same : (d.add name f).entries .payload = d.entries .payload := by
        simp [Directory.add, Function.update, Ne.symm payload]
      rw [count, same]
      refine sound.once.imp id ?_
      rintro ⟨one, there⟩
      refine ⟨one, there.imp id fun there => ?_⟩
      by_cases retired : name = .retired
      · simp [Directory.add, retired]
      · simpa [Directory.add, Function.update, Ne.symm retired] using there

theorem Sound.setFile (sound : Sound d) {f : File} : Sound (d.setFile fd f) :=
  ⟨sound.bounded, sound.once⟩

theorem Sound.remove (sound : Sound d) (retired : d.entries .retired ≠ none) :
    Sound (d.remove .payload) where
  bounded other n entry := by
    have entry : Function.update d.entries .payload none other = some n := entry
    rw [Function.update_apply] at entry
    split at entry
    · cases entry
    · exact sound.bounded other n entry
  once := by
    have gone : (d.remove .payload).entries .payload = none := by simp [Directory.remove]
    have kept : (d.remove .payload).entries .retired ≠ none := by simpa [Directory.remove] using retired
    exact sound.once.imp (fun never => ⟨never.1, gone⟩) fun once => ⟨once.1, .inr kept⟩

namespace LeaseOk

/-- A new file leaves the payload of a reader alone. -/
theorem add (good : LeaseOk h i x z l d) {f : File} (free : d.entries name = none)
    (marker : name ≠ .payload) : LeaseOk h i x z l (d.add name f) where
  intent := good.intent
  exclusive := good.exclusive
  sound := good.sound.add free fun payload => absurd payload marker
  writing := good.writing
  reading fd reader := by
    obtain ⟨idle, bound, own⟩ := good.reading fd reader
    refine ⟨idle, Nat.lt_succ_of_lt bound, fun n entry => own n ?_⟩
    simpa [Directory.add, Function.update, Ne.symm marker] using entry
  verified prepared := by
    obtain ⟨fd, reader, exact_⟩ := good.verified prepared
    refine ⟨fd, reader, ?_⟩
    have other : fd ≠ d.next := (good.reading fd reader).2.1.ne
    simpa [Directory.add, Function.update, other] using exact_
  settled holds := by
    obtain ⟨idle, some_⟩ := good.settled holds
    simpa [Directory.add, marker] using And.intro idle some_

/-- A file that no reader holds may be written. -/
theorem setFile (good : LeaseOk h i x z l d) {f : File} (apart : l.reader ≠ some fd) :
    LeaseOk h i x z l (d.setFile fd f) where
  intent := good.intent
  exclusive := good.exclusive
  sound := good.sound.setFile
  writing := good.writing
  reading := good.reading
  verified prepared := by
    obtain ⟨held, reader, exact_⟩ := good.verified prepared
    refine ⟨held, reader, ?_⟩
    have other : held ≠ fd := by
      rintro rfl
      exact apart reader
    simpa [Directory.setFile, Function.update, other] using exact_
  settled := good.settled

theorem poison (good : LeaseOk h i x z l d) : LeaseOk h i x z l.poison d := { good with }

theorem unprepared (good : LeaseOk h i x z l d) : LeaseOk h i x z { l with prepared := none } d :=
  { good with verified := fun prepared => absurd rfl prepared }

end LeaseOk

/-! ### Rules -/

namespace Keeps

variable {α β : Type} {p : Act α} {Q Q' : α → Lease → Directory → Prop}

theorem bind {f : α → Act β} {Q' : β → Lease → Directory → Prop} (first : Keeps h i x z c p Q l d)
    (rest : ∀ a l d, LeaseOk h i x z l d → Q a l d → Keeps h i x z c (f a) Q' l d) :
    Keeps h i x z c (p >>= f) Q' l d :=
  Machine.Holds.bind (Machine.Holds.mono first fun a l d ⟨good, found⟩ => rest a l d good found)

theorem mono (kept : Keeps h i x z c p Q l d) (weaker : ∀ a l d, LeaseOk h i x z l d → Q a l d → Q' a l d) :
    Keeps h i x z c p Q' l d :=
  Machine.Holds.mono kept fun a l d ⟨good, found⟩ => ⟨good, weaker a l d good found⟩

theorem pure {a : α} (good : LeaseOk h i x z l d) (found : Q a l d) :
    Keeps h i x z c (pure a) Q l d := Machine.Holds.pure ⟨good, found⟩

theorem lift {e : Except Raised α} (good : LeaseOk h i x z l d) (found : ∀ a, e = .ok a → Q a l d) :
    Keeps h i x z c (liftM e) Q l d :=
  Machine.Holds.lift (fun a passed => ⟨good, found a passed⟩) good

/-- A condition that is demanded holds from there on. -/
theorem demand {condition : Bool} {message : String} {f : Unit → Act β}
    {Q : β → Lease → Directory → Prop} (good : LeaseOk h i x z l d)
    (rest : condition = true → Keeps h i x z c (f ()) Q l d) :
    Keeps h i x z c (liftM (Artifact.demand condition message) >>= f) Q l d := by
  refine bind (lift (Q := fun _ l' d' => condition = true ∧ l' = l ∧ d' = d) good ?_) ?_
  · intro _ passed
    unfold Artifact.demand require at passed
    split at passed
    · next holds => exact ⟨holds, rfl, rfl⟩
    · cases passed
  · rintro _ _ _ - ⟨holds, rfl, rfl⟩
    exact rest holds

theorem getting {f : Lease → Act β} {Q : β → Lease → Directory → Prop}
    (rest : Keeps h i x z c (f l) Q l d) : Keeps h i x z c (get >>= f) Q l d :=
  Machine.Holds.bind (Machine.Holds.get rest)

theorem modifying {change : Lease → Lease} {f : PUnit → Act β} {Q : β → Lease → Directory → Prop}
    (rest : Keeps h i x z c (f ⟨⟩) Q (change l) d) : Keeps h i x z c (modify change >>= f) Q l d :=
  Machine.Holds.bind (Machine.Holds.modify rest)

/-- What the queries found holds from there on. -/
theorem inquiring {q : Ask α} {f : α → Act β} {Q : β → Lease → Directory → Prop}
    (good : LeaseOk h i x z l d) (rest : ∀ a, Says d q a → Keeps h i x z c (f a) Q l d) :
    Keeps h i x z c (inquire q >>= f) Q l d :=
  Machine.Holds.bind (Machine.Holds.inquire (fun a said => rest a said) good)

theorem inquire {q : Ask α} (good : LeaseOk h i x z l d) (found : ∀ a, Says d q a → Q a l d) :
    Keeps h i x z c (inquire q) Q l d :=
  Machine.Holds.inquire (fun a said => ⟨good, found a said⟩) good

theorem lifting {e : Except Raised α} {f : α → Act β} {Q : β → Lease → Directory → Prop}
    (good : LeaseOk h i x z l d) (rest : ∀ a, e = .ok a → Keeps h i x z c (f a) Q l d) :
    Keeps h i x z c (liftM e >>= f) Q l d :=
  Machine.Holds.bind (Machine.Holds.lift (fun a passed => rest a passed) good)

theorem finish {last : Ask Unit} (kept : Keeps h i x z c p Q l d) : Keeps h i x z c (p.finish last) Q l d :=
  Machine.Holds.finish (Machine.Holds.mono kept fun _ _ _ found => ⟨found, found.1⟩)

theorem onRaise (kept : Keeps h i x z c p Q l d) : Keeps h i x z c (p.onRaise Lease.poison) Q l d := by
  apply Machine.Holds.onRaise
  refine Machine.Safe.mono kept (fun _ _ admitted => admitted) fun r d found => ?_
  obtain ⟨r, l⟩ := r
  cases r with
  | ok a => exact found
  | error e => exact found.poison

end Keeps

/-! ### Writing -/

/-- A file is created under a free name, or nothing changes. -/
theorem act_create (t : Turn) :
    (∃ e, act d t (.create name) = (.error e, d)) ∨
      ∃ f, d.entries name = none ∧ act d t (.create name) = (.ok d.next, d.add name f) := by
  unfold act
  dsimp only
  split
  · exact .inl ⟨.os, rfl⟩
  · next free =>
    refine .inr ⟨_, ?_, rfl⟩
    simpa using fun some_ => free (.inr some_)

/-- A write changes the file of its descriptor, or nothing. -/
theorem act_write (t : Turn) (data : List UInt8) :
    (∃ e, act d t (.write fd data) = (.error e, d)) ∨
      ∃ count f, act d t (.write fd data) = (.ok count, d.setFile fd f) := by
  unfold act
  dsimp only
  split
  · exact .inl ⟨.os, rfl⟩
  · exact .inr ⟨_, _, rfl⟩

namespace Keeps

variable {α : Type} {Q : α → Lease → Directory → Prop}

/-- A change is made, or fails and changes nothing. -/
theorem changed {k : Change} {Q : Value (.inr k) → Lease → Directory → Prop} (good : LeaseOk h i x z l d)
    (admitted : Admitted h x z c d k)
    (acts : ∀ t, (∃ e, act d t k = (.error e, d)) ∨ ∃ a d', act d t k = (.ok a, d') ∧ Q a l d') :
    machine.Holds (Admitted h x z c) (change k) Q (LeaseOk h i x z) l d := by
  refine Machine.Holds.change admitted ?_ ?_
  · intro t a answer
    have answer : (act d t k).1 = .ok a := answer
    show Q a l (act d t k).2
    rcases acts t with ⟨e, failed⟩ | ⟨a', d', done, rest⟩
    · simp [failed] at answer
    · rw [done] at answer ⊢
      obtain rfl := Except.ok.inj answer
      exact rest
  · intro t e answer
    have answer : (act d t k).1 = .error e := answer
    show LeaseOk h i x z l (act d t k).2
    rcases acts t with ⟨e, failed⟩ | ⟨a', d', done, rest⟩
    · rw [failed]
      exact good
    · simp [done] at answer

theorem changing {k : Change} {f : Value (.inr k) → Act α} (good : LeaseOk h i x z l d)
    (admitted : Admitted h x z c d k)
    (acts : ∀ t, (∃ e, act d t k = (.error e, d)) ∨
      ∃ a d', act d t k = (.ok a, d') ∧ Keeps h i x z c (f a) Q l d') :
    Keeps h i x z c (change k >>= f) Q l d :=
  Machine.Holds.bind (changed good admitted acts)

theorem creating {f : Nat → Act α} (good : LeaseOk h i x z l d) (exclusive : x = true)
    (fresh : name = .payload → d.entries .retired = none)
    (final : name = .retired ∨ name = .cleaned → c ≠ .prepare)
    (rest : ∀ made, d.entries name = none → Keeps h i x z c (f d.next) Q l (d.add name made)) :
    Keeps h i x z c (change (Change.create name) >>= f) Q l d := by
  refine changing good ⟨exclusive, fresh, final⟩ fun t => ?_
  refine (act_create t).imp id ?_
  rintro ⟨made, free, done⟩
  exact ⟨_, _, done, rest made free⟩

theorem writing {f : Nat → Act α} {data : List UInt8} (good : LeaseOk h i x z l d) (exclusive : x = true)
    (spared : z → d.entries .payload ≠ some fd)
    (rest : ∀ count made, Keeps h i x z c (f count) Q l (d.setFile fd made)) :
    Keeps h i x z c (change (Change.write fd data) >>= f) Q l d := by
  have admitted : Admitted h x z c d (.write fd data) := ⟨exclusive, spared⟩
  refine changing good admitted fun t => ?_
  refine (act_write t data).imp id ?_
  rintro ⟨count, made, done⟩
  exact ⟨_, _, done, rest count made⟩

end Keeps

/-- The loop changes one file, which is not that of the reader. -/
theorem writeAll_keeps (exclusive : x = true) (turns : Nat) (data : List UInt8)
    (good : LeaseOk h i x z l d) (apart : l.reader ≠ some fd)
    (spared : z → d.entries .payload ≠ some fd) (l' : Lease) :
    Keeps h i x z c (l'.writeAll fd turns data) (fun _ l'' d' => l'' = l ∧ d'.entries = d.entries) l d := by
  induction turns generalizing data d with
  | zero => exact Keeps.pure good ⟨rfl, rfl⟩
  | succ turns ih =>
    unfold Lease.writeAll
    split
    · exact Keeps.pure good ⟨rfl, rfl⟩
    · refine Keeps.inquiring good fun _ _ => ?_
      refine Keeps.writing good exclusive spared fun count made => ?_
      have good := good.setFile (f := made) apart
      exact Keeps.demand good fun _ => ih _ good spared

/-- A marker is written by an exclusive lease, and the other names stay. -/
theorem createMarker_keeps (marker : name ≠ .payload)
    (final : name = .retired ∨ name = .cleaned → c ≠ .prepare) (data : List UInt8)
    (good : LeaseOk h i x z l d) :
    Keeps h i x z c (createMarker h name data) (fun _ l' d' => l' = l ∧
      ∀ other, other ≠ name → d'.entries other = d.entries other) l d := by
  refine Keeps.getting ?_
  refine Keeps.demand good fun allowed => ?_
  have exclusive : x = true := by
    rw [← good.exclusive]
    exact (Bool.and_eq_true_iff.mp allowed).1
  refine Keeps.creating good exclusive (fun payload => absurd payload marker) final fun made free => ?_
  have good' := good.add (f := made) free marker
  have others : ∀ other, other ≠ name → (d.add name made).entries other = d.entries other := by
    intro other apart
    simp [Directory.add, Function.update, apart]
  have apart : l.reader ≠ some d.next := fun reader => absurd (good.reading _ reader).2.1 (lt_irrefl _)
  have spared : (d.add name made).entries .payload ≠ some d.next := by
    rw [others .payload (Ne.symm marker)]
    intro entry
    exact absurd (good.sound.bounded _ _ entry) (lt_irrefl _)
  refine Keeps.bind (Q := fun _ l' d' => l' = l ∧ d'.entries = (d.add name made).entries) ?_ ?_
  · refine Keeps.finish ?_
    refine Keeps.inquiring good' fun _ _ => ?_
    refine Keeps.bind (writeAll_keeps exclusive _ data good' apart (fun _ => spared) l) ?_
    rintro _ _ d'' good'' ⟨rfl, same⟩
    refine Keeps.inquiring good'' fun _ _ => ?_
    refine Keeps.inquiring good'' fun _ _ => ?_
    exact Keeps.lift good'' fun _ _ => ⟨rfl, same⟩
  · rintro _ _ d'' good'' ⟨rfl, same⟩
    refine Keeps.inquire good'' fun _ _ => ⟨rfl, fun other apart => ?_⟩
    rw [same]
    exact others other apart

/-! ### Preparation -/

/-- `begin` creates the payload before any retirement. -/
theorem begin_keeps (good : LeaseOk h i x z l d) : Keeps h i x z c (begin_ h) (fun _ _ _ => True) l d := by
  refine Keeps.getting ?_
  refine Keeps.inquiring good fun _ _ => ?_
  refine Keeps.inquiring good fun _ before => ?_
  refine Keeps.demand good fun allowed => ?_
  simp only [Bool.and_eq_true, Option.isNone_iff_eq_none] at allowed
  obtain ⟨⟨exclusive, idle⟩, unread⟩ := allowed
  have exclusive : x = true := good.exclusive.symm.trans exclusive
  refine Keeps.onRaise ?_
  refine Keeps.inquiring good fun _ _ => ?_
  have retired := (says_requireNotRetired before).1
  refine Keeps.creating good exclusive (fun _ => retired) (by simp) fun made free => ?_
  -- A settled payload is there, or its retirement is.
  have unsettled : ¬z := by
    intro holds
    rcases good.sound.once with ⟨never, -⟩ | ⟨-, there | there⟩
    · exact (good.settled holds).2 never
    · exact there free
    · exact there retired
  refine Keeps.modifying ?_
  have opened : LeaseOk h i x z { l with writer := some d.next } (d.add .payload made) :=
    { intent := good.intent
      exclusive := good.exclusive
      sound := good.sound.add free fun _ => retired
      writing := fun _ => exclusive
      reading := fun fd reader => absurd (unread.symm.trans reader) (by simp)
      verified := fun prepared => by
        obtain ⟨fd, reader, -⟩ := good.verified prepared
        exact absurd (unread.symm.trans reader) (by simp)
      settled := fun holds => absurd holds unsettled }
  refine Keeps.inquiring opened fun state _ => ?_
  refine Keeps.modifying ?_
  have opened : LeaseOk h i x z { l with writer := some d.next, writeState := some state }
      (d.add .payload made) := { opened with }
  refine Keeps.inquiring opened fun _ _ => ?_
  refine Keeps.lifting opened fun data _ => ?_
  exact (createMarker_keeps (by decide) (by simp) data opened).mono fun _ _ _ _ _ => trivial

/-- `append` writes while no reader has the payload. -/
theorem append_keeps (chunk : List UInt8) (good : LeaseOk h i x z l d) :
    Keeps h i x z c (append h chunk) (fun _ _ _ => True) l d := by
  refine Keeps.getting ?_
  refine Keeps.inquiring good fun _ _ => ?_
  refine Keeps.lifting good fun fd writer => ?_
  have writer : l.writer = some fd := orRaise_ok writer
  have exclusive : x = true := good.writing (by simp [writer])
  have apart : l.reader ≠ some fd := fun reader => by
    have idle := (good.reading fd reader).1
    simp [writer] at idle
  refine Keeps.onRaise ?_
  refine Keeps.demand good fun _ => ?_
  refine Keeps.demand good fun _ => ?_
  refine Keeps.inquiring good fun _ _ => ?_
  refine Keeps.demand good fun _ => ?_
  have spared (holds : z) : d.entries .payload ≠ some fd := by
    have idle := (good.settled holds).1
    simp [writer] at idle
  refine Keeps.bind (writeAll_keeps exclusive _ chunk good apart spared l) ?_
  rintro _ l d' good' ⟨rfl, -⟩
  refine Keeps.modifying ?_
  have good' : LeaseOk h i x z { l with
      written := l.written + chunk.length, digest := l.digest ++ chunk } d' := { good' with }
  refine Keeps.inquiring good' fun state _ => ?_
  refine Keeps.modifying ?_
  exact Keeps.lift { good' with } fun _ _ => trivial

/-- What a verified payload is: the declared bytes, and no retirement. -/
def Verified (h : Host) (i : Intent) (d : Directory) : Prop :=
  (∃ data, d.contents .payload = some data ∧ Exact h i data) ∧
    d.entries .retired = none ∧ d.entries .cleaned = none

/-- The payload has one name and one file. -/
theorem contents_payload {n : Nat} (entry : d.entries .payload = some n)
    (own : ∀ n, d.entries .payload = some n → n = fd) :
    d.contents .payload = some (d.files fd).contents := by
  obtain rfl := own n entry
  simp [Directory.contents, Directory.file, entry]

theorem verifyPrepared_keeps (good : LeaseOk h i x z l d) :
    Keeps h i x z c (verifyPrepared h)
      (fun receipt l d => Verified h i d ∧ l.prepared ≠ none ∧ receipt.intent = i) l d := by
  refine Keeps.getting ?_
  refine Keeps.inquiring good fun _ _ => ?_
  refine Keeps.demand good fun idle => ?_
  simp only [Option.isNone_iff_eq_none] at idle
  refine Keeps.modifying ?_
  have good := good.unprepared
  refine Keeps.inquiring good fun _ before => ?_
  refine Keeps.inquiring good fun state _ => ?_
  refine Keeps.inquiring good fun fd opened => ?_
  refine Keeps.modifying ?_
  have own : fd < d.next ∧ ∀ n, d.entries .payload = some n → n = fd := by
    unfold Lease.openReader at opened
    split at opened
    · next held reader =>
      obtain rfl : fd = held := Machine.Answers.pure opened
      exact (good.reading fd reader).2
    · have entry := says_openFile opened
      refine ⟨good.sound.bounded _ _ entry, fun n other => ?_⟩
      exact Option.some.inj (other.symm.trans entry)
  have read : LeaseOk h i x z { l with prepared := none, reader := some fd } d :=
    { good with
      reading := fun held reader => by
        obtain rfl := Option.some.inj reader
        exact ⟨idle, own⟩
      verified := fun prepared => absurd rfl prepared }
  refine Keeps.inquiring read fun state verified => ?_
  obtain ⟨exact_, n, entry⟩ := says_verifyPayload verified
  rw [good.intent] at exact_
  refine Keeps.modifying ?_
  refine Keeps.pure { read with verified := fun _ => ⟨fd, rfl, exact_⟩ } ⟨?_, by simp, good.intent⟩
  exact ⟨⟨_, contents_payload entry own.2, exact_⟩, says_requireNotRetired before⟩

theorem finishWriting_keeps (good : LeaseOk h i x z l d) :
    Keeps h i x z c (finishWriting h)
      (fun receipt l d => Verified h i d ∧ l.prepared ≠ none ∧ receipt.intent = i) l d := by
  refine Keeps.getting ?_
  refine Keeps.inquiring good fun _ _ => ?_
  refine Keeps.lifting good fun fd _ => ?_
  refine Keeps.onRaise ?_
  refine Keeps.demand good fun _ => ?_
  refine Keeps.inquiring good fun _ _ => ?_
  refine Keeps.demand good fun _ => ?_
  refine Keeps.inquiring good fun _ _ => ?_
  refine Keeps.inquiring good fun state _ => ?_
  refine Keeps.lifting good fun data _ => ?_
  refine Keeps.bind (createMarker_keeps (by decide) (by simp) data good) ?_
  rintro _ l d' good' ⟨rfl, -⟩
  refine Keeps.modifying ?_
  have closed : LeaseOk h i x z { l with writer := none } d' :=
    { good' with
      writing := fun writer => absurd rfl writer
      reading := fun fd reader => ⟨rfl, (good'.reading fd reader).2⟩
      settled := fun holds => ⟨rfl, (good'.settled holds).2⟩ }
  refine Keeps.inquiring closed fun _ _ => ?_
  exact verifyPrepared_keeps closed

/-- The slice of the declared bytes that a delivery asks for. -/
def slice (i : Intent) (offset size : Int) (data : List UInt8) : List UInt8 :=
  (data.drop offset.toNat).take (min size.toNat (i.size - offset.toNat))

theorem take_whole {data : List UInt8} {count size : Nat} (most : count ≤ size)
    (whole : (data.take count).length = size) : data.take count = data.take size := by
  rw [List.length_take] at whole
  have : count = size := by omega
  rw [this]

theorem read_keeps (offset size : Int) (good : LeaseOk h i x z l d) :
    Keeps h i x z c (read h offset size)
      (fun data l d => (Verified h i d ∧ ∃ all, d.contents .payload = some all ∧
        data = slice i offset size all) ∧ l.prepared ≠ none) l d := by
  refine Keeps.getting ?_
  refine Keeps.inquiring good fun _ _ => ?_
  refine Keeps.inquiring good fun _ before => ?_
  refine Keeps.lifting good fun expected prepared => ?_
  refine Keeps.lifting good fun fd reader => ?_
  refine Keeps.demand good fun _ => ?_
  refine Keeps.inquiring good fun state checked => ?_
  refine Keeps.demand good fun _ => ?_
  refine Keeps.inquiring good fun data got => ?_
  refine Keeps.demand good fun whole => ?_
  refine Keeps.inquiring good fun _ _ => ?_
  refine Keeps.demand good fun _ => ?_
  have reader : l.reader = some fd := orRaise_ok reader
  have prepared : l.prepared = some expected := orRaise_ok prepared
  obtain ⟨held, reader', exact_⟩ := good.verified (by simp [prepared])
  obtain rfl := Option.some.inj (reader'.symm.trans reader)
  obtain ⟨-, n, entry, -⟩ := says_fileCheck checked
  have contents := contents_payload entry (good.reading held reader).2.2
  obtain ⟨count, -, most, rfl⟩ := says_pread got
  refine Keeps.pure good ⟨⟨⟨⟨_, contents, exact_⟩, says_requireNotRetired before⟩, _, contents, ?_⟩,
    by simp [prepared]⟩
  rw [good.intent] at most whole
  exact take_whole most (of_decide_eq_true whole)

/-! ### Retirement -/

variable {binding raw : List UInt8}

theorem fromMarker_ok {m : Except String α} {a : α} (written : fromMarker m = .ok a) : m = .ok a := by
  cases m with
  | ok b => exact congrArg Except.ok (Except.ok.inj written)
  | error message => cases written

/-- A cleanup belongs to an exclusive lease, and takes back its permission to deliver. -/
theorem cleanupBinding_keeps (decision : CleanupDecision) (good : LeaseOk h i x z l d) :
    Keeps h i x z c (cleanupBinding h decision) (fun binding l _ =>
      decision.encoded h.sha256 = .ok binding ∧ x = true ∧ l.prepared = none) l d := by
  refine Keeps.getting ?_
  refine Keeps.inquiring good fun _ _ => ?_
  refine Keeps.demand good fun allowed => ?_
  simp only [Bool.and_eq_true] at allowed
  have exclusive : x = true := good.exclusive.symm.trans allowed.1.2
  refine Keeps.lifting good fun binding encoded => ?_
  refine Keeps.inquiring good fun _ _ => ?_
  refine Keeps.demand good fun _ => ?_
  refine Keeps.modifying ?_
  exact Keeps.pure good.unprepared ⟨fromMarker_ok encoded, exclusive, rfl⟩

theorem payloadState_keeps (decision : CleanupDecision) (good : LeaseOk h i x z l d) :
    Keeps h i x z c (payloadState h decision) (fun _ _ _ => True) l d := by
  unfold payloadState
  split
  · refine Keeps.bind (verifyPrepared_keeps good) fun artifact l d good _ => ?_
    exact Keeps.pure good trivial
  · refine Keeps.getting ?_
    exact Keeps.inquire good fun _ _ => trivial

theorem retirementRecord_keeps (decision : CleanupDecision) (duty : c ≠ .prepare)
    (good : LeaseOk h i x z l d) :
    Keeps h i x z c (retirementRecord h decision binding) (fun _ _ _ => True) l d := by
  refine Keeps.getting ?_
  refine Keeps.inquiring good fun found _ => ?_
  cases found with
  | some record => exact Keeps.pure good trivial
  | none =>
    refine Keeps.inquiring good fun _ _ => ?_
    refine Keeps.demand good fun _ => ?_
    refine Keeps.bind (payloadState_keeps decision good) fun state l d good _ => ?_
    refine Keeps.lifting good fun raw _ => ?_
    refine Keeps.bind (createMarker_keeps (by decide) (fun _ => duty) raw good) fun _ l d good _ => ?_
    exact Keeps.pure good trivial

theorem retire_keeps (decision : CleanupDecision) (good : LeaseOk h i x z l d) :
    Keeps h i x z (.retire decision) (retire h decision) (fun _ _ _ => True) l d := by
  refine Keeps.bind (cleanupBinding_keeps decision good) fun binding l d good _ => ?_
  refine Keeps.getting ?_
  refine Keeps.bind (retirementRecord_keeps decision (by simp) good) fun raw l d good _ => ?_
  refine Keeps.inquiring good fun _ _ => ?_
  refine Keeps.modifying ?_
  exact Keeps.pure good.unprepared trivial

/-- The record that a lease reads is the whole of `retired.json`. -/
theorem says_retired {record : List UInt8 × Option FileState}
    (said : Says d (l.retired h binding) record) :
    d.contents .retired = some record.1 ∧ retirement h.sha256 binding record.2 = .ok record.1 := by
  obtain ⟨raw, read, said⟩ := Machine.Answers.bind said
  obtain ⟨state, parsed, last⟩ := Machine.Answers.bind said
  obtain rfl : record = (raw, state) := Machine.Answers.pure last
  exact ⟨says_readMarker read, readRetirement_ok (fromMarker_ok (says_lift parsed))⟩

/-- A name is removed together with the link of its file, or nothing changes. -/
theorem act_unlink (t : Turn) :
    (∃ e, act d t (.unlink name) = (.error e, d)) ∨
      ∃ n f, act d t (.unlink name) = (.ok (), (d.setFile n f).remove name) := by
  unfold act
  dsimp only
  split
  · exact .inl ⟨.os, rfl⟩
  · split
    · exact .inl ⟨.missing, rfl⟩
    · exact .inr ⟨_, _, rfl⟩

/-- The payload was retired, and is gone for good. -/
def Gone (d : Directory) : Prop := d.entries .payload = none ∧ d.entries .retired ≠ none

/-- The payload is removed only while its state is the recorded one. -/
theorem removePayload_keeps (decision : CleanupDecision) {cleaned : Option (List UInt8)}
    {state : Option FileState} (exclusive : x = true) (unprepared : l.prepared = none)
    (encoded : decision.encoded h.sha256 = .ok binding) (there : d.contents .retired = some raw)
    (record : retirement h.sha256 binding state = .ok raw) (good : LeaseOk h i x z l d) :
    Keeps h i x z (.clean decision) (removePayload h cleaned state) (fun _ _ d => Gone d) l d := by
  have retired : d.entries .retired ≠ none := by
    intro none_
    simp [Directory.contents, Directory.file, none_] at there
  refine Keeps.getting ?_
  refine Keeps.inquiring good fun found opened => ?_
  cases found with
  | none =>
    rcases Machine.Answers.rescue opened with ⟨fd, some_, -⟩ | ⟨e, missing, -, raised⟩
    · cases some_
    · exact Keeps.pure good ⟨absent_openFile missing raised, retired⟩
  | some fd =>
    refine Keeps.finish ?_
    refine Keeps.inquiring good fun current checked => ?_
    refine Keeps.demand good fun same => ?_
    simp only [Bool.and_eq_true, decide_eq_true_eq] at same
    refine Keeps.inquiring good fun _ _ => ?_
    obtain ⟨-, n, entry, held⟩ := says_fileCheck checked
    have recorded : Recorded h d decision := by
      refine ⟨binding, raw, current, encoded, there, same.2 ▸ record, ?_⟩
      simp [Directory.file, entry, held]
    refine Keeps.changed good ⟨exclusive, rfl, decision, rfl, recorded⟩ fun t => ?_
    refine (act_unlink t).imp id ?_
    rintro ⟨n, f, done⟩
    have sound : Sound (d.setFile n f) := good.sound.setFile
    refine ⟨_, _, done, ?_, ?_⟩
    · exact
        { good with
          sound := sound.remove retired
          reading := fun fd reader => by
            obtain ⟨idle, bound, -⟩ := good.reading fd reader
            refine ⟨idle, bound, fun n entry => ?_⟩
            simp [Directory.remove] at entry
          verified := fun prepared => absurd unprepared prepared }
    · constructor
      · simp [Directory.remove]
      · simpa [Directory.remove, Directory.setFile] using retired

theorem recordCleanup_keeps {cleaned : Option (List UInt8)} {expected : List UInt8} (duty : c ≠ .prepare)
    (good : LeaseOk h i x z l d) (gone : Gone d) :
    Keeps h i x z c (recordCleanup h cleaned expected) (fun _ _ d => Gone d) l d := by
  unfold recordCleanup
  split
  · refine (createMarker_keeps (by decide) (fun _ => duty) expected good).mono ?_
    rintro _ _ d' - ⟨-, others⟩
    exact ⟨(others .payload (by decide)).trans gone.1, (others .retired (by decide)).trans_ne gone.2⟩
  · exact Keeps.pure good gone

theorem cleanupRetired_keeps (decision : CleanupDecision) (good : LeaseOk h i x z l d) :
    Keeps h i x z (.clean decision) (cleanupRetired h decision)
      (fun receipt _ d => Gone d ∧ receipt.artifactId = i.artifactId) l d := by
  refine Keeps.bind (cleanupBinding_keeps decision good) ?_
  rintro binding l d good ⟨encoded, exclusive, unprepared⟩
  refine Keeps.getting ?_
  refine Keeps.inquiring good fun record read => ?_
  obtain ⟨there, written⟩ := says_retired read
  refine Keeps.inquiring good fun _ _ => ?_
  refine Keeps.lifting good fun expected _ => ?_
  refine Keeps.inquiring good fun cleaned _ => ?_
  refine Keeps.demand good fun _ => ?_
  have own : l.intent.artifactId = i.artifactId := congrArg Intent.artifactId good.intent
  refine Keeps.bind (removePayload_keeps decision exclusive unprepared encoded there written good) ?_
  intro _ l d good gone
  refine Keeps.inquiring good fun _ _ => ?_
  refine Keeps.bind (recordCleanup_keeps (by simp) good gone) fun _ l d good gone => ?_
  refine Keeps.inquiring good fun _ _ => ?_
  refine Keeps.modifying ?_
  exact Keeps.pure good.unprepared ⟨gone, own⟩

/-! ### Opening -/

theorem enter_keeps (created : Bool) (good : LeaseOk h i x z l d) :
    Keeps h i x z c (enter h created) (fun _ _ _ => True) l d := by
  refine Keeps.getting ?_
  refine Keeps.inquiring good fun _ _ => ?_
  refine Keeps.bind (Q := fun _ _ _ => True) ?_ fun _ l d good _ => ?_
  · refine Keeps.getting ?_
    split
    · refine Keeps.inquiring good fun _ _ => ?_
      exact (createMarker_keeps (by decide) (by simp) _ good).mono fun _ _ _ _ _ => trivial
    · refine Keeps.inquiring good fun raw _ => ?_
      exact Keeps.lift good fun _ _ => trivial
  · exact Keeps.inquire good fun _ _ => trivial

end FreeSdn.Artifact
