import FreeSdn.Artifact.Answers
import FreeSdn.Lib.Run
import FreeSdn.Signing.Keys

/-! What the locked sessions of the signing directory do to it: a private key is created at most once and
only where no key material is, no file that is there is ever changed, and all that succeed return the
same key. -/

namespace FreeSdn.Signing

open FreeSdn.Lib
open FreeSdn.Artifact (File FileState read_further)

variable {h : Host} {d d' : Directory} {fd n : Nat} {name : Name} {purpose : Purpose}

/-! ### Answers -/

/-- The machine answers the queries `p` with `a`. -/
abbrev Says (d : Directory) (p : Ask α) (a : α) : Prop := machine.Answers d p (.ok a)

theorem demand_ok {condition : Bool} {message : String} (passed : demand condition message = .ok ()) :
    condition = true := by
  unfold demand require at passed
  split at passed
  · assumption
  · cases passed

theorem says_demand {condition : Bool} {message : String}
    (said : Says d (liftM (demand condition message)) ()) : condition = true :=
  demand_ok (Machine.Answers.lift said).symm

theorem guard_ok {c : Turn} {x : Except Raised α} {a : α} (answer : c.guard x = .ok a) : x = .ok a := by
  unfold Turn.guard at answer
  split at answer
  · cases answer
  · exact answer

theorem says_openFile (said : Says d (openFile name) fd) : d.entries name = some fd := by
  obtain ⟨c, answer⟩ := Machine.Answers.query said
  exact orRaise_ok (guard_ok answer.symm)

theorem says_fstat {s : FileState} (said : Says d (fstat fd) s) : (d.files fd).state = s := by
  obtain ⟨c, answer⟩ := Machine.Answers.query said
  exact Except.ok.inj (guard_ok answer.symm)

/-- A name is only missing when the directory has no entry for it. -/
theorem absent_openFile {e : Raised} (missing : e.isMissing = true)
    (raised : machine.Answers d (openFile name) (.error e)) : d.entries name = none := by
  obtain ⟨c, answer⟩ := Machine.Answers.query raised
  obtain rfl : e = .missing := of_decide_eq_true missing
  have answer : Except.error .missing = c.guard (orRaise (d.entries name) .missing) := answer
  unfold Turn.guard at answer
  split at answer
  · cases answer
  · cases entry : d.entries name with
    | none => rfl
    | some n =>
      rw [entry] at answer
      cases answer

/-- What was read stays a prefix of the file. -/
theorem says_readLoop {maximum turns : Nat} {data all : List UInt8} (sofar : data <+: (d.files fd).contents)
    (said : Says d (readLoop fd maximum turns data) all) : all <+: (d.files fd).contents := by
  induction turns generalizing data with
  | zero =>
    obtain rfl : all = data := Machine.Answers.pure said
    exact sofar
  | succ turns ih =>
    unfold readLoop at said
    split at said
    · obtain rfl : all = data := Machine.Answers.pure said
      exact sofar
    · obtain ⟨block, got, said⟩ := Machine.Answers.bind said
      split at said
      · obtain rfl : all = data := Machine.Answers.pure said
        exact sofar
      · obtain ⟨c, answer⟩ := Machine.Answers.query got
        obtain rfl := Except.ok.inj (guard_ok answer.symm)
        exact ih (read_further sofar) said

/-- A file that is read is the whole file. -/
theorem says_readFile {secret synchronize : Bool} {maximum : Nat} {found : Option (List UInt8)}
    (said : Says d (readFile h name secret maximum synchronize) found) : d.contents name = found := by
  obtain ⟨opened, asked, said⟩ := Machine.Answers.bind said
  rcases Machine.Answers.rescue asked with ⟨fd, rfl, opened⟩ | ⟨e, missing, rfl, raised⟩
  · obtain ⟨data, ran, last⟩ := Machine.Answers.bind said
    obtain rfl : found = some data := Machine.Answers.pure last
    have said := Machine.Answers.finish ran
    obtain ⟨before, checked, said⟩ := Machine.Answers.bind said
    obtain ⟨_, -, said⟩ := Machine.Answers.bind said
    obtain ⟨_, -, said⟩ := Machine.Answers.bind said
    obtain ⟨parts, looped, said⟩ := Machine.Answers.bind said
    obtain ⟨_, -, said⟩ := Machine.Answers.bind said
    obtain ⟨after, -, said⟩ := Machine.Answers.bind said
    obtain ⟨current, -, said⟩ := Machine.Answers.bind said
    obtain ⟨_, whole, said⟩ := Machine.Answers.bind said
    obtain ⟨_, -, last⟩ := Machine.Answers.bind said
    obtain rfl : data = parts := Machine.Answers.pure last
    have checks := Bool.and_eq_true_iff.mp (says_demand whole)
    have whole : data.length = before.size := of_decide_eq_true checks.1
    have size : before.size = (d.files fd).contents.length := by rw [← says_fstat checked]; rfl
    have same := (says_readLoop List.nil_prefix looped).eq_of_length (whole.trans size)
    simp [Directory.contents, says_openFile opened, same]
  · obtain rfl : found = none := Machine.Answers.pure said
    simp [Directory.contents, absent_openFile missing raised]

theorem contents_none : d.contents name = none ↔ d.entries name = none := by
  simp [Directory.contents]

/-! ### Changes -/

/-- The purposes that may create a private key. -/
def Purpose.creates : Purpose → Bool
  | .legacy => true
  | .initialization => true
  | _ => false

/-- The changes that a session may make: a private key where there is nothing, and writes to the files
from number `n` on, which are its own. -/
def Admitted (purpose : Purpose) (n : Nat) (d : Directory) : Change → Prop
  | .create name => name = .privateKey → purpose.creates = true ∧ ∀ other, d.entries other = none
  | .write fd _ => n ≤ fd

/-- The three files belong together, and the private key of the pair is the one that is stored. -/
structure Matching (h : Host) (d : Directory) (pair : Nat × List UInt8) : Prop where
  stored : ∃ bytes, d.contents .privateKey = some bytes ∧
    (privateFromBytes h bytes = .ok pair.1 ∨ bytes = h.privatePem pair.1)
  publicKey : d.contents .publicKey = some pair.2
  identity : d.contents .identity = some (fingerprint h pair.2)
  own : validatePublic h pair.2 pair.1 = .ok ()

/-- The session returns as `Q` says. -/
abbrev Keeps (purpose : Purpose) (n : Nat) (p : Act α) (Q : α → Directory → Prop) (d : Directory) : Prop :=
  machine.Holds (Admitted purpose n) p (fun a _ d => Q a d) (fun _ _ => True) () d

namespace Keeps

variable {Q : β → Directory → Prop}

theorem bind {p : Act α} {f : α → Act β}
    (first : Keeps purpose n p (fun a d => Keeps purpose n (f a) Q d) d) :
    Keeps purpose n (p >>= f) Q d := Machine.Holds.bind first

theorem mono {p : Act β} {Q' : β → Directory → Prop} (holds : Keeps purpose n p Q' d)
    (weaker : ∀ a d, Q' a d → Q a d) : Keeps purpose n p Q d :=
  Machine.Holds.mono holds fun a _ d => weaker a d

theorem inquiring {p : Ask α} {f : α → Act β}
    (rest : ∀ a, Says d p a → Keeps purpose n (f a) Q d) :
    Keeps purpose n (inquire p >>= f) Q d := bind (Machine.Holds.inquire rest trivial)

theorem lifting {x : Except Raised α} {f : α → Act β}
    (rest : ∀ a, x = .ok a → Keeps purpose n (f a) Q d) :
    Keeps purpose n (liftM x >>= f) Q d := bind (Machine.Holds.lift rest trivial)

end Keeps

theorem writeAll_keeps (turns : Nat) (data : List UInt8) (own : n ≤ fd) (later : n ≤ d.next) :
    Keeps purpose n (writeAll fd turns data) (fun _ d => n ≤ d.next) d := by
  induction turns generalizing data d with
  | zero => exact later
  | succ turns ih =>
    unfold writeAll
    split
    · exact later
    · refine Keeps.bind (Machine.Holds.change own ?_ fun _ _ _ => trivial)
      intro c written answer
      refine Keeps.lifting fun _ _ => ih _ ?_
      show n ≤ (act d c (.write fd data)).2.next
      unfold act
      dsimp only
      split
      · exact later
      · exact later

/-- A new file is the session's own. -/
theorem createFile_keeps {data : List UInt8} (later : n ≤ d.next)
    (admitted : Admitted purpose n d (.create name)) :
    Keeps purpose n (createFile h name data) (fun _ d => n ≤ d.next) d := by
  refine Keeps.bind (Machine.Holds.change admitted ?_ fun _ _ _ => trivial)
  intro c fd answer
  have made : (fd : Nat) = d.next ∧ (act d c (.create name)).2.next = d.next + 1 := by
    have answer : (act d c (.create name)).1 = .ok fd := answer
    unfold act at answer ⊢
    dsimp only at answer ⊢
    split at answer
    · cases answer
    · next free =>
      rw [if_neg free]
      exact ⟨(Except.ok.inj answer).symm, rfl⟩
  obtain ⟨rfl, next⟩ := made
  have next' : d.next ≤ (act d c (.create name)).2.next := by omega
  refine Keeps.bind (Machine.Holds.finish ?_)
  refine Keeps.inquiring fun _ _ => Keeps.lifting fun _ _ => ?_
  refine Keeps.bind (Keeps.mono (writeAll_keeps data.length data later (later.trans next')) ?_)
  intro _ d later
  refine Keeps.inquiring fun _ _ => Keeps.inquiring fun _ _ => Keeps.lifting fun _ _ => ?_
  refine Keeps.inquiring fun _ _ => ?_
  refine Machine.Holds.lift (fun _ _ => ?_) trivial
  exact ⟨Machine.Holds.inquire (fun _ _ => later) trivial, trivial⟩

theorem createMissing_keeps {found : Option (List UInt8)} {data : List UInt8} (later : n ≤ d.next)
    (other : name ≠ .privateKey) :
    Keeps purpose n (createMissing h found name data) (fun _ d => n ≤ d.next) d := by
  cases found with
  | none => exact createFile_keeps later fun private_ => absurd private_ other
  | some bytes => exact later

/-- All that is read again is there. -/
theorem publish_keeps {key : Nat} {privateBytes public_ : List UInt8}
    {publicBytes identity : Option (List UInt8)}
    (later : n ≤ d.next)
    (own : privateFromBytes h privateBytes = .ok key ∨ privateBytes = h.privatePem key)
    (valid : validatePublic h public_ key = .ok ()) :
    Keeps purpose n (publish h key privateBytes public_ publicBytes identity)
      (fun pair d => Matching h d pair) d := by
  refine Keeps.bind (Keeps.mono (createMissing_keeps later (by decide)) fun _ d later => ?_)
  refine Keeps.bind (Keeps.mono (createMissing_keeps later (by decide)) fun _ d later => ?_)
  refine Keeps.inquiring fun finalPrivate readPrivate => ?_
  refine Keeps.inquiring fun finalPublic readPublic => ?_
  refine Keeps.inquiring fun finalIdentity readIdentity => ?_
  refine Keeps.lifting fun _ same => ?_
  have same := demand_ok same
  simp only [Bool.and_eq_true, decide_eq_true_eq] at same
  obtain ⟨⟨rfl, rfl⟩, rfl⟩ := same
  refine Keeps.inquiring fun _ _ => ?_
  exact
    { stored := ⟨privateBytes, says_readFile readPrivate, own⟩
      publicKey := says_readFile readPublic
      identity := says_readFile readIdentity
      own := valid }

/-- A private key is created only where nothing is, and not for a purpose that expects one. -/
theorem privateKey_keeps {expected privateBytes publicBytes identity : Option (List UInt8)}
    (later : n ≤ d.next) (noPrivate : d.contents .privateKey = privateBytes)
    (noPublic : d.contents .publicKey = publicBytes) (noIdentity : d.contents .identity = identity)
    (reviewed : review h purpose privateBytes publicBytes identity = .ok expected) :
    Keeps purpose n (privateKey h expected privateBytes publicBytes identity) (fun pair d => n ≤ d.next ∧
      (privateFromBytes h pair.2 = .ok pair.1 ∨ pair.2 = h.privatePem pair.1)) d := by
  cases privateBytes with
  | none =>
    refine Keeps.lifting fun _ empty => ?_
    have empty := demand_ok empty
    simp only [Bool.and_eq_true, Option.isNone_iff_eq_none] at empty
    obtain ⟨⟨rfl, rfl⟩, rfl⟩ := empty
    have creates : purpose.creates = true := by
      cases purpose with
      | legacy => rfl
      | anchored trusted => cases reviewed
      | initialization => rfl
      | adopt sha256 => cases reviewed
      | resume => cases reviewed
    have nothing (other : Name) : d.entries other = none := by
      cases other with
      | privateKey => exact contents_none.mp noPrivate
      | publicKey => exact contents_none.mp noPublic
      | identity => exact contents_none.mp noIdentity
    refine Keeps.inquiring fun key _ => ?_
    refine Keeps.bind (Keeps.mono (createFile_keeps later fun _ => ⟨creates, nothing⟩) fun _ d later => ?_)
    exact ⟨later, .inr rfl⟩
  | some bytes =>
    exact Keeps.lifting fun key loaded => ⟨later, .inl loaded⟩

theorem pairUnderLock_keeps (later : n ≤ d.next) :
    Keeps purpose n (pairUnderLock h purpose) (fun pair d => Matching h d pair) d := by
  refine Keeps.inquiring fun privateBytes readPrivate => ?_
  refine Keeps.inquiring fun publicBytes readPublic => ?_
  refine Keeps.inquiring fun identity readIdentity => ?_
  refine Keeps.lifting fun _ _ => ?_
  refine Keeps.lifting fun expected reviewed => ?_
  refine Keeps.bind (Keeps.mono (privateKey_keeps later (says_readFile readPrivate) (says_readFile readPublic)
    (says_readFile readIdentity) reviewed) ?_)
  rintro ⟨key, bytes⟩ d ⟨later, own⟩
  refine Keeps.lifting fun _ valid => ?_
  refine Keeps.lifting fun _ _ => ?_
  refine Keeps.lifting fun _ _ => ?_
  exact publish_keeps later own valid

theorem loadOrGenerate_keeps (later : n ≤ d.next) :
    Keeps purpose n (loadOrGenerate h purpose) (fun pair d => Matching h d pair) d := by
  refine Keeps.inquiring fun _ _ => ?_
  refine Keeps.bind (Keeps.mono (pairUnderLock_keeps later) fun pair d matching => ?_)
  exact Keeps.inquiring fun _ _ => matching

/-! ### Sessions -/

/-- What is left of a session. -/
abbrev Rest :=
  Prog (Query ⊕ Change) (fun k => Except Raised (Value k)) (Except Raised (Nat × List UInt8) × Unit)

/-- The process that has the exclusive lock of the directory. -/
structure Session where
  purpose : Purpose
  rest : Rest

/-- `returned` has the pairs that `_load_or_generate` has returned. -/
structure World where
  dir : Directory
  session : Option Session
  returned : List (Nat × List UInt8)

/-- A process that leaves has returned an error, or crashed. -/
inductive Event
  | enter (purpose : Purpose)
  | turn (t : Turn)
  | finished
  | leave

def Rest.turn (d : Directory) (t : Turn) : Rest → Option (Rest × Directory)
  | .done _ => none
  | .call (.inl q) next => some (next (ask d t q), d)
  | .call (.inr k) next => some (next (act d t k).1, (act d t k).2)

def World.step (h : Host) (w : World) : Event → Option World
  | .enter purpose =>
    if w.session.isSome then none
    else some { w with session := some ⟨purpose, (loadOrGenerate h purpose).run ()⟩ }
  | .turn t => do
    let s ← w.session
    let (rest, dir) ← s.rest.turn w.dir t
    return { w with dir, session := some { s with rest } }
  | .finished =>
    match w.session with
    | some ⟨_, .done (.ok pair, _)⟩ => some { w with session := none, returned := pair :: w.returned }
    | _ => none
  | .leave => w.session.map fun _ => { w with session := none }

/-- What a change can do. -/
theorem act_cases (t : Turn) (k : Change) :
    (act d t k).2 = d ∨
      (∃ name f, k = .create name ∧ d.entries name = none ∧ (act d t k).2 = d.add name f) ∨
      ∃ fd data f, k = .write fd data ∧ (act d t k).2 = d.setFile fd f := by
  cases k with
  | create name =>
    unfold act
    dsimp only
    split
    · exact .inl rfl
    · next free =>
      rw [not_or] at free
      exact .inr (.inl ⟨name, _, rfl, by simpa using free.2, rfl⟩)
  | write fd data =>
    unfold act
    dsimp only
    split
    · exact .inl rfl
    · exact .inr (.inr ⟨fd, data, _, rfl, rfl⟩)

/-! ### The invariant -/

/-- Names stand for files that were made. -/
def Bounded (d : Directory) : Prop := ∀ name n, d.entries name = some n → n < d.next

/-- The files that were there at the start are there unchanged. -/
structure Grown (start d : Directory) : Prop where
  next : start.next ≤ d.next
  entries : ∀ name n, start.entries name = some n → d.entries name = some n
  files : ∀ n < start.next, d.files n = start.files n

structure WorldOk (h : Host) (start : Directory) (w : World) : Prop where
  bounded : Bounded w.dir
  grown : Grown start w.dir
  created : w.dir.created = start.created ∨ (w.dir.created = start.created + 1 ∧
    w.dir.entries .privateKey ≠ none ∧ ∀ name, start.entries name = none)
  returned : ∀ pair ∈ w.returned, Matching h w.dir pair
  -- The session writes to its own files, which are none of those that were returned.
  session : ∀ s, w.session = some s → ∃ n, start.next ≤ n ∧ n ≤ w.dir.next ∧
    (w.returned ≠ [] → ∀ name, ∃ m < n, w.dir.entries name = some m) ∧
    machine.Safe (Admitted s.purpose n) s.rest
      (fun r d => ∀ pair, r.1 = .ok pair → Matching h d pair) w.dir

theorem Matching.there {pair : Nat × List UInt8} (matching : Matching h d pair) (name : Name) :
    ∃ m, d.entries name = some m := by
  obtain ⟨bytes, stored, -⟩ := matching.stored
  have some_ : d.contents name ≠ none := by
    cases name with
    | privateKey => simp [stored]
    | publicKey => simp [matching.publicKey]
    | identity => simp [matching.identity]
  exact Option.ne_none_iff_exists'.mp fun free => some_ (contents_none.mpr free)

theorem Matching.of_contents {pair : Nat × List UInt8} (matching : Matching h d pair)
    (same : ∀ name, d'.contents name = d.contents name) : Matching h d' pair := by
  obtain ⟨⟨bytes, stored, own⟩, publicKey, identity, valid⟩ := matching
  exact ⟨⟨bytes, (same _).trans stored, own⟩, (same _).trans publicKey, (same _).trans identity, valid⟩

variable {start : Directory} {w w' : World} {s : Session}

namespace WorldOk

/-- A session makes a change that it is allowed. -/
theorem changed (good : WorldOk h start w) {k : Change} (t : Turn) {rest : Rest} {n : Nat}
    (later : start.next ≤ n) (below : n ≤ w.dir.next)
    (apart : w.returned ≠ [] → ∀ name, ∃ m < n, w.dir.entries name = some m)
    (admitted : Admitted purpose n w.dir k)
    (safe : machine.Safe (Admitted purpose n) rest
      (fun r d => ∀ pair, r.1 = .ok pair → Matching h d pair) (act w.dir t k).2) :
    WorldOk h start { w with dir := (act w.dir t k).2, session := some ⟨purpose, rest⟩ } := by
  obtain same | ⟨name, f, rfl, free, done⟩ | ⟨fd, data, f, rfl, done⟩ := act_cases (d := w.dir) t k
  · rw [same] at safe ⊢
    refine { good with session := fun s found => ?_ }
    obtain rfl := Option.some.inj found
    exact ⟨n, later, below, apart, safe⟩
  · have fresh : w.returned = [] := by
      by_contra some_
      obtain ⟨m, -, there⟩ := apart some_ name
      cases free.symm.trans there
    have entries (other : Name) : (w.dir.add name f).entries other =
        if other = name then some w.dir.next else w.dir.entries other := by
      simp [Directory.add, Function.update_apply]
    rw [done] at safe ⊢
    refine ⟨?_, ⟨?_, ?_, ?_⟩, ?_, ?_, ?_⟩
    · intro other m entry
      show m < w.dir.next + 1
      have entry : (w.dir.add name f).entries other = some m := entry
      rw [entries] at entry
      split at entry
      · have := Option.some.inj entry
        omega
      · have := good.bounded other m entry
        omega
    · exact Nat.le_succ_of_le good.grown.next
    · intro other m entry
      show (w.dir.add name f).entries other = some m
      have old := good.grown.entries other m entry
      rw [entries, if_neg, old]
      rintro rfl
      cases free.symm.trans old
    · intro m old
      have other : m ≠ w.dir.next := by
        have := good.grown.next
        omega
      show Function.update w.dir.files w.dir.next f m = start.files m
      rw [Function.update_of_ne other]
      exact good.grown.files m old
    · by_cases private_ : name = .privateKey
      · obtain ⟨-, nothing⟩ := admitted private_
        have count : w.dir.created = start.created := by
          rcases good.created with same | ⟨-, there, -⟩
          · exact same
          · exact absurd (nothing .privateKey) there
        refine .inr ⟨?_, ?_, fun other => ?_⟩
        · simp [Directory.add, private_, count]
        · show (w.dir.add name f).entries .privateKey ≠ none
          rw [entries, if_pos private_.symm]
          exact Option.some_ne_none _
        · cases entry : start.entries other with
          | none => rfl
          | some m => cases (nothing other).symm.trans (good.grown.entries other m entry)
      · have count : (w.dir.add name f).created = w.dir.created := by simp [Directory.add, private_]
        have same : (w.dir.add name f).entries .privateKey = w.dir.entries .privateKey := by
          rw [entries, if_neg (Ne.symm private_)]
        show (w.dir.add name f).created = start.created ∨ _
        rw [count, same]
        exact good.created
    · intro pair mem
      rw [show w.returned = [] from fresh] at mem
      cases mem
    · intro s found
      obtain rfl := Option.some.inj found
      exact ⟨n, later, Nat.le_succ_of_le below, fun some_ => absurd fresh some_, safe⟩
  · have own : n ≤ fd := admitted
    rw [done] at safe ⊢
    refine ⟨good.bounded, ⟨good.grown.next, good.grown.entries, ?_⟩, good.created, ?_, ?_⟩
    · intro m old
      have other : m ≠ fd := by omega
      show Function.update w.dir.files fd f m = start.files m
      rw [Function.update_of_ne other]
      exact good.grown.files m old
    · intro pair mem
      refine (good.returned pair mem).of_contents fun name => ?_
      obtain ⟨m, below, entry⟩ := apart (List.ne_nil_of_mem mem) name
      have other : m ≠ fd := by omega
      simp [Directory.contents, Directory.setFile, entry, Function.update_of_ne other]
    · intro s found
      obtain rfl := Option.some.inj found
      exact ⟨n, later, below, apart, safe⟩

theorem step (good : WorldOk h start w) {e : Event} (next : World.step h w e = some w') :
    WorldOk h start w' := by
  cases e with
  | enter purpose =>
    have next : (if w.session.isSome then none else
      some { w with session := some ⟨purpose, (loadOrGenerate h purpose).run ()⟩ }) = some w' := next
    split at next
    · cases next
    · obtain rfl := Option.some.inj next
      refine { good with session := fun s found => ?_ }
      obtain rfl := Option.some.inj found
      refine ⟨w.dir.next, good.grown.next, le_refl _, fun some_ name => ?_, ?_⟩
      · obtain ⟨pair, mem⟩ := List.exists_mem_of_ne_nil _ some_
        obtain ⟨m, entry⟩ := (good.returned pair mem).there name
        exact ⟨m, good.bounded name m entry, entry⟩
      · refine Machine.Safe.mono (loadOrGenerate_keeps (le_refl _)) (fun _ _ admitted => admitted) ?_
        rintro ⟨r, _⟩ d ends pair rfl
        exact ends
  | turn t =>
    obtain ⟨s, session, next⟩ := Option.bind_eq_some_iff.mp next
    obtain ⟨⟨rest, dir⟩, taken, next⟩ := Option.bind_eq_some_iff.mp next
    obtain rfl := Option.some.inj next
    obtain ⟨n, later, below, apart, safe⟩ := good.session s session
    obtain ⟨purpose, rest'⟩ := s
    cases rest' with
    | done end_ => cases taken
    | call k more =>
      cases k with
      | inl q =>
        obtain ⟨rfl, rfl⟩ := Prod.mk.inj (Option.some.inj taken)
        refine { good with session := fun s found => ?_ }
        obtain rfl := Option.some.inj found
        exact ⟨n, later, below, apart, safe t⟩
      | inr k =>
        obtain ⟨rfl, rfl⟩ := Prod.mk.inj (Option.some.inj taken)
        exact good.changed t later below apart safe.1 (safe.2 t)
  | finished =>
    unfold World.step at next
    dsimp only at next
    split at next
    · next purpose pair _ session =>
      obtain rfl := Option.some.inj next
      obtain ⟨n, -, -, -, ends⟩ := good.session _ session
      have matching : Matching h w.dir pair := ends pair rfl
      refine { good with returned := fun other mem => ?_, session := fun _ found => by cases found }
      rcases List.mem_cons.mp mem with rfl | mem
      · exact matching
      · exact good.returned other mem
    · cases next
  | leave =>
    obtain ⟨_, -, rfl⟩ := Option.map_eq_some_iff.mp next
    exact { good with session := fun _ found => by cases found }

/-- A turn goes on with the session, and makes a private key only if its purpose creates. -/
theorem turn (good : WorldOk h start w) {t : Turn} (next : World.step h w (.turn t) = some w') :
    ∃ s rest, w.session = some s ∧ w'.session = some { s with rest } ∧ w'.returned = w.returned ∧
      (w'.dir.created = w.dir.created ∨ s.purpose.creates = true) := by
  obtain ⟨⟨purpose, rest⟩, session, next⟩ := Option.bind_eq_some_iff.mp next
  obtain ⟨⟨rest', dir⟩, taken, next⟩ := Option.bind_eq_some_iff.mp next
  obtain rfl := Option.some.inj next
  refine ⟨_, rest', session, rfl, rfl, ?_⟩
  obtain ⟨n, -, -, -, safe⟩ := good.session _ session
  cases rest with
  | done end_ => cases taken
  | call k more =>
    cases k with
    | inl q =>
      obtain ⟨rfl, rfl⟩ := Prod.mk.inj (Option.some.inj taken)
      exact .inl rfl
    | inr k =>
      obtain ⟨rfl, rfl⟩ := Prod.mk.inj (Option.some.inj taken)
      obtain same | ⟨name, f, rfl, -, done⟩ | ⟨fd, data, f, rfl, done⟩ := act_cases (d := w.dir) t k
      · exact .inl (congrArg Directory.created same)
      · by_cases private_ : name = .privateKey
        · exact .inr (safe.1 private_).1
        · exact .inl (by simp [done, Directory.add, private_])
      · refine .inl ?_
        show (act w.dir t (.write fd data)).2.created = w.dir.created
        rw [done]
        rfl

end WorldOk

theorem reached {events : List Event} (bounded : Bounded start)
    (run : Runs (World.step h) Free ⟨start, none, []⟩ events w) : WorldOk h start w := by
  refine run.invariant ?_ fun _ _ _ _ next good => good.step next
  exact
    { bounded := bounded
      grown := ⟨le_refl _, fun _ _ entry => entry, fun _ _ => rfl⟩
      created := .inl rfl
      returned := fun _ mem => by cases mem
      session := fun _ found => by cases found }

theorem validatePublic_ok {data : List UInt8} {key : Nat} (valid : validatePublic h data key = .ok ()) :
    h.loadPublic data = some (some (h.point key)) := by
  obtain ⟨_, -, valid⟩ := bind_ok valid
  obtain ⟨loaded, pem, valid⟩ := bind_ok valid
  obtain ⟨point, curve, valid⟩ := bind_ok valid
  have same : point = h.point key := of_decide_eq_true (demand_ok valid)
  rw [orRaise_ok pem, orRaise_ok curve, same]

/-- The files say which public key is returned. -/
theorem Matching.same {pair other : Nat × List UInt8} (first : Matching h d pair)
    (second : Matching h d other) : other.2 = pair.2 ∧ h.point other.1 = h.point pair.1 := by
  have bytes : other.2 = pair.2 := Option.some.inj (second.publicKey.symm.trans first.publicKey)
  refine ⟨bytes, ?_⟩
  have loaded := validatePublic_ok second.own
  rw [bytes, validatePublic_ok first.own] at loaded
  exact (Option.some.inj (Option.some.inj loaded)).symm

theorem Grown.contents {name : Name} {data : List UInt8} (grown : Grown start d) (bounded : Bounded start)
    (there : start.contents name = some data) : d.contents name = some data := by
  obtain ⟨n, entry, rfl⟩ := Option.map_eq_some_iff.mp there
  simp [Directory.contents, grown.entries name n entry, grown.files n (bounded name n entry)]

/-- Whatever processes initialize, adopt, resume, sign or check, in any order, whatever fails and wherever
they crash: key material that is there is never changed, a private key is created at most once and only
where no material is, and every pair that was returned is the one in the files. -/
theorem key_store_safe {events : List Event} (bounded : Bounded start)
    (run : Runs (World.step h) Free ⟨start, none, []⟩ events w) :
    (∀ name data, start.contents name = some data → w.dir.contents name = some data) ∧
      (w.dir.created ≠ start.created →
        w.dir.created = start.created + 1 ∧ ∀ name, start.contents name = none) ∧
      (∀ pair ∈ w.returned, Matching h w.dir pair) ∧
      ∀ pair ∈ w.returned, ∀ other ∈ w.returned, other.2 = pair.2 ∧ h.point other.1 = h.point pair.1 := by
  have good := reached bounded run
  refine ⟨fun name data there => good.grown.contents bounded there, fun more => ?_, good.returned, ?_⟩
  · rcases good.created with same | ⟨once, -, nothing⟩
    · exact absurd same more
    · exact ⟨once, fun name => contents_none.mpr (nothing name)⟩
  · intro pair mem other mem'
    exact (good.returned pair mem).same (good.returned other mem')

def fileA : File := ⟨[], 1, 1, 0o100600, 1, 0, 0, 0, 0⟩

def pemA (label : String) (key : Nat) : List UInt8 :=
  ascii ("-----BEGIN " ++ label ++ "-----\n") ++ [key.toUInt8] ++
    ascii ("\n-----END " ++ label ++ "-----\n")

/-- SHA-256 on the public key of the runs below, and some digest of everything else. -/
def hostA : Host where
  sha256 data :=
    if data = pemA "PUBLIC KEY" 7 then "25ff86d6be1edfe8c30c93ff021c6b977e61534f63726608ca4246b185ca8b45"
    else "e3b0c44298fc1c149afbf4c8996fb92427ae41e4649b934ca495991b7852b855"
  euid := 0
  point key := (key, key)
  privatePem := pemA "PRIVATE KEY"
  publicPem := pemA "PUBLIC KEY"
  loadPrivate data := (data.find? (· < 10)).map fun b => some b.toNat
  loadPublic data := (data.find? (· < 10)).map fun b => some (b.toNat, b.toNat)

def emptyA : Directory := ⟨fun _ => none, fun _ => fileA, 0, 0⟩

def turnsA (turns : Nat) : List Event := List.replicate turns (.turn ⟨none, none, fileA, 0, 7⟩)

/-- A process crashes when it has written the private key, another one recovers the pair, and a third
signs with it. -/
def recoveryA : List Event :=
  .enter .legacy :: turnsA 9 ++ .leave :: .enter .legacy :: turnsA 52 ++ .finished ::
    .enter (.anchored (pemA "PUBLIC KEY" 7)) :: turnsA 48 ++ [.finished]

theorem recoveryA_safe : ∃ w, Runs (World.step hostA) Free ⟨emptyA, none, []⟩ recoveryA w ∧
    w.returned = List.replicate 2 (7, pemA "PUBLIC KEY" 7) ∧ w.dir.created = 1 ∧
    ∀ pair ∈ w.returned, Matching hostA w.dir pair := by
  have ran : (exec (World.step hostA) Free ⟨emptyA, none, []⟩ recoveryA).any (fun w => decide
      (w.returned = List.replicate 2 (7, pemA "PUBLIC KEY" 7) ∧ w.dir.created = 1)) = true := by
    decide +kernel
  obtain ⟨w, ends, facts⟩ := (Option.any_eq_true _ _).mp ran
  obtain ⟨returned, created⟩ := of_decide_eq_true facts
  have run := Runs.of_exec ends
  have bounded : Bounded emptyA := fun _ _ entry => by cases entry
  exact ⟨w, run, returned, created, (key_store_safe bounded run).2.2.1⟩

end FreeSdn.Signing
