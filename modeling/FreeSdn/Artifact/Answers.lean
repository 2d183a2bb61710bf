import FreeSdn.Artifact.Lease

/-! What the queries of a lease say about the directory that answered them: a marker that is read is
the whole file, and a payload that is verified has the declared size and digest. -/

namespace FreeSdn.Artifact

open FreeSdn.Lib

variable {h : Host} {l : Lease} {d : Directory} {fd : Nat} {name : Name}

/-- The machine answers the queries `p` with `a`. -/
abbrev Says (d : Directory) (p : Ask α) (a : α) : Prop := machine.Answers d p (.ok a)

theorem says_demand {condition : Bool} {message : String}
    (said : Says d (liftM (demand condition message)) ()) : condition = true := by
  have passed : Except.ok () = demand condition message := Machine.Answers.lift said
  unfold demand require at passed
  split at passed
  · assumption
  · cases passed

theorem says_lift {x : Except Raised α} {a : α} (said : Says d (liftM x) a) : x = .ok a :=
  (Machine.Answers.lift said).symm

theorem guard_ok {c : Turn} {x : Except Raised α} {a : α} (answer : c.guard x = .ok a) : x = .ok a := by
  unfold Turn.guard at answer
  split at answer
  · cases answer
  · exact answer

theorem orMissing_ok {x : Option α} {a : α} (found : orMissing x = .ok a) : x = some a := by
  cases x with
  | none => cases found
  | some b => exact congrArg some (Except.ok.inj found)

theorem says_openFile (said : Says d (openFile name) fd) : d.entries name = some fd := by
  obtain ⟨c, answer⟩ := Machine.Answers.query said
  exact orMissing_ok (guard_ok answer.symm)

theorem says_stat {s : FileState} (said : Says d (stat name) s) :
    ∃ n, d.entries name = some n ∧ (d.files n).state = s := by
  obtain ⟨c, answer⟩ := Machine.Answers.query said
  have found : (d.file name).map File.state = some s := orMissing_ok (guard_ok answer.symm)
  obtain ⟨f, file, state⟩ := Option.map_eq_some_iff.mp found
  obtain ⟨n, entry, rfl⟩ := Option.map_eq_some_iff.mp file
  exact ⟨n, entry, state⟩

theorem says_fstat {s : FileState} (said : Says d (fstat fd) s) : (d.files fd).state = s := by
  obtain ⟨c, answer⟩ := Machine.Answers.query said
  exact Except.ok.inj (guard_ok answer.symm)

theorem says_pread {offset size : Nat} {data : List UInt8} (said : Says d (pread fd offset size) data) :
    ∃ count, (0 < size → 0 < count) ∧ count ≤ size ∧
      data = ((d.files fd).contents.drop offset).take count := by
  obtain ⟨c, answer⟩ := Machine.Answers.query said
  refine ⟨c.portion size, ?_, Nat.min_le_left _ _, (Except.ok.inj (guard_ok answer.symm)).symm⟩
  intro some_
  unfold Turn.portion
  omega

theorem guard_missing {c : Turn} {x : Option α} {e : Raised} (missing : e.isMissing = true)
    (answer : .error e = c.guard (orMissing x)) : x = none := by
  obtain rfl : e = .missing := of_decide_eq_true missing
  unfold Turn.guard at answer
  split at answer
  · cases answer
  · cases x with
    | none => rfl
    | some a => cases answer

/-- A name is only missing when the directory has no entry for it. -/
theorem absent_openFile {e : Raised} (missing : e.isMissing = true)
    (raised : machine.Answers d (openFile name) (.error e)) : d.entries name = none := by
  obtain ⟨c, answer⟩ := Machine.Answers.query raised
  exact guard_missing missing answer

theorem absent_stat {e : Raised} (missing : e.isMissing = true)
    (raised : machine.Answers d (stat name) (.error e)) : d.entries name = none := by
  obtain ⟨c, answer⟩ := Machine.Answers.query raised
  simpa [Directory.file] using guard_missing missing answer

theorem says_present {found : Bool} (said : Says d (present name) found) (free : found = false) :
    d.entries name = none := by
  obtain ⟨answer, asked, last⟩ := Machine.Answers.bind said
  have same : found = answer.isSome := Machine.Answers.pure last
  rcases Machine.Answers.rescue asked with ⟨s, rfl, -⟩ | ⟨e, missing, -, raised⟩
  · simp [free] at same
  · exact absent_stat missing raised

theorem says_refuse {message : String} {names : List Name} (said : Says d (refuse message names) ()) :
    ∀ name ∈ names, d.entries name = none := by
  induction names with
  | nil => simp
  | cons first names ih =>
    obtain ⟨found, asked, said⟩ := Machine.Answers.bind said
    obtain ⟨_, free, rest⟩ := Machine.Answers.bind said
    have free := says_demand free
    intro name mem
    rcases List.mem_cons.mp mem with rfl | mem
    · exact says_present asked (by simpa using free)
    · exact ih rest name mem

/-- Delivery and allocation go on only before the retirement. -/
theorem says_requireNotRetired (said : Says d requireNotRetired ()) :
    d.entries .retired = none ∧ d.entries .cleaned = none := by
  have free := says_refuse said
  exact ⟨free .retired (by simp), free .cleaned (by simp)⟩

/-- A file that is checked is the one that its name stands for, as far as its state tells. -/
theorem says_fileCheck {s : FileState} (said : Says d (l.fileCheck h fd name) s) :
    (d.files fd).state = s ∧ ∃ n, d.entries name = some n ∧ (d.files n).state = s := by
  obtain ⟨_, -, said⟩ := Machine.Answers.bind said
  obtain ⟨held, opened, said⟩ := Machine.Answers.bind said
  obtain ⟨current, named, said⟩ := Machine.Answers.bind said
  obtain ⟨_, -, said⟩ := Machine.Answers.bind said
  obtain ⟨_, same, last⟩ := Machine.Answers.bind said
  have same : held = current := of_decide_eq_true (says_demand same)
  have returned : s = held := Machine.Answers.pure last
  subst same returned
  exact ⟨says_fstat opened, says_stat named⟩

/-! ### Reading in pieces -/

theorem read_further {data contents : List UInt8} {count : Nat} (sofar : data <+: contents) :
    data ++ (contents.drop data.length).take count <+: contents := by
  obtain ⟨rest, rfl⟩ := sofar
  rw [List.drop_left]
  exact List.prefix_append_right_inj data |>.mpr (List.take_prefix _ _)

/-- What was read stays a prefix of the file. -/
theorem says_readLoop {turns : Nat} {data all : List UInt8} (sofar : data <+: (d.files fd).contents)
    (said : Says d (l.readLoop fd turns data) all) : all <+: (d.files fd).contents := by
  induction turns generalizing data with
  | zero =>
    obtain rfl : all = data := Machine.Answers.pure said
    exact sofar
  | succ turns ih =>
    unfold Lease.readLoop at said
    split at said
    · obtain rfl : all = data := Machine.Answers.pure said
      exact sofar
    · obtain ⟨_, -, said⟩ := Machine.Answers.bind said
      obtain ⟨chunk, got, said⟩ := Machine.Answers.bind said
      split at said
      · obtain rfl : all = data := Machine.Answers.pure said
        exact sofar
      · obtain ⟨count, -, -, rfl⟩ := says_pread got
        exact ih (read_further sofar) said

/-- A marker that is read is the whole file. -/
theorem says_readMarker {data : List UInt8} (said : Says d (l.readMarker h name) data) :
    d.contents name = some data := by
  obtain ⟨fd, opened, said⟩ := Machine.Answers.bind said
  have said := Machine.Answers.finish said
  obtain ⟨before, checked, said⟩ := Machine.Answers.bind said
  obtain ⟨_, -, said⟩ := Machine.Answers.bind said
  obtain ⟨all, looped, said⟩ := Machine.Answers.bind said
  obtain ⟨_, whole, said⟩ := Machine.Answers.bind said
  obtain ⟨again, -, said⟩ := Machine.Answers.bind said
  obtain ⟨_, -, last⟩ := Machine.Answers.bind said
  obtain rfl : data = all := Machine.Answers.pure last
  have whole : data.length = before.size := of_decide_eq_true (says_demand whole)
  have size : before.size = (d.files fd).contents.length := by rw [← (says_fileCheck checked).1]; rfl
  have pre := says_readLoop List.nil_prefix looped
  have same : data = (d.files fd).contents := pre.eq_of_length (whole.trans size)
  have entry := says_openFile opened
  simp [Directory.contents, Directory.file, entry, same]

theorem says_readBack {turns : Nat} {data all : List UInt8} (sofar : data <+: (d.files fd).contents)
    (said : Says d (l.readBack fd turns data) all) : all <+: (d.files fd).contents := by
  induction turns generalizing data with
  | zero =>
    obtain rfl : all = data := Machine.Answers.pure said
    exact sofar
  | succ turns ih =>
    unfold Lease.readBack at said
    split at said
    · obtain rfl : all = data := Machine.Answers.pure said
      exact sofar
    · obtain ⟨_, -, said⟩ := Machine.Answers.bind said
      obtain ⟨chunk, got, said⟩ := Machine.Answers.bind said
      obtain ⟨_, -, said⟩ := Machine.Answers.bind said
      obtain ⟨count, -, -, rfl⟩ := says_pread got
      exact ih (read_further sofar) said

/-- The declared size and digest. -/
def Exact (h : Host) (i : Intent) (data : List UInt8) : Prop :=
  data.length = i.size ∧ h.sha256 data = i.payloadSha256

/-- A payload that is verified is the declared one. -/
theorem says_verifyPayload {state before : FileState}
    (said : Says d (l.verifyPayload h fd state) before) :
    Exact h l.intent (d.files fd).contents ∧ ∃ n, d.entries .payload = some n := by
  obtain ⟨first, checked, said⟩ := Machine.Answers.bind said
  obtain ⟨_, sized, said⟩ := Machine.Answers.bind said
  obtain ⟨expected, -, said⟩ := Machine.Answers.bind said
  obtain ⟨raw, -, said⟩ := Machine.Answers.bind said
  obtain ⟨_, -, said⟩ := Machine.Answers.bind said
  obtain ⟨data, looped, said⟩ := Machine.Answers.bind said
  obtain ⟨rest, ended, said⟩ := Machine.Answers.bind said
  obtain ⟨_, hashed, -⟩ := Machine.Answers.bind said
  have sized := says_demand sized
  have hashed := says_demand hashed
  simp only [Bool.and_eq_true, decide_eq_true_eq, List.isEmpty_iff] at sized hashed
  obtain ⟨held, n, entry, -⟩ := says_fileCheck checked
  obtain ⟨count, positive, -, nothing⟩ := says_pread ended
  have pre : data <+: (d.files fd).contents := says_readBack List.nil_prefix looped
  -- Nothing is left behind the bytes that were read.
  have all : (d.files fd).contents.length ≤ data.length := by
    have left := congrArg List.length (nothing.symm.trans hashed.1)
    simp only [List.length_take, List.length_drop, List.length_nil] at left
    have := positive one_pos
    omega
  have same : data = (d.files fd).contents := pre.eq_of_length_le all
  refine ⟨⟨?_, same ▸ hashed.2⟩, n, entry⟩
  rw [← sized.2, ← held]
  rfl

end FreeSdn.Artifact
