import FreeSdn.Releases.UploadStream

/-! What an upload reads, whichever way its body arrives: the form and the content of its file part follow
the callbacks of the parser alone. -/

namespace FreeSdn.Releases

open FreeSdn.Lib FreeSdn.Artifact
open FreeSdn.Audit (Uuid)

/-! ### The parser -/

namespace Callback

/-- The bytes of a part that the callback delivers. -/
def size : Callback → Nat
  | .partData data => data.length
  | _ => 0

/-- Data is delivered inside a part, and parts do not overlap. -/
def nest (inside : Bool) : Callback → Option Bool
  | .partBegin => if inside then none else some true
  | .partEnd => if inside then some false else none
  | .partData _ => if inside then some true else none
  | _ => some inside

/-- The callback touches the form alone. -/
def isFraming : Callback → Bool
  | .partData _ | .partEnd => false
  | _ => true

/-- The callback, with the bytes that it delivers one by one. -/
def letters : Callback → List Callback
  | .partData data => data.map fun b => .partData [b]
  | .headerField data => data.map fun b => .headerField [b]
  | .headerValue data => data.map fun b => .headerValue [b]
  | e => [e]

end Callback

/-- The content of the second part, in front of which `part` parts have begun. -/
def fileContent : Nat → List Callback → List UInt8
  | _, [] => []
  | part, .partBegin :: events => fileContent (part + 1) events
  | part, .partData data :: events => (if part = 2 then data else []) ++ fileContent part events
  | part, _ :: events => fileContent part events

namespace MultipartParser

variable {σ : Type} (parser : MultipartParser σ)

/-- The callbacks of several writes, and the state behind them unless one raises. -/
def feed : σ → List (List UInt8) → List Callback × Option σ
  | state, [] => ([], some state)
  | state, data :: pieces =>
    match parser.write state data with
    | (events, none) => (events, none)
    | (events, some (_, state)) => (events ++ (feed state pieces).1, (feed state pieces).2)

/-- What the upload relies on.  A body in any pieces gives the same callbacks up to how the delivered bytes
are cut, or is malformed in any pieces; a write consumes all it is given, and delivers at most that and
the bytes of a delimiter that it held back. -/
structure Streaming : Prop where
  consumes : ∀ boundary before state data events consumed state',
    (parser.feed (parser.create boundary) before).2 = some state →
      parser.write state data = (events, some (consumed, state')) → consumed = data.length
  bounded : ∀ boundary before state data, (parser.feed (parser.create boundary) before).2 = some state →
    ((parser.write state data).1.map Callback.size).sum ≤ data.length + (boundary.length + 4)
  nested : ∀ boundary pieces,
    ((parser.feed (parser.create boundary) pieces).1.foldlM Callback.nest false).isSome
  same : ∀ boundary pieces pieces', pieces.flatten = pieces'.flatten →
    (parser.feed (parser.create boundary) pieces).2.isSome →
      (parser.feed (parser.create boundary) pieces').2.isSome ∧
        (parser.feed (parser.create boundary) pieces').1.flatMap Callback.letters =
          (parser.feed (parser.create boundary) pieces).1.flatMap Callback.letters

theorem feed_append (state : σ) (first second : List (List UInt8)) :
    parser.feed state (first ++ second) = match (parser.feed state first).2 with
      | none => ((parser.feed state first).1, none)
      | some state' => ((parser.feed state first).1 ++ (parser.feed state' second).1,
          (parser.feed state' second).2) := by
  induction first generalizing state with
  | nil => simp [feed]
  | cons data first ih =>
    rw [List.cons_append, feed, feed]
    rcases parser.write state data with ⟨events, _ | ⟨consumed, state'⟩⟩
    · rfl
    · simp only [ih]
      cases (parser.feed state' first).2 <;> simp

end MultipartParser

theorem MultipartParser.feed_raises {σ : Type} {parser : MultipartParser σ} {state : σ}
    {data : List UInt8} {events : List Callback} (pieces : List (List UInt8))
    (written : parser.write state data = (events, none)) :
    parser.feed state (data :: pieces) = (events, none) := by
  rw [feed, written]

theorem MultipartParser.feed_returns {σ : Type} {parser : MultipartParser σ} {state state' : σ}
    {data : List UInt8} {events : List Callback} {consumed : Nat} (pieces : List (List UInt8))
    (written : parser.write state data = (events, some (consumed, state'))) :
    parser.feed state (data :: pieces) =
      (events ++ (parser.feed state' pieces).1, (parser.feed state' pieces).2) := by
  rw [feed, written]

/-! ### The reading -/

/-- The form, and the content of its file part so far. -/
structure Reading where
  form : Form := {}
  content : List UInt8 := []

namespace Reading

variable (readers : Readers) (operationId : Uuid) (a : Reading)

def partData (data : List UInt8) : Except Refusal Reading :=
  if a.form.part = 1 then (a.form.intentData data).map fun form => { a with form }
  else match if a.form.part = 2 then a.form.command else none with
    | none => .error malformed
    | some q =>
      if a.content.length + data.length > q.metadata.fileSize then
        .error (.http 413 "Upload exceeds the committed payload size")
      else .ok { a with content := a.content ++ data }

def partEnd : Except Refusal Reading :=
  let form := { a.form with partEnds := a.form.partEnds + 1 }
  if form.part = 1 then
    (form.decodeIntent readers operationId).map fun q =>
      { a with form := { form with command := some q, intent := [] } }
  else .ok { a with form }

def framing (e : Callback) : Except Refusal Reading :=
  (a.form.framing readers e).map fun form => { a with form }

def step (a : Reading) : Callback → Except Refusal Reading
  | .partData data => a.partData data
  | .partEnd => a.partEnd readers operationId
  | e => a.framing readers e

/-- What a callback does to a reading. -/
inductive Moves (a : Reading) : Callback → Reading → Prop
  | framing {e : Callback} {form : Form} : e.isFraming → a.form.framing readers e = .ok form →
      Moves a e { a with form }
  | intent {data : List UInt8} : a.form.part = 1 → (a.form.intent ++ data).length ≤ maxCommandBytes →
      Moves a (.partData data) { a with form := { a.form with intent := a.form.intent ++ data } }
  | file {data : List UInt8} {q : PublicationRequest} : a.form.part = 2 → a.form.command = some q →
      (a.content ++ data).length ≤ q.metadata.fileSize →
      Moves a (.partData data) { a with content := a.content ++ data }
  | decoded {q : PublicationRequest} : a.form.part = 1 → q.storageKind = .owned →
      Moves a .partEnd { a with
        form := { a.form with partEnds := a.form.partEnds + 1, command := some q, intent := [] } }
  | ended : a.form.part ≠ 1 →
      Moves a .partEnd { a with form := { a.form with partEnds := a.form.partEnds + 1 } }

/-- What holds of a reading in front of a callback, inside a part or between parts. -/
structure Framed (inside : Bool) : Prop where
  part : a.form.part = a.form.partEnds + inside.toNat
  parts : a.form.part ≤ 2
  command : a.form.command.isSome ↔ 1 ≤ a.form.partEnds
  owned : ∀ q ∈ a.form.command, q.storageKind = .owned
  intent : a.form.intent.length ≤ maxCommandBytes
  early : a.form.command = none → a.content = []
  content : ∀ q ∈ a.form.command, a.content.length ≤ q.metadata.fileSize

end Reading

/-- A callback that touches the form alone keeps its intent and its command. -/
theorem Form.framing_ok {readers : Readers} {f f' : Form} {e : Callback} (h : f.framing readers e = .ok f') :
    (f'.partEnds = f.partEnds ∧ f'.command = f.command ∧ f'.intent = f.intent) ∧
      (e = .partBegin → f'.part = f.part + 1 ∧ f.part + 1 ≤ 2) ∧ (e ≠ .partBegin → f'.part = f.part) ∧
      (e ≠ .finished → f'.ended = f.ended) := by
  cases e with
  | partBegin =>
    simp only [framing, partBegin] at h
    split at h
    · cases h
    · rename_i few
      obtain rfl := Except.ok.inj h
      exact ⟨⟨rfl, rfl, rfl⟩, fun _ => ⟨rfl, Nat.le_of_not_lt few⟩, fun other => absurd rfl other, fun _ => rfl⟩
  | headerEnd =>
    simp only [framing, headerEnd] at h
    split at h
    · cases h
    · obtain rfl := Except.ok.inj h
      simp
  | headersFinished =>
    simp only [framing, headersFinished] at h
    obtain ⟨-, h⟩ := require_bind h
    split at h
    · obtain ⟨-, h⟩ := require_bind h
      obtain ⟨_, -, h⟩ := bind_ok h
      obtain rfl := Except.ok.inj h
      simp
    · obtain ⟨_, -, h⟩ := bind_ok h
      obtain rfl := Except.ok.inj h
      simp
  | finished =>
    simp only [framing, finish] at h
    split at h
    · cases h
    · obtain rfl := Except.ok.inj h
      simp
  | _ =>
    obtain rfl := Except.ok.inj h
    simp

theorem Form.intentData_ok {f f' : Form} {data : List UInt8} (h : f.intentData data = .ok f') :
    f' = { f with intent := f.intent ++ data } ∧ (f.intent ++ data).length ≤ maxCommandBytes := by
  unfold intentData at h
  split at h
  · cases h
  · rename_i fits
    refine ⟨(Except.ok.inj h).symm, ?_⟩
    rw [List.length_append]
    exact Nat.le_of_not_lt fits

theorem Form.decodeIntent_owned {readers : Readers} {f : Form} {operationId : Uuid} {q : PublicationRequest}
    (h : f.decodeIntent readers operationId = .ok q) : q.storageKind = .owned := by
  unfold decodeIntent at h
  split at h
  · cases h
  · split at h
    · rename_i matching
      obtain rfl := Except.ok.inj h
      exact matching.1
    · cases h
  · cases h

namespace Reading

variable {readers : Readers} {operationId : Uuid} {a a' : Reading}

theorem step_framing {e : Callback} (framing : e.isFraming) :
    a.step readers operationId e = a.framing readers e := by
  cases e
  case partData => cases framing
  case partEnd => cases framing
  all_goals rfl

theorem step_moves {e : Callback} (h : a.step readers operationId e = .ok a') : a.Moves readers e a' := by
  by_cases framing : e.isFraming
  · rw [step_framing framing] at h
    obtain ⟨form, kept, rfl⟩ := map_ok h
    exact .framing framing kept
  cases e
  case partData data =>
    simp only [step, partData] at h
    split at h
    · rename_i first
      obtain ⟨form, taken, rfl⟩ := map_ok h
      obtain ⟨rfl, fits⟩ := Form.intentData_ok taken
      exact .intent first fits
    split at h
    · cases h
    rename_i q known
    split at h
    · cases h
    rename_i fits
    obtain rfl := Except.ok.inj h
    split at known
    · rename_i second
      refine .file second known ?_
      rw [List.length_append]
      exact Nat.le_of_not_lt fits
    · cases known
  case partEnd =>
    simp only [step, partEnd] at h
    split at h
    · rename_i first
      obtain ⟨q, decoded, rfl⟩ := map_ok h
      have onlyPart : a.form.partEnds + 1 = a.form.partEnds + 1 := rfl
      exact .decoded first (Form.decodeIntent_owned decoded)
    · rename_i other
      obtain rfl := Except.ok.inj h
      exact .ended other
  all_goals exact absurd rfl framing

theorem nest_framing {inside inside' : Bool} {e : Callback} (framing : e.isFraming)
    (nests : Callback.nest inside e = some inside') :
    e = .partBegin ∧ inside = false ∧ inside' = true ∨ e ≠ .partBegin ∧ inside' = inside := by
  cases e
  case partBegin => cases inside <;> simp_all [Callback.nest]
  case partData => cases framing
  case partEnd => cases framing
  all_goals simp_all [Callback.nest]

theorem nest_partData {inside inside' : Bool} {data : List UInt8}
    (nests : Callback.nest inside (.partData data) = some inside') : inside = true ∧ inside' = true := by
  cases inside <;> simp_all [Callback.nest]

theorem nest_partEnd {inside inside' : Bool} (nests : Callback.nest inside .partEnd = some inside') :
    inside = true ∧ inside' = false := by
  cases inside <;> simp_all [Callback.nest]

theorem Framed.next {inside inside' : Bool} {e : Callback} (framed : a.Framed inside)
    (nests : Callback.nest inside e = some inside') (h : a.step readers operationId e = .ok a') :
    a'.Framed inside' := by
  obtain ⟨part, parts, command, owned, intent, early, content⟩ := framed
  cases step_moves h with
  | framing framing kept =>
    obtain ⟨⟨ends, sameCommand, sameIntent⟩, begins, stays, -⟩ := Form.framing_ok kept
    refine ⟨?_, ?_, ?_, ?_, ?_, ?_, ?_⟩
    · rcases nest_framing framing nests with ⟨first, rfl, rfl⟩ | ⟨other, rfl⟩
      · simp only [begins first, ends, part, Bool.toNat_false, Bool.toNat_true]
      · simp only [stays other, ends, part]
    · by_cases first : e = .partBegin
      · obtain ⟨next, few⟩ := begins first
        simp only [next, few]
      · simp only [stays first, parts]
    · simpa only [sameCommand, ends] using command
    · simpa only [sameCommand] using owned
    · simpa only [sameIntent] using intent
    · simpa only [sameCommand] using early
    · simpa only [sameCommand] using content
  | intent first fits =>
    obtain ⟨rfl, rfl⟩ := nest_partData nests
    exact ⟨part, parts, command, owned, fits, early, content⟩
  | file second known fits =>
    obtain ⟨rfl, rfl⟩ := nest_partData nests
    refine ⟨part, parts, command, owned, intent, ?_, ?_⟩
    · intro unknown
      rw [known] at unknown
      cases unknown
    · intro q mem
      obtain rfl := Option.some.inj (known.symm.trans mem)
      exact fits
  | decoded first isOwned =>
    obtain ⟨rfl, rfl⟩ := nest_partEnd nests
    have unknown : a.form.command = none := by
      rw [← Option.not_isSome_iff_eq_none, command]
      simp only [Bool.toNat_true] at part
      omega
    refine ⟨?_, parts, by simp, ?_, Nat.zero_le _, by simp, ?_⟩
    · simpa using part
    · rintro q ⟨⟩
      exact isOwned
    · rintro q ⟨⟩
      simp [early unknown]
  | ended other =>
    obtain ⟨rfl, rfl⟩ := nest_partEnd nests
    refine ⟨by simpa using part, parts, ?_, owned, intent, early, content⟩
    simp only [Bool.toNat_true] at part
    simp only [command]
    omega

/-- An intent that is decoded stays. -/
theorem Framed.keeps_command {inside inside' : Bool} {e : Callback} {q : PublicationRequest}
    (framed : a.Framed inside) (nests : Callback.nest inside e = some inside')
    (h : a.step readers operationId e = .ok a') (known : a.form.command = some q) :
    a'.form.command = some q := by
  cases step_moves h with
  | framing _ kept => simpa only [(Form.framing_ok kept).1.2.1] using known
  | intent => exact known
  | file => exact known
  | decoded first =>
    obtain ⟨rfl, rfl⟩ := nest_partEnd nests
    have late := framed.command.mp (by simp [known])
    have part := framed.part
    simp only [Bool.toNat_true] at part
    omega
  | ended => exact known

/-- What holds of a reading after a run of callbacks. -/
theorem Framed.run {inside inside' : Bool} {events : List Callback} (framed : a.Framed inside)
    (nests : events.foldlM Callback.nest inside = some inside')
    (h : events.foldlM (step readers operationId) a = .ok a') :
    a'.Framed inside' ∧ ∀ q, a.form.command = some q → a'.form.command = some q := by
  induction events generalizing a inside with
  | nil =>
    obtain rfl := Option.some.inj nests
    obtain rfl := Except.ok.inj h
    exact ⟨framed, fun _ => id⟩
  | cons e events ih =>
    rw [List.foldlM_cons] at nests h
    obtain ⟨between, first, rest⟩ := Option.bind_eq_some_iff.mp nests
    obtain ⟨next, one, more⟩ := bind_ok h
    obtain ⟨after, keeps⟩ := ih (framed.next first one) rest more
    exact ⟨after, fun q known => keeps q (framed.keeps_command first one known)⟩

/-- The content of a reading is what the parser delivered in the second part. -/
theorem run_content {events : List Callback} (h : events.foldlM (step readers operationId) a = .ok a') :
    a'.content = a.content ++ fileContent a.form.part events := by
  induction events generalizing a with
  | nil =>
    obtain rfl := Except.ok.inj h
    simp [fileContent]
  | cons e events ih =>
    rw [List.foldlM_cons] at h
    obtain ⟨next, one, more⟩ := bind_ok h
    rw [ih more]
    cases step_moves one with
    | framing framing kept =>
      obtain ⟨-, begins, stays, -⟩ := Form.framing_ok kept
      by_cases first : e = .partBegin
      · simp only [first, fileContent, (begins first).1]
      · cases e <;> simp_all [fileContent, Callback.isFraming]
    | intent first _ => simp [fileContent, first]
    | file second _ _ => simp [fileContent, second]
    | decoded first _ => simp [fileContent]
    | ended other => simp [fileContent]

/-! ### How the bytes are cut -/

theorem partData_ok {data : List UInt8} : a.partData data = .ok a' ↔
    (a.form.part = 1 ∧ a.form.intent.length + data.length ≤ maxCommandBytes ∧
      a' = { a with form := { a.form with intent := a.form.intent ++ data } }) ∨
    ∃ q, a.form.part = 2 ∧ a.form.command = some q ∧
      a.content.length + data.length ≤ q.metadata.fileSize ∧ a' = { a with content := a.content ++ data } := by
  unfold partData Form.intentData
  by_cases first : a.form.part = 1
  · by_cases fits : a.form.intent.length + data.length ≤ maxCommandBytes
    · simp [first, fits, Except.map, Nat.not_lt.mpr fits, eq_comm]
    · simp [first, fits, Except.map, Nat.lt_of_not_le fits]
  by_cases second : a.form.part = 2
  · cases known : a.form.command with
    | none => simp [second]
    | some q =>
      by_cases fits : a.content.length + data.length ≤ q.metadata.fileSize
      · simp [second, fits, Nat.not_lt.mpr fits, eq_comm]
      · simp [second, fits, Nat.lt_of_not_le fits]
  · simp [first, second]

/-- No data changes nothing. -/
theorem partData_nil (framed : a.Framed true) : a.partData [] = .ok a := by
  have part := framed.part
  have parts := framed.parts
  simp only [Bool.toNat_true] at part
  rw [partData_ok]
  by_cases first : a.form.part = 1
  · exact Or.inl ⟨first, framed.intent, by simp⟩
  · obtain ⟨q, known⟩ := Option.isSome_iff_exists.mp (framed.command.mpr (by omega))
    exact Or.inr ⟨q, by omega, known, framed.content q known, by simp⟩

theorem partData_append {first second : List UInt8} : a.partData (first ++ second) = .ok a' ↔
    ∃ next, a.partData first = .ok next ∧ next.partData second = .ok a' := by
  constructor
  · rw [partData_ok]
    rintro (⟨part, fits, rfl⟩ | ⟨q, part, known, fits, rfl⟩)
    · rw [List.length_append] at fits
      refine ⟨_, partData_ok.mpr (Or.inl ⟨part, by omega, rfl⟩), partData_ok.mpr (Or.inl ⟨part, ?_, ?_⟩)⟩
      · simp only [List.length_append]
        omega
      · simp
    · rw [List.length_append] at fits
      refine ⟨_, partData_ok.mpr (Or.inr ⟨q, part, known, by omega, rfl⟩),
        partData_ok.mpr (Or.inr ⟨q, part, known, ?_, ?_⟩)⟩
      · simp only [List.length_append]
        omega
      · simp
  · rintro ⟨next, one, two⟩
    rw [partData_ok] at one two
    rcases one with ⟨part, fits, rfl⟩ | ⟨q, part, known, fits, rfl⟩
    · rcases two with ⟨-, fits', rfl⟩ | ⟨-, other, -⟩
      · refine partData_ok.mpr (Or.inl ⟨part, ?_, by simp⟩)
        simp only [List.length_append] at fits' ⊢
        omega
      · simp only [part] at other
        cases other
    · rcases two with ⟨other, -⟩ | ⟨q', -, known', fits', rfl⟩
      · simp only [part] at other
        cases other
      · obtain rfl := Option.some.inj (known.symm.trans known')
        refine partData_ok.mpr (Or.inr ⟨q, part, known, ?_, by simp⟩)
        simp only [List.length_append] at fits' ⊢
        omega

/-- Data in single bytes is read like data in one piece. -/
theorem letters_partData (data : List UInt8) (framed : a.Framed true) :
    (data.map fun b => Callback.partData [b]).foldlM (step readers operationId) a = .ok a' ↔
      a.partData data = .ok a' := by
  induction data generalizing a with
  | nil =>
    rw [partData_nil framed]
    rfl
  | cons b data ih =>
    rw [List.map_cons, foldlM_cons_ok, ← @List.singleton_append _ b data, partData_append]
    refine exists_congr fun next => and_congr_right fun one => ih ?_
    have nests : Callback.nest true (.partData [b]) = some true := rfl
    exact framed.next nests one

theorem letters_framing {data : List UInt8} {piece : List UInt8 → Callback} {write : Form → List UInt8 → Form}
    (one : ∀ (a : Reading) bs, a.step readers operationId (piece bs) = .ok { a with form := write a.form bs })
    (append : ∀ f bs cs, write (write f bs) cs = write f (bs ++ cs)) (none_ : ∀ f, write f [] = f) :
    (data.map fun b => piece [b]).foldlM (step readers operationId) a =
      .ok { a with form := write a.form data } := by
  induction data generalizing a with
  | nil =>
    rw [none_]
    rfl
  | cons b data ih =>
    rw [List.map_cons, List.foldlM_cons, ok_bind (one a [b]), ih, append, List.singleton_append]

theorem letters_step {inside inside' : Bool} {e : Callback} (framed : a.Framed inside)
    (nests : Callback.nest inside e = some inside') :
    e.letters.foldlM (step readers operationId) a = .ok a' ↔ a.step readers operationId e = .ok a' := by
  have single (e : Callback) : [e].foldlM (step readers operationId) a = .ok a' ↔
      a.step readers operationId e = .ok a' := by
    rw [foldlM_cons_ok]
    constructor
    · rintro ⟨next, one, last⟩
      obtain rfl := Except.ok.inj last
      exact one
    · exact fun one => ⟨a', one, rfl⟩
  cases e
  case partData data =>
    obtain ⟨rfl, -⟩ := nest_partData nests
    exact letters_partData data framed
  case headerField data =>
    have whole : a.step readers operationId (.headerField data) =
        .ok { a with form := { a.form with field := a.form.field ++ data } } := rfl
    rw [whole]
    let write (f : Form) (bs : List UInt8) : Form := { f with field := f.field ++ bs }
    rw [Callback.letters, @letters_framing _ _ _ data .headerField write (fun _ _ => rfl)
      (by simp [write]) (by simp [write])]
  case headerValue data =>
    have whole : a.step readers operationId (.headerValue data) =
        .ok { a with form := { a.form with value := a.form.value ++ data } } := rfl
    rw [whole]
    let write (f : Form) (bs : List UInt8) : Form := { f with value := f.value ++ bs }
    rw [Callback.letters, @letters_framing _ _ _ data .headerValue write (fun _ _ => rfl)
      (by simp [write]) (by simp [write])]
  all_goals exact single _

/-- What is read does not depend on how the bytes are cut. -/
theorem run_letters {inside inside' : Bool} {events : List Callback} (framed : a.Framed inside)
    (nests : events.foldlM Callback.nest inside = some inside') :
    (events.flatMap Callback.letters).foldlM (step readers operationId) a = .ok a' ↔
      events.foldlM (step readers operationId) a = .ok a' := by
  induction events generalizing a inside with
  | nil => exact Iff.rfl
  | cons e events ih =>
    rw [List.foldlM_cons] at nests
    obtain ⟨between, first, rest⟩ := Option.bind_eq_some_iff.mp nests
    rw [List.flatMap_cons, foldlM_append_ok, foldlM_cons_ok]
    refine exists_congr fun next => ?_
    rw [letters_step framed first]
    exact and_congr_right fun one => ih (framed.next first one) rest

end Reading

end FreeSdn.Releases
