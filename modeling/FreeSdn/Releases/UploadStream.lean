import FreeSdn.Releases.Request
import FreeSdn.Lib.Decimal
import FreeSdn.Lib.Except

/-! The bounded multipart upload of one agent release (`services/agent_release_upload_stream.py`).  The
multipart parser and the readers of headers and of JSON are parameters. -/

namespace FreeSdn.Releases

open FreeSdn.Lib FreeSdn.Artifact
open FreeSdn.Audit (Uuid)

/-- `_FEED`. -/
def feedSize : Nat := 65536

def maxCommandBytes : Nat := 300 * 1024

/-- `_MAX_FILE`. -/
def maxFile : Nat := 500 * 1024 * 1024

/-- `_OVERHEAD`. -/
def overhead : Nat := 65536

/-- The bytes of an ASCII literal. -/
def ascii (s : String) : List UInt8 := s.toList.map fun c => UInt8.ofNat c.toNat

/-- `bytes.lower`. -/
def lowerBytes (bs : List UInt8) : List UInt8 := bs.map fun b => if 65 ≤ b ∧ b ≤ 90 then b + 32 else b

/-- The call of a parser callback. -/
inductive Callback
  | partBegin
  | headerField (data : List UInt8)
  | headerValue (data : List UInt8)
  | headerEnd
  | headersFinished
  | partData (data : List UInt8)
  | partEnd
  | finished

/-- `MultipartParser`: a write calls back, and then returns how many bytes it consumed or raises. -/
structure MultipartParser (σ : Type) where
  create : List UInt8 → σ
  write : σ → List UInt8 → List Callback × Option (Nat × σ)

/-- The intent as `_INTENT.validate_json` returns it.  Metadata is there when it has exactly its fields,
of their types. -/
inductive CommandIntent
  | publish (operationId releaseId : Uuid) (organizationId : Option Uuid) (storageKind : StorageKind)
      (metadata : Option Metadata)
  | delete (operationId releaseId : Uuid) (organizationId : Option Uuid)
      (target : Option (Metadata × Option String × Stamp))

inductive Command
  | publication (q : PublicationRequest)
  | deletion (q : DeletionRequest)

/-- What reads the texts of an upload. -/
structure Readers where
  /-- `parse_options_header`. -/
  parseOptionsHeader : List UInt8 → List UInt8 × List (List UInt8 × List UInt8)
  /-- The bytes are UTF-8, and `json.loads` with `_unique_object` returns a value that `_encode` accepts. -/
  isCanonicalJson : List UInt8 → Bool
  /-- `_INTENT.validate_json`, which may raise. -/
  validateJson : List UInt8 → Option CommandIntent

/-- `PublicationIntent.command` and `DeletionIntent.command`. -/
def CommandIntent.command : CommandIntent → Option Command
  | .publish operationId releaseId organizationId storageKind metadata => do
    let m ← metadata
    if h : publicationValid operationId releaseId organizationId storageKind m = true then
      some (.publication ⟨operationId, releaseId, organizationId, storageKind, m, h⟩)
    else none
  | .delete operationId releaseId organizationId target => do
    let (m, signature, publishedAt) ← target
    if h : deletionValid operationId releaseId organizationId m signature publishedAt = true then
      some (.deletion ⟨operationId, releaseId, organizationId, m, signature, publishedAt, h⟩)
    else none

/-- `decode_release_command`; nothing for the exceptions that the upload turns into its own. -/
def decodeReleaseCommand (readers : Readers) (raw : List UInt8) : Option Command :=
  if 1 ≤ raw.length ∧ raw.length ≤ maxCommandBytes ∧ readers.isCanonicalJson raw then
    (readers.validateJson raw).bind CommandIntent.command
  else none

/-- `_invalid`. -/
def invalid (detail : String) : Refusal := .http 400 detail

def malformed : Refusal := invalid "Malformed release upload; preserve and inspect the operation"

/-! ### The form -/

/-- What the callbacks know of the form. -/
structure Form where
  part : Nat := 0
  partEnds : Nat := 0
  headers : List (List UInt8 × List UInt8) := []
  field : List UInt8 := []
  value : List UInt8 := []
  intent : List UInt8 := []
  command : Option PublicationRequest := none
  ended : Bool := false

namespace Form

variable (readers : Readers) (f : Form)

def partBegin : Except Refusal Form :=
  if f.part + 1 > 2 then .error (invalid "Upload permits exactly one intent and one file")
  else .ok { f with part := f.part + 1, headers := [], field := [], value := [] }

def headerEnd : Except Refusal Form :=
  let name := lowerBytes f.field
  if (f.headers.any (·.1 = name)) ∨ name ∉ [ascii "content-disposition", ascii "content-type"] then
    .error (invalid "Duplicate or unsupported upload part header")
  else .ok { f with headers := f.headers ++ [(name, f.value)], field := [], value := [] }

/-- `self._headers.get`. -/
def header (name : String) : Option (List UInt8) := (f.headers.find? (·.1 = ascii name)).map (·.2)

def headersFinished : Except Refusal Form := do
  let (disposition, options) := readers.parseOptionsHeader ((f.header "content-disposition").getD [])
  let kind (contentType : List UInt8) := (readers.parseOptionsHeader contentType).1
  let name := (options.find? (·.1 = ascii "name")).map (·.2)
  let hasFilename := options.any (·.1 = ascii "filename")
  require (disposition = ascii "form-data") (invalid "Upload part requires form-data disposition")
  if f.part = 1 then do
    require (name = some (ascii "intent") && !hasFilename) (invalid "Upload must begin with the intent field")
    require ((f.header "content-type").all fun contentType => kind contentType = ascii "application/json")
      (.http 415 "Upload intent must be JSON")
  else
    require (f.command.isSome && name = some (ascii "file") && hasFilename &&
        !(ascii "multipart/").isPrefixOf (kind ((f.header "content-type").getD [])))
      (invalid "Intent must be followed by one binary file part")
  return f

/-- A piece of the intent. -/
def intentData (data : List UInt8) : Except Refusal Form :=
  if f.intent.length + data.length > maxCommandBytes then .error (.http 413 "Upload intent exceeds its bound")
  else .ok { f with intent := f.intent ++ data }

/-- The command of the first part, when it is complete. -/
def decodeIntent (operationId : Uuid) : Except Refusal PublicationRequest :=
  match decodeReleaseCommand readers f.intent with
  | none => .error (.http 422 "Invalid upload operation intent")
  | some (.publication q) =>
    if q.storageKind = .owned ∧ q.operationId = operationId then .ok q
    else .error (.http 422 "Upload requires matching owned publication intent")
  | some (.deletion _) => .error (.http 422 "Upload requires matching owned publication intent")

def finish : Except Refusal Form :=
  if f.part ≠ 2 ∨ f.partEnds ≠ 2 then .error (invalid "Upload is missing its binary part")
  else .ok { f with ended := true }

/-- The callbacks that touch the form alone. -/
def framing : Callback → Except Refusal Form
  | .partBegin => f.partBegin
  | .headerField data => .ok { f with field := f.field ++ data }
  | .headerValue data => .ok { f with value := f.value ++ data }
  | .headerEnd => f.headerEnd
  | .headersFinished => f.headersFinished readers
  | .finished => f.finish
  | .partData _ | .partEnd => .ok f

end Form

/-- `limit`, bound to the intent. -/
def intentLimit (q : PublicationRequest) : Nat := q.metadata.fileSize + maxCommandBytes + overhead

/-- `limit` before there is an intent. -/
def wireLimit : Nat := maxFile + maxCommandBytes + overhead

/-! ### The stream -/

/-- `request.stream()` with the piece of it that is being fed. -/
structure Transport where
  incoming : List (List UInt8)
  buffer : List UInt8
  offset : Nat
  eof : Bool
  inside : offset ≤ buffer.length

namespace Transport

/-- `data`: the next bytes of the buffer. -/
def data (t : Transport) : List UInt8 := (t.buffer.drop t.offset).take feedSize

theorem data_inside (t : Transport) : t.offset + t.data.length ≤ t.buffer.length := by
  have := t.inside
  simp only [data, List.length_take, List.length_drop]
  omega

/-- The offset behind `data`. -/
def advance (t : Transport) : Transport := { t with offset := t.offset + t.data.length, inside := t.data_inside }

/-- A chunk of the body in an empty buffer. -/
def receive (chunk : List UInt8) (incoming : List (List UInt8)) : Transport :=
  ⟨incoming, chunk, 0, false, Nat.zero_le _⟩

def finish (t : Transport) : Transport := { t with eof := true }

end Transport

/-- `ReleaseUploadStream`. -/
structure UploadStream (σ : Type) where
  declared : Option Nat
  operationId : Uuid
  limit : Nat := wireLimit
  received : Nat := 0
  fileBytes : Nat := 0
  queuedBytes : Nat := 0
  payload : List (List UInt8) := []
  closed : Bool := false
  consumed : Bool := false
  form : Form := {}
  transport : Transport
  parser : σ

namespace UploadStream

variable {σ : Type} (readers : Readers) (parser : MultipartParser σ) (s : UploadStream σ)

def partData (data : List UInt8) : Except Refusal (UploadStream σ) :=
  if s.form.part = 1 then (s.form.intentData data).map fun form => { s with form }
  else match if s.form.part = 2 then s.form.command else none with
    | none => .error malformed
    | some q =>
      let fileBytes := s.fileBytes + data.length
      if fileBytes > q.metadata.fileSize then .error (.http 413 "Upload exceeds the committed payload size")
      else if s.queuedBytes + data.length > 2 * feedSize then
        .error (.http 503 "Upload parser backpressure bound exceeded")
      else if data = [] then .ok { s with fileBytes }
      else .ok { s with
        fileBytes, payload := s.payload ++ [data], queuedBytes := s.queuedBytes + data.length }

def partEnd : Except Refusal (UploadStream σ) :=
  let form := { s.form with partEnds := s.form.partEnds + 1 }
  if form.part = 1 then
    match form.decodeIntent readers s.operationId with
    | .error e => .error e
    | .ok q =>
      if s.received > intentLimit q ∨ s.declared.any (· > intentLimit q) then
        .error (.http 413 "Upload exceeds its intent-bound wire limit")
      else .ok { s with limit := intentLimit q, form := { form with command := some q, intent := [] } }
  else .ok { s with form }

/-- A callback that touches the form alone. -/
def framing (e : Callback) : Except Refusal (UploadStream σ) :=
  (s.form.framing readers e).map fun form => { s with form }

def handle (s : UploadStream σ) : Callback → Except Refusal (UploadStream σ)
  | .partData data => s.partData data
  | .partEnd => s.partEnd readers
  | e => s.framing readers e

/-- What the end of the body requires.  `finalize` calls nothing back. -/
def checkEnd : Except Refusal Unit :=
  require (s.form.ended && s.form.command.any (fun q => s.fileBytes = q.metadata.fileSize) &&
      s.declared.all fun declared => s.received = declared)
    (invalid "Upload ended before its verified framing and size")

/-- The piece is counted, bounded and written to the parser. -/
def feed (data : List UInt8) : Except Refusal (UploadStream σ) := do
  let s := { s with received := s.received + data.length }
  require (!(s.received > s.limit || s.declared.any fun declared => s.received > declared))
    (.http 413 "Upload wire size exceeds its bound")
  let (events, written) := parser.write s.parser data
  let s ← events.foldlM (handle readers) s
  match written with
  | none => .error malformed
  | some (consumed, state) =>
    require (consumed = data.length) (invalid "Upload parser did not consume its complete bounded input")
    return { s with parser := state }

/-- The next piece of what was received, in a buffer that is not used up. -/
def feedBuffer (t : Transport) : Except Refusal (UploadStream σ) :=
  feed readers parser { s with transport := t.advance } t.data

/-- `_pump`, of a body that neither times out nor disconnects. -/
def pump : Except Refusal (UploadStream σ) :=
  if s.closed ∨ s.transport.eof then .error (invalid "Upload stream is no longer available")
  else if s.transport.offset = s.transport.buffer.length then
    match s.transport.incoming with
    | [] =>
      let s := { s with transport := s.transport.finish }
      s.checkEnd.map fun _ => s
    | chunk :: incoming => s.feedBuffer readers parser (.receive chunk incoming)
  else s.feedBuffer readers parser s.transport

/-- The turns that are left: one for each chunk and byte of the body, and one for its end. -/
def rounds : Nat :=
  (s.transport.buffer.length - s.transport.offset) +
    (s.transport.incoming.map fun chunk => chunk.length + 1).sum + if s.transport.eof then 0 else 1

variable {readers parser s} {s' : UploadStream σ}

/-- Everything but the form, the counts of the file and the limit. -/
structure Keeps (s s' : UploadStream σ) : Prop where
  transport : s'.transport = s.transport
  closed : s'.closed = s.closed
  consumed : s'.consumed = s.consumed
  parser : s'.parser = s.parser
  received : s'.received = s.received
  declared : s'.declared = s.declared
  operationId : s'.operationId = s.operationId

theorem Keeps.refl (s : UploadStream σ) : Keeps s s := ⟨rfl, rfl, rfl, rfl, rfl, rfl, rfl⟩

theorem Keeps.trans {s t u : UploadStream σ} (first : Keeps s t) (second : Keeps t u) : Keeps s u :=
  ⟨second.transport.trans first.transport, second.closed.trans first.closed,
    second.consumed.trans first.consumed, second.parser.trans first.parser,
    second.received.trans first.received, second.declared.trans first.declared,
    second.operationId.trans first.operationId⟩

theorem partData_keeps {data : List UInt8} (h : s.partData data = .ok s') : Keeps s s' := by
  unfold partData at h
  split at h
  · obtain ⟨form, -, rfl⟩ := map_ok h
    exact ⟨rfl, rfl, rfl, rfl, rfl, rfl, rfl⟩
  split at h
  · cases h
  simp only at h
  split at h
  · cases h
  split at h
  · cases h
  split at h
  · obtain rfl := Except.ok.inj h
    exact ⟨rfl, rfl, rfl, rfl, rfl, rfl, rfl⟩
  · obtain rfl := Except.ok.inj h
    exact ⟨rfl, rfl, rfl, rfl, rfl, rfl, rfl⟩

theorem partEnd_keeps (h : s.partEnd readers = .ok s') : Keeps s s' := by
  unfold partEnd at h
  simp only at h
  split at h
  · split at h
    · cases h
    split at h
    · cases h
    · obtain rfl := Except.ok.inj h
      exact ⟨rfl, rfl, rfl, rfl, rfl, rfl, rfl⟩
  · obtain rfl := Except.ok.inj h
    exact ⟨rfl, rfl, rfl, rfl, rfl, rfl, rfl⟩

theorem handle_keeps {e : Callback} (h : s.handle readers e = .ok s') : Keeps s s' := by
  cases e
  case partData data => exact partData_keeps h
  case partEnd => exact partEnd_keeps h
  all_goals
    obtain ⟨form, -, rfl⟩ := map_ok (show s.framing readers _ = .ok s' from h)
    exact ⟨rfl, rfl, rfl, rfl, rfl, rfl, rfl⟩

theorem foldlM_keeps {events : List Callback} (h : events.foldlM (handle readers) s = .ok s') : Keeps s s' :=
  foldlM_ok (P := Keeps s) (fun _ _ _ kept next => kept.trans (handle_keeps next)) (Keeps.refl s) h

theorem feed_transport {data : List UInt8} (h : s.feed readers parser data = .ok s') :
    s'.transport = s.transport := by
  obtain ⟨-, h⟩ := require_bind h
  obtain ⟨t, handled, h⟩ := bind_ok h
  split at h
  · cases h
  · obtain ⟨-, h⟩ := require_bind h
    obtain rfl := Except.ok.inj h
    exact (foldlM_keeps handled).transport

theorem feed_consumed {data : List UInt8} (h : s.feed readers parser data = .ok s') :
    s'.consumed = s.consumed := by
  obtain ⟨-, h⟩ := require_bind h
  obtain ⟨t, handled, h⟩ := bind_ok h
  split at h
  · cases h
  · obtain ⟨-, h⟩ := require_bind h
    obtain rfl := Except.ok.inj h
    exact (foldlM_keeps handled).consumed

theorem pump_consumed (h : s.pump readers parser = .ok s') : s'.consumed = s.consumed := by
  unfold pump at h
  split at h
  · cases h
  split at h
  · split at h
    · obtain ⟨-, -, rfl⟩ := map_ok h
      rfl
    · exact (feed_consumed h).trans rfl
  · exact (feed_consumed h).trans rfl

theorem pump_rounds (h : s.pump readers parser = .ok s') : s'.rounds < s.rounds := by
  unfold pump at h
  split at h
  · cases h
  rename_i live
  have running : s.transport.eof = false := by simpa using fun ended => live (Or.inr ended)
  split at h
  · rename_i used
    split at h
    · rename_i last
      obtain ⟨-, -, rfl⟩ := map_ok h
      simp [rounds, Transport.finish, running]
    · rename_i chunk incoming next
      have moved := feed_transport h
      simp only [rounds, moved, running, next, List.map_cons, List.sum_cons]
      simp [Transport.advance, Transport.receive, Transport.data]
      omega
  · rename_i more
    have moved := feed_transport h
    have room := s.transport.inside
    simp only [rounds, moved, running]
    simp [Transport.advance, Transport.data, running, feedSize]
    omega

/-! ### The intent -/

variable (readers parser)

/-- The loop of `read_intent`. -/
def awaitIntent (s : UploadStream σ) : Except Refusal (UploadStream σ × PublicationRequest) :=
  match s.form.command with
  | some q => .ok (s, q)
  | none =>
    match _pumped : s.pump readers parser with
    | .error e => .error e
    | .ok s' => awaitIntent s'
termination_by s.rounds
decreasing_by exact pump_rounds _pumped

def readIntent (s : UploadStream σ) : Except Refusal (UploadStream σ × PublicationRequest) :=
  if s.closed ∨ s.form.command.isSome then .error (invalid "Upload intent cannot be read twice")
  else s.awaitIntent readers parser

/-! ### The blocks -/

/-- `pending`: less than a block. -/
abbrev Pending := { bytes : List UInt8 // bytes.length < feedSize }

/-- `count`: how much of the piece fits into the block. -/
def Pending.count (pending : Pending) (chunk : List UInt8) : Nat :=
  min (feedSize - pending.val.length) chunk.length

def Pending.filled (pending : Pending) (chunk : List UInt8) : List UInt8 :=
  pending.val ++ chunk.take (pending.count chunk)

theorem Pending.filled_le (pending : Pending) (chunk : List UInt8) :
    (pending.filled chunk).length ≤ feedSize := by
  have short := pending.property
  simp only [filled, count, List.length_append, List.length_take]
  omega

theorem Pending.drop_lt (pending : Pending) {chunk : List UInt8} (some_ : chunk ≠ []) :
    (chunk.drop (pending.count chunk)).length < chunk.length := by
  have short := pending.property
  have positive := List.length_pos_iff.mpr some_
  simp only [count, List.length_drop]
  omega

/-- What a piece of the payload completes, and what stays pending. -/
def coalesce (pending : Pending) (chunk : List UInt8) : List (List UInt8) × Pending :=
  if _some : chunk = [] then ([], pending)
  else
    let rest := chunk.drop (pending.count chunk)
    if full : (pending.filled chunk).length = feedSize then
      let more := coalesce ⟨[], Nat.zero_lt_succ _⟩ rest
      (pending.filled chunk :: more.1, more.2)
    else coalesce ⟨pending.filled chunk, Nat.lt_of_le_of_ne (pending.filled_le chunk) full⟩ rest
termination_by chunk.length
decreasing_by all_goals exact pending.drop_lt _some

/-- The loop of `chunks`: the blocks that it yields, and how it ends. -/
def yieldBlocks (s : UploadStream σ) (pending : Pending) :
    List (List UInt8) × Except Refusal (UploadStream σ × Pending) :=
  match _queue : s.payload with
  | chunk :: payload =>
    let (blocks, pending) := coalesce pending chunk
    let rest := yieldBlocks { s with payload, queuedBytes := s.queuedBytes - chunk.length } pending
    (blocks ++ rest.1, rest.2)
  | [] =>
    if s.transport.eof then ([], .ok (s, pending))
    else match _pumped : s.pump readers parser with
      | .error e => ([], .error e)
      | .ok s' => yieldBlocks s' pending
termination_by (s.rounds, s.payload.length)
decreasing_by
  · rw [_queue]
    exact Prod.Lex.right _ (Nat.lt_succ_self _)
  · exact Prod.Lex.left _ _ (pump_rounds _pumped)

/-- `chunks`, exhausted. -/
def chunks (s : UploadStream σ) : List (List UInt8) × Except Refusal (UploadStream σ) :=
  if s.closed ∨ s.consumed ∨ s.form.command.isNone then
    ([], .error (invalid "Upload payload requires one validated intent and consumer"))
  else
    let out := { s with consumed := true }.yieldBlocks readers parser ⟨[], Nat.zero_lt_succ _⟩
    match out.2 with
    | .error e => (out.1, .error e)
    | .ok (s, pending) => (if pending.val = [] then out.1 else out.1 ++ [pending.val], .ok s)

end UploadStream

/-! ### The request -/

/-- The headers of a request, of lower-case names and Latin-1 values. -/
abbrev UploadHeaders := List (String × List UInt8)

/-- A request, with the chunks of its body. -/
structure UploadRequest where
  headers : UploadHeaders
  body : List (List UInt8)

namespace UploadHeaders

variable (headers : UploadHeaders)

/-- `headers.getlist`. -/
def getlist (name : String) : List (List UInt8) := (headers.filter (·.1 = name)).map (·.2)

/-- `_single_header`. -/
def single (name : String) : Except Refusal (List UInt8) :=
  match headers.getlist name with
  | [value] => .ok value
  | _ => .error (invalid "Missing or ambiguous upload header")

/-- `_single_header` with `optional`. -/
def optional (name : String) : Except Refusal (Option (List UInt8)) :=
  if headers.getlist name = [] then .ok none else (headers.single name).map some

end UploadHeaders

/-- `[0-9A-Za-z'()+_,./:=? -]`. -/
def isBoundaryByte (b : UInt8) : Bool :=
  isAsciiAlnum (Char.ofNat b.toNat) || b ∈ ascii "'()+_,./:=? -"

def isBoundary (bs : List UInt8) : Bool :=
  1 ≤ bs.length && bs.length ≤ 70 && bs.all isBoundaryByte && bs.getLast? ≠ some 32

/-- The whitespace of Latin-1. -/
def isLatinSpace (b : UInt8) : Bool :=
  (9 ≤ b && b ≤ 13) || (28 ≤ b && b ≤ 32) || b = 133 || b = 160

/-- `str.strip`. -/
def stripBytes (bs : List UInt8) : List UInt8 :=
  ((bs.dropWhile isLatinSpace).reverse.dropWhile isLatinSpace).reverse

/-- `isascii` and `isdecimal`. -/
def isDecimalBytes (bs : List UInt8) : Bool := bs ≠ [] && bs.all fun b => 48 ≤ b && b ≤ 57

/-- `int`, of decimal digits. -/
def intBytes (bs : List UInt8) : Nat := bs.foldl (fun n b => 10 * n + (b.toNat - 48)) 0

namespace UploadHeaders

variable (readers : Readers) (headers : UploadHeaders)

/-- The boundary that the content type names. -/
def boundary : Except Refusal (List UInt8) := do
  let contentType ← headers.single "content-type"
  require (contentType.length ≤ 1024) (invalid "Upload content type exceeds its bound")
  let (kind, options) := readers.parseOptionsHeader contentType
  let boundary := ((options.find? (·.1 = ascii "boundary")).map (·.2)).getD []
  require (kind = ascii "multipart/form-data" && isBoundary boundary)
    (.http 415 "Upload requires bounded multipart/form-data")
  return boundary

/-- The declared length. -/
def declared : Except Refusal (Option Nat) := do
  let declared ← headers.optional "content-length"
  require (declared.all fun text => text.length ≤ 10 && isDecimalBytes text)
    (invalid "Invalid upload content length")
  require (declared.all fun text => intBytes text ≤ wireLimit) (.http 413 "Upload exceeds its wire limit")
  return declared.map intBytes

/-- What `__init__` checks: the boundary and the declared length that it returns. -/
def check (operationId : Uuid) : Except Refusal (List UInt8 × Option Nat) := do
  require (!isNil operationId) (.http 422 "Valid upload operation identity required")
  let boundary ← headers.boundary readers
  let encoding ← headers.optional "content-encoding"
  require (encoding.all fun text => lowerBytes (stripBytes text) = ascii "identity")
    (.http 415 "Encoded uploads are not supported")
  let declared ← headers.declared
  return (boundary, declared)

end UploadHeaders

/-- `request.stream()`, of which nothing is received yet. -/
def Transport.ofBody (body : List (List UInt8)) : Transport := ⟨body, [], 0, false, Nat.le_refl 0⟩

namespace UploadStream

variable {σ : Type} (readers : Readers) (parser : MultipartParser σ)

/-- A stream behind the checks of `__init__`. -/
def create (operationId : Uuid) (checked : List UInt8 × Option Nat) (body : List (List UInt8)) :
    UploadStream σ where
  declared := checked.2
  operationId := operationId
  transport := .ofBody body
  parser := parser.create checked.1

/-- `__init__`. -/
def init (request : UploadRequest) (operationId : Uuid) : Except Refusal (UploadStream σ) :=
  (UploadHeaders.check readers request.headers operationId).map fun checked =>
    create parser operationId checked request.body

end UploadStream

/-- An upload: `read_intent`, then `chunks` to the end.  The blocks that are yielded, and how it ends. -/
def upload {σ : Type} (readers : Readers) (parser : MultipartParser σ) (request : UploadRequest)
    (operationId : Uuid) : List (List UInt8) × Except Refusal PublicationRequest :=
  match UploadStream.init readers parser request operationId with
  | .error e => ([], .error e)
  | .ok s =>
    match s.readIntent readers parser with
    | .error e => ([], .error e)
    | .ok (s, q) =>
      let out := s.chunks readers parser
      (out.1, out.2.map fun _ => q)

end FreeSdn.Releases
