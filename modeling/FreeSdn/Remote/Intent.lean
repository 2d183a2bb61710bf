import FreeSdn.Audit.State
import FreeSdn.Lib.OrderBy
import FreeSdn.Lib.Text

/-! The recovery metadata of one remote backup write (`core/remote_write_intent.py`): which values it
accepts, and the canonical bytes that the journal retains.  The bytes determine every field, and a
connectivity probe never has the bytes of a backup. -/

namespace FreeSdn.Remote

open FreeSdn.Lib
open FreeSdn.Audit (Uuid isHex64)

/-- `str.encode("utf-8")`. -/
def utf8 (cs : List Char) : List UInt8 := cs.flatMap String.utf8EncodeChar

theorem utf8_injective : Function.Injective utf8 := by
  intro cs ds same
  have bytes : cs.utf8Encode = ds.utf8Encode := congrArg List.toByteArray same
  have decoded := List.utf8Decode?_utf8Encode (l := cs)
  rw [bytes, List.utf8Decode?_utf8Encode] at decoded
  simpa using decoded.symm

/-! ### Addresses -/

/-- `str.partition`: the text before the first `c`, and the text after it. -/
def partition (c : Char) : List Char → List Char × Option (List Char)
  | [] => ([], none)
  | d :: rest =>
    if d = c then ([], some rest)
    else
      let (before, after) := partition c rest
      (d :: before, after)

inductive Address
  | v4 (octets : List Nat)
  | v6 (hextets : List Nat)

/-- `_parse_octet`. -/
def readOctet (cs : List Char) : Option Nat :=
  let value := Nat.ofDigitChars 10 cs 0
  if cs ≠ [] ∧ cs.all isAsciiDigit ∧ cs.length ≤ 3 ∧ (cs.length = 1 ∨ cs.head? ≠ some '0') ∧
      value ≤ 255 then some value
  else none

def readIpv4 (cs : List Char) : Option (List Nat) := do
  let octets ← (splitChars '.' cs).mapM readOctet
  if octets.length = 4 then some octets else none

def hexText (n : Nat) : List Char := Nat.toDigits 16 n

def hexNumber (cs : List Char) : Nat := cs.foldl (fun n c => 16 * n + (Json.hexValue c).getD 0) 0

/-- `_parse_hextet`. -/
def readHextet (cs : List Char) : Option Nat :=
  if cs ≠ [] ∧ cs.all isHexDigit ∧ cs.length ≤ 4 then some (hexNumber cs) else none

/-- The parts of an address between its colons, with a dotted tail written as two hextets. -/
def hextetParts (cs : List Char) : Option (List (List Char)) := do
  let parts := splitChars ':' cs
  if parts.length < 3 then none
  else
    let last := parts.getLast?.getD []
    if '.' ∈ last then
      match ← readIpv4 last with
      | [a, b, c, d] => some (parts.dropLast ++ [hexText (256 * a + b), hexText (256 * c + d)])
      | _ => none
    else some parts

/-- `IPv6Address._ip_int_from_string`, as its eight hextets. -/
def readIpv6 (cs : List Char) : Option (List Nat) := do
  let parts ← hextetParts cs
  if 9 < parts.length then none
  else
    let inner := (List.range parts.length).filter fun i =>
      0 < i ∧ i + 1 < parts.length ∧ parts[i]? = some []
    match inner with
    | [] =>
      let hextets ← parts.mapM readHextet
      if hextets.length = 8 then some hextets else none
    | [skip] =>
      let high := parts.take skip
      let low := parts.drop (skip + 1)
      let high := if high.head? = some [] then high.drop 1 else high
      let low := if low.getLast? = some [] then low.dropLast else low
      -- A colon at an end needs the other one beside it.
      if (parts.head? = some [] ∧ high ≠ []) ∨ (parts.getLast? = some [] ∧ low ≠ []) then none
      else if 7 < high.length + low.length then none
      else
        let high ← high.mapM readHextet
        let low ← low.mapM readHextet
        some (high ++ List.replicate (8 - (high.length + low.length)) 0 ++ low)
    | _ => none

/-- `ipaddress.ip_address`. -/
def ipAddress (cs : List Char) : Option Address :=
  match readIpv4 cs with
  | some octets => some (.v4 octets)
  | none => (readIpv6 cs).map .v6

/-- The first longest run of zeros: its start and length. -/
def longestZeros : Nat → Nat × Nat → List Nat → Nat × Nat
  | _, best, [] => best
  | i, best, h :: hs =>
    let run := ((h :: hs).takeWhile (· = 0)).length
    longestZeros (i + 1) (if best.2 < run then (i, run) else best) hs

/-- `_compress_hextets`. -/
def compressHextets (hextets : List Nat) : List (List Char) :=
  let (start, run) := longestZeros 0 (0, 0) hextets
  if 1 < run then
    (if start = 0 then [[]] else []) ++ (hextets.take start).map hexText ++ [[]] ++
      (hextets.drop (start + run)).map hexText ++
      (if start + run = hextets.length then [[]] else [])
  else hextets.map hexText

def dotted (octets : List Nat) : List Char := ['.'].intercalate (octets.map Json.natText)

/-- `str` of an address.  An address that maps an IPv4 one shows it. -/
def Address.text : Address → List Char
  | .v4 octets => dotted octets
  | .v6 [0, 0, 0, 0, 0, 65535, high, low] =>
    "::ffff:".toList ++ dotted [high / 256, high % 256, low / 256, low % 256]
  | .v6 hextets => [':'].intercalate (compressHextets hextets)

def Address.authority : Address → List Char
  | .v4 octets => Address.text (.v4 octets)
  | .v6 hextets => '[' :: Address.text (.v6 hextets) ++ [']']

/-! ### Locations -/

structure SplitResult where
  scheme : List Char
  netloc : List Char
  path : List Char
  query : List Char
  fragment : List Char

def isSchemeChar (c : Char) : Bool := isAsciiAlnum c || c == '+' || c == '-' || c == '.'

/-- `urllib.parse.urlsplit`.  Its own checks of the brackets and of the Unicode form of `netloc` are
left out: whoever calls it here compares `netloc` with the text of an address. -/
def urlsplit (url : List Char) : SplitResult :=
  let url := (url.dropWhile (·.toNat ≤ 32)).filter fun c => c ≠ '\t' ∧ c ≠ '\r' ∧ c ≠ '\n'
  let (scheme, url) :=
    match partition ':' url with
    | (before, some after) =>
      if before.head?.any isAsciiLetter && before.all isSchemeChar then (before.map Char.toLower, after)
      else ([], url)
    | _ => ([], url)
  let (netloc, url) :=
    match url with
    | '/' :: '/' :: rest => rest.span fun c => c ≠ '/' ∧ c ≠ '?' ∧ c ≠ '#'
    | _ => ([], url)
  let (url, fragment) := partition '#' url
  let (path, query) := partition '?' url
  ⟨scheme, netloc, path, query.getD [], fragment.getD []⟩

/-- `_hostinfo`: the host and the text of the port.  There is no `@`, as the caller checks. -/
def SplitResult.hostinfo (parts : SplitResult) : List Char × Option (List Char) :=
  match partition '[' parts.netloc with
  | (_, some bracketed) =>
    let (hostname, after) := partition ']' bracketed
    (hostname, (partition ':' (after.getD [])).2)
  | (_, none) => partition ':' parts.netloc

/-- The hostname and port that the accessors return, `none` where either is missing or malformed. -/
def SplitResult.endpoint (parts : SplitResult) : Option (List Char × Nat) :=
  match parts.hostinfo with
  | (hostname, some port) =>
    let number := Nat.ofDigitChars 10 port 0
    if hostname ≠ [] ∧ port ≠ [] ∧ port.all isAsciiDigit ∧ number ≤ 65535 then
      some (hostname.map Char.toLower, number)
    else none
  | _ => none

def segments (path : List Char) : List (List Char) := splitChars '/' (path.drop 1)

/-- The checks on one location: a plain address, port and path, with nothing to interpret. -/
def validLocation (value : String) : Bool :=
  let chars := value.toList
  let parts := urlsplit chars
  1 ≤ (utf8 chars).length && (utf8 chars).length ≤ 3072 &&
  !(chars.any fun c => c.toNat < 32 || c.toNat == 127) &&
  !(chars.any fun c => c ∈ ['\\', '%', '?', '#']) &&
  (parts.scheme = "sftp".toList || parts.scheme = "ftps".toList) &&
  '@' ∉ parts.netloc && parts.query.isEmpty && parts.fragment.isEmpty &&
  parts.path.head? = some '/' &&
  (parts.endpoint.any fun (hostname, port) =>
    1 ≤ port && (ipAddress hostname).any fun address =>
      parts.netloc = address.authority ++ ':' :: Json.natText port) &&
  !((segments parts.path).any fun s => s ∈ [[], ['.'], ['.', '.']])

/-! ### Intents -/

def maxBackupImportBytes : Int := 209715200

structure RemoteWriteIntent where
  operationId : Uuid
  backupId : Uuid
  organizationId : Uuid
  storageLocationId : Uuid
  requestedBy : Option Uuid
  scheduleId : Option Uuid
  includeSecrets : Bool
  finalLocation : String
  temporaryLocation : String
  destinationBinding : String
  payloadSha256 : String
  payloadSize : Int
  deriving DecidableEq

/-- `UUID.hex`. -/
def hex (id : Uuid) : List Char := id.text.toList.filter (· ≠ '-')

/-- `UUID.int == 0`. -/
def isNil (id : Uuid) : Bool := (hex id).all (· = '0')

namespace RemoteWriteIntent

variable (i : RemoteWriteIntent)

/-- The checks of `encoded`.  The types of the fields are those that it demands. -/
def valid : Bool :=
  !([i.operationId, i.backupId, i.organizationId, i.storageLocationId].any isNil) &&
  i.requestedBy.isNone != i.scheduleId.isNone &&
  !((i.requestedBy.or i.scheduleId).any isNil) &&
  !(i.scheduleId.isSome && i.includeSecrets) &&
  0 < i.payloadSize && i.payloadSize ≤ maxBackupImportBytes &&
  isHex64 i.destinationBinding && isHex64 i.payloadSha256 &&
  validLocation i.finalLocation && validLocation i.temporaryLocation &&
  i.temporaryLocation.toList = i.finalLocation.toList ++ ".partial-".toList ++ hex i.operationId &&
  (i.backupId.text.toList ++ ['_']).isPrefixOf
    ((splitChars '/' (urlsplit i.finalLocation.toList).path).getLast?.getD [])

def uuidJson (id : Uuid) : Json := .str id.text

def optionalJson : Option Uuid → Json
  | some id => uuidJson id
  | none => .null

/-- `{"format_version": 1, **asdict(self)}`, with the texts of the UUIDs. -/
def values : Dict :=
  [("format_version", .int 1), ("operation_id", uuidJson i.operationId),
   ("backup_id", uuidJson i.backupId), ("organization_id", uuidJson i.organizationId),
   ("storage_location_id", uuidJson i.storageLocationId),
   ("requested_by", optionalJson i.requestedBy), ("schedule_id", optionalJson i.scheduleId),
   ("include_secrets", .bool i.includeSecrets), ("final_location", .str i.finalLocation),
   ("temporary_location", .str i.temporaryLocation),
   ("destination_binding", .str i.destinationBinding), ("payload_sha256", .str i.payloadSha256),
   ("payload_size", .int i.payloadSize)]

end RemoteWriteIntent

/-- `sort_keys=True`. -/
def sortKeys (d : Dict) : Dict := orderBy Prod.fst d

/-- The canonical text of a dictionary, at most 8192 bytes of it. -/
def canonical (d : Dict) : Option (List UInt8) :=
  let encoded := utf8 (Json.dumpsRaw (.obj (sortKeys d)))
  if 8192 < encoded.length then none else some encoded

def RemoteWriteIntent.encoded (i : RemoteWriteIntent) : Option (List UInt8) :=
  if i.valid then canonical i.values else none

/-- `d[key] = value`. -/
def setItem (d : Dict) (key : String) (value : Json) : Dict :=
  if d.any (·.1 = key) then d.map fun m => if m.1 = key then (key, value) else m
  else d ++ [(key, value)]

/-- `d.pop(key)`. -/
def popItem (d : Dict) (key : String) : Option (Json × Dict) :=
  (d.lookup key).map fun value => (value, d.filter (·.1 ≠ key))

/-- What `RemoteProbeIntent.encoded` makes of the dictionary that it reads back. -/
def probeValues (d : Dict) : Option Dict := do
  let d := setItem d "format_version" (.int 2)
  let d := setItem d "purpose" (.str "connectivity_probe")
  let (id, d) ← popItem d "backup_id"
  some (setItem d "probe_id" id)

/-- `json.loads` of UTF-8 bytes. -/
def loadsBytes (bytes : List UInt8) : Option Json :=
  bytes.toByteArray.utf8Decode?.bind fun cs => Json.loads cs.toList

/-- `RemoteProbeIntent.encoded`. -/
def RemoteWriteIntent.probeEncoded (i : RemoteWriteIntent) : Option (List UInt8) := do
  let raw ← i.encoded
  if i.includeSecrets || i.scheduleId.isSome || 128 < i.payloadSize ||
      !endsWith i.finalLocation "_connectivity_test.txt" then none
  else
    match ← loadsBytes raw with
    | .obj d => canonical (← probeValues d)
    | _ => none

/-- An intent of either class. -/
inductive Intent
  | backup (fields : RemoteWriteIntent)
  | probe (fields : RemoteWriteIntent)
  deriving DecidableEq

namespace Intent

def fields : Intent → RemoteWriteIntent
  | .backup i | .probe i => i

def encoded : Intent → Option (List UInt8)
  | .backup i => i.encoded
  | .probe i => i.probeEncoded

end Intent

/-! ### The bytes determine the intent -/

theorem mem_sortKeys {m : String × Json} {d : Dict} : m ∈ sortKeys d ↔ m ∈ d := mem_orderBy

/-- Dictionaries with the same canonical bytes have the same members. -/
theorem canonical_inj {d e : Dict} {bytes : List UInt8} (hd : canonical d = some bytes)
    (he : canonical e = some bytes) (m : String × Json) : m ∈ d ↔ m ∈ e := by
  have text {d : Dict} (h : canonical d = some bytes) :
      utf8 (Json.dumpsRaw (.obj (sortKeys d))) = bytes := by
    simp only [canonical] at h
    split at h
    · exact absurd h (by simp)
    · exact Option.some.inj h
  have same := utf8_injective ((text hd).trans (text he).symm)
  have read := Json.loads_dumpsRaw (.obj (sortKeys d))
  rw [same, Json.loads_dumpsRaw] at read
  have sorted : sortKeys e = sortKeys d := by simpa using read
  rw [← mem_sortKeys, ← sorted, mem_sortKeys]

theorem mem_setItem {d : Dict} {k key : String} {v value : Json} :
    (k, v) ∈ setItem d key value ↔ k = key ∧ v = value ∨ k ≠ key ∧ (k, v) ∈ d := by
  unfold setItem
  split
  · next here =>
    simp only [List.any_eq_true, decide_eq_true_eq] at here
    constructor
    · intro mem
      obtain ⟨m, inside, eq⟩ := List.mem_map.mp mem
      by_cases match_ : m.1 = key
      · simp [match_] at eq
        exact .inl ⟨eq.1.symm, eq.2.symm⟩
      · rw [if_neg match_] at eq
        subst eq
        exact .inr ⟨match_, inside⟩
    · rintro (⟨rfl, rfl⟩ | ⟨other, inside⟩)
      · obtain ⟨m, inside, eq⟩ := here
        exact List.mem_map.mpr ⟨m, inside, by simp [eq]⟩
      · exact List.mem_map.mpr ⟨_, inside, by simp [other]⟩
  · next missing =>
    simp only [List.any_eq_true, decide_eq_true_eq, not_exists, not_and] at missing
    simp only [List.mem_append, List.mem_singleton, Prod.mk.injEq]
    constructor
    · rintro (inside | eq)
      · exact .inr ⟨missing _ inside, inside⟩
      · exact .inl eq
    · rintro (eq | ⟨-, inside⟩)
      · exact .inr eq
      · exact .inl inside

theorem lookup_mem {d : Dict} {k : String} {v : Json} (h : d.lookup k = some v) : (k, v) ∈ d := by
  induction d with
  | nil => simp at h
  | cons m d ih =>
    obtain ⟨l, w⟩ := m
    by_cases same : k = l
    · subst same
      simp at h
      simp [h]
    · rw [List.lookup_cons, beq_eq_false_iff_ne.mpr same] at h
      exact List.mem_cons_of_mem _ (ih h)

theorem mem_popItem {d e : Dict} {k key : String} {v value : Json}
    (h : popItem d key = some (value, e)) :
    (key, value) ∈ d ∧ ((k, v) ∈ e ↔ k ≠ key ∧ (k, v) ∈ d) := by
  obtain ⟨w, found, eq⟩ := Option.map_eq_some_iff.mp h
  obtain ⟨rfl, rfl⟩ := Prod.mk.inj eq
  refine ⟨lookup_mem found, ?_⟩
  simp [and_comm]

theorem mem_probeValues {d e : Dict} (h : probeValues d = some e) :
    ∃ id, ("backup_id", id) ∈ d ∧ ∀ k v, (k, v) ∈ e ↔
      k = "format_version" ∧ v = .int 2 ∨ k = "purpose" ∧ v = .str "connectivity_probe" ∨
        k = "probe_id" ∧ v = id ∨
        (k, v) ∈ d ∧ k ∉ ["probe_id", "purpose", "format_version", "backup_id"] := by
  obtain ⟨⟨id, rest⟩, popped, eq⟩ := Option.bind_eq_some_iff.mp h
  obtain rfl := Option.some.inj eq
  have here := (mem_popItem (k := "") (v := .null) popped).1
  simp only [mem_setItem] at here
  refine ⟨id, by simpa using here, fun k v => ?_⟩
  rw [mem_setItem, (mem_popItem popped).2]
  simp only [mem_setItem, List.mem_cons, List.not_mem_nil, or_false, not_or]
  by_cases probe : k = "probe_id"
  · simp [probe]
  by_cases purpose : k = "purpose"
  · simp [purpose]
  by_cases version : k = "format_version"
  · simp [version]
  simp [probe, purpose, version, and_comm]

/-- The members that both classes write alike. -/
def RemoteWriteIntent.shared (i : RemoteWriteIntent) : Dict :=
  i.values.filter fun m => m.1 ∉ ["probe_id", "purpose", "format_version", "backup_id"]

theorem RemoteWriteIntent.shared_eq (i : RemoteWriteIntent) : i.shared =
    [("operation_id", uuidJson i.operationId), ("organization_id", uuidJson i.organizationId),
     ("storage_location_id", uuidJson i.storageLocationId),
     ("requested_by", optionalJson i.requestedBy), ("schedule_id", optionalJson i.scheduleId),
     ("include_secrets", .bool i.includeSecrets), ("final_location", .str i.finalLocation),
     ("temporary_location", .str i.temporaryLocation),
     ("destination_binding", .str i.destinationBinding), ("payload_sha256", .str i.payloadSha256),
     ("payload_size", .int i.payloadSize)] := by
  simp [shared, values]

/-- The members that the bytes of an intent list. -/
def Intent.document : Intent → Dict
  | .backup i => ("format_version", .int 1) :: ("backup_id", RemoteWriteIntent.uuidJson i.backupId) :: i.shared
  | .probe i => ("format_version", .int 2) :: ("purpose", .str "connectivity_probe") ::
      ("probe_id", RemoteWriteIntent.uuidJson i.backupId) :: i.shared

theorem loadsBytes_utf8 (cs : List Char) : loadsBytes (utf8 cs) = Json.loads cs := by
  have decoded : (utf8 cs).toByteArray.utf8Decode? = some cs.toArray := List.utf8Decode?_utf8Encode
  simp [loadsBytes, decoded]

theorem RemoteWriteIntent.encoded_canonical {i : RemoteWriteIntent} {bytes : List UInt8}
    (h : i.encoded = some bytes) :
    canonical i.values = some bytes ∧ loadsBytes bytes = some (.obj (sortKeys i.values)) := by
  have text : canonical i.values = some bytes := by
    unfold encoded at h
    split at h
    · exact h
    · exact absurd h (by simp)
  refine ⟨text, ?_⟩
  simp only [canonical] at text
  split at text
  · exact absurd text (by simp)
  · rw [← Option.some.inj text, loadsBytes_utf8, Json.loads_dumpsRaw]

theorem RemoteWriteIntent.probeEncoded_canonical {i : RemoteWriteIntent} {bytes : List UInt8}
    (h : i.probeEncoded = some bytes) :
    ∃ d, probeValues (sortKeys i.values) = some d ∧ canonical d = some bytes := by
  obtain ⟨raw, plain, checked⟩ := Option.bind_eq_some_iff.mp h
  have read := (encoded_canonical plain).2
  split at checked
  · exact absurd checked (by simp)
  · obtain ⟨v, parsed, built⟩ := Option.bind_eq_some_iff.mp checked
    obtain rfl := Option.some.inj (read.symm.trans parsed)
    exact Option.bind_eq_some_iff.mp built

theorem Intent.encoded_document {x : Intent} {bytes : List UInt8} (h : x.encoded = some bytes) :
    ∃ d, canonical d = some bytes ∧ ∀ m, m ∈ d ↔ m ∈ x.document := by
  cases x with
  | backup i =>
    refine ⟨i.values, (RemoteWriteIntent.encoded_canonical h).1, fun m => ?_⟩
    rw [document, RemoteWriteIntent.shared_eq]
    exact List.Perm.mem_iff (.cons _ (.swap _ _ _))
  | probe i =>
    obtain ⟨d, built, bytes⟩ := RemoteWriteIntent.probeEncoded_canonical h
    obtain ⟨id, here, members⟩ := mem_probeValues built
    refine ⟨d, bytes, fun m => ?_⟩
    obtain ⟨k, v⟩ := m
    rw [members]
    have same : id = RemoteWriteIntent.uuidJson i.backupId := by
      simpa [mem_sortKeys, RemoteWriteIntent.values] using here
    subst same
    simp only [document, RemoteWriteIntent.shared, List.mem_cons, List.mem_filter, Prod.mk.injEq,
      mem_sortKeys, decide_eq_true_eq]

/-- Dictionaries with the same members under the same keys, none of them twice, are equal. -/
theorem dict_eq {d e : Dict} (keys : d.map Prod.fst = e.map Prod.fst) (nodup : (d.map Prod.fst).Nodup)
    (same : ∀ m, m ∈ d ↔ m ∈ e) : d = e := by
  induction d generalizing e with
  | nil => simpa using keys.symm
  | cons m d ih =>
    obtain _ | ⟨n, e⟩ := e
    · simp at keys
    simp only [List.map_cons, List.cons.injEq] at keys
    obtain ⟨fresh, nodup⟩ := List.nodup_cons.mp nodup
    have fresh' : n.1 ∉ e.map Prod.fst := by rw [← keys.1, ← keys.2]; exact fresh
    have first : m = n := by
      rcases List.mem_cons.mp ((same m).mp (by simp)) with eq | later
      · exact eq
      · exact absurd (keys.1 ▸ List.mem_map_of_mem later) fresh'
    subst first
    have tails (a : String × Json) : a ∈ d ↔ a ∈ e := by
      by_cases head : a = m
      · subst head
        exact ⟨fun mem => absurd (List.mem_map_of_mem mem) fresh,
          fun mem => absurd (List.mem_map_of_mem mem) fresh'⟩
      · simpa [head] using same a
    rw [ih keys.2 nodup tails]

theorem RemoteWriteIntent.optionalJson_injective : Function.Injective optionalJson := by
  rintro (_ | a) (_ | b) same
  · rfl
  · cases same
  · cases same
  · exact congrArg some (Uuid.text_injective (Json.str.inj same))

theorem RemoteWriteIntent.eq_of_shared {i j : RemoteWriteIntent} (shared : i.shared = j.shared)
    (backup : uuidJson i.backupId = uuidJson j.backupId) : i = j := by
  rw [shared_eq, shared_eq] at shared
  obtain ⟨_⟩ := i
  obtain ⟨_⟩ := j
  simp only [uuidJson, Json.str.injEq, List.cons.injEq, Prod.mk.injEq, true_and, and_true,
    Uuid.text_injective.eq_iff, optionalJson_injective.eq_iff, Json.bool.injEq, Json.int.injEq]
    at shared backup
  simp [shared, backup]

/-- The canonical bytes determine the class of an intent and each of its fields. -/
theorem Intent.encoded_injective {x y : Intent} {bytes : List UInt8} (hx : x.encoded = some bytes)
    (hy : y.encoded = some bytes) : x = y := by
  obtain ⟨d, bytesOf, inside⟩ := encoded_document hx
  obtain ⟨e, bytesOf', inside'⟩ := encoded_document hy
  have same (m : String × Json) : m ∈ x.document ↔ m ∈ y.document := by
    rw [← inside, ← inside', canonical_inj bytesOf bytesOf']
  cases x with
  | backup i =>
    have version := (same ("format_version", .int 1)).mp (by simp [document])
    cases y with
    | probe j => simp [document, RemoteWriteIntent.shared_eq] at version
    | backup j =>
      have eq := dict_eq (by simp [document, RemoteWriteIntent.shared_eq])
        (by simp [document, RemoteWriteIntent.shared_eq]) same
      simp only [document, List.cons.injEq, Prod.mk.injEq, true_and] at eq
      rw [RemoteWriteIntent.eq_of_shared eq.2 eq.1]
  | probe i =>
    have version := (same ("format_version", .int 2)).mp (by simp [document])
    cases y with
    | backup j => simp [document, RemoteWriteIntent.shared_eq] at version
    | probe j =>
      have eq := dict_eq (by simp [document, RemoteWriteIntent.shared_eq])
        (by simp [document, RemoteWriteIntent.shared_eq]) same
      simp only [document, List.cons.injEq, Prod.mk.injEq, true_and] at eq
      rw [RemoteWriteIntent.eq_of_shared eq.2 eq.1]

end FreeSdn.Remote
