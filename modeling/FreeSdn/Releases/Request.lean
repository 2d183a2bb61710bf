import FreeSdn.Releases.Record

/-! Requests to publish and to delete agent releases (`services/agent_release_request.py`,
`services/agent_release_delete_request.py`), the rows of `agent_releases`, and who may change them. -/

namespace FreeSdn.Releases

open FreeSdn.Lib FreeSdn.Artifact
open FreeSdn.Audit (Uuid isHex64)
open FreeSdn.Remote (utf8)

/-! ### Releases -/

/-- `ReleaseMetadata`. -/
structure Metadata where
  version : String
  platform : String
  agentType : String
  downloadUrl : String
  checksumSha256 : String
  fileSize : Nat
  releaseNotes : String
  minBackendVersion : String
  isPrerelease : Bool
  isLatest : Bool
  filename : Option String
  deriving DecidableEq

/-- A row of `agent_releases`. -/
structure Release where
  id : Uuid
  organizationId : Option Uuid
  metadata : Metadata
  signature : Option String
  publishedAt : Stamp
  downloadCount : Nat
  deriving DecidableEq

instance : Keyed Release Uuid := ⟨Release.id⟩

@[simp] theorem key_id (r : Release) : Keyed.key r = r.id := rfl

/-- The releases among which at most one is the latest. -/
def Release.bucket (r : Release) : Option Uuid × String × String :=
  (r.organizationId, r.metadata.platform, r.metadata.agentType)

def Release.markLatest (latest : Bool) (r : Release) : Release :=
  { r with metadata := { r.metadata with isLatest := latest } }

def optionalText (s : Option String) : Json := s.elim .null .str

/-- `_encode` of the request module. -/
def encodeRaw (members : Dict) : List UInt8 := utf8 (Json.dumpsRaw (.obj members))

def Metadata.texts (m : Metadata) : List String :=
  [m.version, m.platform, m.agentType, m.downloadUrl, m.checksumSha256, m.releaseNotes,
    m.minBackendVersion] ++ m.filename.toList

def Metadata.encoded (m : Metadata) : List UInt8 := encodeRaw
  [("agent_type", .str m.agentType), ("checksum_sha256", .str m.checksumSha256),
   ("download_url", .str m.downloadUrl), ("file_size", .int m.fileSize),
   ("filename", optionalText m.filename), ("is_latest", .bool m.isLatest),
   ("is_prerelease", .bool m.isPrerelease), ("min_backend_version", .str m.minBackendVersion),
   ("platform", .str m.platform), ("release_notes", .str m.releaseNotes), ("version", .str m.version)]

/-- `_encode(_metadata(release))`. -/
def encodeTarget (m : Metadata) (signature : Option String) (publishedAt : Stamp) : List UInt8 :=
  encodeRaw
    [("agent_type", .str m.agentType), ("checksum_sha256", .str m.checksumSha256),
     ("download_url", .str m.downloadUrl), ("file_size", .int m.fileSize),
     ("filename", optionalText m.filename), ("is_latest", .bool m.isLatest),
     ("is_prerelease", .bool m.isPrerelease), ("min_backend_version", .str m.minBackendVersion),
     ("platform", .str m.platform), ("published_at", .str (String.ofList publishedAt.isoformat)),
     ("release_notes", .str m.releaseNotes), ("signature", optionalText signature),
     ("version", .str m.version)]

def lower (s : String) : String := String.ofList (s.toList.map Char.toLower)

def hasNul (s : String) : Bool := s.toList.any (·.toNat == 0)

def length (s : String) : Nat := s.toList.length

/-- A SHA-256 in hexadecimal of either case. -/
def isHexDigest (s : String) : Bool := length s == 64 && s.toList.all isHexDigit

/-- Where the backend serves the bytes of an owned release. -/
def binaryUrl (id : Uuid) : String := "/api/v1/agents/releases/" ++ id.text ++ "/binary"

/-! ### Publication requests -/

/-- The fields that `AgentReleaseCreate` validates. -/
def Metadata.created (m : Metadata) : Bool :=
  1 ≤ length m.version && length m.version ≤ 50 && 1 ≤ length m.platform && length m.platform ≤ 50 &&
    length m.agentType ≤ 50 && 1 ≤ length m.downloadUrl && length m.downloadUrl ≤ 500 &&
    (startsWith m.downloadUrl "/" || startsWith m.downloadUrl "https://") &&
    isHexDigest m.checksumSha256 && m.fileSize ≤ 10 * 1024 * 1024 * 1024 &&
    length m.releaseNotes ≤ 20000 && length m.minBackendVersion ≤ 50

def isVersionChar (c : Char) : Bool := isAsciiAlnum c || c == '.' || c == '_' || c == '+' || c == '-'

/-- The bound of owned bytes to the publication. -/
def Metadata.ownedBy (m : Metadata) (releaseId : Uuid) : Bool :=
  m.fileSize ≤ 524288000 && allIn isVersionChar 1 50 m.version.toList &&
    (m.filename.any fun name => 1 ≤ length name && length name ≤ 128 && name != "." && name != ".." &&
      name.toList.all fun c => c != '/' && c != '\\' && c.toNat != 0) &&
    m.downloadUrl = binaryUrl releaseId

/-- `ReleasePublicationRequest.__post_init__`. -/
def publicationValid (operationId releaseId : Uuid) (organizationId : Option Uuid)
    (storageKind : StorageKind) (m : Metadata) : Bool :=
  !isNil operationId && !isNil releaseId && organizationId.all (!isNil ·) && storageKind ≠ .legacy &&
    m.encoded.length ≤ 262144 && m.texts.all (!hasNul ·) && m.created &&
    m.platform ∈ ["linux", "windows", "macos"] && m.agentType ∈ ["daemon", "desktop"] &&
    m.checksumSha256 = lower m.checksumSha256 &&
    (if storageKind = .owned then m.ownedBy releaseId else m.filename.isNone)

/-- `ReleasePublicationRequest`. -/
structure PublicationRequest where
  operationId : Uuid
  releaseId : Uuid
  organizationId : Option Uuid
  storageKind : StorageKind
  metadata : Metadata
  valid : publicationValid operationId releaseId organizationId storageKind metadata = true
  deriving DecidableEq

def organizationJson (id : Option Uuid) : Json := id.elim .null fun id => .str id.text

def storageText : StorageKind → String
  | .owned => "owned"
  | .external => "external"
  | .legacy => "legacy"

/-- The bytes after a domain and a NUL. -/
def domain (name : String) (bytes : List UInt8) : List UInt8 := utf8 name.toList ++ 0 :: bytes

namespace PublicationRequest

variable (sha256 : List UInt8 → String) (q : PublicationRequest)

def requestBytes : List UInt8 := encodeRaw
  [("format", .int 1), ("kind", .str "publish"),
   ("metadata_sha256", .str (sha256 (domain "FreeSDN/release-public-metadata/v1" q.metadata.encoded))),
   ("operation_id", .str q.operationId.text), ("organization_id", organizationJson q.organizationId),
   ("release_id", .str q.releaseId.text), ("storage_kind", .str (storageText q.storageKind))]

def requestSha256 : String := sha256 (q.requestBytes sha256)

def artifactId : Option Uuid := if q.storageKind = .owned then some q.operationId else none

/-- `_intent`. -/
def intent : Intent :=
  ⟨q.operationId, q.operationId, q.releaseId, q.requestSha256 sha256, q.metadata.checksumSha256,
    q.metadata.fileSize⟩

end PublicationRequest

/-! ### Deletion requests -/

/-- `ReleaseDeletionRequest.__post_init__`, after its fields have their types. -/
def deletionValid (operationId releaseId : Uuid) (organizationId : Option Uuid) (m : Metadata)
    (signature : Option String) (publishedAt : Stamp) : Bool :=
  !isNil operationId && !isNil releaseId && organizationId.all (!isNil ·) &&
    (encodeTarget m signature publishedAt).length ≤ 262144 && m.texts.all (!hasNul ·) &&
    length m.version ≤ 50 && length m.platform ≤ 50 && length m.agentType ≤ 50 &&
    length m.downloadUrl ≤ 500 && length m.releaseNotes ≤ 20000 && length m.minBackendVersion ≤ 50 &&
    lower m.platform ∈ ["linux", "windows", "macos"] && lower m.agentType ∈ ["daemon", "desktop"] &&
    isHexDigest m.checksumSha256 && m.fileSize ≤ 10737418240 && m.filename.all (length · ≤ 128) &&
    signature.all fun s => length s ≤ 4096 && !hasNul s

/-- `ReleaseDeletionRequest`: the release as it was reviewed. -/
structure DeletionRequest where
  operationId : Uuid
  releaseId : Uuid
  organizationId : Option Uuid
  metadata : Metadata
  signature : Option String
  publishedAt : Stamp
  valid : deletionValid operationId releaseId organizationId metadata signature publishedAt = true

namespace DeletionRequest

variable (sha256 : List UInt8 → String) (q : DeletionRequest)

def metadataBytes : List UInt8 := encodeTarget q.metadata q.signature q.publishedAt

def requestBytes : List UInt8 := encodeRaw
  [("format", .int 1), ("kind", .str "delete"),
   ("metadata_sha256", .str (sha256 (domain "FreeSDN/release-deletion-target/v1" q.metadataBytes))),
   ("operation_id", .str q.operationId.text), ("organization_id", organizationJson q.organizationId),
   ("release_id", .str q.releaseId.text)]

def requestSha256 : String := sha256 (q.requestBytes sha256)

/-- `matches`. -/
def fits (r : Release) : Bool :=
  r.id = q.releaseId && r.organizationId = q.organizationId &&
    encodeTarget r.metadata r.signature r.publishedAt = q.metadataBytes

end DeletionRequest

/-! ### Authority and budget -/

/-- What `ReleaseMutationAuthority.require_scope` reads. -/
structure Authority where
  actorId : Uuid
  organizationId : Option Uuid
  superAdmin : Bool
  isScoped : Bool

def Authority.requireScope (a : Authority) (organizationId : Option Uuid) : Except Refusal Unit :=
  require ((a.superAdmin && !a.isScoped) || (a.organizationId.isSome && organizationId = a.organizationId))
    (.http 404 "Release not found")

/-- `ReleaseReservationBudget`. -/
structure Budget where
  globalHistory : Nat
  organizationHistory : Nat
  globalOwnedBytes : Nat
  organizationOwnedBytes : Nat

end FreeSdn.Releases
