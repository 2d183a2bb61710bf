import FreeSdn.Artifact.Directory
import FreeSdn.Lib.Text

/-! The installation's signing key (`services/release_signing.py`): the three files of the signing
directory, and `_load_or_generate` as a program of system calls. -/

namespace FreeSdn.Signing

open FreeSdn.Lib
open FreeSdn.Artifact (File FileState)

/-- `.signing-key.pem`, `.public-key.pem` and `.signing-identity.sha256`. -/
inductive Name
  | privateKey
  | publicKey
  | identity
  deriving DecidableEq

/-- `SigningKeyError`, `FileNotFoundError`, or another of `OSError`, `ValueError` and `TypeError`. -/
inductive Raised
  | refused (message : String)
  | missing
  | other
  deriving DecidableEq

def Raised.isMissing (e : Raised) : Bool := e = .missing

structure Directory where
  entries : Name → Option Nat
  files : Nat → File
  next : Nat
  -- How often a private key was created.
  created : Nat

namespace Directory

def contents (d : Directory) (name : Name) : Option (List UInt8) :=
  (d.entries name).map fun n => (d.files n).contents

def add (d : Directory) (name : Name) (f : File) : Directory where
  entries := Function.update d.entries name (some d.next)
  files := Function.update d.files d.next f
  next := d.next + 1
  created := if name = .privateKey then d.created + 1 else d.created

def setFile (d : Directory) (fd : Nat) (f : File) : Directory :=
  { d with files := Function.update d.files fd f }

end Directory

/-! ### System calls -/

/-- `check` stands for the clock, the lock and the directories on the path; `generate` is a new private
key. -/
inductive Query
  | check
  | generate
  | openFile (name : Name)
  | stat (name : Name)
  | fstat (fd : Nat)
  | pread (fd offset size : Nat)
  | sync (fd : Option Nat)
  | close (fd : Nat)

inductive Change
  | create (name : Name)
  | write (fd : Nat) (data : List UInt8)

/-- A private key of the curve P-256 is a number. -/
abbrev Value : Query ⊕ Change → Type
  | .inl .check => Unit
  | .inl .generate => Nat
  | .inl (.openFile _) => Nat
  | .inl (.stat _) => FileState
  | .inl (.fstat _) => FileState
  | .inl (.pread _ _ _) => List UInt8
  | .inl (.sync _) => Unit
  | .inl (.close _) => Unit
  | .inr (.create _) => Nat
  | .inr (.write _ _) => Nat

/-- What the system decides. -/
structure Turn where
  fault : Option Raised
  short : Option Nat
  made : File
  now : Nat
  key : Nat

def Turn.guard (c : Turn) (x : Except Raised α) : Except Raised α :=
  if c.fault.isSome then .error .other else x

/-- At least one byte is read unless none is left. -/
def Turn.portion (c : Turn) (size : Nat) : Nat := min size (max 1 (c.short.getD size))

def ask (d : Directory) (c : Turn) : (q : Query) → Except Raised (Value (.inl q))
  | .check => c.fault.elim (.ok ()) .error
  | .generate => .ok c.key
  | .openFile name => c.guard (orRaise (d.entries name) .missing)
  | .stat name => c.guard (orRaise ((d.entries name).map fun n => (d.files n).state) .missing)
  | .fstat fd => c.guard (.ok (d.files fd).state)
  | .pread fd offset size => c.guard (.ok (((d.files fd).contents.drop offset).take (c.portion size)))
  | .sync _ => c.guard (.ok ())
  | .close _ => c.guard (.ok ())

def act (d : Directory) (c : Turn) : (k : Change) → Except Raised (Value (.inr k)) × Directory
  | .create name =>
    if c.fault.isSome ∨ (d.entries name).isSome then (.error .other, d)
    else (.ok d.next, d.add name { c.made with contents := [] })
  | .write fd data =>
    if c.fault.isSome then (.error .other, d)
    else
      let count := min data.length (c.short.getD data.length)
      (.ok count, d.setFile fd ((d.files fd).append (data.take count) c.now))

def machine : Machine Raised Query Change Value Directory Turn := ⟨ask, act⟩

abbrev Ask := Asking Raised Query Change Value

abbrev Act := Method Raised Unit Query Change Value

def openFile (name : Name) : Ask Nat := query (Query.openFile name)

def stat (name : Name) : Ask FileState := query (Query.stat name)

def fstat (fd : Nat) : Ask FileState := query (Query.fstat fd)

def pread (fd offset size : Nat) : Ask (List UInt8) := query (Query.pread fd offset size)

def sync (fd : Option Nat) : Ask Unit := query (Query.sync fd)

def close (fd : Nat) : Ask Unit := query (Query.close fd)

def demand (condition : Bool) (message : String) : Except Raised Unit :=
  require condition (.refused message)

/-! ### Files -/

/-- What the code takes from outside: the digest, the user that the process runs as, and the PEM forms
of keys.  A text that is no key raises `ValueError`, and nothing stands for a key of another kind. -/
structure Host where
  sha256 : List UInt8 → String
  euid : Nat
  point : Nat → Nat × Nat
  privatePem : Nat → List UInt8
  publicPem : Nat → List UInt8
  loadPrivate : List UInt8 → Option (Option Nat)
  loadPublic : List UInt8 → Option (Option (Nat × Nat))

def keyBytesLimit : Nat := 4096

variable (h : Host)

/-- `_check_file`. -/
def checkFile (secret : Bool) (s : FileState) : Except Raised Unit := do
  demand (s.mode / 4096 % 16 = 8 && s.links = 1 && s.uid = h.euid)
    "Signing material must be an owned, singly linked regular file"
  let mode := s.mode % 4096
  let forbidden := if secret then 0o177 else 0o133
  demand (mode &&& 0o400 ≠ 0 && mode &&& forbidden = 0 && mode &&& 0o7000 = 0)
    "Signing material has unsafe permissions"

/-- The loop of `_read_file`; each turn but the last reads something. -/
def readLoop (fd maximum : Nat) : Nat → List UInt8 → Ask (List UInt8)
  | 0, parts => return parts
  | turns + 1, parts => do
    if maximum < parts.length then return parts
    let block ← pread fd parts.length (maximum + 1 - parts.length)
    if block.isEmpty then return parts
    readLoop fd maximum turns (parts ++ block)

def syncIf (synchronize : Bool) (fd : Nat) : Ask Unit :=
  if synchronize then sync (some fd) else return ()

/-- What `_read_file` does with the open file. -/
def readOpen (fd : Nat) (name : Name) (secret : Bool) (maximum : Nat) (synchronize : Bool) :
    Ask (List UInt8) := do
  let before ← fstat fd
  checkFile h secret before
  demand (0 < before.size && before.size ≤ maximum) "Signing material has invalid size"
  let parts ← readLoop fd maximum (maximum + 2) []
  syncIf synchronize fd
  let after ← fstat fd
  let current ← stat name
  demand (parts.length = before.size && parts.length ≤ maximum)
    "Signing material changed or exceeded its size limit"
  demand (before = after && after = current) "Signing material changed while being read"
  return parts

/-- `_read_file`. -/
def readFile (name : Name) (secret : Bool) (maximum : Nat) (synchronize : Bool) :
    Ask (Option (List UInt8)) := do
  match ← rescue Raised.isMissing (openFile name) with
  | none => return none
  | some fd => return some (← finish (readOpen h fd name secret maximum synchronize) (close fd))

/-- The loop of `_create_file`; its turns are at most the bytes that it is given. -/
def writeAll (fd : Nat) : Nat → List UInt8 → Act Unit
  | 0, _ => return ()
  | turns + 1, pending => do
    if pending.isEmpty then return ()
    let written ← change (Change.write fd pending)
    demand (0 < written) "Signing material could not be written completely"
    writeAll fd turns (pending.drop written)

/-- `_create_file`. -/
def createFile (name : Name) (data : List UInt8) : Act Unit := do
  let fd ← change (Change.create name)
  Method.finish (do
    let initial ← inquire (fstat fd)
    checkFile h true initial
    writeAll fd data.length data
    inquire (sync (some fd))
    let completed ← inquire (fstat fd)
    checkFile h true completed
    let current ← inquire (stat name)
    demand (completed.size = data.length && completed = current)
      "Signing material changed during publication") (close fd)
  inquire (sync none)

def createMissing (found : Option (List UInt8)) (name : Name) (data : List UInt8) : Act Unit :=
  match found with
  | none => createFile h name data
  | some _ => return ()

/-! ### Keys -/

def isBytesSpace (b : UInt8) : Bool := b = 32 || (9 ≤ b.toNat && b.toNat ≤ 13)

/-- `bytes.strip`. -/
def strip (data : List UInt8) : List UInt8 :=
  (((data.dropWhile isBytesSpace).reverse).dropWhile isBytesSpace).reverse

/-- `bytes.count`: occurrences that do not overlap. -/
def countIn (pattern : List UInt8) : Nat → List UInt8 → Nat
  | 0, _ => 0
  | _, [] => 0
  | turns + 1, b :: data =>
    if pattern.isPrefixOf (b :: data) then 1 + countIn pattern turns ((b :: data).drop pattern.length)
    else countIn pattern turns data

def ascii (s : String) : List UInt8 := s.toList.map fun c => c.toNat.toUInt8

def occurrences (s : String) (data : List UInt8) : Nat := countIn (ascii s) data.length data

/-- `_single_pem`. -/
def singlePem (data : List UInt8) (labels : List String) : Except Raised Unit := do
  demand (occurrences "-----BEGIN " data = 1 && occurrences "-----END " data = 1)
    "Signing material must contain exactly one PEM object"
  let stripped := strip data
  demand (labels.any fun label => (ascii ("-----BEGIN " ++ label ++ "-----")).isPrefixOf stripped &&
      (ascii ("-----END " ++ label ++ "-----")).isSuffixOf stripped)
    "Signing material uses an unsupported PEM object"

/-- `_private_from_bytes`. -/
def privateFromBytes (data : List UInt8) : Except Raised Nat := do
  singlePem data ["PRIVATE KEY", "EC PRIVATE KEY"]
  orRaise (← orRaise (h.loadPrivate data) .other)
    (.refused "Agent signing requires an ECDSA P-256 private key")

/-- `_validate_public`. -/
def validatePublic (data : List UInt8) (key : Nat) : Except Raised Unit := do
  singlePem data ["PUBLIC KEY"]
  let point ← orRaise (← orRaise (h.loadPublic data) .other)
    (.refused "Agent signing requires an ECDSA P-256 public key")
  demand (point = h.point key) "Stored signing keys have different identities"

def isDigest (text : String) : Bool := text.toList.length = 64 && text.toList.all isLowerHexDigit

/-- `_validated_anchor`. -/
def validatedAnchor (pem : List UInt8) (sha256 : String) : Except Raised (List UInt8) := do
  demand (0 < pem.length && pem.length ≤ keyBytesLimit)
    "Installation signing public key has invalid format or size"
  demand (isDigest sha256) "Installation signing fingerprint has invalid format"
  demand (h.sha256 pem = sha256) "Installation signing public key and fingerprint disagree"
  require (pem.all fun b => b.toNat < 128) (.refused "Installation signing public key is invalid")
  singlePem pem ["PUBLIC KEY"]
  let key ← orRaise (h.loadPublic pem) (.refused "Installation signing public key is invalid")
  let _ ← orRaise key (.refused "Installation signing requires an ECDSA P-256 public key")
  return pem

/-- The identity marker of a public key. -/
def fingerprint (pem : List UInt8) : List UInt8 := ascii (h.sha256 pem) ++ [10]

/-- The marker is 64 hexadecimal digits and a newline. -/
def isMarker (identity : List UInt8) : Bool :=
  identity.length = 65 && identity.getLast? = some 10 &&
    (identity.take 64).all fun b => isLowerHexDigit (Char.ofNat b.toNat)

/-! ### The locked directory -/

/-- The parameters of `_load_or_generate`: the legacy helpers have none, a signature or a check has the
public key that is trusted, and a lifecycle operation has its mode. -/
inductive Purpose
  | legacy
  | anchored (expected : List UInt8)
  | initialization
  | adopt (sha256 : String)
  | resume

/-- What a lifecycle mode requires of the files that are there, and the public key to expect. -/
def review (purpose : Purpose) (privateBytes publicBytes identity : Option (List UInt8)) :
    Except Raised (Option (List UInt8)) :=
  match purpose with
  | .legacy => return none
  | .anchored expected => return some expected
  | .initialization => do
    demand (privateBytes.isNone && publicBytes.isNone && identity.isNone)
      "Initialization requires an empty key store; review existing identity"
    return none
  | .adopt sha256 => do
    match privateBytes, publicBytes with
    | some _, some bytes => return some (← validatedAnchor h bytes sha256)
    | _, _ => throw (.refused "Adoption requires the existing private and exact public key files")
  | .resume => do
    demand privateBytes.isSome
      "Pending initialization has no private material; explicit cancellation/recovery required"
    return none

/-- The private key that is there, or a new one. -/
def privateKey (expected privateBytes publicBytes identity : Option (List UInt8)) :
    Act (Nat × List UInt8) := do
  match privateBytes with
  | none => do
    demand (expected.isNone && publicBytes.isNone && identity.isNone)
      "Signing private key is missing; restore the existing identity"
    let key ← inquire (query Query.generate)
    createFile h .privateKey (h.privatePem key)
    return (key, h.privatePem key)
  | some bytes => return (← privateFromBytes h bytes, bytes)

/-- What is not there yet is created, and all is read again. -/
def publish (key : Nat) (privateBytes public_ : List UInt8) (publicBytes identity : Option (List UInt8)) :
    Act (Nat × List UInt8) := do
  createMissing h identity .identity (fingerprint h public_)
  createMissing h publicBytes .publicKey public_
  let finalPrivate ← inquire (readFile h .privateKey true keyBytesLimit true)
  let finalPublic ← inquire (readFile h .publicKey false keyBytesLimit true)
  let finalIdentity ← inquire (readFile h .identity true 65 true)
  demand (finalPrivate = some privateBytes && finalPublic = some public_ &&
      finalIdentity = some (fingerprint h public_))
    "Signing material changed during validation"
  inquire (sync none)
  return (key, public_)

/-- `_pair_under_lock`. -/
def pairUnderLock (purpose : Purpose) : Act (Nat × List UInt8) := do
  let privateBytes ← inquire (readFile h .privateKey true keyBytesLimit false)
  let publicBytes ← inquire (readFile h .publicKey false keyBytesLimit false)
  let identity ← inquire (readFile h .identity true 65 false)
  demand (identity.all isMarker) "Stored signing identity marker is malformed"
  let expected ← (review h purpose privateBytes publicBytes identity : Except Raised _)
  let (key, privateBytes) ← privateKey h expected privateBytes publicBytes identity
  let public_ := publicBytes.getD (expected.getD (h.publicPem key))
  validatePublic h public_ key
  demand (expected.all (public_ = ·))
    "Stored signing keys do not match the trusted installation identity"
  demand (identity.all (· = fingerprint h public_))
    "Stored signing identity does not match the keypair"
  publish h key privateBytes public_ publicBytes identity

/-- `_load_or_generate`: the private key and the bytes of the public one. -/
def loadOrGenerate (purpose : Purpose) : Act (Nat × List UInt8) := do
  inquire (query Query.check)
  let pair ← pairUnderLock h purpose
  inquire (query Query.check)
  return pair

end FreeSdn.Signing
