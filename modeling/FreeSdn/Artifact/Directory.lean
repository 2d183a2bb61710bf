import FreeSdn.Artifact.Marker
import FreeSdn.Lib.Program
import Mathlib.Logic.Function.Basic

/-! One artifact directory as the system calls of `services/agent_release_artifact_store.py` see it:
names, the files that they stand for, and the descriptors of open files. -/

namespace FreeSdn.Artifact

open FreeSdn.Lib

/-- The names of the files: `payload` and the five markers. -/
inductive Name
  | intent
  | allocation
  | payload
  | prepared
  | retired
  | cleaned
  deriving DecidableEq

/-- `ArtifactUnavailable`, `FileNotFoundError` or another `OSError`. -/
inductive Raised
  | unavailable (message : String)
  | missing
  | os
  deriving DecidableEq

def Raised.isMissing (e : Raised) : Bool := e = .missing

structure File where
  contents : List UInt8
  device : Nat
  inode : Nat
  mode : Nat
  links : Nat
  uid : Nat
  gid : Nat
  modified : Nat
  changed : Nat

def File.state (f : File) : FileState :=
  ⟨f.device, f.inode, f.mode, f.links, f.uid, f.gid, f.contents.length, f.modified, f.changed⟩

/-- A descriptor is the number of the file that it was opened for; a file keeps its number when its
name is gone. -/
structure Directory where
  entries : Name → Option Nat
  files : Nat → File
  next : Nat
  -- How often a payload was created.
  allocations : Nat

namespace Directory

def file (d : Directory) (name : Name) : Option File := (d.entries name).map d.files

def contents (d : Directory) (name : Name) : Option (List UInt8) := (d.file name).map File.contents

/-- A new file under a name that is free. -/
def add (d : Directory) (name : Name) (f : File) : Directory where
  entries := Function.update d.entries name (some d.next)
  files := Function.update d.files d.next f
  next := d.next + 1
  allocations := if name = .payload then d.allocations + 1 else d.allocations

def setFile (d : Directory) (fd : Nat) (f : File) : Directory :=
  { d with files := Function.update d.files fd f }

def remove (d : Directory) (name : Name) : Directory :=
  { d with entries := Function.update d.entries name none }

end Directory

/-! ### System calls -/

/-- What `os.fsync` is called on. -/
inductive Target
  | file (fd : Nat)
  | directory
  | parent

/-- The calls that change nothing.  `check` stands for the clock and for the directories on the path,
which are outside of the artifact directory. -/
inductive Query
  | check
  | openFile (name : Name)
  | stat (name : Name)
  | fstat (fd : Nat)
  | pread (fd offset size : Nat)
  | sync (target : Target)
  | close (fd : Nat)

inductive Change
  | create (name : Name)
  | write (fd : Nat) (data : List UInt8)
  | unlink (name : Name)

abbrev Value : Query ⊕ Change → Type
  | .inl .check => Unit
  | .inl (.openFile _) => Nat
  | .inl (.stat _) => FileState
  | .inl (.fstat _) => FileState
  | .inl (.pread _ _ _) => List UInt8
  | .inl (.sync _) => Unit
  | .inl (.close _) => Unit
  | .inr (.create _) => Nat
  | .inr (.write _ _) => Nat
  | .inr (.unlink _) => Unit

/-- What the system decides: whether the call fails, how many bytes it moves if not all, the attributes
of a new file, and the time. -/
structure Turn where
  fault : Option Raised
  short : Option Nat
  made : File
  now : Nat

def Turn.guard (c : Turn) (x : Except Raised α) : Except Raised α :=
  if c.fault.isSome then .error .os else x

def orMissing (x : Option α) : Except Raised α := orRaise x .missing

/-- At least one byte is read unless none is left. -/
def Turn.portion (c : Turn) (size : Nat) : Nat := min size (max 1 (c.short.getD size))

def ask (d : Directory) (c : Turn) : (q : Query) → Except Raised (Value (.inl q))
  | .check => c.fault.elim (.ok ()) .error
  | .openFile name => c.guard (orMissing (d.entries name))
  | .stat name => c.guard (orMissing ((d.file name).map File.state))
  | .fstat fd => c.guard (.ok (d.files fd).state)
  | .pread fd offset size => c.guard (.ok (((d.files fd).contents.drop offset).take (c.portion size)))
  | .sync _ => c.guard (.ok ())
  | .close _ => c.guard (.ok ())

/-- A write goes to the end: only the descriptor that created a file writes to it. -/
def File.append (f : File) (data : List UInt8) (now : Nat) : File :=
  { f with contents := f.contents ++ data, modified := now, changed := now }

def act (d : Directory) (c : Turn) : (k : Change) → Except Raised (Value (.inr k)) × Directory
  | .create name =>
    if c.fault.isSome ∨ (d.entries name).isSome then (.error .os, d)
    else (.ok d.next, d.add name { c.made with contents := [] })
  | .write fd data =>
    if c.fault.isSome then (.error .os, d)
    else
      let count := min data.length (c.short.getD data.length)
      (.ok count, d.setFile fd ((d.files fd).append (data.take count) c.now))
  | .unlink name =>
    if c.fault.isSome then (.error .os, d)
    else match d.entries name with
      | none => (.error .missing, d)
      | some fd =>
        (.ok (), (d.setFile fd { d.files fd with links := (d.files fd).links - 1, changed := c.now }).remove
          name)

def machine : Machine Raised Query Change Value Directory Turn := ⟨ask, act⟩

abbrev Ask := Asking Raised Query Change Value

def openFile (name : Name) : Ask Nat := query (Query.openFile name)

def stat (name : Name) : Ask FileState := query (Query.stat name)

def fstat (fd : Nat) : Ask FileState := query (Query.fstat fd)

def pread (fd offset size : Nat) : Ask (List UInt8) := query (Query.pread fd offset size)

def sync (target : Target) : Ask Unit := query (Query.sync target)

def close (fd : Nat) : Ask Unit := query (Query.close fd)

end FreeSdn.Artifact
