import FreeSdn.Lib.Json
import FreeSdn.Lib.Table

/-! The shared restore loop of the module contributors
(`services/backup_contributors/restore_helpers.py`): archived records, arbitrary JSON, are checked
and written into the rows of one model. -/

namespace FreeSdn.Backup

open FreeSdn.Lib

/-- A UUID, as the number it writes. -/
abbrev Uuid := Nat

/-- A Python value of a record or a row. -/
inductive Value
  | json (v : Json)
  | uuid (id : Uuid)
  deriving DecidableEq

/-- `None`. -/
def Value.none : Value := .json .null

/-- What the loop takes from Python: `str`, and the texts that `UUID` reads. -/
structure Python where
  str : Value → String
  readUuid : String → Option Uuid

/-- The mapped columns of a model class, and what an insert stores in a column that it omits. -/
structure Model where
  columns : List String
  uuidFields : List String
  default : String → Value

structure RejectGuard where
  field : String
  valid : List String
  crossTenant : Bool

structure NullableFK where
  field : String
  valid : List String

structure Options where
  resource : String
  dryRun : Bool
  overwrite : Bool
  forceOrg : Option Uuid
  rejectGuards : List RejectGuard
  nullableFks : List NullableFK
  blockedFields : List String
  preserveId : Bool

def baseBlocked : List String := ["created_at", "updated_at", "deleted_at"]

def Options.blocked (o : Options) : List String := baseBlocked ++ o.blockedFields

/-! ### Records and rows -/

/-- A dictionary. -/
structure Record where
  fields : List (String × Value)

def Record.find (rec : Record) (field : String) : Option Value :=
  (rec.fields.find? fun f => f.1 = field).map (·.2)

/-- `rec.get(field)`. -/
def Record.get (rec : Record) (field : String) : Value := (rec.find field).getD .none

/-- `rec[field] = v`. -/
def Record.set (rec : Record) (field : String) (v : Value) : Record :=
  if (rec.find field).isSome then ⟨rec.fields.map fun f => if f.1 = field then (field, v) else f⟩
  else ⟨rec.fields ++ [(field, v)]⟩

/-- A row, by its columns. -/
structure Row where
  column : String → Value

instance : Keyed Row Value := ⟨fun r => r.column "id"⟩

@[simp] theorem key_row (r : Row) : Keyed.key r = r.column "id" := rfl

/-- `getattr(row, field, None)`. -/
def Model.attr (m : Model) (r : Row) (field : String) : Value :=
  if field ∈ m.columns then r.column field else .none

/-- Python's truth value. -/
def truthy : Value → Bool
  | .uuid _ => true
  | .json .null => false
  | .json (.bool b) => b
  | .json (.int n) => n != 0
  | .json (.float t) => t.chars != "0.0".toList && t.chars != "-0.0".toList
  | .json (.str s) => s != ""
  | .json (.arr items) => !items.isEmpty
  | .json (.obj members) => !members.isEmpty

/-! ### Checks on an archived record -/

/-- Why a record is skipped: an error of the restore, or a warning. -/
structure Refusal where
  errors : List String
  warnings : List String

section

variable (py : Python) (m : Model) (o : Options)

/-- One field, with its identifier read. -/
def readField (field : String) (v : Json) : Option Value :=
  if field ∈ m.uuidFields then
    match v with
    | .null => some .none
    | .str text => (py.readUuid text).map .uuid
    | _ => none
  else some (.json v)

def readFields : Dict → Option (List (String × Value))
  | [] => some []
  | (field, v) :: members => do
    let v ← readField py m field v
    let rest ← readFields members
    some ((field, v) :: rest)

/-- `_reject_warning`. -/
def rejectWarning (pk : Value) (guard : RejectGuard) (v : Value) : String :=
  if guard.crossTenant then
    o.resource ++ " " ++ py.str pk ++ ": " ++ guard.field ++
      " not in this organization — rejected (cross-tenant)."
  else
    o.resource ++ " " ++ py.str pk ++ ": " ++ guard.field ++ " " ++ py.str v ++
      " not found among restored parents — skipped (orphan)."

/-- The first guard that the record does not pass. -/
def failedGuard (rec : Record) : Option RejectGuard :=
  o.rejectGuards.find? fun guard => py.str (rec.get guard.field) ∉ guard.valid

/-- The fields that a restore may write. -/
def Record.writable (rec : Record) : Record :=
  ⟨rec.fields.filter fun f => f.1 ∈ m.columns && f.1 ∉ o.blocked && f.1 ≠ "id"⟩

/-- A dangling nullable reference becomes `None`. -/
def nullDangling (clean : Record) (fk : NullableFK) : Record :=
  if clean.get fk.field ≠ .none && py.str (clean.get fk.field) ∉ fk.valid then
    clean.set fk.field .none
  else clean

/-- The organization of models with a column for it. -/
def forceOrganization (clean : Record) : Record :=
  match o.forceOrg with
  | some org =>
    if "organization_id" ∈ m.columns then clean.set "organization_id" (.uuid org) else clean
  | none => clean

/-- The columns to write. -/
def cleanRecord (rec : Record) : Record :=
  forceOrganization m o (o.nullableFks.foldl (nullDangling py) (rec.writable m o))

def invalid (what : String) : Refusal := ⟨[o.resource ++ ": invalid archived " ++ what ++ "."], []⟩

/-- The checks on the values of a record: its identifier and the columns to write. -/
def examineRecord (rec : Record) : Except Refusal (Value × Record) :=
  let pk := rec.get "id"
  if !truthy pk then .error ⟨[], []⟩
  else if o.forceOrg.any fun org => rec.get "organization_id" ≠ .none &&
      py.str (rec.get "organization_id") ≠ py.str (.uuid org) then
    .error ⟨[], [o.resource ++ " " ++ py.str pk ++
      ": organization not in this organization — rejected (cross-tenant)."]⟩
  else
    match failedGuard py o rec with
    | some guard => .error ⟨[], [rejectWarning py o pk guard (rec.get guard.field)]⟩
    | none => .ok (pk, cleanRecord py m o rec)

def examine (archived : Json) : Except Refusal (Value × Record) :=
  match archived with
  | .obj members =>
    match readFields py m members with
    | none => .error (invalid o "identifier")
    | some fields => examineRecord py m o ⟨fields⟩
  | _ => .error (invalid o "record")

/-! ### The loop -/

/-- The live row is not in the scope of the restore. -/
def outsideScope (existing : Row) : Bool :=
  m.attr existing "deleted_at" ≠ .none ||
    (o.forceOrg.any fun org =>
      "organization_id" ∈ m.columns && existing.column "organization_id" ≠ .uuid org) ||
    o.rejectGuards.any fun guard => py.str (m.attr existing guard.field) ∉ guard.valid

/-- How the savepoint of a write ends: it holds, it is rolled back, or the session is lost. -/
inductive Savepoint
  | held
  | rolledBack (exception : String)
  | lost
  deriving DecidableEq

/-- What the database decides for one record: the identifier that an insert without one gets, and how
the savepoint ends. -/
structure Draw where
  generated : Value
  savepoint : Savepoint

structure State where
  rows : List Row
  created : Nat
  updated : Nat
  skipped : Nat
  ids : List String
  errors : List String
  warnings : List String
  /-- The rows written so far. -/
  written : List Value
  failures : Nat

def State.skip (s : State) (why : Refusal) : State :=
  { s with
    skipped := s.skipped + 1, errors := s.errors ++ why.errors
    warnings := s.warnings ++ why.warnings }

def State.restored (s : State) (pk : Value) : State := { s with ids := s.ids ++ [py.str pk] }

/-- The live row with the clean columns. -/
def overwriteRow (existing : Row) (clean : Record) : Row :=
  ⟨fun field => (clean.find field).getD (existing.column field)⟩

def insertRow (pk : Value) (d : Draw) (clean : Record) : Row :=
  ⟨fun field => if field = "id" then if o.preserveId then pk else d.generated
    else (clean.find field).getD (m.default field)⟩

/-- A write that is rolled back. -/
def State.fail (s : State) (pk : Value) (action exception : String) : State :=
  let message := o.resource ++ " " ++ py.str pk ++ ": " ++ action ++ " failed (" ++ exception ++ ")."
  { s.skip ⟨[message], [message]⟩ with failures := s.failures + 1 }

/-- One record; nothing is returned when the session is lost. -/
def restoreOne (s : State) (archived : Json) (d : Draw) : Option State :=
  match examine py m o archived with
  | .error why => some (s.skip why)
  | .ok (pk, clean) =>
    match Table.lookup s.rows pk with
    | some existing =>
      if outsideScope py m o existing then
        some (s.skip ⟨[], [o.resource ++ " " ++ py.str pk ++
          ": existing record is outside the restore scope — rejected."]⟩)
      else if !o.overwrite || o.dryRun then some ((s.skip ⟨[], []⟩).restored py pk)
      else
        match d.savepoint with
        | .lost => none
        | .rolledBack exception => some (s.fail py o pk "update" exception)
        | .held =>
          some ({ s with
            rows := Table.update s.rows pk fun _ => overwriteRow existing clean
            updated := s.updated + 1, written := s.written ++ [pk] }.restored py pk)
    | none =>
      if o.dryRun then some ({ s with created := s.created + 1 }.restored py pk)
      else
        match d.savepoint with
        | .lost => none
        | .rolledBack exception => some (s.fail py o pk "insert" exception)
        | .held =>
          let row := insertRow m o pk d clean
          if (Table.lookup s.rows (row.column "id")).isSome then
            some (s.fail py o pk "insert" "IntegrityError")
          else
            some ({ s with
              rows := s.rows ++ [row], created := s.created + 1
              written := s.written ++ [row.column "id"] }.restored py pk)

/-- The loop over the records; `draws` tells what the database decides for each. -/
def restoreFrom (draws : Nat → Draw) : State → Nat → List Json → Option State
  | s, _, [] => some s
  | s, i, archived :: records =>
    (restoreOne py m o s archived (draws i)).bind fun s => restoreFrom draws s (i + 1) records

/-- `restore_records`. -/
def restoreRecords (draws : Nat → Draw) (rows : List Row) (records : List Json) : Option State :=
  restoreFrom py m o draws ⟨rows, 0, 0, 0, [], [], [], [], 0⟩ 0 records

end

end FreeSdn.Backup
