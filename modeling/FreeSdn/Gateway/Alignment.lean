import FreeSdn.Gateway.Vlans
import FreeSdn.Lib.Except
import Mathlib.Data.List.Dedup

/-! The alignment check (`check_alignment` of `services/reconciliation_service.py`): the canonical VLANs of a
site are compared with the VLANs that each brain and limb device reports, and what was found of each
VLAN on each device is counted. -/

namespace FreeSdn.Gateway

open FreeSdn.Lib
open FreeSdn.Staging (get truthy)

inductive AlignmentStatus
  | aligned | missing | modified | extra | error
  deriving DecidableEq

/-- The state of one VLAN on one device, or the error of a device. -/
structure AlignmentItem where
  vlanId : Int
  vlanName : String
  canonicalVlanUuid : Option Uuid
  deviceId : Uuid
  deviceType : String
  deviceRole : NetworkRole
  status : AlignmentStatus
  details : List (String × String)
  deriving DecidableEq

structure AlignmentReport where
  siteId : Uuid
  totalVlans : Nat
  aligned : Nat
  missing : Nat
  modified : Nat
  extra : Nat
  errored : Nat
  items : List AlignmentItem
  errors : List String
  score : FloatText
  deriving DecidableEq

/-- A VLAN that the network module keeps for a controller. -/
structure ControllerVlan where
  vlanId : Int
  name : String
  subnet : Option String

/-- What the check depends on: the conversions, the rounded percentage `round(a / n * 100, 1)` as a
float, and what each device answers; the VLANs of a controller are read from the database. -/
structure Fleet where
  py : Python
  percentage : Nat → Nat → FloatText
  gateway : Assignment → Reply
  controller : Assignment → Except Raised (List ControllerVlan)

variable (fleet : Fleet)

/-! ### The ids that a device reports -/

/-- `re.search(r"\d+", text)`. -/
def firstDigits (text : String) : Option String :=
  match (text.toList.dropWhile (!isDecimalChar ·)).takeWhile isDecimalChar with
  | [] => none
  | digits => some (String.ofList digits)

/-- The digits in the name of an entry, or in its description where the name is empty. -/
def nameDigits (py : Python) (d : Dict) : Option String :=
  let name := toStr py ((get d "name").getD (.str ""))
  firstDigits (if name = "" then toStr py ((get d "description").getD (.str "")) else name)

def rawVlanId (py : Python) (d : Dict) : Json :=
  match firstTrue d vlanIdKeys with
  | .null => ((nameDigits py d).map Json.str).getD .null
  | v => v

/-- The id of an entry; `none` for one that is skipped. -/
def deviceVlanId (py : Python) (d : Dict) : Except Raised (Option Int) :=
  match rawVlanId py d with
  | .null => .ok none
  | v =>
    match toInt py v with
    | .number n => .ok (some n)
    | .invalid => .ok none
    | .overflow => .error ⟨"OverflowError", "cannot convert float infinity to integer"⟩

/-- The set of the ids, here in the order of the entries. -/
def deviceVlanIds (py : Python) (deviceVlans : Json) : Except Raised (List Int) := do
  let values ← items deviceVlans
  let ids ← values.mapM fun v => do
    let d ← fieldsOf v
    deviceVlanId py d
  .ok (ids.filterMap id).dedup

/-! ### One device -/

def controllerRow (v : ControllerVlan) : Json :=
  .obj [("vlan_id", .int v.vlanId), ("name", .str v.name),
    ("subnet", (v.subnet.map Json.str).getD .null)]

/-- The VLANs of a device, or the error that keeps them from being read. -/
def deviceVlans (assign : Assignment) : Except Raised Json :=
  if assign.deviceType = "gateway" then
    match fleet.gateway assign with
    | .noAdapter e => .error e
    | .timeout => .error ⟨"TimeoutError", ""⟩
    | .raised e => .error e
    | .result true data _ => .ok data
    | .result false _ _ => .ok (.arr [])
  else do
    let rows ← fleet.controller assign
    .ok (.arr (rows.map controllerRow))

def errorItem (assign : Assignment) (e : Raised) : AlignmentItem where
  vlanId := 0
  vlanName := ""
  canonicalVlanUuid := none
  deviceId := assign.deviceId
  deviceType := assign.deviceType
  deviceRole := assign.role
  status := .error
  details := [("error", e.kind), ("message", truncate 200 e.message)]

/-- A canonical VLAN on a device with the given ids. -/
def canonicalItem (assign : Assignment) (ids : List Int) (m : Int × Vlan) : AlignmentItem where
  vlanId := m.1
  vlanName := m.2.name
  canonicalVlanUuid := some m.2.id
  deviceId := assign.deviceId
  deviceType := assign.deviceType
  deviceRole := assign.role
  status := if m.1 ∈ ids then .aligned else .missing
  details := []

def extraItem (assign : Assignment) (n : Int) : AlignmentItem where
  vlanId := n
  vlanName := "VLAN " ++ toString n
  canonicalVlanUuid := none
  deviceId := assign.deviceId
  deviceType := assign.deviceType
  deviceRole := assign.role
  status := .extra
  details := []

/-- `_check_device_alignment`. An error in the entries of a device that could be read is not caught. -/
def checkDeviceAlignment (canonById : List (Int × Vlan)) (assign : Assignment) :
    Except Raised (List AlignmentItem) :=
  match deviceVlans fleet assign with
  | .error e => .ok [errorItem assign e]
  | .ok vlans => do
    let ids ← deviceVlanIds fleet.py vlans
    .ok (canonById.map (canonicalItem assign ids) ++
      (ids.filter fun n => n ∉ canonById.map Prod.fst).map (extraItem assign))

/-! ### All devices -/

def AlignmentReport.addItem (r : AlignmentReport) (item : AlignmentItem) : AlignmentReport :=
  let r := { r with items := r.items ++ [item] }
  match item.status with
  | .aligned => { r with aligned := r.aligned + 1 }
  | .missing => { r with missing := r.missing + 1 }
  | .modified => { r with modified := r.modified + 1 }
  | .extra => { r with extra := r.extra + 1 }
  | .error => { r with errored := r.errored + 1 }

/-- What the check of one device came to, an exception included, as `gather` returns it. -/
def AlignmentReport.addResult (r : AlignmentReport) (result : Except Raised (List AlignmentItem)) :
    AlignmentReport :=
  match result with
  | .error e => { r with errors := r.errors ++ [e.message] }
  | .ok items => items.foldl AlignmentReport.addItem r

def hundred : FloatText := ⟨"100.0".toList, by decide⟩

/-- Whether the device is checked. -/
def Assignment.checked (a : Assignment) : Bool := a.role = .brain || a.role = .limb

def AlignmentReport.scored (r : AlignmentReport) : AlignmentReport :=
  let totalChecks := r.aligned + r.missing + r.modified + r.extra
  if 0 < totalChecks then { r with score := fleet.percentage r.aligned totalChecks } else r

/-- `check_alignment`. -/
def checkAlignment (roleMap : RoleMap) (org : Uuid) (t : Table) : AlignmentReport :=
  let canonVlans := t.live roleMap.siteId org
  let report : AlignmentReport :=
    ⟨roleMap.siteId, canonVlans.length, 0, 0, 0, 0, 0, [], [], hundred⟩
  if canonVlans = [] then report
  else
    match roleMap.assignments.filter Assignment.checked with
    | [] => { report with errors := ["No brain or limb devices to check"] }
    | tasks =>
      let results := tasks.map (checkDeviceAlignment fleet (byId canonVlans))
      (results.foldl AlignmentReport.addResult report).scored fleet

end FreeSdn.Gateway
