import FreeSdn.Lib.Text
import FreeSdn.Staging.Change

/-! What the gateway services read and keep of VLANs: the entries that devices report, whose members
vendors name differently, the role map of a site and the table of canonical VLANs
(`modules/gateway/models.py`). -/

namespace FreeSdn.Gateway

open FreeSdn.Lib
open FreeSdn.Staging (get truthy)

/-! ### Reading the entries of a device -/

/-- What `int` comes to: a number, the errors that the callers catch, or `OverflowError`. -/
inductive Converted
  | number (n : Int)
  | invalid
  | overflow
  deriving DecidableEq

/-- The conversions of Python that depend on its floats and containers. -/
structure Python where
  /-- `str` of a value that is not a string. -/
  str : Json → String
  /-- `int` of a float. -/
  truncate : FloatText → Converted

def digitValue (c : Char) : Option Nat :=
  (decimalZeros.find? fun z => z ≤ c.toNat && c.toNat < z + 10).map (c.toNat - ·)

/-- Digits, with single underscores between them. -/
def readDigits : List Char → Option (List Nat)
  | [] => none
  | [c] => (digitValue c).map fun d => [d]
  | c :: '_' :: rest => do
    let d ← digitValue c
    let ds ← readDigits rest
    some (d :: ds)
  | c :: next :: rest => do
    let d ← digitValue c
    let ds ← readDigits (next :: rest)
    some (d :: ds)

/-- The digits that `int` reads at most. -/
def maxStrDigits : Nat := 4300

def readNat (cs : List Char) : Option Nat := do
  let ds ← readDigits cs
  if ds.length ≤ maxStrDigits then some (ds.foldl (fun n d => 10 * n + d) 0) else none

/-- `int` of a string; `none` is `ValueError`. -/
def readInt (s : String) : Option Int :=
  let cs := (((s.toList.dropWhile isWhitespace).reverse).dropWhile isWhitespace).reverse
  match cs with
  | '-' :: ds => (readNat ds).map fun n => -(n : Int)
  | '+' :: ds => (readNat ds).map fun n => (n : Int)
  | ds => (readNat ds).map fun n => (n : Int)

variable (py : Python)

/-- `int(value)`. -/
def toInt : Json → Converted
  | .bool b => .number (if b then 1 else 0)
  | .int n => .number n
  | .float t => py.truncate t
  | .str s => ((readInt s).map Converted.number).getD .invalid
  | _ => .invalid

/-- `str(value)`. -/
def toStr : Json → String
  | .str s => s
  | v => py.str v

/-- `d.get(k1) or d.get(k2) or …`: the last value where none is true. -/
def firstTrue (d : Dict) : List String → Json
  | [] => .null
  | [key] => (get d key).getD .null
  | key :: keys =>
    let v := (get d key).getD .null
    if truthy v then v else firstTrue d keys

/-- The names that vendors give to a VLAN's id. -/
def vlanIdKeys : List String := ["vlan_id", "tag", "vlan", "vid", "VlanID"]

/-! ### Role maps -/

abbrev Uuid := String

inductive NetworkRole
  | brain | brainStandby | limb | observer
  deriving DecidableEq

/-- `SiteRoleAssignment`; one of the two devices is set. -/
structure Assignment where
  id : Uuid
  gatewayId : Option Uuid
  controllerId : Option Uuid
  deviceType : String
  role : NetworkRole
  suppressDhcp : Bool
  oneDevice : gatewayId.isSome ≠ controllerId.isSome
  deriving DecidableEq

/-- An assignment of a gateway. -/
def gatewayDevice (id gatewayId : Uuid) (role : NetworkRole) (suppressDhcp : Bool) : Assignment :=
  ⟨id, some gatewayId, none, "gateway", role, suppressDhcp, by simp⟩

/-- The property `device_id`. -/
def Assignment.deviceId (a : Assignment) : Uuid :=
  match a.gatewayId, a.controllerId with
  | some id, _ => id
  | none, some id => id
  | none, none => ""

structure RoleMap where
  siteId : Uuid
  assignments : List Assignment

/-- The first brain of the role map. -/
def RoleMap.brain (m : RoleMap) : Option Assignment := m.assignments.find? fun a => a.role = .brain

def RoleMap.limbs (m : RoleMap) : List Assignment := m.assignments.filter fun a => a.role = .limb

/-! ### Canonical VLANs -/

/-- A row of `gw_canonical_vlans`. -/
structure Vlan where
  id : Uuid
  organizationId : Uuid
  siteId : Uuid
  deleted : Bool
  vlanId : Int
  name : String
  subnet : String
  gatewayIp : String
  dhcpEnabled : Bool
  dhcpRangeStart : Option String
  dhcpRangeEnd : Option String
  sourceDeviceId : Option Uuid
  managementState : String
  purpose : String
  externalIds : List (Uuid × String)
  deriving DecidableEq

/-- The columns of `uq_gw_vlan_per_site`, which spans deleted rows as well. -/
def Vlan.key (v : Vlan) : Uuid × Int := (v.siteId, v.vlanId)

/-- The table, with its unique constraint. -/
structure Table where
  rows : List Vlan
  unique : (rows.map Vlan.key).Nodup

/-- Whether the queries of a site's canonical VLANs find the row. -/
def Vlan.live (siteId org : Uuid) (v : Vlan) : Bool :=
  v.siteId = siteId && v.organizationId = org && !v.deleted

def Table.live (t : Table) (siteId org : Uuid) : List Vlan := t.rows.filter (Vlan.live siteId org)

/-- `{v.vlan_id: v for v in rows}` for the live rows of a site, whose ids are distinct. -/
def byId (rows : List Vlan) : List (Int × Vlan) := rows.map fun v => (v.vlanId, v)

theorem Table.live_ids (t : Table) (siteId org : Uuid) :
    ((t.live siteId org).map Vlan.vlanId).Nodup := by
  have keys : ((t.live siteId org).map Vlan.key).Nodup :=
    t.unique.sublist (List.filter_sublist.map Vlan.key)
  have same : (t.live siteId org).map Vlan.key =
      ((t.live siteId org).map Vlan.vlanId).map fun n => (siteId, n) := by
    rw [List.map_map]
    refine List.map_congr_left fun v mem => ?_
    have here := (List.mem_filter.mp mem).2
    simp only [Vlan.live, Bool.and_eq_true, decide_eq_true_eq] at here
    exact congrArg (·, v.vlanId) here.1.1
  rw [same] at keys
  exact keys.of_map _

/-! ### Devices -/

/-- An exception: the name of its type and its text. -/
structure Raised where
  kind : String
  message : String
  deriving DecidableEq

/-- How a gateway's `get_vlan_devices` ends: there may be no adapter for it, it may take too long
or raise, or it returns a result. -/
inductive Reply
  | noAdapter (e : Raised)
  | timeout
  | raised (e : Raised)
  | result (success : Bool) (data : Json) (error : Option String)

/-- `type(value).__name__`. -/
def typeName : Json → String
  | .null => "NoneType"
  | .bool _ => "bool"
  | .int _ => "int"
  | .float _ => "float"
  | .str _ => "str"
  | .arr _ => "list"
  | .obj _ => "dict"

/-- What `for item in value` goes through. -/
def elements : Json → Except Raised (List Json)
  | .arr items => .ok items
  | .obj members => .ok (members.map fun m => .str m.1)
  | .str s => .ok (s.toList.map fun c => .str (String.singleton c))
  | v => .error ⟨"TypeError", "'" ++ typeName v ++ "' object is not iterable"⟩

/-- The items of `data or []`. -/
def items (data : Json) : Except Raised (List Json) :=
  if truthy data then elements data else .ok []

/-- The members of an item; another value has no method `get`. -/
def fieldsOf : Json → Except Raised Dict
  | .obj members => .ok members
  | v => .error ⟨"AttributeError", "'" ++ typeName v ++ "' object has no attribute 'get'"⟩

end FreeSdn.Gateway
