import FreeSdn.Staging.Change

/-! Input validation of staged writes (`adapters/validation.py` and the payload checks of
`adapter_staging.py`).  The patterns are applied with `match` and end in `$`, so each also accepts
one newline at the end. -/

namespace FreeSdn.Staging

open FreeSdn.Lib

/-- What Python prints of values: `repr` of a string, `str` of a JSON value that is not one, and
PostgreSQL's text of a JSON float. -/
structure Printing where
  repr : String → String
  str : Json → String
  floatText : FloatText → String

def badRequest (detail : String) : HttpError := ⟨400, detail⟩

def notFound (detail : String) : HttpError := ⟨404, detail⟩

def conflict (detail : String) : HttpError := ⟨409, detail⟩

def isOpaqueIdChar (c : Char) : Bool :=
  isAsciiAlnum c || c == '_' || c == '.' || c == '-' || c == '*' || c == ':'

/-- `validate_id`. -/
def validateId (value label : String) : Except HttpError Unit :=
  if allIn isOpaqueIdChar 1 64 (dropFinalNewline value.toList) ∧ !hasDotDot value.toList then .ok ()
  else .error (badRequest ("invalid " ++ label ++ " format"))

/-- `([-:][0-9A-Fa-f]{2})*`, with the number of repetitions. -/
def macTail : Nat → List Char → Bool
  | 0, cs => cs.isEmpty
  | n + 1, sep :: a :: b :: rest =>
    (sep == '-' || sep == ':') && isHexDigit a && isHexDigit b && macTail n rest
  | _ + 1, _ => false

/-- `validate_mac`. -/
def validateMac (mac : String) : Except HttpError Unit :=
  match dropFinalNewline mac.toList with
  | a :: b :: rest =>
    if isHexDigit a ∧ isHexDigit b ∧ macTail 5 rest then .ok ()
    else .error (badRequest "invalid mac address format")
  | _ => .error (badRequest "invalid mac address format")

def isZfsIdChar (c : Char) : Bool :=
  isAsciiAlnum c || c == '.' || c == '_' || c == ':' || c == '/' || c == '@' || c == '-'

/-- `_validate_structured_zfs_id`. -/
def validateStructuredZfsId (print : Printing) (value : String) : Except HttpError Unit :=
  let shaped : Bool := match dropFinalNewline value.toList with
    | first :: rest => isAsciiAlnum first && rest.all isZfsIdChar
    | [] => false
  if shaped ∧ !hasDotDot value.toList ∧ '\\' ∉ value.toList then .ok ()
  else .error
    (badRequest ("snapshot_id is not a valid dataset@name id: " ++ print.repr value))

/-- `_PATH_TRAVERSAL_RE`. -/
def hasTraversal (value : String) : Bool :=
  hasDotDot value.toList || decide ('/' ∈ value.toList) || decide ('\\' ∈ value.toList)

def macKeys : List String := ["mac", "switch_mac", "device_mac", "ap_mac"]

def structuredPathKeys : List String := ["snapshot_id"]

def idKeys : List String :=
  ["wlan_id", "ssid_id", "portal_id", "backup_id", "template_id", "target_site_id", "schedule_id",
   "user_id", "admin_id", "policy_id", "operator_id", "change_id", "network_id", "route_id",
   "lag_id", "binding_id", "reservation_id", "rule_id", "port_id", "vlan_id"]

/-- The strict validator of a key that is known to reach a URL path. -/
def keyValidator (print : Printing) (key : String) : Option (String → Except HttpError Unit) :=
  if key ∈ macKeys then some validateMac
  else if key ∈ structuredPathKeys then some (validateStructuredZfsId print)
  else if key ∈ idKeys then some fun value => validateId value key
  else none

/-- A validator, run on a string or on the strings of a list. -/
def validateStrings (validator : String → Except HttpError Unit) : Json → Except HttpError Unit
  | .str s => validator s
  | .arr items => items.forM fun item => match item with
    | .str s => validator s
    | _ => .ok ()
  | _ => .ok ()

/-- The keys whose suffix suggests that they reach a URL path. -/
def suspiciousKey (key : String) : Bool :=
  endsWith key "_id" || endsWith key "_mac" || key == "id" || key == "mac"

/-- The fallback of `_validate_url_path_payload_keys` for a suspicious key without validator. -/
def rejectTraversal (print : Printing) (key : String) : Json → Except HttpError Unit
  | .str s =>
    if hasTraversal s then
      .error (badRequest ("payload[" ++ print.repr key ++ "] contains path-traversal characters"))
    else .ok ()
  | .arr items => items.forM fun item => match item with
    | .str s =>
      if hasTraversal s then
        .error (badRequest
          ("payload[" ++ print.repr key ++ "] list element contains path-traversal characters"))
      else .ok ()
    | _ => .ok ()
  | _ => .ok ()

/-- `_validate_url_path_payload_keys`. -/
def validateUrlPathPayloadKeys (print : Printing) (payload : Dict) : Except HttpError Unit :=
  payload.forM fun (key, value) =>
    match keyValidator print key with
    | some validator => validateStrings validator value
    | none => if suspiciousKey key then rejectTraversal print key value else .ok ()

end FreeSdn.Staging
