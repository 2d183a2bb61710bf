import FreeSdn.Hypervisor.Payloads
import FreeSdn.Lib.Except
import FreeSdn.Lib.Text

/-! Reviewed firewall writes (`hypervisor_firewall_operations.py`).  A review predicts the stored
rules and options from a request; applying the request builds a command from it along another path.
The prediction is what the command does. -/

namespace FreeSdn.Hypervisor.Firewall

open FreeSdn.Lib FreeSdn.Lib.Dictionary FreeSdn.Staging

/-! ### Requests -/

inductive Scope
  | cluster | node | guest
  deriving DecidableEq

inductive VmType
  | qemu | lxc
  deriving DecidableEq

structure FirewallTarget where
  scope : Scope
  node : Option String
  vmType : Option VmType
  vmid : Option Int
  deriving DecidableEq

/-- `^[A-Za-z0-9][A-Za-z0-9._-]{0,62}$`. -/
def isNode (s : String) : Bool :=
  match s.toList with
  | [] => false
  | c :: rest =>
    isAsciiAlnum c && allIn (fun c => isAsciiAlnum c || c == '.' || c == '_' || c == '-') 0 62 rest

/-- The validators of `FirewallTarget`. -/
def FirewallTarget.valid (t : FirewallTarget) : Bool :=
  t.node.all isNode && t.vmid.all (fun n => 100 ≤ n && n ≤ 999999999) &&
    (t.scope != .cluster) == t.node.isSome &&
    if t.scope = .guest then t.vmid.isSome && t.vmType.isSome else t.vmid.isNone && t.vmType.isNone

inductive RuleType
  | incoming | outgoing | group
  deriving DecidableEq

def RuleType.text : RuleType → String
  | .incoming => "in"
  | .outgoing => "out"
  | .group => "group"

inductive LogLevel
  | nolog | emerg | alert | crit | err | warning | notice | info | debug
  deriving DecidableEq

def LogLevel.text : LogLevel → String
  | .nolog => "nolog"
  | .emerg => "emerg"
  | .alert => "alert"
  | .crit => "crit"
  | .err => "err"
  | .warning => "warning"
  | .notice => "notice"
  | .info => "info"
  | .debug => "debug"

structure FirewallRuleSettings where
  action : String
  type : RuleType
  enable : Bool
  source : Option String
  dest : Option String
  sport : Option String
  dport : Option String
  proto : Option String
  macro_ : Option String
  iface : Option String
  log : Option LogLevel
  comment : Option String
  deriving DecidableEq

/-- `^[A-Za-z][A-Za-z0-9_-]{0,63}$`. -/
def isActionName (s : String) : Bool :=
  match s.toList with
  | [] => false
  | c :: rest =>
    isAsciiLetter c && allIn (fun c => isAsciiAlnum c || c == '_' || c == '-') 0 63 rest

/-- `no_control_chars` and a length limit. -/
def isPlain (longest : Nat) (s : String) : Bool :=
  s.toList.length ≤ longest && s.toList.all fun c => 32 ≤ c.toNat && c.toNat != 127

/-- The validators of `FirewallRuleSettings`. -/
def FirewallRuleSettings.valid (r : FirewallRuleSettings) : Bool :=
  isActionName r.action && r.source.all (isPlain 512) && r.dest.all (isPlain 512) &&
    r.sport.all (isPlain 256) && r.dport.all (isPlain 256) && r.proto.all (isPlain 32) &&
    r.macro_.all (isPlain 128) && r.iface.all (isPlain 32) && r.comment.all (isPlain 512) &&
    (r.type = .group || r.action ∈ ["ACCEPT", "DROP", "REJECT"]) &&
    (r.type != .group ||
      [r.source, r.dest, r.sport, r.dport, r.proto, r.macro_].all fun f => f.all (· = ""))

/-- `model_dump(exclude_none=True)`. -/
def FirewallRuleSettings.dump (r : FirewallRuleSettings) : Dict :=
  [("action", .str r.action), ("type", .str r.type.text), ("enable", .bool r.enable)] ++
    dumped "source" (r.source.map .str) ++ dumped "dest" (r.dest.map .str) ++
    dumped "sport" (r.sport.map .str) ++ dumped "dport" (r.dport.map .str) ++
    dumped "proto" (r.proto.map .str) ++ dumped "macro" (r.macro_.map .str) ++
    dumped "iface" (r.iface.map .str) ++ dumped "log" (r.log.map (.str ·.text)) ++
    dumped "comment" (r.comment.map .str)

inductive Policy
  | accept | drop | reject
  deriving DecidableEq

def Policy.text : Policy → String
  | .accept => "ACCEPT"
  | .drop => "DROP"
  | .reject => "REJECT"

structure FirewallOptionSettings where
  enable : Option Bool
  policyIn : Option Policy
  policyOut : Option Policy
  dhcp : Option Bool
  ipfilter : Option Bool
  macfilter : Option Bool
  ndp : Option Bool
  radv : Option Bool
  deriving DecidableEq

def FirewallOptionSettings.dump (o : FirewallOptionSettings) : Dict :=
  dumped "enable" (o.enable.map .bool) ++ dumped "policy_in" (o.policyIn.map (.str ·.text)) ++
    dumped "policy_out" (o.policyOut.map (.str ·.text)) ++ dumped "dhcp" (o.dhcp.map .bool) ++
    dumped "ipfilter" (o.ipfilter.map .bool) ++ dumped "macfilter" (o.macfilter.map .bool) ++
    dumped "ndp" (o.ndp.map .bool) ++ dumped "radv" (o.radv.map .bool)

inductive Action
  | create | update | delete | move | options
  deriving DecidableEq

def Action.text : Action → String
  | .create => "create"
  | .update => "update"
  | .delete => "delete"
  | .move => "move"
  | .options => "options"

structure FirewallReviewRequest where
  target : FirewallTarget
  action : Action
  pos : Option Nat
  moveto : Option Nat
  rule : Option FirewallRuleSettings
  options : Option FirewallOptionSettings
  deriving DecidableEq

/-- The options that a scope has. -/
def allowedOptions : Scope → List String
  | .cluster => ["enable", "policy_in", "policy_out"]
  | .node => ["enable"]
  | .guest =>
    ["enable", "policy_in", "policy_out", "dhcp", "ipfilter", "macfilter", "ndp", "radv"]

/-- The validators of `FirewallReviewRequest`. -/
def FirewallReviewRequest.accepted (body : FirewallReviewRequest) : Bool :=
  body.target.valid && body.pos.all (· ≤ 9999) && body.moveto.all (· ≤ 9999) &&
    body.rule.all FirewallRuleSettings.valid &&
    decide (body.action ∈ [.update, .delete, .move]) == body.pos.isSome &&
    decide (body.action = .move) == body.moveto.isSome &&
    decide (body.action ∈ [.create, .update]) == body.rule.isSome &&
    decide (body.action = .options) == body.options.isSome &&
    body.options.all fun o =>
      !o.dump.isEmpty && o.dump.all fun m => decide (m.1 ∈ allowedOptions body.target.scope)

/-! ### The configuration -/

/-- What a call raises. -/
inductive Failure
  | http (e : HttpError)
  /-- `assert`, or `json.dumps` of a number that is not finite. -/
  | other
  deriving DecidableEq

def http (status : Nat) (detail : String) : Failure := .http ⟨status, detail⟩

def fail {α : Type} (status : Nat) (detail : String) : Except Failure α := .error (http status detail)

/-- An answer of the adapter. -/
structure AdapterResult where
  success : Bool
  data : Json
  deriving DecidableEq

/-- `_flag`. -/
def flag : Json → Except Failure Int
  | .int n => if n = 0 ∨ n = 1 then .ok n else fail 502 "Malformed firewall flag"
  | .bool b => .ok (if b then 1 else 0)
  | .str s =>
    if s = "0" then .ok 0 else if s = "1" then .ok 1 else fail 502 "Malformed firewall flag"
  | _ => fail 502 "Malformed firewall flag"

/-- `_native_digest`. -/
def nativeDigest : Option Json → Except Failure String
  | some (.str s) =>
    if allIn isLowerHexDigit 40 40 s.toList then .ok s
    else fail 502 "Native firewall digest unavailable"
  | _ => fail 502 "Native firewall digest unavailable"

/-- A member that a normal rule keeps. -/
def kept (m : String × Json) : Bool :=
  decide (m.1 ∉ ["pos", "digest", "ipversion", "errors"]) && m.2 != .null && m.2 != .str ""

/-- What `_rule` makes of a rule that it accepts. -/
def normalized (raw : Dict) : Except Failure Dict := do
  let enable ← flag ((raw.lookup "enable").getD (.int 0))
  return setItem (raw.filter kept) "enable" (.int enable)

def isString : Option Json → Bool
  | some (.str _) => true
  | _ => false

def isRuleType (value : Option Json) : Bool :=
  value == some (.str "in") || value == some (.str "out") || value == some (.str "group")

/-- `_rule`. -/
def rule (raw : Dict) : Except Failure Dict := do
  require (isString (raw.lookup "action") && isRuleType (raw.lookup "type"))
    (http 502 "Malformed firewall rule")
  require (!truthy ((raw.lookup "errors").getD .null))
    (http 409 "Native rule errors require inspection in Proxmox")
  normalized raw

def flags : List String := ["enable", "dhcp", "ipfilter", "macfilter", "ndp", "radv", "ebtables"]

/-- An option, with a flag as a number. -/
def normalizedOption (m : String × Json) : Except Failure (String × Json) :=
  if m.1 ∈ flags then (flag m.2).map fun n => (m.1, .int n) else .ok m

def normalizedOptions (options : Dict) : Except Failure Dict :=
  (options.filter (·.1 ≠ "digest")).mapM normalizedOption

structure Configuration where
  rules : List Dict
  options : Dict
  identity : Json
  rulesDigest : Option String
  optionsDigest : String
  deriving DecidableEq

def optionalText : Option String → Json
  | some s => .str s
  | none => .null

def Configuration.json (c : Configuration) : Json :=
  .obj [("rules", .arr (c.rules.map .obj)), ("options", .obj c.options), ("identity", c.identity),
    ("rules_digest", optionalText c.rulesDigest), ("options_digest", .str c.optionsDigest)]

/-- One row of the rules: its native digest and the rule. -/
def row (entry : Json × Nat) : Except Failure (String × Dict) :=
  match entry.1 with
  | .obj raw => do
    require (raw.lookup "pos" == some (.int entry.2)) (http 502 "Firewall rule ordering unavailable")
    let native ← nativeDigest (raw.lookup "digest")
    let r ← rule raw
    return (native, r)
  | _ => fail 502 "Firewall rule ordering unavailable"

/-- A guest is identified by the digest of its configuration. -/
def checkIdentity (scope : Scope) (identity : Json) : Except Failure Unit :=
  match scope, identity with
  | .guest, .obj members => (nativeDigest (members.lookup "digest")).map fun _ => ()
  | .guest, _ => fail 502 "Guest configuration identity unavailable"
  | _, _ => .ok ()

/-- `configuration`, on the answer of the adapter. -/
def configuration (digest : Json → Except Failure String) (target : FirewallTarget)
    (result : AdapterResult) : Except Failure Configuration :=
  match result.success, result.data with
  | true, .obj data =>
    match data.lookup "rules", data.lookup "options" with
    | some (.arr rules), some (.obj options) => do
      require (rules.length ≤ 10000) (http 502 "Malformed firewall configuration")
      let ordered ← rules.zipIdx.mapM row
      require (ordered.all fun r => ordered.all fun s => r.1 = s.1)
        (http 502 "Inconsistent firewall rule digests")
      let native ← nativeDigest (options.lookup "digest")
      let normal ← normalizedOptions options
      let identity := (data.lookup "identity").getD .null
      checkIdentity target.scope identity
      let state : Configuration :=
        ⟨ordered.map (·.2), normal, identity, (ordered.map (·.1)).head?, native⟩
      let _ ← digest state.json
      return state
    | _, _ => fail 502 "Malformed firewall configuration"
  | _, _ => fail 502 "Firewall configuration unavailable"

/-! ### Review -/

/-- `propagation_flag`. -/
def propagationFlag : Json → Option Bool
  | .int n => if n = 0 then some false else if n = 1 then some true else none
  | .bool b => some b
  | .str s => if s = "0" then some false else if s = "1" then some true else none
  | _ => none

/-- `has_privileges`. -/
def hasPrivileges (granted : Dict) (required : List String) : Bool :=
  required.all fun privilege => ((granted.lookup privilege).bind propagationFlag).isSome

def requiredPrivileges : Scope → List String
  | .guest => ["VM.Audit", "VM.Config.Network"]
  | _ => ["Sys.Audit", "Sys.Modify"]

/-- The configuration without its native digests. -/
structure Desired where
  rules : List Dict
  options : Dict
  identity : Json
  deriving DecidableEq

/-- `rules.insert(i, r)`. -/
def insertAt {α : Type} (rules : List α) (i : Nat) (r : α) : List α :=
  rules.take i ++ r :: rules.drop i

/-- `int(v) if isinstance(v, bool) else v`. -/
def number : Json → Json
  | .bool b => .int (if b then 1 else 0)
  | v => v

def numbered (d : Dict) : Dict := d.map fun m => (m.1, number m.2)

/-- The state that the review predicts. -/
def desire (body : FirewallReviewRequest) (before : Configuration) : Except Failure Desired := do
  let same : Desired := ⟨before.rules, before.options, before.identity⟩
  require (body.pos.all (· < before.rules.length)) (http 409 "Rule position changed; review again")
  match body.action, body.pos, body.moveto, body.rule, body.options with
  | .create, _, _, some settings, _ => do
    let r ← rule settings.dump
    return { same with rules := insertAt before.rules 0 r }
  | .delete, some pos, _, _, _ => return { same with rules := before.rules.eraseIdx pos }
  | .move, some pos, some moveto, _, _ => do
    require (moveto < before.rules.length && moveto != pos)
      (http 409 "Choose a different existing destination position")
    match before.rules[pos]? with
    | some r =>
      return { same with
        rules := insertAt (before.rules.eraseIdx pos) (moveto - if pos < moveto then 1 else 0) r }
    | none => .error .other
  | .update, some pos, _, some settings, _ => do
    let r ← rule settings.dump
    return { same with rules := before.rules.modify pos (update · r) }
  | .options, _, _, _, some o =>
    return { same with options := update before.options (numbered o.dump) }
  | _, _, _, _, _ => .error .other

/-- A field of `model_dump()`. -/
def optional (value : Option Json) : Json := value.getD .null

def FirewallTarget.json (t : FirewallTarget) : Json :=
  .obj [("scope", .str (match t.scope with
      | .cluster => "cluster"
      | .node => "node"
      | .guest => "guest")),
    ("node", optional (t.node.map .str)),
    ("vm_type", optional (t.vmType.map fun v => .str (if v = .qemu then "qemu" else "lxc"))),
    ("vmid", optional (t.vmid.map .int))]

def FirewallRuleSettings.json (r : FirewallRuleSettings) : Json :=
  .obj [("action", .str r.action), ("type", .str r.type.text), ("enable", .bool r.enable),
    ("source", optional (r.source.map .str)), ("dest", optional (r.dest.map .str)),
    ("sport", optional (r.sport.map .str)), ("dport", optional (r.dport.map .str)),
    ("proto", optional (r.proto.map .str)), ("macro", optional (r.macro_.map .str)),
    ("iface", optional (r.iface.map .str)), ("log", optional (r.log.map (.str ·.text))),
    ("comment", optional (r.comment.map .str))]

def FirewallOptionSettings.json (o : FirewallOptionSettings) : Json :=
  .obj [("enable", optional (o.enable.map .bool)),
    ("policy_in", optional (o.policyIn.map (.str ·.text))),
    ("policy_out", optional (o.policyOut.map (.str ·.text))), ("dhcp", optional (o.dhcp.map .bool)),
    ("ipfilter", optional (o.ipfilter.map .bool)), ("macfilter", optional (o.macfilter.map .bool)),
    ("ndp", optional (o.ndp.map .bool)), ("radv", optional (o.radv.map .bool))]

def FirewallReviewRequest.json (body : FirewallReviewRequest) : Json :=
  .obj [("target", body.target.json), ("action", .str body.action.text),
    ("pos", optional (body.pos.map fun n : Nat => .int n)),
    ("moveto", optional (body.moveto.map fun n : Nat => .int n)),
    ("rule", optional (body.rule.map (·.json))), ("options", optional (body.options.map (·.json)))]

def Desired.json (d : Desired) : Json :=
  .obj [("rules", .arr (d.rules.map .obj)), ("options", .obj d.options), ("identity", d.identity)]

structure Review where
  before : Configuration
  desired : Desired
  expectedDigest : String
  deriving DecidableEq

/-- What the adapter reads. -/
structure Adapter where
  configuration : FirewallTarget → AdapterResult
  permissions : FirewallTarget → AdapterResult

def checkPermissions (scope : Scope) (result : AdapterResult) : Except Failure Unit :=
  match result.success, result.data with
  | true, .obj permissions =>
    require (hasPrivileges permissions (requiredPrivileges scope))
      (http 403 "Firewall operation requires explicit native audit and modify privileges")
  | _, _ => fail 502 "Firewall privileges unavailable"

/-- `review_state`. -/
def reviewState (digest : Json → Except Failure String) (adapter : Adapter)
    (body : FirewallReviewRequest) : Except Failure Review := do
  let before ← configuration digest body.target (adapter.configuration body.target)
  checkPermissions body.target.scope (adapter.permissions body.target)
  let desired ← desire body before
  let expected ← digest (.obj [("request", body.json), ("target", body.target.json),
    ("action", .str body.action.text), ("before", before.json), ("desired", desired.json)])
  return ⟨before, desired, expected⟩

/-! ### Commands -/

/-- What `apply_firewall_operation` is called with. -/
structure Command where
  target : FirewallTarget
  action : Action
  data : Dict
  pos : Option Nat
  deriving DecidableEq

/-- The data of a rule: `v != ""`, with flags as numbers. -/
def FirewallRuleSettings.data (r : FirewallRuleSettings) : Dict :=
  numbered (r.dump.filter (·.2 != .str ""))

def commandData (body : FirewallReviewRequest) (before : Configuration) : Dict :=
  let data := match body.rule with
    | some settings => settings.data
    | none => []
  let data := match body.options with
    | some o => numbered o.dump
    | none => data
  let data :=
    if body.action = .move then [("moveto", optional (body.moveto.map fun n : Nat => .int n))]
    else data
  if body.action = .create then data
  else setItem data "digest"
    (if body.action = .options then .str before.optionsDigest else optionalText before.rulesDigest)

def command (body : FirewallReviewRequest) (before : Configuration) : Command :=
  ⟨body.target, body.action, commandData body before, body.pos⟩

/-- The command that `apply_firewall` sends, and the state that it keeps for the readback. -/
def applyFirewall (digest : Json → Except Failure String) (adapter : Adapter)
    (body : FirewallReviewRequest) (expectedDigest : String) : Except Failure (Command × Desired) := do
  let current ← reviewState digest adapter body
  require (current.expectedDigest == expectedDigest)
    (http 409 "Firewall configuration changed since review; review again")
  return (command body current.before, current.desired)

/-! ### The provider -/

/-- The rules and the options that the provider stores. -/
structure Stored where
  rules : List Dict
  options : Dict
  deriving DecidableEq

/-- The entries of a list with their positions, without one position. -/
def others {α : Type} (pos : Nat) (entries : List (α × Nat)) : List α :=
  (entries.filter (·.2 ≠ pos)).map (·.1)

/-- An entry is taken out and put right before the one at position `moveto`. -/
def movedBefore {α : Type} (rules : List α) (pos moveto : Nat) : List α :=
  others pos (rules.zipIdx.take moveto) ++ rules[pos]?.toList ++ others pos (rules.zipIdx.drop moveto)

/-- What a command does. -/
def effect (c : Command) (s : Stored) : Stored :=
  match c.action, c.pos with
  | .create, _ => { s with rules := c.data :: s.rules }
  | .update, some pos => { s with rules := s.rules.modify pos (update · c.data) }
  | .delete, some pos => { s with rules := s.rules.eraseIdx pos }
  | .move, some pos =>
    match c.data.lookup "moveto" with
    | some (.int moveto) => { s with rules := movedBefore s.rules pos moveto.toNat }
    | _ => s
  | .options, _ => { s with options := update s.options c.data }
  | _, none => s

/-- Rules and options as the configuration shows them. -/
def Stored.normalized (s : Stored) : Except Failure Stored := do
  let rules ← s.rules.mapM Firewall.normalized
  let options ← normalizedOptions s.options
  return ⟨rules, options⟩

end FreeSdn.Hypervisor.Firewall
