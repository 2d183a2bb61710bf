import FreeSdn.Staging.Dispatch

/-! Immediate guest operations (`hypervisor_operations.py`): a request identifier names one staged
row, found again by every repetition of the request, and dispatched through the staging claim.  The
submissions run beside every other caller of the staging service. -/

namespace FreeSdn.Hypervisor

open FreeSdn.Lib FreeSdn.Staging

/-! ### Comparing payloads -/

/-- `encrypt_credential` of a JSON document, which depends on chance, and `decrypt_credential`
followed by `json.loads`. -/
structure Vault where
  sealed : Nat → Json → String
  opened : String → Option Json

/-- The document that binds a secret to its row. -/
def envelope (inner : String) (id : Uuid) (secret : String) : Json :=
  .obj [("change_id", .str (toString id)), (inner, .str secret)]

/-- The secret of a token: empty, or a document of exactly the two members, bound to the row. -/
def openSecret (vault : Vault) (id : Uuid) (inner : String) (longest : Nat) (token : Json) :
    Option String :=
  match token with
  | .str text =>
    if text.toList.length > longest then none
    else if text = "" then some ""
    else
      match vault.opened text with
      | some (.obj [(first, .str bound), (second, .str secret)]) =>
        if first = "change_id" ∧ second = inner ∧ bound = toString id then some secret else none
      | _ => none
  | _ => none

/-- `_password` of `hypervisor_creation.py`. -/
def password (vault : Vault) (id : Uuid) (plan : Dict) : Option String :=
  (openSecret vault id "password" 4096 ((get plan "password").getD (.str ""))).filter fun secret =>
    secret.toList.length ≤ 128 && decide (Char.ofNat 0 ∉ secret.toList)

/-- `_key` of `hypervisor_certificates.py`. -/
def certificateKey (vault : Vault) (id : Uuid) (plan : Dict) : Option String := do
  let token ← get plan "private_key"
  (openSecret vault id "key" 65536 token).filter fun secret => secret.toList.length ≤ 32768

def without (key : String) (d : Dict) : Dict := d.filter fun m => m.1 ≠ key

/-- The two payloads agree outside the secret, and their secrets open to the same text. -/
def sameSealed (field : String) (secret : Dict → Option String) (old proposed : Dict) : Bool :=
  without field old == without field proposed &&
    match secret old, secret proposed with
    | some a, some b => a == b
    | _, _ => false

/-- `same_payload`. -/
def samePayload (vault : Vault) (c : PendingChange) (proposed : Dict) : Bool :=
  if c.feature ∈ Certificate.features then
    sameSealed "private_key" (certificateKey vault c.id) c.payload proposed
  else if c.feature ∉ Creation.features then c.payload == proposed
  else sameSealed "password" (password vault c.id) c.payload proposed

/-- The token that `build_plan` stores for a password. -/
def sealedPassword (vault : Vault) (noise : Nat) (id : Uuid) (secret : String) : Json :=
  .str (if secret = "" then "" else vault.sealed noise (envelope "password" id secret))

/-! ### The request -/

/-- One call of `_submit`; `target` is the organization and the site of an active controller with
this identifier. -/
structure Request where
  isScoped : Bool
  siteAdmin : Bool
  superuser : Bool
  organizationId : Option Uuid
  granted : Option (List Uuid)
  actorId : Uuid
  readOnly : Bool
  force : Bool
  confirmed : Bool
  requestId : Uuid
  controllerId : Uuid
  target : Option (Uuid × Uuid)
  vmType : String
  node : String
  vmid : Int
  action : String
  feature : Option String
  operation : String
  targetId : Option String
  options : Dict
  deriving DecidableEq

/-- `tenant_filter`, on the organization and the site of a row. -/
def Request.sees (q : Request) (organization : Uuid) (site : Option Uuid) : Bool :=
  (q.superuser || q.organizationId == some organization) &&
    q.granted.all fun sites => site.any fun s => decide (s ∈ sites)

/-- `{key: value, **d}`, in key order. -/
def withDefault (key : String) (value : Json) (d : Dict) : Dict :=
  if hasKey d key then d
  else d.filter (fun m => m.1 < key) ++ (key, value) :: d.filter fun m => key < m.1

def Request.defaultFeature (q : Request) : String :=
  "proxmox." ++ (if q.vmType = "qemu" then "vm" else "container") ++ "." ++ q.action

def Request.featureName (q : Request) : String :=
  match q.feature with
  | some feature => if feature = "" then q.defaultFeature else feature
  | none => q.defaultFeature

def Request.targetName (q : Request) : String :=
  q.targetId.getD (String.ofList (Lib.Json.intText q.vmid))

def Request.payload (q : Request) : Dict :=
  withDefault "node" (.str q.node) (withDefault "vmid" (.int q.vmid) q.options)

/-- The gates of `_submit`, and the organization and the site that `_target` finds. -/
def Request.gates (q : Request) : Except HttpError (Uuid × Uuid) := do
  refuseIf (q.isScoped || !q.siteAdmin) ⟨403, "An unscoped site-admin role is required"⟩
  refuseIf (q.readOnly || !q.force)
    ⟨403, "Guest operations require ADAPTER_READ_ONLY=false and force=true"⟩
  refuseIf (decide (q.vmType ∉ ["qemu", "lxc"])) (badRequest "Unsupported guest type")
  validateId q.node "node"
  refuseIf (63 < q.node.toList.length || q.vmid < 100 || 999999999 < q.vmid)
    (badRequest "Invalid guest target")
  match q.target.filter fun t => q.sees t.1 (some t.2) with
  | some target => .ok target
  | none => .error (notFound "Active Proxmox controller not found")

/-! ### A call of `_submit` -/

/-- What a call answers. -/
inductive Response
  /-- The response, with the identifier and the status of the row. -/
  | report (changeId : Uuid) (status : Status)
  /-- `stage_change` refused the intent. -/
  | refused (error : HttpError)
  /-- The row is another operation. -/
  | conflicted (error : HttpError)
  /-- `apply_change` refused the claim, and the row is still pending. -/
  | reraised (error : HttpError)
  /-- `apply_change` raised the failure of the applier, and the row is not to be seen. -/
  | failed
  /-- The primary key refused the insert, and the row is not to be seen. -/
  | integrity
  /-- The process died, or one of the call's own database statements raised. -/
  | broken
  deriving DecidableEq

/-- Where a call stands. -/
inductive Stage
  /-- `_existing` found no row. -/
  | missing
  /-- The row is inserted and to be refreshed. -/
  | stored
  /-- The primary key refused the insert. -/
  | collided
  /-- The pending row is what the call asks for. -/
  | matched
  /-- `apply_change` holds the claim. -/
  | applying
  | returned
  | failed
  | refused (error : HttpError)
  | done (response : Response)
  deriving DecidableEq

/-- A call past its gates. -/
structure Submission where
  id : Nat
  request : Request
  organization : Uuid
  site : Uuid
  key : Uuid
  stage : Stage
  deriving DecidableEq

instance : Keyed Submission Nat := ⟨Submission.id⟩

@[simp] theorem key_submission (s : Submission) : Keyed.key s = s.id := rfl

/-- The submissions beside the staging service. -/
structure Desk where
  world : World
  submissions : List Submission
  deriving DecidableEq

/-- What the calls share; `uuid5` is applied to organization, actor and request identifier. -/
structure Setting where
  env : Env
  vault : Vault
  uuid5 : Uuid → Uuid → Uuid → Uuid

def requestTaken : HttpError :=
  conflict "request_id already belongs to a different guest operation"

namespace Submission

/-- The name of its `apply_change` call: the calls of submissions have even names, those of other
callers odd ones. -/
def call (s : Submission) : Nat := 2 * s.id

def stageRequest (s : Submission) : StageRequest :=
  { organizationId := s.organization, controllerId := some s.request.controllerId
    feature := s.request.featureName, operation := s.request.operation
    payload := s.request.payload, siteId := some s.site, targetId := some s.request.targetName
    actorId := some s.request.actorId, changeId := some s.key, granted := s.request.granted }

def applyRequest (s : Submission) : ApplyRequest :=
  { changeId := s.key, readOnly := s.request.readOnly, force := s.request.force
    confirmed := s.request.confirmed, hasApplier := true, actorId := some s.request.actorId
    granted := s.request.granted }

/-- `_existing`. -/
def existing (s : Submission) (rows : List PendingChange) : Option PendingChange :=
  (Table.lookup rows s.key).filter fun r =>
    r.createdBy == some s.request.actorId && s.request.sees r.organizationId r.siteId

/-- The comparison of `_record` finds no difference. -/
def sameIntent (vault : Vault) (s : Submission) (r : PendingChange) : Bool :=
  r.controllerId == some s.request.controllerId && r.siteId == some s.site &&
    r.feature == s.request.featureName && r.operation == s.request.operation &&
    r.targetId == some s.request.targetName && samePayload vault r s.request.payload

/-- The call reads its row: the comparison, and the way on. -/
def examine (vault : Vault) (s : Submission) (r : PendingChange) : Stage :=
  if !s.sameIntent vault r then .done (.conflicted requestTaken)
  else if r.status = .pending then .matched
  else .done (.report r.id r.status)

/-- The row is read again after `apply_change` raised an HTTP error. -/
def settle (s : Submission) (rows : List PendingChange) (otherwise : Response) : Stage :=
  match s.existing rows with
  | some r => .done (if r.status = .pending then otherwise else .report r.id r.status)
  | none => .done otherwise

end Submission

def Submission.to (stage : Stage) (s : Submission) : Submission := { s with stage }

/-- The first read of the row. -/
def Submission.start (vault : Vault) (rows : List PendingChange) (s : Submission) : Submission :=
  match s.existing rows with
  | some r => s.to (s.examine vault r)
  | none => s.to .missing

def Desk.to (d : Desk) (id : Nat) (stage : Stage) : Desk :=
  { d with submissions := Table.update d.submissions id (Submission.to stage) }

inductive Event
  /-- The gates, and `_existing`. -/
  | submit (id : Nat) (request : Request)
  /-- `stage_change`. -/
  | insert (id : Nat) (now : Time)
  /-- The row is read: the refresh after a commit, or `_existing` after a collision. -/
  | reread (id : Nat)
  /-- The claim of `apply_change`. -/
  | claim (id : Nat) (acknowledged : Bool) (now : Time)
  /-- `_existing` after an HTTP error of `apply_change`. -/
  | reload (id : Nat)
  /-- The call dies outside `apply_change`. -/
  | die (id : Nat)
  /-- A step of the staging service: of another caller, or of the call that holds a claim. -/
  | staging (event : Staging.Event)

/-- Where the `apply_change` call of a submission leads it, when the step `e` is taken in `w`. -/
def afterStep (w : World) (e : Staging.Event) (call : Nat) : Stage :=
  match e, (Table.lookup w.calls call).map Call.phase with
  | .commit id result _, some (.answered o) =>
    if id = call then
      match o, result with
      | .accepted _, .acknowledged => .returned
      | .accepted _, _ => .applying
      | .rejected .., .acknowledged => .failed
      | .rejected .., _ => .done .broken
    else .applying
  | .fallback id _ _, _ | .crash id, _ => if id = call then .done .broken else .applying
  | _, _ => .applying

/-- Not a claim under the name of a submission. -/
def foreign : Staging.Event → Bool
  | .claim call .. => call % 2 == 1
  | _ => true

/-- One step; `none` when it is refused or not enabled. -/
def step (set : Setting) (d : Desk) : Event → Option Desk
  | .submit id q =>
    match q.gates, Table.lookup d.submissions id with
    | .ok (organization, site), none =>
      let key := set.uuid5 organization q.actorId q.requestId
      let s : Submission := ⟨id, q, organization, site, key, .missing⟩
      some { d with submissions := d.submissions ++ [s.start set.vault d.world.rows] }
    | _, _ => none
  | .insert id now =>
    match Table.lookup d.submissions id with
    | some s =>
      if s.stage = .missing then
        match stageChange set.env d.world.rows s.stageRequest s.key now with
        | .ok row =>
          some ({ d with world := { d.world with rows := d.world.rows ++ [row] } }.to id .stored)
        | .error (.http e) => some (d.to id (.done (.refused e)))
        | .error .integrity => some (d.to id .collided)
      else none
    | none => none
  | .reread id =>
    match Table.lookup d.submissions id with
    | some s =>
      match s.stage with
      | .stored => some (d.to id (match Table.lookup d.world.rows s.key with
        | some r => s.examine set.vault r
        | none => .done .broken))
      | .collided => some (d.to id (match s.existing d.world.rows with
        | some r => s.examine set.vault r
        | none => .done .integrity))
      | .returned => some (d.to id (match Table.lookup d.world.rows s.key with
        | some r => .done (.report r.id r.status)
        | none => .done .broken))
      | _ => none
    | none => none
  | .claim id acknowledged now =>
    match Table.lookup d.submissions id with
    | some s =>
      if s.stage = .matched then
        match Staging.claim set.env d.world.rows s.applyRequest now with
        | .error e => some (d.to id (.refused e))
        | .ok _ =>
          let claim := .claim s.call s.applyRequest acknowledged now
          (Staging.step set.env d.world claim).map fun w =>
            { d with world := w }.to id (if acknowledged then .applying else .done .broken)
      else none
    | none => none
  | .reload id =>
    match Table.lookup d.submissions id with
    | some s =>
      match s.stage with
      | .refused e => some (d.to id (s.settle d.world.rows (.reraised e)))
      | .failed => some (d.to id (s.settle d.world.rows .failed))
      | _ => none
    | none => none
  | .die id =>
    match Table.lookup d.submissions id with
    | some s =>
      match s.stage with
      | .applying | .done _ => none
      | _ => some (d.to id (.done .broken))
    | none => none
  | .staging e =>
    if foreign e then
      (Staging.step set.env d.world e).map fun w =>
        { world := w
          submissions := d.submissions.map fun s =>
            if s.stage = .applying then s.to (afterStep d.world e s.call) else s }
    else none

end FreeSdn.Hypervisor
