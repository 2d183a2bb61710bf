import FreeSdn.Hypervisor.Creation

/-! Reviewed changes of guests (`hypervisor_guest_changes.py`): the plan that a request becomes, the
plan that is read back from the stored row, and the command that is sent for it. -/

namespace FreeSdn.Hypervisor.GuestChange

open FreeSdn.Lib FreeSdn.Lib.Dictionary FreeSdn.Staging
open FreeSdn.Hypervisor.Creation (Kind sized between vmidText)

/-! ### Requests -/

structure ResizeDiskRequest where
  currentSizeBytes : Int
  disk : String
  size : String
  deriving DecidableEq

structure UpdateConfigRequest where
  cores : Option Int
  memory : Option Int
  balloon : Option Int
  name : Option String
  description : Option String
  tags : Option String
  onboot : Option Bool
  protection : Option Bool
  deriving DecidableEq

inductive Change
  | resize (q : ResizeDiskRequest)
  | config (q : UpdateConfigRequest)
  | template (confirmed : Bool)
  deriving DecidableEq

structure ReviewedGuestIntent where
  expectedDigest : String
  change : Change
  deriving DecidableEq

/-- One of the names, followed by at least so many digits. -/
def numbered (names : List String) (digits : Nat) (cs : List Char) : Bool :=
  names.any fun name =>
    let rest := cs.drop name.toList.length
    name.toList.isPrefixOf cs && rest.all isDecimalChar && digits ≤ rest.length

/-- `^\+?\d+[TGMK]?$`. -/
def isRequestedSize (cs : List Char) : Bool :=
  let unsigned := if cs.head? = some '+' then cs.drop 1 else cs
  let digits := if (unsigned.getLast?.bind unitBytes).isSome then unsigned.dropLast else unsigned
  !digits.isEmpty && digits.all isDecimalChar

def ResizeDiskRequest.valid (q : ResizeDiskRequest) : Bool :=
  between 1 maxBytes q.currentSizeBytes && sized 1 20 q.disk &&
    numbered ["scsi", "virtio", "ide", "sata", "efidisk", "rootfs", "mp"] 0 q.disk.toList &&
    sized 2 20 q.size && isRequestedSize q.size.toList

def UpdateConfigRequest.valid (q : UpdateConfigRequest) : Bool :=
  q.cores.all (between 1 512) && q.memory.all (16 ≤ ·) && q.balloon.all (0 ≤ ·) &&
    q.name.all (sized 0 128) && q.description.all (sized 0 8192) && q.tags.all (sized 0 255)

def Change.valid : Change → Bool
  | resize q => q.valid
  | config q => q.valid
  | template _ => true

def ReviewedGuestIntent.valid (q : ReviewedGuestIntent) : Bool :=
  allIn isLowerHexDigit 40 40 q.expectedDigest.toList && q.change.valid

/-- `model_dump` without the fields that are `None`. -/
def UpdateConfigRequest.options (q : UpdateConfigRequest) : Dict :=
  dumped "cores" (q.cores.map .int) ++ (dumped "memory" (q.memory.map .int) ++
    (dumped "balloon" (q.balloon.map .int) ++ (dumped "name" (q.name.map .str) ++
    (dumped "description" (q.description.map .str) ++ (dumped "tags" (q.tags.map .str) ++
    (dumped "onboot" (q.onboot.map .bool) ++
      (dumped "protection" (q.protection.map .bool) ++ [])))))))

def configKeys : List String :=
  ["cores", "memory", "balloon", "name", "description", "tags", "onboot", "protection"]

inductive Action
  | resize | config | template
  deriving DecidableEq

def Action.text : Action → String
  | resize => "resize"
  | config => "config"
  | template => "template"

def Change.action : Change → Action
  | resize _ => .resize
  | config _ => .config
  | template _ => .template

/-! ### Plans -/

inductive Failure
  | http (error : HttpError)
  /-- `AdapterConfirmationRequiredError`. -/
  | confirmationRequired (message : String)
  /-- `AdapterOutcomeUnknownError`. -/
  | outcomeUnknown (message : String)
  /-- Another exception. -/
  | raised (message : String)
  deriving DecidableEq

def bad (detail : String) : Failure := .http (badRequest detail)

def contract : Failure := bad "Invalid persisted guest change contract"

/-- The guest type; a value without a hash raises, which `validated_plan` answers. -/
def kindOf : Json → Except Failure Kind
  | .str s =>
    if s = "qemu" then .ok .qemu else if s = "lxc" then .ok .lxc
    else .error (bad "Unsupported guest type")
  | .arr _ => .error contract
  | .obj _ => .error contract
  | _ => .error (bad "Unsupported guest type")

/-- The disks that can be resized. -/
def isDisk : Kind → List Char → Bool
  | .qemu, cs => numbered ["scsi", "virtio", "ide", "sata"] 1 cs
  | .lxc, cs => cs == "rootfs".toList || numbered ["mp"] 1 cs

/-- `body.size.lstrip("+")`. -/
def unsignedSize (size : String) : String := String.ofList (size.toList.dropWhile (· = '+'))

def isIncrement (size : String) : Bool := startsWith size "+"

/-- The size that a request asks for. -/
def targetBytes (q : ResizeDiskRequest) : Except Failure Int := do
  let amount ← (sizeBytes (unsignedSize q.size)).mapError .http
  return if isIncrement q.size then amount + q.currentSizeBytes else amount

/-- `config[to] = config.pop(from)`, if it is there. -/
def rename (old new : String) (d : Dict) : Dict :=
  match d.lookup old with
  | some v => setItem (without old d) new v
  | none => d

/-- The configuration of a container has a hostname and no name. -/
def encode : Kind → Dict → Dict
  | .qemu, d => d
  | .lxc, d => rename "name" "hostname" d

/-- The part of the plan that depends on the action. -/
def details (kind : Kind) : Change → Except Failure Dict
  | .resize q => do
    require (isDisk kind q.disk.toList) (bad "Disk name is not supported for this guest type")
    let target ← targetBytes q
    require (q.currentSizeBytes < target && target ≤ maxBytes && target % 1024 = 0)
      (bad "Resize must grow the disk to a whole KiB within the supported range")
    return [("disk", .str q.disk), ("current_size_bytes", .int q.currentSizeBytes),
      ("target_size_bytes", .int target), ("requested_size", .str q.size)]
  | .config q => do
    require (!q.options.isEmpty) (bad "No configuration changes provided")
    require (kind = .qemu || (q.options.lookup "balloon").isNone)
      (bad "Container configuration does not support balloon memory")
    return [("config", .obj (encode kind q.options))]
  | .template confirmed => do
    require confirmed (.confirmationRequired "Template conversion requires confirmed=true")
    return []

/-- `build_plan`, with the action that the request is of. -/
def buildPlan (vmType : Json) (q : ReviewedGuestIntent) : Except Failure Dict := do
  let kind ← kindOf vmType
  let rest ← details kind q.change
  return [("guest_change_version", .int 1), ("vm_type", vmType), ("action", .str q.change.action.text),
    ("expected_digest", .str q.expectedDigest)] ++ rest

/-! ### Stored plans -/

def textAt (d : Dict) (k : String) : Option String :=
  match d.lookup k with
  | some (.str s) => some s
  | _ => none

def intAt (d : Dict) (k : String) : Option Int :=
  match d.lookup k with
  | some (.int n) => some n
  | _ => none

/-- A field that may be `None`. -/
def nullable {α : Type} (read : Json → Option α) (d : Dict) (k : String) : Option (Option α) :=
  match d.lookup k with
  | none => some none
  | some .null => some none
  | some v => (read v).map some

def text : Json → Option String
  | .str s => some s
  | _ => none

/-- `UpdateConfigRequest(...)`. -/
def readConfig (r : Reading) (d : Dict) : Option UpdateConfigRequest := do
  let q : UpdateConfigRequest :=
    { cores := ← nullable r.int d "cores", memory := ← nullable r.int d "memory"
      balloon := ← nullable r.int d "balloon", name := ← nullable text d "name"
      description := ← nullable text d "description", tags := ← nullable text d "tags"
      onboot := ← nullable r.bool d "onboot", protection := ← nullable r.bool d "protection" }
  if d.all (fun m => decide (m.1 ∈ configKeys)) && q.valid then some q else none

/-- An element that `dict` takes for a pair; the keys of a request are texts. -/
def pairOf : Json → Option (String × Json)
  | .arr [.str k, v] => some (k, v)
  | .obj [(k, _), (l, _)] => some (k, .str l)
  | _ => none

/-- `dict(value)`. -/
def asDict : Json → Option Dict
  | .obj d => some d
  | .arr items => (items.mapM pairOf).map (update [])
  | .str s => if s = "" then some [] else none
  | _ => none

/-- The name that a container's configuration has for the hostname. -/
def decode (vmType : Json) (d : Dict) : Dict :=
  if vmType = .str "lxc" then rename "hostname" "name" d else d

/-- `ResizeDiskRequest(...)`, on a stored plan. -/
def readResize (raw : Dict) : Option ResizeDiskRequest := do
  let q : ResizeDiskRequest :=
    { disk := ← textAt raw "disk", size := ← textAt raw "requested_size"
      currentSizeBytes := ← intAt raw "current_size_bytes" }
  if q.valid then some q else none

def actionOf : Json → Option Action
  | .str s =>
    if s = "resize" then some .resize else if s = "config" then some .config
    else if s = "template" then some .template else none
  | _ => none

def readChange (r : Reading) (vmType : Json) (raw : Dict) : Action → Option Change
  | .resize => (readResize raw).map .resize
  | .config => do
    let stored ← asDict (← raw.lookup "config")
    (readConfig r (decode vmType stored)).map .config
  | .template => some (.template true)

/-- The request of a stored plan. -/
def readIntent (r : Reading) (vmType : Json) (raw : Dict) : Option ReviewedGuestIntent := do
  let action ← actionOf (← raw.lookup "action")
  let digest ← textAt raw "expected_digest"
  let change ← readChange r vmType raw action
  if allIn isLowerHexDigit 40 40 digest.toList then some ⟨digest, change⟩ else none

/-- The node; a true value that is no text raises. -/
def nodeOf (raw : Dict) : Except Failure String :=
  match raw.lookup "node" with
  | none => .error contract
  | some (.str node) => ((validateId node "node").mapError .http).map fun _ => node
  | some v => .error (if truthy v then contract else bad "invalid node format")

def vmidOf (raw : Dict) : Option Int := (intAt raw "vmid").filter (between 100 999999999)

def featureOf (kind : Kind) : Action → String
  | .template => "proxmox.vm.convert_to_template"
  | .resize => match kind with
    | .qemu => "proxmox.vm.resize_disk"
    | .lxc => "proxmox.container.resize_disk"
  | .config => match kind with
    | .qemu => "proxmox.vm.config"
    | .lxc => "proxmox.container.config"

def Action.operation : Action → String
  | template => "create"
  | _ => "update"

/-- The plan with its target. -/
def located (plan : Dict) (node : String) (vmid : Int) : Dict :=
  update plan [("node", .str node), ("vmid", .int vmid)]

/-- The plan with the confirmation of the row. -/
def confirm (plan : Dict) : Option Json → Dict
  | some v => setItem plan "confirmed" v
  | none => plan

/-- `validated_plan`. -/
def validatedPlan (r : Reading) (c : PendingChange) : Except Failure Dict := do
  let raw := c.payload
  require (raw.lookup "guest_change_version" == some (.int 1)) contract
  let vmType ← orRaise (raw.lookup "vm_type") contract
  let body ← orRaise (readIntent r vmType raw) contract
  let plan ← buildPlan vmType body
  let kind ← kindOf vmType
  let vmid ← orRaise (vmidOf raw) contract
  let node ← nodeOf raw
  let plan := located plan node vmid
  require (c.feature = featureOf kind body.change.action &&
    c.operation = body.change.action.operation && c.targetId.getD "None" = vmidText vmid) contract
  require (same r (.obj (without "confirmed" raw)) (.obj plan)) contract
  return confirm plan (raw.lookup "confirmed")

/-! ### Application -/

inductive Command
  | resizeDisk (kind : Kind) (node : String) (vmid : Int) (disk size digest : String)
  | updateConfig (kind : Kind) (node : String) (vmid : Int) (config : Dict)
  | convertToTemplate (node : String) (vmid : Int) (vmType : String)
  deriving DecidableEq

/-- What the controller and the provider answer: the adapter, `preflight_gate`, the configuration
that is read before the write, the write, and the readback after it. -/
structure Provider where
  connect : Except Failure Unit
  preflight : String → String → Dict → Except Failure Unit
  config : Kind → String → Int → Except Failure (Proxmox.Answered Json)
  send : Command → Except Failure (Proxmox.Answered Json)
  readback : Dict → Proxmox.Reply Proxmox.Readback

/-- `plan[key]`. -/
def item {α : Type} (x : Option α) : Except Failure α := orRaise x (.raised "KeyError")

/-- `_config`. -/
def readBefore (p : Provider) (kind : Kind) (node : String) (vmid : Int) : Except Failure Dict := do
  match ← p.config kind node vmid with
  | some (.obj d) =>
    require (!d.isEmpty) (.http ⟨502, "Guest configuration could not be read"⟩)
    return d
  | _ => .error (.http ⟨502, "Guest configuration could not be read"⟩)

/-- `f"{target // 1024}K"`. -/
def kibibytes (target : Int) : String := vmidText (target / 1024) ++ "K"

/-- The command for a plan and the configuration that was read. -/
def commandOf (plan before : Dict) (kind : Kind) (node : String) (vmid : Int) (digest : String) :
    Action → Except Failure Command
  | .resize => do
    let disk ← item (textAt plan "disk")
    let bytes ← (diskBytes before disk).mapError .http
    let current ← item (intAt plan "current_size_bytes")
    require ((bytes : Int) = current) (.http (conflict "Disk size changed since review"))
    let target ← item (intAt plan "target_size_bytes")
    return .resizeDisk kind node vmid disk (kibibytes target) digest
  | .config => do
    match plan.lookup "config" with
    | some (.obj config) => return .updateConfig kind node vmid (setItem config "digest" (.str digest))
    | _ => .error (.raised "KeyError")
  | .template => do
    require (plan.lookup "confirmed" == some (.bool true))
      (.confirmationRequired "Template conversion requires confirmed=true")
    return .convertToTemplate node vmid kind.text

/-- The plan and the command of `apply_guest_change`, up to the write. -/
def prepared (r : Reading) (p : Provider) (c : PendingChange) : Except Failure (Dict × Command) := do
  let plan ← validatedPlan r c
  let action ← orRaise ((plan.lookup "action").bind actionOf) (bad "Invalid guest change contract")
  require (decide (c.feature ∈ Guest.features)) (bad "Invalid guest change contract")
  p.connect
  p.preflight c.feature c.operation plan
  let kind ← item (plan.lookup "vm_type") >>= kindOf
  let node ← item (textAt plan "node")
  let vmid ← item (intAt plan "vmid")
  let before ← readBefore p kind node vmid
  let digest ← item (textAt plan "expected_digest")
  require (before.lookup "digest" == some (.str digest))
    (.http (conflict "Guest configuration changed since review; reload and submit a new intent"))
  require (!truthy ((before.lookup "lock").getD .null))
    (.http (conflict "Guest is locked by another provider operation"))
  return (plan, ← commandOf plan before kind node vmid digest action)

inductive Result
  | failed (message : String)
  | task (upid : Json)
  | observed (observation : Proxmox.Readback)
  deriving DecidableEq

/-- What becomes of the answer to the write. -/
def finish (p : Provider) (plan : Dict) : Proxmox.Answered Json → Except Failure Result
  | none => .ok (.failed "Provider rejected the guest change")
  | some data =>
    let candidate := match data with
      | .obj d => d.lookup "upid"
      | v => some v
    match Proxmox.taskNodeOf candidate with
    | some (upid, _) => .ok (.task (.str upid))
    | none =>
      match p.readback plan with
      | none => .error (.outcomeUnknown "Guest readback unavailable")
      | some outcome =>
        if outcome.status = .unknown then .error (.outcomeUnknown "Guest state not verified")
        else .ok (.observed outcome)

/-- What was sent, and how the application ended. -/
structure Run where
  sent : Option Command
  outcome : Except Failure Result

/-- `apply_guest_change`. -/
def applyGuestChange (r : Reading) (p : Provider) (c : PendingChange) : Run :=
  match prepared r p c with
  | .error e => ⟨none, .error e⟩
  | .ok (plan, command) => ⟨some command, p.send command >>= finish p plan⟩

end FreeSdn.Hypervisor.GuestChange
