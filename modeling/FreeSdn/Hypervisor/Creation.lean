import FreeSdn.Hypervisor.Operations
import FreeSdn.Hypervisor.Payloads
import FreeSdn.Hypervisor.Sizes
import FreeSdn.Proxmox.Readback

/-! Creation of guests (`hypervisor_creation.py`): the plan that a request becomes, the plan that is
read back from the stored row, and what the readback compares with the provider's answers. -/

namespace FreeSdn.Hypervisor.Creation

open FreeSdn.Lib FreeSdn.Staging FreeSdn.Proxmox

/-! ### Requests -/

structure CreateVMRequest where
  vmid : Int
  name : String
  node : String
  cores : Int
  sockets : Int
  memory : Int
  balloon : Int
  ostype : String
  storage : String
  diskSize : String
  iso : String
  netBridge : String
  netModel : String
  cpuType : String
  bios : String
  machine : String
  startAfterCreate : Bool
  pool : String
  description : String
  onboot : Bool
  tags : String
  deriving DecidableEq

structure CreateContainerRequest where
  vmid : Int
  hostname : String
  node : String
  ostemplate : String
  cores : Int
  memory : Int
  swap : Int
  storage : String
  rootfsSize : String
  netBridge : String
  netIp : String
  password : String
  sshPublicKeys : String
  startAfterCreate : Bool
  pool : String
  description : String
  unprivileged : Bool
  onboot : Bool
  tags : String
  nameserver : String
  searchdomain : String
  deriving DecidableEq

/-- `min_length` and `max_length`. -/
def sized (low high : Nat) (s : String) : Bool := low ≤ s.toList.length && s.toList.length ≤ high

def between (low high n : Int) : Bool := low ≤ n && n ≤ high

/-- The constraints of the schema. -/
def CreateVMRequest.valid (q : CreateVMRequest) : Bool :=
  between 100 999999999 q.vmid && sized 0 128 q.name && sized 1 63 q.node && between 1 512 q.cores &&
    between 1 4 q.sockets && 16 ≤ q.memory && 0 ≤ q.balloon &&
    decide (q.ostype ∈ ["l26", "l24", "win11", "win10", "win8", "win7", "wxp", "w2k", "solaris", "other"])
    && sized 0 63 q.storage && sized 0 20 q.diskSize && sized 0 256 q.iso && sized 0 20 q.netBridge &&
    decide (q.netModel ∈ ["virtio", "e1000", "rtl8139"]) && sized 0 40 q.cpuType &&
    decide (q.bios ∈ ["seabios", "ovmf"]) && sized 0 40 q.machine && sized 0 63 q.pool &&
    sized 0 8000 q.description && sized 0 255 q.tags

def CreateContainerRequest.valid (q : CreateContainerRequest) : Bool :=
  between 100 999999999 q.vmid && sized 0 128 q.hostname && sized 1 63 q.node &&
    sized 1 256 q.ostemplate && between 1 128 q.cores && 16 ≤ q.memory && 0 ≤ q.swap &&
    sized 0 63 q.storage && sized 0 20 q.rootfsSize && sized 0 20 q.netBridge && sized 0 50 q.netIp &&
    sized 0 128 q.password && sized 0 4096 q.sshPublicKeys && sized 0 63 q.pool &&
    sized 0 8000 q.description && sized 0 255 q.tags && sized 0 256 q.nameserver &&
    sized 0 256 q.searchdomain

/-- `model_dump` without the target and the credential. -/
def CreateVMRequest.options (q : CreateVMRequest) : Dict :=
  [("name", .str q.name), ("cores", .int q.cores), ("sockets", .int q.sockets),
    ("memory", .int q.memory), ("balloon", .int q.balloon), ("ostype", .str q.ostype),
    ("storage", .str q.storage), ("disk_size", .str q.diskSize), ("iso", .str q.iso),
    ("net_bridge", .str q.netBridge), ("net_model", .str q.netModel), ("cpu_type", .str q.cpuType),
    ("bios", .str q.bios), ("machine", .str q.machine),
    ("start_after_create", .bool q.startAfterCreate), ("pool", .str q.pool),
    ("description", .str q.description), ("onboot", .bool q.onboot), ("tags", .str q.tags)]

def CreateContainerRequest.options (q : CreateContainerRequest) : Dict :=
  [("hostname", .str q.hostname), ("ostemplate", .str q.ostemplate), ("cores", .int q.cores),
    ("memory", .int q.memory), ("swap", .int q.swap), ("storage", .str q.storage),
    ("rootfs_size", .str q.rootfsSize), ("net_bridge", .str q.netBridge), ("net_ip", .str q.netIp),
    ("ssh_public_keys", .str q.sshPublicKeys), ("start_after_create", .bool q.startAfterCreate),
    ("pool", .str q.pool), ("description", .str q.description),
    ("unprivileged", .bool q.unprivileged), ("onboot", .bool q.onboot), ("tags", .str q.tags),
    ("nameserver", .str q.nameserver), ("searchdomain", .str q.searchdomain)]

inductive Kind
  | qemu | lxc
  deriving DecidableEq

def Kind.text : Kind → String
  | .qemu => "qemu"
  | .lxc => "lxc"

/-- A request of either kind. -/
inductive Request
  | vm (q : CreateVMRequest)
  | container (q : CreateContainerRequest)
  deriving DecidableEq

namespace Request

def kind : Request → Kind
  | vm _ => .qemu
  | container _ => .lxc

def valid : Request → Bool
  | vm q => q.valid
  | container q => q.valid

def options : Request → Dict
  | vm q => q.options
  | container q => q.options

def node : Request → String
  | vm q => q.node
  | container q => q.node

def vmid : Request → Int
  | vm q => q.vmid
  | container q => q.vmid

/-- The password; a virtual machine has none. -/
def secret : Request → String
  | vm _ => ""
  | container q => q.password

def startAfterCreate : Request → Bool
  | vm q => q.startAfterCreate
  | container q => q.startAfterCreate

/-- The name or the hostname. -/
def guestName : Request → String
  | vm q => q.name
  | container q => q.hostname

def cores : Request → Int
  | vm q => q.cores
  | container q => q.cores

def memory : Request → Int
  | vm q => q.memory
  | container q => q.memory

def storage : Request → String
  | vm q => q.storage
  | container q => q.storage

/-- `disk_size` or `rootfs_size`. -/
def size : Request → String
  | vm q => q.diskSize
  | container q => q.rootfsSize

end Request

/-! ### Plans -/

def isIdentifierChar (c : Char) : Bool := isAsciiAlnum c || c == '_' || c == '.' || c == '-'

/-- `[A-Za-z0-9][A-Za-z0-9_.-]*`. -/
def isIdentifier (cs : List Char) : Bool :=
  match cs with
  | [] => false
  | c :: rest => isAsciiAlnum c && rest.all isIdentifierChar

/-- An identifier, a colon, the content type, a slash, and an identifier. -/
def isVolume (content : String) (cs : List Char) : Bool :=
  let mark := ':' :: content.toList ++ ['/']
  let rest := cs.dropWhile isIdentifierChar
  isIdentifier (cs.takeWhile isIdentifierChar) && mark.isPrefixOf rest &&
    isIdentifier (rest.drop mark.length) && !hasDotDot cs

/-- `[a-z0-9_][a-z0-9_.+-]*`. -/
def isTag (cs : List Char) : Bool :=
  let first c := ('a' ≤ c && c ≤ 'z') || isAsciiDigit c || c == '_'
  match cs with
  | [] => false
  | c :: rest => first c && rest.all fun c => first c || c == '.' || c == '+' || c == '-'

def holds (part : String) (s : String) : Bool := decide (part.toList <:+: s.toList)

/-- The octets of a dotted address. -/
def octet (cs : List Char) : Option Nat :=
  if !cs.isEmpty && cs.all isAsciiDigit && cs.length ≤ 3 && (cs.length = 1 || cs.head? != some '0')
    && digitsValue cs ≤ 255 then some (digitsValue cs) else none

def ipv4 (cs : List Char) : Option Nat :=
  match (splitChars '.' cs).mapM octet with
  | some [a, b, c, d] => some (a * 2 ^ 24 + b * 2 ^ 16 + c * 2 ^ 8 + d)
  | _ => none

/-- The length of a prefix, or a net or host mask. -/
def isNetmask (cs : List Char) : Bool :=
  (!cs.isEmpty && cs.all isAsciiDigit && digitsValue cs ≤ 32) ||
    (ipv4 cs).any fun ip =>
      (List.range 33).any fun k => ip + 2 ^ k == 2 ^ 32 || ip + 1 == 2 ^ k

/-- `ipaddress.IPv4Interface` accepts the text. -/
def isIpv4Interface (s : String) : Bool :=
  match splitChars '/' s.toList with
  | [address] => (ipv4 address).isSome
  | [address, mask] => (ipv4 address).isSome && isNetmask mask
  | _ => false

/-- The number of GiB: `[0-9]+(?:\.[0-9]+)?`, for a virtual machine with a `G`. -/
def gibibytes (kind : Kind) (size : String) : Option Decimal :=
  if kind = .qemu ∧ size.toList.getLast? = some 'G' then Decimal.read size.toList.dropLast
  else Decimal.read size.toList

/-- `0 < size <= 1048576`. -/
def isSize (kind : Kind) (size : String) : Bool :=
  (gibibytes kind size).any fun x =>
    0 < x.coefficient && x.coefficient ≤ 1048576 * 10 ^ x.scale

/-- What is checked of both kinds. -/
def commonOptions (storage netBridge pool tags description : String) : Bool :=
  isIdentifier storage.toList && isIdentifier netBridge.toList &&
    (pool = "" || isIdentifier pool.toList) &&
    (tags = "" || (splitChars ';' tags.toList).all isTag) &&
    !description.toList.contains (Char.ofNat 0) && !holds "FreeSDN creation:" description

/-- `_validate_options`. -/
def validateOptions : Request → Bool
  | .vm q =>
    commonOptions q.storage q.netBridge q.pool q.tags q.description &&
      [q.name, q.cpuType, q.machine].all (fun s => s = "" || isIdentifier s.toList) &&
      isSize .qemu q.diskSize && (q.iso = "" || isVolume "iso" q.iso.toList) &&
      q.balloon ≤ q.memory
  | .container q =>
    commonOptions q.storage q.netBridge q.pool q.tags q.description &&
      (q.hostname = "" || isIdentifier q.hostname.toList) && isSize .lxc q.rootfsSize &&
      (q.ostemplate = "" || isVolume "vztmpl" q.ostemplate.toList) &&
      (q.netIp = "dhcp" || q.netIp = "manual" || isIpv4Interface q.netIp) &&
      !q.sshPublicKeys.toList.contains (Char.ofNat 0) && !holds "PRIVATE KEY" q.sshPublicKeys

/-- The plan, with the password sealed for the row `id`. -/
def plan (vault : Vault) (noise : Nat) (id : Uuid) (q : Request) : Dict :=
  [("creation_version", .int 1), ("node", .str q.node), ("vmid", .int q.vmid),
    ("vm_type", .str q.kind.text), ("options", .obj q.options)] ++
    match q.kind with
    | .qemu => []
    | .lxc => [("password", sealedPassword vault noise id q.secret)]

/-- `build_plan`. -/
def buildPlan (vault : Vault) (noise : Nat) (id : Uuid) (q : Request) : Except HttpError Dict :=
  if isIdentifier q.node.toList && !hasDotDot q.node.toList && validateOptions q then
    .ok (plan vault noise id q)
  else .error ⟨400, "Invalid guest creation options"⟩

/-! ### Stored plans -/

/-- `CreateVMRequest(...)`, on stored options. -/
def readVM (r : Reading) (node : String) (vmid : Int) (options : Dict) : Option CreateVMRequest := do
  let q : CreateVMRequest :=
    { vmid, node
      name := ← textField options "name" "", cores := ← intField r options "cores" 1
      sockets := ← intField r options "sockets" 1, memory := ← intField r options "memory" 2048
      balloon := ← intField r options "balloon" 0, ostype := ← textField options "ostype" "l26"
      storage := ← textField options "storage" "local-lvm"
      diskSize := ← textField options "disk_size" "32G", iso := ← textField options "iso" ""
      netBridge := ← textField options "net_bridge" "vmbr0"
      netModel := ← textField options "net_model" "virtio"
      cpuType := ← textField options "cpu_type" "host", bios := ← textField options "bios" "seabios"
      machine := ← textField options "machine" ""
      startAfterCreate := ← boolField r options "start_after_create" false
      pool := ← textField options "pool" "", description := ← textField options "description" ""
      onboot := ← boolField r options "onboot" false, tags := ← textField options "tags" "" }
  if q.valid && options.all (fun m => decide (m.1 ∈ q.options.map Prod.fst)) then some q else none

/-- `CreateContainerRequest(...)`, on stored options: the template has no default, and the password
is not among them. -/
def readContainer (r : Reading) (node : String) (vmid : Int) (options : Dict) :
    Option CreateContainerRequest := do
  let template ← options.lookup "ostemplate"
  let q : CreateContainerRequest :=
    { vmid, node, password := ""
      hostname := ← textField options "hostname" ""
      ostemplate := ← (match template with
        | .str s => some s
        | _ => none)
      cores := ← intField r options "cores" 1, memory := ← intField r options "memory" 512
      swap := ← intField r options "swap" 512, storage := ← textField options "storage" "local-lvm"
      rootfsSize := ← textField options "rootfs_size" "8"
      netBridge := ← textField options "net_bridge" "vmbr0"
      netIp := ← textField options "net_ip" "dhcp"
      sshPublicKeys := ← textField options "ssh_public_keys" ""
      startAfterCreate := ← boolField r options "start_after_create" false
      pool := ← textField options "pool" "", description := ← textField options "description" ""
      unprivileged := ← boolField r options "unprivileged" true
      onboot := ← boolField r options "onboot" false, tags := ← textField options "tags" ""
      nameserver := ← textField options "nameserver" ""
      searchdomain := ← textField options "searchdomain" "" }
  if q.valid && options.all (fun m => decide (m.1 ∈ q.options.map Prod.fst)) then some q else none

def readRequest (r : Reading) (kind : Kind) (node : String) (vmid : Int) (options : Dict) :
    Option Request :=
  match kind with
  | .qemu => (readVM r node vmid options).map .vm
  | .lxc => (readContainer r node vmid options).map .container

def planKeys : Kind → List String
  | .qemu => ["creation_version", "node", "vmid", "vm_type", "options"]
  | .lxc => ["creation_version", "node", "vmid", "vm_type", "options", "password"]

/-- A plan that was read back. -/
structure StoredPlan where
  kind : Kind
  node : String
  vmid : Int
  options : Dict
  deriving DecidableEq

def vmidText (vmid : Int) : String := String.ofList (Lib.Json.intText vmid)

/-- `validated_plan`; `none` when the row is refused. -/
def validatedPlan (r : Reading) (vault : Vault) (c : PendingChange) : Option StoredPlan :=
  let raw := without "confirmed" c.payload
  let kind := if c.feature = "proxmox.vm.create" then Kind.qemu else .lxc
  match raw.lookup "node", raw.lookup "vmid", raw.lookup "options" with
  | some (.str node), some (.int vmid), some (.obj options) =>
    match readRequest r kind node vmid options with
    | some body =>
      if isReviewedCreation c ∧ c.operation = "create" ∧
          (raw.all fun m => decide (m.1 ∈ planKeys kind)) ∧
          ((planKeys kind).all fun k => (raw.lookup k).isSome) ∧
          raw.lookup "vm_type" = some (.str kind.text) ∧ c.targetId = some (vmidText vmid) ∧
          isIdentifier node.toList ∧ !hasDotDot node.toList ∧ validateOptions body ∧
          same r (.obj body.options) (.obj options) ∧ (password vault c.id raw).isSome then
        some ⟨kind, node, vmid, options⟩
      else none
    | none => none
  | _, _, _ => none

/-! ### Readback -/

/-- `marker`. -/
def marker (c : PendingChange) : String := "FreeSDN creation: " ++ toString c.id

/-- The characters at which `str.splitlines` ends a line. -/
def isLineBreak (c : Char) : Bool :=
  decide (c.toNat ∈ [10, 11, 12, 13, 28, 29, 30, 133, 8232, 8233])

/-- The lines of a text, after the characters of the first one that are read. -/
def linesFrom (line : List Char) : List Char → List (List Char)
  | [] => if line.isEmpty then [] else [line]
  | '\r' :: '\n' :: rest => line :: linesFrom [] rest
  | c :: rest => if isLineBreak c then line :: linesFrom [] rest else linesFrom (line ++ [c]) rest

/-- `text.splitlines()`. -/
def splitLines (text : String) : List String := (linesFrom [] text.toList).map String.ofList

/-- `d.get(k)`. -/
def value (d : Dict) (k : String) : Json := (d.lookup k).getD .null

/-- A text among the options. -/
def optionText (d : Dict) (k : String) : String :=
  match d.lookup k with
  | some (.str s) => s
  | _ => ""

/-- The inventory entries with the VMID of the plan. -/
def guestsOf (print : Printing) (s : StoredPlan) : Answered Json → Answered (List Proxmox.Creation.Inventory)
  | some (.arr items) => some (items.filterMap fun item => match item with
    | .obj g =>
      if print.str (value g "vmid") = vmidText s.vmid then
        some ⟨value g "node", value g "type", value g "status"⟩
      else none
    | _ => none)
  | _ => none

/-- The key of the system disk. -/
def Kind.disk : Kind → String
  | .qemu => "scsi0"
  | .lxc => "rootfs"

/-- The key of the name. -/
def Kind.name : Kind → String
  | .qemu => "name"
  | .lxc => "hostname"

/-- The option that holds the size of the system disk. -/
def Kind.sizeKey : Kind → String
  | .qemu => "disk_size"
  | .lxc => "rootfs_size"

def onStorage (print : Printing) (storage disk : String) (d : Dict) : Bool :=
  startsWith (print.str ((d.lookup disk).getD (.str ""))) (storage ++ ":")

/-- The comparison of the sizes; `none` when one of them does not parse. -/
def largeEnough (d : Dict) (disk size : String) : Option Bool :=
  match diskBytes d disk, sizeBytes size with
  | .ok reported, .ok requested => some (requested ≤ reported)
  | _, _ => none

/-- What the checks find in the configuration of the guest. -/
def configOf (print : Printing) (c : PendingChange) (s : StoredPlan) :
    Answered Json → Answered Proxmox.Creation.Config
  | some (.obj d) => some
    { marked := decide (marker c ∈ splitLines (print.str ((d.lookup "description").getD (.str ""))))
      locked := truthy (value d "lock")
      named := optionText s.options s.kind.name = "" ||
        value d s.kind.name == .str (optionText s.options s.kind.name)
      sized := ["cores", "memory"].all fun k =>
        print.str (value d k) = print.str (value s.options k)
      disk :=
        if onStorage print (optionText s.options "storage") s.kind.disk d then
          largeEnough d s.kind.disk (optionText s.options s.kind.sizeKey)
        else some false }
  | _ => none

def StoredPlan.plan (s : StoredPlan) : Proxmox.Creation.Plan :=
  ⟨s.node, s.vmid.toNat, s.kind.text, truthy (value s.options "start_after_create")⟩

/-- What the provider answers. -/
structure Answer where
  inventory : Answered Json
  config : Answered Json

/-- `readback`. -/
def readback (r : Reading) (vault : Vault) (print : Printing) (c : PendingChange) (upid : String)
    (answer : Answer) : Reply Readback :=
  match validatedPlan r vault c with
  | none => none
  | some s =>
    Proxmox.Creation.readback (some s.plan) upid (some (guestsOf print s answer.inventory))
      (some (configOf print c s answer.config))

end FreeSdn.Hypervisor.Creation
