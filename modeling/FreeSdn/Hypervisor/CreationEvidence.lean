import FreeSdn.Hypervisor.Creation
import FreeSdn.Hypervisor.Idempotency

/-! When the readback of a created guest succeeds.  The sizes are compared as whole bytes, while a
request may ask for any decimal number of GiB. -/

namespace FreeSdn.Hypervisor.Creation

open FreeSdn.Lib FreeSdn.Lib.Dictionary FreeSdn.Staging FreeSdn.Proxmox

/-! ### Sizes -/

/-- The number is the whole number `n`. -/
def IsWhole (x : Decimal) (n : Nat) : Prop := x.coefficient = n * 10 ^ x.scale

/-- The number is at most `n`. -/
def AtMost (x : Decimal) (n : Nat) : Prop := x.coefficient ≤ n * 10 ^ x.scale

/-- The bytes that a request asks for. -/
def requestedBytes (q : Request) : Option Decimal :=
  (gibibytes q.kind q.size).map fun x => ⟨x.coefficient * 1024 ^ 3, x.scale⟩

/-- The bytes that the configuration reports of the system disk. -/
def reportedBytes (kind : Kind) (d : Dict) : Option Decimal :=
  match d.lookup kind.disk with
  | some (.str value) => if isCdrom value then none else (sizeText value).bind exactSize
  | _ => none

variable {x : Decimal} {n m k d : Nat} {cs : List Char} {q : Request}

theorem power_pos (d : Nat) : 0 < 10 ^ d := Nat.pow_pos (by decide)

theorem IsWhole.unique (first : IsWhole x n) (second : IsWhole x m) : n = m :=
  Nat.eq_of_mul_eq_mul_right (power_pos x.scale) (first.symm.trans second)

theorem IsWhole.atMost (whole : IsWhole x k) : AtMost x n ↔ k ≤ n := by
  unfold AtMost
  rw [whole]
  exact ⟨fun h => Nat.le_of_mul_le_mul_right h (power_pos x.scale), Nat.mul_le_mul_right _⟩

/-- Rounding does not bring a size within the supported range. -/
theorem toPrecision_above (h : maxBytes < n) :
    maxBytes * 10 ^ d < toPrecision 28 (n * 10 ^ d) := by
  have above : maxBytes * 10 ^ d + 10 ^ d ≤ n * 10 ^ d := by
    rw [← Nat.succ_mul]
    exact Nat.mul_le_mul_right _ h
  have unit := power_pos d
  by_cases small : n * 10 ^ d < 10 ^ 28
  · rw [toPrecision_small small]
    omega
  · have near := (toPrecision_near 28 (n * 10 ^ d)).2
    have tiny := excess_small (n := n * 10 ^ d) (by decide : 0 < 28) (by omega)
    have bound : maxBytes = 9007199254740991 := by decide
    rw [bound] at above ⊢
    omega

theorem diskBytes_ok_iff {kind : Kind} {config : Dict} :
    diskBytes config kind.disk = .ok n ↔ ∃ s, reportedBytes kind config = some s ∧
      toPrecision 28 s.coefficient = n * 10 ^ s.scale ∧ 0 < n ∧ n ≤ maxBytes := by
  unfold diskBytes reportedBytes
  cases config.lookup kind.disk with
  | none => simp
  | some v =>
    cases v with
    | str value =>
      simp only
      split
      · simp
      · cases sizeText value with
        | none => simp
        | some text => exact sizeBytes_ok_iff
    | _ => simp

theorem read_chars (h : Decimal.read cs = some x) : ∀ c ∈ cs, c.isDigit = true ∨ c = '.' := by
  intro c mem
  rw [← List.takeWhile_append_dropWhile (p := Char.isDigit) (l := cs)] at mem
  unfold Decimal.read at h
  simp only at h
  rcases List.mem_append.mp mem with first | rest
  · exact .inl (takeWhile_digits cs c first)
  · split at h
    · rename_i none
      rw [none] at rest
      simp at rest
    · rename_i point fraction eq
      rw [eq] at rest
      split at h
      · rename_i shape
        simp only [Bool.and_eq_true, decide_eq_true_eq, List.all_eq_true] at shape
        rcases List.mem_cons.mp rest with rfl | later
        · exact .inr shape.1.1.1
        · exact .inl (shape.2 c later)
      · cases h

/-- A number ends in no unit. -/
theorem read_unit (h : Decimal.read cs = some x) : cs.getLast?.bind unitBytes = none := by
  cases last : cs.getLast? with
  | none => rfl
  | some c =>
    show unitBytes c = none
    rcases read_chars h c (List.mem_of_getLast? last) with digit | rfl
    · unfold unitBytes
      split <;> first | rfl | (revert digit; decide)
    · rfl

/-- What the readback takes a requested size for. -/
theorem exactSize_request (h : gibibytes q.kind q.size = some x) :
    exactSize q.size = some ⟨x.coefficient * 1024 ^ 3, x.scale⟩ := by
  unfold gibibytes at h
  unfold exactSize
  split at h
  · rename_i suffix
    rw [suffix.2]
    show (Decimal.read q.size.toList.dropLast).map _ = _
    rw [h]
    rfl
  · rw [read_unit h]
    show (Decimal.read q.size.toList).map _ = _
    rw [h]
    rfl

theorem isSize_some {kind : Kind} {size : String} (h : isSize kind size = true) :
    ∃ x, gibibytes kind size = some x ∧ 0 < x.coefficient ∧
      x.coefficient ≤ 1048576 * 10 ^ x.scale := by
  unfold isSize at h
  cases found : gibibytes kind size with
  | none => simp [found] at h
  | some x => exact ⟨x, rfl, by simpa [found] using h⟩

theorem kind_size_valid (valid : q.valid = true) : q.size.toList.length ≤ 20 := by
  cases q with
  | vm q =>
    simp only [Request.valid, CreateVMRequest.valid, sized, Bool.and_eq_true, decide_eq_true_eq]
      at valid
    exact valid.1.1.1.1.1.1.1.1.1.2.2
  | container q =>
    simp only [Request.valid, CreateContainerRequest.valid, sized, Bool.and_eq_true,
      decide_eq_true_eq] at valid
    exact valid.1.1.1.1.1.1.1.1.1.2.2

theorem kind_size_checked (checked : validateOptions q = true) : isSize q.kind q.size = true := by
  cases q with
  | vm q =>
    simp only [validateOptions, Bool.and_eq_true] at checked
    exact checked.1.1.2
  | container q =>
    simp only [validateOptions, Bool.and_eq_true] at checked
    exact checked.1.1.1.1.2

/-- The request names a number of bytes, and the readback reads it if it is whole. -/
theorem request_size (valid : q.valid = true) (checked : validateOptions q = true) :
    ∃ x, requestedBytes q = some x ∧ ∀ b, sizeBytes q.size = .ok b ↔ IsWhole x b := by
  obtain ⟨x, found, positive, bound⟩ := isSize_some (kind_size_checked checked)
  have short := kind_size_valid valid
  refine ⟨⟨x.coefficient * 1024 ^ 3, x.scale⟩, by rw [requestedBytes, found]; rfl, fun b => ?_⟩
  have digits : x.scale = 0 ∨ x.scale ≤ 18 ∧ x.coefficient < 10 ^ 19 := by
    obtain ⟨cs, read, size⟩ : ∃ cs, Decimal.read cs = some x ∧ cs.length ≤ 20 := by
      unfold gibibytes at found
      split at found
      · exact ⟨_, found, by rw [List.length_dropLast]; omega⟩
      · exact ⟨_, found, short⟩
    rcases read_bounds read with ⟨zero, -⟩ | ⟨places, few⟩
    · exact .inl zero
    · refine .inr ⟨by omega, Nat.lt_of_lt_of_le few ?_⟩
      exact Nat.pow_le_pow_right (by decide) (by omega)
  rw [sizeBytes_ok_iff, exactSize_request found]
  simp only [Option.some.injEq, exists_eq_left', IsWhole]
  have unit := power_pos x.scale
  constructor
  · rintro ⟨eq, -, -⟩
    rw [← gibibytes_exact digits bound ⟨b, by rw [eq, Nat.mul_comm]⟩, eq]
  · intro eq
    have small : b ≤ 1048576 * 1024 ^ 3 := by
      apply Nat.le_of_mul_le_mul_right _ unit
      rw [← eq, Nat.mul_right_comm]
      exact Nat.mul_le_mul_right _ bound
    refine ⟨?_, ?_, ?_⟩
    · rw [eq]
      exact toPrecision_shift (by omega) _
    · rcases Nat.eq_zero_or_pos b with rfl | more
      · rw [Nat.zero_mul] at eq
        omega
      · exact more
    · have top : maxBytes = 9007199254740991 := by decide
      omega

/-! ### The stored plan -/

variable {r : Reading} {vault : Vault} {print : Printing} {c : PendingChange} {upid : String}
  {answer : Answer}

/-- The request without its credential, as the stored options give it back. -/
def Request.unsealed : Request → Request
  | .vm q => .vm q
  | .container q => .container { q with password := "" }

theorem readVM_options (exact : r.Exact) {q : CreateVMRequest} (valid : q.valid = true) :
    readVM r q.node q.vmid q.options = some q := by
  simp [readVM, CreateVMRequest.options, textField, intField, boolField, exact.int, exact.bool,
    List.lookup_cons]
  exact valid

theorem readContainer_options (exact : r.Exact) {q : CreateContainerRequest}
    (valid : q.valid = true) :
    readContainer r q.node q.vmid q.options = some { q with password := "" } := by
  have unsealed : CreateContainerRequest.valid { q with password := "" } = true := by
    simp only [CreateContainerRequest.valid, Bool.and_eq_true] at valid ⊢
    obtain ⟨⟨⟨⟨⟨⟨⟨rest, -⟩, a⟩, b⟩, c⟩, d⟩, e⟩, f⟩ := valid
    exact ⟨⟨⟨⟨⟨⟨⟨rest, rfl⟩, a⟩, b⟩, c⟩, d⟩, e⟩, f⟩
  simp [readContainer, CreateContainerRequest.options, textField, intField, boolField, exact.int,
    exact.bool, List.lookup_cons]
  exact unsealed

theorem readRequest_options (exact : r.Exact) (valid : q.valid = true) :
    readRequest r q.kind q.node q.vmid q.options = some q.unsealed := by
  cases q with
  | vm q =>
    show (readVM r q.node q.vmid q.options).map Request.vm = _
    rw [readVM_options exact valid]
    rfl
  | container q =>
    show (readContainer r q.node q.vmid q.options).map Request.container = _
    rw [readContainer_options exact valid]
    rfl

theorem options_plain (q : Request) : Plain (.obj q.options) := by
  cases q with
  | vm q =>
    refine .obj (by simp [Request.options, CreateVMRequest.options]) ?_
    intro m mem
    simp only [Request.options, CreateVMRequest.options, List.mem_cons, List.not_mem_nil,
      or_false] at mem
    rcases mem with rfl | rfl | rfl | rfl | rfl | rfl | rfl | rfl | rfl | rfl | rfl | rfl | rfl |
      rfl | rfl | rfl | rfl | rfl | rfl <;> constructor
  | container q =>
    refine .obj (by simp [Request.options, CreateContainerRequest.options]) ?_
    intro m mem
    simp only [Request.options, CreateContainerRequest.options, List.mem_cons, List.not_mem_nil,
      or_false] at mem
    rcases mem with rfl | rfl | rfl | rfl | rfl | rfl | rfl | rfl | rfl | rfl | rfl | rfl | rfl |
      rfl | rfl | rfl | rfl | rfl <;> constructor

theorem unsealed_options (q : Request) : q.unsealed.options = q.options := by
  cases q <;> rfl

theorem unsealed_checked (q : Request) : validateOptions q.unsealed = validateOptions q := by
  cases q <;> rfl

theorem lookup_without {key k : String} (d : Dict) (other : k ≠ key) :
    (without key d).lookup k = d.lookup k := lookup_filter_ne d other

/-- The feature of a creation. -/
def Kind.feature : Kind → String
  | .qemu => "proxmox.vm.create"
  | .lxc => "proxmox.container.create"

/-- The row that stores the plan of a request, confirmed or not. -/
structure Submitted (vault : Vault) (q : Request) (c : PendingChange) : Prop where
  feature : c.feature = q.kind.feature
  operation : c.operation = "create"
  target : c.targetId = some (vmidText q.vmid)
  built : ∃ noise, buildPlan vault noise c.id q = .ok (without "confirmed" c.payload)

theorem buildPlan_ok {noise : Nat} {id : Uuid} {payload : Dict}
    (h : buildPlan vault noise id q = .ok payload) :
    isIdentifier q.node.toList = true ∧ hasDotDot q.node.toList = false ∧
      validateOptions q = true ∧ payload = plan vault noise id q := by
  unfold buildPlan at h
  split at h
  · rename_i met
    simp only [Bool.and_eq_true, Bool.not_eq_true'] at met
    exact ⟨met.1.1, met.1.2, met.2, (Except.ok.inj h).symm⟩
  · cases h

/-- A password without the character that `_password` refuses. -/
def Clean (q : Request) : Prop := Char.ofNat 0 ∉ q.secret.toList

/-- The token of a password is not longer than `_password` admits. -/
def Fits (vault : Vault) (id : Uuid) (secret : String) : Prop :=
  ∀ noise, (vault.sealed noise (envelope "password" id secret)).toList.length ≤ 4096

theorem secret_short (valid : q.valid = true) : q.secret.toList.length ≤ 128 := by
  cases q with
  | vm q => exact Nat.zero_le _
  | container q =>
    simp only [Request.valid, CreateContainerRequest.valid, sized, Bool.and_eq_true,
      decide_eq_true_eq] at valid
    exact valid.1.1.1.1.1.1.2.2

/-- Whether the password of a plan is read back. -/
theorem password_plan (lawful : vault.Lawful) {id : Uuid} (fits : Fits vault id q.secret)
    (valid : q.valid = true) (noise : Nat) :
    (password vault id (plan vault noise id q)).isSome = true ↔ Clean q := by
  have short := secret_short valid
  cases q with
  | vm q =>
    have none : Staging.get (plan vault noise id (.vm q)) "password" = none := by
      rw [get_eq_lookup]
      rfl
    rw [password, none]
    exact ⟨fun _ => List.not_mem_nil, fun _ => rfl⟩
  | container q =>
    have stored : Staging.get (plan vault noise id (.container q)) "password"
        = some (sealedPassword vault noise id q.password) := by
      rw [get_eq_lookup]
      rfl
    constructor
    · intro found
      rw [password, stored, Option.getD_some] at found
      obtain ⟨secret, some⟩ := Option.isSome_iff_exists.mp found
      obtain ⟨opened, met⟩ := Option.filter_eq_some_iff.mp some
      simp only [Bool.and_eq_true, decide_eq_true_eq] at met
      have same : secret = q.password := by
        unfold sealedPassword at opened
        by_cases empty : q.password = ""
        · simpa [openSecret, empty] using opened.symm
        · have size : (vault.sealed noise (envelope "password" id q.password)).toList.length ≤ 4096 :=
            fits noise
          rw [if_neg empty, openSecret, if_neg (Nat.not_lt.mpr size),
            if_neg (lawful.nonempty _ _), lawful.opens, envelope] at opened
          simpa using opened.symm
      rw [Clean, Request.secret, ← same]
      exact met.2
    · intro clean
      rw [password_sealed lawful ⟨short, clean, fits noise⟩ stored]
      rfl

theorem lookup_plan {noise : Nat} {id : Uuid} {raw : Dict} (eq : raw = plan vault noise id q) :
    raw.lookup "creation_version" = some (.int 1) ∧ raw.lookup "node" = some (.str q.node) ∧
      raw.lookup "vmid" = some (.int q.vmid) ∧ raw.lookup "vm_type" = some (.str q.kind.text) ∧
      raw.lookup "options" = some (.obj q.options) := by
  subst eq
  exact ⟨rfl, rfl, rfl, rfl, rfl⟩

theorem plan_keys (vault : Vault) (noise : Nat) (id : Uuid) (q : Request) :
    (plan vault noise id q).map Prod.fst = planKeys q.kind := by
  cases q <;> rfl

/-- The plan that is read back from the row of a request. -/
def Request.stored (q : Request) : StoredPlan := ⟨q.kind, q.node, q.vmid, q.options⟩

/-- A submitted plan is read back as it was built, if its password is. -/
theorem validatedPlan_submitted (exact : r.Exact) (lawful : vault.Lawful)
    (fits : Fits vault c.id q.secret) (valid : q.valid = true) (submitted : Submitted vault q c) :
    (Clean q → validatedPlan r vault c = some q.stored) ∧
      (¬Clean q → validatedPlan r vault c = none) := by
  obtain ⟨noise, built⟩ := submitted.built
  obtain ⟨identifier, dots, checked, stored⟩ := buildPlan_ok built
  obtain ⟨version, node, vmid, type, options⟩ := lookup_plan stored
  have kind : (if c.feature = "proxmox.vm.create" then Kind.qemu else .lxc) = q.kind := by
    rw [submitted.feature]
    cases q <;> rfl
  have reviewed : isReviewedCreation c = true := by
    have featured : c.feature ∈ Staging.Creation.features := by
      rw [submitted.feature]
      cases q.kind <;> decide
    rw [lookup_without _ (by decide), ← get_eq_lookup] at version
    rw [isReviewedCreation, isReviewed, version, decide_eq_true featured]
    rfl
  have known : ((without "confirmed" c.payload).all fun m => decide (m.1 ∈ planKeys q.kind)) = true
      ∧ ((planKeys q.kind).all fun k => ((without "confirmed" c.payload).lookup k).isSome) = true := by
    rw [stored, ← plan_keys vault noise c.id q]
    simp only [List.all_eq_true, decide_eq_true_eq]
    refine ⟨fun m mem => List.mem_map_of_mem mem, fun k mem => ?_⟩
    cases q <;> revert k mem <;> simp [plan, Request.kind, List.lookup_cons]
  have secret : (password vault c.id (without "confirmed" c.payload)).isSome = true ↔ Clean q := by
    rw [stored]
    exact password_plan lawful fits valid noise
  constructor
  · intro clean
    unfold validatedPlan
    simp only [kind, node, vmid, options, readRequest_options exact valid]
    rw [if_pos]
    · rfl
    exact ⟨reviewed, submitted.operation, known.1, known.2, type, submitted.target, identifier,
      by rw [dots]; rfl, by rw [unsealed_checked]; exact checked,
      by rw [unsealed_options]; exact (options_plain q).same_self, secret.mpr clean⟩
  · intro unclean
    unfold validatedPlan
    simp only [kind, node, vmid, options, readRequest_options exact valid]
    rw [if_neg]
    rintro ⟨-, -, -, -, -, -, -, -, -, -, found⟩
    exact unclean (secret.mp found)

/-! ### The readback -/

/-- The entries of an inventory with a VMID. -/
def entriesOf (print : Printing) (vmid : Int) (items : List Json) : List Dict :=
  items.filterMap fun item => match item with
    | .obj g => if print.str (value g "vmid") = vmidText vmid then some g else none
    | _ => none

/-- The provider shows the guest that was asked for, but for the size of its disk: `d` is its
configuration. -/
structure Shows (print : Printing) (q : Request) (c : PendingChange) (answer : Answer) (d : Dict) :
    Prop where
  once : ∃ items g, answer.inventory = some (.arr items) ∧ entriesOf print q.vmid items = [g] ∧
    value g "node" = .str q.node ∧ value g "type" = .str q.kind.text ∧
    (q.startAfterCreate = true → value g "status" = .str "running")
  config : answer.config = some (.obj d)
  unlocked : truthy (value d "lock") = false
  marked : marker c ∈ splitLines (print.str ((d.lookup "description").getD (.str "")))
  named : q.guestName ≠ "" → value d q.kind.name = .str q.guestName
  cores : print.str (value d "cores") = print.str (.int q.cores)
  memory : print.str (value d "memory") = print.str (.int q.memory)
  stored : onStorage print q.storage q.kind.disk d = true

/-- What the plan of a request holds. -/
theorem plan_values (q : Request) :
    truthy (value q.options "start_after_create") = q.startAfterCreate ∧
      optionText q.options q.kind.name = q.guestName ∧
      value q.options "cores" = .int q.cores ∧ value q.options "memory" = .int q.memory ∧
      optionText q.options "storage" = q.storage ∧ optionText q.options q.kind.sizeKey = q.size := by
  cases q <;> exact ⟨rfl, rfl, rfl, rfl, rfl, rfl⟩

theorem guestsOf_entries (q : Request) (items : List Json) :
    guestsOf print q.stored (some (.arr items))
      = some ((entriesOf print q.vmid items).map fun g =>
          ⟨value g "node", value g "type", value g "status"⟩) := by
  rw [entriesOf, List.map_filterMap]
  refine congrArg some (List.filterMap_congr fun item _ => ?_)
  cases item with
  | obj g => by_cases here : print.str (value g "vmid") = vmidText q.vmid <;> simp [Request.stored, here]
  | _ => rfl

/-- The checks of the configuration pass for a guest that the provider shows. -/
theorem configOf_passes {d : Dict} :
    ((configOf print c q.stored (some (.obj d))).any fun config =>
        config.marked && !config.locked && config.named && config.sized && config.disk == some true)
        = true ↔
      marker c ∈ splitLines (print.str ((d.lookup "description").getD (.str ""))) ∧
        truthy (value d "lock") = false ∧
        (q.guestName ≠ "" → value d q.kind.name = .str q.guestName) ∧
        print.str (value d "cores") = print.str (.int q.cores) ∧
        print.str (value d "memory") = print.str (.int q.memory) ∧
        onStorage print q.storage q.kind.disk d = true ∧
        largeEnough d q.kind.disk q.size = some true := by
  obtain ⟨-, name, cores, memory, storage, size⟩ := plan_values q
  simp only [configOf, Request.stored, Option.any_some, name, cores, memory, storage, size,
    Bool.and_eq_true, decide_eq_true_eq, Bool.not_eq_true', Bool.or_eq_true, beq_iff_eq,
    List.all_cons, List.all_nil, Bool.and_true]
  by_cases placed : onStorage print q.storage q.kind.disk d = true
  · simp only [placed, if_true]
    constructor
    · rintro ⟨⟨⟨⟨a, b⟩, e⟩, f, g⟩, h⟩
      exact ⟨a, b, fun some => e.resolve_left some, f, g, trivial, h⟩
    · rintro ⟨a, b, e, f, g, -, h⟩
      exact ⟨⟨⟨⟨a, b⟩, Classical.or_iff_not_imp_left.mpr e⟩, f, g⟩, h⟩
  · simp [placed]

/-- When the comparison of plan, inventory and configuration succeeds. -/
theorem comparison_succeeded {plan : Proxmox.Creation.Plan}
    {guests : Proxmox.Answered (List Proxmox.Creation.Inventory)}
    {config : Proxmox.Answered Proxmox.Creation.Config}
    (matched : Proxmox.Creation.matchesTask upid plan = true) :
    Proxmox.Creation.readback (some plan) upid (some guests) (some config)
        = some (succeeded "guest_creation_verified") ↔
      (∃ guest, guests = some [guest] ∧ guest.node = .str plan.node ∧
        guest.type = .str plan.vmType ∧
        (plan.startAfterCreate = true → guest.status = .str "running")) ∧
      (config.any fun config =>
        config.marked && !config.locked && config.named && config.sized && config.disk == some true)
        = true := by
  have differ : unknown "guest_creation_not_verified" ≠ succeeded "guest_creation_verified" := by
    decide
  have refused : (some (unknown "guest_creation_not_verified") : Reply Readback)
      ≠ some (succeeded "guest_creation_verified") := fun h => differ (Option.some.inj h)
  unfold Proxmox.Creation.readback
  simp only [Option.bind_eq_bind, Option.bind_some, matched, Bool.not_true, Bool.false_eq_true,
    if_false]
  split
  · rename_i guest
    split
    · rename_i wrong
      refine iff_of_false refused ?_
      rintro ⟨⟨other, eq, node, type, status⟩, -⟩
      obtain rfl := (List.cons.inj (Option.some.inj eq)).1
      rcases wrong with h | h | ⟨starts, h⟩
      · exact h node
      · exact h type
      · exact h (status starts)
    · rename_i right
      simp only [not_or, not_and, not_not] at right
      have here : ∃ other, some [guest] = some [other] ∧ other.node = .str plan.node ∧
          other.type = .str plan.vmType ∧
          (plan.startAfterCreate = true → other.status = .str "running") :=
        ⟨guest, rfl, right⟩
      cases config with
      | none => exact iff_of_false refused fun h => by simpa using h.2
      | some config =>
        simp only [Option.any_some, Bool.and_eq_true, Bool.not_eq_true', beq_iff_eq]
        split
        · rename_i met
          exact iff_of_true rfl ⟨here, ⟨⟨⟨met.1, met.2.1⟩, met.2.2.1⟩, met.2.2.2.1⟩, met.2.2.2.2⟩
        · rename_i unmet
          refine iff_of_false refused ?_
          rintro ⟨-, ⟨⟨⟨a, b⟩, e⟩, f⟩, g⟩
          exact unmet ⟨a, b, e, f, g⟩
  · rename_i many
    refine iff_of_false refused ?_
    rintro ⟨⟨guest, eq, -⟩, -⟩
    exact many guest eq

/-- When the readback of a submitted request succeeds. -/
theorem readback_succeeded (exact : r.Exact) (lawful : vault.Lawful)
    (fits : Fits vault c.id q.secret) (valid : q.valid = true) (submitted : Submitted vault q c)
    (matched : Proxmox.Creation.matchesTask upid q.stored.plan = true) :
    readback r vault print c upid answer = some (succeeded "guest_creation_verified") ↔
      Clean q ∧ ∃ d, Shows print q c answer d ∧ largeEnough d q.kind.disk q.size = some true := by
  obtain ⟨whenClean, otherwise⟩ := validatedPlan_submitted exact lawful fits valid submitted
  by_cases clean : Clean q
  · rw [readback, whenClean clean]
    show Proxmox.Creation.readback (some q.stored.plan) upid _ _ = _ ↔ _
    rw [comparison_succeeded matched]
    have starts : q.stored.plan.startAfterCreate = q.startAfterCreate := (plan_values q).1
    constructor
    · rintro ⟨⟨guest, found, node, type, status⟩, checks⟩
      refine ⟨clean, ?_⟩
      cases listed : answer.inventory with
      | none => simp [guestsOf, listed] at found
      | some inventory =>
        cases inventory with
        | arr items =>
          rw [listed, guestsOf_entries] at found
          obtain ⟨g, entries, rfl⟩ := List.map_eq_singleton_iff.mp (Option.some.inj found)
          cases configured : answer.config with
          | none => simp [configOf, configured] at checks
          | some config =>
            cases config with
            | obj d =>
              rw [configured] at checks
              obtain ⟨a, b, e, f, h, i, j⟩ := configOf_passes.mp checks
              refine ⟨d, ⟨⟨items, g, listed, entries, node, type, ?_⟩, configured, b, a, e, f, h, i⟩, j⟩
              exact fun start => status (starts ▸ start)
            | _ => simp [configOf, configured] at checks
        | _ => simp [guestsOf, listed] at found
    · rintro ⟨-, d, shows, large⟩
      obtain ⟨items, g, listed, entries, node, type, status⟩ := shows.once
      refine ⟨⟨⟨value g "node", value g "type", value g "status"⟩, ?_, node, type, ?_⟩, ?_⟩
      · rw [listed, guestsOf_entries, entries]
        rfl
      · exact fun start => status (starts ▸ start)
      · rw [shows.config]
        exact configOf_passes.mpr ⟨shows.marked, shows.unlocked, shows.named, shows.cores,
          shows.memory, shows.stored, large⟩
  · rw [readback, otherwise clean]
    exact iff_of_false (fun h => by cases h) fun h => clean h.1

/-! ### Which sizes are verified -/

/-- The reported disk is a whole number of bytes, and not less than what was asked for. -/
def Covers (q : Request) (d : Dict) : Prop :=
  ∃ s x n, reportedBytes q.kind d = some s ∧ requestedBytes q = some x ∧ IsWhole s n ∧ AtMost x n

/-- The sizes and the password with which the readback is exact: a disk that covers the request is
within the range, the request is whole bytes too and its password is read back; and the fraction of
a byte in a report is not lost in rounding. -/
def Verifiable (q : Request) (d : Dict) : Prop :=
  ∀ s x, reportedBytes q.kind d = some s → requestedBytes q = some x →
    (∀ n, IsWhole s n → AtMost x n → Clean q ∧ (∃ k, IsWhole x k) ∧ n ≤ maxBytes) ∧
    ((∀ n, ¬IsWhole s n) → ∀ n k, n ≤ maxBytes →
      toPrecision 28 s.coefficient = n * 10 ^ s.scale → IsWhole x k → k ≤ n → ¬Clean q)

theorem largeEnough_iff (valid : q.valid = true) (checked : validateOptions q = true) {d : Dict} :
    largeEnough d q.kind.disk q.size = some true ↔
      ∃ s x n k, reportedBytes q.kind d = some s ∧ requestedBytes q = some x ∧
        toPrecision 28 s.coefficient = n * 10 ^ s.scale ∧ n ≤ maxBytes ∧ IsWhole x k ∧ k ≤ n := by
  obtain ⟨x, requested, whole⟩ := request_size valid checked
  unfold largeEnough
  constructor
  · intro h
    split at h
    · rename_i n k reported size
      obtain ⟨s, found, eq, -, bound⟩ := diskBytes_ok_iff.mp reported
      exact ⟨s, x, n, k, found, requested, eq, bound, (whole k).mp size,
        by simpa using Option.some.inj h⟩
    · cases h
  · rintro ⟨s, x', n, k, found, same, eq, bound, isWhole, le⟩
    obtain rfl := Option.some.inj (requested.symm.trans same)
    have size := (whole k).mpr isWhole
    have positive : 0 < k := by
      obtain ⟨-, -, -, more, -⟩ := sizeBytes_ok_iff.mp size
      exact more
    rw [diskBytes_ok_iff.mpr ⟨s, found, eq, by omega, bound⟩, size]
    simpa using le

/-- The comparison of sizes is exact under the condition, and only then. -/
theorem covers_iff (valid : q.valid = true) (checked : validateOptions q = true) (d : Dict) :
    ((Clean q ∧ largeEnough d q.kind.disk q.size = some true) ↔ Covers q d) ↔ Verifiable q d := by
  rw [largeEnough_iff valid checked]
  obtain ⟨x, requested, -⟩ := request_size valid checked
  constructor
  · intro same s x' reported requested'
    constructor
    · intro n isWhole atMost
      obtain ⟨clean, s', x'', a, k, reported', requested'', eq, bound, isWhole', le⟩ :=
        same.mpr ⟨s, x', n, reported, requested', isWhole, atMost⟩
      obtain rfl := Option.some.inj (reported.symm.trans reported')
      obtain rfl := Option.some.inj (requested'.symm.trans requested'')
      refine ⟨clean, ⟨k, isWhole'⟩, ?_⟩
      by_contra high
      have above := toPrecision_above (n := n) (d := s.scale) (by omega)
      rw [← isWhole, eq] at above
      have := Nat.lt_of_mul_lt_mul_right above
      omega
    · intro fraction n k bound eq isWhole le clean
      obtain ⟨s', x'', m, reported', -, whole, -⟩ :=
        same.mp ⟨clean, s, x', n, k, reported, requested', eq, bound, isWhole, le⟩
      obtain rfl := Option.some.inj (reported.symm.trans reported')
      exact fraction m whole
  · intro verifiable
    constructor
    · rintro ⟨clean, s, x', n, k, reported, requested', eq, bound, isWhole, le⟩
      by_cases whole : ∃ m, IsWhole s m
      · obtain ⟨m, whole⟩ := whole
        -- A whole report within 28 digits is not rounded, and no other comes out in range.
        have small : m ≤ maxBytes := by
          by_contra high
          have above := toPrecision_above (n := m) (d := s.scale) (by omega)
          rw [← whole, eq] at above
          have := Nat.lt_of_mul_lt_mul_right above
          omega
        have exact : toPrecision 28 s.coefficient = s.coefficient := by
          rw [whole]
          have top : maxBytes = 9007199254740991 := by decide
          exact toPrecision_shift (by omega) _
        refine ⟨s, x', m, reported, requested', whole, isWhole.atMost.mpr ?_⟩
        rw [exact] at eq
        rw [whole.unique eq]
        exact le
      · refine absurd clean ((verifiable s x' reported requested').2 ?_ n k bound eq isWhole le)
        exact fun m h => whole ⟨m, h⟩
    · rintro ⟨s, x', n, reported, requested', whole, atMost⟩
      obtain ⟨clean, ⟨k, isWhole⟩, bound⟩ := (verifiable s x' reported requested').1 n whole atMost
      refine ⟨clean, s, x', n, k, reported, requested', ?_, bound, isWhole, isWhole.atMost.mp atMost⟩
      rw [whole]
      have top : maxBytes = 9007199254740991 := by decide
      exact toPrecision_shift (by omega) _

/-- For a submitted request and a matching task, the readback succeeds exactly for the answers that
show the guest with a disk that covers the request, if and only if an answer that shows the guest
reports a verifiable size. -/
theorem creation_verified (exact : r.Exact) (lawful : vault.Lawful)
    (fits : Fits vault c.id q.secret) (valid : q.valid = true) (submitted : Submitted vault q c)
    (matched : Proxmox.Creation.matchesTask upid q.stored.plan = true) :
    (readback r vault print c upid answer = some (succeeded "guest_creation_verified") ↔
        ∃ d, Shows print q c answer d ∧ Covers q d) ↔
      ∀ d, Shows print q c answer d → Verifiable q d := by
  have checked : validateOptions q = true := by
    obtain ⟨noise, built⟩ := submitted.built
    exact (buildPlan_ok built).2.2.1
  rw [readback_succeeded exact lawful fits valid submitted matched]
  have only {d e : Dict} (first : Shows print q c answer d) (second : Shows print q c answer e) :
      d = e := by
    have same := first.config.symm.trans second.config
    injection same with same
    injection same
  constructor
  · intro same d shows
    rw [← covers_iff valid checked]
    constructor
    · rintro ⟨clean, large⟩
      obtain ⟨e, shows', covers⟩ := same.mp ⟨clean, d, shows, large⟩
      rwa [only shows shows']
    · intro covers
      obtain ⟨clean, e, shows', large⟩ := same.mpr ⟨d, shows, covers⟩
      rw [only shows shows']
      exact ⟨clean, large⟩
  · intro verifiable
    constructor
    · rintro ⟨clean, d, shows, large⟩
      exact ⟨d, shows, ((covers_iff valid checked d).mpr (verifiable d shows)).mp ⟨clean, large⟩⟩
    · rintro ⟨d, shows, covers⟩
      obtain ⟨clean, large⟩ := ((covers_iff valid checked d).mpr (verifiable d shows)).mpr covers
      exact ⟨clean, d, shows, large⟩

/-! ### Fractions of a byte -/

/-- Texts of the values that the answers below hold. -/
def plainPrinting : Printing where
  repr s := "'" ++ s ++ "'"
  str
    | .null => "None"
    | .bool b => if b then "True" else "False"
    | .int n => vmidText n
    | .float t => String.ofList t.chars
    | .str s => s
    | _ => ""
  floatText t := String.ofList t.chars

def plainReading : Reading where
  floatInt t n := t.chars == Lib.Json.intText n ++ ['.', '0']
  floatFloat a b := a == b
  int
    | .int n => some n
    | .bool b => some (if b then 1 else 0)
    | _ => none
  bool
    | .bool b => some b
    | .int n => if n = 0 then some false else if n = 1 then some true else none
    | _ => none

theorem plainReading_exact : plainReading.Exact := ⟨fun _ => rfl, fun _ => rfl⟩

/-- A virtual machine with a disk of a given size. -/
def machine (size : String) : CreateVMRequest where
  vmid := 101
  name := ""
  node := "pve"
  cores := 1
  sockets := 1
  memory := 2048
  balloon := 0
  ostype := "l26"
  storage := "local-lvm"
  diskSize := size
  iso := ""
  netBridge := "vmbr0"
  netModel := "virtio"
  cpuType := "host"
  bios := "seabios"
  machine := ""
  startAfterCreate := false
  pool := ""
  description := ""
  onboot := false
  tags := ""

/-- The row of its creation. -/
def machineRow (size : String) : PendingChange where
  id := 7
  organizationId := 1
  controllerId := some 2
  siteId := some 3
  feature := "proxmox.vm.create"
  operation := "create"
  targetId := some "101"
  payload := plan plainVault 0 7 (.vm (machine size))
  status := .applied
  appliedAt := none
  appliedResponse := none
  providerTask := none
  nextPollAt := none
  failureReason := none
  createdBy := none
  updatedBy := none
  updatedAt := 0

def machineTask : String := "UPID:pve:0000C0DE:00ABCDEF:65000000:qmcreate:101:root@pam:"

/-- The configuration of the guest. -/
def machineConfig (disk : String) : Dict :=
  [("description", .str "FreeSDN creation: 7"), ("cores", .int 1), ("memory", .str "2048"),
    ("scsi0", .str disk)]

/-- Its entry in the inventory. -/
def machineEntry : Dict :=
  [("vmid", .int 101), ("node", .str "pve"), ("type", .str "qemu"), ("status", .str "stopped")]

/-- The provider shows the guest, with a disk. -/
def machineAnswer (disk : String) : Answer where
  inventory := some (.arr [.obj machineEntry])
  config := some (.obj (machineConfig disk))

theorem machine_submitted {size : String} (checked : validateOptions (.vm (machine size)) = true) :
    Submitted plainVault (.vm (machine size)) (machineRow size) := by
  have target : some "101" = some (vmidText 101) := by decide +kernel
  refine ⟨rfl, rfl, target, 0, ?_⟩
  have node : (isIdentifier "pve".toList && !hasDotDot "pve".toList) = true := by decide
  show (if _ then _ else _) = _
  rw [if_pos]
  · rfl
  · show (isIdentifier "pve".toList && !hasDotDot "pve".toList && _) = true
    rw [node, checked]
    rfl

theorem machine_fits (size : String) : Fits plainVault 7 (Request.vm (machine size)).secret := by
  intro noise
  show (String.ofList ((if noise % 2 = 0 then 'a' else 'b') :: _)).toList.length ≤ 4096
  rw [String.toList_ofList, List.length_cons]
  show (envelope "password" 7 "").dumps.length + 1 ≤ 4096
  decide +kernel

theorem machine_shows {size disk : String}
    (placed : onStorage plainPrinting "local-lvm" "scsi0" (machineConfig disk) = true) :
    Shows plainPrinting (.vm (machine size)) (machineRow size) (machineAnswer disk)
      (machineConfig disk) where
  once := by
    have listed : entriesOf plainPrinting 101 [.obj machineEntry] = [machineEntry] := by
      decide +kernel
    exact ⟨_, machineEntry, rfl, listed, rfl, rfl, fun starts => by cases starts⟩
  config := rfl
  unlocked := rfl
  marked := by
    show "FreeSDN creation: " ++ toString 7 ∈ splitLines "FreeSDN creation: 7"
    decide +kernel
  named := fun some => absurd rfl some
  cores := rfl
  memory := by
    show "2048" = vmidText 2048
    decide +kernel
  stored := placed

theorem halfGibibyte_verified :
    readback plainReading plainVault plainPrinting (machineRow "0.5G") machineTask
        (machineAnswer "local-lvm:vm-101-disk-0,size=512M")
        = some (succeeded "guest_creation_verified") ∧
      Verifiable (.vm (machine "0.5G")) (machineConfig "local-lvm:vm-101-disk-0,size=512M") := by
  have shows := @machine_shows "0.5G" "local-lvm:vm-101-disk-0,size=512M" (by decide +kernel)
  have verified : readback plainReading plainVault plainPrinting (machineRow "0.5G") machineTask
      (machineAnswer "local-lvm:vm-101-disk-0,size=512M")
        = some (succeeded "guest_creation_verified") := by decide +kernel
  have covers : Covers (.vm (machine "0.5G"))
      (machineConfig "local-lvm:vm-101-disk-0,size=512M") :=
    ⟨⟨536870912, 0⟩, ⟨5368709120, 1⟩, 536870912, by decide +kernel, by decide +kernel, rfl,
      by unfold AtMost; decide⟩
  have exact := @creation_verified (.vm (machine "0.5G")) plainReading plainVault plainPrinting
    (machineRow "0.5G") machineTask (machineAnswer "local-lvm:vm-101-disk-0,size=512M")
    plainReading_exact plainVault_lawful (machine_fits _) (by decide +kernel)
    (machine_submitted (by decide +kernel)) (by decide +kernel)
  exact ⟨verified, exact.mp (iff_of_true verified ⟨_, shows, covers⟩) _ shows⟩

/-- A tenth of a GiB is accepted, but the readback does not take it for a size. -/
theorem tenthGibibyte_unverified :
    (Request.vm (machine "0.1G")).valid = true ∧
      Submitted plainVault (.vm (machine "0.1G")) (machineRow "0.1G") ∧
      Proxmox.Creation.matchesTask machineTask (Request.vm (machine "0.1G")).stored.plan = true ∧
      (∃ d, Shows plainPrinting (.vm (machine "0.1G")) (machineRow "0.1G")
        (machineAnswer "local-lvm:vm-101-disk-0,size=104M") d ∧ Covers (.vm (machine "0.1G")) d) ∧
      readback plainReading plainVault plainPrinting (machineRow "0.1G") machineTask
        (machineAnswer "local-lvm:vm-101-disk-0,size=104M")
        = some (unknown "guest_creation_not_verified") := by
  refine ⟨by decide +kernel, machine_submitted (by decide +kernel), by decide +kernel,
    ⟨_, machine_shows (by decide +kernel), ?_⟩, by decide +kernel⟩
  exact ⟨⟨109051904, 0⟩, ⟨1073741824, 1⟩, 109051904, by decide +kernel, by decide +kernel, rfl,
    by unfold AtMost; decide⟩

end FreeSdn.Hypervisor.Creation
