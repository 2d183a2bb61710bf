import FreeSdn.Hypervisor.CreationEvidence
import FreeSdn.Hypervisor.GuestChanges
import FreeSdn.Lib.JsonText

/-! Guest changes through the stored row: a plan comes back as it was built, nothing else comes
back, and a disk is resized to what was reviewed. -/

namespace FreeSdn.Hypervisor.GuestChange

open FreeSdn.Lib FreeSdn.Lib.Dictionary FreeSdn.Staging
open FreeSdn.Hypervisor.Creation (Kind sized between vmidText lookup_without toPrecision_above
  plainReading plainReading_exact)

variable {r : Reading} {d e plan : Dict} {k old new node : String} {v vmType : Json} {kind : Kind}
  {c : PendingChange} {intent : ReviewedGuestIntent} {vmid : Int}

/-! ### Names of containers -/

theorem lookup_without_self (d : Dict) (k : String) : (without k d).lookup k = none := by
  rw [lookup_none_iff, without, keys_filter]
  simp

theorem lookup_rename_new :
    (rename old new d).lookup new = (d.lookup old).or (d.lookup new) := by
  unfold rename
  cases d.lookup old with
  | none => rfl
  | some v => exact lookup_setItem_self

theorem lookup_rename_old (other : old ≠ new) : (rename old new d).lookup old = none := by
  unfold rename
  cases found : d.lookup old with
  | none => exact found
  | some v =>
    show (setItem (without old d) new v).lookup old = none
    rw [lookup_setItem_ne other, lookup_without_self]

theorem lookup_rename_ne (notOld : k ≠ old) (notNew : k ≠ new) :
    (rename old new d).lookup k = d.lookup k := by
  unfold rename
  cases d.lookup old with
  | none => rfl
  | some v =>
    show (setItem (without old d) new v).lookup k = d.lookup k
    rw [lookup_setItem_ne notNew, lookup_without d notOld]

/-- Renaming keeps the values. -/
theorem mem_rename {m : String × Json} (h : m ∈ rename old new d) : ∃ l, (l, m.2) ∈ d := by
  unfold rename at h
  cases found : d.lookup old with
  | none =>
    rw [found] at h
    exact ⟨m.1, h⟩
  | some v =>
    rw [found] at h
    rcases mem_setItem h with rfl | ⟨-, here⟩
    · exact ⟨old, mem_of_lookup found⟩
    · exact ⟨m.1, List.mem_of_mem_filter here⟩

theorem nodup_rename (distinct : (d.map Prod.fst).Nodup) :
    ((rename old new d).map Prod.fst).Nodup := by
  unfold rename
  split
  · apply nodup_setItem
    rw [without, keys_filter]
    exact distinct.filter _
  · exact distinct

/-! ### Configurations -/

theorem options_lookup (q : UpdateConfigRequest) :
    q.options.lookup "cores" = q.cores.map .int ∧ q.options.lookup "memory" = q.memory.map .int ∧
      q.options.lookup "balloon" = q.balloon.map .int ∧ q.options.lookup "name" = q.name.map .str ∧
      q.options.lookup "description" = q.description.map .str ∧
      q.options.lookup "tags" = q.tags.map .str ∧ q.options.lookup "onboot" = q.onboot.map .bool ∧
      q.options.lookup "protection" = q.protection.map .bool := by
  simp only [UpdateConfigRequest.options]
  simp [lookup_dumped_self, lookup_dumped_ne, -List.append_nil]

theorem keys_dumped (key : String) (value : Option Json) :
    ((dumped key value).map Prod.fst).Sublist [key] := by
  cases value with
  | none => exact List.nil_sublist _
  | some v => exact List.Sublist.refl _

theorem options_keys (q : UpdateConfigRequest) :
    (q.options.map Prod.fst).Sublist configKeys := by
  simp only [UpdateConfigRequest.options, List.map_append]
  repeat' apply (keys_dumped _ _).append
  exact List.Sublist.refl _

theorem options_atoms (q : UpdateConfigRequest) :
    ∀ m ∈ q.options, (∃ n, m.2 = .int n) ∨ (∃ s, m.2 = .str s) ∨ ∃ b, m.2 = .bool b := by
  intro m mem
  simp only [UpdateConfigRequest.options, List.mem_append] at mem
  rcases mem with h | h | h | h | h | h | h | h | h
  all_goals try
    obtain ⟨x, -, eq⟩ := Option.map_eq_some_iff.mp (mem_dumped h).2
    simp [← eq]
  cases h

theorem options_plain (q : UpdateConfigRequest) : Plain (.obj q.options) := by
  refine .obj ((options_keys q).nodup (by decide)) fun m mem => ?_
  rcases options_atoms q m mem with ⟨n, eq⟩ | ⟨s, eq⟩ | ⟨b, eq⟩ <;> rw [eq]
  · exact .int n
  · exact .str s
  · exact .bool b

theorem encode_plain (kind : Kind) (q : UpdateConfigRequest) :
    Plain (.obj (encode kind q.options)) := by
  cases kind with
  | qemu => exact options_plain q
  | lxc =>
    cases options_plain q with
    | obj distinct members =>
      refine .obj (nodup_rename distinct) fun m mem => ?_
      obtain ⟨l, here⟩ := mem_rename mem
      exact members (l, m.2) here

/-- A stored configuration has the values that were encoded. -/
theorem lookup_encoded (kind : Kind) (q : UpdateConfigRequest)
    (stored : Reordered (.obj d) (.obj (encode kind q.options))) (k : String) :
    d.lookup k = (encode kind q.options).lookup k := by
  have atoms : ∀ w, (encode kind q.options).lookup k = some w → ∀ e, w ≠ .obj e := by
    intro w found e
    have mem := mem_of_lookup found
    have option : ∃ l, (l, w) ∈ q.options := by
      cases kind with
      | qemu => exact ⟨k, mem⟩
      | lxc => exact mem_rename mem
    obtain ⟨l, here⟩ := option
    rcases options_atoms q (l, w) here with ⟨n, rfl⟩ | ⟨s, rfl⟩ | ⟨b, rfl⟩ <;> nofun
  cases found : (encode kind q.options).lookup k with
  | none => exact stored.lookup_missing found
  | some w => exact stored.lookup_atom found (atoms w found)

/-- Decoding undoes encoding. -/
theorem lookup_decode (kind : Kind) (q : UpdateConfigRequest)
    (stored : ∀ k, d.lookup k = (encode kind q.options).lookup k) (k : String) :
    (decode (.str kind.text) d).lookup k = q.options.lookup k := by
  have missing : q.options.lookup "hostname" = none := by
    rw [lookup_none_iff]
    intro mem
    have := (options_keys q).subset mem
    revert this
    decide
  cases kind with
  | qemu => exact stored k
  | lxc =>
    show (rename "hostname" "name" d).lookup k = _
    by_cases isName : k = "name"
    · subst isName
      rw [lookup_rename_new, stored, stored]
      show ((rename _ _ q.options).lookup _).or ((rename _ _ q.options).lookup _) = _
      rw [lookup_rename_new, lookup_rename_old (by decide), missing]
      simp
    · by_cases isHost : k = "hostname"
      · subst isHost
        rw [lookup_rename_old (by decide), missing]
      · rw [lookup_rename_ne isHost isName, stored]
        exact lookup_rename_ne isName isHost

theorem nullable_eq {α : Type} {read : Json → Option α} {dump : α → Json} {x : Option α}
    (h : d.lookup k = x.map dump) (back : ∀ a, read (dump a) = some a)
    (value : ∀ a, dump a ≠ .null) : nullable read d k = some x := by
  unfold nullable
  rw [h]
  cases x with
  | none => rfl
  | some a =>
    rw [Option.map_some]
    split
    · rename_i none
      cases none
    · rename_i null
      exact absurd (Option.some.inj null) (value a)
    · rename_i v _ eq
      rw [← Option.some.inj eq, back]
      rfl

theorem readConfig_options (exact : r.Exact) {q : UpdateConfigRequest} (valid : q.valid = true)
    (all : ∀ k, d.lookup k = q.options.lookup k) : readConfig r d = some q := by
  obtain ⟨cores, memory, balloon, name, description, tags, onboot, protection⟩ := options_lookup q
  have known : (d.all fun m => decide (m.1 ∈ configKeys)) = true := by
    rw [List.all_eq_true]
    intro m mem
    obtain ⟨w, found⟩ := lookup_some_iff.mpr (List.mem_map_of_mem mem)
    rw [all] at found
    exact decide_eq_true ((options_keys q).subset (lookup_some_iff.mp ⟨w, found⟩))
  have texts (s : String) : text (.str s) = some s := rfl
  unfold readConfig
  rw [nullable_eq ((all _).trans cores) exact.int nofun,
    nullable_eq ((all _).trans memory) exact.int nofun,
    nullable_eq ((all _).trans balloon) exact.int nofun,
    nullable_eq ((all _).trans name) texts nofun,
    nullable_eq ((all _).trans description) texts nofun,
    nullable_eq ((all _).trans tags) texts nofun,
    nullable_eq ((all _).trans onboot) exact.bool nofun,
    nullable_eq ((all _).trans protection) exact.bool nofun]
  show (if (_ && q.valid) = true then some q else none) = some q
  rw [known, valid]
  rfl

/-! ### Plans -/

theorem kindOf_text (kind : Kind) : kindOf (.str kind.text) = .ok kind := by
  cases kind <;> rfl

theorem kindOf_ok (h : kindOf vmType = .ok kind) : vmType = .str kind.text := by
  unfold kindOf at h
  split at h
  · rename_i s
    by_cases qemu : s = "qemu"
    · rw [if_pos qemu] at h
      obtain rfl := Except.ok.inj h
      rw [qemu]
      rfl
    · rw [if_neg qemu] at h
      by_cases lxc : s = "lxc"
      · rw [if_pos lxc] at h
        obtain rfl := Except.ok.inj h
        rw [lxc]
        rfl
      · rw [if_neg lxc] at h
        cases h
  all_goals cases h

theorem actionOf_text (action : Action) : actionOf (.str action.text) = some action := by
  cases action <;> rfl

/-- The members that every plan starts with. -/
def header (kind : Kind) (intent : ReviewedGuestIntent) : Dict :=
  [("guest_change_version", .int 1), ("vm_type", .str kind.text),
    ("action", .str intent.change.action.text), ("expected_digest", .str intent.expectedDigest)]

theorem buildPlan_ok (h : buildPlan vmType intent = .ok plan) :
    ∃ kind rest, vmType = .str kind.text ∧ details kind intent.change = .ok rest ∧
      plan = header kind intent ++ rest := by
  obtain ⟨kind, known, h⟩ := bind_ok h
  obtain ⟨rest, detailed, h⟩ := bind_ok h
  obtain rfl := kindOf_ok known
  exact ⟨kind, rest, rfl, detailed, (Except.ok.inj h).symm⟩

/-- What a plan for a resized disk says. -/
structure Resized (kind : Kind) (q : ResizeDiskRequest) (target : Int) : Prop where
  disk : isDisk kind q.disk.toList = true
  size : targetBytes q = .ok target
  grows : q.currentSizeBytes < target
  bounded : target ≤ maxBytes
  whole : target % 1024 = 0

theorem details_resize {q : ResizeDiskRequest} {rest : Dict}
    (h : details kind (.resize q) = .ok rest) :
    ∃ target, Resized kind q target ∧
      rest = [("disk", .str q.disk), ("current_size_bytes", .int q.currentSizeBytes),
        ("target_size_bytes", .int target), ("requested_size", .str q.size)] := by
  obtain ⟨disk, h⟩ := require_bind h
  obtain ⟨target, size, h⟩ := bind_ok h
  obtain ⟨range, h⟩ := require_bind h
  simp only [Bool.and_eq_true, decide_eq_true_eq] at range
  exact ⟨target, ⟨disk, size, range.1.1, range.1.2, range.2⟩, (Except.ok.inj h).symm⟩

theorem details_config {q : UpdateConfigRequest} {rest : Dict}
    (h : details kind (.config q) = .ok rest) :
    rest = [("config", .obj (encode kind q.options))] := by
  obtain ⟨-, h⟩ := require_bind h
  obtain ⟨-, h⟩ := require_bind h
  exact (Except.ok.inj h).symm

theorem details_template {confirmed : Bool} {rest : Dict}
    (h : details kind (.template confirmed) = .ok rest) : confirmed = true ∧ rest = [] := by
  obtain ⟨yes, h⟩ := require_bind h
  exact ⟨yes, (Except.ok.inj h).symm⟩

/-- The keys that a plan can have. -/
def planKeys : List String :=
  ["guest_change_version", "vm_type", "action", "expected_digest", "disk", "current_size_bytes",
    "target_size_bytes", "requested_size", "config"]

theorem details_keys {change : Change} {rest : Dict} (h : details kind change = .ok rest) :
    (rest.map Prod.fst).Sublist
      ["disk", "current_size_bytes", "target_size_bytes", "requested_size", "config"] := by
  cases change with
  | resize q =>
    obtain ⟨target, -, rfl⟩ := details_resize h
    exact List.sublist_append_left _ ["config"]
  | config q =>
    obtain rfl := details_config h
    exact List.sublist_append_right ["disk", "current_size_bytes", "target_size_bytes",
      "requested_size"] ["config"]
  | template confirmed =>
    obtain ⟨-, rfl⟩ := details_template h
    exact List.nil_sublist _

theorem plan_keys (h : buildPlan vmType intent = .ok plan) :
    (plan.map Prod.fst).Sublist planKeys := by
  obtain ⟨kind, rest, rfl, detailed, rfl⟩ := buildPlan_ok h
  rw [List.map_append]
  exact (List.Sublist.refl (header kind intent |>.map Prod.fst)).append (details_keys detailed)

theorem plan_members (h : buildPlan vmType intent = .ok plan) : ∀ m ∈ plan, Plain m.2 := by
  obtain ⟨kind, rest, rfl, detailed, rfl⟩ := buildPlan_ok h
  have first : ∀ m ∈ header kind intent, Plain m.2 :=
    List.forall_iff_forall_mem.mp ⟨.int 1, .str _, .str _, .str _⟩
  have last : ∀ m ∈ rest, Plain m.2 := by
    revert detailed
    cases intent.change with
    | resize q =>
      intro detailed
      obtain ⟨target, -, rfl⟩ := details_resize detailed
      exact List.forall_iff_forall_mem.mp ⟨.str _, .int _, .int _, .str _⟩
    | config q =>
      intro detailed
      obtain rfl := details_config detailed
      exact List.forall_iff_forall_mem.mp (encode_plain kind q)
    | template confirmed =>
      intro detailed
      obtain ⟨-, rfl⟩ := details_template detailed
      simp
  intro m mem
  rcases List.mem_append.mp mem with h | h
  · exact first m h
  · exact last m h

theorem not_mem_plan (h : buildPlan vmType intent = .ok plan) (other : k ∉ planKeys) :
    ∀ m ∈ plan, m.1 ≠ k := by
  rintro m mem rfl
  exact other ((plan_keys h).subset (List.mem_map_of_mem mem))

/-- The target comes after the plan. -/
theorem located_eq (h : buildPlan vmType intent = .ok plan) (node : String) (vmid : Int) :
    located plan node vmid = plan ++ [("node", .str node), ("vmid", .int vmid)] := by
  have first : setItem plan "node" (.str node) = plan ++ [("node", .str node)] :=
    setItem_new (not_mem_plan h (by decide))
  have second : setItem (plan ++ [("node", .str node)]) "vmid" (.int vmid)
      = plan ++ [("node", .str node)] ++ [("vmid", .int vmid)] := by
    apply setItem_new
    intro m mem
    rcases List.mem_append.mp mem with here | last
    · exact not_mem_plan h (by decide) m here
    · rw [List.mem_singleton.mp last]
      exact (by decide : "node" ≠ "vmid")
  unfold located
  rw [update_cons, update_cons, update_nil, first, second, List.append_assoc]
  rfl

theorem located_keys (h : buildPlan vmType intent = .ok plan) (node : String) (vmid : Int) :
    ((located plan node vmid).map Prod.fst).Sublist (planKeys ++ ["node", "vmid"]) := by
  rw [located_eq h, List.map_append]
  exact (plan_keys h).append (List.Sublist.refl _)

theorem located_plain (h : buildPlan vmType intent = .ok plan) (node : String) (vmid : Int) :
    Plain (.obj (located plan node vmid)) := by
  refine .obj ((located_keys h node vmid).nodup (by decide)) ?_
  have last : ∀ m ∈ [("node", Json.str node), ("vmid", Json.int vmid)], Plain m.2 :=
    List.forall_iff_forall_mem.mp ⟨.str node, .int vmid⟩
  rw [located_eq h]
  intro m mem
  rcases List.mem_append.mp mem with here | there
  · exact plan_members h m here
  · exact last m there

/-- Confirmation comes last. -/
theorem confirm_eq (h : buildPlan vmType intent = .ok plan) (node : String) (vmid : Int)
    (confirmed : Option Json) :
    confirm (located plan node vmid) confirmed
      = located plan node vmid ++ dumped "confirmed" confirmed := by
  cases confirmed with
  | none => exact (List.append_nil _).symm
  | some v =>
    apply setItem_new
    rintro m mem eq
    have known := (located_keys h node vmid).subset (List.mem_map_of_mem mem)
    rw [eq] at known
    revert known
    decide

/-! ### Stored plans -/

/-- The payload of a row: the plan, its target, and a confirmation. -/
def written (plan : Dict) (node : String) (vmid : Int) (confirmed : Option Bool) : Dict :=
  located plan node vmid ++ dumped "confirmed" (confirmed.map .bool)

/-- A row that holds a plan, under the feature, the operation and the target of the plan. -/
structure Filed (kind : Kind) (intent : ReviewedGuestIntent) (plan : Dict) (node : String)
    (vmid : Int) (confirmed : Option Bool) (c : PendingChange) : Prop where
  feature : c.feature = featureOf kind intent.change.action
  operation : c.operation = intent.change.action.operation
  target : c.targetId = some (vmidText vmid)
  payload : Reordered (.obj c.payload) (.obj (written plan node vmid confirmed))

variable {confirmed : Option Bool}

theorem lookup_written (built : buildPlan vmType intent = .ok plan) (other : k ≠ "confirmed") :
    (written plan node vmid confirmed).lookup k
      = (plan ++ [("node", Json.str node), ("vmid", Json.int vmid)]).lookup k := by
  have rest : (dumped "confirmed" (confirmed.map Json.bool)).lookup k = none := by
    rw [← List.append_nil (dumped _ _), lookup_dumped_ne _ other]
    rfl
  rw [written, located_eq built, List.lookup_append, rest, Option.or_none]

theorem Filed.lookup (filed : Filed kind intent plan node vmid confirmed c)
    (built : buildPlan vmType intent = .ok plan) {w : Json} (found : plan.lookup k = some w)
    (atom : ∀ e, w ≠ .obj e) (other : k ≠ "confirmed") : c.payload.lookup k = some w := by
  apply filed.payload.lookup_atom _ atom
  rw [lookup_written built other, List.lookup_append, found]
  rfl

/-- The target of a stored plan. -/
theorem Filed.located (filed : Filed kind intent plan node vmid confirmed c)
    (built : buildPlan vmType intent = .ok plan) :
    c.payload.lookup "node" = some (.str node) ∧ c.payload.lookup "vmid" = some (.int vmid) := by
  have missing {k : String} (other : k ∉ planKeys) : plan.lookup k = none :=
    lookup_none_iff.mpr fun mem => other ((plan_keys built).subset mem)
  constructor
  · refine filed.payload.lookup_atom ?_ nofun
    rw [lookup_written built (by decide), List.lookup_append, missing (by decide)]
    rfl
  · refine filed.payload.lookup_atom ?_ nofun
    rw [lookup_written built (by decide), List.lookup_append, missing (by decide)]
    rfl

theorem Filed.lookup_confirmed (filed : Filed kind intent plan node vmid confirmed c)
    (built : buildPlan vmType intent = .ok plan) :
    c.payload.lookup "confirmed" = confirmed.map .bool := by
  have last : (written plan node vmid confirmed).lookup "confirmed" = confirmed.map .bool := by
    have missing : (GuestChange.located plan node vmid).lookup "confirmed" = none := by
      rw [lookup_none_iff]
      intro mem
      have known := (located_keys built node vmid).subset mem
      revert known
      decide
    rw [written, List.lookup_append, missing, Option.none_or, ← List.append_nil (dumped _ _),
      lookup_dumped_self]
    exact Option.or_none
  cases confirmed with
  | none => exact filed.payload.lookup_missing last
  | some b => exact filed.payload.lookup_atom last nofun

/-- Without the confirmation, the row holds the plan and its target. -/
theorem Filed.same (filed : Filed kind intent plan node vmid confirmed c)
    (built : buildPlan vmType intent = .ok plan) :
    same r (.obj (without "confirmed" c.payload)) (.obj (GuestChange.located plan node vmid))
      = true := by
  have all : without "confirmed" (written plan node vmid confirmed)
      = GuestChange.located plan node vmid := by
    have kept : without "confirmed" (GuestChange.located plan node vmid)
        = GuestChange.located plan node vmid := by
      apply List.filter_eq_self.mpr
      intro m mem
      have known := (located_keys built node vmid).subset (List.mem_map_of_mem mem)
      apply decide_eq_true
      rintro eq
      rw [eq] at known
      revert known
      decide
    have dropped : without "confirmed" (dumped "confirmed" (confirmed.map .bool)) = [] := by
      cases confirmed <;> rfl
    unfold written
    unfold without at kept dropped ⊢
    rw [List.filter_append, kept, dropped, List.append_nil]
  have reordered := filed.payload.filter "confirmed"
  rw [show (written plan node vmid confirmed).filter (fun m => m.1 ≠ "confirmed") = _ from all]
    at reordered
  exact reordered.same (located_plain built node vmid)

theorem readResize_filed {q : ResizeDiskRequest} (valid : q.valid = true)
    (disk : d.lookup "disk" = some (.str q.disk))
    (size : d.lookup "requested_size" = some (.str q.size))
    (current : d.lookup "current_size_bytes" = some (.int q.currentSizeBytes)) :
    readResize d = some q := by
  unfold readResize textAt intAt
  rw [disk, size, current]
  show (if q.valid = true then some q else none) = some q
  rw [if_pos valid]

/-- The change that is read from the row of a plan. -/
theorem readChange_filed (exact : r.Exact) (valid : intent.change.valid = true)
    (built : buildPlan (.str kind.text) intent = .ok plan)
    (filed : Filed kind intent plan node vmid confirmed c) :
    readChange r (.str kind.text) c.payload intent.change.action = some intent.change := by
  obtain ⟨kind', rest, same, detailed, shape⟩ := buildPlan_ok built
  have kinds : kind = kind' := by
    have text := Json.str.inj same
    revert text
    cases kind <;> cases kind' <;> decide
  subst kinds
  have found {k : String} {w : Json} (atom : ∀ e, w ≠ .obj e) (other : k ≠ "confirmed")
      (here : (header kind intent ++ rest).lookup k = some w) : c.payload.lookup k = some w :=
    filed.lookup built (shape ▸ here) atom other
  cases change : intent.change with
  | resize q =>
    rw [change] at detailed valid
    obtain ⟨target, -, rfl⟩ := details_resize detailed
    show (readResize c.payload).map Change.resize = _
    rw [readResize_filed valid (found nofun (by decide) rfl) (found nofun (by decide) rfl)
      (found nofun (by decide) rfl)]
    rfl
  | config q =>
    rw [change] at detailed valid
    obtain rfl := details_config detailed
    have both := filed.payload.lookup "config"
    have here : (written plan node vmid confirmed).lookup "config"
        = some (.obj (encode kind q.options)) := by
      rw [lookup_written built (by decide), shape]
      rfl
    rw [here] at both
    generalize stored : c.payload.lookup "config" = x at both
    cases both with
    | @some v _ reordered =>
      obtain ⟨d, rfl⟩ : ∃ d, v = .obj d := by
        cases reordered with
        | refl => exact ⟨_, rfl⟩
        | obj => exact ⟨_, rfl⟩
      have all := lookup_decode kind q (lookup_encoded kind q reordered)
      show ((c.payload.lookup "config").bind fun v => (asDict v).bind fun d =>
        (readConfig r (decode (.str kind.text) d)).map Change.config) = _
      rw [stored]
      show (readConfig r (decode (.str kind.text) d)).map Change.config = _
      rw [readConfig_options exact valid all]
      rfl
  | template confirmed =>
    rw [change] at detailed
    obtain ⟨rfl, -⟩ := details_template detailed
    rfl

/-- The intent that is read from the row of a plan. -/
theorem readIntent_filed (exact : r.Exact) (valid : intent.valid = true)
    (built : buildPlan (.str kind.text) intent = .ok plan)
    (filed : Filed kind intent plan node vmid confirmed c) :
    readIntent r (.str kind.text) c.payload = some intent := by
  obtain ⟨digest, changed⟩ := Bool.and_eq_true_iff.mp valid
  obtain ⟨kind', rest, -, -, shape⟩ := buildPlan_ok built
  have action : c.payload.lookup "action" = some (.str intent.change.action.text) :=
    filed.lookup built (shape ▸ rfl) nofun (by decide)
  have marked : textAt c.payload "expected_digest" = some intent.expectedDigest := by
    have here : c.payload.lookup "expected_digest" = some (.str intent.expectedDigest) :=
      filed.lookup built (shape ▸ rfl) nofun (by decide)
    rw [textAt, here]
  unfold readIntent
  rw [action, marked]
  simp only [Option.bind_eq_bind, Option.bind_some, actionOf_text,
    readChange_filed exact changed built filed, if_pos digest]

theorem Filed.version (filed : Filed kind intent plan node vmid confirmed c)
    (built : buildPlan vmType intent = .ok plan) :
    require (c.payload.lookup "guest_change_version" == some (.int 1)) contract = .ok () := by
  obtain ⟨kind', rest, -, -, shape⟩ := buildPlan_ok built
  have here : c.payload.lookup "guest_change_version" = some (.int 1) :=
    filed.lookup built (shape ▸ rfl) nofun (by decide)
  rw [here]
  rfl

theorem Filed.lookup_vmType (filed : Filed kind intent plan node vmid confirmed c)
    (built : buildPlan (.str kind.text) intent = .ok plan) :
    c.payload.lookup "vm_type" = some (.str kind.text) := by
  obtain ⟨kind', rest, same, -, rfl⟩ := buildPlan_ok built
  rw [same]
  exact filed.lookup built rfl nofun (by decide)

theorem Filed.vmidOf_eq (filed : Filed kind intent plan node vmid confirmed c)
    (built : buildPlan vmType intent = .ok plan) (range : between 100 999999999 vmid = true) :
    vmidOf c.payload = some vmid := by
  rw [vmidOf, intAt, (filed.located built).2]
  simp only [Option.filter_some, range, if_true]

theorem Filed.nodeOf_eq (filed : Filed kind intent plan node vmid confirmed c)
    (built : buildPlan vmType intent = .ok plan) (safe : validateId node "node" = .ok ()) :
    nodeOf c.payload = .ok node := by
  rw [nodeOf, (filed.located built).1]
  simp only [safe]
  rfl

theorem validatedPlan_filed (exact : r.Exact) (valid : intent.valid = true)
    (built : buildPlan (.str kind.text) intent = .ok plan) (safe : validateId node "node" = .ok ())
    (range : between 100 999999999 vmid = true)
    (filed : Filed kind intent plan node vmid confirmed c) :
    validatedPlan r c = .ok (written plan node vmid confirmed) := by
  have found {α : Type} {x : Option α} {a : α} (h : x = some a) : orRaise x contract = .ok a := by
    rw [h]
    rfl
  have matching : require (decide (c.feature = featureOf kind intent.change.action) &&
      decide (c.operation = intent.change.action.operation) &&
      decide (c.targetId.getD "None" = vmidText vmid)) contract = .ok () := by
    rw [filed.feature, filed.operation, filed.target]
    simp [require]
  have unchanged : require (Hypervisor.same r (.obj (without "confirmed" c.payload))
      (.obj (GuestChange.located plan node vmid))) contract = .ok () := by
    rw [filed.same built]
    rfl
  have last : confirm (GuestChange.located plan node vmid) (c.payload.lookup "confirmed")
      = written plan node vmid confirmed := by
    rw [filed.lookup_confirmed built]
    exact confirm_eq built node vmid _
  unfold validatedPlan
  simp only
  rw [ok_bind (filed.version built), ok_bind (found (filed.lookup_vmType built)),
    ok_bind (found (readIntent_filed exact valid built filed)), ok_bind built,
    ok_bind (kindOf_text kind), ok_bind (found (filed.vmidOf_eq built range)),
    ok_bind (filed.nodeOf_eq built safe), ok_bind matching, ok_bind unchanged, last]
  rfl

/-- What an accepted row holds: the plan of a request, with its target and a confirmation. -/
structure Accepted (r : Reading) (c : PendingChange) (result : Dict) (kind : Kind)
    (intent : ReviewedGuestIntent) (plan : Dict) (node : String) (vmid : Int) : Prop where
  valid : intent.valid = true
  built : buildPlan (.str kind.text) intent = .ok plan
  safe : validateId node "node" = .ok ()
  range : between 100 999999999 vmid = true
  same : same r (.obj (without "confirmed" c.payload)) (.obj (located plan node vmid)) = true
  result : result = located plan node vmid ++ dumped "confirmed" (c.payload.lookup "confirmed")

theorem readResize_valid {q : ResizeDiskRequest} (h : readResize d = some q) : q.valid = true := by
  unfold readResize at h
  simp only [Option.bind_eq_bind, Option.bind_eq_some_iff] at h
  obtain ⟨disk, -, size, -, current, -, h⟩ := h
  split at h
  · rename_i valid
    rw [← Option.some.inj h]
    exact valid
  · cases h

theorem readConfig_valid {q : UpdateConfigRequest} (h : readConfig r d = some q) :
    q.valid = true := by
  unfold readConfig at h
  simp only [Option.bind_eq_bind, Option.bind_eq_some_iff] at h
  obtain ⟨_, -, _, -, _, -, _, -, _, -, _, -, _, -, _, -, h⟩ := h
  split at h
  · rename_i valid
    rw [← Option.some.inj h]
    exact (Bool.and_eq_true_iff.mp valid).2
  · cases h

theorem readChange_valid {action : Action} {change : Change}
    (h : readChange r vmType d action = some change) : change.valid = true := by
  cases action with
  | resize =>
    obtain ⟨q, read, rfl⟩ := Option.map_eq_some_iff.mp h
    exact readResize_valid read
  | config =>
    simp only [readChange, Option.bind_eq_bind, Option.bind_eq_some_iff] at h
    obtain ⟨_, -, _, -, h⟩ := h
    obtain ⟨q, read, rfl⟩ := Option.map_eq_some_iff.mp h
    exact readConfig_valid read
  | template =>
    obtain rfl := Option.some.inj h
    rfl

theorem readIntent_valid (h : readIntent r vmType d = some intent) : intent.valid = true := by
  simp only [readIntent, Option.bind_eq_bind, Option.bind_eq_some_iff] at h
  obtain ⟨_, -, action, -, digest, -, change, read, h⟩ := h
  split at h
  · rename_i hex
    rw [← Option.some.inj h]
    exact Bool.and_eq_true_iff.mpr ⟨hex, readChange_valid read⟩
  · cases h

theorem nodeOf_ok (h : nodeOf d = .ok node) : validateId node "node" = .ok () := by
  unfold nodeOf at h
  split at h
  · cases h
  · rename_i text _
    obtain ⟨_, checked, rfl⟩ := map_ok h
    cases passed : validateId text "node" with
    | ok _ => rfl
    | error e =>
      rw [passed] at checked
      cases checked
  · cases h

/-- Nothing else is accepted. -/
theorem validatedPlan_ok {result : Dict} (h : validatedPlan r c = .ok result) :
    ∃ kind intent plan node vmid, Accepted r c result kind intent plan node vmid := by
  unfold validatedPlan at h
  obtain ⟨-, h⟩ := require_bind h
  obtain ⟨vmType, -, h⟩ := bind_ok h
  obtain ⟨intent, read, h⟩ := bind_ok h
  obtain ⟨plan, built, h⟩ := bind_ok h
  obtain ⟨kind, known, h⟩ := bind_ok h
  obtain ⟨vmid, target, h⟩ := bind_ok h
  obtain ⟨node, host, h⟩ := bind_ok h
  obtain ⟨-, h⟩ := require_bind h
  obtain ⟨unchanged, h⟩ := require_bind h
  rw [kindOf_ok known] at built
  refine ⟨kind, intent, plan, node, vmid, readIntent_valid (orRaise_ok read), built, nodeOf_ok host,
    (Option.filter_eq_some_iff.mp (orRaise_ok target)).2, unchanged, ?_⟩
  rw [← confirm_eq built]
  exact (Except.ok.inj h).symm

/-! ### Resized disks -/

variable {n : Nat}

/-- A number of KiB denotes as many bytes. -/
theorem exactSize_kibibytes (whole : n % 1024 = 0) : exactSize (kibibytes n) = some ⟨n, 0⟩ := by
  have chars : (kibibytes n).toList = Lib.Json.natText (n / 1024) ++ ['K'] := by
    have number : (n : Int) / 1024 = (n / 1024 : Nat) := by omega
    rw [kibibytes, vmidText, number, String.toList_append, String.toList_ofList]
    rfl
  have value : digitsValue (Lib.Json.natText (n / 1024)) = n / 1024 := Json.natText_value _
  unfold exactSize
  rw [chars, List.getLast?_append_cons, List.dropLast_concat]
  show (Decimal.read _).map _ = _
  rw [Decimal.read_digits (Json.natText_digits _) (Json.natText_ne_nil _), value]
  show some (Decimal.mk (n / 1024 * 1024) 0) = _
  rw [Nat.div_mul_cancel (Nat.dvd_of_mod_eq_zero whole)]

/-- The size of a request is written without a point. -/
theorem requestedSize_pointless {cs : List Char} (h : isRequestedSize cs = true) : '.' ∉ cs := by
  have decimal {ds : List Char} (all : ds.all isDecimalChar = true) : '.' ∉ ds := fun mem =>
    absurd (List.all_eq_true.mp all '.' mem) (by decide)
  have unsigned {ds : List Char}
      (all : (if (ds.getLast?.bind unitBytes).isSome then ds.dropLast else ds).all isDecimalChar
        = true) : '.' ∉ ds := by
    split at all
    · rename_i unit
      intro mem
      obtain ⟨last, found⟩ : ∃ last, ds.getLast? = some last := by
        cases found : ds.getLast? with
        | none =>
          rw [found] at unit
          cases unit
        | some last => exact ⟨last, rfl⟩
      rw [found] at unit
      obtain ⟨front, rfl⟩ := List.getLast?_eq_some_iff.mp found
      rw [List.dropLast_concat] at all
      rcases List.mem_append.mp mem with here | there
      · exact decimal all here
      · obtain rfl := List.mem_singleton.mp there
        revert unit
        decide
    · exact decimal all
  obtain ⟨-, all⟩ := Bool.and_eq_true_iff.mp h
  by_cases plus : cs.head? = some '+'
  · rw [if_pos plus] at all
    obtain ⟨rest, rfl⟩ := List.head?_eq_some_iff.mp plus
    rw [List.drop_one, List.tail_cons] at all
    intro mem
    rcases List.mem_cons.mp mem with eq | later
    · revert eq
      decide
    · exact unsigned all later
  · rw [if_neg plus] at all
    exact unsigned all

/-- The amount of a request is the number of bytes that it denotes. -/
theorem requestedSize_exact {size : String} (valid : isRequestedSize size.toList = true)
    (h : sizeBytes (unsignedSize size) = .ok n) : exactSize (unsignedSize size) = some ⟨n, 0⟩ := by
  obtain ⟨x, denoted, rounded, positive, bounded⟩ := sizeBytes_ok_iff.mp h
  have pointless : '.' ∉ (unsignedSize size).toList := by
    intro mem
    rw [unsignedSize, String.toList_ofList] at mem
    exact requestedSize_pointless valid ((List.dropWhile_sublist _).subset mem)
  have whole : x.scale = 0 := by
    unfold exactSize at denoted
    split at denoted
    · obtain ⟨y, read, rfl⟩ := Option.map_eq_some_iff.mp denoted
      show y.scale = 0
      exact Decimal.read_scale read fun mem => pointless ((List.dropLast_sublist _).subset mem)
    · obtain ⟨y, read, rfl⟩ := Option.map_eq_some_iff.mp denoted
      show y.scale = 0
      exact Decimal.read_scale read pointless
  obtain ⟨m, scale⟩ := x
  obtain rfl : scale = 0 := whole
  have within : m ≤ maxBytes := by
    refine Nat.le_of_not_lt fun above => ?_
    have far := toPrecision_above (d := 0) above
    simp only [Nat.pow_zero, Nat.mul_one] at far rounded
    omega
  have small : m < 10 ^ 28 := Nat.lt_of_le_of_lt within (by decide)
  simp only [toPrecision_small small, Nat.pow_zero, Nat.mul_one] at rounded
  rw [denoted, rounded]

/-- The size of a resized disk, from the size before and the request. -/
structure Grown (current target : Nat) (requested : String) : Prop where
  grows : current < target
  bounded : target ≤ 2 ^ 53 - 1
  whole : target % 1024 = 0
  amount : ∃ amount, exactSize (unsignedSize requested) = some ⟨amount, 0⟩ ∧
    target = if isIncrement requested then current + amount else amount

theorem Resized.grown {q : ResizeDiskRequest} {target : Int} (valid : q.valid = true)
    (resized : Resized kind q target) {current : Nat} (h : q.currentSizeBytes = current) :
    ∃ n : Nat, target = n ∧ Grown current n q.size := by
  simp only [ResizeDiskRequest.valid, Bool.and_eq_true] at valid
  obtain ⟨amount, parsed, eq⟩ := bind_ok resized.size
  obtain ⟨bytes, read⟩ : ∃ bytes, sizeBytes (unsignedSize q.size) = .ok bytes ∧ bytes = amount := by
    cases read : sizeBytes (unsignedSize q.size) with
    | error e =>
      rw [read] at parsed
      cases parsed
    | ok bytes =>
      rw [read] at parsed
      exact ⟨bytes, rfl, Except.ok.inj parsed⟩
  have eq := Except.ok.inj eq
  have positive : 0 ≤ target := by
    have := resized.grows
    omega
  have whole := resized.whole
  have grows := resized.grows
  have bounded := resized.bounded
  have limit : maxBytes = 2 ^ 53 - 1 := rfl
  refine ⟨target.toNat, (Int.toNat_of_nonneg positive).symm, by omega, by omega, by omega, bytes,
    requestedSize_exact valid.2 read.1, ?_⟩
  rw [h] at eq
  split
  · rename_i plus
    rw [if_pos plus] at eq
    omega
  · rename_i absolute
    rw [if_neg absolute] at eq
    omega

theorem applyGuestChange_sent {p : Provider} {command : Command}
    (h : (applyGuestChange r p c).sent = some command) :
    ∃ plan, prepared r p c = .ok (plan, command) := by
  unfold applyGuestChange at h
  split at h
  · cases h
  · rename_i plan sent ok
    obtain rfl := Option.some.inj h
    exact ⟨plan, ok⟩

theorem readBefore_ok {p : Provider} {before : Dict} (h : readBefore p kind node vmid = .ok before) :
    p.config kind node vmid = .ok (some (.obj before)) := by
  obtain ⟨answer, read, h⟩ := bind_ok h
  rw [read]
  split at h
  · obtain ⟨-, h⟩ := require_bind h
    rw [Except.ok.inj h]
  · cases h

/-- What precedes a command: the plan, and the configuration that the provider showed. -/
theorem prepared_ok {p : Provider} {command : Command} (h : prepared r p c = .ok (plan, command)) :
    ∃ action kind node vmid digest before, validatedPlan r c = .ok plan ∧
      (plan.lookup "action").bind actionOf = some action ∧
      p.config kind node vmid = .ok (some (.obj before)) ∧
      commandOf plan before kind node vmid digest action = .ok command := by
  unfold prepared at h
  obtain ⟨plan', validated, h⟩ := bind_ok h
  obtain ⟨action, acts, h⟩ := bind_ok h
  obtain ⟨-, h⟩ := require_bind h
  obtain ⟨_, -, h⟩ := bind_ok h
  obtain ⟨_, -, h⟩ := bind_ok h
  obtain ⟨kind, -, h⟩ := bind_ok h
  obtain ⟨node, -, h⟩ := bind_ok h
  obtain ⟨vmid, -, h⟩ := bind_ok h
  obtain ⟨before, shown, h⟩ := bind_ok h
  obtain ⟨digest, -, h⟩ := bind_ok h
  obtain ⟨-, h⟩ := require_bind h
  obtain ⟨-, h⟩ := require_bind h
  obtain ⟨command', last, h⟩ := bind_ok h
  obtain ⟨rfl, rfl⟩ := Prod.mk.inj (Except.ok.inj h)
  exact ⟨action, kind, node, vmid, digest, before, validated, orRaise_ok acts, readBefore_ok shown,
    last⟩

theorem intAt_ok {m : Int} (h : item (intAt d k) = .ok m) : d.lookup k = some (.int m) := by
  have found := orRaise_ok h
  unfold intAt at found
  split at found
  · obtain rfl := Option.some.inj found
    assumption
  · cases found

/-- A command that resizes a disk comes from a plan that does. -/
theorem commandOf_resize {before : Dict} {digest disk size digest' : String} {kind' : Kind}
    {node' : String} {vmid' : Int} {action : Action}
    (h : commandOf plan before kind node vmid digest action
      = .ok (.resizeDisk kind' node' vmid' disk size digest')) :
    action = .resize ∧ kind = kind' ∧ node = node' ∧ vmid = vmid' ∧
      ∃ (current : Nat) (target : Int), diskBytes before disk = .ok current ∧
        plan.lookup "current_size_bytes" = some (.int current) ∧
        plan.lookup "target_size_bytes" = some (.int target) ∧ size = kibibytes target := by
  cases action with
  | resize =>
    obtain ⟨disk', named, h⟩ := bind_ok h
    obtain ⟨bytes, shown, h⟩ := bind_ok h
    obtain ⟨current, reviewed, h⟩ := bind_ok h
    obtain ⟨unchanged, h⟩ := require_bind h
    obtain ⟨target, planned, h⟩ := bind_ok h
    obtain ⟨rfl, rfl, rfl, rfl, rfl, rfl⟩ := Command.resizeDisk.inj (Except.ok.inj h)
    have equal := of_decide_eq_true unchanged
    refine ⟨rfl, rfl, rfl, rfl, bytes, target, ?_, ?_, intAt_ok planned, rfl⟩
    · cases parsed : diskBytes before disk' with
      | error e =>
        rw [parsed] at shown
        cases shown
      | ok n =>
        rw [parsed] at shown
        rw [Except.ok.inj shown]
    · rw [equal]
      exact intAt_ok reviewed
  | config =>
    simp only [commandOf] at h
    split at h
    · cases h
    · cases h
  | template =>
    obtain ⟨-, h⟩ := require_bind h
    cases h

/-- The plan of an accepted row that resizes a disk. -/
theorem Accepted.resize (accepted : Accepted r c d kind intent plan node vmid)
    (h : (d.lookup "action").bind actionOf = some .resize) :
    ∃ q target, intent.change = .resize q ∧ q.valid = true ∧ Resized kind q target ∧
      d.lookup "current_size_bytes" = some (.int q.currentSizeBytes) ∧
      d.lookup "target_size_bytes" = some (.int target) ∧
      d.lookup "requested_size" = some (.str q.size) := by
  obtain ⟨valid, built, -, -, -, rfl⟩ := accepted
  obtain ⟨kind', rest, same, detailed, shape⟩ := buildPlan_ok built
  obtain rfl : kind = kind' := by
    have text := Json.str.inj same
    revert text
    cases kind <;> cases kind' <;> decide
  have here : ((header kind intent ++ rest ++ [("node", Json.str node), ("vmid", .int vmid)] ++
      dumped "confirmed" (c.payload.lookup "confirmed")).lookup "action").bind actionOf
        = some intent.change.action := actionOf_text _
  rw [located_eq built, shape] at h ⊢
  have action : intent.change.action = .resize := Option.some.inj (here.symm.trans h)
  cases change : intent.change with
  | resize q =>
    rw [change] at detailed
    obtain ⟨target, resized, rfl⟩ := details_resize detailed
    have checked : q.valid = true := by
      have both := (Bool.and_eq_true_iff.mp valid).2
      rw [change] at both
      exact both
    exact ⟨q, target, rfl, checked, resized, rfl, rfl, rfl⟩
  | config q =>
    rw [change] at action
    cases action
  | template confirmed =>
    rw [change] at action
    cases action

/-- What a sent command for a disk does. -/
theorem sent_resize {p : Provider} {disk size digest : String}
    (h : (applyGuestChange r p c).sent = some (.resizeDisk kind node vmid disk size digest)) :
    ∃ (plan before : Dict) (current target : Nat) (requested : String),
      validatedPlan r c = .ok plan ∧ p.config kind node vmid = .ok (some (.obj before)) ∧
      diskBytes before disk = .ok current ∧
      plan.lookup "current_size_bytes" = some (.int current) ∧
      plan.lookup "target_size_bytes" = some (.int target) ∧
      plan.lookup "requested_size" = some (.str requested) ∧
      size = kibibytes target ∧ Grown current target requested := by
  obtain ⟨plan, ready⟩ := applyGuestChange_sent h
  obtain ⟨action, _, _, _, digest', before, validated, acts, shown, commanded⟩ := prepared_ok ready
  obtain ⟨rfl, rfl, rfl, rfl, current, target, disk, reviewed, planned, rfl⟩ :=
    commandOf_resize commanded
  obtain ⟨_, intent, _, _, _, accepted⟩ := validatedPlan_ok validated
  obtain ⟨q, target', -, valid, resized, was, becomes, asked⟩ := accepted.resize acts
  have same : target' = target := Json.int.inj (Option.some.inj (becomes.symm.trans planned))
  have size : q.currentSizeBytes = current :=
    Json.int.inj (Option.some.inj (was.symm.trans reviewed))
  subst same
  obtain ⟨n, rfl, grown⟩ := resized.grown valid size
  exact ⟨plan, before, current, n, q.size, validated, shown, disk, reviewed, planned, asked, rfl,
    grown⟩

/-! ### Persistence -/

/-- A row that holds the plan of a request is accepted and returns the plan; an accepted row holds
the plan of a request; and the command for a disk takes it from the size that was read to the size
that was asked for. -/
theorem guestPlans_persist (exact : r.Exact) :
    (∀ kind intent plan node vmid confirmed c, intent.valid = true →
      buildPlan (.str kind.text) intent = .ok plan → validateId node "node" = .ok () →
      between 100 999999999 vmid = true → Filed kind intent plan node vmid confirmed c →
      validatedPlan r c = .ok (written plan node vmid confirmed)) ∧
    (∀ c result, validatedPlan r c = .ok result →
      ∃ kind intent plan node vmid, Accepted r c result kind intent plan node vmid) ∧
    ∀ p c kind node vmid disk size digest,
      (applyGuestChange r p c).sent = some (.resizeDisk kind node vmid disk size digest) →
      ∃ (plan before : Dict) (current target : Nat) (requested : String),
        validatedPlan r c = .ok plan ∧
        plan.lookup "current_size_bytes" = some (.int current) ∧
        plan.lookup "target_size_bytes" = some (.int target) ∧
        plan.lookup "requested_size" = some (.str requested) ∧
        p.config kind node vmid = .ok (some (.obj before)) ∧ diskBytes before disk = .ok current ∧
        size = vmidText (target / 1024 : Nat) ++ "K" ∧ exactSize size = some ⟨target, 0⟩ ∧
        Grown current target requested := by
  refine ⟨?_, fun c result h => validatedPlan_ok h, ?_⟩
  · intro kind intent plan node vmid confirmed c valid built safe range filed
    exact validatedPlan_filed exact valid built safe range filed
  · intro p c kind node vmid disk size digest sent
    obtain ⟨plan, before, current, target, requested, validated, shown, read, was, becomes, asked,
      rfl, grown⟩ := sent_resize sent
    exact ⟨plan, before, current, target, requested, validated, was, becomes, asked, shown, read,
      rfl, exactSize_kibibytes grown.whole, grown⟩

/-- Ten GiB more for a disk of 32 GiB. -/
def growth : ReviewedGuestIntent where
  expectedDigest := "0123456789abcdef0123456789abcdef01234567"
  change := .resize ⟨34359738368, "scsi0", "+10G"⟩

def growthPlan : Dict :=
  header .qemu growth ++ [("disk", .str "scsi0"), ("current_size_bytes", .int 34359738368),
    ("target_size_bytes", .int 45097156608), ("requested_size", .str "+10G")]

/-- Its row, with the members in another order. -/
def growthRow : PendingChange :=
  { Creation.machineRow "32G" with
    feature := "proxmox.vm.resize_disk"
    operation := "update"
    payload := (written growthPlan "pve" 101 none).reverse }

/-- A provider that shows the disk and accepts every command. -/
def growthProvider : Provider where
  connect := .ok ()
  preflight _ _ _ := .ok ()
  config _ _ _ := .ok (some (.obj [("digest", .str growth.expectedDigest),
    ("scsi0", .str "local-lvm:vm-101-disk-0,size=32G")]))
  send _ := .ok (some .null)
  readback _ := some (Proxmox.succeeded "guest_state_verified")

theorem growth_persists :
    validatedPlan plainReading growthRow = .ok (written growthPlan "pve" 101 none) ∧
      ∃ plan : Dict, validatedPlan plainReading growthRow = .ok plan ∧
        plan.lookup "target_size_bytes" = some (.int 45097156608) ∧
        exactSize "44040192K" = some ⟨45097156608, 0⟩ := by
  obtain ⟨returned, -, resized⟩ := guestPlans_persist plainReading_exact
  constructor
  · apply returned .qemu growth growthPlan "pve" 101 none growthRow
    · decide +kernel
    · decide +kernel
    · decide +kernel
    · decide
    · refine ⟨rfl, rfl, by decide +kernel, ?_⟩
      exact Reordered.of_perm (by decide +kernel) (List.reverse_perm _)
  · have sent : (applyGuestChange plainReading growthProvider growthRow).sent
        = some (.resizeDisk .qemu "pve" 101 "scsi0" "44040192K" growth.expectedDigest) := by
      decide +kernel
    obtain ⟨plan, before, current, target, requested, validated, was, becomes, asked, shown, read,
      size, denoted, grown⟩ := resized _ _ _ _ _ _ _ _ sent
    have value : exactSize "44040192K" = some ⟨45097156608, 0⟩ := by decide +kernel
    have same : target = 45097156608 := by
      have both := denoted.symm.trans value
      exact congrArg Decimal.coefficient (Option.some.inj both)
    subst same
    exact ⟨plan, validated, becomes, denoted⟩

end FreeSdn.Hypervisor.GuestChange
