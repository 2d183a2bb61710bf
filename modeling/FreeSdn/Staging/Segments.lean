import FreeSdn.Staging.Dispatch

/-! The strings of a staged change that end up in the paths of controller URLs.  Acceptance keeps
slashes, backslashes and `..` out of them.  It does not keep control characters out: the patterns end in
`$`, which a final newline satisfies, and the fallback looks for path characters only. -/

namespace FreeSdn.Staging

open FreeSdn.Lib

/-! ### Path segments -/

/-- The characters of the Unicode category `Cc`. -/
def isControl (c : Char) : Bool := c.toNat < 32 || (127 ≤ c.toNat && c.toNat < 160)

def Uncontrolled (cs : List Char) : Prop := ∀ c ∈ cs, isControl c = false

/-- No backslash, no `..` and no control character. -/
def Contained (cs : List Char) : Prop :=
  '\\' ∉ cs ∧ hasDotDot cs = false ∧ Uncontrolled cs

/-- Contained, and without a slash. -/
def SafeSegment (cs : List Char) : Prop := '/' ∉ cs ∧ Contained cs

/-- The keys whose values are taken for identifiers. -/
def PathKey (key : String) : Prop := key ∈ macKeys ∨ key ∈ idKeys ∨ suspiciousKey key = true

/-- A string, or the strings of a list. -/
def strings : Json → List String
  | .str s => [s]
  | .arr items => items.filterMap fun item => match item with
    | .str s => some s
    | _ => none
  | _ => []

/-- The identifiers of a request are segments of a path, except for snapshots, which have slashes. -/
def SafePaths (request : StageRequest) : Prop :=
  (∀ target, request.targetId = some target → SafeSegment target.toList) ∧
  ∀ m ∈ request.payload, PathKey m.1 → ∀ s ∈ strings m.2,
    if m.1 = "snapshot_id" then Contained s.toList else SafeSegment s.toList

def Unbroken (cs : List Char) : Prop := cs.getLast? ≠ some '\n'

/-- No identifier with a validator of its own ends in a newline, and no other identifier has a control
character. -/
def PlainPaths (request : StageRequest) : Prop :=
  (∀ target, request.targetId = some target → Unbroken target.toList) ∧
  ∀ m ∈ request.payload, PathKey m.1 → ∀ s ∈ strings m.2,
    if m.1 ∈ macKeys ∨ m.1 ∈ structuredPathKeys ∨ m.1 ∈ idKeys then Unbroken s.toList
    else Uncontrolled s.toList

/-! ### Characters -/

section
variable {c : Char} {cs : List Char}

theorem Uncontrolled.unbroken (plain : Uncontrolled cs) : Unbroken cs := by
  intro last
  have mem := List.mem_of_getLast? last
  have control : isControl '\n' = true := by decide
  rw [plain '\n' mem] at control
  cases control

theorem Unbroken.dropFinalNewline (unbroken : Unbroken cs) : dropFinalNewline cs = cs :=
  if_neg unbroken

/-- A visible ASCII character. -/
def Visible (c : Char) : Prop := 33 ≤ c.toNat ∧ c.toNat < 127

theorem Visible.uncontrolled (visible : Visible c) : isControl c = false := by
  obtain ⟨low, high⟩ := visible
  simp [isControl]
  omega

theorem visible_between {a b : Char} (low : 33 ≤ a.toNat) (high : b.toNat < 127) (from_a : a ≤ c)
    (to_b : c ≤ b) : Visible c :=
  ⟨Nat.le_trans low from_a, Nat.lt_of_le_of_lt to_b high⟩

theorem visible_of_alnum (h : isAsciiAlnum c = true) : Visible c := by
  simp only [isAsciiAlnum, isAsciiLetter, isAsciiDigit, Bool.or_eq_true, Bool.and_eq_true,
    decide_eq_true_eq] at h
  rcases h with (⟨low, high⟩ | ⟨low, high⟩) | ⟨low, high⟩
  · exact visible_between (by decide) (by decide) low high
  · exact visible_between (by decide) (by decide) low high
  · exact visible_between (by decide) (by decide) low high

theorem visible_of_hex (h : isHexDigit c = true) : Visible c := by
  simp only [isHexDigit, isAsciiDigit, Bool.or_eq_true, Bool.and_eq_true, decide_eq_true_eq] at h
  rcases h with (⟨low, high⟩ | ⟨low, high⟩) | ⟨low, high⟩
  · exact visible_between (by decide) (by decide) low high
  · exact visible_between (by decide) (by decide) low high
  · exact visible_between (by decide) (by decide) low high

/-- A character of `validate_mac`. -/
def isMacChar (c : Char) : Bool := isHexDigit c || c == '-' || c == ':'

theorem mac_of_hex (h : isHexDigit c = true) : isMacChar c = true := by simp [isMacChar, h]

theorem visible_of_mac (h : isMacChar c = true) : Visible c := by
  simp only [isMacChar, Bool.or_eq_true, beq_iff_eq] at h
  rcases h with (hex | rfl) | rfl
  · exact visible_of_hex hex
  · exact ⟨by decide, by decide⟩
  · exact ⟨by decide, by decide⟩

theorem visible_of_opaqueId (h : isOpaqueIdChar c = true) : Visible c := by
  simp only [isOpaqueIdChar, Bool.or_eq_true, beq_iff_eq] at h
  rcases h with ((((alnum | rfl) | rfl) | rfl) | rfl) | rfl
  · exact visible_of_alnum alnum
  all_goals exact ⟨by decide, by decide⟩

theorem visible_of_zfs (h : isZfsIdChar c = true) : Visible c := by
  simp only [isZfsIdChar, Bool.or_eq_true, beq_iff_eq] at h
  rcases h with (((((alnum | rfl) | rfl) | rfl) | rfl) | rfl) | rfl
  · exact visible_of_alnum alnum
  all_goals exact ⟨by decide, by decide⟩

theorem dot_of_hasDotDot (h : hasDotDot cs = true) : '.' ∈ cs := by
  fun_induction hasDotDot cs with
  | case1 => exact List.mem_cons_self
  | case2 d rest other ih => exact List.mem_cons_of_mem d (ih h)
  | case3 => cases h

/-- A text of one class of characters. -/
theorem contained_of_class {p : Char → Bool} (all : cs.all p = true)
    (visible : ∀ c, p c = true → Visible c) (backslash : p '\\' = false)
    (dots : hasDotDot cs = false) : Contained cs := by
  rw [List.all_eq_true] at all
  refine ⟨fun mem => ?_, dots, fun c mem => (visible c (all c mem)).uncontrolled⟩
  rw [all _ mem] at backslash
  cases backslash

theorem slashless_of_class {p : Char → Bool} (all : cs.all p = true) (slash : p '/' = false) :
    '/' ∉ cs := by
  intro mem
  rw [List.all_eq_true.mp all _ mem] at slash
  cases slash

end

/-! ### The validators -/

section
variable {value label key : String} {print : Printing} {payload : Dict}

theorem validateId_safe (h : validateId value label = .ok ()) (unbroken : Unbroken value.toList) :
    SafeSegment value.toList := by
  obtain ⟨shaped, dots⟩ := ite_ok h
  rw [unbroken.dropFinalNewline, allIn, Bool.and_eq_true, Bool.and_eq_true] at shaped
  exact ⟨slashless_of_class shaped.1.1 (by decide),
    contained_of_class shaped.1.1 (fun c => visible_of_opaqueId) (by decide) (by simpa using dots)⟩

theorem macTail_all {n : Nat} {cs : List Char} (h : macTail n cs = true) : cs.all isMacChar = true := by
  fun_induction macTail n cs with
  | case1 cs =>
    rw [List.isEmpty_iff.mp h]
    rfl
  | case2 n sep a b rest ih =>
    simp only [Bool.and_eq_true] at h
    obtain ⟨⟨⟨between, first⟩, second⟩, tail⟩ := h
    have separator : isMacChar sep = true := by
      simp only [Bool.or_eq_true, beq_iff_eq] at between
      rcases between with rfl | rfl
      · rfl
      · rfl
    rw [List.all_cons, separator, List.all_cons, mac_of_hex first, List.all_cons, mac_of_hex second,
      ih tail]
    rfl
  | case3 => cases h

theorem validateMac_safe (h : validateMac value = .ok ()) (unbroken : Unbroken value.toList) :
    SafeSegment value.toList := by
  unfold validateMac at h
  rw [unbroken.dropFinalNewline] at h
  have all : value.toList.all isMacChar = true := by
    split at h
    · rename_i a b rest chars
      split at h
      · rename_i shaped
        rw [chars, List.all_cons, mac_of_hex shaped.1, List.all_cons, mac_of_hex shaped.2.1,
          macTail_all shaped.2.2]
        rfl
      · cases h
    · cases h
  have dots : hasDotDot value.toList = false := by
    rw [Bool.eq_false_iff]
    intro dotted
    exact absurd (List.all_eq_true.mp all _ (dot_of_hasDotDot dotted)) (by decide)
  exact ⟨slashless_of_class all (by decide),
    contained_of_class all (fun c => visible_of_mac) (by decide) dots⟩

theorem validateStructuredZfsId_safe (h : validateStructuredZfsId print value = .ok ())
    (unbroken : Unbroken value.toList) : Contained value.toList := by
  unfold validateStructuredZfsId at h
  rw [unbroken.dropFinalNewline] at h
  obtain ⟨shaped, dots, -⟩ := ite_ok h
  have all : value.toList.all isZfsIdChar = true := by
    generalize value.toList = cs at shaped
    cases cs with
    | nil => rfl
    | cons first rest =>
      rw [Bool.and_eq_true] at shaped
      rw [List.all_cons, shaped.2, Bool.and_true]
      simp [isZfsIdChar, shaped.1]
  exact contained_of_class all (fun c => visible_of_zfs) (by decide) (by simpa using dots)

theorem validateStrings_ok {validator : String → Except HttpError Unit} {json : Json}
    (h : validateStrings validator json = .ok ()) : ∀ s ∈ strings json, validator s = .ok () := by
  intro s mem
  cases json with
  | str text =>
    obtain rfl := List.mem_singleton.mp mem
    exact h
  | arr items =>
    obtain ⟨item, here, same⟩ := List.mem_filterMap.mp mem
    have passed := forM_ok h item here
    cases item with
    | str text =>
      obtain rfl := Option.some.inj same
      exact passed
    | _ => cases same
  | _ => cases mem

theorem rejectTraversal_ok {json : Json} (h : rejectTraversal print key json = .ok ()) :
    ∀ s ∈ strings json, hasTraversal s = false := by
  have passed {text : String} {e : HttpError}
      (h : (if hasTraversal text = true then .error e else .ok () : Except HttpError Unit) = .ok ()) :
      hasTraversal text = false := by
    by_contra found
    rw [if_pos (by simpa using found)] at h
    cases h
  intro s mem
  cases json with
  | str text =>
    obtain rfl := List.mem_singleton.mp mem
    exact passed h
  | arr items =>
    obtain ⟨item, here, same⟩ := List.mem_filterMap.mp mem
    have one := forM_ok h item here
    cases item with
    | str text =>
      obtain rfl := Option.some.inj same
      exact passed one
    | _ => cases same
  | _ => cases mem

theorem traversal_safe {s : String} (h : hasTraversal s = false) (plain : Uncontrolled s.toList) :
    SafeSegment s.toList := by
  simp only [hasTraversal, Bool.or_eq_false_iff, decide_eq_false_iff_not] at h
  exact ⟨h.1.2, h.2, h.1.1, plain⟩

/-- The payload checks, key by key. -/
theorem payload_safe (h : validateUrlPathPayloadKeys print payload = .ok ()) {key : String}
    {json : Json} (mem : (key, json) ∈ payload) (path : PathKey key) {s : String}
    (text : s ∈ strings json)
    (plain : if key ∈ macKeys ∨ key ∈ structuredPathKeys ∨ key ∈ idKeys then Unbroken s.toList
      else Uncontrolled s.toList) :
    if key = "snapshot_id" then Contained s.toList else SafeSegment s.toList := by
  have passed := forM_ok h (key, json) mem
  dsimp only at passed
  unfold keyValidator at passed
  by_cases mac : key ∈ macKeys
  · rw [if_pos mac] at passed
    rw [if_pos (.inl mac)] at plain
    have safe := validateMac_safe (validateStrings_ok passed s text) plain
    split
    · exact safe.2
    · exact safe
  rw [if_neg mac] at passed
  by_cases structured : key ∈ structuredPathKeys
  · rw [if_pos structured] at passed
    rw [if_pos (.inr (.inl structured))] at plain
    rw [if_pos (List.mem_singleton.mp structured)]
    exact validateStructuredZfsId_safe (validateStrings_ok passed s text) plain
  rw [if_neg structured] at passed
  rw [if_neg fun same => structured (List.mem_singleton.mpr same)]
  by_cases listed : key ∈ idKeys
  · rw [if_pos listed] at passed
    rw [if_pos (.inr (.inr listed))] at plain
    exact validateId_safe (validateStrings_ok passed s text) plain
  · rw [if_neg listed] at passed
    rw [if_neg (by rintro (h | h | h) <;> contradiction)] at plain
    have suspicious : suspiciousKey key = true := path.resolve_left mac |>.resolve_left listed
    dsimp only at passed
    rw [if_pos suspicious] at passed
    exact traversal_safe (rejectTraversal_ok passed s text) plain

end

/-! ### Accepted requests -/

theorem stageChecks_paths {env : Env} {rows : List PendingChange} {request : StageRequest}
    {row : PendingChange} (h : stageChecks env rows request row = .ok ()) :
    (∀ target, request.targetId = some target → validateId target "target_id" = .ok ()) ∧
      validateUrlPathPayloadKeys env.print request.payload = .ok () := by
  unfold stageChecks at h
  obtain ⟨_, -, h⟩ := bind_ok h
  obtain ⟨_, -, h⟩ := bind_ok h
  obtain ⟨_, -, h⟩ := bind_ok h
  obtain ⟨_, -, h⟩ := bind_ok h
  dsimp only at h
  split at h
  · rename_i target given
    obtain ⟨_, valid, h⟩ := bind_ok h
    obtain ⟨_, payload, -⟩ := bind_ok h
    refine ⟨fun other same => ?_, payload⟩
    rw [given] at same
    rw [← Option.some.inj same]
    exact valid
  · rename_i given
    obtain ⟨_, -, h⟩ := bind_ok h
    obtain ⟨_, payload, -⟩ := bind_ok h
    refine ⟨fun other same => ?_, payload⟩
    rw [given] at same
    cases same

/-- The identifiers of an accepted request are safe path segments exactly when none with a validator of
its own ends in a newline and no other one has a control character. -/
theorem staged_paths_safe (env : Env) (rows : List PendingChange) (request : StageRequest)
    (generated : Uuid) (now : Time) (row : PendingChange)
    (accepted : stageChange env rows request generated now = .ok row) :
    SafePaths request ↔ PlainPaths request := by
  obtain ⟨-, checks, -⟩ := stageChange_ok accepted
  obtain ⟨target, payload⟩ := stageChecks_paths checks
  constructor
  · rintro ⟨safe, entries⟩
    refine ⟨fun t given => (safe t given).2.2.2.unbroken, fun m mem path s text => ?_⟩
    have here := entries m mem path s text
    have plain : Uncontrolled s.toList := by
      split at here
      · exact here.2.2
      · exact here.2.2.2
    split
    · exact plain.unbroken
    · exact plain
  · rintro ⟨unbroken, entries⟩
    refine ⟨fun t given => validateId_safe (target t given) (unbroken t given), ?_⟩
    intro m mem path s text
    exact payload_safe payload mem path text (entries m mem path s text)

/-- A request for a rule of a gateway, with its target and payload. -/
def ruleRequest (target : String) (payload : Dict) : StageRequest :=
  { organizationId := 1, controllerId := some 2, feature := "omada.firewall.rule", operation := "update"
    payload := payload, siteId := none, targetId := some target, actorId := none, changeId := some 7
    granted := none }

/-- A target, a snapshot and the addresses of two devices. -/
def namedRequest : StageRequest :=
  ruleRequest "*1F" [("snapshot_id", .str "tank/data@daily"),
    ("device_mac", .arr [.str "00:11:22:aa:bb:cc", .str "00-11-22-AA-BB-CD"])]

theorem namedRequest_safe :
    stageChange plainEnv [] namedRequest 0 0 = .ok (namedRequest.row 0 0) ∧ SafePaths namedRequest := by
  have accepted : stageChange plainEnv [] namedRequest 0 0 = .ok (namedRequest.row 0 0) := by
    decide +kernel
  refine ⟨accepted, (staged_paths_safe plainEnv [] namedRequest 0 0 _ accepted).mpr ⟨?_, ?_⟩⟩
  · rintro target given
    obtain rfl := Option.some.inj given
    show Unbroken "*1F".toList
    unfold Unbroken
    decide
  · intro m mem path s text
    simp only [namedRequest, ruleRequest, List.mem_cons, List.not_mem_nil, or_false] at mem
    rcases mem with rfl | rfl
    · obtain rfl := List.mem_singleton.mp text
      rw [if_pos (by decide)]
      unfold Unbroken
      decide
    · have texts : s = "00:11:22:aa:bb:cc" ∨ s = "00-11-22-AA-BB-CD" := by simpa [strings] using text
      rw [if_pos (by decide)]
      unfold Unbroken
      rcases texts with rfl | rfl
      · decide
      · decide

/-- A target that ends in a newline is accepted. -/
theorem brokenTarget_accepted :
    stageChange plainEnv [] (ruleRequest "wan\n" []) 0 0 = .ok ((ruleRequest "wan\n" []).row 0 0) ∧
      ¬ SafePaths (ruleRequest "wan\n" []) := by
  refine ⟨by decide +kernel, fun safe => ?_⟩
  have plain := (safe.1 "wan\n" rfl).2.2.2 '\n' (by decide)
  cases plain

end FreeSdn.Staging
