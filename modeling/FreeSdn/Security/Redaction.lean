import FreeSdn.Security.KeyNames

/-! The redaction of secrets in payloads (`redact_secrets` of `core/redaction.py`): what lies under a
sensitive key does not show in the result, and everything else does. -/

namespace FreeSdn.Security

/-- A payload of the shape of JSON, with tuples.  Texts are told from the other scalars, as the mask is
one. -/
inductive Payload (α : Type)
  | text (s : String)
  | scalar (x : α)
  | dict (members : List (String × Payload α))
  | list (items : List (Payload α))
  | tuple (items : List (Payload α))

namespace Payload

variable {α : Type}

/-- `isinstance(payload, (dict, list, tuple))`. -/
def isContainer : Payload α → Bool
  | .text _ | .scalar _ => false
  | _ => true

/-- `_REDACTED`. -/
def redacted : Payload α := .text "***"

/-- `_MAX_DEPTH`. -/
def maxDepth : Nat := 16

variable (strings : Strings)

/-- `redact_secrets` where the walk may descend by `left` more. -/
def redact : Nat → Payload α → Payload α
  | 0, payload => if payload.isContainer then redacted else payload
  | left + 1, .dict members =>
    .dict (members.map fun m => (m.1, if keyIsSensitive strings m.1 then redacted else redact left m.2))
  | left + 1, .list items => .list (items.map (redact left))
  | left + 1, .tuple items => .tuple (items.map (redact left))
  | _ + 1, payload => payload

/-- `redact_secrets`. -/
def redactSecrets (payload : Payload α) (depth : Nat) : Payload α :=
  redact strings (maxDepth - depth) payload

/-- `redact_list`. -/
def redactList (items : List (Payload α)) : List (Payload α) := items.map (redactSecrets strings · 0)

/-! ### What does not flow -/

mutual

/-- The payloads differ only in values under sensitive keys. -/
inductive Agree : Payload α → Payload α → Prop
  | text (s : String) : Agree (.text s) (.text s)
  | scalar (x : α) : Agree (.scalar x) (.scalar x)
  | dict {members members' : List (String × Payload α)} : AgreeMembers members members' →
      Agree (.dict members) (.dict members')
  | list {items items' : List (Payload α)} : AgreeItems items items' → Agree (.list items) (.list items')
  | tuple {items items' : List (Payload α)} : AgreeItems items items' → Agree (.tuple items) (.tuple items')

inductive AgreeMembers : List (String × Payload α) → List (String × Payload α) → Prop
  | nil : AgreeMembers [] []
  | hidden {k : String} {v v' : Payload α} {members members' : List (String × Payload α)} :
      keyIsSensitive strings k → AgreeMembers members members' →
      AgreeMembers ((k, v) :: members) ((k, v') :: members')
  | shown {k : String} {v v' : Payload α} {members members' : List (String × Payload α)} :
      Agree v v' → AgreeMembers members members' → AgreeMembers ((k, v) :: members) ((k, v') :: members')

inductive AgreeItems : List (Payload α) → List (Payload α) → Prop
  | nil : AgreeItems [] []
  | cons {v v' : Payload α} {items items' : List (Payload α)} :
      Agree v v' → AgreeItems items items' → AgreeItems (v :: items) (v' :: items')

end

variable {strings}

/-- What is true of payloads that agree is true of their items. -/
theorem AgreeItems.map_eq {f : Payload α → Payload α} (each : ∀ v v', Agree strings v v' → f v = f v')
    {items items' : List (Payload α)} (agree : AgreeItems strings items items') : items.map f = items'.map f := by
  induction items generalizing items' with
  | nil =>
    cases agree
    rfl
  | cons v items ih =>
    cases agree with
    | cons first rest => rw [List.map_cons, List.map_cons, each _ _ first, ih rest]

theorem AgreeMembers.map_eq {f : Payload α → Payload α} (each : ∀ v v', Agree strings v v' → f v = f v')
    {members members' : List (String × Payload α)} (agree : AgreeMembers strings members members') :
    (members.map fun m => (m.1, if keyIsSensitive strings m.1 then redacted else f m.2)) =
      members'.map fun m => (m.1, if keyIsSensitive strings m.1 then redacted else f m.2) := by
  induction members generalizing members' with
  | nil =>
    cases agree
    rfl
  | cons m members ih =>
    cases agree with
    | hidden sensitive rest => rw [List.map_cons, List.map_cons, ih rest, if_pos sensitive, if_pos sensitive]
    | shown first rest => rw [List.map_cons, List.map_cons, ih rest, each _ _ first]

theorem redact_agree (left : Nat) {payload payload' : Payload α} (agree : Agree strings payload payload') :
    redact strings left payload = redact strings left payload' := by
  induction left generalizing payload payload' with
  | zero => cases agree <;> rfl
  | succ left ih =>
    cases agree with
    | text => rfl
    | scalar => rfl
    | dict members => exact congrArg dict (members.map_eq fun _ _ => ih)
    | list items => exact congrArg list (items.map_eq fun _ _ => ih)
    | tuple items => exact congrArg tuple (items.map_eq fun _ _ => ih)

theorem redact_idempotent (left : Nat) (payload : Payload α) :
    redact strings left (redact strings left payload) = redact strings left payload := by
  induction left generalizing payload with
  | zero =>
    cases payload with
    | text => rfl
    | scalar => rfl
    | dict => rfl
    | list => rfl
    | tuple => rfl
  | succ left ih =>
    have items (xs : List (Payload α)) : (xs.map (redact strings left)).map (redact strings left) =
        xs.map (redact strings left) := by
      rw [List.map_map]
      exact List.map_congr_left fun v _ => ih v
    cases payload with
    | text => rfl
    | scalar => rfl
    | dict members =>
      refine congrArg dict ?_
      rw [List.map_map]
      refine List.map_congr_left fun m _ => ?_
      simp only [Function.comp_apply]
      split
      · rfl
      · rw [ih]
    | list xs => exact congrArg list (items xs)
    | tuple xs => exact congrArg tuple (items xs)

/-! ### What is kept -/

/-- A step into a payload. -/
inductive Step
  | key (k : String)
  | item (i : Nat)

/-- The payload at the end of a path. -/
def atPath : Payload α → List Step → Option (Payload α)
  | payload, [] => some payload
  | .dict members, .key k :: path => ((members.find? (·.1 = k)).map (·.2)).bind (atPath · path)
  | .list items, .item i :: path => items[i]?.bind (atPath · path)
  | .tuple items, .item i :: path => items[i]?.bind (atPath · path)
  | _, _ => none

/-- The path leads through no sensitive key. -/
def Open (strings : Strings) (path : List Step) : Prop := ∀ k, .key k ∈ path → ¬ keyIsSensitive strings k

/-- On an open path the walk goes on. -/
theorem redact_path {left : Nat} {payload v : Payload α} {path : List Step} (clear : Open strings path)
    (short : path.length ≤ left) (here : payload.atPath path = some v) :
    (redact strings left payload).atPath path = some (redact strings (left - path.length) v) := by
  induction path generalizing left payload with
  | nil =>
    obtain rfl := Option.some.inj here
    rfl
  | cons step path ih =>
    have rest : Open strings path := fun k mem => clear k (List.mem_cons_of_mem step mem)
    obtain ⟨left, rfl⟩ : ∃ n, left = n + 1 := ⟨left - 1, by rw [List.length_cons] at short; omega⟩
    have short' : path.length ≤ left := Nat.le_of_succ_le_succ short
    have same : left + 1 - (step :: path).length = left - path.length := Nat.succ_sub_succ left path.length
    rw [same]
    have item (items : List (Payload α)) (i : Nat) (here : items[i]?.bind (atPath · path) = some v) :
        (items.map (redact strings left))[i]?.bind (atPath · path) =
          some (redact strings (left - path.length) v) := by
      obtain ⟨w, found, onward⟩ := Option.bind_eq_some_iff.mp here
      rw [List.getElem?_map, found, Option.map_some, Option.bind_some]
      exact ih rest short' onward
    cases payload with
    | text s => cases step <;> cases here
    | scalar x => cases step <;> cases here
    | dict members =>
      cases step with
      | item i => cases here
      | key k =>
        obtain ⟨w, found, onward⟩ := Option.bind_eq_some_iff.mp here
        obtain ⟨m, first, rfl⟩ := Option.map_eq_some_iff.mp found
        have named : m.1 = k := by simpa using List.find?_some first
        have clearKey : ¬ keyIsSensitive strings k := clear k List.mem_cons_self
        have next : (redact strings (left + 1) (.dict members)).atPath (.key k :: path) =
            ((members.find? (·.1 = k)).map fun m =>
              if keyIsSensitive strings m.1 then redacted else redact strings left m.2).bind (atPath · path) := by
          simp only [redact, atPath, List.find?_map, Option.map_map]
          rfl
        rw [next, first, Option.map_some, Option.bind_some, named, if_neg clearKey]
        exact ih rest short' onward
    | list items =>
      cases step with
      | key k => cases here
      | item i => exact item items i here
    | tuple items =>
      cases step with
      | key k => cases here
      | item i => exact item items i here

/-- A scalar is never masked for itself. -/
theorem redact_scalar {v : Payload α} (leaf : v.isContainer = false) (left : Nat) :
    redact strings left v = v := by
  cases v with
  | text => cases left <;> rfl
  | scalar => cases left <;> rfl
  | _ => cases leaf

/-- Nothing under a sensitive key shows in a redacted payload, a second redaction changes nothing, and what
lies under no sensitive key is kept, down to the depth at which containers are masked.  The spelling of a
key plays no part. -/
theorem redactSecrets_spec (strings : Strings) :
    (∀ payload payload' : Payload α, Agree strings payload payload' →
      redactSecrets strings payload 0 = redactSecrets strings payload' 0) ∧
    (∀ payload : Payload α, redactSecrets strings (redactSecrets strings payload 0) 0 =
      redactSecrets strings payload 0) ∧
    (∀ (payload v : Payload α) (path : List Step), Open strings path → payload.atPath path = some v →
      (path.length ≤ 16 → v.isContainer = false →
        (redactSecrets strings payload 0).atPath path = some v) ∧
      (path.length < 16 → ∀ members, v = .dict members →
        ∃ members', (redactSecrets strings payload 0).atPath path = some (.dict members') ∧
          members'.map (·.1) = members.map (·.1))) ∧
    ∀ ws : List (List Char), (∀ w ∈ ws, IsWord w) →
      keyIsSensitive strings (String.ofList (joined '_' ws)) →
        keyIsSensitive strings (String.ofList (joined '-' ws)) ∧
        keyIsSensitive strings (String.ofList (camel ws)) ∧
        keyIsSensitive strings (String.ofList (pascal ws)) ∧
        keyIsSensitive strings (String.ofList (joined '_' (ws.map upper))) ∧
        keyIsSensitive strings (String.ofList (joined '-' (ws.map upper))) := by
  refine ⟨fun _ _ => redact_agree 16, redact_idempotent 16, ?_, fun _ => sensitive_spellings strings⟩
  intro payload v path clear here
  constructor
  · intro short leaf
    have kept : (redact strings 16 payload).atPath path = _ := redact_path clear short here
    rw [redact_scalar leaf] at kept
    exact kept
  · rintro short members rfl
    have kept : (redact strings 16 payload).atPath path = _ := redact_path clear short.le here
    obtain ⟨left, more⟩ : ∃ n, 16 - path.length = n + 1 := ⟨15 - path.length, by omega⟩
    rw [more] at kept
    refine ⟨_, kept, ?_⟩
    rw [List.map_map]
    rfl

end Payload

end FreeSdn.Security
