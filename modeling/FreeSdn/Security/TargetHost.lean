import FreeSdn.Lib.Except
import Mathlib.Data.List.Dedup
import Mathlib.Data.String.Basic
import Mathlib.Tactic.Tauto

/-! The check of hosts that device operations connect to (`validate_target_host` of
`core/security_utils.py`).  Acceptance is steered by words in the messages of exceptions.  A message
about a name contains the name, so the words of a name decide about it; a message about a resolved
private address has no word that the handler looks for. -/

namespace FreeSdn.Security

open FreeSdn.Lib

/-! ### Addresses -/

inductive Address
  | v4 (ip : BitVec 32)
  | v6 (ip : BitVec 128) (scope : Option String)
  deriving DecidableEq

inductive Network
  | v4 (base : BitVec 32) (length : Nat)
  | v6 (base : BitVec 128) (length : Nat)

/-- `addr in net`. -/
def Address.within : Address → Network → Bool
  | .v4 ip, .v4 base length => ip.toNat / 2 ^ (32 - length) == base.toNat / 2 ^ (32 - length)
  | .v6 ip _, .v6 base length => ip.toNat / 2 ^ (128 - length) == base.toNat / 2 ^ (128 - length)
  | _, _ => false

def quad (a b c d : Nat) : BitVec 32 := BitVec.ofNat 32 (((a * 256 + b) * 256 + c) * 256 + d)

/-- The address whose first group is `group`, and whose other groups are zero. -/
def firstGroup (group : Nat) : BitVec 128 := BitVec.ofNat 128 (group * 2 ^ 112)

/-- An address without the wrapping of `ipv4_mapped`. -/
def Address.unmapped : Address → Address
  | .v6 ip scope =>
    if ip.toNat / 2 ^ 32 = 0xffff then .v4 (BitVec.ofNat 32 (ip.toNat % 2 ^ 32)) else .v6 ip scope
  | .v4 ip => .v4 ip

def Address.isLoopback : Address → Bool
  | .v4 ip => Address.within (.v4 ip) (.v4 (quad 127 0 0 0) 8)
  | .v6 ip _ => ip == 1

def Address.isLinkLocal (a : Address) : Bool :=
  [.v4 (quad 169 254 0 0) 16, .v6 (firstGroup 0xfe80) 10].any a.within

def Address.isMulticast (a : Address) : Bool :=
  [.v4 (quad 224 0 0 0) 4, .v6 (firstGroup 0xff00) 8].any a.within

def Address.isReserved (a : Address) : Bool :=
  [.v4 (quad 240 0 0 0) 4, .v6 (firstGroup 0) 8, .v6 (firstGroup 0x100) 8, .v6 (firstGroup 0x200) 7,
    .v6 (firstGroup 0x400) 6, .v6 (firstGroup 0x800) 5, .v6 (firstGroup 0x1000) 4,
    .v6 (firstGroup 0x4000) 3, .v6 (firstGroup 0x6000) 3, .v6 (firstGroup 0x8000) 3,
    .v6 (firstGroup 0xa000) 3, .v6 (firstGroup 0xc000) 3, .v6 (firstGroup 0xe000) 4,
    .v6 (firstGroup 0xf000) 5, .v6 (firstGroup 0xf800) 6, .v6 (firstGroup 0xfe00) 9].any a.within

def Address.isUnspecified : Address → Bool
  | .v4 ip => ip == 0
  | .v6 ip _ => ip == 0

/-- What the check takes from Python: the reading and the text of an address, `repr` of a string, the
host of a URL, and the answers of the resolver, as it prints them. -/
structure Python where
  ipAddress : String → Option Address
  str : Address → String
  repr : String → String
  urlHostname : String → Except String (Option String)
  /-- The addresses of a name, nothing when the lookup raises an `OSError`. -/
  getaddrinfo : String → Option (List String)

/-- `_resolve_hostname`. -/
def Python.resolveHostname (py : Python) (hostname : String) : List String :=
  match py.getaddrinfo hostname with
  | some results => results.dedup
  | none => []

def ssrfBlockedNetworks : List Network :=
  [.v4 (quad 0 0 0 0) 8, .v4 (quad 10 0 0 0) 8, .v4 (quad 100 64 0 0) 10, .v4 (quad 127 0 0 0) 8,
    .v4 (quad 169 254 0 0) 16, .v4 (quad 172 16 0 0) 12, .v4 (quad 192 0 0 0) 24,
    .v4 (quad 192 0 2 0) 24, .v4 (quad 192 168 0 0) 16, .v4 (quad 198 18 0 0) 15,
    .v4 (quad 198 51 100 0) 24, .v4 (quad 203 0 113 0) 24, .v4 (quad 224 0 0 0) 4,
    .v4 (quad 240 0 0 0) 4, .v4 (quad 255 255 255 255) 32, .v6 1 128, .v6 (firstGroup 0xfc00) 7,
    .v6 (firstGroup 0xfe80) 10, .v6 (firstGroup 0xff00) 8]

def cloudMetadataIpLiterals : List String :=
  ["169.254.169.254", "fd00:ec2::254", "100.100.100.200", "192.0.0.192"]

def metadataIps : List String := cloudMetadataIpLiterals ++ ["metadata.google.internal"]

def isPrivateIp (py : Python) (ip : String) : Bool :=
  match py.ipAddress ip with
  | none => true
  | some addr => ssrfBlockedNetworks.any addr.within

/-- `is_ssrf_blocked_ip`, on the address that its text denotes. -/
def isSsrfBlockedIp (py : Python) (a : Address) : Bool :=
  let ip := a.unmapped
  decide (py.str ip ∈ metadataIps) ||
    (ip.isLoopback || ip.isLinkLocal || ip.isMulticast || ip.isReserved || ip.isUnspecified)

/-! ### The check -/

/-- `word in text`. -/
def hasInfix (word : List Char) : List Char → Bool
  | [] => word.isEmpty
  | c :: cs => word.isPrefixOf (c :: cs) || hasInfix word cs

def contains (text word : String) : Bool := hasInfix word.toList text.toList

def alwaysBlocked : List Network :=
  [.v4 (quad 127 0 0 0) 8, .v4 (quad 169 254 0 0) 16, .v6 (firstGroup 0xfe80) 10, .v6 1 128,
    .v4 (quad 0 0 0 0) 32]

section
variable (py : Python)

def blockedMessage (host ipText : String) (resolved : Bool) : String :=
  "Target host " ++
    (if resolved then "'" ++ host ++ "' resolves to blocked IP " ++ ipText
      else host ++ " is a blocked address")

def privateMessage (host : String) : String := "Target host " ++ host ++ " is a private address"

def notAnAddress (ipText : String) : String :=
  py.repr ipText ++ " does not appear to be an IPv4 or IPv6 address"

/-- `_check_ip_literal`. -/
def checkIpLiteral (host : String) (allowPrivate : Bool) (ipText : String) (resolved : Bool) :
    Except String Unit :=
  match py.ipAddress ipText with
  | none => .error (notAnAddress py ipText)
  | some parsed =>
    let addr := parsed.unmapped
    let norm := py.str addr
    if norm ∈ cloudMetadataIpLiterals then .error (blockedMessage host ipText resolved)
    else if alwaysBlocked.any addr.within then .error (blockedMessage host ipText resolved)
    else if !allowPrivate && isPrivateIp py norm then .error (privateMessage host)
    else .ok ()

/-- The host of a URL, or the host as it was given. -/
def stripScheme (host : String) : Except String String :=
  if contains host "://" then
    (py.urlHostname host).map fun name => if name.getD "" = "" then host else name.getD ""
  else .ok host

def debracket (host : String) : String :=
  match host.toList with
  | '[' :: rest => if rest.getLast? = some ']' then String.ofList rest.dropLast else host
  | _ => host

/-- The check of one resolved address, with its handler. -/
def checkResolved (host : String) (allowPrivate : Bool) (ip : String) : Except String Unit :=
  match checkIpLiteral py host allowPrivate ip true with
  | .ok () => .ok ()
  | .error e => if contains e "blocked" then .error e else .ok ()

/-- The check of a host without scheme, with the handler for names. -/
def checkHost (host : String) (allowPrivate : Bool) : Except String Unit :=
  match checkIpLiteral py host allowPrivate (debracket host) false with
  | .ok () => .ok ()
  | .error e =>
    if contains e "blocked" || contains e "private" then .error e
    else (py.resolveHostname (debracket host)).forM (checkResolved py host allowPrivate)

def validateTargetHost (host : String) (allowPrivate : Bool) : Except String String := do
  require (host ≠ "") "Host must be a non-empty string"
  let host ← stripScheme py host
  checkHost py host allowPrivate
  .ok host

/-! ### What a host denotes -/

/-- The addresses of a name. -/
def addressesOf (target : String) : List Address :=
  (py.resolveHostname (debracket target)).filterMap fun ip => (py.ipAddress ip).map Address.unmapped

/-- The addresses that a host denotes: the literal, or each resolved address of a name.  An empty text
and a URL that cannot be read denote no host. -/
def denoted (host : String) : Option (List Address) :=
  if host = "" then none
  else
    match stripScheme py host with
    | .error _ => none
    | .ok target =>
      match py.ipAddress (debracket target) with
      | some literal => some [literal.unmapped]
      | none => some (addressesOf py target)

/-- A private address where private addresses are not allowed. -/
def forbidden (allowPrivate : Bool) (a : Address) : Bool := !allowPrivate && isPrivateIp py (py.str a)

def allowed (allowPrivate : Bool) (a : Address) : Bool :=
  !isSsrfBlockedIp py a && !forbidden py allowPrivate a

def Accepts (host : String) (allowPrivate : Bool) : Prop :=
  ∃ target, validateTargetHost py host allowPrivate = .ok target

/-- Every address that the host denotes is allowed. -/
def DenotesAllowed (host : String) (allowPrivate : Bool) : Prop :=
  ∃ addresses, denoted py host = some addresses ∧ ∀ a ∈ addresses, allowed py allowPrivate a = true

/-- An address that the check blocks in every mode. -/
def guarded (a : Address) : Bool :=
  decide (py.str a ∈ cloudMetadataIpLiterals) || alwaysBlocked.any a.within

/-- The message about a name has a word that the handler takes for a verdict. -/
def worded (target : String) : Bool :=
  contains (notAnAddress py (debracket target)) "blocked" ||
    contains (notAnAddress py (debracket target)) "private"

/-- A resolved address for which the handler raises. -/
def caught (target : String) (allowPrivate : Bool) (a : Address) : Bool :=
  guarded py a || (forbidden py allowPrivate a && contains (privateMessage target) "blocked")

/-- A literal that is not allowed is guarded or forbidden.  A name with a word denotes an address that is
not allowed, and a name without one does so only if the handler raises for one of its addresses. -/
def Unambiguous (host : String) (allowPrivate : Bool) : Prop :=
  ∀ target, host ≠ "" → stripScheme py host = .ok target →
    match py.ipAddress (debracket target) with
    | some literal =>
      isSsrfBlockedIp py literal.unmapped = true →
        guarded py literal.unmapped = true ∨ forbidden py allowPrivate literal.unmapped = true
    | none =>
      if worded py target then ∃ a ∈ addressesOf py target, allowed py allowPrivate a = false
      else (∃ a ∈ addressesOf py target, allowed py allowPrivate a = false) →
        ∃ a ∈ addressesOf py target, caught py target allowPrivate a = true

end

/-! ### Words -/

theorem hasInfix_append {word : List Char} (front back : List Char) :
    hasInfix word (front ++ (word ++ back)) = true := by
  induction front with
  | nil =>
    rw [List.nil_append]
    cases whole : word ++ back with
    | nil =>
      rw [(List.append_eq_nil_iff.mp whole).1]
      rfl
    | cons c cs =>
      have start : word.isPrefixOf (c :: cs) = true :=
        List.isPrefixOf_iff_prefix.mpr ⟨back, whole⟩
      rw [hasInfix, start]
      rfl
  | cons c front ih =>
    rw [List.cons_append, hasInfix, ih, Bool.or_true]

theorem contains_append (front word back : String) : contains (front ++ word ++ back) word = true := by
  rw [contains, String.toList_append, String.toList_append, List.append_assoc]
  exact hasInfix_append _ _

section
variable {py : Python} {host ipText target : String} {allowPrivate resolved : Bool} {a p : Address}

theorem blockedMessage_blocked : contains (blockedMessage host ipText resolved) "blocked" = true := by
  cases resolved with
  | false =>
    have text : blockedMessage host ipText false =
        "Target host " ++ host ++ " is a " ++ "blocked" ++ " address" := by
      simp [blockedMessage, String.append_assoc]
    rw [text]
    exact contains_append _ _ _
  | true =>
    have words : "' resolves to blocked IP " = "' resolves to " ++ "blocked" ++ " IP " := rfl
    have text : blockedMessage host ipText true =
        "Target host " ++ ("'" ++ host ++ "' resolves to ") ++ "blocked" ++ (" IP " ++ ipText) := by
      simp only [blockedMessage, words, if_true, String.append_assoc]
    rw [text]
    exact contains_append _ _ _

theorem privateMessage_private : contains (privateMessage host) "private" = true := by
  have text : privateMessage host = "Target host " ++ host ++ " is a " ++ "private" ++ " address" := by
    simp [privateMessage, String.append_assoc]
  rw [text]
  exact contains_append _ _ _

/-! ### Addresses -/

theorem unmapped_idem (a : Address) : a.unmapped.unmapped = a.unmapped := by
  cases a with
  | v4 ip => rfl
  | v6 ip scope =>
    by_cases mapped : ip.toNat / 2 ^ 32 = 0xffff
    · have inner : (Address.v6 ip scope).unmapped = .v4 (BitVec.ofNat 32 (ip.toNat % 2 ^ 32)) :=
        if_pos mapped
      rw [inner]
      rfl
    · have same : (Address.v6 ip scope).unmapped = .v6 ip scope := if_neg mapped
      rw [same, same]

/-- The network of a single address. -/
theorem within_single4 {ip base : BitVec 32} (h : Address.within (.v4 ip) (.v4 base 32) = true) :
    ip = base := by
  simp only [Address.within, Nat.sub_self, Nat.pow_zero, Nat.div_one, beq_iff_eq] at h
  exact BitVec.eq_of_toNat_eq h

theorem within_single6 {ip base : BitVec 128} {scope : Option String}
    (h : Address.within (.v6 ip scope) (.v6 base 128) = true) : ip = base := by
  simp only [Address.within, Nat.sub_self, Nat.pow_zero, Nat.div_one, beq_iff_eq] at h
  exact BitVec.eq_of_toNat_eq h

/-- What the check blocks in every mode is blocked by `is_ssrf_blocked_ip`. -/
theorem guarded_blocked (plain : a.unmapped = a) (h : guarded py a = true) :
    isSsrfBlockedIp py a = true := by
  unfold isSsrfBlockedIp
  dsimp only
  rw [plain]
  simp only [guarded, Bool.or_eq_true, decide_eq_true_eq] at h ⊢
  rcases h with metadata | network
  · exact .inl (List.mem_append_left _ metadata)
  · refine .inr ?_
    simp only [alwaysBlocked, List.any_cons, List.any_nil, Bool.or_false, Bool.or_eq_true] at network
    cases a with
    | v4 ip =>
      rcases network with loopback | linkLocal | other | other | zero
      · exact .inl (.inl (.inl (.inl loopback)))
      · refine .inl (.inl (.inl (.inr ?_)))
        simp [Address.isLinkLocal, linkLocal]
      · cases other
      · cases other
      · rw [within_single4 zero]
        exact .inr rfl
    | v6 ip scope =>
      rcases network with other | other | linkLocal | loopback | other
      · cases other
      · cases other
      · refine .inl (.inl (.inl (.inr ?_)))
        simp [Address.isLinkLocal, linkLocal]
      · rw [within_single6 loopback]
        exact .inl (.inl (.inl (.inl rfl)))
      · cases other

/-! ### What the check does -/

theorem check_literal (read : py.ipAddress ipText = some p) :
    checkIpLiteral py host allowPrivate ipText resolved =
      if guarded py p.unmapped then .error (blockedMessage host ipText resolved)
      else if forbidden py allowPrivate p.unmapped then .error (privateMessage host) else .ok () := by
  unfold checkIpLiteral guarded forbidden
  rw [read]
  by_cases metadata : py.str p.unmapped ∈ cloudMetadataIpLiterals
  · simp [metadata]
  · simp [metadata]

theorem checkHost_literal (read : py.ipAddress (debracket target) = some p) :
    checkHost py target allowPrivate = .ok () ↔
      guarded py p.unmapped = false ∧ forbidden py allowPrivate p.unmapped = false := by
  unfold checkHost
  rw [check_literal read]
  cases guarded py p.unmapped with
  | true => simp [blockedMessage_blocked]
  | false =>
    cases forbidden py allowPrivate p.unmapped with
    | true => simp [privateMessage_private]
    | false => simp

theorem checkResolved_ok (read : py.ipAddress ipText = some p) :
    checkResolved py target allowPrivate ipText = .ok () ↔
      caught py target allowPrivate p.unmapped = false := by
  unfold checkResolved caught
  rw [check_literal read]
  cases guarded py p.unmapped with
  | true => simp [blockedMessage_blocked]
  | false =>
    cases forbidden py allowPrivate p.unmapped with
    | true => simp
    | false => simp

theorem checkHost_name (name : py.ipAddress (debracket target) = none)
    (answers : ∀ ip ∈ py.resolveHostname (debracket target), (py.ipAddress ip).isSome) :
    checkHost py target allowPrivate = .ok () ↔
      worded py target = false ∧
        ∀ a ∈ addressesOf py target, caught py target allowPrivate a = false := by
  have message : checkIpLiteral py target allowPrivate (debracket target) false =
      .error (notAnAddress py (debracket target)) := by
    unfold checkIpLiteral
    rw [name]
  have each : (∀ ip ∈ py.resolveHostname (debracket target),
      checkResolved py target allowPrivate ip = .ok ()) ↔
        ∀ a ∈ addressesOf py target, caught py target allowPrivate a = false := by
    constructor
    · intro all a mem
      obtain ⟨ip, here, same⟩ := List.mem_filterMap.mp mem
      obtain ⟨p, read, rfl⟩ := Option.map_eq_some_iff.mp same
      exact (checkResolved_ok read).mp (all ip here)
    · intro all ip here
      obtain ⟨p, read⟩ := Option.isSome_iff_exists.mp (answers ip here)
      refine (checkResolved_ok read).mpr (all _ (List.mem_filterMap.mpr ⟨ip, here, ?_⟩))
      rw [read]
      rfl
  unfold checkHost
  rw [message]
  dsimp only
  rw [← each, ← forM_ok_iff]
  show (if worded py target = true then _ else _) = _ ↔ _
  cases worded py target with
  | true => simp
  | false => simp

theorem accepts_iff : Accepts py host allowPrivate ↔
    host ≠ "" ∧ ∃ target, stripScheme py host = .ok target ∧
      checkHost py target allowPrivate = .ok () := by
  constructor
  · rintro ⟨target, h⟩
    obtain ⟨given, h⟩ := require_bind h
    obtain ⟨stripped, scheme, h⟩ := bind_ok h
    obtain ⟨_, passed, -⟩ := bind_ok h
    exact ⟨by simpa using given, stripped, scheme, passed⟩
  · rintro ⟨given, target, scheme, passed⟩
    refine ⟨target, ?_⟩
    have nonempty : require (host ≠ "") "Host must be a non-empty string" =
        (.ok () : Except String Unit) := by
      simp [require, given]
    unfold validateTargetHost
    rw [ok_bind nonempty, ok_bind scheme, ok_bind passed]

theorem addressesOf_unmapped (mem : a ∈ addressesOf py target) : a.unmapped = a := by
  obtain ⟨ip, -, same⟩ := List.mem_filterMap.mp mem
  obtain ⟨p, -, rfl⟩ := Option.map_eq_some_iff.mp same
  exact unmapped_idem p

theorem guarded_not_allowed (plain : a.unmapped = a) (h : guarded py a = true) :
    allowed py allowPrivate a = false := by
  rw [allowed, guarded_blocked plain h]
  rfl

theorem caught_not_allowed (plain : a.unmapped = a) (h : caught py target allowPrivate a = true) :
    allowed py allowPrivate a = false := by
  rcases Bool.or_eq_true_iff.mp h with blocked | named
  · exact guarded_not_allowed plain blocked
  · rw [allowed, (Bool.and_eq_true_iff.mp named).1, Bool.not_true, Bool.and_false]

/-- A literal is judged by its address exactly when it is not blocked without being guarded or
forbidden. -/
theorem literal_agrees (plain : a.unmapped = a) :
    (guarded py a = false ∧ forbidden py allowPrivate a = false ↔ allowed py allowPrivate a = true) ↔
      (isSsrfBlockedIp py a = true → guarded py a = true ∨ forbidden py allowPrivate a = true) := by
  unfold allowed
  cases blocked : guarded py a with
  | true =>
    rw [guarded_blocked plain blocked]
    simp
  | false =>
    cases isSsrfBlockedIp py a <;> cases forbidden py allowPrivate a <;> simp

/-- A name is judged by its addresses exactly when it has no word or an address that is not allowed, and
no such address goes uncaught. -/
theorem name_agrees {as : List Address} {word : Bool}
    (sound : ∀ a ∈ as, caught py target allowPrivate a = true → allowed py allowPrivate a = false) :
    (word = false ∧ (∀ a ∈ as, caught py target allowPrivate a = false) ↔
      ∀ a ∈ as, allowed py allowPrivate a = true) ↔
    if word then ∃ a ∈ as, allowed py allowPrivate a = false
    else (∃ a ∈ as, allowed py allowPrivate a = false) →
      ∃ a ∈ as, caught py target allowPrivate a = true := by
  have refused : (∃ a ∈ as, allowed py allowPrivate a = false) ↔
      ¬ ∀ a ∈ as, allowed py allowPrivate a = true := by simp
  have raised : (∃ a ∈ as, caught py target allowPrivate a = true) ↔
      ¬ ∀ a ∈ as, caught py target allowPrivate a = false := by simp
  have passes : (∀ a ∈ as, allowed py allowPrivate a = true) →
      ∀ a ∈ as, caught py target allowPrivate a = false := by
    intro all a mem
    by_contra raises
    have bad := sound a mem (by simpa using raises)
    rw [all a mem] at bad
    cases bad
  rw [refused, raised]
  cases word with
  | true => simp
  | false =>
    simp only [true_and, Bool.false_eq_true, if_false]
    tauto

/-- A host is accepted exactly when the addresses that it denotes are allowed, if and only if its
spelling is unambiguous. -/
theorem target_host_validated (py : Python)
    (answers : ∀ name, ∀ ip ∈ py.resolveHostname name, (py.ipAddress ip).isSome)
    (host : String) (allowPrivate : Bool) :
    (Accepts py host allowPrivate ↔ DenotesAllowed py host allowPrivate) ↔
      Unambiguous py host allowPrivate := by
  unfold DenotesAllowed denoted Unambiguous
  rw [accepts_iff]
  by_cases given : host = ""
  · simp [given]
  rw [if_neg given]
  cases scheme : stripScheme py host with
  | error e => simp
  | ok target =>
    cases read : py.ipAddress (debracket target) with
    | some p =>
      simp only [ne_eq, given, not_false_eq_true, Except.ok.injEq, exists_eq_left', true_and, true_implies,
        forall_eq', read, Option.some.injEq, List.mem_singleton, forall_eq, checkHost_literal read]
      exact literal_agrees (unmapped_idem p)
    | none =>
      simp only [ne_eq, given, not_false_eq_true, Except.ok.injEq, exists_eq_left', true_and, true_implies,
        forall_eq', read, Option.some.injEq, checkHost_name read (answers (debracket target))]
      exact name_agrees fun a mem => caught_not_allowed (addressesOf_unmapped mem)

end

/-- Reading and printing of a few addresses, and a resolver that knows three names. -/
def smallPython : Python where
  ipAddress
    | "224.0.0.1" => some (.v4 (quad 224 0 0 1))
    | "10.0.0.5" => some (.v4 (quad 10 0 0 5))
    | "8.8.8.8" => some (.v4 (quad 8 8 8 8))
    | _ => none
  str a :=
    if a = .v4 (quad 224 0 0 1) then "224.0.0.1"
    else if a = .v4 (quad 10 0 0 5) then "10.0.0.5"
    else "8.8.8.8"
  repr s := "'" ++ s ++ "'"
  urlHostname _ := .ok none
  getaddrinfo
    | "private.example.com" => some ["8.8.8.8"]
    | "nas.example.com" => some ["10.0.0.5"]
    | "dns.example.com" => some ["8.8.8.8"]
    | _ => none

theorem smallPython_answers :
    ∀ name, ∀ ip ∈ smallPython.resolveHostname name, (smallPython.ipAddress ip).isSome := by
  intro name ip mem
  simp only [smallPython, Python.resolveHostname] at mem
  split at mem
  · next found =>
    split at found
    · obtain rfl := Option.some.inj found
      rw [List.mem_singleton.mp (List.mem_dedup.mp mem)]
      rfl
    · obtain rfl := Option.some.inj found
      rw [List.mem_singleton.mp (List.mem_dedup.mp mem)]
      rfl
    · obtain rfl := Option.some.inj found
      rw [List.mem_singleton.mp (List.mem_dedup.mp mem)]
      rfl
    · cases found
  · cases mem

instance (py : Python) (host : String) (allowPrivate : Bool) :
    Decidable (Accepts py host allowPrivate) :=
  match h : validateTargetHost py host allowPrivate with
  | .ok target => .isTrue ⟨target, h⟩
  | .error _ => .isFalse fun ⟨_, h'⟩ => by rw [h] at h'; cases h'

instance (py : Python) (host : String) (allowPrivate : Bool) :
    Decidable (DenotesAllowed py host allowPrivate) :=
  match h : denoted py host with
  | some addresses =>
    decidable_of_iff (∀ a ∈ addresses, allowed py allowPrivate a = true)
      ⟨fun all => ⟨addresses, h, all⟩, fun ⟨_, h', all⟩ => Option.some.inj (h.symm.trans h') ▸ all⟩
  | none => .isFalse fun ⟨_, h', _⟩ => by rw [h] at h'; cases h'

/-- A name without words that resolves to a public address. -/
theorem publicName_validated :
    Accepts smallPython "dns.example.com" false ∧ DenotesAllowed smallPython "dns.example.com" false := by
  have unambiguous : Unambiguous smallPython "dns.example.com" false := by
    intro target _ scheme
    obtain rfl : "dns.example.com" = target := Except.ok.inj scheme
    show if worded smallPython "dns.example.com" then _ else _
    rw [if_neg (by decide +kernel)]
    rintro ⟨a, mem, refused⟩
    have listed : addressesOf smallPython "dns.example.com" = [.v4 (quad 8 8 8 8)] := by decide +kernel
    rw [listed, List.mem_singleton] at mem
    rw [mem] at refused
    exact absurd refused (by decide +kernel)
  have accepted : Accepts smallPython "dns.example.com" false := by decide +kernel
  exact ⟨accepted, ((target_host_validated smallPython smallPython_answers "dns.example.com" false).mpr
    unambiguous).mp accepted⟩

/-- A name with a public address is rejected for its words, a name with a private address is accepted
where private addresses are not allowed, and a multicast address is accepted. -/
theorem spelling_decides :
    ¬ Accepts smallPython "private.example.com" true ∧
      DenotesAllowed smallPython "private.example.com" true ∧
    Accepts smallPython "nas.example.com" false ∧
      ¬ DenotesAllowed smallPython "nas.example.com" false ∧
    Accepts smallPython "224.0.0.1" true ∧ ¬ DenotesAllowed smallPython "224.0.0.1" true := by
  refine ⟨?_, ?_, ?_, ?_, ?_, ?_⟩ <;> decide +kernel

end FreeSdn.Security
