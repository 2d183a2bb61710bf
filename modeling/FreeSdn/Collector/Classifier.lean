import FreeSdn.Lib.Dictionary
import FreeSdn.Lib.OrderBy
import Mathlib.Algebra.Order.Group.Int
import Mathlib.Data.Int.ConditionallyCompleteOrder
import Mathlib.Order.ConditionallyCompleteLattice.Basic

/-! The classification of traffic by protocol and port (`collector/services/classifier.py`): rules are
written over each other into one map for everyone and one for each organization. -/

namespace FreeSdn.Collector.Classifier

open FreeSdn.Lib FreeSdn.Lib.Dictionary

abbrev Uuid := String

/-- `AppCategory`. -/
inductive AppCategory
  | web | streaming | conferencing | email | fileTransfer | vpnTunnel | dns | database | gaming
  | social | infrastructure | security | iot | voip | other

def AppCategory.value : AppCategory → String
  | .web => "web"
  | .streaming => "streaming"
  | .conferencing => "conferencing"
  | .email => "email"
  | .fileTransfer => "file_transfer"
  | .vpnTunnel => "vpn_tunnel"
  | .dns => "dns"
  | .database => "database"
  | .gaming => "gaming"
  | .social => "social"
  | .infrastructure => "infrastructure"
  | .security => "security"
  | .iot => "iot"
  | .voip => "voip"
  | .other => "other"

/-- `BUILTIN_RULES`. -/
def builtinRules : List (Int × Int × String × AppCategory) :=
  [(6, 80, "HTTP", .web), (6, 443, "HTTPS", .web), (6, 8080, "HTTP Proxy", .web),
   (6, 8443, "HTTPS Alt", .web), (17, 53, "DNS", .dns), (6, 53, "DNS/TCP", .dns),
   (6, 853, "DNS-over-TLS", .dns), (17, 853, "DNS-over-TLS", .dns), (6, 25, "SMTP", .email),
   (6, 465, "SMTPS", .email), (6, 587, "SMTP Submission", .email), (6, 110, "POP3", .email),
   (6, 995, "POP3S", .email), (6, 143, "IMAP", .email), (6, 993, "IMAPS", .email),
   (17, 3478, "STUN/TURN", .conferencing), (17, 3479, "STUN/TURN", .conferencing),
   (17, 3480, "STUN/TURN", .conferencing), (17, 19302, "Google STUN", .conferencing),
   (17, 8801, "Zoom Media", .conferencing), (17, 8802, "Zoom Media", .conferencing),
   (6, 8801, "Zoom Signaling", .conferencing), (6, 5060, "SIP", .voip), (17, 5060, "SIP", .voip),
   (6, 5061, "SIP/TLS", .voip), (17, 5004, "RTP", .voip), (6, 1935, "RTMP", .streaming),
   (6, 554, "RTSP", .streaming), (17, 554, "RTSP", .streaming), (6, 21, "FTP", .fileTransfer),
   (6, 22, "SSH/SFTP", .fileTransfer), (6, 445, "SMB", .fileTransfer),
   (6, 139, "NetBIOS/SMB", .fileTransfer), (6, 2049, "NFS", .fileTransfer),
   (6, 3306, "MySQL", .database), (6, 5432, "PostgreSQL", .database),
   (6, 27017, "MongoDB", .database), (6, 6379, "Redis", .database), (6, 1433, "MSSQL", .database),
   (6, 1521, "Oracle", .database), (17, 1194, "OpenVPN", .vpnTunnel),
   (17, 4500, "IPsec NAT-T", .vpnTunnel), (17, 500, "IKE", .vpnTunnel),
   (17, 51820, "WireGuard", .vpnTunnel), (17, 123, "NTP", .infrastructure),
   (17, 161, "SNMP", .infrastructure), (17, 162, "SNMP Trap", .infrastructure),
   (6, 179, "BGP", .infrastructure), (17, 514, "Syslog", .infrastructure),
   (17, 67, "DHCP Server", .infrastructure), (17, 68, "DHCP Client", .infrastructure),
   (17, 69, "TFTP", .infrastructure), (6, 1812, "RADIUS Auth", .security),
   (17, 1812, "RADIUS Auth", .security), (6, 1813, "RADIUS Acct", .security),
   (17, 1813, "RADIUS Acct", .security), (6, 389, "LDAP", .security), (6, 636, "LDAPS", .security),
   (6, 88, "Kerberos", .security), (17, 27015, "Steam/Valve", .gaming),
   (17, 3074, "Xbox Live", .gaming), (17, 3478, "PlayStation", .gaming), (6, 1883, "MQTT", .iot),
   (6, 8883, "MQTT/TLS", .iot), (17, 5683, "CoAP", .iot)]

/-- A row of `app_classification_rules`. -/
structure Rule where
  organizationId : Option Uuid
  name : String
  appCategory : String
  protocol : Option Int
  port : Option Int
  portRangeStart : Option Int
  portRangeEnd : Option Int
  isSystem : Bool
  priority : Int
  enabled : Bool
  deriving DecidableEq

/-- A name and a category. -/
abbrev Label := String × String

structure Key where
  protocol : Int
  port : Int
  deriving DecidableEq

/-- Labels by protocol and port. -/
abbrev PortMap := List (Key × Label)

def Rule.label (r : Rule) : Label := (r.name, r.appCategory)

/-! ### The classifier -/

structure ApplicationClassifier where
  portMap : PortMap
  orgPortMaps : List (Uuid × PortMap)
  loaded : Bool

def ApplicationClassifier.new : ApplicationClassifier := ⟨[], [], false⟩

/-- `range(start, stop)`. -/
def range (start stop : Int) : List Int :=
  (List.range (stop - start).toNat).map fun i : Nat => start + i

/-- `rule.protocol or 6`. -/
def Rule.rangeProtocol (r : Rule) : Int :=
  match r.protocol with
  | some protocol => if protocol = 0 then 6 else protocol
  | none => 6

/-- What a rule writes into its map, in order. -/
def Rule.entries (r : Rule) : PortMap :=
  (match r.port, r.protocol with
    | some port, some protocol => [(⟨protocol, port⟩, r.label)]
    | _, _ => []) ++
  match r.portRangeStart, r.portRangeEnd with
  | some first, some last =>
    if last - first + 1 > 1000 then []
    else (range first (last + 1)).map fun p => (⟨r.rangeProtocol, p⟩, r.label)
  | _, _ => []

/-- The rule is one for everyone. -/
def Rule.system (r : Rule) : Bool := r.isSystem || r.organizationId.isNone

/-- One turn of the loop of `load_rules`. -/
def ApplicationClassifier.add (c : ApplicationClassifier) (organizationId : Option Uuid) (r : Rule) :
    ApplicationClassifier :=
  match r.organizationId, organizationId with
  | some owner, none =>
    if r.isSystem then { c with portMap := update c.portMap r.entries }
    else
      let target := (c.orgPortMaps.lookup owner).getD []
      { c with orgPortMaps := setItem c.orgPortMaps owner (update target r.entries) }
  | _, _ => { c with portMap := update c.portMap r.entries }

/-- The rows of the query of `load_rules`. -/
def query (table : List Rule) (organizationId : Option Uuid) : List Rule :=
  let chosen := table.filter fun r =>
    r.enabled && organizationId.all fun org => r.isSystem || r.organizationId = some org
  orderBy (fun r => -r.priority) chosen

/-- What the built-in rules write. -/
def builtinEntries : PortMap :=
  builtinRules.map fun (protocol, port, name, category) => (⟨protocol, port⟩, (name, category.value))

/-- `load_rules`; nothing is the table of a query that raises. -/
def ApplicationClassifier.loadRules (c : ApplicationClassifier) (table : Option (List Rule))
    (organizationId : Option Uuid) : ApplicationClassifier :=
  let c := { c with portMap := update c.portMap builtinEntries }
  let rows := (table.map fun rows => query rows organizationId).getD []
  { rows.foldl (·.add organizationId) c with loaded := true }

/-- `dict.get(key, (None, None))`. -/
def answer (label : Option Label) : Option String × Option String :=
  (label.map Prod.fst, label.map Prod.snd)

/-- The label in the map of an organization. -/
def ApplicationClassifier.own (c : ApplicationClassifier) (org : Uuid) (key : Key) : Option Label :=
  (c.orgPortMaps.lookup org).bind fun orgMap => orgMap.lookup key

/-- `classify`. -/
def ApplicationClassifier.classify (c : ApplicationClassifier) (protocol : Int)
    (destPort : Option Int) (organizationId : Option Uuid) : Option String × Option String :=
  match destPort with
  | none => (none, none)
  | some port =>
    let own := organizationId.bind fun org => c.own org ⟨protocol, port⟩
    answer (own.or (c.portMap.lookup ⟨protocol, port⟩))

/-! ### Precedence -/

/-- The port is in the range of the rule. -/
def Rule.inRange (r : Rule) (port : Int) : Bool :=
  match r.portRangeStart, r.portRangeEnd with
  | some first, some last => first ≤ port && port ≤ last
  | _, _ => false

/-- The range has at most 1000 ports. -/
def Rule.narrow (r : Rule) : Bool :=
  match r.portRangeStart, r.portRangeEnd with
  | some first, some last => last - first + 1 ≤ 1000
  | _, _ => true

/-- The rule is about the protocol and the port. -/
def Rule.covers (r : Rule) (protocol port : Int) : Bool :=
  r.protocol = some protocol && (r.port = some port || r.inRange port)

/-- The rule is written for the protocol and the port: a range with protocol 0 is written for TCP. -/
def Rule.writes (r : Rule) (protocol port : Int) : Bool :=
  r.protocol = some protocol && r.port = some port || r.rangeProtocol = protocol && r.inRange port

/-- The rule is one of the organization alone. -/
def Rule.ownedBy (r : Rule) (org : Option Uuid) : Bool := !r.system && r.organizationId = org

/-- The table of rules, of which the enabled ones have different priorities, a protocol and no wide
range. -/
structure RuleSet where
  rows : List Rule
  distinct : Distinct Rule.priority (rows.filter Rule.enabled)
  protocols : ∀ r ∈ rows.filter Rule.enabled, r.protocol.isSome
  narrow : ∀ r ∈ rows.filter Rule.enabled, r.narrow

def RuleSet.enabled (rules : RuleSet) : List Rule := rules.rows.filter Rule.enabled

/-- The rules that decide: those of the organization that apply, or else the system rules that do. -/
def deciding (rules : List Rule) (applies : Rule → Bool) (org : Option Uuid) : List Rule :=
  let own := rules.filter fun r => r.ownedBy org && applies r
  if own = [] then rules.filter fun r => r.system && applies r else own

/-- The map of the built-in entries. -/
def builtin : PortMap := update [] builtinEntries

/-- The label of the rule of the highest priority, or else the built-in one. -/
def expected (rules : RuleSet) (protocol : Int) (destPort : Option Int) (org : Option Uuid) :
    Option String × Option String :=
  match destPort with
  | none => (none, none)
  | some port =>
    let top := @List.argmax Rule Int Int.instLinearOrder.toPreorder _ Rule.priority
      (deciding rules.enabled (·.covers protocol port) org)
    answer ((top.map Rule.label).or (builtin.lookup ⟨protocol, port⟩))

/-- The rules that count for an organization are the same. -/
def Agree (rules others : RuleSet) (org : Option Uuid) : Prop :=
  ∀ r : Rule, r.system = true ∨ r.ownedBy org = true → (r ∈ rules.enabled ↔ r ∈ others.enabled)

/-- The rule of the lowest priority that is written for the port has the label of the rule of the highest
priority that covers it. -/
def Unopposed (rules : RuleSet) (protocol port : Int) (org : Option Uuid) : Prop :=
  match (deciding rules.enabled (·.writes protocol port) org).argmin Rule.priority,
    (deciding rules.enabled (·.covers protocol port) org).argmax Rule.priority with
  | some last, some top => last.label = top.label
  | some last, none => builtin.lookup ⟨protocol, port⟩ = some last.label
  | none, some top => builtin.lookup ⟨protocol, port⟩ = some top.label
  | none, none => True

/-! ### What a rule writes -/

variable {r : Rule} {c : ApplicationClassifier} {t : PortMap} {protocol port : Int} {org : Uuid}

theorem mem_range {start stop p : Int} : p ∈ range start stop ↔ start ≤ p ∧ p < stop := by
  simp only [range, List.mem_map, List.mem_range]
  constructor
  · rintro ⟨i, below, rfl⟩
    omega
  · rintro ⟨low, high⟩
    exact ⟨(p - start).toNat, by omega, by omega⟩

/-- Every entry of a rule is its label. -/
theorem entries_label {m : Key × Label} (mem : m ∈ r.entries) : m.2 = r.label := by
  unfold Rule.entries at mem
  rcases List.mem_append.mp mem with single | ranged
  · split at single
    · rw [List.mem_singleton.mp single]
    · exact absurd single List.not_mem_nil
  · split at ranged
    · split at ranged
      · exact absurd ranged List.not_mem_nil
      · obtain ⟨p, -, rfl⟩ := List.mem_map.mp ranged
        rfl
    · exact absurd ranged List.not_mem_nil

theorem mem_entries (narrow : r.narrow = true) :
    (∃ m ∈ r.entries, m.1 = ⟨protocol, port⟩) ↔ r.writes protocol port = true := by
  simp only [Rule.entries, List.mem_append, or_and_right, exists_or, Rule.writes, Bool.or_eq_true,
    Bool.and_eq_true, decide_eq_true_eq]
  refine or_congr ?_ ?_
  · split
    · rename_i p q port protocol
      simp [port, protocol, and_comm]
    · rename_i unset
      simpa using fun protocol port => unset _ _ port protocol
  · unfold Rule.narrow at narrow
    unfold Rule.inRange
    split
    · rename_i first last low high
      simp only [low, high, decide_eq_true_eq] at narrow
      rw [if_neg (by omega)]
      simp only [List.mem_map, mem_range, Bool.and_eq_true, decide_eq_true_eq]
      constructor
      · rintro ⟨m, ⟨p, ⟨above, below⟩, rfl⟩, eq⟩
        obtain ⟨rfl, rfl⟩ := Key.mk.inj eq
        exact ⟨rfl, above, by omega⟩
      · rintro ⟨rfl, above, below⟩
        exact ⟨_, ⟨port, ⟨above, by omega⟩, rfl⟩, rfl⟩
    · simp

/-- What a rule leaves in its map. -/
theorem lookup_entries (narrow : r.narrow = true) :
    (update t r.entries).lookup ⟨protocol, port⟩ =
      if r.writes protocol port then some r.label else t.lookup ⟨protocol, port⟩ := by
  split
  · rename_i written
    exact lookup_update_const ((mem_entries narrow).mpr written) fun m mem _ => entries_label mem
  · rename_i other
    apply lookup_update_other
    intro m mem same
    exact other ((mem_entries narrow).mp ⟨m, mem, same⟩)

theorem add_system (system : r.system = true) :
    c.add none r = { c with portMap := update c.portMap r.entries } := by
  unfold ApplicationClassifier.add
  split
  · rename_i owner _
    rw [if_pos (by simpa [Rule.system, owner] using system)]
  · rfl

theorem add_owned (owned : r.ownedBy (some org) = true) :
    c.add none r = { c with
      orgPortMaps := setItem c.orgPortMaps org
        (update ((c.orgPortMaps.lookup org).getD []) r.entries) } := by
  simp only [Rule.ownedBy, Rule.system, Bool.and_eq_true, Bool.not_eq_true', Bool.or_eq_false_iff,
    decide_eq_true_eq] at owned
  simp only [ApplicationClassifier.add, owned.2, owned.1.1, Bool.false_eq_true, if_false]

/-- A rule is for everyone or for one organization. -/
theorem system_or_owned (r : Rule) : r.system = true ∨ ∃ org, r.ownedBy (some org) = true := by
  cases owner : r.organizationId with
  | none => exact .inl (by simp [Rule.system, owner])
  | some org =>
    cases system : r.system with
    | true => exact .inl rfl
    | false => exact .inr ⟨org, by simp [Rule.ownedBy, system, owner]⟩

/-- What one turn of the loop does to the map for everyone. -/
theorem add_shared (narrow : r.narrow = true) :
    (c.add none r).portMap.lookup ⟨protocol, port⟩ =
      if r.system && r.writes protocol port then some r.label
      else c.portMap.lookup ⟨protocol, port⟩ := by
  rcases system_or_owned r with system | ⟨owner, owned⟩
  · rw [add_system system, lookup_entries narrow, system, Bool.true_and]
  · rw [add_owned owned]
    simp only [Rule.ownedBy, Bool.and_eq_true, Bool.not_eq_true'] at owned
    rw [owned.1, Bool.false_and, if_neg Bool.false_ne_true]

/-- What it does to the map of one organization. -/
theorem add_own (narrow : r.narrow = true) :
    (c.add none r).own org ⟨protocol, port⟩ =
      if r.ownedBy (some org) && r.writes protocol port then some r.label
      else c.own org ⟨protocol, port⟩ := by
  rcases system_or_owned r with system | ⟨owner, owned⟩
  · rw [add_system system]
    simp only [Rule.ownedBy, system, Bool.not_true, Bool.false_and, Bool.false_eq_true, if_false]
    rfl
  · rw [add_owned owned]
    unfold ApplicationClassifier.own
    by_cases same : org = owner
    · subst same
      rw [lookup_setItem_self, Option.bind_some, lookup_entries narrow, owned, Bool.true_and]
      cases c.orgPortMaps.lookup org <;> rfl
    · have foreign : r.ownedBy (some org) = false := by
        simp only [Rule.ownedBy, Bool.and_eq_true, decide_eq_true_eq] at owned
        simp [Rule.ownedBy, owned.2, Ne.symm same]
      rw [lookup_setItem_ne same, foreign, Bool.false_and, if_neg Bool.false_ne_true]

/-! ### What a load leaves -/

/-- A loop leaves the label of the last rule that it writes. -/
theorem foldl_label {σ : Type} {f : σ → Rule → σ} (look : σ → Option Label) {hit : Rule → Bool}
    {rows : List Rule} {s : σ}
    (step : ∀ s, ∀ r ∈ rows, look (f s r) = if hit r then some r.label else look s) :
    look (rows.foldl f s) = ((rows.filter hit).getLast?.map Rule.label).or (look s) := by
  induction rows generalizing s with
  | nil => rfl
  | cons r rows ih =>
    rw [List.foldl_cons, ih fun s a mem => step s a (List.mem_cons_of_mem r mem),
      step s r List.mem_cons_self]
    by_cases here : hit r = true
    · rw [List.filter_cons_of_pos here, List.getLast?_cons, if_pos here]
      cases (rows.filter hit).getLast? <;> rfl
    · rw [List.filter_cons_of_neg here, if_neg here]

variable {rules others : RuleSet}

theorem distinct_filter (rules : RuleSet) (hit : Rule → Bool) :
    Distinct Rule.priority (rules.enabled.filter hit) :=
  fun a ha b hb => rules.distinct a (List.mem_of_mem_filter ha) b (List.mem_of_mem_filter hb)

theorem query_none (rules : RuleSet) :
    query rules.rows none = orderBy (fun r => -r.priority) rules.enabled := by
  simp only [query, Option.all_none, Bool.and_true, RuleSet.enabled]

/-- The rule that is written last has the lowest priority. -/
theorem written_last (rules : RuleSet) (hit : Rule → Bool) :
    ((query rules.rows none).filter hit).getLast? =
      (rules.enabled.filter hit).argmin Rule.priority := by
  have distinct : Distinct (fun r : Rule => -r.priority) rules.enabled :=
    fun a ha b hb same => rules.distinct a ha b hb (neg_inj.mp same)
  rw [query_none, ← orderBy_filter_comm distinct]
  cases found : (orderBy (fun r => -r.priority) (rules.enabled.filter hit)).getLast? with
  | none =>
    rw [List.getLast?_eq_none_iff] at found
    have none_left : (rules.enabled.filter hit).length = 0 := by
      rw [← (orderBy_perm (fun r => -r.priority) _).length_eq, found, List.length_nil]
    rw [List.eq_nil_of_length_eq_zero none_left, List.argmin_nil]
  | some r =>
    obtain ⟨mem, least⟩ := orderBy_last found
    symm
    exact (argmin_eq_some (distinct_filter rules hit)).mpr
      ⟨mem, fun a ha => Int.neg_le_neg_iff.mp (least a ha)⟩

/-- The classifier after `load_rules` without an organization. -/
def RuleSet.load (rules : RuleSet) : ApplicationClassifier :=
  ApplicationClassifier.new.loadRules (some rules.rows) none

theorem mem_query {r : Rule} : r ∈ query rules.rows none ↔ r ∈ rules.enabled := by
  rw [query_none, mem_orderBy]

/-- What the rules leave in the map for everyone. -/
theorem foldl_shared (rules : RuleSet) (c : ApplicationClassifier) (protocol port : Int) :
    ((query rules.rows none).foldl (·.add none) c).portMap.lookup ⟨protocol, port⟩ =
      (((rules.enabled.filter fun r => r.system && r.writes protocol port).argmin
        Rule.priority).map Rule.label).or (c.portMap.lookup ⟨protocol, port⟩) := by
  rw [← written_last]
  exact foldl_label (fun c : ApplicationClassifier => c.portMap.lookup ⟨protocol, port⟩)
    fun c r mem => add_shared (rules.narrow r (mem_query.mp mem))

/-- What they leave in the map of one organization. -/
theorem foldl_own (rules : RuleSet) (c : ApplicationClassifier) (org : Uuid) (protocol port : Int) :
    ((query rules.rows none).foldl (·.add none) c).own org ⟨protocol, port⟩ =
      (((rules.enabled.filter fun r => r.ownedBy (some org) && r.writes protocol port).argmin
        Rule.priority).map Rule.label).or (c.own org ⟨protocol, port⟩) := by
  rw [← written_last]
  exact foldl_label (fun c : ApplicationClassifier => c.own org ⟨protocol, port⟩)
    fun c r mem => add_own (rules.narrow r (mem_query.mp mem))

/-- The classifier with the built-in entries alone. -/
def bare : ApplicationClassifier := ⟨builtin, [], false⟩

theorem load_eq (rules : RuleSet) :
    rules.load = { (query rules.rows none).foldl (·.add none) bare with loaded := true } := by
  simp only [RuleSet.load, ApplicationClassifier.loadRules, ApplicationClassifier.new,
    Option.map_some, Option.getD_some, bare, builtin]

theorem load_shared (rules : RuleSet) (protocol port : Int) :
    rules.load.portMap.lookup ⟨protocol, port⟩ =
      (((rules.enabled.filter fun r => r.system && r.writes protocol port).argmin
        Rule.priority).map Rule.label).or (builtin.lookup ⟨protocol, port⟩) := by
  simp only [load_eq, foldl_shared, bare]

theorem load_own (rules : RuleSet) (org : Uuid) (protocol port : Int) :
    rules.load.own org ⟨protocol, port⟩ =
      ((rules.enabled.filter fun r => r.ownedBy (some org) && r.writes protocol port).argmin
        Rule.priority).map Rule.label := by
  have shared := foldl_own rules bare org protocol port
  have nothing : bare.own org ⟨protocol, port⟩ = none := rfl
  rw [nothing, Option.or_none] at shared
  rw [load_eq]
  exact shared

theorem ownedBy_none (r : Rule) : r.ownedBy none = false := by
  cases owner : r.organizationId with
  | none => simp [Rule.ownedBy, Rule.system, owner]
  | some org => simp [Rule.ownedBy, owner]

/-- `classify` takes the rule of the lowest priority. -/
theorem classify_load (rules : RuleSet) (protocol port : Int) (org : Option Uuid) :
    rules.load.classify protocol (some port) org =
      answer ((((deciding rules.enabled (·.writes protocol port) org).argmin
        Rule.priority).map Rule.label).or (builtin.lookup ⟨protocol, port⟩)) := by
  unfold ApplicationClassifier.classify deciding
  dsimp only
  rw [load_shared]
  congr 1
  cases org with
  | none => simp only [Option.bind_none, Option.none_or, ownedBy_none, Bool.false_and,
      List.filter_false, if_true]
  | some org =>
    simp only [Option.bind_some, load_own]
    split
    · rename_i nothing
      rw [nothing, List.argmin_nil, Option.map_none, Option.none_or]
    · rename_i something
      cases found : (rules.enabled.filter fun r =>
          r.ownedBy (some org) && r.writes protocol port).argmin Rule.priority with
      | none => exact absurd (List.argmin_eq_none.mp found) something
      | some r => rw [Option.map_some, Option.some_or, Option.some_or]

theorem deciding_distinct (rules : RuleSet) (applies : Rule → Bool) (org : Option Uuid) :
    Distinct Rule.priority (deciding rules.enabled applies org) := by
  unfold deciding
  dsimp only
  split
  · exact distinct_filter rules _
  · exact distinct_filter rules _

theorem mem_deciding_congr {applies : Rule → Bool} {org : Option Uuid} (agree : Agree rules others org)
    (r : Rule) : r ∈ deciding rules.enabled applies org ↔ r ∈ deciding others.enabled applies org := by
  have own (r : Rule) : r ∈ rules.enabled.filter (fun r => r.ownedBy org && applies r) ↔
      r ∈ others.enabled.filter (fun r => r.ownedBy org && applies r) := by
    simp only [List.mem_filter, Bool.and_eq_true]
    exact and_congr_left fun h => agree r (.inr h.1)
  have system (r : Rule) : r ∈ rules.enabled.filter (fun r => r.system && applies r) ↔
      r ∈ others.enabled.filter (fun r => r.system && applies r) := by
    simp only [List.mem_filter, Bool.and_eq_true]
    exact and_congr_left fun h => agree r (.inl h.1)
  have empty : rules.enabled.filter (fun r => r.ownedBy org && applies r) = [] ↔
      others.enabled.filter (fun r => r.ownedBy org && applies r) = [] := by
    rw [List.eq_nil_iff_forall_not_mem, List.eq_nil_iff_forall_not_mem]
    exact forall_congr' fun r => not_congr (own r)
  unfold deciding
  dsimp only
  by_cases nothing : rules.enabled.filter (fun r => r.ownedBy org && applies r) = []
  · rw [if_pos nothing, if_pos (empty.mp nothing)]
    exact system r
  · rw [if_neg nothing, if_neg (mt empty.mpr nothing)]
    exact own r

/-- The rules of other organizations do not count. -/
theorem classify_agree {org : Option Uuid} (agree : Agree rules others org) (protocol : Int)
    (destPort : Option Int) :
    others.load.classify protocol destPort org = rules.load.classify protocol destPort org := by
  cases destPort with
  | none => rfl
  | some port =>
    rw [classify_load, classify_load,
      argmin_congr (deciding_distinct rules _ org) (mem_deciding_congr agree)]

theorem answer_inj {a b : Option Label} : answer a = answer b ↔ a = b := by
  constructor
  · intro same
    obtain ⟨names, categories⟩ := Prod.mk.inj same
    cases a <;> cases b <;> simp_all [Prod.ext_iff]
  · exact congrArg answer

theorem unopposed_iff {protocol port : Int} {org : Option Uuid} :
    Unopposed rules protocol port org ↔
      rules.load.classify protocol (some port) org = expected rules protocol (some port) org := by
  rw [classify_load, expected, answer_inj, Unopposed]
  cases (deciding rules.enabled (·.writes protocol port) org).argmin Rule.priority <;>
    cases (deciding rules.enabled (·.covers protocol port) org).argmax Rule.priority <;>
    simp [eq_comm]

/-- Without ranges of protocol 0, a rule is written where it covers. -/
theorem writes_eq_covers {r : Rule} (given : r.protocol.isSome = true)
    (nonzero : ∀ port, r.inRange port = true → r.protocol ≠ some 0) (protocol port : Int) :
    r.writes protocol port = r.covers protocol port := by
  obtain ⟨own, same⟩ := Option.isSome_iff_exists.mp given
  cases ranged : r.inRange port with
  | false => simp [Rule.writes, Rule.covers, ranged]
  | true =>
    have other : own ≠ 0 := by simpa [same] using nonzero port ranged
    have proto : r.rangeProtocol = own := by simp [Rule.rangeProtocol, same, other]
    simp only [Rule.writes, Rule.covers, ranged, same, proto, Bool.and_true, Bool.or_true,
      Option.some.injEq, Bool.or_eq_right_iff_imp, Bool.and_eq_true]
    exact fun h => h.1

/-- Rules that decide with one label do not oppose each other. -/
theorem unopposed_of_alike {protocol port : Int} {org : Option Uuid}
    (nonzero : ∀ r ∈ rules.enabled, ∀ port, r.inRange port = true → r.protocol ≠ some 0)
    (alike : ∀ a ∈ deciding rules.enabled (·.covers protocol port) org,
      ∀ b ∈ deciding rules.enabled (·.covers protocol port) org, a.label = b.label) :
    Unopposed rules protocol port org := by
  have written : deciding rules.enabled (·.writes protocol port) org =
      deciding rules.enabled (·.covers protocol port) org := by
    have each (r : Rule) (mem : r ∈ rules.enabled) :
        r.writes protocol port = r.covers protocol port :=
      writes_eq_covers (rules.protocols r mem) (nonzero r mem) protocol port
    have kept (level : Rule → Bool) :
        rules.enabled.filter (fun r => level r && r.writes protocol port) =
          rules.enabled.filter fun r => level r && r.covers protocol port :=
      List.filter_congr fun r mem => congrArg (level r && ·) (each r mem)
    simp only [deciding, kept]
  rw [Unopposed, written]
  cases lowest : (deciding rules.enabled (·.covers protocol port) org).argmin Rule.priority with
  | none => simp [List.argmin_eq_none.mp lowest]
  | some last =>
    cases highest : (deciding rules.enabled (·.covers protocol port) org).argmax Rule.priority with
    | none => simp [List.argmax_eq_none.mp highest] at lowest
    | some top => exact alike last (List.argmin_mem lowest) top (List.argmax_mem highest)

/-- A classification follows priority and organization exactly where the rule that is written last has
the label of the rule that comes first; other organizations never count. -/
theorem classify_iff (rules : RuleSet) (protocol : Int) (destPort : Option Int) (org : Option Uuid) :
    (rules.load.classify protocol destPort org = expected rules protocol destPort org ∧
      ∀ others, Agree rules others org →
        others.load.classify protocol destPort org = rules.load.classify protocol destPort org) ↔
      ∀ port, destPort = some port → Unopposed rules protocol port org := by
  rw [and_iff_left fun others agree => classify_agree agree protocol destPort]
  cases destPort with
  | none => simp [ApplicationClassifier.classify, expected]
  | some port => simp [unopposed_iff]

/-! ### Two rules for one port -/

/-- A rule of an organization for the port 8443 over TCP. -/
def portal (name : String) (priority : Int) : Rule where
  organizationId := some "org"
  name := name
  appCategory := "web"
  protocol := some 6
  port := some 8443
  portRangeStart := none
  portRangeEnd := none
  isSystem := false
  priority := priority
  enabled := true

def portals : RuleSet where
  rows := [portal "Controller" 200, portal "Web" 100]
  distinct := by
    simp [portal, Distinct]
  protocols := by
    simp [portal]
  narrow := by
    simp [portal, Rule.narrow]

/-- Of two rules, the one of the lower priority names the traffic. -/
theorem portals_lower : ¬ ∀ (rules : RuleSet) (protocol : Int) (destPort : Option Int)
    (org : Option Uuid),
    rules.load.classify protocol destPort org = expected rules protocol destPort org := by
  intro always
  have same := unopposed_iff.mpr (always portals 6 (some 8443) (some "org"))
  exact absurd (congrArg Prod.fst (show ("Web", "web") = ("Controller", "web") from same)) (by decide)

end FreeSdn.Collector.Classifier
