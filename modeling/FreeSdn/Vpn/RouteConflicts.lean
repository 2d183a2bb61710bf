import FreeSdn.Lib.Dyadic
import FreeSdn.Lib.Pairs
import Mathlib.Data.Set.BooleanAlgebra
import Mathlib.Order.CompletePartialOrder

/-! Conflicts between advertised subnets (`VPNRouteConflictService._find_conflicts` of
`services/vpn_route_conflicts.py`): every pair of subnets that overlap, and which of them contains the
other. -/

namespace FreeSdn.Vpn

open FreeSdn.Lib

/-! ### Networks -/

/-- The address families of `ipaddress`. -/
inductive Version
  | v4 | v6
  deriving DecidableEq, Repr

def Version.bits : Version → Nat
  | .v4 => 32
  | .v6 => 128

/-- An `IPv4Network` or `IPv6Network`: its host bits are zero.  The network address of an IPv6 network
may carry a zone. -/
structure Network where
  version : Version
  address : Nat
  prefixlen : Nat
  zone : Option String
  fits : prefixlen ≤ version.bits
  aligned : 2 ^ (version.bits - prefixlen) ∣ address
  zoneless : version = .v4 → zone = none

namespace Network

variable (a b : Network)

def hostBits : Nat := a.version.bits - a.prefixlen

/-- `broadcast_address`; it carries no zone. -/
def last : Nat := a.address + (2 ^ a.hostBits - 1)

/-- `ip in network`, which looks at numbers only. -/
def contains (ip : Nat) : Bool := a.address ≤ ip && ip ≤ a.last

/-- `a.overlaps(b)`. -/
def overlaps : Bool :=
  b.contains a.address || b.contains a.last || a.contains b.address || a.contains b.last

/-- `a == b`. -/
def equal : Bool :=
  a.version == b.version && (a.address == b.address && a.zone == b.zone) && a.prefixlen == b.prefixlen

/-- `a.network_address <= b.network_address`: less, or equal with the zone. -/
def startsBefore : Bool := a.address < b.address || (a.address == b.address && a.zone == b.zone)

/-- `a.subnet_of(b)`, for one family. -/
def subnetOf : Bool := b.startsBefore a && a.last ≤ b.last

/-- `a.supernet_of(b)`. -/
def supernetOf : Bool := b.subnetOf a

/-- The addresses of a network. -/
def addresses : Set Nat := block a.address a.hostBits

end Network

/-- What the service uses of `ipaddress`. -/
structure IpAddress where
  /-- `ip_network(cidr, strict=False)`; `none` is a `ValueError`. -/
  ipNetwork : String → Option Network
  str : Network → String

/-! ### Conflicts -/

/-- An advertised subnet with its label and the type of its source. -/
structure Source where
  cidr : String
  label : String
  stype : String

structure Parsed where
  net : Network
  label : String
  stype : String

inductive OverlapType
  | exact | subset | superset
  deriving DecidableEq, Repr

inductive Severity
  | error | warning
  deriving DecidableEq, Repr

structure Conflict where
  subnet : String
  sourceA : String
  sourceB : String
  sourceAType : String
  sourceBType : String
  severity : Severity
  overlapType : OverlapType
  deriving DecidableEq

variable (ip : IpAddress)

/-- A malformed subnet is skipped. -/
def parse (s : Source) : Option Parsed := (ip.ipNetwork s.cidr).map fun net => ⟨net, s.label, s.stype⟩

/-- The classification of an overlap and the subnet that is shown. -/
def classify (a b : Network) : OverlapType × Severity × String :=
  if a.equal b then (.exact, .error, ip.str a)
  else if a.subnetOf b then (.subset, .warning, ip.str a)
  else if a.supernetOf b then (.superset, .warning, ip.str b)
  else (.subset, .warning, ip.str a ++ " <-> " ++ ip.str b)

/-- The body of the loop. -/
def conflictOf (a b : Parsed) : Option Conflict :=
  if a.net.version ≠ b.net.version then none
  else if !a.net.overlaps b.net then none
  else
    let (overlapType, severity, subnetDisplay) := classify ip a.net b.net
    some {
      subnet := subnetDisplay, sourceA := a.label, sourceB := b.label, sourceAType := a.stype
      sourceBType := b.stype, severity, overlapType }

/-- `_find_conflicts`. -/
def findConflicts (sources : List Source) : List Conflict :=
  (pairs (sources.filterMap (parse ip))).filterMap fun p => conflictOf ip p.1 p.2

/-! ### Overlaps -/

namespace Network

variable {a b : Network}

theorem contains_iff {x : Nat} : a.contains x = true ↔ x ∈ a.addresses := by
  have size := Nat.two_pow_pos a.hostBits
  simp only [contains, Bool.and_eq_true, decide_eq_true_eq, addresses, mem_block]
  unfold last
  omega

/-- Overlapping is sharing an address. -/
theorem overlaps_iff : a.overlaps b = true ↔ (a.addresses ∩ b.addresses).Nonempty := by
  simp only [overlaps, Bool.or_eq_true, contains_iff, or_assoc]
  exact meet_iff.symm

/-- The networks start at one address, in different zones. -/
def ZonesApart (a b : Network) : Prop := a.address = b.address ∧ a.zone ≠ b.zone

instance : Decidable (ZonesApart a b) := inferInstanceAs (Decidable (_ ∧ _))

theorem equal_iff (family : a.version = b.version) :
    a.equal b = true ↔ ¬ ZonesApart a b ∧ a.addresses = b.addresses := by
  have size : a.prefixlen = b.prefixlen ↔ a.hostBits = b.hostBits := by
    have here := a.fits
    have there := b.fits
    simp only [hostBits, family] at here ⊢
    omega
  simp only [equal, addresses, block_eq_iff, ZonesApart, Bool.and_eq_true, beq_iff_eq, family, true_and,
    size]
  constructor
  · rintro ⟨⟨start, zone⟩, bits⟩
    exact ⟨fun apart => apart.2 zone, start, bits⟩
  · rintro ⟨together, start, bits⟩
    exact ⟨⟨start, by_contra fun apart => together ⟨start, apart⟩⟩, bits⟩

theorem subnetOf_iff : a.subnetOf b = true ↔ ¬ ZonesApart a b ∧ a.addresses ⊆ b.addresses := by
  simp only [subnetOf, startsBefore, addresses, block_subset_iff, ZonesApart, Bool.and_eq_true,
    Bool.or_eq_true, decide_eq_true_eq, beq_iff_eq]
  unfold last
  constructor
  · rintro ⟨lower | ⟨start, zone⟩, stop⟩
    · exact ⟨fun apart => absurd apart.1 (by omega), by omega, stop⟩
    · exact ⟨fun apart => apart.2 zone.symm, by omega, stop⟩
  · rintro ⟨together, start, stop⟩
    refine ⟨?_, stop⟩
    rcases Nat.eq_or_lt_of_le start with same | lower
    · exact .inr ⟨same, by_contra fun apart => together ⟨same.symm, fun zone => apart zone.symm⟩⟩
    · exact .inl lower

theorem zonesApart_comm : ZonesApart a b ↔ ZonesApart b a :=
  ⟨fun apart => ⟨apart.1.symm, apart.2.symm⟩, fun apart => ⟨apart.1.symm, apart.2.symm⟩⟩

/-- Networks that share an address are nested. -/
theorem nested (meet : (a.addresses ∩ b.addresses).Nonempty) :
    a.addresses ⊆ b.addresses ∨ b.addresses ⊆ a.addresses :=
  nested_of_meet a.aligned b.aligned meet

end Network

/-- An overlap is classified by its sets of addresses, shown is what they share, and one of the first
three branches is taken. -/
structure Classified (a b : Network) (c : Conflict) : Prop where
  same : a.addresses = b.addresses → c.overlapType = .exact ∧ c.severity = .error
  inside : a.addresses ⊂ b.addresses → c.overlapType = .subset ∧ c.severity = .warning
  around : b.addresses ⊂ a.addresses → c.overlapType = .superset ∧ c.severity = .warning
  one : a.addresses = b.addresses ∨ a.addresses ⊂ b.addresses ∨ b.addresses ⊂ a.addresses
  shown : ∃ n : Network, (n = a ∨ n = b) ∧ n.addresses = a.addresses ∩ b.addresses ∧
    c.subnet = ip.str n
  reached : a.equal b ∨ a.subnetOf b ∨ a.supernetOf b

/-- The last branch. -/
structure Partial (a b : Network) (c : Conflict) : Prop where
  unequal : a.equal b = false
  notSubnet : a.subnetOf b = false
  notSupernet : a.supernetOf b = false
  overlapType : c.overlapType = .subset
  severity : c.severity = .warning
  shown : c.subnet = ip.str a ++ " <-> " ++ ip.str b

/-- The positions of two subnets of one family that share an address. -/
def Conflicting (sources : List Source) (i j : Nat) : Prop :=
  i < j ∧ ∃ s t a b, sources[i]? = some s ∧ sources[j]? = some t ∧ ip.ipNetwork s.cidr = some a ∧
    ip.ipNetwork t.cidr = some b ∧ a.version = b.version ∧ (a.addresses ∩ b.addresses).Nonempty

/-- A conflict names the sources at two positions, and is as `P` says of their networks. -/
def Reports (P : Network → Network → Conflict → Prop) (sources : List Source) (at_ : Nat × Nat)
    (c : Conflict) : Prop :=
  ∃ s t a b, sources[at_.1]? = some s ∧ sources[at_.2]? = some t ∧ ip.ipNetwork s.cidr = some a ∧
    ip.ipNetwork t.cidr = some b ∧ c.sourceA = s.label ∧ c.sourceB = t.label ∧
    c.sourceAType = s.stype ∧ c.sourceBType = t.stype ∧ P a b c

/-- The conflicts are those of the conflicting positions, one for each. -/
def ReportsExactly (P : Network → Network → Conflict → Prop) (sources : List Source)
    (conflicts : List Conflict) : Prop :=
  ∃ reported : List (Nat × Nat), reported.Nodup ∧
    (∀ i j, (i, j) ∈ reported ↔ Conflicting ip sources i j) ∧
    List.Forall₂ (Reports ip P sources) reported conflicts

/-! ### What is reported -/

variable {ip} {a b : Network}

/-- Shown is the smaller network. -/
theorem classified_or_partial {c : Conflict} (family : a.version = b.version)
    (meet : (a.addresses ∩ b.addresses).Nonempty)
    (made : classify ip a b = (c.overlapType, c.severity, c.subnet)) :
    (¬ a.ZonesApart b → Classified ip a b c) ∧ (a.ZonesApart b → Partial ip a b c) := by
  unfold classify at made
  by_cases equal : a.equal b = true
  · rw [if_pos equal] at made
    obtain ⟨overlap, severity, shown⟩ : OverlapType.exact = c.overlapType ∧ Severity.error = c.severity ∧
        ip.str a = c.subnet := by simpa using made
    obtain ⟨together, same⟩ := (Network.equal_iff family).mp equal
    refine ⟨fun _ => ⟨fun _ => ⟨overlap.symm, severity.symm⟩, ?_, ?_, .inl same, ⟨a, .inl rfl, ?_, shown.symm⟩,
      .inl equal⟩, fun apart => absurd apart together⟩
    · exact fun inside => absurd same inside.ne
    · exact fun around => absurd same.symm around.ne
    · rw [same, Set.inter_self]
  have different : ¬ a.ZonesApart b → a.addresses ≠ b.addresses := fun together same =>
    equal ((Network.equal_iff family).mpr ⟨together, same⟩)
  rw [if_neg equal] at made
  by_cases subnet : a.subnetOf b = true
  · rw [if_pos subnet] at made
    obtain ⟨overlap, severity, shown⟩ : OverlapType.subset = c.overlapType ∧
        Severity.warning = c.severity ∧ ip.str a = c.subnet := by simpa using made
    obtain ⟨together, within⟩ := Network.subnetOf_iff.mp subnet
    have strict := within.ssubset_of_ne (different together)
    refine ⟨fun _ => ⟨?_, fun _ => ⟨overlap.symm, severity.symm⟩, ?_, .inr (.inl strict),
      ⟨a, .inl rfl, (Set.inter_eq_left.mpr within).symm, shown.symm⟩, .inr (.inl subnet)⟩,
      fun apart => absurd apart together⟩
    · exact fun same => absurd same strict.ne
    · exact fun around => absurd (strict.trans around) (ssubset_irrefl _)
  rw [if_neg subnet] at made
  by_cases supernet : a.supernetOf b = true
  · rw [if_pos supernet] at made
    obtain ⟨overlap, severity, shown⟩ : OverlapType.superset = c.overlapType ∧
        Severity.warning = c.severity ∧ ip.str b = c.subnet := by simpa using made
    obtain ⟨together, within⟩ := Network.subnetOf_iff.mp supernet
    have unzoned : ¬ a.ZonesApart b := fun apart => together (Network.zonesApart_comm.mp apart)
    have strict := within.ssubset_of_ne (different unzoned).symm
    refine ⟨fun _ => ⟨?_, ?_, fun _ => ⟨overlap.symm, severity.symm⟩, .inr (.inr strict),
      ⟨b, .inr rfl, (Set.inter_eq_right.mpr within).symm, shown.symm⟩, .inr (.inr supernet)⟩,
      fun apart => absurd apart unzoned⟩
    · exact fun same => absurd same.symm strict.ne
    · exact fun inside => absurd (strict.trans inside) (ssubset_irrefl _)
  rw [if_neg supernet] at made
  obtain ⟨overlap, severity, shown⟩ : OverlapType.subset = c.overlapType ∧
      Severity.warning = c.severity ∧ ip.str a ++ " <-> " ++ ip.str b = c.subnet := by simpa using made
  refine ⟨fun together => ?_, fun _ => ⟨by simpa using equal, by simpa using subnet,
    by simpa using supernet, overlap.symm, severity.symm, shown.symm⟩⟩
  rcases Network.nested meet with within | around
  · exact absurd (Network.subnetOf_iff.mpr ⟨together, within⟩) subnet
  · have unzoned : ¬ b.ZonesApart a := fun apart => together (Network.zonesApart_comm.mp apart)
    exact absurd (Network.subnetOf_iff.mpr ⟨unzoned, around⟩) supernet

theorem conflictOf_isSome {a b : Parsed} : (conflictOf ip a b).isSome ↔
    a.net.version = b.net.version ∧ (a.net.addresses ∩ b.net.addresses).Nonempty := by
  rw [← Network.overlaps_iff]
  unfold conflictOf
  split
  · rename_i apart
    simp [apart]
  · rename_i family
    split
    · rename_i disjoint
      simp only [Bool.not_eq_true'] at disjoint
      simp [disjoint]
    · rename_i meet
      simp only [Bool.not_eq_true', Bool.not_eq_false] at meet
      simpa [meet] using family

theorem conflictOf_some {a b : Parsed} {c : Conflict} (made : conflictOf ip a b = some c) :
    classify ip a.net b.net = (c.overlapType, c.severity, c.subnet) ∧ c.sourceA = a.label ∧
      c.sourceB = b.label ∧ c.sourceAType = a.stype ∧ c.sourceBType = b.stype := by
  unfold conflictOf at made
  split at made
  · cases made
  · split at made
    · cases made
    · obtain rfl := Option.some.inj made
      exact ⟨rfl, rfl, rfl, rfl, rfl⟩

/-- The conflict of two sources, with their positions. -/
def conflictAt (ip : IpAddress) (p : (Source × Nat) × (Source × Nat)) : Option Conflict :=
  ((parse ip p.1.1).bind fun a => (parse ip p.2.1).map fun b => (a, b)).bind fun q => conflictOf ip q.1 q.2

theorem findConflicts_eq (sources : List Source) :
    findConflicts ip sources = (pairs sources.zipIdx).filterMap (conflictAt ip) := by
  have positions : sources.filterMap (parse ip) = sources.zipIdx.filterMap fun p => parse ip p.1 := by
    conv => lhs; rw [← List.zipIdx_map_fst 0 sources]
    rw [List.filterMap_map]
    rfl
  rw [findConflicts, positions, pairs_filterMap, List.filterMap_filterMap]
  rfl

theorem conflictAt_isSome {s t : Source} {i j : Nat} : (conflictAt ip ((s, i), (t, j))).isSome ↔
    ∃ a b, ip.ipNetwork s.cidr = some a ∧ ip.ipNetwork t.cidr = some b ∧ a.version = b.version ∧
      (a.addresses ∩ b.addresses).Nonempty := by
  unfold conflictAt parse
  cases ip.ipNetwork s.cidr with
  | none => simp
  | some a =>
    cases ip.ipNetwork t.cidr with
    | none => simp
    | some b =>
      have both := @conflictOf_isSome ip ⟨a, s.label, s.stype⟩ ⟨b, t.label, t.stype⟩
      simpa using both

/-- Reported are the pairs of positions whose subnets share an address, each by the sets of its
addresses; two networks that start at one address in different zones are left to the last branch. -/
theorem findConflicts_exact (ip : IpAddress) (sources : List Source) :
    ReportsExactly ip (fun a b c => (¬ a.ZonesApart b → Classified ip a b c) ∧
      (a.ZonesApart b → Partial ip a b c)) sources (findConflicts ip sources) := by
  rw [findConflicts_eq]
  refine ⟨((pairs sources.zipIdx).filter fun p => (conflictAt ip p).isSome).map
    (Prod.map Prod.snd Prod.snd), ?_, ?_, forall₂_filterMap ?_⟩
  · have distinct : (pairs (sources.zipIdx.map Prod.snd)).Nodup := by
      rw [List.zipIdx_map_snd]
      exact nodup_pairs List.nodup_range'
    rw [pairs_map] at distinct
    exact distinct.sublist (List.filter_sublist.map _)
  · intro i j
    rw [List.mem_map]
    constructor
    · rintro ⟨⟨⟨s, k⟩, ⟨t, l⟩⟩, mem, same⟩
      obtain ⟨rfl, rfl⟩ : k = i ∧ l = j := by simpa using same
      obtain ⟨mem, found⟩ := List.mem_filter.mp mem
      obtain ⟨-, order, here, there⟩ := mem_pairs_zipIdx.mp mem
      obtain ⟨a, b, first, second, family, meet⟩ := conflictAt_isSome.mp found
      exact ⟨order, s, t, a, b, here, there, first, second, family, meet⟩
    · rintro ⟨order, s, t, a, b, here, there, first, second, family, meet⟩
      refine ⟨((s, i), (t, j)), List.mem_filter.mpr ⟨?_, ?_⟩, rfl⟩
      · exact mem_pairs_zipIdx.mpr ⟨Nat.zero_le i, order, here, there⟩
      · exact conflictAt_isSome.mpr ⟨a, b, first, second, family, meet⟩
  · rintro ⟨⟨s, i⟩, ⟨t, j⟩⟩ mem c made
    obtain ⟨-, -, here, there⟩ := mem_pairs_zipIdx.mp mem
    obtain ⟨a, b, first, second, family, meet⟩ :=
      conflictAt_isSome.mp (Option.isSome_iff_exists.mpr ⟨c, made⟩)
    simp only [conflictAt, parse, first, second, Option.map_some, Option.bind_some] at made
    obtain ⟨classified, sourceA, sourceB, typeA, typeB⟩ := conflictOf_some made
    exact ⟨s, t, a, b, here, there, first, second, sourceA, sourceB, typeA, typeB,
      classified_or_partial family meet classified⟩

/-! ### Link-local networks in two zones -/

/-- `fe80::/64` in a zone. -/
def linkLocal (zone : String) : Network :=
  ⟨.v6, 65152 * 2 ^ 112, 64, some zone, by decide, by decide, fun v4 => by cases v4⟩

/-- `ipaddress` on the two texts of `twoLinks`. -/
def ipZones : IpAddress where
  ipNetwork cidr :=
    if cidr = "fe80::%1/64" then some (linkLocal "1")
    else if cidr = "fe80::%2/64" then some (linkLocal "2")
    else none
  str n := "fe80::%" ++ n.zone.getD "" ++ "/64"

def twoLinks : List Source :=
  [⟨"fe80::%1/64", "wireguard:a", "connection"⟩, ⟨"fe80::%2/64", "wireguard:b", "connection"⟩]

theorem twoLinks_conflicts : findConflicts ipZones twoLinks =
    [⟨"fe80::%1/64 <-> fe80::%2/64", "wireguard:a", "wireguard:b", "connection", "connection", .warning,
      .subset⟩] := by decide +kernel

/-- The two networks have the same addresses, and the conflict is a subset shown as a partial overlap. -/
theorem twoLinks_partial : ¬ ReportsExactly ipZones (Classified ipZones) twoLinks
    (findConflicts ipZones twoLinks) := by
  rw [twoLinks_conflicts]
  rintro ⟨reported, -, conflicting, all⟩
  obtain ⟨⟨i, j⟩, rest, report, -, rfl⟩ := List.forall₂_cons_right_iff.mp all
  obtain ⟨order, s, t, -, -, here, there, -⟩ := (conflicting i j).mp List.mem_cons_self
  have second : j < 2 := (List.getElem?_eq_some_iff.mp there).1
  obtain ⟨rfl, rfl⟩ : i = 0 ∧ j = 1 := by omega
  obtain ⟨s, t, a, b, here, there, first, second, -, -, -, -, classified⟩ := report
  obtain rfl := Option.some.inj here
  obtain rfl := Option.some.inj there
  obtain rfl : linkLocal "1" = a := Option.some.inj first
  obtain rfl : linkLocal "2" = b := Option.some.inj second
  have exact_ := (classified.same rfl).1
  cases exact_

end FreeSdn.Vpn
