import FreeSdn.Lib.Dictionary
import FreeSdn.Staging.Change

/-! Stored payloads: Python's `==` on JSON values, and the fields that the request schemas read from
them.  Numbers compare across their types, and dictionaries regardless of the order of their
members. -/

namespace FreeSdn.Hypervisor

open FreeSdn.Lib FreeSdn.Lib.Dictionary FreeSdn.Staging

/-- Comparisons of floats, and what a lax field of a schema takes for an integer or a boolean. -/
structure Reading where
  floatInt : FloatText → Int → Bool
  floatFloat : FloatText → FloatText → Bool
  int : Json → Option Int
  bool : Json → Option Bool

/-- A lax field takes a value of its own type as it is. -/
structure Reading.Exact (r : Reading) : Prop where
  int : ∀ n, r.int (.int n) = some n
  bool : ∀ b, r.bool (.bool b) = some b

/-- An integer or a boolean as a number. -/
def integral : Json → Option Int
  | .int n => some n
  | .bool b => some (if b then 1 else 0)
  | _ => none

mutual
/-- `a == b`. -/
def same (r : Reading) : Json → Json → Bool
  | .null, .null => true
  | .str a, .str b => a = b
  | .arr as, .arr bs => sameItems r as bs
  | .obj as, .obj bs => as.length = bs.length && sameMembers r as bs
  | .float a, .float b => r.floatFloat a b
  | .float a, b => (integral b).any (r.floatInt a)
  | .int n, .float b => r.floatInt b n
  | .bool b, .float a => r.floatInt a (if b then 1 else 0)
  | .int n, b => integral b == some n
  | .bool a, b => integral b == some (if a then 1 else 0)
  | _, _ => false

def sameItems (r : Reading) : List Json → List Json → Bool
  | [], [] => true
  | a :: as, b :: bs => same r a b && sameItems r as bs
  | _, _ => false

/-- Every member is a member of the other dictionary. -/
def sameMembers (r : Reading) : List (String × Json) → Dict → Bool
  | [], _ => true
  | (k, a) :: as, bs => (match bs.lookup k with
    | some b => same r a b
    | none => false) && sameMembers r as bs
end

variable {r : Reading} {d e : Dict} {k : String} {v : Json}

/-- A value without floats, whose dictionaries hold no key twice. -/
inductive Plain : Json → Prop
  | null : Plain .null
  | bool (b : Bool) : Plain (.bool b)
  | int (n : Int) : Plain (.int n)
  | str (s : String) : Plain (.str s)
  | obj {d : Dict} (distinct : (d.map Prod.fst).Nodup) (members : ∀ m ∈ d, Plain m.2) :
      Plain (.obj d)

theorem lookup_of_mem (distinct : (d.map Prod.fst).Nodup) {m : String × Json} (mem : m ∈ d) :
    d.lookup m.1 = some m.2 := by
  induction d with
  | nil => simp at mem
  | cons n d ih =>
    rw [List.map_cons, List.nodup_cons] at distinct
    rcases List.mem_cons.mp mem with rfl | later
    · exact List.lookup_cons_self
    · have other : m.1 ≠ n.1 := fun eq => distinct.1 (eq ▸ List.mem_map_of_mem later)
      obtain ⟨l, w⟩ := n
      rw [List.lookup_cons, beq_false_of_ne other]
      exact ih distinct.2 later

theorem sameMembers_of (members : ∀ m ∈ d, ∃ w, e.lookup m.1 = some w ∧ same r m.2 w = true) :
    sameMembers r d e = true := by
  induction d with
  | nil => simp [sameMembers]
  | cons m d ih =>
    obtain ⟨l, a⟩ := m
    obtain ⟨⟨w, found, eq⟩, rest⟩ := List.forall_mem_cons.mp members
    simp only at found eq
    rw [sameMembers, found, ih rest]
    simpa using eq

theorem Plain.same_self (plain : Plain v) : same r v v = true := by
  induction plain with
  | null => rfl
  | bool b => cases b <;> simp [same, integral]
  | int n => simp [same, integral]
  | str s => simp [same]
  | obj distinct _ ih =>
    rw [same, decide_eq_true rfl, Bool.true_and]
    exact sameMembers_of fun m mem => ⟨m.2, lookup_of_mem distinct mem, ih m mem⟩

theorem get_eq_lookup (d : Dict) (k : String) : Staging.get d k = d.lookup k := by
  induction d with
  | nil => rfl
  | cons m d ih =>
    obtain ⟨l, w⟩ := m
    by_cases here : l = k
    · simp [Staging.get, here]
    · rw [List.lookup_cons, beq_false_of_ne (Ne.symm here)]
      simpa [Staging.get, here] using ih

/-! ### Fields -/

/-- A field that is dumped unless it is `None`. -/
def dumped (key : String) (value : Option Json) : Dict := (value.map fun v => (key, v)).toList

theorem mem_dumped {key : String} {value : Option Json} {m : String × Json}
    (h : m ∈ dumped key value) : m.1 = key ∧ value = some m.2 := by
  obtain ⟨v, found, rfl⟩ := Option.map_eq_some_iff.mp (Option.mem_toList.mp h)
  exact ⟨rfl, found⟩

theorem lookup_dumped_self {key : String} {value : Option Json} (rest : Dict) :
    (dumped key value ++ rest).lookup key = value.or (rest.lookup key) := by
  cases value with
  | none => rfl
  | some v => exact List.lookup_cons_self

theorem lookup_dumped_ne {key : String} {value : Option Json} (rest : Dict) (other : k ≠ key) :
    (dumped key value ++ rest).lookup k = rest.lookup k := by
  cases value with
  | none => rfl
  | some v =>
    show ((key, v) :: rest).lookup k = _
    rw [List.lookup_cons, beq_false_of_ne other]

/-- A dictionary without a key. -/
theorem lookup_filter_ne {key : String} (d : Dict) (other : k ≠ key) :
    (d.filter fun m => m.1 ≠ key).lookup k = d.lookup k := Dictionary.lookup_pop_ne other

/-- A text, or the default. -/
def textField (d : Dict) (k default : String) : Option String :=
  match d.lookup k with
  | none => some default
  | some (.str s) => some s
  | some _ => none

def intField (r : Reading) (d : Dict) (k : String) (default : Int) : Option Int :=
  match d.lookup k with
  | none => some default
  | some v => r.int v

def boolField (r : Reading) (d : Dict) (k : String) (default : Bool) : Option Bool :=
  match d.lookup k with
  | none => some default
  | some v => r.bool v

@[simp] theorem textField_eq {s default : String} (h : d.lookup k = some (.str s)) :
    textField d k default = some s := by
  rw [textField, h]

@[simp] theorem intField_eq (exact : r.Exact) {n default : Int} (h : d.lookup k = some (.int n)) :
    intField r d k default = some n := by
  rw [intField, h]
  exact exact.int n

@[simp] theorem boolField_eq (exact : r.Exact) {b default : Bool}
    (h : d.lookup k = some (.bool b)) : boolField r d k default = some b := by
  rw [boolField, h]
  exact exact.bool b

/-! ### Order of members -/

/-- A value and what the database returns for it, which keeps no order of the members. -/
inductive Reordered : Json → Json → Prop
  | refl (v : Json) : Reordered v v
  | obj {d e : Dict} (distinct : (d.map Prod.fst).Nodup)
      (keys : (d.map Prod.fst).Perm (e.map Prod.fst))
      (members : ∀ m ∈ d, ∀ w, e.lookup m.1 = some w → Reordered m.2 w) :
      Reordered (.obj d) (.obj e)

theorem Reordered.of_perm (distinct : (d.map Prod.fst).Nodup) (perm : d.Perm e) :
    Reordered (.obj d) (.obj e) := by
  have keys := perm.map Prod.fst
  refine .obj distinct keys fun m mem w found => ?_
  have own : e.lookup m.1 = some m.2 := lookup_of_mem (keys.nodup distinct) (perm.mem_iff.mp mem)
  obtain rfl := Option.some.inj (own.symm.trans found)
  exact .refl m.2

theorem Reordered.atom {w : Json} (h : Reordered v w) (atom : ∀ e, w ≠ .obj e) : v = w := by
  cases h with
  | refl => rfl
  | obj => exact absurd rfl (atom _)

theorem lookup_some_iff : (∃ w, d.lookup k = some w) ↔ k ∈ d.map Prod.fst := by
  constructor
  · rintro ⟨w, found⟩
    exact List.mem_map.mpr ⟨(k, w), mem_of_lookup found, rfl⟩
  · intro mem
    rw [← Option.isSome_iff_exists, Option.isSome_iff_ne_none]
    intro none
    obtain ⟨m, here, rfl⟩ := List.mem_map.mp mem
    simpa using List.lookup_eq_none_iff.mp none m here

theorem lookup_none_iff : d.lookup k = none ↔ k ∉ d.map Prod.fst := by
  rw [← lookup_some_iff, Option.eq_none_iff_forall_ne_some, not_exists]

/-- The values under a key. -/
theorem Reordered.lookup (h : Reordered (.obj d) (.obj e)) (k : String) :
    Option.Rel Reordered (d.lookup k) (e.lookup k) := by
  cases h with
  | refl =>
    cases d.lookup k with
    | none => exact .none
    | some v => exact .some (.refl v)
  | obj distinct keys members =>
    cases found : d.lookup k with
    | none =>
      have missing : e.lookup k = none := by
        rw [lookup_none_iff] at found ⊢
        exact fun mem => found (keys.mem_iff.mpr mem)
      rw [missing]
      exact .none
    | some v =>
      obtain ⟨w, other⟩ := lookup_some_iff.mpr (keys.mem_iff.mp (lookup_some_iff.mp ⟨v, found⟩))
      rw [other]
      exact .some (members (k, v) (mem_of_lookup found) w other)

theorem Reordered.lookup_atom (h : Reordered (.obj d) (.obj e)) {w : Json}
    (found : e.lookup k = some w) (atom : ∀ e, w ≠ .obj e) : d.lookup k = some w := by
  have both := h.lookup k
  rw [found] at both
  generalize d.lookup k = x at both
  cases both with
  | some one => rw [one.atom atom]

theorem Reordered.lookup_missing (h : Reordered (.obj d) (.obj e)) (missing : e.lookup k = none) :
    d.lookup k = none := by
  have both := h.lookup k
  rw [missing] at both
  generalize d.lookup k = x at both
  cases both
  rfl

theorem keys_filter (d : Dict) (key : String) :
    (d.filter fun m => m.1 ≠ key).map Prod.fst = (d.map Prod.fst).filter fun k => k ≠ key := by
  rw [List.filter_map]
  rfl

theorem Reordered.filter (h : Reordered (.obj d) (.obj e)) (key : String) :
    Reordered (.obj (d.filter fun m => m.1 ≠ key)) (.obj (e.filter fun m => m.1 ≠ key)) := by
  cases h with
  | refl => exact .refl _
  | obj distinct keys members =>
    refine .obj ?_ ?_ fun m mem w found => ?_
    · rw [keys_filter]
      exact distinct.filter _
    · rw [keys_filter, keys_filter]
      exact keys.filter _
    · obtain ⟨here, other⟩ := List.mem_filter.mp mem
      rw [lookup_filter_ne e (by simpa using other)] at found
      exact members m here w found

/-- The order does not matter to `==`. -/
theorem Reordered.same {w : Json} (h : Reordered v w) (plain : Plain w) :
    Hypervisor.same r v w = true := by
  induction h with
  | refl => exact plain.same_self
  | @obj d e distinct keys members ih =>
    cases plain with
    | obj _ each =>
      have size : d.length = e.length := by simpa using keys.length_eq
      rw [Hypervisor.same, decide_eq_true size, Bool.true_and]
      apply sameMembers_of
      intro m mem
      obtain ⟨w, found⟩ := lookup_some_iff.mpr (keys.mem_iff.mp (List.mem_map_of_mem mem))
      exact ⟨w, found, ih m mem w found (each _ (mem_of_lookup found))⟩

end FreeSdn.Hypervisor
