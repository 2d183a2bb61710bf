import FreeSdn.Lib.Dictionary
import FreeSdn.Lib.JsonText
import FreeSdn.Lib.OrderBy
import FreeSdn.Lib.Utf8
import Mathlib.Data.String.Basic

/-! The keys of JSON objects: sorted, as `json.dumps(…, sort_keys=True)` writes them, and refused when
they repeat, as an `object_pairs_hook` may.  The text under `ensure_ascii` is one octet a character. -/

namespace FreeSdn.Lib.Json

/-- `d[key]`, null when there is none. -/
def item (ms : Dict) (key : String) : Json := (ms.lookup key).getD .null

/-! ### Sorted keys -/

mutual
/-- The value with the members of its objects in key order. -/
def sortKeys : Json → Json
  | .arr xs => .arr (sortItems xs)
  | .obj ms => .obj (orderBy Prod.fst (sortMembers ms))
  | .null => .null
  | .bool b => .bool b
  | .int n => .int n
  | .float t => .float t
  | .str s => .str s

def sortItems : List Json → List Json
  | [] => []
  | x :: xs => sortKeys x :: sortItems xs

def sortMembers : List (String × Json) → List (String × Json)
  | [] => []
  | (k, v) :: ms => (k, sortKeys v) :: sortMembers ms
end

/-- The values are equal up to the order of members, as dictionaries are. -/
def Equal (a b : Json) : Prop := sortKeys a = sortKeys b

instance (a b : Json) : Decidable (Equal a b) := inferInstanceAs (Decidable (sortKeys a = sortKeys b))

theorem sortMembers_eq (ms : List (String × Json)) :
    sortMembers ms = ms.map fun m => (m.1, sortKeys m.2) := by
  induction ms with
  | nil => rfl
  | cons m ms ih => rw [sortMembers, ih, List.map_cons]

theorem item_of_mem {ms : Dict} (distinct : (ms.map Prod.fst).Nodup) {m : String × Json}
    (mem : m ∈ ms) : item ms m.1 = m.2 := by
  rw [item, Dictionary.lookup_of_mem distinct mem, Option.getD_some]

/-- The members of an object whose keys are known, in the order of the keys. -/
theorem sortKeys_obj {ms : Dict} {keys : List String} (sorted : keys.Pairwise (· < ·))
    (same : (ms.map Prod.fst).Perm keys) :
    sortKeys (.obj ms) = .obj (keys.map fun k => (k, sortKeys (item ms k))) := by
  have distinctKeys : keys.Nodup := sorted.imp fun less => ne_of_lt less
  have distinct : (ms.map Prod.fst).Nodup := same.nodup_iff.mpr distinctKeys
  have listed : sortMembers ms = (ms.map Prod.fst).map fun k => (k, sortKeys (item ms k)) := by
    rw [sortMembers_eq, List.map_map]
    refine List.map_congr_left ?_
    intro m mem
    simp [item_of_mem distinct mem]
  rw [sortKeys]
  congr 1
  refine orderBy_eq ?_ ?_ ?_
  · rw [listed]
    intro a ha b hb equal
    obtain ⟨k, -, rfl⟩ := List.mem_map.mp ha
    obtain ⟨l, -, rfl⟩ := List.mem_map.mp hb
    obtain rfl : k = l := equal
    rfl
  · rw [listed]
    exact (same.map _).symm
  · exact List.pairwise_map.mpr (sorted.imp fun less => le_of_lt less)

/-! ### Repeated keys -/

mutual
/-- No object has a key twice. -/
def keysDistinct : Json → Bool
  | .arr xs => itemsDistinct xs
  | .obj ms => decide (ms.map Prod.fst).Nodup && membersDistinct ms
  | _ => true

def itemsDistinct : List Json → Bool
  | [] => true
  | x :: xs => keysDistinct x && itemsDistinct xs

def membersDistinct : List (String × Json) → Bool
  | [] => true
  | (_, v) :: ms => keysDistinct v && membersDistinct ms
end

/-! ### Octets -/

/-- A character of ASCII. -/
def Ascii (c : Char) : Prop := c.toNat < 128

instance (c : Char) : Decidable (Ascii c) := inferInstanceAs (Decidable (_ < _))

theorem ascii_of_all {cs : List Char} (all : (cs.all fun c => decide (Ascii c)) = true) : ∀ c ∈ cs, Ascii c :=
  fun c mem => of_decide_eq_true (List.all_eq_true.mp all c mem)

theorem hexDigit_ascii : ∀ n < 16, Ascii (hexDigit n) := by decide

theorem unicodeEscape_ascii (n : Nat) : ∀ c ∈ unicodeEscape n, Ascii c := by
  intro c mem
  simp only [unicodeEscape, List.mem_cons, List.not_mem_nil, or_false] at mem
  rcases mem with rfl | rfl | rfl | rfl | rfl | rfl
  · decide
  · decide
  all_goals exact hexDigit_ascii _ (Nat.mod_lt _ (by decide))

theorem escapeChar_ascii (c : Char) : ∀ d ∈ escapeChar c, Ascii d := by
  unfold escapeChar
  intro d mem
  split at mem
  · exact ascii_of_all rfl d mem
  split at mem
  · exact ascii_of_all rfl d mem
  split at mem
  · exact ascii_of_all rfl d mem
  split at mem
  · exact ascii_of_all rfl d mem
  split at mem
  · exact ascii_of_all rfl d mem
  split at mem
  · exact ascii_of_all rfl d mem
  split at mem
  · exact ascii_of_all rfl d mem
  split at mem
  · rename_i visible
    obtain rfl := List.mem_singleton.mp mem
    exact Nat.lt_of_le_of_lt visible.2 (by decide)
  split at mem
  · exact unicodeEscape_ascii _ d mem
  · rcases List.mem_append.mp mem with high | low
    · exact unicodeEscape_ascii _ d high
    · exact unicodeEscape_ascii _ d low

theorem closeString_ascii (cs : List Char) : ∀ c ∈ closeString cs, Ascii c := by
  intro c mem
  rcases List.mem_append.mp mem with inside | last
  · obtain ⟨d, -, escaped⟩ := List.mem_flatMap.mp inside
    exact escapeChar_ascii d c escaped
  · obtain rfl := List.mem_singleton.mp last
    decide

theorem numberChar_ascii {c : Char} (h : isNumberChar c = true) : Ascii c := by
  simp only [isNumberChar, Bool.or_eq_true, beq_iff_eq, or_assoc] at h
  rcases h with digit | rfl | rfl | rfl | rfl | rfl | rfl | rfl | rfl | rfl | rfl | rfl | rfl
  · simp only [Char.isDigit, Bool.and_eq_true, decide_eq_true_eq] at digit
    exact Nat.lt_of_le_of_lt (UInt32.le_iff_toNat_le.mp digit.2) (by decide)
  all_goals decide

mutual
theorem dumps_ascii : (v : Json) → ∀ c ∈ dumps v, Ascii c
  | .null | .bool true | .bool false | .arr [] | .obj [] => by
    simp only [dumps]
    exact ascii_of_all rfl
  | .int n => fun c mem => numberChar_ascii (intText_number n c mem)
  | .float t => fun c mem => by
    have valid := t.valid
    simp only [isFloatText, Bool.and_eq_true, List.all_eq_true] at valid
    exact numberChar_ascii (valid.1.1 c mem)
  | .str s => fun c mem => by
    rcases List.mem_cons.mp mem with rfl | inside
    · decide
    · exact closeString_ascii _ c inside
  | .arr (x :: xs) => fun c mem => by
    rcases List.mem_cons.mp mem with rfl | inside
    · decide
    rcases List.mem_append.mp inside with first | rest
    · exact dumps_ascii x c first
    · exact dumpsItems_ascii xs c rest
  | .obj ((k, v) :: ms) => fun c mem => by
    rcases List.mem_cons.mp mem with rfl | inside
    · decide
    rcases List.mem_cons.mp inside with rfl | inside
    · decide
    rcases List.mem_append.mp inside with key | inside
    · exact closeString_ascii _ c key
    rcases List.mem_cons.mp inside with rfl | inside
    · decide
    rcases List.mem_append.mp inside with first | rest
    · exact dumps_ascii v c first
    · exact dumpsMembers_ascii ms c rest

theorem dumpsItems_ascii : (xs : List Json) → ∀ c ∈ dumpsItems xs, Ascii c
  | [] => by
    simp only [dumpsItems]
    exact ascii_of_all rfl
  | x :: xs => fun c mem => by
    rcases List.mem_cons.mp mem with rfl | inside
    · decide
    rcases List.mem_append.mp inside with first | rest
    · exact dumps_ascii x c first
    · exact dumpsItems_ascii xs c rest

theorem dumpsMembers_ascii : (ms : List (String × Json)) → ∀ c ∈ dumpsMembers ms, Ascii c
  | [] => by
    simp only [dumpsMembers]
    exact ascii_of_all rfl
  | (k, v) :: ms => fun c mem => by
    rcases List.mem_cons.mp mem with rfl | inside
    · decide
    rcases List.mem_cons.mp inside with rfl | inside
    · decide
    rcases List.mem_append.mp inside with key | inside
    · exact closeString_ascii _ c key
    rcases List.mem_cons.mp inside with rfl | inside
    · decide
    rcases List.mem_append.mp inside with first | rest
    · exact dumps_ascii v c first
    · exact dumpsMembers_ascii ms c rest
end

/-- `str.encode()` of a text in ASCII. -/
theorem length_encode {cs : List Char} (ascii : ∀ c ∈ cs, Ascii c) :
    (Utf8.encode cs).length = cs.length := by
  induction cs with
  | nil => rfl
  | cons c cs ih =>
    have one : (String.utf8EncodeChar c).length = 1 := by
      have small : c.toNat < 128 := ascii c List.mem_cons_self
      rw [String.length_utf8EncodeChar, Char.utf8Size_eq_one_iff]
      exact UInt32.le_iff_toNat_le.mpr (Nat.le_of_lt_succ small)
    have rest := ih fun d mem => ascii d (List.mem_cons_of_mem c mem)
    have split : Utf8.encode (c :: cs) = String.utf8EncodeChar c ++ Utf8.encode cs := rfl
    rw [split, List.length_append, one, rest, List.length_cons, Nat.add_comm]

end FreeSdn.Lib.Json
