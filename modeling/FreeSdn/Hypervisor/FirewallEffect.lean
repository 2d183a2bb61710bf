import FreeSdn.Hypervisor.Firewall
import Mathlib.Data.List.Perm.Basic

/-! The state that a firewall review predicts is what the command sent for it does to the rules and
the options, as the configuration shows them. -/

namespace FreeSdn.Hypervisor.Firewall

open FreeSdn.Lib FreeSdn.Lib.Dictionary FreeSdn.Staging

/-! ### Moves -/

section Moves

variable {α : Type} {rules first rest : List α} {pos moveto start : Nat} {r : α}

theorem others_after (later : pos < start) : others pos (rules.zipIdx start) = rules := by
  induction rules generalizing start with
  | nil => rfl
  | cons a rules ih =>
    have next : others pos (rules.zipIdx (start + 1)) = rules := ih (by omega)
    rw [others] at next ⊢
    rw [List.zipIdx_cons, List.filter_cons_of_pos (by simp; omega), List.map_cons, next]

theorem others_from (before : start ≤ pos) :
    others pos (rules.zipIdx start) = rules.eraseIdx (pos - start) := by
  induction rules generalizing start with
  | nil => rfl
  | cons a rules ih =>
    by_cases here : start = pos
    · have rest : others pos (rules.zipIdx (start + 1)) = rules := others_after (by omega)
      rw [others] at rest ⊢
      rw [List.zipIdx_cons, List.filter_cons_of_neg (by simp [here]), rest, here, Nat.sub_self]
      rfl
    · have next : others pos (rules.zipIdx (start + 1)) = rules.eraseIdx (pos - (start + 1)) :=
        ih (by omega)
      rw [others] at next ⊢
      rw [List.zipIdx_cons, List.filter_cons_of_pos (by simp [here]), List.map_cons, next,
        show pos - start = pos - (start + 1) + 1 by omega, List.eraseIdx_cons_succ]

/-- The two parts of the list that the destination separates. -/
theorem movedBefore_parts (within : moveto ≤ rules.length) :
    movedBefore rules pos moveto
      = others pos ((rules.take moveto).zipIdx 0) ++ rules[pos]?.toList
        ++ others pos ((rules.drop moveto).zipIdx moveto) := by
  have size : ((rules.take moveto).zipIdx 0).length = moveto := by
    rw [List.length_zipIdx, List.length_take, Nat.min_eq_left within]
  have whole : rules.zipIdx
      = (rules.take moveto).zipIdx 0 ++ (rules.drop moveto).zipIdx moveto := by
    conv => lhs; rw [← List.take_append_drop moveto rules]
    rw [List.zipIdx_append, List.length_take, Nat.min_eq_left within, Nat.zero_add]
  rw [movedBefore, whole, List.take_left' size, List.drop_left' size]

/-- Taking a rule out and inserting it at the shifted place puts it before its destination. -/
theorem movedBefore_eq (there : rules[pos]? = some r) (within : moveto < rules.length) :
    movedBefore rules pos moveto
      = insertAt (rules.eraseIdx pos) (moveto - if pos < moveto then 1 else 0) r := by
  have inside : pos < rules.length := (List.getElem?_eq_some_iff.mp there).1
  have size : (rules.take moveto).length = moveto := by
    rw [List.length_take, Nat.min_eq_left (Nat.le_of_lt within)]
  rw [movedBefore_parts (Nat.le_of_lt within), there, insertAt]
  by_cases early : pos < moveto
  · have erased : rules.eraseIdx pos = (rules.take moveto).eraseIdx pos ++ rules.drop moveto := by
      conv => lhs; rw [← List.take_append_drop moveto rules]
      rw [List.eraseIdx_append_of_lt_length (by omega)]
    have shorter : ((rules.take moveto).eraseIdx pos).length = moveto - 1 := by
      rw [List.length_eraseIdx, if_pos (by omega), size]
    rw [others_from (Nat.zero_le pos), others_after early, Nat.sub_zero, if_pos early, erased,
      List.take_left' shorter, List.drop_left' shorter]
    simp
  · have late : moveto ≤ pos := by omega
    have erased : rules.eraseIdx pos
        = rules.take moveto ++ (rules.drop moveto).eraseIdx (pos - moveto) := by
      conv => lhs; rw [← List.take_append_drop moveto rules]
      rw [List.eraseIdx_append_of_length_le (by omega), size]
    rw [others_from (Nat.zero_le pos), others_from late, Nat.sub_zero, if_neg early, Nat.sub_zero,
      erased, List.take_left' size, List.drop_left' size,
      List.eraseIdx_of_length_le (by omega : (rules.take moveto).length ≤ pos)]
    simp

theorem insertAt_perm (rules : List α) (i : Nat) (r : α) : (insertAt rules i r).Perm (r :: rules) := by
  rw [insertAt]
  refine List.perm_middle.trans ?_
  rw [List.take_append_drop]

theorem getElem?_insertAt {i : Nat} (within : i ≤ rules.length) :
    (insertAt rules i r)[i]? = some r := by
  have size : (rules.take i).length = i := by rw [List.length_take, Nat.min_eq_left within]
  rw [insertAt, List.getElem?_append_right (by omega), size, Nat.sub_self]
  rfl

theorem eraseIdx_insertAt {i : Nat} (within : i ≤ rules.length) :
    (insertAt rules i r).eraseIdx i = rules := by
  have size : (rules.take i).length = i := by rw [List.length_take, Nat.min_eq_left within]
  rw [insertAt, List.eraseIdx_append_of_length_le (by omega), size, Nat.sub_self,
    List.eraseIdx_cons_zero, List.take_append_drop]

end Moves

/-! ### Normal rules -/

/-- A rule as `_rule` returns it. -/
structure Normal (r : Dict) : Prop where
  kept : ∀ m ∈ r, kept m = true
  flagged : ∃ n : Int, (n = 0 ∨ n = 1) ∧ r.lookup "enable" = some (.int n) ∧
    ∀ m ∈ r, m.1 = "enable" → m.2 = .int n

theorem flag_ok {v : Json} {n : Int} (h : flag v = .ok n) : n = 0 ∨ n = 1 := by
  unfold flag at h
  split at h
  · split at h
    · rename_i two
      obtain rfl := Except.ok.inj h
      exact two
    · cases h
  · obtain rfl := Except.ok.inj h
    split
    · exact .inr rfl
    · exact .inl rfl
  · split at h
    · exact .inl (Except.ok.inj h).symm
    · split at h
      · exact .inr (Except.ok.inj h).symm
      · cases h
  · cases h

theorem flag_int {n : Int} (h : n = 0 ∨ n = 1) : flag (.int n) = .ok n := if_pos h

theorem normalized_normal {raw r : Dict} (h : normalized raw = .ok r) : Normal r := by
  obtain ⟨n, flagged, h⟩ := bind_ok h
  obtain rfl := Except.ok.inj h
  constructor
  · intro m mem
    rcases mem_setItem mem with rfl | ⟨-, old⟩
    · rfl
    · exact (List.mem_filter.mp old).2
  · refine ⟨n, flag_ok flagged, lookup_setItem_self, ?_⟩
    intro m mem named
    rcases mem_setItem mem with rfl | ⟨other, -⟩
    · rfl
    · exact absurd named other

theorem rule_normalized {raw r : Dict} (h : rule raw = .ok r) : normalized raw = .ok r := by
  obtain ⟨-, h⟩ := require_bind h
  exact (require_bind h).2

theorem Normal.same {r : Dict} (normal : Normal r) : normalized r = .ok r := by
  obtain ⟨n, two, found, only⟩ := normal.flagged
  rw [normalized, found, Option.getD_some, flag_int two, ok_bind rfl,
    List.filter_eq_self.mpr normal.kept, setItem_same ⟨_, mem_of_lookup found, rfl⟩ only]
  rfl

theorem Normal.unnamed {r : Dict} (normal : Normal r) : ∀ m ∈ r, m.1 ≠ "digest" := by
  intro m mem named
  have keeps := normal.kept m mem
  simp [Firewall.kept, named] at keeps

/-- The digest of a command is not part of a rule. -/
theorem Normal.digest {r : Dict} (normal : Normal r) (d : Json) :
    normalized (setItem r "digest" d) = .ok r := by
  have same := normal.same
  rw [setItem_new normal.unnamed]
  rw [normalized] at same ⊢
  rw [lookup_append_ne (by decide), List.filter_append]
  simpa [Firewall.kept] using same

theorem Normal.update {r w : Dict} (normal : Normal r) (new : Normal w) : Normal (update r w) := by
  obtain ⟨n, two, found, only⟩ := new.flagged
  have assigned : ∃ m ∈ w, m.1 = "enable" := ⟨_, mem_of_lookup found, rfl⟩
  constructor
  · intro m mem
    rcases mem_update mem with h | ⟨h, -⟩
    · exact new.kept m h
    · exact normal.kept m h
  · refine ⟨n, two, lookup_update_const assigned only, ?_⟩
    intro m mem named
    rcases mem_update mem with h | ⟨-, others⟩
    · exact only m h named
    · obtain ⟨k, hk, eq⟩ := assigned
      exact absurd (eq.trans named.symm) (others k hk)

/-! ### The data of a rule -/

theorem mem_dumped_str {key : String} {value : Option String} {m : String × Json}
    (h : m ∈ dumped key (value.map .str)) : m.1 = key ∧ ∃ s, m.2 = .str s := by
  obtain ⟨named, found⟩ := mem_dumped h
  obtain ⟨s, -, eq⟩ := Option.map_eq_some_iff.mp found
  exact ⟨named, s, eq.symm⟩

/-- The fields of a rule that the schema has. -/
def ruleFields : List String :=
  ["action", "type", "source", "dest", "sport", "dport", "proto", "macro", "iface", "log", "comment"]

/-- A member of the dump is the flag, or a text. -/
theorem mem_dump {settings : FirewallRuleSettings} {m : String × Json} (h : m ∈ settings.dump) :
    m = ("enable", .bool settings.enable) ∨ m.1 ∈ ruleFields ∧ ∃ s, m.2 = .str s := by
  unfold FirewallRuleSettings.dump at h
  simp only [List.mem_append, List.mem_cons, List.not_mem_nil, or_false] at h
  have text {key : String} {value : Option String} (named : key ∈ ruleFields)
      (h : m ∈ dumped key (value.map .str)) : m.1 ∈ ruleFields ∧ ∃ s, m.2 = .str s := by
    obtain ⟨rfl, value⟩ := mem_dumped_str h
    exact ⟨named, value⟩
  rcases h with ((((((((((rfl | rfl | rfl) | h) | h) | h) | h) | h) | h) | h) | h) | h)
  · exact .inr ⟨List.mem_of_elem_eq_true rfl, _, rfl⟩
  · exact .inr ⟨List.mem_of_elem_eq_true rfl, _, rfl⟩
  · exact .inl rfl
  · exact .inr (text (by decide) h)
  · exact .inr (text (by decide) h)
  · exact .inr (text (by decide) h)
  · exact .inr (text (by decide) h)
  · exact .inr (text (by decide) h)
  · exact .inr (text (by decide) h)
  · exact .inr (text (by decide) h)
  · obtain ⟨named, found⟩ := mem_dumped h
    obtain ⟨level, -, eq⟩ := Option.map_eq_some_iff.mp found
    exact .inr ⟨by rw [named]; decide, _, eq.symm⟩
  · exact .inr (text (by decide) h)

theorem dump_enable (settings : FirewallRuleSettings) :
    settings.dump.lookup "enable" = some (.bool settings.enable) := by
  simp [FirewallRuleSettings.dump, List.lookup_cons]

theorem enable_mem (settings : FirewallRuleSettings) :
    ("enable", .bool settings.enable) ∈ settings.dump :=
  mem_of_lookup (dump_enable settings)

/-- `_rule` keeps of a dump what is not empty. -/
theorem kept_dump {settings : FirewallRuleSettings} {m : String × Json} (h : m ∈ settings.dump) :
    kept m = (m.2 != .str "") := by
  rcases mem_dump h with rfl | ⟨named, s, eq⟩
  · rfl
  · have outside : m.1 ∉ ["pos", "digest", "ipversion", "errors"] := by
      intro inside
      simp only [ruleFields, List.mem_cons, List.not_mem_nil, or_false] at named inside
      rcases inside with h | h | h | h <;> rw [h] at named <;> revert named <;> decide
    rw [kept, decide_eq_true outside, eq]
    simp

/-- The prediction and the command make the same of a rule. -/
theorem rule_dump {settings : FirewallRuleSettings} {r : Dict} (h : rule settings.dump = .ok r) :
    r = settings.data := by
  have normal := rule_normalized h
  rw [normalized, dump_enable, Option.getD_some] at normal
  obtain ⟨n, flagged, normal⟩ := bind_ok normal
  obtain rfl := Except.ok.inj flagged
  obtain rfl := Except.ok.inj normal
  have filtered : settings.dump.filter kept = settings.dump.filter (·.2 != .str "") :=
    List.filter_congr fun m mem => kept_dump mem
  have here : (settings.dump.filter (·.2 != .str "")).any (·.1 = "enable") = true :=
    List.any_eq_true.mpr ⟨_, List.mem_filter.mpr ⟨enable_mem settings, rfl⟩, rfl⟩
  rw [filtered, FirewallRuleSettings.data, numbered, setItem, if_pos here]
  apply List.map_congr_left
  intro m mem
  rcases mem_dump (List.mem_filter.mp mem).1 with rfl | ⟨named, s, eq⟩
  · rfl
  · have other : m.1 ≠ "enable" := by
      intro same
      rw [same] at named
      revert named
      decide
    obtain ⟨k, v⟩ := m
    simp only at eq
    simp [other, eq, number]

theorem rule_dump_normal {settings : FirewallRuleSettings} {r : Dict}
    (h : rule settings.dump = .ok r) : Normal r :=
  normalized_normal (rule_normalized h)

/-! ### Options -/

/-- Options as the configuration shows them. -/
def Flagged (options : Dict) : Prop :=
  ∀ m ∈ options, m.1 ≠ "digest" ∧ (m.1 ∈ flags → ∃ n : Int, (n = 0 ∨ n = 1) ∧ m.2 = .int n)

theorem normalizedOption_ok {m n : String × Json} (h : normalizedOption m = .ok n) :
    n.1 = m.1 ∧ (n.1 ∈ flags → ∃ k : Int, (k = 0 ∨ k = 1) ∧ n.2 = .int k) := by
  unfold normalizedOption at h
  split at h
  · obtain ⟨k, flagged, rfl⟩ := map_ok h
    exact ⟨rfl, fun _ => ⟨k, flag_ok flagged, rfl⟩⟩
  · rename_i other
    obtain rfl := Except.ok.inj h
    exact ⟨rfl, fun here => absurd here other⟩

theorem mem_right {α β : Type} {R : α → β → Prop} {xs : List α} {ys : List β}
    (h : List.Forall₂ R xs ys) {y : β} (mem : y ∈ ys) : ∃ x ∈ xs, R x y := by
  induction h with
  | nil => simp at mem
  | cons first _ ih =>
    rcases List.mem_cons.mp mem with rfl | later
    · exact ⟨_, List.mem_cons_self, first⟩
    · obtain ⟨x, inside, related⟩ := ih later
      exact ⟨x, List.mem_cons_of_mem _ inside, related⟩

theorem normalizedOptions_flagged {raw options : Dict} (h : normalizedOptions raw = .ok options) :
    Flagged options := by
  intro n mem
  obtain ⟨m, inside, ok⟩ := mem_right (mapM_ok h) mem
  obtain ⟨named, flagged⟩ := normalizedOption_ok ok
  refine ⟨?_, flagged⟩
  rw [named]
  simpa using (List.mem_filter.mp inside).2

theorem mapM_same {α : Type} {f : α → Except Failure α} {xs : List α} (h : ∀ x ∈ xs, f x = .ok x) :
    xs.mapM f = .ok xs :=
  mapM_eq (List.forall₂_same.mpr h)

theorem Flagged.same {options : Dict} (flagged : Flagged options) :
    normalizedOptions options = .ok options := by
  have all : options.filter (·.1 ≠ "digest") = options :=
    List.filter_eq_self.mpr fun m mem => by simpa using (flagged m mem).1
  rw [normalizedOptions, all]
  apply mapM_same
  intro m mem
  rw [normalizedOption]
  split
  · rename_i here
    obtain ⟨n, two, eq⟩ := (flagged m mem).2 here
    rw [eq, flag_int two]
    show Except.ok (m.1, Json.int n) = .ok m
    rw [← eq]
  · rfl

theorem Flagged.digest {options : Dict} (flagged : Flagged options) (d : Json) :
    normalizedOptions (setItem options "digest" d) = .ok options := by
  have same := flagged.same
  rw [setItem_new fun m mem => (flagged m mem).1]
  rw [normalizedOptions] at same ⊢
  rw [List.filter_append]
  simpa using same

theorem Flagged.update {options new : Dict} (flagged : Flagged options) (added : Flagged new) :
    Flagged (update options new) := by
  intro m mem
  rcases mem_update mem with h | ⟨h, -⟩
  · exact added m h
  · exact flagged m h

theorem flagged_append {a b : Dict} (ha : Flagged a) (hb : Flagged b) : Flagged (a ++ b) := by
  intro m mem
  rcases List.mem_append.mp mem with h | h
  · exact ha m h
  · exact hb m h

theorem flagged_bool {key : String} (named : key ≠ "digest") (value : Option Bool) :
    Flagged (numbered (dumped key (value.map .bool))) := by
  cases value with
  | none => intro m mem; simp [numbered, dumped] at mem
  | some b =>
    intro m mem
    obtain rfl : m = (key, .int (if b then 1 else 0)) := by simpa [numbered, dumped, number] using mem
    refine ⟨named, fun _ => ⟨_, ?_, rfl⟩⟩
    cases b
    · exact .inl rfl
    · exact .inr rfl

theorem flagged_policy {key : String} (named : key ≠ "digest") (other : key ∉ flags)
    (value : Option Policy) : Flagged (numbered (dumped key (value.map (.str ·.text)))) := by
  cases value with
  | none => intro m mem; simp [numbered, dumped] at mem
  | some p =>
    intro m mem
    obtain rfl : m = (key, .str p.text) := by simpa [numbered, dumped, number] using mem
    exact ⟨named, fun here => absurd here other⟩

theorem numbered_append (a b : Dict) : numbered (a ++ b) = numbered a ++ numbered b := List.map_append

theorem flagged_dump (o : FirewallOptionSettings) : Flagged (numbered o.dump) := by
  unfold FirewallOptionSettings.dump
  simp only [numbered_append]
  repeat' apply flagged_append
  · exact flagged_bool (by decide) _
  · exact flagged_policy (by decide) (by decide) _
  · exact flagged_policy (by decide) (by decide) _
  all_goals exact flagged_bool (by decide) _

/-! ### The prediction -/

variable {digest : Json → Except Failure String} {adapter : Adapter} {body : FirewallReviewRequest}
  {before : Configuration} {desired : Desired}

theorem row_normal {entry : Json × Nat} {result : String × Dict} (h : row entry = .ok result) :
    Normal result.2 := by
  unfold row at h
  split at h
  · obtain ⟨-, h⟩ := require_bind h
    obtain ⟨native, -, h⟩ := bind_ok h
    obtain ⟨r, accepted, h⟩ := bind_ok h
    obtain rfl := Except.ok.inj h
    exact normalized_normal (rule_normalized accepted)
  · cases h

/-- What the review reads is normal. -/
theorem configuration_normal {target : FirewallTarget} {result : AdapterResult}
    (h : configuration digest target result = .ok before) :
    (∀ r ∈ before.rules, Normal r) ∧ Flagged before.options := by
  unfold configuration at h
  split at h
  · split at h
    · obtain ⟨-, h⟩ := require_bind h
      obtain ⟨ordered, rows, h⟩ := bind_ok h
      obtain ⟨-, h⟩ := require_bind h
      obtain ⟨native, -, h⟩ := bind_ok h
      obtain ⟨options, normal, h⟩ := bind_ok h
      obtain ⟨_, -, h⟩ := bind_ok h
      obtain ⟨_, -, h⟩ := bind_ok h
      obtain rfl := Except.ok.inj h
      refine ⟨?_, normalizedOptions_flagged normal⟩
      intro r mem
      obtain ⟨result, inside, rfl⟩ := List.mem_map.mp mem
      obtain ⟨entry, -, ok⟩ := mem_right (mapM_ok rows) inside
      exact row_normal ok
    · cases h
  · cases h

/-- The ways of a prediction. -/
inductive Predicted (body : FirewallReviewRequest) (before : Configuration) : Desired → Prop
  | create {settings : FirewallRuleSettings} {r : Dict} (action : body.action = .create)
      (given : body.rule = some settings) (accepted : rule settings.dump = .ok r) :
      Predicted body before ⟨insertAt before.rules 0 r, before.options, before.identity⟩
  | delete {pos : Nat} (action : body.action = .delete) (place : body.pos = some pos) :
      Predicted body before ⟨before.rules.eraseIdx pos, before.options, before.identity⟩
  | move {pos moveto : Nat} {r : Dict} (action : body.action = .move)
      (place : body.pos = some pos) (destination : body.moveto = some moveto)
      (there : before.rules[pos]? = some r) (within : moveto < before.rules.length) :
      Predicted body before ⟨insertAt (before.rules.eraseIdx pos)
        (moveto - if pos < moveto then 1 else 0) r, before.options, before.identity⟩
  | update {pos : Nat} {settings : FirewallRuleSettings} {r : Dict}
      (action : body.action = .update) (place : body.pos = some pos)
      (given : body.rule = some settings) (accepted : rule settings.dump = .ok r) :
      Predicted body before
        ⟨before.rules.modify pos (Dictionary.update · r), before.options, before.identity⟩
  | options {o : FirewallOptionSettings} (action : body.action = .options)
      (given : body.options = some o) :
      Predicted body before
        ⟨before.rules, Dictionary.update before.options (numbered o.dump), before.identity⟩

theorem desire_predicted (h : desire body before = .ok desired) : Predicted body before desired := by
  unfold desire at h
  obtain ⟨-, h⟩ := require_bind h
  split at h
  · rename_i action given
    obtain ⟨r, accepted, h⟩ := bind_ok h
    obtain rfl := Except.ok.inj h
    exact .create action given accepted
  · rename_i action place
    obtain rfl := Except.ok.inj h
    exact .delete action place
  · rename_i action place destination
    obtain ⟨within, h⟩ := require_bind h
    simp only [Bool.and_eq_true, decide_eq_true_eq] at within
    split at h
    · rename_i there
      obtain rfl := Except.ok.inj h
      exact .move action place destination there within.1
    · cases h
  · rename_i action place given
    obtain ⟨r, accepted, h⟩ := bind_ok h
    obtain rfl := Except.ok.inj h
    exact .update action place given accepted
  · rename_i action given
    obtain rfl := Except.ok.inj h
    exact .options action given
  · cases h

/-! ### The command -/

theorem accepted_options (accepted : body.accepted = true) (other : body.action ≠ .options) :
    body.options = none := by
  simp only [FirewallReviewRequest.accepted, Bool.and_eq_true, beq_iff_eq] at accepted
  have none := accepted.1.2
  rw [decide_eq_false other] at none
  exact Option.not_isSome_iff_eq_none.mp (by rw [← none]; exact Bool.false_ne_true)

theorem commandData_create {settings : FirewallRuleSettings} (accepted : body.accepted = true)
    (action : body.action = .create) (given : body.rule = some settings) :
    commandData body before = settings.data := by
  have none := accepted_options accepted (by rw [action]; decide)
  simp [commandData, none, given, action]

theorem commandData_update {settings : FirewallRuleSettings} (accepted : body.accepted = true)
    (action : body.action = .update) (given : body.rule = some settings) :
    commandData body before
      = setItem settings.data "digest" (optionalText before.rulesDigest) := by
  have none := accepted_options accepted (by rw [action]; decide)
  simp [commandData, none, given, action]

theorem commandData_move {moveto : Nat} (action : body.action = .move)
    (destination : body.moveto = some moveto) :
    (commandData body before).lookup "moveto" = some (.int moveto) := by
  have data : commandData body before
      = setItem [("moveto", .int moveto)] "digest" (optionalText before.rulesDigest) := by
    simp [commandData, action, destination, optional]
  rw [data, lookup_setItem_ne (by decide)]
  rfl

theorem commandData_options {o : FirewallOptionSettings} (action : body.action = .options)
    (given : body.options = some o) :
    commandData body before
      = setItem (numbered o.dump) "digest" (.str before.optionsDigest) := by
  simp [commandData, given, action]

/-- The digest of a command comes after its other data. -/
theorem update_digest {d w : Dict} (unnamed : ∀ m ∈ w, m.1 ≠ "digest") (v : Json) :
    Dictionary.update d (setItem w "digest" v)
      = setItem (Dictionary.update d w) "digest" v := by
  rw [setItem_new unnamed, update_append]
  rfl

theorem forall₂_modify {α : Type} {R : α → α → Prop} {f g : α → α} {xs : List α}
    (same : ∀ x ∈ xs, R x x) (changed : ∀ x ∈ xs, R (f x) (g x)) (i : Nat) :
    List.Forall₂ R (xs.modify i f) (xs.modify i g) := by
  induction xs generalizing i with
  | nil => simp
  | cons x xs ih =>
    obtain ⟨first, rest⟩ := List.forall_mem_cons.mp same
    obtain ⟨first', rest'⟩ := List.forall_mem_cons.mp changed
    cases i with
    | zero => exact .cons first' (List.forall₂_same.mpr rest)
    | succ i => exact .cons first (ih rest rest' i)

theorem Stored.normalized_eq {s : Stored} {rules : List Dict} {options : Dict}
    (hr : s.rules.mapM Firewall.normalized = .ok rules)
    (ho : normalizedOptions s.options = .ok options) : s.normalized = .ok ⟨rules, options⟩ := by
  rw [Stored.normalized, hr, ok_bind rfl, ho]
  rfl

/-- The prediction is the effect of the command. -/
theorem Predicted.effect (predicted : Predicted body before desired)
    (accepted : body.accepted = true) (rules : ∀ r ∈ before.rules, Normal r)
    (options : Flagged before.options) :
    (effect (command body before) ⟨before.rules, before.options⟩).normalized
      = .ok ⟨desired.rules, desired.options⟩ := by
  have unchanged : before.rules.mapM normalized = .ok before.rules :=
    mapM_same fun r mem => (rules r mem).same
  cases predicted with
  | create action given ok =>
    have data : commandData body before = _ := commandData_create accepted action given
    obtain rfl := rule_dump ok
    simp only [Firewall.effect, command, action, data]
    exact Stored.normalized_eq (mapM_cons_eq (rule_dump_normal ok).same unchanged) options.same
  | delete action place =>
    simp only [Firewall.effect, command, action, place]
    refine Stored.normalized_eq (mapM_same fun r mem => ?_) options.same
    exact (rules r (List.mem_of_mem_eraseIdx mem)).same
  | @move pos moveto r action place destination there within =>
    simp only [Firewall.effect, command, action, place, commandData_move action destination,
      Int.toNat_natCast, movedBefore_eq there within]
    refine Stored.normalized_eq (mapM_same fun x mem => ?_) options.same
    rcases List.mem_cons.mp ((insertAt_perm _ _ r).mem_iff.mp mem) with rfl | other
    · exact (rules _ (List.mem_of_getElem? there)).same
    · exact (rules x (List.mem_of_mem_eraseIdx other)).same
  | @update pos settings r action place given ok =>
    have data : commandData body before = _ := commandData_update accepted action given
    have normal := rule_dump_normal ok
    obtain rfl := rule_dump ok
    simp only [Firewall.effect, command, action, place, data]
    refine Stored.normalized_eq (mapM_eq (forall₂_modify ?_ ?_ pos)) options.same
    · intro x mem
      exact (rules x mem).same
    · intro x mem
      rw [update_digest normal.unnamed]
      exact ((rules x mem).update normal).digest _
  | @options o action given =>
    have new := flagged_dump o
    simp only [Firewall.effect, command, action, commandData_options action given]
    rw [update_digest fun m mem => (new m mem).1]
    exact Stored.normalized_eq unchanged ((options.update new).digest _)

/-! ### What stays -/

/-- A command leaves every other rule and option alone. -/
def LeavesOthers (body : FirewallReviewRequest) (before : Configuration) (desired : Desired) : Prop :=
  desired.identity = before.identity ∧
  (body.action ≠ .options → desired.options = before.options) ∧
  match body.action, body.pos with
  | .create, _ => desired.rules.tail = before.rules
  | .update, some pos =>
    desired.rules.length = before.rules.length ∧
      (∀ i, i ≠ pos → desired.rules[i]? = before.rules[i]?) ∧
      ∀ k, (∀ m ∈ commandData body before, m.1 ≠ k) →
        (desired.rules[pos]?.bind fun r => r.lookup k) = before.rules[pos]?.bind fun r => r.lookup k
  | .delete, some pos => desired.rules = before.rules.eraseIdx pos
  | .move, some pos =>
    desired.rules.Perm before.rules ∧
      ∃ place : Nat, desired.rules[place]? = before.rules[pos]? ∧
        desired.rules.eraseIdx place = before.rules.eraseIdx pos
  | .options, _ =>
    desired.rules = before.rules ∧
      ∀ k, (∀ m ∈ commandData body before, m.1 ≠ k) →
        desired.options.lookup k = before.options.lookup k
  | _, none => False

theorem mem_setItem_of_ne {d : Dict} {k : String} {v : Json} {m : String × Json} (mem : m ∈ d)
    (other : m.1 ≠ k) : m ∈ setItem d k v := by
  unfold setItem
  split
  · exact List.mem_map.mpr ⟨m, mem, if_neg other⟩
  · exact List.mem_append_left _ mem

theorem Predicted.leavesOthers (predicted : Predicted body before desired)
    (accepted : body.accepted = true) : LeavesOthers body before desired := by
  unfold LeavesOthers
  cases predicted with
  | create action given ok =>
    rw [action]
    exact ⟨rfl, fun _ => rfl, rfl⟩
  | delete action place =>
    rw [action, place]
    exact ⟨rfl, fun _ => rfl, rfl⟩
  | @move pos moveto r action place destination there within =>
    rw [action, place]
    have inside : pos < before.rules.length := (List.getElem?_eq_some_iff.mp there).1
    have fits : (moveto - if pos < moveto then 1 else 0) ≤ (before.rules.eraseIdx pos).length := by
      rw [List.length_eraseIdx, if_pos inside]
      split <;> omega
    refine ⟨rfl, fun _ => rfl, ?_, _, (getElem?_insertAt fits).trans there.symm,
      eraseIdx_insertAt fits⟩
    have taken : before.rules[pos] = r := (List.getElem?_eq_some_iff.mp there).2
    exact (insertAt_perm _ _ r).trans (taken ▸ List.getElem_cons_eraseIdx_perm inside)
  | @update pos settings r action place given ok =>
    have data : commandData body before = _ := commandData_update accepted action given
    have normal := rule_dump_normal ok
    obtain rfl := rule_dump ok
    rw [data, action, place]
    refine ⟨rfl, fun _ => rfl, List.length_modify .., ?_, ?_⟩
    · intro i other
      exact List.getElem?_modify_ne _ _ (Ne.symm other)
    · intro k unset
      have kept : ∀ m ∈ settings.data, m.1 ≠ k := fun m mem =>
        unset m (mem_setItem_of_ne mem (normal.unnamed m mem))
      rw [List.getElem?_modify_eq]
      cases before.rules[pos]? with
      | none => rfl
      | some old => exact lookup_update_other kept
  | @options o action given =>
    rw [commandData_options action given, action]
    refine ⟨rfl, fun other => absurd rfl other, rfl, ?_⟩
    intro k unset
    exact lookup_update_other fun m mem =>
      unset m (mem_setItem_of_ne mem (flagged_dump o m mem).1)

/-- A reviewed state is what the command sent for it does, and nothing else changes. -/
theorem review_predicts_effect {review : Review} (accepted : body.accepted = true)
    (h : reviewState digest adapter body = .ok review) :
    (effect (command body review.before) ⟨review.before.rules, review.before.options⟩).normalized
        = .ok ⟨review.desired.rules, review.desired.options⟩ ∧
      LeavesOthers body review.before review.desired ∧
      ∀ expected sent, applyFirewall digest adapter body expected = .ok sent →
        sent = (command body review.before, review.desired) := by
  have reviewed := h
  unfold reviewState at h
  obtain ⟨before, read, h⟩ := bind_ok h
  obtain ⟨_, -, h⟩ := bind_ok h
  obtain ⟨desired, ok, h⟩ := bind_ok h
  obtain ⟨_, -, h⟩ := bind_ok h
  obtain rfl := Except.ok.inj h
  obtain ⟨rules, options⟩ := configuration_normal read
  have predicted := desire_predicted ok
  refine ⟨predicted.effect accepted rules options, predicted.leavesOthers accepted, ?_⟩
  intro expected sent applied
  rw [applyFirewall, reviewed, ok_bind rfl] at applied
  exact (Except.ok.inj (require_bind applied).2).symm

/-- A rule as the provider lists it. -/
def listed (pos : Int) (action type : String) (enable : Int) : Json :=
  .obj [("pos", .int pos), ("digest", .str (String.ofList (List.replicate 40 'a'))),
    ("action", .str action), ("type", .str type), ("enable", .int enable)]

/-- Three rules of a cluster. -/
def cluster : Adapter where
  configuration := fun _ => ⟨true, .obj
    [("rules", .arr [listed 0 "ACCEPT" "in" 1, listed 1 "DROP" "in" 0, listed 2 "REJECT" "out" 1]),
      ("options", .obj [("digest", .str (String.ofList (List.replicate 40 'b'))), ("enable", .int 1)]),
      ("identity", .null)]⟩
  permissions := fun _ => ⟨true, .obj [("Sys.Audit", .int 1), ("Sys.Modify", .int 1)]⟩

/-- The first rule is moved before the third. -/
def moveFirst : FirewallReviewRequest where
  target := ⟨.cluster, none, none, none⟩
  action := .move
  pos := some 0
  moveto := some 2
  rule := none
  options := none

/-- The digests of the configuration and of the review. -/
def clusterDigest (value : Json) : Except Failure String :=
  match value with
  | .obj (("request", _) :: _) =>
    .ok "66c31681fc8ddbe8416cb94ff9b64340ae7a349ddcc1f081847c0192d7942a72"
  | _ => .ok "d4fca27966fd57c53474a0501521be56c19795a687e9770f822467b479d7fa7f"

theorem moveFirst_predicted :
    ∃ review, reviewState clusterDigest cluster moveFirst = .ok review ∧
      review.desired.rules.map (·.lookup "action")
        = [some (.str "DROP"), some (.str "ACCEPT"), some (.str "REJECT")] ∧
      (effect (command moveFirst review.before)
        ⟨review.before.rules, review.before.options⟩).normalized
          = .ok ⟨review.desired.rules, review.desired.options⟩ := by
  refine ⟨_, rfl, rfl, ?_⟩
  exact (review_predicts_effect (by decide) (show reviewState clusterDigest cluster moveFirst = _
    from rfl)).1

end FreeSdn.Hypervisor.Firewall
