import FreeSdn.Fabric.Negotiator
import FreeSdn.Lib.Pattern

/-! Event type patterns.  A subscription of the bus (`core/events.py`) translates its pattern to a
regular expression, and the negotiator slices the text of its own. -/

namespace FreeSdn.Fabric

open FreeSdn.Lib

/-- `str.replace` of a character. -/
def replaceChar (old : Char) (new : String) (text : List Char) : List Char :=
  text.flatMap fun c => if c = old then new.toList else [c]

/-- The regular expression that `EventSubscription.matches` builds, between its anchors. -/
def regexText (pattern : List Char) : List Char :=
  replaceChar '#' ".*" (replaceChar '*' "[^.]+" (replaceChar '.' "\\." pattern))

/-- The characters that do not stand for themselves in a regular expression, or that the translation
replaces, and the newline, which the expressions treat apart. -/
def special : List Char :=
  ['.', '*', '#', '\\', '^', '$', '+', '?', '\x7b', '\x7d', '[', ']', '|', '(', ')', '\n']

/-- `[^.]`. -/
def notDot (c : Char) : Bool := c != '.'

/-- `.`, without `re.DOTALL`. -/
def notNewline (c : Char) : Bool := c != '\n'

/-- The regular expressions of literals, escapes, `[^.]+` and `.*`; `none` for any other. -/
def readRegex : List Char → Option (List Piece)
  | [] => some []
  | '\\' :: c :: cs => (readRegex cs).map (.literal c :: ·)
  | '[' :: '^' :: '.' :: ']' :: '+' :: cs => (readRegex cs).map (.some notDot :: ·)
  | '.' :: '*' :: cs => (readRegex cs).map (.many notNewline :: ·)
  | c :: cs => if c ∈ special then none else (readRegex cs).map (.literal c :: ·)

/-- `$`: the end, or in front of a last newline. -/
def atEnd (cs : List Char) : Bool := cs = [] || cs = ['\n']

/-- `EventSubscription.matches` on the characters, where the regular expression is one of those
above. -/
def subscriptionMatchesChars (eventType pattern : List Char) : Option Bool :=
  if pattern = ['*'] then some true
  else (readRegex (regexText pattern)).map fun pieces => fits atEnd pieces eventType

/-- `EventSubscription.matches`. -/
def subscriptionMatches (eventType pattern : String) : Option Bool :=
  subscriptionMatchesChars eventType.toList pattern.toList

/-! ### Dotted names -/

def isNameChar (c : Char) : Bool := c ∉ special

/-- A name of characters that stand for themselves, with dots; a segment may be empty. -/
def isDotted (cs : List Char) : Bool := cs.all fun c => isNameChar c || c = '.'

/-- The patterns of a Connection. -/
inductive Grammar : List Char → Prop
  | any : Grammar ['*']
  | exact {name : List Char} : isDotted name = true → Grammar name
  | segment {name : List Char} : isDotted name = true → Grammar (name ++ ['.', '*'])
  | rest {name : List Char} : isDotted name = true → Grammar (name ++ ['.', '#'])

variable {name cs back : List Char}

theorem isNameChar_ne {c d : Char} (h : isNameChar c = true) (mem : d ∈ special) : c ≠ d := by
  rintro rfl
  simp [isNameChar, mem] at h

/-- A name character in front is read as itself. -/
theorem readRegex_name {c : Char} (h : isNameChar c = true) :
    readRegex (c :: cs) = (readRegex cs).map (.literal c :: ·) := by
  have slash : c ≠ '\\' := isNameChar_ne h (by decide)
  have bracket : c ≠ '[' := isNameChar_ne h (by decide)
  have dot : c ≠ '.' := isNameChar_ne h (by decide)
  have plain : c ∉ special := by simpa [isNameChar] using h
  rw [readRegex]
  · rw [if_neg plain]
  · intro _ _ same
    exact absurd same slash
  · intro _ same
    exact absurd same bracket
  · intro _ same
    exact absurd same dot

theorem replaceChar_append (old : Char) (new : String) (a b : List Char) :
    replaceChar old new (a ++ b) = replaceChar old new a ++ replaceChar old new b :=
  List.flatMap_append

theorem regexText_append (a b : List Char) : regexText (a ++ b) = regexText a ++ regexText b := by
  simp only [regexText, replaceChar_append]

theorem regexText_name {c : Char} (h : isNameChar c = true) : regexText [c] = [c] := by
  have dot : c ≠ '.' := isNameChar_ne h (by decide)
  have star : c ≠ '*' := isNameChar_ne h (by decide)
  have hash : c ≠ '#' := isNameChar_ne h (by decide)
  simp [regexText, replaceChar, dot, star, hash]

/-- A dotted name in front of an expression is read as its characters. -/
theorem readRegex_dotted (h : isDotted name = true) :
    readRegex (regexText name ++ back) = (readRegex back).map (name.map Piece.literal ++ ·) := by
  induction name with
  | nil =>
    show readRegex back = _
    cases readRegex back <;> rfl
  | cons c name ih =>
    simp only [isDotted, List.all_cons, Bool.and_eq_true] at h
    rw [← List.singleton_append, regexText_append, List.append_assoc]
    have later := ih (by simpa [isDotted] using h.2)
    by_cases dot : c = '.'
    · subst dot
      show readRegex ('\\' :: '.' :: (regexText name ++ back)) = _
      rw [readRegex, later]
      cases readRegex back <;> rfl
    · have plain : isNameChar c = true := by simpa [dot] using h.1
      rw [regexText_name plain, List.singleton_append, readRegex_name plain, later]
      cases readRegex back <;> rfl

theorem dotted_not_mem {c : Char} (h : isDotted name = true) (mem : c ∈ special) (dot : c ≠ '.') :
    c ∉ name := by
  intro inside
  have here := List.all_eq_true.mp h c inside
  simp only [Bool.or_eq_true, decide_eq_true_eq] at here
  rcases here with plain | same
  · exact isNameChar_ne plain mem rfl
  · exact dot same

theorem dotted_append {a b : List Char} (h : isDotted (a ++ b) = true) : isDotted b = true := by
  simp only [isDotted, List.all_append, Bool.and_eq_true] at h ⊢
  exact h.2

/-- No newline ends a dotted name. -/
theorem atEnd_dotted (h : isDotted cs = true) : atEnd cs = true ↔ cs = [] := by
  have free := dotted_not_mem (c := '\n') h (by decide) (by decide)
  constructor
  · intro ends
    simp only [atEnd, Bool.or_eq_true, decide_eq_true_eq] at ends
    rcases ends with rfl | rfl
    · rfl
    · simp at free
  · rintro rfl
    rfl

/-! ### The two matchers -/

theorem fits_exact (h : isDotted cs = true) : fits atEnd (name.map Piece.literal) cs = true ↔ cs = name := by
  rw [← List.append_nil (name.map Piece.literal), fits_literals]
  constructor
  · rintro ⟨back, rfl, ends⟩
    rw [(atEnd_dotted (dotted_append h)).mp ends, List.append_nil]
  · rintro rfl
    exact ⟨[], by simp, rfl⟩

theorem fits_segment (h : isDotted cs = true) :
    fits atEnd (name.map Piece.literal ++ [.literal '.', .some notDot]) cs = true ↔
      ∃ back, cs = name ++ '.' :: back ∧ back ≠ [] ∧ '.' ∉ back := by
  rw [fits_literals]
  constructor
  · rintro ⟨rest, rfl, ends⟩
    cases rest with
    | nil => simp [fits, Piece.literal] at ends
    | cons c rest =>
      simp only [Piece.literal, fits, Bool.and_eq_true, beq_iff_eq] at ends
      obtain ⟨rfl, ends⟩ := ends
      cases rest with
      | nil => simp [fits] at ends
      | cons d rest =>
        simp only [fits, Bool.and_eq_true] at ends
        obtain ⟨front, tail, rfl, all, final⟩ := repeatThen_iff.mp ends.2
        have none_left : tail = [] := by
          apply (atEnd_dotted ?_).mp final
          have : name ++ '.' :: d :: (front ++ tail) = (name ++ '.' :: d :: front) ++ tail := by simp
          rw [this] at h
          exact dotted_append h
        subst none_left
        refine ⟨d :: (front ++ []), rfl, by simp, ?_⟩
        rw [List.append_nil]
        intro dot
        rcases List.mem_cons.mp dot with rfl | later
        · simp [notDot] at ends
        · simpa [notDot] using List.all_eq_true.mp all _ later
  · rintro ⟨back, rfl, some_, free⟩
    refine ⟨'.' :: back, rfl, ?_⟩
    cases back with
    | nil => simp at some_
    | cons d back =>
      simp only [Piece.literal, fits, Bool.and_eq_true, beq_self_eq_true, true_and]
      simp only [List.mem_cons, not_or] at free
      have here : d ≠ '.' := fun same => free.1 same.symm
      refine ⟨by simpa [notDot] using here, repeatThen_iff.mpr ⟨back, [], by simp, ?_, rfl⟩⟩
      rw [List.all_eq_true]
      intro c mem
      have : c ≠ '.' := fun same => free.2 (same ▸ mem)
      simpa [notDot] using this

theorem fits_rest (h : isDotted cs = true) :
    fits atEnd (name.map Piece.literal ++ [.literal '.', .many notNewline]) cs = true ↔
      ∃ back, cs = name ++ '.' :: back := by
  rw [fits_literals]
  constructor
  · rintro ⟨rest, rfl, ends⟩
    cases rest with
    | nil => simp [fits, Piece.literal] at ends
    | cons c rest =>
      simp only [Piece.literal, fits, Bool.and_eq_true, beq_iff_eq] at ends
      obtain ⟨rfl, -⟩ := ends
      exact ⟨rest, rfl⟩
  · rintro ⟨back, rfl⟩
    refine ⟨'.' :: back, rfl, ?_⟩
    simp only [Piece.literal, fits, Bool.and_eq_true, beq_self_eq_true, true_and]
    refine repeatThen_iff.mpr ⟨back, [], by simp, ?_, rfl⟩
    rw [List.all_eq_true]
    intro c mem
    have : c ≠ '\n' := by
      rintro rfl
      exact dotted_not_mem (c := '\n') h (by decide) (by decide) (by simp [mem])
    simpa [notNewline] using this

theorem suffix_two {c d : Char} : ['.', c].isSuffixOf (name ++ ['.', d]) = decide (c = d) := by
  rw [Bool.eq_iff_iff, List.isSuffixOf_iff_suffix, decide_eq_true_eq]
  constructor
  · rintro ⟨front, same⟩
    have := (List.append_inj' same rfl).2
    simpa using this
  · rintro rfl
    exact ⟨name, rfl⟩

theorem take_front {c d : Char} : (name ++ [c, d]).take ((name ++ [c, d]).length - 2) = name := by simp

theorem drop_front (front back : List Char) : (front ++ '.' :: back).drop (front.length + 1) = back := by
  rw [← List.singleton_append, ← List.append_assoc, List.drop_left' (by simp)]

theorem prefix_dot : (name ++ ['.']).isPrefixOf cs = true ↔ ∃ back, cs = name ++ '.' :: back := by
  rw [List.isPrefixOf_iff_prefix]
  constructor
  · rintro ⟨back, rfl⟩
    exact ⟨back, by simp⟩
  · rintro ⟨back, rfl⟩
    exact ⟨back, by simp⟩

theorem eventMatches_exact (h : isDotted name = true) : eventMatchesChars cs name = true ↔ cs = name := by
  have star := dotted_not_mem (c := '*') h (by decide) (by decide)
  have hash := dotted_not_mem (c := '#') h (by decide) (by decide)
  have any : name ≠ ['*'] := by
    rintro rfl
    simp at star
  have segment : ['.', '*'].isSuffixOf name = false := by
    rw [Bool.eq_false_iff, ne_eq, List.isSuffixOf_iff_suffix]
    exact fun suffix => star (suffix.mem (by simp))
  have rest : ['.', '#'].isSuffixOf name = false := by
    rw [Bool.eq_false_iff, ne_eq, List.isSuffixOf_iff_suffix]
    exact fun suffix => hash (suffix.mem (by simp))
  unfold eventMatchesChars
  simp [any, segment, rest, eq_comm]

theorem eventMatches_segment (h : isDotted cs = true) :
    eventMatchesChars cs (name ++ ['.', '*']) = true ↔ ∃ back, cs = name ++ '.' :: back ∧ '.' ∉ back := by
  have star := dotted_not_mem (c := '*') h (by decide) (by decide)
  have any : name ++ ['.', '*'] ≠ ['*'] := by
    intro same
    have := congrArg List.length same
    simp at this
  have other : name ++ ['.', '*'] ≠ cs := by
    rintro rfl
    simp at star
  unfold eventMatchesChars
  rw [if_neg (by simp only [any, other, or_self, not_false_eq_true]), take_front, if_pos (by simp [suffix_two])]
  constructor
  · intro found
    split at found
    · next starts =>
      obtain ⟨back, rfl⟩ := prefix_dot.mp starts
      rw [drop_front] at found
      exact ⟨back, rfl, by simpa using found⟩
    · cases found
  · rintro ⟨back, rfl, free⟩
    rw [if_pos (prefix_dot.mpr ⟨back, rfl⟩), drop_front]
    simpa using free

theorem eventMatches_rest (h : isDotted cs = true) :
    eventMatchesChars cs (name ++ ['.', '#']) = true ↔ cs = name ∨ ∃ back, cs = name ++ '.' :: back := by
  have hash := dotted_not_mem (c := '#') h (by decide) (by decide)
  have any : name ++ ['.', '#'] ≠ ['*'] := by
    intro same
    have := congrArg List.length same
    simp at this
  have other : name ++ ['.', '#'] ≠ cs := by
    rintro rfl
    simp at hash
  unfold eventMatchesChars
  rw [if_neg (by simp only [any, other, or_self, not_false_eq_true]), take_front,
    if_neg (by simp [suffix_two]), if_pos (by simp [suffix_two])]
  rw [Bool.or_eq_true, prefix_dot, decide_eq_true_eq]

/-- What the translated expressions of the grammar are. -/
theorem readRegex_exact (h : isDotted name = true) :
    readRegex (regexText name) = some (name.map Piece.literal) := by
  rw [← List.append_nil (regexText name), readRegex_dotted h]
  simp [readRegex]

theorem readRegex_segment (h : isDotted name = true) : readRegex (regexText (name ++ ['.', '*'])) =
    some (name.map Piece.literal ++ [.literal '.', .some notDot]) := by
  rw [regexText_append, readRegex_dotted h]
  rfl

theorem readRegex_rest (h : isDotted name = true) : readRegex (regexText (name ++ ['.', '#'])) =
    some (name.map Piece.literal ++ [.literal '.', .many notNewline]) := by
  rw [regexText_append, readRegex_dotted h]
  rfl

theorem agree_iff {a b : Bool} : some a = some b ↔ (a = true ↔ b = true) := by
  rw [Option.some.injEq, Bool.eq_iff_iff]

theorem subscriptionMatches_of {pieces : List Piece} {pattern : List Char} (any : pattern ≠ ['*'])
    (read : readRegex (regexText pattern) = some pieces) :
    subscriptionMatchesChars cs pattern = some (fits atEnd pieces cs) := by
  rw [subscriptionMatchesChars, if_neg any, read]
  rfl

theorem agree_segment (h : isDotted name = true) (dotted : isDotted cs = true) :
    subscriptionMatchesChars cs (name ++ ['.', '*']) = some (eventMatchesChars cs (name ++ ['.', '*'])) ↔
      cs ≠ name ++ ['.'] := by
  have any : name ++ ['.', '*'] ≠ ['*'] := by
    intro same
    have := congrArg List.length same
    simp at this
  rw [subscriptionMatches_of any (readRegex_segment h), agree_iff, fits_segment dotted,
    eventMatches_segment dotted]
  constructor
  · rintro same rfl
    obtain ⟨back, split, some_, -⟩ := same.mpr ⟨[], rfl, by simp⟩
    have tail : ['.'] = '.' :: back := List.append_inj_right split rfl
    exact some_ (List.cons.inj tail).2.symm
  · intro longer
    constructor
    · rintro ⟨back, split, -, free⟩
      exact ⟨back, split, free⟩
    · rintro ⟨back, rfl, free⟩
      refine ⟨back, rfl, ?_, free⟩
      rintro rfl
      exact longer rfl

theorem agree_rest (h : isDotted name = true) (dotted : isDotted cs = true) :
    subscriptionMatchesChars cs (name ++ ['.', '#']) = some (eventMatchesChars cs (name ++ ['.', '#'])) ↔
      cs ≠ name := by
  have any : name ++ ['.', '#'] ≠ ['*'] := by
    intro same
    have := congrArg List.length same
    simp at this
  rw [subscriptionMatches_of any (readRegex_rest h), agree_iff, fits_rest dotted,
    eventMatches_rest dotted]
  constructor
  · rintro same rfl
    obtain ⟨back, split⟩ := same.mpr (.inl rfl)
    simp at split
  · intro other
    simp [other]

/-- The matchers agree on a pattern of the grammar except on the bare prefix of a `#` pattern, and on
the prefix of a `*` pattern with an empty segment behind it. -/
theorem agree_chars {pattern : List Char} (dotted : isDotted cs = true) (grammar : Grammar pattern) :
    subscriptionMatchesChars cs pattern = some (eventMatchesChars cs pattern) ↔
      pattern ≠ cs ++ ['.', '#'] ∧ ∀ front, cs = front ++ ['.'] → pattern ≠ front ++ ['.', '*'] := by
  cases grammar with
  | any =>
    refine ⟨fun _ => ⟨?_, ?_⟩, fun _ => by simp [subscriptionMatchesChars, eventMatchesChars]⟩
    · intro same
      have := congrArg List.length same
      simp at this
    · intro front _ same
      have := congrArg List.length same
      simp at this
  | exact h =>
    have star := dotted_not_mem (c := '*') h (by decide) (by decide)
    have hash := dotted_not_mem (c := '#') h (by decide) (by decide)
    have any : pattern ≠ ['*'] := by
      rintro rfl
      simp at star
    rw [subscriptionMatches_of any (readRegex_exact h), agree_iff, fits_exact dotted,
      eventMatches_exact h]
    refine ⟨fun _ => ⟨?_, ?_⟩, fun _ => Iff.rfl⟩
    · rintro rfl
      simp at hash
    · rintro front - rfl
      simp at star
  | @segment name h =>
    rw [agree_segment h dotted]
    constructor
    · intro longer
      refine ⟨?_, ?_⟩
      · intro same
        simpa using (List.append_inj' same rfl).2
      · intro front split same
        rw [(List.append_inj' same rfl).1] at longer
        exact longer split
    · intro apart split
      exact apart.2 name split rfl
  | @rest name h =>
    rw [agree_rest h dotted]
    constructor
    · intro other
      refine ⟨?_, ?_⟩
      · intro same
        exact other (List.append_inj' same rfl).1.symm
      · intro front split same
        simpa using (List.append_inj' same rfl).2
    · rintro apart rfl
      exact apart.1 rfl

/-- A Connection pattern and a subscription of the same text match the same event types, except that
the Connection pattern `a.#` also matches `a`, and `a.*` also matches `a.`. -/
theorem connection_patterns_agree (eventType pattern : String)
    (dotted : isDotted eventType.toList = true) (grammar : Grammar pattern.toList) :
    subscriptionMatches eventType pattern = some (eventMatches eventType pattern) ↔
      pattern ≠ eventType ++ ".#" ∧ ∀ front, eventType = front ++ "." → pattern ≠ front ++ ".*" := by
  have agree := agree_chars dotted grammar
  rw [show subscriptionMatches eventType pattern =
      subscriptionMatchesChars eventType.toList pattern.toList from rfl,
    show eventMatches eventType pattern = eventMatchesChars eventType.toList pattern.toList from rfl,
    agree]
  constructor
  · rintro ⟨bare, empty⟩
    refine ⟨?_, ?_⟩
    · rintro rfl
      exact bare (by simp)
    · rintro front rfl rfl
      exact empty front.toList (by simp) (by simp)
  · rintro ⟨bare, empty⟩
    refine ⟨?_, ?_⟩
    · intro same
      exact bare (String.toList_injective (by simpa using same))
    · intro front split same
      have whole : eventType = String.ofList front ++ "." := String.toList_injective (by simpa using split)
      exact empty (String.ofList front) whole (String.toList_injective (by simpa using same))

theorem device_name_agree : subscriptionMatches "device.created" "device.*" =
    some (eventMatches "device.created" "device.*") := by
  apply (connection_patterns_agree "device.created" "device.*" (by decide)
    (@Grammar.segment "device".toList (by decide))).mpr
  constructor
  · decide
  · intro front whole
    have last := congrArg (fun s => s.toList.getLast?) whole
    simp at last

theorem bare_prefix_disagree : subscriptionMatches "device" "device.#" = some false ∧
    eventMatches "device" "device.#" = true := by decide

end FreeSdn.Fabric
