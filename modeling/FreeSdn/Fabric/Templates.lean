import FreeSdn.Fabric.Chain

/-! What template resolution takes from the context and what it leaves of the template.  The pieces of
a template string are read off the template alone, so text from the context is never read for
references; every reference of the template is one of the pieces. -/

namespace FreeSdn.Fabric

open FreeSdn.Lib

/-! ### References of a template -/

/-- A reference to the path stands somewhere in the text. -/
def Occurs (path cs : List Char) : Prop :=
  ∃ front back rest, cs = front ++ back ∧ readReference back = some (path, rest)

mutual
/-- The strings of a template.  The keys of its objects are not among them. -/
def texts : Json → List String
  | .str text => [text]
  | .arr items => itemTexts items
  | .obj members => memberTexts members
  | _ => []

def itemTexts : List Json → List String
  | [] => []
  | v :: vs => texts v ++ itemTexts vs

def memberTexts : List (String × Json) → List String
  | [] => []
  | (_, v) :: rest => texts v ++ memberTexts rest
end

/-- A piece of a template string: a character, or a reference with its path. -/
inductive Segment
  | literal (c : Char)
  | reference (written path : List Char)
  deriving DecidableEq

namespace Segment

def source : Segment → List Char
  | literal c => [c]
  | reference written _ => written

def render (r : Rendering) (context : Json) : Segment → Option (List Char)
  | literal c => some [c]
  | reference _ path => renderReference r context path

end Segment

/-- The pieces of a text, read from the left; the first argument bounds the turns. -/
def segments : Nat → List Char → List Segment
  | 0, _ => []
  | _, [] => []
  | turns + 1, c :: cs =>
    match readReference (c :: cs) with
    | some (path, rest) =>
      .reference ((c :: cs).take ((c :: cs).length - rest.length)) path :: segments turns rest
    | none => .literal c :: segments turns cs

def segmentsOf (text : String) : List Segment := segments text.length text.toList

/-- The text of the pieces, unless one of them raises. -/
def renderSegments (r : Rendering) (context : Json) : List Segment → Option (List Char)
  | [] => some []
  | piece :: pieces => do
    let text ← piece.render r context
    let behind ← renderSegments r context pieces
    return text ++ behind

/-! ### Resolved values -/

section
variable (r : Rendering) (context : Json)

/-- What `_cap_object` puts in the place of an object or list that is too large. -/
def truncationMarker : Json := .obj [("__truncated__", .str "resolved value exceeded 262144 bytes")]

/-- `w` stands where a whole string was a reference to `value`. -/
def Replaced (value w : Json) : Prop :=
  match value with
  | .str s => ∃ t, w = .str t ∧ t.length ≤ maxRenderedStr ∧ t.toList = s.toList.take maxRenderedStr
  | .null | .bool _ | .int _ | .float _ => w = value
  | .obj _ | .arr _ =>
    w = value ∧ (∃ size, r.dumped value = some size ∧ size ≤ maxRefObjectBytes) ∨
      w = truncationMarker ∨ w = .null ∧ r.dumped value = none

/-- `w` is what a template string became: the value of the reference that it is, or the text of its
pieces. -/
def ResolvedText (text : String) (w : Json) : Prop :=
  match wholeReference text.toList with
  | some path => ∃ value, lookup path context = some value ∧ Replaced r value w
  | none => ∃ rendered s, renderSegments r context (segmentsOf text) = some rendered ∧ w = .str s ∧
      s.length ≤ maxRenderedStr ∧ s.toList = rendered.take maxRenderedStr

mutual
/-- `w` is what a template became: its strings are resolved, its keys are as they were, and nothing is
left of what is nested too deeply. -/
def Resolved (depth : Nat) : Json → Json → Prop
  | .str text, w => ResolvedText r context text w
  | .obj members, w =>
    12 < depth ∧ w = .null ∨
      depth ≤ 12 ∧ ∃ resolved, w = .obj resolved ∧ ResolvedMembers (depth + 1) members resolved
  | .arr items, w =>
    12 < depth ∧ w = .null ∨
      depth ≤ 12 ∧ ∃ resolved, w = .arr resolved ∧ ResolvedItems (depth + 1) items resolved
  | v, w => 12 < depth ∧ w = .null ∨ depth ≤ 12 ∧ w = v

def ResolvedItems (depth : Nat) : List Json → List Json → Prop
  | [], ws => ws = []
  | v :: vs, ws => ∃ w rest, ws = w :: rest ∧ Resolved depth v w ∧ ResolvedItems depth vs rest

def ResolvedMembers (depth : Nat) : List (String × Json) → List (String × Json) → Prop
  | [], ws => ws = []
  | (key, v) :: vs, ws =>
    ∃ w rest, ws = (key, w) :: rest ∧ Resolved depth v w ∧ ResolvedMembers depth vs rest
end

end

/-! ### Reading references -/

section
variable {cs front back path rest : List Char} {r : Rendering} {context context' : Json}

/-- The text of a reference: two braces, and then none before its end. -/
theorem readReference_split (h : readReference cs = some (path, rest)) :
    ∃ inner, cs = '\x7b' :: '\x7b' :: inner ++ rest ∧ inner ≠ [] ∧ '\x7b' ∉ inner := by
  unfold readReference at h
  split at h
  · rename_i tail
    dsimp only at h
    split at h
    · rename_i after closed
      split at h
      · cases h
      obtain ⟨rfl, rfl⟩ := Prod.mk.inj (Option.some.inj h)
      have first := List.takeWhile_append_dropWhile (p := isWhitespace) (l := tail)
      have second := List.takeWhile_append_dropWhile (p := isPathChar) (l := tail.dropWhile isWhitespace)
      have third := List.takeWhile_append_dropWhile (p := isWhitespace)
        (l := (tail.dropWhile isWhitespace).dropWhile isPathChar)
      rw [closed] at third
      have white {xs : List Char} : '\x7b' ∉ xs.takeWhile isWhitespace :=
        fun mem => absurd (List.all_eq_true.mp List.all_takeWhile _ mem) (by decide)
      have named {xs : List Char} : '\x7b' ∉ xs.takeWhile isPathChar :=
        fun mem => absurd (List.all_eq_true.mp List.all_takeWhile _ mem) (by decide)
      refine ⟨tail.takeWhile isWhitespace ++ ((tail.dropWhile isWhitespace).takeWhile isPathChar ++
        (((tail.dropWhile isWhitespace).dropWhile isPathChar).takeWhile isWhitespace ++
          ['\x7d', '\x7d'])), ?_, by simp, ?_⟩
      · simp only [List.cons_append, List.append_assoc, List.nil_append]
        rw [third, second, first]
      · simp only [List.mem_append, List.mem_cons, List.not_mem_nil, or_false, not_or]
        exact ⟨white, named, white, by decide, by decide⟩
    · cases h
  · cases h

/-- The text of a reference, and what is behind it. -/
theorem readReference_written (h : readReference cs = some (path, rest)) :
    cs.take (cs.length - rest.length) ++ rest = cs := by
  obtain ⟨inner, rfl, -⟩ := readReference_split h
  rw [List.length_append, Nat.add_sub_cancel, List.take_left]

theorem readReference_length (h : readReference cs = some (path, rest)) : rest.length < cs.length := by
  obtain ⟨inner, rfl, -⟩ := readReference_split h
  simp
  omega

/-- A reference in front of the text is over before any other one begins. -/
theorem readReference_apart {other more : List Char} (h : readReference cs = some (path, rest))
    (split : cs = front ++ back) (found : readReference back = some (other, more))
    (later : front ≠ []) : ∃ between, rest = between ++ back := by
  obtain ⟨inner, text, filled, plain⟩ := readReference_split h
  obtain ⟨inner', text', -, -⟩ := readReference_split found
  rw [text] at split
  cases front with
  | nil => exact absurd rfl later
  | cons x front =>
    obtain ⟨-, split⟩ : '\x7b' = x ∧ '\x7b' :: inner ++ rest = front ++ back := List.cons.inj split
    cases front with
    | nil =>
      -- the second brace of the first reference does not begin another one
      rw [List.nil_append, text'] at split
      obtain ⟨-, split⟩ : _ ∧ inner ++ rest = '\x7b' :: inner' ++ more := List.cons.inj split
      cases inner with
      | nil => exact absurd rfl filled
      | cons c inner =>
        obtain ⟨rfl, -⟩ := List.cons.inj split
        exact absurd List.mem_cons_self plain
    | cons y front =>
      obtain ⟨-, split⟩ := List.cons.inj split
      rcases List.append_eq_append_iff.mp split with ⟨between, -, behind⟩ | ⟨overlap, within, across⟩
      · exact ⟨between, behind⟩
      · cases overlap with
        | nil => exact ⟨[], across.symm⟩
        | cons c overlap =>
          rw [text'] at across
          obtain ⟨rfl, -⟩ := List.cons.inj across
          rw [within] at plain
          exact absurd (List.mem_append_right front List.mem_cons_self) plain

/-! ### Pieces of a text -/

theorem segments_source {turns : Nat} (enough : cs.length ≤ turns) :
    (segments turns cs).flatMap Segment.source = cs := by
  induction turns generalizing cs with
  | zero =>
    rw [List.length_eq_zero_iff.mp (Nat.le_zero.mp enough)]
    rfl
  | succ turns ih =>
    cases cs with
    | nil => rfl
    | cons c cs =>
      rw [List.length_cons] at enough
      unfold segments
      split
      · rename_i path rest found
        have shorter := readReference_length found
        rw [List.length_cons] at shorter
        rw [List.flatMap_cons, ih (by omega)]
        exact readReference_written found
      · rw [List.flatMap_cons, ih (by omega)]
        rfl

theorem renderText_segments {turns : Nat} (enough : cs.length ≤ turns) :
    renderText r context turns cs = renderSegments r context (segments turns cs) := by
  induction turns generalizing cs with
  | zero =>
    rw [List.length_eq_zero_iff.mp (Nat.le_zero.mp enough)]
    rfl
  | succ turns ih =>
    cases cs with
    | nil => rfl
    | cons c cs =>
      rw [List.length_cons] at enough
      unfold renderText segments
      cases here : readReference (c :: cs) with
      | some read =>
        have shorter := readReference_length here
        rw [List.length_cons] at shorter
        dsimp only
        rw [ih (by omega)]
        rfl
      | none =>
        dsimp only
        rw [ih (by omega)]
        rfl

/-- Every reference in a text is one of its pieces. -/
theorem segments_occurrence {turns : Nat} (enough : cs.length ≤ turns) (split : cs = front ++ back)
    (found : readReference back = some (path, rest)) :
    ∃ before written after, segments turns cs = before ++ .reference written path :: after ∧
      before.flatMap Segment.source = front ∧ after.flatMap Segment.source = rest := by
  induction turns generalizing cs front with
  | zero =>
    obtain ⟨inner, rfl, -⟩ := readReference_split found
    rw [split] at enough
    simp at enough
  | succ turns ih =>
    cases cs with
    | nil =>
      obtain ⟨inner, rfl, -⟩ := readReference_split found
      simp at split
    | cons c cs =>
      rw [List.length_cons] at enough
      unfold segments
      cases here : readReference (c :: cs) with
      | none =>
        cases front with
        | nil =>
          rw [List.nil_append] at split
          rw [split, found] at here
          cases here
        | cons d front =>
          obtain ⟨rfl, tail⟩ : c = d ∧ cs = front ++ back := List.cons.inj split
          obtain ⟨before, written, after, pieces, source, behind⟩ := ih (by omega) tail
          refine ⟨.literal c :: before, written, after, ?_, ?_, behind⟩
          · dsimp only
            rw [pieces]
            rfl
          · rw [List.flatMap_cons, source]
            rfl
      | some read =>
        obtain ⟨first, tail⟩ := read
        have shorter := readReference_length here
        rw [List.length_cons] at shorter
        dsimp only
        cases front with
        | nil =>
          rw [List.nil_append] at split
          rw [split, found] at here
          obtain ⟨rfl, rfl⟩ := Prod.mk.inj (Option.some.inj here)
          exact ⟨[], _, _, rfl, rfl, segments_source (by omega)⟩
        | cons d front =>
          obtain ⟨between, behind⟩ := readReference_apart here split found (by simp)
          obtain ⟨before, written, after, pieces, source, last⟩ := ih (by omega) behind
          refine ⟨_ :: before, written, after, by rw [pieces]; rfl, ?_, last⟩
          have whole := readReference_written here
          rw [split, behind, ← List.append_assoc] at whole
          rw [List.flatMap_cons, source, ← List.append_cancel_right whole, ← split, behind]
          rfl

theorem reference_occurs {turns : Nat} {written : List Char}
    (mem : .reference written path ∈ segments turns cs) : Occurs path cs := by
  induction turns generalizing cs with
  | zero => cases mem
  | succ turns ih =>
    cases cs with
    | nil => cases mem
    | cons c cs =>
      unfold segments at mem
      cases here : readReference (c :: cs) with
      | none =>
        rw [here] at mem
        obtain ⟨front, back, rest, split, found⟩ := ih ((List.mem_cons.mp mem).resolve_left (by simp))
        exact ⟨c :: front, back, rest, by rw [split]; rfl, found⟩
      | some read =>
        obtain ⟨first, tail⟩ := read
        rw [here] at mem
        rcases List.mem_cons.mp mem with same | later
        · obtain ⟨-, rfl⟩ := Segment.reference.inj same
          exact ⟨[], c :: cs, tail, rfl, here⟩
        · obtain ⟨front, back, rest, split, found⟩ := ih later
          have whole := readReference_written here
          rw [split, ← List.append_assoc] at whole
          exact ⟨_, back, rest, whole.symm, found⟩

theorem wholeReference_occurs (h : wholeReference cs = some path) : Occurs path cs := by
  unfold wholeReference at h
  split at h
  · rename_i found
    obtain rfl := Option.some.inj h
    exact ⟨[], cs, [], rfl, found⟩
  · rename_i found
    obtain rfl := Option.some.inj h
    exact ⟨[], cs, ['\n'], rfl, found⟩
  · cases h

theorem enough_turns (text : String) : text.toList.length ≤ text.length :=
  Nat.le_of_eq String.length_toList

theorem renderText_pieces (text : String) : renderText r context text.length text.toList =
    renderSegments r context (segmentsOf text) :=
  renderText_segments (enough_turns text)

/-! ### Two contexts -/

/-- The contexts have the same values for the references of the texts. -/
def Agree (context context' : Json) (ts : List String) : Prop :=
  ∀ text ∈ ts, ∀ path, Occurs path text.toList → lookup path context = lookup path context'

theorem renderSegments_agree {pieces : List Segment}
    (same : ∀ written path, .reference written path ∈ pieces → lookup path context = lookup path context') :
    renderSegments r context pieces = renderSegments r context' pieces := by
  induction pieces with
  | nil => rfl
  | cons piece pieces ih =>
    have here : piece.render r context = piece.render r context' := by
      cases piece with
      | literal c => rfl
      | reference written path =>
        show renderReference r context path = renderReference r context' path
        unfold renderReference
        rw [same written path List.mem_cons_self]
    rw [renderSegments, renderSegments, here,
      ih fun written path mem => same written path (List.mem_cons_of_mem piece mem)]

theorem resolveText_agree {text : String} (agree : Agree context context' [text]) :
    resolveText r context text = resolveText r context' text := by
  have same (path : List Char) (occurs : Occurs path text.toList) :
      lookup path context = lookup path context' :=
    agree text (List.mem_singleton_self text) path occurs
  unfold resolveText
  cases whole : wholeReference text.toList with
  | some path =>
    dsimp only
    rw [same path (wholeReference_occurs whole)]
  | none =>
    have pieces : renderSegments r context (segmentsOf text) = renderSegments r context' (segmentsOf text) :=
      renderSegments_agree fun written path mem => same path (reference_occurs mem)
    dsimp only
    rw [renderText_pieces, renderText_pieces, pieces]

mutual
theorem resolveTemplate_agree (depth : Nat) : (v : Json) → Agree context context' (texts v) →
    resolveTemplate r context depth v = resolveTemplate r context' depth v
  | .str text, agree => by
    simp only [resolveTemplate]
    exact resolveText_agree agree
  | .obj members, agree => by
    simp only [resolveTemplate]
    rw [resolveMembers_agree (depth + 1) members agree]
  | .arr items, agree => by
    simp only [resolveTemplate]
    rw [resolveItems_agree (depth + 1) items agree]
  | .null, _ | .bool _, _ | .int _, _ | .float _, _ => by simp only [resolveTemplate]

theorem resolveItems_agree (depth : Nat) : (vs : List Json) → Agree context context' (itemTexts vs) →
    resolveItems r context depth vs = resolveItems r context' depth vs
  | [], _ => rfl
  | v :: vs, agree => by
    simp only [resolveItems]
    rw [resolveTemplate_agree depth v fun text mem => agree text (List.mem_append_left _ mem),
      resolveItems_agree depth vs fun text mem => agree text (List.mem_append_right _ mem)]

theorem resolveMembers_agree (depth : Nat) : (vs : List (String × Json)) →
    Agree context context' (memberTexts vs) →
    resolveMembers r context depth vs = resolveMembers r context' depth vs
  | [], _ => rfl
  | (key, v) :: vs, agree => by
    simp only [resolveMembers]
    rw [resolveTemplate_agree depth v fun text mem => agree text (List.mem_append_left _ mem),
      resolveMembers_agree depth vs fun text mem => agree text (List.mem_append_right _ mem)]
end

/-! ### Answered references -/

/-- No reference of the texts raises: neither `int` nor `str` refuses what it meets. -/
def Answered (r : Rendering) (context : Json) (ts : List String) : Prop :=
  ∀ text ∈ ts, ∀ path, Occurs path text.toList →
    ∃ v, lookup path context = some v ∧ (v = .null ∨ (r.str v).isSome)

theorem renderReference_answered {v : Json} (found : lookup path context = some v)
    (shown : v = .null ∨ (r.str v).isSome) : ∃ text, renderReference r context path = some text := by
  unfold renderReference
  rw [found]
  rcases shown with rfl | shown
  · exact ⟨[], rfl⟩
  · obtain ⟨text, str⟩ := Option.isSome_iff_exists.mp shown
    cases v with
    | null => exact ⟨[], rfl⟩
    | _ => exact ⟨text.toList, congrArg (Option.map String.toList) str⟩

theorem renderSegments_answered {pieces : List Segment} (answered : ∀ written path,
      .reference written path ∈ pieces → ∃ text, renderReference r context path = some text) :
    ∃ text, renderSegments r context pieces = some text := by
  induction pieces with
  | nil => exact ⟨[], rfl⟩
  | cons piece pieces ih =>
    have here : ∃ text, piece.render r context = some text := by
      cases piece with
      | literal c => exact ⟨[c], rfl⟩
      | reference written path => exact answered written path List.mem_cons_self
    obtain ⟨text, here⟩ := here
    obtain ⟨behind, rest⟩ := ih fun written path mem =>
      answered written path (List.mem_cons_of_mem piece mem)
    exact ⟨text ++ behind, by rw [renderSegments, here, rest]; rfl⟩

theorem resolveText_answered {text : String} (answered : Answered r context [text]) :
    ∃ w, resolveText r context text = some w := by
  have here (path : List Char) (occurs : Occurs path text.toList) :=
    answered text (List.mem_singleton_self text) path occurs
  unfold resolveText
  cases whole : wholeReference text.toList with
  | some path =>
    obtain ⟨v, found, -⟩ := here path (wholeReference_occurs whole)
    exact ⟨wholeValue r v, by dsimp only; rw [found]; rfl⟩
  | none =>
    have pieces : ∃ rendered, renderSegments r context (segmentsOf text) = some rendered :=
      renderSegments_answered fun written path mem => by
        obtain ⟨v, found, shown⟩ := here path (reference_occurs mem)
        exact renderReference_answered found shown
    obtain ⟨rendered, eq⟩ := pieces
    exact ⟨_, by dsimp only; rw [renderText_pieces, eq]; rfl⟩

mutual
theorem resolveTemplate_answered (depth : Nat) : (v : Json) → Answered r context (texts v) →
    ∃ w, resolveTemplate r context depth v = some w
  | .str text, answered => by
    simp only [resolveTemplate]
    exact resolveText_answered answered
  | .obj members, answered => by
    obtain ⟨resolved, eq⟩ := resolveMembers_answered (depth + 1) members answered
    simp only [resolveTemplate, eq]
    split
    · exact ⟨.null, rfl⟩
    · exact ⟨.obj resolved, rfl⟩
  | .arr items, answered => by
    obtain ⟨resolved, eq⟩ := resolveItems_answered (depth + 1) items answered
    simp only [resolveTemplate, eq]
    split
    · exact ⟨.null, rfl⟩
    · exact ⟨.arr resolved, rfl⟩
  | .null, _ | .bool _, _ | .int _, _ | .float _, _ => by
    simp only [resolveTemplate]
    split
    · exact ⟨.null, rfl⟩
    · exact ⟨_, rfl⟩

theorem resolveItems_answered (depth : Nat) : (vs : List Json) → Answered r context (itemTexts vs) →
    ∃ ws, resolveItems r context depth vs = some ws
  | [], _ => ⟨[], rfl⟩
  | v :: vs, answered => by
    obtain ⟨w, here⟩ := resolveTemplate_answered depth v fun text mem =>
      answered text (List.mem_append_left _ mem)
    obtain ⟨ws, rest⟩ := resolveItems_answered depth vs fun text mem =>
      answered text (List.mem_append_right _ mem)
    exact ⟨w :: ws, by simp only [resolveItems, here, rest]; rfl⟩

theorem resolveMembers_answered (depth : Nat) : (vs : List (String × Json)) →
    Answered r context (memberTexts vs) → ∃ ws, resolveMembers r context depth vs = some ws
  | [], _ => ⟨[], rfl⟩
  | (key, v) :: vs, answered => by
    obtain ⟨w, here⟩ := resolveTemplate_answered depth v fun text mem =>
      answered text (List.mem_append_left _ mem)
    obtain ⟨ws, rest⟩ := resolveMembers_answered depth vs fun text mem =>
      answered text (List.mem_append_right _ mem)
    exact ⟨(key, w) :: ws, by simp only [resolveMembers, here, rest]; rfl⟩
end

/-! ### One context -/

theorem truncate_bounded (n : Nat) (s : String) : (truncate n s).length ≤ n := by
  rw [truncate, String.length_ofList]
  exact List.length_take_le n s.toList

theorem capObject_replaced (v : Json) :
    capObject r v = v ∧ (∃ size, r.dumped v = some size ∧ size ≤ maxRefObjectBytes) ∨
      capObject r v = truncationMarker ∨ capObject r v = .null ∧ r.dumped v = none := by
  unfold capObject
  cases dumped : r.dumped v with
  | none => exact .inr (.inr ⟨rfl, rfl⟩)
  | some size =>
    dsimp only
    split
    · rename_i small
      exact .inl ⟨rfl, size, rfl, small⟩
    · exact .inr (.inl rfl)

theorem wholeValue_replaced (v : Json) : Replaced r v (wholeValue r v) := by
  cases v with
  | str s => exact ⟨_, rfl, truncate_bounded _ _, String.toList_ofList⟩
  | obj members => exact capObject_replaced _
  | arr items => exact capObject_replaced _
  | _ => rfl

theorem resolveText_resolved {text : String} {w : Json}
    (returned : resolveText r context text = some w) : ResolvedText r context text w := by
  unfold ResolvedText
  unfold resolveText at returned
  cases whole : wholeReference text.toList with
  | some path =>
    rw [whole] at returned
    obtain ⟨value, found, rfl⟩ := Option.map_eq_some_iff.mp returned
    exact ⟨value, found, wholeValue_replaced value⟩
  | none =>
    rw [whole] at returned
    obtain ⟨rendered, pieces, rfl⟩ := Option.map_eq_some_iff.mp returned
    rw [renderText_pieces] at pieces
    refine ⟨rendered, _, pieces, rfl, truncate_bounded _ _, ?_⟩
    rw [truncate, String.toList_ofList, String.toList_ofList]

mutual
theorem resolveTemplate_resolved (depth : Nat) : (v : Json) → {w : Json} →
    resolveTemplate r context depth v = some w → Resolved r context depth v w
  | .str text, w, returned => by
    simp only [resolveTemplate] at returned
    simp only [Resolved]
    exact resolveText_resolved returned
  | .obj members, w, returned => by
    simp only [resolveTemplate] at returned
    simp only [Resolved]
    split at returned
    · rename_i deep
      exact .inl ⟨deep, (Option.some.inj returned).symm⟩
    · obtain ⟨resolved, each, rfl⟩ := Option.map_eq_some_iff.mp returned
      exact .inr ⟨by omega, resolved, rfl, resolveMembers_resolved (depth + 1) members each⟩
  | .arr items, w, returned => by
    simp only [resolveTemplate] at returned
    simp only [Resolved]
    split at returned
    · rename_i deep
      exact .inl ⟨deep, (Option.some.inj returned).symm⟩
    · obtain ⟨resolved, each, rfl⟩ := Option.map_eq_some_iff.mp returned
      exact .inr ⟨by omega, resolved, rfl, resolveItems_resolved (depth + 1) items each⟩
  | .null, w, returned | .bool _, w, returned | .int _, w, returned | .float _, w, returned => by
    simp only [resolveTemplate] at returned
    simp only [Resolved]
    split at returned
    · rename_i deep
      exact .inl ⟨deep, (Option.some.inj returned).symm⟩
    · exact .inr ⟨by omega, (Option.some.inj returned).symm⟩

theorem resolveItems_resolved (depth : Nat) : (vs : List Json) → {ws : List Json} →
    resolveItems r context depth vs = some ws → ResolvedItems r context depth vs ws
  | [], ws, returned => by
    simp only [resolveItems] at returned
    simp only [ResolvedItems]
    exact (Option.some.inj returned).symm
  | v :: vs, ws, returned => by
    simp only [resolveItems] at returned
    simp only [ResolvedItems]
    obtain ⟨w, here, returned⟩ := Option.bind_eq_some_iff.mp returned
    obtain ⟨rest, later, same⟩ := Option.bind_eq_some_iff.mp returned
    exact ⟨w, rest, (Option.some.inj same).symm, resolveTemplate_resolved depth v here,
      resolveItems_resolved depth vs later⟩

theorem resolveMembers_resolved (depth : Nat) : (vs : List (String × Json)) →
    {ws : List (String × Json)} → resolveMembers r context depth vs = some ws →
    ResolvedMembers r context depth vs ws
  | [], ws, returned => by
    simp only [resolveMembers] at returned
    simp only [ResolvedMembers]
    exact (Option.some.inj returned).symm
  | (key, v) :: vs, ws, returned => by
    simp only [resolveMembers] at returned
    simp only [ResolvedMembers]
    obtain ⟨w, here, returned⟩ := Option.bind_eq_some_iff.mp returned
    obtain ⟨rest, later, same⟩ := Option.bind_eq_some_iff.mp returned
    exact ⟨w, rest, (Option.some.inj same).symm, resolveTemplate_resolved depth v here,
      resolveMembers_resolved depth vs later⟩
end

end

/-- Contexts that agree on the references of a template give the same result, and there is one where no
reference raises.  In the result every template string is the value it refers to or the text of its
pieces, within the limits, every key is as it was, and nothing else is left of what is nested too
deeply.  Every reference of a template string is one of its pieces. -/
theorem template_resolution (r : Rendering) (v : Json) :
    (∀ context context', Agree context context' (texts v) →
      resolveTemplate r context 0 v = resolveTemplate r context' 0 v) ∧
    (∀ context, Answered r context (texts v) → ∃ w, resolveTemplate r context 0 v = some w) ∧
    (∀ context w, resolveTemplate r context 0 v = some w → Resolved r context 0 v w) ∧
    ∀ text ∈ texts v, (segmentsOf text).flatMap Segment.source = text.toList ∧
      ∀ front back path rest, text.toList = front ++ back → readReference back = some (path, rest) →
        ∃ before written after, segmentsOf text = before ++ .reference written path :: after ∧
          before.flatMap Segment.source = front ∧ after.flatMap Segment.source = rest := by
  refine ⟨fun context context' agree => resolveTemplate_agree 0 v agree,
    fun context answered => resolveTemplate_answered 0 v answered,
    fun context w returned => resolveTemplate_resolved 0 v returned,
    fun text mem => ⟨segments_source (enough_turns text), ?_⟩⟩
  intro front back path rest split found
  exact segments_occurrence (enough_turns text) split found

/-- A note with one reference. -/
def noteTemplate : Json := .obj [("note", .str "n=\x7b\x7btrigger.n\x7d\x7d")]

/-- A trigger beside a value that the note does not refer to. -/
def noteContext (other : Json) : Json := .obj [("trigger", .obj [("n", .int 3)]), ("other", other)]

def plainRendering : Rendering := ⟨fun v => if v = .int 3 then some "3" else some "", fun _ => some 0⟩

theorem noteTemplate_resolved :
    resolveTemplate plainRendering (noteContext (.int 1)) 0 noteTemplate =
        resolveTemplate plainRendering (noteContext (.str "n")) 0 noteTemplate ∧
      resolveTemplate plainRendering (noteContext (.int 1)) 0 noteTemplate =
        some (.obj [("note", .str "n=3")]) := by
  refine ⟨(template_resolution plainRendering noteTemplate).1 _ _ ?_, by decide +kernel⟩
  rintro text mem path ⟨front, back, rest, split, found⟩
  obtain rfl := List.mem_singleton.mp mem
  obtain ⟨before, written, after, pieces, -⟩ := segments_occurrence (enough_turns _) split found
  have listed : Segment.reference written path ∈ segmentsOf "n=\x7b\x7btrigger.n\x7d\x7d" := by
    rw [segmentsOf, pieces]
    simp
  have only : segmentsOf "n=\x7b\x7btrigger.n\x7d\x7d" =
      [.literal 'n', .literal '=', .reference "\x7b\x7btrigger.n\x7d\x7d".toList "trigger.n".toList] := by
    decide +kernel
  rw [only] at listed
  have named : Segment.reference written path = .reference _ "trigger.n".toList :=
    ((List.mem_cons.mp listed).resolve_left (by simp) |> List.mem_cons.mp).resolve_left (by simp)
      |> List.mem_singleton.mp
  rw [(Segment.reference.inj named).2]
  decide +kernel

end FreeSdn.Fabric
