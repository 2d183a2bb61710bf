import Mathlib.Data.List.Basic

/-! Patterns of characters and repetitions, matched against a whole text by trying every length of
every repetition. -/

namespace FreeSdn.Lib

/-- One character of a class, or a repetition of such characters. -/
inductive Piece
  | one (accepts : Char → Bool)
  | some (accepts : Char → Bool)
  | many (accepts : Char → Bool)

def Piece.literal (c : Char) : Piece := .one (· == c)

/-- Any number of accepted characters, and then `rest`. -/
def repeatThen (accepts : Char → Bool) (rest : List Char → Bool) : List Char → Bool
  | [] => rest []
  | c :: cs => rest (c :: cs) || (accepts c && repeatThen accepts rest cs)

/-- The pieces match in order, and the text behind them is as `ends` says. -/
def fits (ends : List Char → Bool) : List Piece → List Char → Bool
  | [], cs => ends cs
  | .one _ :: _, [] => false
  | .one accepts :: ps, c :: cs => accepts c && fits ends ps cs
  | .some _ :: _, [] => false
  | .some accepts :: ps, c :: cs => accepts c && repeatThen accepts (fits ends ps) cs
  | .many accepts :: ps, cs => repeatThen accepts (fits ends ps) cs

variable {accepts : Char → Bool} {ends rest : List Char → Bool} {ps : List Piece}

theorem repeatThen_iff {cs : List Char} : repeatThen accepts rest cs = true ↔
    ∃ front back, cs = front ++ back ∧ front.all accepts = true ∧ rest back = true := by
  induction cs with
  | nil =>
    constructor
    · intro h
      exact ⟨[], [], rfl, rfl, h⟩
    · rintro ⟨front, back, split, -, h⟩
      obtain ⟨rfl, rfl⟩ := List.nil_eq_append_iff.mp split
      exact h
  | cons c cs ih =>
    simp only [repeatThen, Bool.or_eq_true, Bool.and_eq_true]
    constructor
    · rintro (h | ⟨here, later⟩)
      · exact ⟨[], c :: cs, rfl, rfl, h⟩
      · obtain ⟨front, back, rfl, all, h⟩ := ih.mp later
        exact ⟨c :: front, back, rfl, by simp [here, all], h⟩
    · rintro ⟨front, back, split, all, h⟩
      cases front with
      | nil =>
        obtain rfl : c :: cs = back := split
        exact .inl h
      | cons d front =>
        obtain ⟨rfl, rfl⟩ := List.cons.inj split
        simp only [List.all_cons, Bool.and_eq_true] at all
        exact .inr ⟨all.1, ih.mpr ⟨front, back, rfl, all.2, h⟩⟩

/-- Literal characters match themselves. -/
theorem fits_literals {name cs : List Char} :
    fits ends (name.map Piece.literal ++ ps) cs = true ↔
      ∃ back, cs = name ++ back ∧ fits ends ps back = true := by
  induction name generalizing cs with
  | nil => simp
  | cons c name ih =>
    cases cs with
    | nil => simp [Piece.literal, fits]
    | cons d cs =>
      simp only [List.map_cons, List.cons_append, Piece.literal, fits, Bool.and_eq_true, beq_iff_eq]
      rw [ih]
      constructor
      · rintro ⟨rfl, back, rfl, h⟩
        exact ⟨back, rfl, h⟩
      · rintro ⟨back, split, h⟩
        obtain ⟨rfl, rfl⟩ := List.cons.inj split
        exact ⟨rfl, back, rfl, h⟩

end FreeSdn.Lib
