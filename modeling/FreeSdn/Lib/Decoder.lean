import Mathlib.Data.List.Basic

/-! Decoders that read a stream item by item, and an object over one that returns its output in
bounded parts, as the objects of `zlib.decompressobj` do. -/

namespace FreeSdn.Lib

/-- A decoder of one stream: what it writes when it reads an item; `none` when the stream is corrupt. -/
structure Decoder (σ ι ο : Type) where
  start : σ
  read : σ → ι → Option (List ο × σ)
  ended : σ → Bool

namespace Decoder

variable {σ ι ο : Type} (d : Decoder σ ι ο)

/-- What is written, the state that is reached, and what is left behind the end of the stream. -/
def decode : σ → List ι → Option (List ο × σ × List ι)
  | s, [] => some ([], s, [])
  | s, x :: xs =>
    if d.ended s then some ([], s, x :: xs)
    else (d.read s x).bind fun (out, s') =>
      (decode s' xs).map fun (more, t, rest) => (out ++ more, t, rest)

/-- Reads until there is enough output, the stream ends or the input is used up. -/
def feed (most : Nat) : σ → List ο → List ι → Option (σ × List ο × List ι)
  | s, held, [] => some (s, held, [])
  | s, held, x :: xs =>
    if most ≤ held.length ∨ d.ended s then some (s, held, x :: xs)
    else (d.read s x).bind fun (out, s') => feed most s' (held ++ out) xs

end Decoder

/-- A decompression object: what it has written and not returned, what it has not read, and what is
behind the end. -/
structure Decompress (σ ι ο : Type) where
  state : σ
  pending : List ο := []
  unconsumedTail : List ι := []
  unusedData : List ι := []

namespace Decoder

variable {σ ι ο : Type} (d : Decoder σ ι ο)

/-- `decompress(data, max_length)`, for a positive `max_length`. -/
def decompress (o : Decompress σ ι ο) (data : List ι) (maxLength : Nat) :
    Option (List ο × Decompress σ ι ο) :=
  (d.feed maxLength o.state o.pending data).map fun (s, held, left) =>
    (held.take maxLength,
      { state := s
        pending := held.drop maxLength
        unconsumedTail := if d.ended s then [] else left
        unusedData := if d.ended s then o.unusedData ++ left else o.unusedData })

/-- `flush()`: what is pending, and what the unread input still gives. -/
def flush (o : Decompress σ ι ο) : List ο :=
  o.pending ++ ((d.decode o.state o.unconsumedTail).map Prod.fst).getD []

variable {d} {s t : σ} {held held' out : List ο} {xs ys rest : List ι} {most : Nat}

/-! ### Decoding in parts -/

theorem decode_ended (over_ : d.ended s = true) (xs : List ι) : d.decode s xs = some ([], s, xs) := by
  cases xs with
  | nil => rfl
  | cons x xs => rw [decode, if_pos over_]

/-- Nothing is left before the end. -/
theorem decode_rest (run : d.decode s xs = some (out, t, rest)) : d.ended t = true ∨ rest = [] := by
  induction xs generalizing s out with
  | nil =>
    obtain ⟨-, -, rfl⟩ : [] = out ∧ s = t ∧ [] = rest := by simpa [decode] using run
    exact .inr rfl
  | cons x xs ih =>
    rw [decode] at run
    split at run
    · rename_i over_
      obtain ⟨-, rfl, -⟩ : [] = out ∧ s = t ∧ x :: xs = rest := by simpa using run
      exact .inl over_
    · obtain ⟨⟨first, s'⟩, -, run⟩ := Option.bind_eq_some_iff.mp run
      obtain ⟨⟨more, t', rest'⟩, later, same⟩ := Option.map_eq_some_iff.mp run
      obtain ⟨-, rfl, rfl⟩ : first ++ more = out ∧ t' = t ∧ rest' = rest := by simpa using same
      exact ih later

theorem decode_append (xs ys : List ι) : d.decode s (xs ++ ys) =
    (d.decode s xs).bind fun (out, t, rest) =>
      (d.decode t ys).map fun (more, u, rest') => (out ++ more, u, rest ++ rest') := by
  induction xs generalizing s with
  | nil => simp [decode]
  | cons x xs ih =>
    rw [List.cons_append, decode, decode]
    by_cases over_ : d.ended s = true
    · rw [if_pos over_, if_pos over_, Option.bind_some]
      dsimp only
      rw [decode_ended over_]
      rfl
    · rw [if_neg over_, if_neg over_]
      cases d.read s x with
      | none => rfl
      | some read =>
        obtain ⟨first, s'⟩ := read
        simp only [Option.bind_some, ih]
        cases d.decode s' xs with
        | none => rfl
        | some read' =>
          obtain ⟨out, t, rest⟩ := read'
          simp only [Option.bind_some, Option.map_some]
          cases d.decode t ys with
          | none => rfl
          | some last => simp

/-- A stream is decoded up to its end, whatever is behind it. -/
theorem decode_behind (run : d.decode s xs = some (out, t, [])) (over_ : d.ended t = true) :
    d.decode s (xs ++ ys) = some (out, t, ys) := by
  rw [decode_append, run, Option.bind_some]
  dsimp only
  rw [decode_ended over_]
  simp

/-- What was decoded, without what is left. -/
theorem decode_front (run : d.decode s xs = some (out, t, rest)) :
    ∃ front, xs = front ++ rest ∧ d.decode s front = some (out, t, []) := by
  induction xs generalizing s out with
  | nil =>
    obtain ⟨rfl, rfl, rfl⟩ : [] = out ∧ s = t ∧ [] = rest := by simpa [decode] using run
    exact ⟨[], rfl, rfl⟩
  | cons x xs ih =>
    rw [decode] at run
    split at run
    · obtain ⟨rfl, rfl, rfl⟩ : [] = out ∧ s = t ∧ x :: xs = rest := by simpa using run
      exact ⟨[], rfl, rfl⟩
    · rename_i going
      obtain ⟨⟨first, s'⟩, read, run⟩ := Option.bind_eq_some_iff.mp run
      obtain ⟨⟨more, t', rest'⟩, later, same⟩ := Option.map_eq_some_iff.mp run
      obtain ⟨rfl, rfl, rfl⟩ : first ++ more = out ∧ t' = t ∧ rest' = rest := by simpa using same
      obtain ⟨front, rfl, decoded⟩ := ih later
      refine ⟨x :: front, rfl, ?_⟩
      rw [decode, if_neg going, read, Option.bind_some]
      dsimp only
      rw [decoded]
      rfl

/-! ### Feeding -/

theorem feed_none (refused : d.feed most s held xs = none) : d.decode s xs = none := by
  induction xs generalizing s held with
  | nil => cases refused
  | cons x xs ih =>
    rw [feed] at refused
    split at refused
    · cases refused
    · rename_i going
      rw [decode, if_neg fun over_ => going (.inr over_)]
      cases read : d.read s x with
      | none => rfl
      | some next =>
        rw [read, Option.bind_some] at refused
        rw [Option.bind_some]
        dsimp only
        rw [ih refused]
        rfl

/-- With output below the bound, everything was decoded. -/
theorem feed_short (fed : d.feed most s held xs = some (t, held', rest)) (short : held'.length < most) :
    ∃ out, held' = held ++ out ∧ d.decode s xs = some (out, t, rest) := by
  induction xs generalizing s held with
  | nil =>
    obtain ⟨rfl, rfl, rfl⟩ : s = t ∧ held = held' ∧ [] = rest := by simpa [feed] using fed
    exact ⟨[], by simp, rfl⟩
  | cons x xs ih =>
    rw [feed] at fed
    split at fed
    · rename_i stops
      obtain ⟨rfl, rfl, rfl⟩ : s = t ∧ held = held' ∧ x :: xs = rest := by simpa using fed
      have over_ : d.ended s = true := stops.resolve_left (by omega)
      exact ⟨[], by simp, decode_ended over_ _⟩
    · rename_i going
      obtain ⟨⟨first, s'⟩, read, fed⟩ := Option.bind_eq_some_iff.mp fed
      obtain ⟨out, rfl, decoded⟩ := ih fed
      refine ⟨first ++ out, List.append_assoc _ _ _, ?_⟩
      rw [decode, if_neg fun over_ => going (.inr over_), read, Option.bind_some]
      dsimp only
      rw [decoded]
      rfl

/-- With output at the bound, what is decoded in full reaches it too. -/
theorem feed_long (fed : d.feed most s held xs = some (t, held', rest)) (long : most ≤ held'.length)
    {u : σ} {left : List ι} (run : d.decode s xs = some (out, u, left)) :
    most ≤ (held ++ out).length := by
  induction xs generalizing s held out with
  | nil =>
    obtain ⟨-, rfl, -⟩ : s = t ∧ held = held' ∧ [] = rest := by simpa [feed] using fed
    rw [List.length_append]
    omega
  | cons x xs ih =>
    rw [feed] at fed
    split at fed
    · obtain ⟨-, rfl, -⟩ : s = t ∧ held = held' ∧ x :: xs = rest := by simpa using fed
      rw [List.length_append]
      omega
    · rename_i going
      obtain ⟨⟨first, s'⟩, read, fed⟩ := Option.bind_eq_some_iff.mp fed
      rw [decode, if_neg fun over_ => going (.inr over_), read, Option.bind_some] at run
      obtain ⟨⟨more, u', left'⟩, later, same⟩ := Option.map_eq_some_iff.mp run
      obtain ⟨rfl, rfl, rfl⟩ : first ++ more = out ∧ u' = u ∧ left' = left := by simpa using same
      rw [← List.append_assoc]
      exact ih fed later

end Decoder

end FreeSdn.Lib
