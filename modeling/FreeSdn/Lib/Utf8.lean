import Mathlib.Data.List.Basic

/-! The text of octets as `bytes.decode("utf-8", errors="replace")` reads them: a character for each
well-formed sequence, and U+FFFD for each maximal part of an ill-formed one. -/

namespace FreeSdn.Lib.Utf8

abbrev Octets := List UInt8

/-- The character of the well-formed sequence at the front. -/
def front (bs : Octets) : Option Char := bs.toByteArray.utf8DecodeChar? 0

/-- How many octets may follow a first octet, and between which the second one has to be. -/
def continuations (b : UInt8) : Option (Nat × UInt8 × UInt8) :=
  if 0xC2 ≤ b && b ≤ 0xDF then some (1, 0x80, 0xBF)
  else if b = 0xE0 then some (2, 0xA0, 0xBF)
  else if b = 0xED then some (2, 0x80, 0x9F)
  else if 0xE1 ≤ b && b ≤ 0xEF then some (2, 0x80, 0xBF)
  else if b = 0xF0 then some (3, 0x90, 0xBF)
  else if b = 0xF4 then some (3, 0x80, 0x8F)
  else if 0xF1 ≤ b && b ≤ 0xF3 then some (3, 0x80, 0xBF)
  else none

/-- How many octets after its first one an ill-formed sequence takes with it. -/
def extent (b : UInt8) (rest : Octets) : Nat :=
  match continuations b, rest with
  | some (count, low, high), c :: more =>
    if low ≤ c && c ≤ high then
      1 + ((more.take (count - 1)).takeWhile fun d => 0x80 ≤ d && d ≤ 0xBF).length
    else 0
  | _, _ => 0

/-- The characters of the octets after the first `skip` ones. -/
def decodeFrom : Octets → Nat → List Char
  | [], _ => []
  | _ :: rest, skip + 1 => decodeFrom rest skip
  | b :: rest, 0 =>
    match front (b :: rest) with
    | some c => c :: decodeFrom rest (c.utf8Size - 1)
    | none => '\uFFFD' :: decodeFrom rest (extent b rest)

def decode (bs : Octets) : List Char := decodeFrom bs 0

def encode (cs : List Char) : Octets := cs.flatMap String.utf8EncodeChar

theorem front_encodeChar (c : Char) (rest : Octets) :
    front (String.utf8EncodeChar c ++ rest) = some c := by
  unfold front
  rw [List.toByteArray_append]
  exact ByteArray.utf8DecodeChar?_utf8EncodeChar_append

theorem decodeFrom_skip (bs rest : Octets) : decodeFrom (bs ++ rest) bs.length = decode rest := by
  induction bs with
  | nil => rfl
  | cons b bs ih => exact ih

theorem decode_encodeChar (c : Char) (rest : Octets) :
    decode (String.utf8EncodeChar c ++ rest) = c :: decode rest := by
  have found := front_encodeChar c rest
  have size := String.length_utf8EncodeChar c
  cases octets : String.utf8EncodeChar c with
  | nil => exact absurd octets String.utf8EncodeChar_ne_nil
  | cons b bs =>
    rw [octets] at found size
    have found : front (b :: (bs ++ rest)) = some c := found
    have length : c.utf8Size - 1 = bs.length := by
      rw [← size]
      rfl
    calc decode (b :: (bs ++ rest)) = c :: decodeFrom (bs ++ rest) (c.utf8Size - 1) := by
          simp only [decode, decodeFrom, found]
      _ = c :: decode rest := by rw [length, decodeFrom_skip]

/-- The text of well-formed octets is the text that they were written from. -/
theorem decode_encode (cs : List Char) : decode (encode cs) = cs := by
  induction cs with
  | nil => rfl
  | cons c cs ih =>
    calc decode (encode (c :: cs)) = decode (String.utf8EncodeChar c ++ encode cs) := rfl
      _ = c :: decode (encode cs) := decode_encodeChar c (encode cs)
      _ = c :: cs := by rw [ih]

example : decode [0x41, 0xE2, 0x82, 0x42, 0xFF] = ['A', '\uFFFD', 'B', '\uFFFD'] := by decide

end FreeSdn.Lib.Utf8
