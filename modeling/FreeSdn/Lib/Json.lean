import Mathlib.Data.List.Basic

/-! JSON values as Python reads them, and the compact text that `json.dumps` writes for them with
`separators=(",", ":")`.  The members of an object are listed in the order in which they are
written, which is key order under `sort_keys=True`, so that equality of dictionaries is equality
of lists. -/

namespace FreeSdn.Lib

/-- The characters of a number, `NaN` and the infinities included. -/
def isNumberChar (c : Char) : Bool :=
  c.isDigit || c == '-' || c == '+' || c == '.' || c == 'e' || c == 'N' || c == 'a' || c == 'I' ||
    c == 'n' || c == 'f' || c == 'i' || c == 't' || c == 'y'

/-- A text that Python prints for a float and never for an integer. -/
def isFloatText (cs : List Char) : Bool :=
  cs.all isNumberChar && cs.any (fun c => c == '.' || c == 'e' || c == 'N' || c == 'I') &&
    match cs with
    | [] => false
    | c :: _ => c.isDigit || c == '-' || c == 'N' || c == 'I'

/-- A float, given by the text that `repr` prints for it: the shortest that reads back as it. -/
structure FloatText where
  chars : List Char
  valid : isFloatText chars = true
  deriving DecidableEq

inductive Json
  | null
  | bool (b : Bool)
  | int (n : Int)
  | float (t : FloatText)
  | str (s : String)
  | arr (items : List Json)
  | obj (members : List (String × Json))

/-- A Python dictionary with string keys. -/
abbrev Dict := List (String × Json)

namespace Json

/-! ### Equality -/

mutual
def beq : Json → Json → Bool
  | .null, .null => true
  | .bool a, .bool b => a == b
  | .int a, .int b => decide (a = b)
  | .float a, .float b => decide (a = b)
  | .str a, .str b => decide (a = b)
  | .arr a, .arr b => beqItems a b
  | .obj a, .obj b => beqMembers a b
  | _, _ => false

def beqItems : List Json → List Json → Bool
  | [], [] => true
  | a :: as, b :: bs => beq a b && beqItems as bs
  | _, _ => false

def beqMembers : List (String × Json) → List (String × Json) → Bool
  | [], [] => true
  | (k, a) :: as, (l, b) :: bs => decide (k = l) && beq a b && beqMembers as bs
  | _, _ => false
end

mutual
theorem beq_iff : (a b : Json) → (beq a b = true ↔ a = b)
  | .null, b | .bool _, b | .int _, b | .float _, b | .str _, b => by cases b <;> simp [beq]
  | .arr xs, b => by
    cases b with
    | arr ys => simp [beq, beqItems_iff xs ys]
    | _ => simp [beq]
  | .obj xs, b => by
    cases b with
    | obj ys => simp [beq, beqMembers_iff xs ys]
    | _ => simp [beq]

theorem beqItems_iff : (xs ys : List Json) → (beqItems xs ys = true ↔ xs = ys)
  | [], ys => by cases ys <;> simp [beqItems]
  | x :: xs, ys => by
    cases ys with
    | nil => simp [beqItems]
    | cons y ys => simp [beqItems, beq_iff x y, beqItems_iff xs ys]

theorem beqMembers_iff : (xs ys : List (String × Json)) → (beqMembers xs ys = true ↔ xs = ys)
  | [], ys => by cases ys <;> simp [beqMembers]
  | (k, x) :: xs, ys => by
    cases ys with
    | nil => simp [beqMembers]
    | cons y ys =>
      obtain ⟨l, y⟩ := y
      simp [beqMembers, beq_iff x y, beqMembers_iff xs ys]
end

instance : DecidableEq Json := fun a b => decidable_of_iff _ (beq_iff a b)

/-! ### Text -/

def hexDigit (n : Nat) : Char :=
  if n < 10 then Char.ofNat (48 + n) else Char.ofNat (87 + n)

/-- `\uXXXX`, in lower case. -/
def unicodeEscape (n : Nat) : List Char :=
  ['\\', 'u', hexDigit (n / 4096 % 16), hexDigit (n / 256 % 16), hexDigit (n / 16 % 16),
    hexDigit (n % 16)]

/-- A character of a string under `ensure_ascii`: a character outside the basic plane is written
as its surrogate pair. -/
def escapeChar (c : Char) : List Char :=
  if c = '"' then ['\\', '"']
  else if c = '\\' then ['\\', '\\']
  else if c = '\n' then ['\\', 'n']
  else if c = '\r' then ['\\', 'r']
  else if c = '\t' then ['\\', 't']
  else if c.toNat = 8 then ['\\', 'b']
  else if c.toNat = 12 then ['\\', 'f']
  else if 32 ≤ c.toNat ∧ c.toNat ≤ 126 then [c]
  else if c.toNat < 65536 then unicodeEscape c.toNat
  else unicodeEscape (55296 + (c.toNat - 65536) / 1024) ++
    unicodeEscape (56320 + (c.toNat - 65536) % 1024)

/-- A string with its closing quote. -/
def closeString (cs : List Char) : List Char := cs.flatMap escapeChar ++ ['"']

def natText (n : Nat) : List Char := Nat.toDigits 10 n

def intText (n : Int) : List Char :=
  if n < 0 then '-' :: natText n.natAbs else natText n.natAbs

mutual
def dumps : Json → List Char
  | .null => ['n', 'u', 'l', 'l']
  | .bool true => ['t', 'r', 'u', 'e']
  | .bool false => ['f', 'a', 'l', 's', 'e']
  | .int n => intText n
  | .float t => t.chars
  | .str s => '"' :: closeString s.toList
  | .arr [] => ['[', ']']
  | .arr (x :: xs) => '[' :: (dumps x ++ dumpsItems xs)
  | .obj [] => ['{', '}']
  | .obj ((k, v) :: ms) => '{' :: '"' :: (closeString k.toList ++ ':' :: (dumps v ++ dumpsMembers ms))

/-- The items after the first, with the closing bracket. -/
def dumpsItems : List Json → List Char
  | [] => [']']
  | x :: xs => ',' :: (dumps x ++ dumpsItems xs)

def dumpsMembers : List (String × Json) → List Char
  | [] => ['}']
  | (k, v) :: ms => ',' :: '"' :: (closeString k.toList ++ ':' :: (dumps v ++ dumpsMembers ms))
end

/-! ### Other escapes

`dumps` writes the characters of strings under `ensure_ascii`.  `write` takes the way to write a
character as a parameter. -/

section
variable (escape : Char → List Char)

def closeWith (cs : List Char) : List Char := cs.flatMap escape ++ ['"']

mutual
def write : Json → List Char
  | .null => ['n', 'u', 'l', 'l']
  | .bool true => ['t', 'r', 'u', 'e']
  | .bool false => ['f', 'a', 'l', 's', 'e']
  | .int n => intText n
  | .float t => t.chars
  | .str s => '"' :: closeWith escape s.toList
  | .arr [] => ['[', ']']
  | .arr (x :: xs) => '[' :: (write x ++ writeItems xs)
  | .obj [] => ['{', '}']
  | .obj ((k, v) :: ms) =>
    '{' :: '"' :: (closeWith escape k.toList ++ ':' :: (write v ++ writeMembers ms))

def writeItems : List Json → List Char
  | [] => [']']
  | x :: xs => ',' :: (write x ++ writeItems xs)

def writeMembers : List (String × Json) → List Char
  | [] => ['}']
  | (k, v) :: ms => ',' :: '"' :: (closeWith escape k.toList ++ ':' :: (write v ++ writeMembers ms))
end

end

/-- A character of a string without `ensure_ascii`. -/
def escapeRaw (c : Char) : List Char :=
  if c = '"' then ['\\', '"']
  else if c = '\\' then ['\\', '\\']
  else if c = '\n' then ['\\', 'n']
  else if c = '\r' then ['\\', 'r']
  else if c = '\t' then ['\\', 't']
  else if c.toNat = 8 then ['\\', 'b']
  else if c.toNat = 12 then ['\\', 'f']
  else if c.toNat < 32 then unicodeEscape c.toNat
  else [c]

/-- `json.dumps` with `ensure_ascii=False`. -/
def dumpsRaw : Json → List Char := write escapeRaw

mutual
theorem dumps_eq : (v : Json) → dumps v = write escapeChar v
  | .null | .bool true | .bool false | .int _ | .float _ | .str _ | .arr [] | .obj [] => by
    simp [dumps, write, closeString, closeWith]
  | .arr (x :: xs) => by simp [dumps, write, dumps_eq x, dumpsItems_eq xs]
  | .obj ((k, v) :: ms) => by
    simp [dumps, write, closeString, closeWith, dumps_eq v, dumpsMembers_eq ms]

theorem dumpsItems_eq : (xs : List Json) → dumpsItems xs = writeItems escapeChar xs
  | [] => by simp [dumpsItems, writeItems]
  | x :: xs => by simp [dumpsItems, writeItems, dumps_eq x, dumpsItems_eq xs]

theorem dumpsMembers_eq : (ms : List (String × Json)) → dumpsMembers ms = writeMembers escapeChar ms
  | [] => by simp [dumpsMembers, writeMembers]
  | (k, v) :: ms => by
    simp [dumpsMembers, writeMembers, closeString, closeWith, dumps_eq v, dumpsMembers_eq ms]
end

end Json

end FreeSdn.Lib
