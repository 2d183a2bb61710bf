import Mathlib.Data.List.Basic
import Mathlib.Data.String.Basic

/-! The string operations the services use, over the characters of a string so that they compute:
prefixes, separators, character classes and Python's `str.isdecimal`. -/

namespace FreeSdn.Lib

def startsWith (s p : String) : Bool := p.toList.isPrefixOf s.toList

def endsWith (s p : String) : Bool := p.toList.isSuffixOf s.toList

/-- The fields of a text between the occurrences of a separator: `str.split(c)`. -/
def splitChars (c : Char) : List Char → List (List Char)
  | [] => [[]]
  | d :: rest =>
    match splitChars c rest with
    | [] => [[d]]
    | field :: fields => if d = c then [] :: field :: fields else (d :: field) :: fields

/-- `".." in s`. -/
def hasDotDot : List Char → Bool
  | '.' :: '.' :: _ => true
  | _ :: rest => hasDotDot rest
  | [] => false

def isAsciiLetter (c : Char) : Bool :=
  ('a' ≤ c && c ≤ 'z') || ('A' ≤ c && c ≤ 'Z')

def isAsciiDigit (c : Char) : Bool := '0' ≤ c && c ≤ '9'

def isAsciiAlnum (c : Char) : Bool := isAsciiLetter c || isAsciiDigit c

def isHexDigit (c : Char) : Bool :=
  isAsciiDigit c || ('a' ≤ c && c ≤ 'f') || ('A' ≤ c && c ≤ 'F')

def isLowerHexDigit (c : Char) : Bool := isAsciiDigit c || ('a' ≤ c && c ≤ 'f')

/-- Every character is in the class, and there are between `low` and `high` of them. -/
def allIn (p : Char → Bool) (low high : Nat) (cs : List Char) : Bool :=
  cs.all p && low ≤ cs.length && cs.length ≤ high

/-- A Python pattern that ends in `$` also accepts one newline after the text. -/
def dropFinalNewline (cs : List Char) : List Char :=
  if cs.getLast? = some '\n' then cs.dropLast else cs

/-- The code points of the zeros of the Unicode decimal digits, each followed by its one to nine. -/
def decimalZeros : List Nat :=
  [48, 1632, 1776, 1984, 2406, 2534, 2662, 2790, 2918, 3046, 3174, 3302, 3430, 3558, 3664, 3792,
   3872, 4160, 4240, 6112, 6160, 6470, 6608, 6784, 6800, 6992, 7088, 7232, 7248, 42528, 43216,
   43264, 43472, 43504, 43600, 44016, 65296, 66720, 68912, 69734, 69872, 69942, 70096, 70384,
   70736, 70864, 71248, 71360, 71472, 71904, 72016, 72784, 73040, 73120, 92768, 92864, 93008,
   120782, 120792, 120802, 120812, 120822, 123200, 123632, 125264, 130032]

def isDecimalChar (c : Char) : Bool :=
  decimalZeros.any fun z => z ≤ c.toNat && c.toNat < z + 10

/-- `str.isdecimal`. -/
def isDecimal (s : String) : Bool := !s.toList.isEmpty && s.toList.all isDecimalChar

/-- The characters that `\s` matches. -/
def isWhitespace (c : Char) : Bool :=
  let n := c.toNat
  (9 ≤ n && n ≤ 13) || (28 ≤ n && n ≤ 32) || (8192 ≤ n && n ≤ 8202) ||
    n ∈ [133, 160, 5760, 8232, 8233, 8239, 8287, 12288]

/-- `s[:n]`. -/
def truncate (n : Nat) (s : String) : String := String.ofList (s.toList.take n)

end FreeSdn.Lib
