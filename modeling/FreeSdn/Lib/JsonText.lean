import FreeSdn.Lib.Json

/-! Reading JSON text back.  `loads` reads every text that `Json.dumps` writes and returns the
value it was written for, so the text determines the value, also when more text follows it.
Whitespace between tokens is not read: the callers re-encode what they read and accept only the
compact text. -/

namespace FreeSdn.Lib.Json

def hexValue (c : Char) : Option Nat :=
  if 48 ≤ c.toNat ∧ c.toNat ≤ 57 then some (c.toNat - 48)
  else if 97 ≤ c.toNat ∧ c.toNat ≤ 102 then some (c.toNat - 87)
  else if 65 ≤ c.toNat ∧ c.toNat ≤ 70 then some (c.toNat - 55)
  else none

/-- The code unit after `\u`. -/
def readUnit : List Char → Option (Nat × List Char)
  | a :: b :: c :: d :: rest => do
    let a ← hexValue a
    let b ← hexValue b
    let c ← hexValue c
    let d ← hexValue d
    some (4096 * a + 256 * b + 16 * c + d, rest)
  | _ => none

/-- The low half of a surrogate pair whose high half is `high`. -/
def readLow (high : Nat) : List Char → Option (Char × List Char)
  | '\\' :: 'u' :: rest => do
    let (low, rest) ← readUnit rest
    if 56320 ≤ low ∧ low < 57344 then
      some (Char.ofNat (65536 + 1024 * (high - 55296) + (low - 56320)), rest)
    else none
  | _ => none

def readEscape (c : Char) (rest : List Char) : Option (Char × List Char) :=
  if c = 'u' then do
    let (unit, rest) ← readUnit rest
    if 55296 ≤ unit ∧ unit < 56320 then readLow unit rest else some (Char.ofNat unit, rest)
  else if c = 'n' then some ('\n', rest)
  else if c = 'r' then some ('\r', rest)
  else if c = 't' then some ('\t', rest)
  else if c = 'b' then some (Char.ofNat 8, rest)
  else if c = 'f' then some (Char.ofNat 12, rest)
  else if c = '"' ∨ c = '\\' ∨ c = '/' then some (c, rest)
  else none

/-- One character of a string, escaped or not.  The closing quote is not one. -/
def readChar : List Char → Option (Char × List Char)
  | [] => none
  | c :: rest =>
    if c = '\\' then
      match rest with
      | [] => none
      | e :: rest => readEscape e rest
    else if c = '"' ∨ c.toNat < 32 then none
    else some (c, rest)

/-- A string up to its closing quote. -/
def readString : Nat → List Char → Option (List Char × List Char)
  | 0, _ => none
  | _ + 1, [] => none
  | n + 1, c :: cs =>
    if c = '"' then some ([], cs)
    else do
      let (c, rest) ← readChar (c :: cs)
      let (tail, rest) ← readString n rest
      some (c :: tail, rest)

def readInt : List Char → Option Int
  | [] => none
  | c :: cs =>
    if c = '-' then
      if cs ≠ [] ∧ cs.all Char.isDigit then some (-(Nat.ofDigitChars 10 cs 0 : Int)) else none
    else if (c :: cs).all Char.isDigit then some (Nat.ofDigitChars 10 (c :: cs) 0 : Int)
    else none

def readNumber (cs : List Char) : Option (Json × List Char) :=
  let text := cs.takeWhile isNumberChar
  let rest := cs.dropWhile isNumberChar
  match readInt text with
  | some n => some (.int n, rest)
  | none => if h : isFloatText text = true then some (.float ⟨text, h⟩, rest) else none

/-- The rest of `cs` after `word`. -/
def skip : List Char → List Char → Option (List Char)
  | [], cs => some cs
  | _ :: _, [] => none
  | w :: ws, c :: cs => if w = c then skip ws cs else none

mutual
def readValue : Nat → List Char → Option (Json × List Char)
  | 0, _ => none
  | _ + 1, [] => none
  | n + 1, c :: cs =>
    if c = 'n' then (skip ['u', 'l', 'l'] cs).map fun rest => (.null, rest)
    else if c = 't' then (skip ['r', 'u', 'e'] cs).map fun rest => (.bool true, rest)
    else if c = 'f' then (skip ['a', 'l', 's', 'e'] cs).map fun rest => (.bool false, rest)
    else if c = '"' then
      (readString cs.length cs).map fun p => (.str (String.ofList p.1), p.2)
    else if c = '[' then
      match cs with
      | ']' :: rest => some (.arr [], rest)
      | _ => do
        let (x, rest) ← readValue n cs
        let (xs, rest) ← readItems n rest
        some (.arr (x :: xs), rest)
    else if c = '{' then
      match cs with
      | '}' :: rest => some (.obj [], rest)
      | _ => do
        let rest ← skip ['"'] cs
        let (k, rest) ← readString rest.length rest
        let rest ← skip [':'] rest
        let (v, rest) ← readValue n rest
        let (ms, rest) ← readMembers n rest
        some (.obj ((String.ofList k, v) :: ms), rest)
    else readNumber (c :: cs)

def readItems : Nat → List Char → Option (List Json × List Char)
  | 0, _ => none
  | _ + 1, [] => none
  | n + 1, c :: cs =>
    if c = ']' then some ([], cs)
    else if c = ',' then do
      let (x, rest) ← readValue n cs
      let (xs, rest) ← readItems n rest
      some (x :: xs, rest)
    else none

def readMembers : Nat → List Char → Option (List (String × Json) × List Char)
  | 0, _ => none
  | _ + 1, [] => none
  | n + 1, c :: cs =>
    if c = '}' then some ([], cs)
    else if c = ',' then do
      let rest ← skip ['"'] cs
      let (k, rest) ← readString rest.length rest
      let rest ← skip [':'] rest
      let (v, rest) ← readValue n rest
      let (ms, rest) ← readMembers n rest
      some ((String.ofList k, v) :: ms, rest)
    else none
end

/-- The value whose text is all of `cs`. -/
def loads (cs : List Char) : Option Json :=
  match readValue cs.length cs with
  | some (v, []) => some v
  | _ => none

/-! ### Characters -/

theorem hexValue_hexDigit : ∀ d < 16, hexValue (hexDigit d) = some d := by decide

theorem readUnit_unicodeEscape {n : Nat} (h : n < 65536) (rest : List Char) :
    readUnit ((unicodeEscape n).drop 2 ++ rest) = some (n, rest) := by
  have mod (m : Nat) : hexValue (hexDigit (m % 16)) = some (m % 16) :=
    hexValue_hexDigit _ (Nat.mod_lt _ (by decide))
  have value : 4096 * (n / 4096 % 16) + 256 * (n / 256 % 16) + 16 * (n / 16 % 16) + n % 16 = n := by
    omega
  simp [unicodeEscape, readUnit, mod, value]

theorem char_toNat_lt (c : Char) : c.toNat < 1114112 := by
  have h := c.valid
  simp only [UInt32.isValidChar, Nat.isValidChar] at h
  change c.val.toNat < 1114112
  omega

theorem char_not_surrogate (c : Char) : c.toNat < 55296 ∨ 57344 ≤ c.toNat := by
  have h := c.valid
  simp only [UInt32.isValidChar, Nat.isValidChar] at h
  change c.val.toNat < 55296 ∨ 57344 ≤ c.val.toNat
  omega

theorem readChar_unicodeEscape {c : Char} (h : c.toNat < 65536) (rest : List Char) :
    readChar (unicodeEscape c.toNat ++ rest) = some (c, rest) := by
  have unit := readUnit_unicodeEscape h rest
  have outside : ¬(55296 ≤ c.toNat ∧ c.toNat < 56320) := by
    have := char_not_surrogate c
    omega
  simp only [unicodeEscape, List.drop_succ_cons, List.drop_zero, List.cons_append,
    List.nil_append] at unit ⊢
  simp [readChar, readEscape, unit, outside]

/-- The two halves of a surrogate pair, read as one character. -/
theorem readChar_pair {high low : Nat} (inHigh : 55296 ≤ high ∧ high < 56320)
    (inLow : 56320 ≤ low ∧ low < 57344) (rest : List Char) :
    readChar (unicodeEscape high ++ (unicodeEscape low ++ rest)) =
      some (Char.ofNat (65536 + 1024 * (high - 55296) + (low - 56320)), rest) := by
  have unitHigh := readUnit_unicodeEscape (n := high) (by omega) (unicodeEscape low ++ rest)
  have unitLow := readUnit_unicodeEscape (n := low) (by omega) rest
  simp only [unicodeEscape, List.drop_succ_cons, List.drop_zero, List.cons_append,
    List.nil_append] at unitHigh unitLow ⊢
  simp [readChar, readEscape, unitHigh, unitLow, readLow, inHigh, inLow]

theorem readChar_escapeChar (c : Char) (rest : List Char) :
    readChar (escapeChar c ++ rest) = some (c, rest) := by
  unfold escapeChar
  split_ifs with quote slash newline ret tab back form plain unit
  · simp [readChar, readEscape, quote]
  · simp [readChar, readEscape, slash]
  · simp [readChar, readEscape, newline]
  · simp [readChar, readEscape, ret]
  · simp [readChar, readEscape, tab]
  · have same : Char.ofNat 8 = c := back ▸ Char.ofNat_toNat c
    simpa [readChar, readEscape] using same
  · have same : Char.ofNat 12 = c := form ▸ Char.ofNat_toNat c
    simpa [readChar, readEscape] using same
  · simp [readChar, quote, slash, plain.1]
  · exact readChar_unicodeEscape unit rest
  · have bound := char_toNat_lt c
    have whole : 65536 + 1024 * (55296 + (c.toNat - 65536) / 1024 - 55296) +
        (56320 + (c.toNat - 65536) % 1024 - 56320) = c.toNat := by omega
    rw [List.append_assoc, readChar_pair (by omega) (by omega), whole, Char.ofNat_toNat]

theorem readChar_escapeRaw (c : Char) (rest : List Char) :
    readChar (escapeRaw c ++ rest) = some (c, rest) := by
  unfold escapeRaw
  split_ifs with quote slash newline ret tab back form control
  · simp [readChar, readEscape, quote]
  · simp [readChar, readEscape, slash]
  · simp [readChar, readEscape, newline]
  · simp [readChar, readEscape, ret]
  · simp [readChar, readEscape, tab]
  · have same : Char.ofNat 8 = c := back ▸ Char.ofNat_toNat c
    simpa [readChar, readEscape] using same
  · have same : Char.ofNat 12 = c := form ▸ Char.ofNat_toNat c
    simpa [readChar, readEscape] using same
  · exact readChar_unicodeEscape (by omega) rest
  · simp [readChar, quote, slash, control]

/-! ### Strings -/

section
variable {escape : Char → List Char}

/-- `readChar` reads back every character that `escape` writes. -/
def Reads (escape : Char → List Char) : Prop :=
  ∀ c rest, readChar (escape c ++ rest) = some (c, rest)

theorem Reads.head (reads : Reads escape) (c : Char) : ∃ d ds, escape c = d :: ds ∧ d ≠ '"' := by
  have read := reads c []
  cases text : escape c with
  | nil => simp [text, readChar] at read
  | cons d ds =>
    refine ⟨d, ds, rfl, ?_⟩
    rintro rfl
    simp [text, readChar] at read

theorem readString_closeWith (reads : Reads escape) (cs : List Char) (n : Nat) (h : cs.length < n)
    (rest : List Char) : readString n (closeWith escape cs ++ rest) = some (cs, rest) := by
  induction cs generalizing n with
  | nil =>
    obtain ⟨n, rfl⟩ : ∃ m, n = m + 1 := ⟨n - 1, by simp at h; omega⟩
    simp [closeWith, readString]
  | cons c cs ih =>
    obtain ⟨n, rfl⟩ : ∃ m, n = m + 1 := ⟨n - 1, by simp at h; omega⟩
    obtain ⟨d, ds, head, hd⟩ := reads.head c
    have first := reads c (closeWith escape cs ++ rest)
    have tail := ih n (by simp at h; omega)
    rw [head, List.cons_append] at first
    have split : closeWith escape (c :: cs) ++ rest = d :: (ds ++ (closeWith escape cs ++ rest)) := by
      simp [closeWith, head]
    rw [split]
    simp [readString, hd, first, tail]

theorem length_le_closeWith (reads : Reads escape) (cs : List Char) :
    cs.length < (closeWith escape cs).length := by
  induction cs with
  | nil => simp [closeWith]
  | cons c cs ih =>
    obtain ⟨d, ds, head, _⟩ := reads.head c
    simp [closeWith, head] at ih ⊢
    omega

theorem readString_key (reads : Reads escape) (k : String) (rest : List Char) :
    readString (closeWith escape k.toList ++ rest).length (closeWith escape k.toList ++ rest) =
      some (k.toList, rest) := by
  apply readString_closeWith reads
  have := length_le_closeWith reads k.toList
  simp only [List.length_append]
  omega

end

theorem length_le_closeString (cs : List Char) : cs.length < (closeString cs).length :=
  length_le_closeWith readChar_escapeChar cs

/-! ### Numbers -/

/-- What may follow a value: nothing that a number could go on with. -/
def Ends (rest : List Char) : Prop := ∀ c ∈ rest.head?, isNumberChar c = false

theorem ends_nil : Ends [] := by
  intro c mem
  simp at mem

theorem takeWhile_append_ends {cs rest : List Char} (all : ∀ c ∈ cs, isNumberChar c = true)
    (ends : Ends rest) : (cs ++ rest).takeWhile isNumberChar = cs := by
  rw [List.takeWhile_append_of_pos all]
  cases rest with
  | nil => simp
  | cons c rest => simp [List.takeWhile, ends c (by simp)]

theorem dropWhile_append_ends {cs rest : List Char} (all : ∀ c ∈ cs, isNumberChar c = true)
    (ends : Ends rest) : (cs ++ rest).dropWhile isNumberChar = rest := by
  rw [List.dropWhile_append_of_pos all]
  cases rest with
  | nil => rfl
  | cons c rest => simp [List.dropWhile, ends c (by simp)]

theorem readNumber_append {cs rest : List Char} (all : ∀ c ∈ cs, isNumberChar c = true)
    (ends : Ends rest) :
    readNumber (cs ++ rest) = (readNumber cs).map fun p => (p.1, rest) := by
  have whole := takeWhile_append_ends all ends_nil
  simp only [List.append_nil] at whole
  simp only [readNumber, takeWhile_append_ends all ends, dropWhile_append_ends all ends, whole]
  cases readInt cs with
  | some n => rfl
  | none =>
    by_cases float : isFloatText cs = true
    · simp [float]
    · simp [float]

theorem natText_digits (n : Nat) : ∀ c ∈ natText n, c.isDigit = true :=
  fun _ mem => Nat.isDigit_of_mem_toDigits (by decide) (by decide) mem

theorem natText_value (n : Nat) : Nat.ofDigitChars 10 (natText n) 0 = n :=
  Nat.ofDigitChars_toDigits (by decide) (by decide)

theorem natText_ne_nil (n : Nat) : natText n ≠ [] := Nat.toDigits_ne_nil

theorem intText_number (n : Int) : ∀ c ∈ intText n, isNumberChar c = true := by
  intro c mem
  unfold intText at mem
  split at mem
  · rcases List.mem_cons.mp mem with rfl | mem
    · decide
    · simp [isNumberChar, natText_digits _ c mem]
  · simp [isNumberChar, natText_digits _ c mem]

theorem readInt_intText (n : Int) : readInt (intText n) = some n := by
  unfold intText
  split
  · have all : (natText n.natAbs).all Char.isDigit = true := List.all_eq_true.mpr (natText_digits _)
    simp only [readInt, natText_ne_nil, all, natText_value, ne_eq, not_false_eq_true, and_self,
      ↓reduceIte, Option.some.injEq]
    omega
  · have digits := natText_digits n.natAbs
    have value := natText_value n.natAbs
    cases text : natText n.natAbs with
    | nil => exact absurd text (natText_ne_nil _)
    | cons c cs =>
      rw [text] at digits value
      have first : c ≠ '-' := by
        rintro rfl
        exact absurd (digits '-' (by simp)) (by decide)
      have all : (c :: cs).all Char.isDigit = true := List.all_eq_true.mpr digits
      simp only [readInt, first, ↓reduceIte, all, value, Option.some.injEq]
      omega

/-- The first characters that `readValue` takes for something other than a number. -/
theorem number_head {c : Char} (h : c.isDigit = true ∨ c = '-' ∨ c = 'N' ∨ c = 'I') :
    c ≠ 'n' ∧ c ≠ 't' ∧ c ≠ 'f' ∧ c ≠ '"' ∧ c ≠ '[' ∧ c ≠ '{' := by
  refine ⟨?_, ?_, ?_, ?_, ?_, ?_⟩ <;> rintro rfl <;> revert h <;> decide

theorem readValue_number {c : Char} {cs rest : List Char} {v : Json} (n : Nat)
    (head : c.isDigit = true ∨ c = '-' ∨ c = 'N' ∨ c = 'I')
    (all : ∀ d ∈ c :: cs, isNumberChar d = true) (value : readNumber (c :: cs) = some (v, []))
    (ends : Ends rest) : readValue (n + 1) (c :: cs ++ rest) = some (v, rest) := by
  obtain ⟨h1, h2, h3, h4, h5, h6⟩ := number_head head
  have number := readNumber_append all ends
  rw [value] at number
  simp only [List.cons_append] at number ⊢
  simp [readValue, h1, h2, h3, h4, h5, h6, number]

theorem intText_head (n : Int) :
    ∃ c cs, intText n = c :: cs ∧ (c.isDigit = true ∨ c = '-' ∨ c = 'N' ∨ c = 'I') := by
  unfold intText
  split
  · exact ⟨_, _, rfl, by simp⟩
  · have digits := natText_digits n.natAbs
    cases text : natText n.natAbs with
    | nil => exact absurd text (natText_ne_nil _)
    | cons c cs => exact ⟨c, cs, rfl, .inl (digits c (by rw [text]; simp))⟩

theorem readNumber_intText (n : Int) : readNumber (intText n) = some (.int n, []) := by
  have take := takeWhile_append_ends (intText_number n) ends_nil
  have drop := dropWhile_append_ends (intText_number n) ends_nil
  simp only [List.append_nil] at take drop
  simp [readNumber, take, drop, readInt_intText]

theorem readInt_float {cs : List Char} (h : isFloatText cs = true) : readInt cs = none := by
  obtain ⟨c, mem, special⟩ : ∃ c ∈ cs, c.isDigit = false ∧ c ≠ '-' := by
    simp only [isFloatText, Bool.and_eq_true, List.any_eq_true, Bool.or_eq_true, beq_iff_eq] at h
    obtain ⟨⟨_, c, mem, h⟩, _⟩ := h
    refine ⟨c, mem, ?_⟩
    rcases h with ((rfl | rfl) | rfl) | rfl <;> decide
  cases cs with
  | nil => simp at mem
  | cons d ds =>
    have notAll : ∀ ds' : List Char, c ∈ ds' → ds'.all Char.isDigit = false := by
      intro ds' mem
      exact List.all_eq_false.mpr ⟨c, mem, by simp [special.1]⟩
    by_cases minus : d = '-'
    · have inTail : c ∈ ds := by
        rcases List.mem_cons.mp mem with rfl | mem
        · exact absurd minus special.2
        · exact mem
      simp [readInt, minus, notAll ds inTail]
    · simp [readInt, minus, notAll _ mem]

theorem readNumber_float (t : FloatText) : readNumber t.chars = some (.float t, []) := by
  have all : ∀ c ∈ t.chars, isNumberChar c = true := by
    have h := t.valid
    simp only [isFloatText, Bool.and_eq_true, List.all_eq_true] at h
    exact h.1.1
  have take := takeWhile_append_ends all ends_nil
  have drop := dropWhile_append_ends all ends_nil
  simp only [List.append_nil] at take drop
  simp [readNumber, take, drop, readInt_float t.valid, t.valid]

/-! ### Values -/

/-- Fuel that suffices to read the value back. -/
def size : Json → Nat
  | .arr [] => 1
  | .arr (x :: xs) => 1 + size x + sizeItems xs
  | .obj [] => 1
  | .obj ((_, v) :: ms) => 1 + size v + sizeMembers ms
  | _ => 1
where
  sizeItems : List Json → Nat
    | [] => 1
    | x :: xs => 1 + size x + sizeItems xs
  sizeMembers : List (String × Json) → Nat
    | [] => 1
    | (_, v) :: ms => 1 + size v + sizeMembers ms

section
variable {escape : Char → List Char}

theorem ends_writeItems (xs : List Json) (rest : List Char) : Ends (writeItems escape xs ++ rest) := by
  intro c mem
  cases xs <;> simp [writeItems] at mem <;> subst mem <;> decide

theorem ends_writeMembers (ms : List (String × Json)) (rest : List Char) :
    Ends (writeMembers escape ms ++ rest) := by
  intro c mem
  cases ms <;> simp [writeMembers] at mem <;> subst mem <;> decide

mutual
theorem readValue_write (reads : Reads escape) : (v : Json) → (n : Nat) → (rest : List Char) →
    size v ≤ n → Ends rest → readValue n (write escape v ++ rest) = some (v, rest)
  | v, 0, _, h, _ => by
    unfold size at h
    split at h <;> omega
  | .null, n + 1, rest, _, _ => by simp [write, readValue, skip]
  | .bool true, n + 1, rest, _, _ => by simp [write, readValue, skip]
  | .bool false, n + 1, rest, _, _ => by simp [write, readValue, skip]
  | .int i, n + 1, rest, _, ends => by
    obtain ⟨c, cs, text, head⟩ := intText_head i
    have all := intText_number i
    have value := readNumber_intText i
    rw [text] at all value
    rw [write, text]
    exact readValue_number n head all value ends
  | .float t, n + 1, rest, _, ends => by
    have value := readNumber_float t
    have valid := t.valid
    cases text : t.chars with
    | nil => rw [text] at valid; simp [isFloatText] at valid
    | cons c cs =>
      rw [text] at value valid
      simp only [isFloatText, Bool.and_eq_true, List.all_eq_true, Bool.or_eq_true,
        beq_iff_eq] at valid
      rw [write, text]
      exact readValue_number n (by simpa [or_assoc] using valid.2) valid.1.1 value ends
  | .str s, n + 1, rest, _, _ => by
    simp only [write, List.cons_append, readValue, Char.reduceEq, ↓reduceIte,
      readString_key reads s rest, Option.map_some, String.ofList_toList]
  | .arr [], n + 1, rest, _, _ => by simp [write, readValue]
  | .arr (x :: xs), n + 1, rest, h, ends => by
    simp only [size] at h
    have first := readValue_write reads x n (writeItems escape xs ++ rest) (by omega)
      (ends_writeItems xs rest)
    have tail := readItems_writeItems reads xs n rest (by omega)
    have open_ : ∀ r, write escape x ++ (writeItems escape xs ++ rest) ≠ ']' :: r := by
      intro r eq
      rw [eq] at first
      cases n with
      | zero => simp [readValue] at first
      | succ n => simp [readValue, readNumber, isNumberChar, readInt, isFloatText] at first
    simp only [write, List.cons_append, List.append_assoc, readValue, Char.reduceEq, ↓reduceIte]
    simp [first, tail]
  | .obj [], n + 1, rest, _, _ => by simp [write, readValue]
  | .obj ((k, v) :: ms), n + 1, rest, h, ends => by
    simp only [size] at h
    have value := readValue_write reads v n (writeMembers escape ms ++ rest) (by omega)
      (ends_writeMembers ms rest)
    have tail := readMembers_writeMembers reads ms n rest (by omega)
    have key := readString_key reads k (':' :: (write escape v ++ (writeMembers escape ms ++ rest)))
    simp only [write, List.cons_append, List.append_assoc, readValue, Char.reduceEq, ↓reduceIte,
      skip, Option.bind_eq_bind, Option.bind_some, key, value, tail, String.ofList_toList]
    rfl

theorem readItems_writeItems (reads : Reads escape) : (xs : List Json) → (n : Nat) → (rest : List Char) →
    size.sizeItems xs ≤ n → readItems n (writeItems escape xs ++ rest) = some (xs, rest)
  | xs, 0, _, h => by
    cases xs <;> simp only [size.sizeItems] at h <;> omega
  | [], n + 1, rest, _ => by simp [writeItems, readItems]
  | x :: xs, n + 1, rest, h => by
    simp only [size.sizeItems] at h
    have first := readValue_write reads x n (writeItems escape xs ++ rest) (by omega)
      (ends_writeItems xs rest)
    have tail := readItems_writeItems reads xs n rest (by omega)
    simp [writeItems, readItems, first, tail]

theorem readMembers_writeMembers (reads : Reads escape) : (ms : List (String × Json)) → (n : Nat) →
    (rest : List Char) → size.sizeMembers ms ≤ n →
    readMembers n (writeMembers escape ms ++ rest) = some (ms, rest)
  | ms, 0, _, h => by
    rcases ms with _ | ⟨⟨_, _⟩, _⟩ <;> simp only [size.sizeMembers] at h <;> omega
  | [], n + 1, rest, _ => by simp [writeMembers, readMembers]
  | (k, v) :: ms, n + 1, rest, h => by
    simp only [size.sizeMembers] at h
    have value := readValue_write reads v n (writeMembers escape ms ++ rest) (by omega)
      (ends_writeMembers ms rest)
    have tail := readMembers_writeMembers reads ms n rest (by omega)
    have key := readString_key reads k (':' :: (write escape v ++ (writeMembers escape ms ++ rest)))
    simp only [writeMembers, List.cons_append, List.append_assoc, readMembers, Char.reduceEq,
      ↓reduceIte, skip, Option.bind_eq_bind, Option.bind_some, key, value, tail,
      String.ofList_toList]
end

mutual
theorem size_le_write : (v : Json) → size v ≤ (write escape v).length
  | .null | .bool true | .bool false | .arr [] | .obj [] => by simp [size, write]
  | .int i => by
    obtain ⟨c, cs, text, _⟩ := intText_head i
    simp [size, write, text]
  | .float t => by
    have valid := t.valid
    cases text : t.chars with
    | nil => rw [text] at valid; simp [isFloatText] at valid
    | cons c cs => simp [size, write, text]
  | .str s => by simp [size, write]
  | .arr (x :: xs) => by
    have first := size_le_write x
    have tail := sizeItems_le_writeItems xs
    simp only [size, write, List.length_cons, List.length_append]
    omega
  | .obj ((k, v) :: ms) => by
    have value := size_le_write v
    have tail := sizeMembers_le_writeMembers ms
    simp only [size, write, List.length_cons, List.length_append]
    omega

theorem sizeItems_le_writeItems : (xs : List Json) → size.sizeItems xs ≤ (writeItems escape xs).length
  | [] => by simp [size.sizeItems, writeItems]
  | x :: xs => by
    have first := size_le_write x
    have tail := sizeItems_le_writeItems xs
    simp only [size.sizeItems, writeItems, List.length_cons, List.length_append]
    omega

theorem sizeMembers_le_writeMembers :
    (ms : List (String × Json)) → size.sizeMembers ms ≤ (writeMembers escape ms).length
  | [] => by simp [size.sizeMembers, writeMembers]
  | (k, v) :: ms => by
    have value := size_le_write v
    have tail := sizeMembers_le_writeMembers ms
    simp only [size.sizeMembers, writeMembers, List.length_cons, List.length_append]
    omega
end

theorem loads_write (reads : Reads escape) (v : Json) : loads (write escape v) = some v := by
  have read := readValue_write reads v (write escape v).length [] (size_le_write v) ends_nil
  simp only [List.append_nil] at read
  simp [loads, read]

end

theorem loads_dumps (v : Json) : loads (dumps v) = some v := by
  rw [dumps_eq]
  exact loads_write readChar_escapeChar v

theorem loads_dumpsRaw (v : Json) : loads (dumpsRaw v) = some v := loads_write readChar_escapeRaw v

/-- The text determines the value. -/
theorem dumps_injective : Function.Injective dumps := by
  intro v w same
  have h := loads_dumps v
  rw [same, loads_dumps] at h
  exact (Option.some.inj h).symm

example : loads (dumps (.obj [("a", .int (-10)), ("b", .arr [.null, .str "x\ny"])])) =
    some (.obj [("a", .int (-10)), ("b", .arr [.null, .str "x\ny"])]) := loads_dumps _

end FreeSdn.Lib.Json
