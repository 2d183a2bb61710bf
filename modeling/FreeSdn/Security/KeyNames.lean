import Mathlib.Data.List.Basic
import Mathlib.Data.List.Chain
import Mathlib.Data.String.Basic

/-! Which keys of a payload name secrets (`_norm_key` and `_key_is_sensitive` of `core/redaction.py`), and
that the spelling of a key plays no part in it. -/

namespace FreeSdn.Security

/-- `str.lower` and `str.isdigit` of one character.  Of the Unicode tables only the ASCII part matters. -/
structure Strings where
  lower : List Char → List Char
  isDigit : Char → Bool
  lower_ascii : ∀ cs : List Char, (∀ c ∈ cs, c.toNat < 128) → lower cs = cs.map Char.toLower
  isDigit_ascii : ∀ c : Char, c.toNat < 128 → isDigit c = c.isDigit

/-- `_SENSITIVE_KEYS`. -/
def sensitiveKeys : List String :=
  ["password", "hashed_password", "secret", "api_key", "apikey", "api_secret", "client_secret",
   "token", "access_token", "refresh_token", "credential", "credentials", "setup_key", "cookie",
   "session_token", "encryption_key", "passphrase", "passwd", "private_key", "privkey", "priv_key",
   "ssh_key", "sshkeys", "psk", "pre_shared_key", "preshared_key", "tls_key", "tls_auth",
   "tls_crypt", "shared_key", "ca_key", "auth_key", "key_passphrase", "private_key_passphrase",
   "cert", "certificate", "ca", "ca_chain", "crl", "dh", "tls_certificate", "cipassword", "args",
   "hookscript", "auth_user_pass", "radius_secret", "snmp_community", "community", "auth_password",
   "authentication_password", "encryption_password", "mschapv2_password", "shared_secret",
   "ipsec_secret", "private_key_file", "auth_secret", "mfa_secret", "mfa_backup_codes",
   "otp_secret", "x_passphrase", "x_iapp_key", "x_xstauthkey", "x_xstcrypt", "x_password",
   "x_authkey", "x_ssh_password", "ssh_password", "x_vwirekey", "wpa_psk", "wireguard_private_key",
   "wireguard_psk", "ciuserdata", "cinetuserdata", "cibootcmd", "ciupgrade", "vncticket", "ticket",
   "csrf_prevention_token", "target_password", "acme_account_key", "registration_password",
   "bindpw", "bind_password", "bindpassword", "security_key", "securitykey", "presharedkey",
   "sip_secret", "client_key", "owner_password", "prescript", "postscript"]
/-- `_SENSITIVE_PREFIXES`. -/
def sensitivePrefixes : List String := ["ipconfig"]

/-- `_SENSITIVE_SUFFIXES`. -/
def sensitiveSuffixes : List String :=
  ["setup_key", "config_content", "private_key", "pre_shared_key", "preshared_key", "radius_secret",
   "shared_secret"]

/-- `_CAMEL_BOUNDARY_RE` between two characters. -/
def camelBoundary (before after : Char) (next : Option Char) : Bool :=
  ((before.isLower || before.isDigit) && after.isUpper) ||
    (before.isUpper && after.isUpper && next.any Char.isLower)

/-- `_CAMEL_BOUNDARY_RE.sub("_", key)`, behind the character `before`. -/
def splitCamel : Option Char → List Char → List Char
  | _, [] => []
  | before, c :: rest =>
    (if before.any (camelBoundary · c rest.head?) then ['_'] else []) ++ c :: splitCamel (some c) rest

/-- `replace("-", "_")`. -/
def undash (c : Char) : Char := if c = '-' then '_' else c

variable (strings : Strings)

/-- `_norm_key`. -/
def normKey (key : List Char) : List Char := (strings.lower (splitCamel none key)).map undash

/-- What `_key_is_sensitive` looks for in the normalised key. -/
def isSensitiveNorm (norm : List Char) : Bool :=
  (sensitiveKeys.map String.toList).contains norm ||
    sensitivePrefixes.any (fun p => p.toList.isPrefixOf norm && norm.length > p.toList.length &&
      (norm.drop p.toList.length).all strings.isDigit) ||
    (norm ≠ "public_key".toList && sensitiveSuffixes.any fun s => s.toList.isSuffixOf norm)

/-- `_key_is_sensitive`. -/
def keyIsSensitive (key : String) : Bool := isSensitiveNorm strings (normKey strings key.toList)

/-- The tables restricted to ASCII. -/
def Strings.ascii : Strings := ⟨fun cs => cs.map Char.toLower, Char.isDigit, fun _ _ => rfl, fun _ _ => rfl⟩

/-! ### Spellings -/

/-- A word of lower-case letters and digits: it starts with a letter, and is not that letter alone. -/
structure IsWord (w : List Char) : Prop where
  long : 2 ≤ w.length
  letter : ∀ c ∈ w.head?, c.isLower
  plain : ∀ c ∈ w, c.isLower || c.isDigit

/-- The words with a separator between them. -/
def joined (separator : Char) (ws : List (List Char)) : List Char := List.intercalate [separator] ws

def upper (w : List Char) : List Char := w.map Char.toUpper

def capitalized : List Char → List Char
  | [] => []
  | c :: w => c.toUpper :: w

def pascal (ws : List (List Char)) : List Char := ws.flatMap capitalized

def camel : List (List Char) → List Char
  | [] => []
  | w :: ws => w ++ pascal ws

/-! ### Characters of keys -/

/-- Lower-case letters, digits and underscores. -/
def IsKeyChar (c : Char) : Prop := c.isLower ∨ c.isDigit ∨ c = '_'

instance (c : Char) : Decidable (IsKeyChar c) := inferInstanceAs (Decidable (_ ∨ _ ∨ _))

/-- What the capitals of a key do to a character. -/
def shout (separator c : Char) : Char := if c = '_' then separator else c.toUpper

/-- A fact about characters of keys is a fact about ASCII. -/
theorem keyChar_cases {P : Char → Prop}
    (each : ∀ n : Fin 128, IsKeyChar (Char.ofNat n) → P (Char.ofNat n)) {c : Char} (key : IsKeyChar c) :
    P c := by
  have small : c.toNat < 128 := by
    rcases key with lower | digit | rfl
    · change (c.val ≥ 'a'.val && c.val ≤ 'z'.val) = true at lower
      simp only [Bool.and_eq_true, decide_eq_true_iff, UInt32.le_iff_toNat_le] at lower
      exact Nat.lt_of_le_of_lt lower.2 (by decide)
    · simp only [Char.isDigit, Bool.and_eq_true, decide_eq_true_iff, UInt32.le_iff_toNat_le] at digit
      exact Nat.lt_of_le_of_lt digit.2 (by decide)
    · decide
  have same := each ⟨c.toNat, small⟩
  rw [show Char.ofNat c.toNat = c from Char.ofNat_toNat c] at same
  exact same key

theorem keyChar_plain {c : Char} (key : IsKeyChar c) :
    c.isUpper = false ∧ c.toLower = c ∧ undash c = c ∧ c.toNat < 128 ∧ c ≠ '-' :=
  keyChar_cases (P := fun c => c.isUpper = false ∧ c.toLower = c ∧ undash c = c ∧ c.toNat < 128 ∧ c ≠ '-')
    (by decide) key

theorem keyChar_upper {c : Char} (key : IsKeyChar c) :
    c.toUpper.isLower = false ∧ c.toUpper.isUpper = c.isLower ∧ c.toUpper.isDigit = c.isDigit ∧
      c.toUpper.toLower = c ∧ undash c.toUpper = c.toUpper ∧ c.toUpper.toNat < 128 :=
  keyChar_cases (P := fun c => c.toUpper.isLower = false ∧ c.toUpper.isUpper = c.isLower ∧
    c.toUpper.isDigit = c.isDigit ∧ c.toUpper.toLower = c ∧ undash c.toUpper = c.toUpper ∧
      c.toUpper.toNat < 128) (by decide) key

/-- An underscore or a hyphen. -/
def IsSeparator (c : Char) : Prop := c = '_' ∨ c = '-'

theorem keyChar_shout {c separator : Char} (key : IsKeyChar c) (dash : IsSeparator separator) :
    (shout separator c).isLower = false ∧ (shout separator c).isUpper = c.isLower ∧
      (shout separator c).isDigit = c.isDigit ∧ undash (shout separator c).toLower = c ∧
      (shout separator c).toNat < 128 := by
  by_cases under : c = '_'
  · subst under
    rcases dash with rfl | rfl <;> decide
  · obtain ⟨lower, up, digit, back, dashed, small⟩ := keyChar_upper key
    rw [shout, if_neg under]
    exact ⟨lower, up, digit, by rw [back, (keyChar_plain key).2.2.1], small⟩

/-! ### The boundaries of a key -/

/-- Without capitals there is none. -/
theorem splitCamel_append {cs : List Char} (plain : ∀ c ∈ cs, c.isUpper = false) (before : Option Char)
    (rest : List Char) :
    splitCamel before (cs ++ rest) = cs ++ splitCamel (cs.getLast?.or before) rest := by
  induction cs generalizing before with
  | nil => rfl
  | cons c cs ih =>
    have none_ : before.any (camelBoundary · c (cs ++ rest).head?) = false := by
      cases before with
      | none => rfl
      | some b => simp [camelBoundary, plain c List.mem_cons_self]
    rw [List.cons_append, splitCamel, none_, ih fun d mem => plain d (List.mem_cons_of_mem c mem)]
    simp only [Bool.false_eq_true, if_false, List.nil_append, List.cons_append, List.cons.injEq, true_and]
    cases cs with
    | nil => rfl
    | cons d cs => simp [List.getLast?_cons]

theorem splitCamel_plain {cs : List Char} (plain : ∀ c ∈ cs, c.isUpper = false) (before : Option Char) :
    splitCamel before cs = cs := by
  have whole := splitCamel_append plain before []
  rw [List.append_nil] at whole
  rw [whole, splitCamel, List.append_nil]

/-- What comes behind is split in its own way. -/
theorem splitCamel_suffix (before : Option Char) (xs ys : List Char) :
    ∃ front before', splitCamel before (xs ++ ys) = front ++ splitCamel before' ys := by
  induction xs generalizing before with
  | nil => exact ⟨[], before, rfl⟩
  | cons x xs ih =>
    obtain ⟨front, before', same⟩ := ih (some x)
    rw [List.cons_append, splitCamel, same]
    exact ⟨_ ++ x :: front, before', (List.append_assoc _ (x :: front) _).symm⟩

theorem splitCamel_ascii {cs : List Char} (ascii : ∀ c ∈ cs, c.toNat < 128) (before : Option Char) :
    ∀ c ∈ splitCamel before cs, c.toNat < 128 := by
  induction cs generalizing before with
  | nil => simp [splitCamel]
  | cons c cs ih =>
    intro d mem
    rw [splitCamel] at mem
    rcases List.mem_append.mp mem with under | rest
    · split at under
      · obtain rfl := List.mem_singleton.mp under
        decide
      · cases under
    · rcases List.mem_cons.mp rest with rfl | later
      · exact ascii d List.mem_cons_self
      · exact ih (fun e inside => ascii e (List.mem_cons_of_mem c inside)) (some c) d later

/-- The rest of the normalisation, of an ASCII key. -/
def settle (c : Char) : Char := undash c.toLower

theorem normKey_ascii (strings : Strings) {key : List Char} (ascii : ∀ c ∈ key, c.toNat < 128) :
    normKey strings key = (splitCamel none key).map settle := by
  rw [normKey, strings.lower_ascii _ (splitCamel_ascii ascii none), List.map_map]
  rfl

theorem settle_keyChar {c : Char} (key : IsKeyChar c) : settle c = c := by
  obtain ⟨-, lower, dashed, -⟩ := keyChar_plain key
  rw [settle, lower, dashed]

/-! ### Words -/

variable {ws : List (List Char)} {w : List Char} {separator : Char}

theorem IsWord.keyChar (word : IsWord w) {c : Char} (mem : c ∈ w) : IsKeyChar c := by
  rcases (Bool.or_eq_true _ _).mp (word.plain c mem) with lower | digit
  · exact Or.inl lower
  · exact Or.inr (Or.inl digit)

theorem IsWord.shape (word : IsWord w) : ∃ c d tail, w = c :: d :: tail := by
  cases w with
  | nil => exact absurd word.long (by simp)
  | cons c w =>
    cases w with
    | nil => exact absurd word.long (by simp)
    | cons d tail => exact ⟨c, d, tail, rfl⟩

theorem IsWord.settled (word : IsWord w) : w.map settle = w :=
  (List.map_congr_left fun _ mem => settle_keyChar (word.keyChar mem)).trans (List.map_id w)

theorem joined_cons (separator : Char) (w : List Char) (ws : List (List Char)) :
    joined separator (w :: ws) = w ++ ws.flatMap (separator :: ·) := by
  induction ws generalizing w with
  | nil => simp [joined]
  | cons v ws ih =>
    have next : joined separator (w :: v :: ws) = w ++ [separator] ++ joined separator (v :: ws) := by
      simp [joined, List.intercalate]
    rw [next, ih, List.flatMap_cons]
    simp

theorem map_joined (f : Char → Char) (separator : Char) (ws : List (List Char)) :
    (joined separator ws).map f = joined (f separator) (ws.map (List.map f)) := by
  cases ws with
  | nil => rfl
  | cons w ws =>
    rw [joined_cons, List.map_cons, joined_cons, List.map_append, List.map_flatMap, List.flatMap_map]
    rfl

theorem mem_joined {c : Char} (mem : c ∈ joined separator ws) : c = separator ∨ ∃ w ∈ ws, c ∈ w := by
  cases ws with
  | nil => cases mem
  | cons w ws =>
    rw [joined_cons] at mem
    rcases List.mem_append.mp mem with first | later
    · exact Or.inr ⟨w, List.mem_cons_self, first⟩
    · obtain ⟨v, inside, here⟩ := List.mem_flatMap.mp later
      rcases List.mem_cons.mp here with rfl | there
      · exact Or.inl rfl
      · exact Or.inr ⟨v, List.mem_cons_of_mem w inside, there⟩

/-- Underscores or hyphens between the words come to the same. -/
theorem normKey_joined (strings : Strings) (words : ∀ w ∈ ws, IsWord w) (dash : IsSeparator separator) :
    normKey strings (joined separator ws) = joined '_' ws := by
  have chars : ∀ c ∈ joined separator ws, c.isUpper = false ∧ c.toNat < 128 := by
    intro c mem
    rcases mem_joined mem with rfl | ⟨w, inside, here⟩
    · rcases dash with rfl | rfl <;> decide
    · obtain ⟨up, -, -, small, -⟩ := keyChar_plain ((words w inside).keyChar here)
      exact ⟨up, small⟩
  have separated : settle separator = '_' := by
    rcases dash with rfl | rfl <;> decide
  rw [normKey_ascii strings fun c mem => (chars c mem).2, splitCamel_plain fun c mem => (chars c mem).1,
    map_joined, separated]
  exact congrArg (joined '_') ((List.map_congr_left fun w mem => (words w mem).settled).trans (List.map_id ws))

/-- A capital behind a word begins a word, and the rest of that word does not. -/
theorem splitCamel_pascal (words : ∀ w ∈ ws, IsWord w) {before : Char}
    (plain : before.isLower || before.isDigit) :
    splitCamel (some before) (pascal ws) = ws.flatMap fun w => '_' :: capitalized w := by
  induction ws generalizing before with
  | nil => rfl
  | cons w ws ih =>
    have word := words w List.mem_cons_self
    have rest := fun v mem => words v (List.mem_cons_of_mem w mem)
    obtain ⟨c, d, tail, rfl⟩ := word.shape
    have upper : c.toUpper.isUpper = true := by
      rw [(keyChar_upper (word.keyChar List.mem_cons_self)).2.1]
      exact word.letter c rfl
    have lower : ∀ e ∈ d :: tail, e.isUpper = false := fun e mem =>
      (keyChar_plain (word.keyChar (List.mem_cons_of_mem c mem))).1
    have lastPlain : ((d :: tail).getLast (List.cons_ne_nil d tail)).isLower ||
        ((d :: tail).getLast (List.cons_ne_nil d tail)).isDigit :=
      word.plain _ (List.mem_cons_of_mem c (List.getLast_mem _))
    have boundary (next : Option Char) : camelBoundary before c.toUpper next = true := by
      simp [camelBoundary, plain, upper]
    have split : pascal ((c :: d :: tail) :: ws) = c.toUpper :: ((d :: tail) ++ pascal ws) := rfl
    rw [split, splitCamel, splitCamel_append lower, List.getLast?_eq_some_getLast (List.cons_ne_nil d tail)]
    simp only [Option.any_some, boundary, if_true, Option.some_or, ih rest lastPlain]
    rfl

/-- The capitals of words become underscores in front of them. -/
theorem settle_pascal (words : ∀ w ∈ ws, IsWord w) :
    (ws.flatMap fun w => '_' :: capitalized w).map settle = ws.flatMap ('_' :: ·) := by
  rw [List.map_flatMap]
  refine List.flatMap_congr fun w mem => ?_
  have word := words w mem
  cases w with
  | nil => rfl
  | cons c w =>
    have first : settle c.toUpper = c := by
      have key := word.keyChar (c := c) List.mem_cons_self
      rw [settle, (keyChar_upper key).2.2.2.1, (keyChar_plain key).2.2.1]
    have later : w.map settle = w := List.tail_eq_of_cons_eq word.settled
    rw [List.map_cons, capitalized, List.map_cons, first, later]
    rfl

theorem capitalized_ascii (word : IsWord w) : ∀ c ∈ capitalized w, c.toNat < 128 := by
  intro c mem
  cases w with
  | nil => cases mem
  | cons d w =>
    rcases List.mem_cons.mp mem with rfl | later
    · exact (keyChar_upper (word.keyChar List.mem_cons_self)).2.2.2.2.2
    · exact (keyChar_plain (word.keyChar (List.mem_cons_of_mem d later))).2.2.2.1

theorem pascal_ascii (words : ∀ w ∈ ws, IsWord w) : ∀ c ∈ pascal ws, c.toNat < 128 := by
  intro c mem
  obtain ⟨w, inside, here⟩ := List.mem_flatMap.mp mem
  exact capitalized_ascii (words w inside) c here

theorem normKey_camel (strings : Strings) (words : ∀ w ∈ ws, IsWord w) :
    normKey strings (camel ws) = joined '_' ws := by
  cases ws with
  | nil =>
    rw [normKey_ascii strings (by simp [camel])]
    rfl
  | cons w ws =>
    have word := words w List.mem_cons_self
    have rest : ∀ v ∈ ws, IsWord v := fun v mem => words v (List.mem_cons_of_mem w mem)
    have some_ : w ≠ [] := by
      rintro rfl
      exact absurd word.long (by simp)
    have ascii : ∀ c ∈ camel (w :: ws), c.toNat < 128 := by
      intro c mem
      rcases List.mem_append.mp mem with first | later
      · exact (keyChar_plain (word.keyChar first)).2.2.2.1
      · exact pascal_ascii rest c later
    rw [normKey_ascii strings ascii, camel, splitCamel_append fun c mem => (keyChar_plain (word.keyChar mem)).1,
      List.getLast?_eq_some_getLast some_, Option.some_or,
      splitCamel_pascal rest (word.plain _ (List.getLast_mem some_)), List.map_append, settle_pascal rest,
      word.settled, joined_cons]

theorem normKey_pascal (strings : Strings) (words : ∀ w ∈ ws, IsWord w) :
    normKey strings (pascal ws) = joined '_' ws := by
  cases ws with
  | nil =>
    rw [normKey_ascii strings (by simp [pascal])]
    rfl
  | cons w ws =>
    have word := words w List.mem_cons_self
    have rest : ∀ v ∈ ws, IsWord v := fun v mem => words v (List.mem_cons_of_mem w mem)
    obtain ⟨c, d, tail, rfl⟩ := word.shape
    have lower : ∀ e ∈ d :: tail, e.isUpper = false := fun e mem =>
      (keyChar_plain (word.keyChar (List.mem_cons_of_mem c mem))).1
    have split : splitCamel none (pascal ((c :: d :: tail) :: ws)) =
        capitalized (c :: d :: tail) ++ ws.flatMap fun w => '_' :: capitalized w := by
      have whole : pascal ((c :: d :: tail) :: ws) = c.toUpper :: ((d :: tail) ++ pascal ws) := rfl
      rw [whole, splitCamel, splitCamel_append lower, List.getLast?_eq_some_getLast (List.cons_ne_nil d tail),
        Option.some_or, splitCamel_pascal rest (word.plain _ (List.mem_cons_of_mem c (List.getLast_mem _)))]
      rfl
    have only : ∀ v ∈ [c :: d :: tail], IsWord v := fun v mem => List.mem_singleton.mp mem ▸ word
    have first := settle_pascal only
    rw [List.flatMap_singleton, List.flatMap_singleton, List.map_cons] at first
    rw [normKey_ascii strings (pascal_ascii words), split, List.map_append, settle_pascal rest, joined_cons,
      List.tail_eq_of_cons_eq first]

/-! ### Capitals -/

/-- No letter behind a digit. -/
def Calm (a b : Char) : Prop := ¬ (a.isDigit ∧ b.isLower)

instance : DecidableRel Calm := fun _ _ => inferInstanceAs (Decidable (¬ _))

variable {key : List Char}

/-- In capitals, an underscore comes in front of no letter but one behind a digit. -/
theorem splitCamel_shout {a : Char} (dash : IsSeparator separator) (keys : ∀ c ∈ a :: key, IsKeyChar c)
    (calm : (a :: key).IsChain Calm) :
    splitCamel (some (shout separator a)) (key.map (shout separator)) = key.map (shout separator) := by
  induction key generalizing a with
  | nil => rfl
  | cons b key ih =>
    obtain ⟨first, rest⟩ := List.isChain_cons_cons.mp calm
    obtain ⟨notLower, -, digit, -⟩ := keyChar_shout (keys a List.mem_cons_self) dash
    obtain ⟨-, upper, -⟩ := keyChar_shout (keys b (List.mem_cons_of_mem a List.mem_cons_self)) dash
    have quiet : camelBoundary (shout separator a) (shout separator b) ((key.map (shout separator)).head?) =
        false := by
      have silent : ((key.map (shout separator)).head?).any Char.isLower = false := by
        cases key with
        | nil => rfl
        | cons c key =>
          have third := keys c (List.mem_cons_of_mem a (List.mem_cons_of_mem b List.mem_cons_self))
          simp [(keyChar_shout third dash).1]
      have apart : (a.isDigit && b.isLower) = false := by
        simpa [Calm] using first
      simp only [camelBoundary, notLower, digit, upper, silent, Bool.false_or, apart, Bool.and_false]
    rw [List.map_cons, splitCamel, Option.any_some, quiet,
      ih (fun c mem => keys c (List.mem_cons_of_mem a mem)) rest]
    rfl

theorem splitCamel_shout_from {a : Char} (dash : IsSeparator separator) (keys : ∀ c ∈ a :: key, IsKeyChar c)
    (calm : (a :: key).IsChain Calm) (before : Option Char) :
    ∃ front, splitCamel before ((a :: key).map (shout separator)) =
      front ++ (a :: key).map (shout separator) ∧ (before = none → front = []) := by
  rw [List.map_cons, splitCamel, splitCamel_shout dash keys calm]
  refine ⟨_, rfl, ?_⟩
  rintro rfl
  rfl

theorem settle_shout (dash : IsSeparator separator) (keys : ∀ c ∈ key, IsKeyChar c) :
    (key.map (shout separator)).map settle = key := by
  rw [List.map_map]
  exact (List.map_congr_left fun c mem => (keyChar_shout (keys c mem) dash).2.2.2.1).trans (List.map_id key)

theorem shout_ascii (dash : IsSeparator separator) (keys : ∀ c ∈ key, IsKeyChar c) :
    ∀ c ∈ key.map (shout separator), c.toNat < 128 := by
  intro c mem
  obtain ⟨d, inside, rfl⟩ := List.mem_map.mp mem
  exact (keyChar_shout (keys d inside) dash).2.2.2.2

/-- A key with no letter behind a digit is the same in capitals. -/
theorem normKey_shout (strings : Strings) (dash : IsSeparator separator) (keys : ∀ c ∈ key, IsKeyChar c)
    (calm : key.IsChain Calm) : normKey strings (key.map (shout separator)) = key := by
  rw [normKey_ascii strings (shout_ascii dash keys)]
  cases key with
  | nil => rfl
  | cons a key =>
    obtain ⟨front, split, nothing⟩ := splitCamel_shout_from dash keys calm none
    rw [split, nothing rfl, List.nil_append, settle_shout dash keys]

/-- So is the end of a key with no letter behind a digit. -/
theorem suffix_shout (strings : Strings) (dash : IsSeparator separator) {pre : List Char}
    (keys : ∀ c ∈ pre ++ key, IsKeyChar c) (calm : key.IsChain Calm) :
    key <:+ normKey strings ((pre ++ key).map (shout separator)) := by
  have later : ∀ c ∈ key, IsKeyChar c := fun c mem => keys c (List.mem_append_right pre mem)
  rw [normKey_ascii strings (shout_ascii dash keys), List.map_append]
  obtain ⟨front, before, split⟩ := splitCamel_suffix none (pre.map (shout separator)) (key.map (shout separator))
  rw [split, List.map_append]
  cases key with
  | nil => exact List.nil_suffix
  | cons a key =>
    obtain ⟨front', split', -⟩ := splitCamel_shout_from dash later calm before
    rw [split', List.map_append, settle_shout dash later]
    exact ⟨front.map settle ++ front'.map settle, List.append_assoc _ _ _⟩

/-! ### Sensitive keys -/

theorem sensitiveKeys_calm : ∀ name ∈ sensitiveKeys, name.toList.IsChain Calm := by
  have all : (sensitiveKeys.all fun name => decide (name.toList.IsChain Calm)) = true := by decide +kernel
  exact fun name mem => of_decide_eq_true (List.all_eq_true.mp all name mem)

theorem sensitivePrefixes_plain :
    ∀ p ∈ sensitivePrefixes, p.toList.Pairwise Calm ∧ ∀ c ∈ p.toList, c.isDigit = false := by
  intro p mem
  obtain rfl := List.mem_singleton.mp mem
  have digits : ("ipconfig".toList.all fun c => !c.isDigit) = true := by decide +kernel
  refine ⟨by decide +kernel, fun c here => ?_⟩
  simpa using List.all_eq_true.mp digits c here

/-- No name that ends like a secret is the public key. -/
theorem sensitiveSuffixes_calm : ∀ suffix ∈ sensitiveSuffixes,
    suffix.toList.IsChain Calm ∧ ¬ suffix.toList <:+ "public_key".toList := by decide +kernel

/-- The ways to be sensitive. -/
theorem isSensitiveNorm_iff {strings : Strings} {norm : List Char} : isSensitiveNorm strings norm ↔
    (∃ name ∈ sensitiveKeys, name.toList = norm) ∨
    (∃ p ∈ sensitivePrefixes, ∃ digits, p.toList ++ digits = norm ∧ digits ≠ [] ∧
      ∀ c ∈ digits, strings.isDigit c) ∨
    ∃ suffix ∈ sensitiveSuffixes, suffix.toList <:+ norm := by
  have indexed (p : String) : (p.toList.isPrefixOf norm && norm.length > p.toList.length &&
      (norm.drop p.toList.length).all strings.isDigit) = true ↔
      ∃ digits, p.toList ++ digits = norm ∧ digits ≠ [] ∧ ∀ c ∈ digits, strings.isDigit c := by
    simp only [Bool.and_eq_true, List.isPrefixOf_iff_prefix, decide_eq_true_iff, List.all_eq_true]
    constructor
    · rintro ⟨⟨⟨digits, rfl⟩, longer⟩, all⟩
      rw [List.drop_left] at all
      refine ⟨digits, rfl, ?_, all⟩
      rintro rfl
      simp at longer
    · rintro ⟨digits, rfl, some_, all⟩
      have positive := List.length_pos_iff.mpr some_
      rw [List.drop_left, List.length_append]
      exact ⟨⟨⟨digits, rfl⟩, by omega⟩, all⟩
  have carved : (norm ≠ "public_key".toList ∧ ∃ suffix ∈ sensitiveSuffixes, suffix.toList <:+ norm) ↔
      ∃ suffix ∈ sensitiveSuffixes, suffix.toList <:+ norm := by
    refine ⟨And.right, fun ends => ⟨?_, ends⟩⟩
    rintro rfl
    obtain ⟨suffix, mem, ends⟩ := ends
    exact (sensitiveSuffixes_calm suffix mem).2 ends
  rw [← carved]
  simp only [isSensitiveNorm, Bool.or_eq_true, Bool.and_eq_true, decide_eq_true_iff,
    List.contains_iff_mem, List.mem_map,
    List.any_eq_true, indexed, List.isSuffixOf_iff_suffix, or_assoc]

/-- What is sensitive stays so in capitals. -/
theorem sensitive_shout (strings : Strings) (dash : IsSeparator separator) (keys : ∀ c ∈ key, IsKeyChar c)
    (sensitive : isSensitiveNorm strings key) :
    isSensitiveNorm strings (normKey strings (key.map (shout separator))) := by
  rcases isSensitiveNorm_iff.mp sensitive with ⟨name, mem, rfl⟩ | ⟨p, mem, digits, rfl, some_, all⟩ |
    ⟨suffix, mem, pre, rfl⟩
  · rw [normKey_shout strings dash keys (sensitiveKeys_calm name mem)]
    exact sensitive
  · obtain ⟨chain, noDigit⟩ := sensitivePrefixes_plain p mem
    have isDigit : ∀ c ∈ digits, c.isDigit = true := by
      intro c inside
      rw [← strings.isDigit_ascii c (keyChar_plain (keys c (List.mem_append_right _ inside))).2.2.2.1]
      exact all c inside
    have notLower : ∀ c ∈ digits, c.isLower = false := by
      intro c inside
      have key := keys c (List.mem_append_right _ inside)
      have digit := isDigit c inside
      exact keyChar_cases (P := fun c => c.isDigit = true → c.isLower = false) (by decide) key digit
    have calm : (p.toList ++ digits).IsChain Calm := by
      refine List.Pairwise.isChain (List.pairwise_append.mpr ⟨chain, ?_, ?_⟩)
      · exact List.pairwise_of_forall_mem_list fun a _ b inside both => by simp [notLower b inside] at both
      · exact fun a _ b inside both => by simp [notLower b inside] at both
    rw [normKey_shout strings dash keys calm]
    exact sensitive
  · exact isSensitiveNorm_iff.mpr (Or.inr (Or.inr ⟨suffix, mem,
      suffix_shout strings dash keys (sensitiveSuffixes_calm suffix mem).1⟩))

theorem joined_upper (words : ∀ w ∈ ws, IsWord w) (separator : Char) :
    joined separator (ws.map upper) = (joined '_' ws).map (shout separator) := by
  have each : ∀ w ∈ ws, w.map (shout separator) = upper w := by
    intro w mem
    refine List.map_congr_left fun c inside => if_neg ?_
    rintro rfl
    have plain := (words w mem).plain '_' inside
    revert plain
    decide
  rw [map_joined, shout, if_pos rfl, List.map_congr_left each]

/-- The spelling of a key plays no part: if the words with underscores are sensitive, so are they with
hyphens, with capitals inside, and in capitals. -/
theorem sensitive_spellings (strings : Strings) (words : ∀ w ∈ ws, IsWord w)
    (sensitive : keyIsSensitive strings (String.ofList (joined '_' ws))) :
    keyIsSensitive strings (String.ofList (joined '-' ws)) ∧
      keyIsSensitive strings (String.ofList (camel ws)) ∧
      keyIsSensitive strings (String.ofList (pascal ws)) ∧
      keyIsSensitive strings (String.ofList (joined '_' (ws.map upper))) ∧
      keyIsSensitive strings (String.ofList (joined '-' (ws.map upper))) := by
  have under : IsSeparator '_' := Or.inl rfl
  have hyphen : IsSeparator '-' := Or.inr rfl
  have keys : ∀ c ∈ joined '_' ws, IsKeyChar c := by
    intro c mem
    rcases mem_joined mem with rfl | ⟨w, inside, here⟩
    · exact Or.inr (Or.inr rfl)
    · exact (words w inside).keyChar here
  simp only [keyIsSensitive, String.toList_ofList] at sensitive ⊢
  rw [normKey_joined strings words under] at sensitive
  rw [normKey_joined strings words hyphen, normKey_camel strings words, normKey_pascal strings words,
    joined_upper words, joined_upper words]
  exact ⟨sensitive, sensitive, sensitive, sensitive_shout strings under keys sensitive,
    sensitive_shout strings hyphen keys sensitive⟩

example : ["preSharedKey", "PRE-SHARED-KEY", "ipconfig12", "publicKey"].map (keyIsSensitive .ascii) =
    [true, true, true, false] := by decide +kernel

end FreeSdn.Security
