import Mathlib.Algebra.Order.Ring.Rat
import Cpip.Python.Pieces
import Cpip.Python.TomlText
import Cpip.Python.Value

/-!
# The `repr` of a value

What `repr` writes for a string, a number, a list or a dictionary, and how the tokenizer of a
program reads it back: as a literal of that value, whatever characters the strings contain, when a
comma, a colon or a closing bracket follows.
-/

namespace PyRepr

open PyTokens

/-- What `repr` asks of the interpreter: which characters beyond ASCII can be printed, how many
digits an integer may have, which magnitudes a finite float has and how they are spelled, and what
is written for values that have no literal. -/
structure Env where
  isPrintable : Char → Bool
  allows : ℕ → Bool
  isFloat : ℚ → Bool
  float : ℚ → List Char
  other : PyVal → List Char

/-! ## Strings -/

/-- The last `width` hexadecimal digits. -/
def hexDigits : ℕ → ℕ → List Char
  | 0, _ => []
  | width + 1, n => hexDigits width (n / 16) ++ [Nat.digitChar (n % 16)]

/-- A character between the quotes `q`. -/
def char (env : Env) (q c : Char) : List Char :=
  if c = q ∨ c = '\\' then ['\\', c]
  else if c = '\n' then ['\\', 'n']
  else if c = '\r' then ['\\', 'r']
  else if c = '\t' then ['\\', 't']
  else if c.toNat < 0x20 ∨ c.toNat = 0x7f then '\\' :: 'x' :: hexDigits 2 c.toNat
  else if c.toNat < 0x7f ∨ env.isPrintable c then [c]
  else if c.toNat < 0x100 then '\\' :: 'x' :: hexDigits 2 c.toNat
  else if c.toNat < 0x10000 then '\\' :: 'u' :: hexDigits 4 c.toNat
  else '\\' :: 'U' :: hexDigits 8 c.toNat

/-- Double quotes around a string that has single ones only. -/
def quote (s : String) : Char := if '\'' ∈ s.toList ∧ '"' ∉ s.toList then '"' else '\''

/-- A string between the quotes `q`. -/
def quoted (env : Env) (q : Char) (s : String) : List Char :=
  q :: (s.toList.flatMap (char env q) ++ [q])

def str (env : Env) (s : String) : List Char := quoted env (quote s) s

section Strings

variable {env : Env} {q c : Char}

theorem length_hexDigits (width n : ℕ) : (hexDigits width n).length = width := by
  induction width generalizing n with
  | zero => rfl
  | succ width ih => rw [hexDigits, List.length_append, ih, List.length_singleton]

/-- The digits are read back as their number. -/
theorem mapM_hexDigits (width n : ℕ) : ∃ digits,
    (hexDigits width n).mapM Toml.hexDigit? = some digits ∧
      digits.foldl (fun acc d => 16 * acc + d) 0 = n % 16 ^ width := by
  induction width generalizing n with
  | zero => exact ⟨[], rfl, by simp [Nat.mod_one]⟩
  | succ width ih =>
    obtain ⟨digits, read, value⟩ := ih (n / 16)
    refine ⟨digits ++ [n % 16], ?_, ?_⟩
    · rw [hexDigits, List.mapM_append, read]
      simp [Toml.hexDigit?_digitChar _ (Nat.mod_lt n (by decide : 0 < 16))]
    · rw [List.foldl_append, value, List.foldl_cons, List.foldl_nil, Nat.pow_succ,
        Nat.mul_comm _ 16, Nat.mod_mul]
      omega

theorem hexEscape_hexDigits {width n : ℕ} (fits : n < 16 ^ width) (scalar : n ≤ 0x10ffff)
    (rest : List Char) : hexEscape width (hexDigits width n ++ rest) = some ([n], width) := by
  obtain ⟨digits, read, value⟩ := mapM_hexDigits width n
  have taken : (hexDigits width n ++ rest).take width = hexDigits width n :=
    List.take_left' (length_hexDigits width n)
  rw [Nat.mod_eq_of_lt fits] at value
  rw [hexEscape, taken, if_pos (length_hexDigits width n), read, Option.bind_some, value,
    if_pos scalar]

theorem toNat_le (c : Char) : c.toNat ≤ 0x10ffff := by
  rcases c.valid with low | high
  · exact Nat.le_of_lt (Nat.lt_of_lt_of_le low (by decide))
  · exact Nat.lt_succ_iff.1 high.2

theorem mem_hexDigits {width n : ℕ} {d : Char} (mem : d ∈ hexDigits width n) :
    ∃ m < 16, d = Nat.digitChar m := by
  induction width generalizing n with
  | zero => cases mem
  | succ width ih =>
    rw [hexDigits, List.mem_append, List.mem_singleton] at mem
    rcases mem with mem | rfl
    · exact ih mem
    · exact ⟨n % 16, Nat.mod_lt n (by decide), rfl⟩

/-- An escape that is read back as the number of the character. -/
def IsEscape (c : Char) (text : List Char) : Prop :=
  ∃ e body, text = '\\' :: e :: body ∧ (e ≠ '\r' ∧ e ≠ '\x00') ∧
    (∀ d ∈ body, ∃ m < 16, d = Nat.digitChar m) ∧
    ∀ named cs, escape named e (body ++ cs) = some ([c.toNat], body.length)

theorem IsEscape.short {e : Char} (plain : e ≠ '\r' ∧ e ≠ '\x00')
    (value : ∀ named cs, escape named e cs = some ([c.toNat], 0)) : IsEscape c ['\\', e] :=
  ⟨e, [], rfl, plain, List.forall_mem_nil _, value⟩

theorem IsEscape.hex {e : Char} {width : ℕ} (plain : e ≠ '\r' ∧ e ≠ '\x00')
    (value : ∀ named cs, escape named e cs = hexEscape width cs) (fits : c.toNat < 16 ^ width) :
    IsEscape c ('\\' :: e :: hexDigits width c.toNat) := by
  refine ⟨e, _, rfl, plain, fun d mem => mem_hexDigits mem, fun named cs => ?_⟩
  rw [value, hexEscape_hexDigits fits (toNat_le c), length_hexDigits]

/-- A character is written as an escape, or as it is. -/
theorem char_cases (quote : isQuote q = true) :
    IsEscape c (char env q c) ∨
      char env q c = [c] ∧ (c ≠ '\\' ∧ c ≠ q ∧ c ≠ '\n') ∧ c ≠ '\r' ∧ c ≠ '\x00' := by
  unfold char
  split_ifs with special newline ret tab control ascii latin plane
  · refine .inl ?_
    rcases special with rfl | rfl
    · have kinds : c = '"' ∨ c = '\'' := by simpa [isQuote] using quote
      rcases kinds with rfl | rfl
      · exact .short (by decide) fun _ _ => rfl
      · exact .short (by decide) fun _ _ => rfl
    · exact .short (by decide) fun _ _ => rfl
  · subst newline
    exact .inl (.short (by decide) fun _ _ => rfl)
  · subst ret
    exact .inl (.short (by decide) fun _ _ => rfl)
  · subst tab
    exact .inl (.short (by decide) fun _ _ => rfl)
  · exact .inl (.hex (by decide) (fun _ _ => rfl) (by omega))
  · rw [not_or] at special
    refine .inr ⟨rfl, ⟨special.2, special.1, newline⟩, ret, ?_⟩
    rintro rfl
    exact control (by decide)
  · exact .inl (.hex (by decide) (fun _ _ => rfl) latin)
  · exact .inl (.hex (by decide) (fun _ _ => rfl) plane)
  · exact .inl (.hex (by decide) (fun _ _ => rfl) (lt_of_le_of_lt (toNat_le c) (by decide)))

/-- A character is read back as its number. -/
theorem unescape_char (named : List Char → Option ℕ) (quote : isQuote q = true) (cs : List Char) :
    unescape named (char env q c ++ cs) = (unescape named cs).map (c.toNat :: ·) := by
  rcases @char_cases env q c quote with ⟨e, body, text, -, -, value⟩ | ⟨text, plain, -⟩
  · rw [text, List.cons_append, List.cons_append, unescape, value]
    dsimp only
    rw [List.drop_left]
    rfl
  · rw [text, List.singleton_append, unescape]
    · exact fun same => absurd same plain.1
    · exact fun _ _ same => absurd same plain.1

/-! The quotes that end the literal are the ones behind it. -/

theorem contents_plain {l : List Char} (plain : ∀ c ∈ l, c ≠ '\\' ∧ c ≠ q ∧ c ≠ '\n')
    (cs : List Char) :
    contents [q] (l ++ cs) = (contents [q] cs).map fun r => (l ++ r.1, r.2) := by
  induction l with
  | nil => simp
  | cons c l ih =>
    rw [List.forall_mem_cons] at plain
    obtain ⟨⟨backslash, other, newline⟩, plain⟩ := plain
    have stop : [q].isPrefixOf (c :: (l ++ cs)) = false := by simp [List.isPrefixOf, Ne.symm other]
    rw [List.cons_append, contents]
    · rw [stop, if_neg (by simp), if_neg (by simp [newline]), ih plain, Option.map_map]
      rfl
    · exact fun _ _ same => absurd same backslash

theorem plain_digits (quote : isQuote q = true) {body : List Char}
    (digits : ∀ d ∈ body, ∃ m < 16, d = Nat.digitChar m) :
    ∀ d ∈ body, d ≠ '\\' ∧ d ≠ q ∧ d ≠ '\n' := by
  have plain : ∀ n < 16, Nat.digitChar n ≠ '\\' ∧ Nat.digitChar n ≠ '"' ∧
      Nat.digitChar n ≠ '\'' ∧ Nat.digitChar n ≠ '\n' := by decide
  intro d mem
  obtain ⟨m, few, rfl⟩ := digits d mem
  obtain ⟨backslash, double, single, newline⟩ := plain m few
  refine ⟨backslash, ?_, newline⟩
  have kinds : q = '"' ∨ q = '\'' := by simpa [isQuote] using quote
  rcases kinds with rfl | rfl
  · exact double
  · exact single

theorem contents_char (quote : isQuote q = true) (cs : List Char) :
    contents [q] (char env q c ++ cs) =
      (contents [q] cs).map fun r => (char env q c ++ r.1, r.2) := by
  rcases @char_cases env q c quote with ⟨e, body, text, -, digits, -⟩ | ⟨text, plain, -⟩
  · rw [text, List.cons_append, List.cons_append, contents,
      contents_plain (plain_digits quote digits), Option.map_map]
    rfl
  · rw [text]
    exact contents_plain (List.forall_mem_singleton.2 plain) cs

theorem head?_char (quote : isQuote q = true) : ∃ d cs, char env q c = d :: cs ∧ d ≠ q := by
  rcases @char_cases env q c quote with ⟨e, body, text, -⟩ | ⟨text, plain, -⟩
  · refine ⟨_, _, text, ?_⟩
    rintro rfl
    cases quote
  · exact ⟨_, _, text, plain.2.1⟩

theorem isQuote_quote (s : String) : isQuote (quote s) = true := by
  unfold quote
  split_ifs <;> rfl

theorem literal_chars (named : List Char → Option ℕ) (quote : isQuote q = true) (us : List Char)
    {d : Char} (other : d ≠ q) (rest : List Char) :
    literal named q (us.flatMap (char env q) ++ q :: d :: rest) =
      some (us.map Char.toNat, d :: rest) := by
  have inside : contents [q] (us.flatMap (char env q) ++ q :: d :: rest) =
      some (us.flatMap (char env q), d :: rest) := by
    induction us with
    | nil =>
      have backslash : q ≠ '\\' := by
        rintro rfl
        cases quote
      rw [List.flatMap_nil, List.nil_append, contents]
      · rw [if_pos (by simp [List.isPrefixOf])]
        rfl
      · exact fun _ _ same => absurd same backslash
    | cons u us ih =>
      rw [List.flatMap_cons, List.append_assoc, contents_char quote, ih]
      rfl
  have value : unescape named (us.flatMap (char env q)) = some (us.map Char.toNat) := by
    clear inside
    induction us with
    | nil => rw [List.flatMap_nil, unescape]; rfl
    | cons u us ih =>
      rw [List.flatMap_cons, unescape_char named quote, ih]
      rfl
  have single : [q, q].isPrefixOf (us.flatMap (char env q) ++ q :: d :: rest) = false := by
    cases us with
    | nil => simp [List.isPrefixOf, Ne.symm other]
    | cons u us =>
      obtain ⟨e, cs, first, different⟩ := @head?_char env q u quote
      rw [List.flatMap_cons, first]
      simp [List.isPrefixOf, Ne.symm different]
  rw [literal, single, if_neg (by simp), inside, Option.bind_some, value]
  rfl

/-- A string between quotes is one token. -/
theorem scan_quoted (tok : PyTokens.Env) {st : State} (inside : st.fresh = false)
    (quote : isQuote q = true) (s : String) {d : Char} (other : isQuote d = false)
    (rest : List Char) : scan tok st (quoted env q s ++ d :: rest) =
      (scan tok st (d :: rest)).map (.text (s.toList.map Char.toNat) :: ·) := by
  have read : literal tok.named q (s.toList.flatMap (char env q) ++ q :: d :: rest) =
      some (s.toList.map Char.toNat, d :: rest) := by
    refine literal_chars tok.named quote _ ?_ rest
    rintro rfl
    rw [quote] at other
    cases other
  have step : next tok st q (s.toList.flatMap (char env q) ++ q :: d :: rest) =
      some ([.text (s.toList.map Char.toNat)], st, d :: rest) := by
    rw [next_of_not_fresh tok inside]
    have kinds : q = '"' ∨ q = '\'' := by simpa [isQuote] using quote
    rcases kinds with rfl | rfl
    · exact congrArg (Option.map _) read
    · exact congrArg (Option.map _) read
  rw [quoted, List.cons_append, List.append_assoc]
  exact scan_cons step

/-- No character of a string stays that a program cannot have, or that ends its lines. -/
theorem plain_char (quote : isQuote q = true) :
    ∀ e ∈ char env q c, e ≠ '\r' ∧ e ≠ '\x00' := by
  rcases @char_cases env q c quote with ⟨e, body, text, letter, digits, -⟩ | ⟨text, -, plain⟩
  · have hex : ∀ n < 16, Nat.digitChar n ≠ '\r' ∧ Nat.digitChar n ≠ '\x00' := by decide
    rw [text]
    refine List.forall_mem_cons.2 ⟨by decide, List.forall_mem_cons.2 ⟨letter, ?_⟩⟩
    intro d mem
    obtain ⟨m, few, rfl⟩ := digits d mem
    exact hex m few
  · rw [text]
    exact List.forall_mem_singleton.2 plain

theorem plain_quoted (quote : isQuote q = true) (s : String) :
    ∀ e ∈ quoted env q s, e ≠ '\r' ∧ e ≠ '\x00' := by
  have own : q ≠ '\r' ∧ q ≠ '\x00' := by
    have kinds : q = '"' ∨ q = '\'' := by simpa [isQuote] using quote
    rcases kinds with rfl | rfl
    · decide
    · decide
  intro e mem
  rw [quoted, List.mem_cons, List.mem_append, List.mem_singleton, List.mem_flatMap] at mem
  rcases mem with rfl | ⟨c, -, mem⟩ | rfl
  · exact own
  · exact plain_char quote e mem
  · exact own

end Strings

/-! ## Values -/

/-- A number, with a sign before it if it is negative. -/
def signed (negative : Bool) (digits : List Char) : List Char :=
  if negative then '-' :: digits else digits

def magnitude (q : ℚ) : ℚ := if q < 0 then -q else q

section Values

variable (env : Env)

def key : PyKey → List Char
  | .atom (.str s) => str env s
  | k => env.other (.ofKey k)

mutual

/-- `repr(value)`. -/
def value : PyVal → List Char
  | .atom .none => "None".toList
  | .atom (.bool b) => (if b then "True" else "False").toList
  | .atom (.int i) => signed (i < 0) (Nat.toDigits 10 i.natAbs)
  | .atom (.float (.finite q)) => signed (q < 0) (env.float (magnitude q))
  | .atom (.str s) => str env s
  | .list xs => '[' :: (items xs ++ [']'])
  | .dict ms => '\x7b' :: (entries ms ++ ['\x7d'])
  | v => env.other v

def items : List PyVal → List Char
  | [] => []
  | [x] => value x
  | x :: y :: xs => value x ++ ',' :: ' ' :: items (y :: xs)

def entries : List (PyKey × PyVal) → List Char
  | [] => []
  | [(k, x)] => key env k ++ ':' :: ' ' :: value x
  | (k, x) :: m :: ms => key env k ++ ':' :: ' ' :: (value x ++ ',' :: ' ' :: entries (m :: ms))

end

/-! ## Literals -/

/-- What is written as a literal, at one place: no infinity, and only strings as keys. -/
def IsLiteralNode : PyVal → Prop
  | .atom a =>
    match a with
    | .none | .bool _ | .str _ => True
    | .int i => env.allows (Nat.toDigits 10 i.natAbs).length
    | .float (.finite q) => env.isFloat (magnitude q)
    | _ => False
  | .list _ => True
  | .dict items => (items.map Prod.fst).Nodup ∧ ∀ k ∈ items.map Prod.fst, ∃ s, k = .str s
  | _ => False

def IsLiteral (v : PyVal) : Prop := v.Everywhere (IsLiteralNode env)

def signedTokens (negative : Bool) (digits : List Char) : List Token :=
  if negative then [.op "-", .number (String.ofList digits)] else [.number (String.ofList digits)]

def codes (s : String) : List ℕ := s.toList.map Char.toNat

def keyTokens : PyKey → List Token
  | .atom (.str s) => [.text (codes s)]
  | _ => []

mutual

/-- The tokens of the literal of a value. -/
def valueTokens : PyVal → List Token
  | .atom .none => [.name "None"]
  | .atom (.bool b) => [.name (if b then "True" else "False")]
  | .atom (.int i) => signedTokens (i < 0) (Nat.toDigits 10 i.natAbs)
  | .atom (.float (.finite q)) => signedTokens (q < 0) (env.float (magnitude q))
  | .atom (.str s) => [.text (codes s)]
  | .list xs => .op "[" :: (itemTokens xs ++ [.op "]"])
  | .dict ms => .op "\x7b" :: (entryTokens ms ++ [.op "\x7d"])
  | _ => []

def itemTokens : List PyVal → List Token
  | [] => []
  | [x] => valueTokens x
  | x :: y :: xs => valueTokens x ++ .op "," :: itemTokens (y :: xs)

def entryTokens : List (PyKey × PyVal) → List Token
  | [] => []
  | [(k, x)] => keyTokens k ++ .op ":" :: valueTokens x
  | (k, x) :: m :: ms =>
    keyTokens k ++ .op ":" :: (valueTokens x ++ .op "," :: entryTokens (m :: ms))

end

/-- What may follow a literal. -/
def closes (d : Char) : Bool := ",:)]\x7d".toList.contains d

/-- The tokenizer reads the numerals that `repr` writes. -/
structure Numerals (tok : PyTokens.Env) : Prop where
  int : ∀ (n : ℕ) (d : Char) (rest : List Char), env.allows (Nat.toDigits 10 n).length → closes d →
    tok.number (Nat.toDigits 10 n ++ d :: rest) = some ((Nat.toDigits 10 n).length - 1)
  float : ∀ (q : ℚ) (d : Char) (rest : List Char), env.isFloat q → closes d →
    tok.number (env.float q ++ d :: rest) = some ((env.float q).length - 1)
  digit : ∀ q : ℚ, env.isFloat q → ∃ c cs, env.float q = c :: cs ∧ c.isDigit
  plain : ∀ q : ℚ, env.isFloat q → ∀ c ∈ env.float q, c ≠ '\r' ∧ c ≠ '\x00'

variable {env} {tok : PyTokens.Env} {st : State}

theorem scan_space (inside : st.fresh = false) (rest : List Char) :
    scan tok st (' ' :: rest) = scan tok st rest := by
  have step : next tok st ' ' rest = some ([], st, rest) := by
    rw [next_of_not_fresh tok inside]
    rfl
  rw [scan_cons step]
  exact Option.map_id' 

theorem fits_opening (c d : Char) (h : c = '[' ∨ c = '\x7b' ∨ c = ']' ∨ c = '\x7d') :
    (Piece.op c).fits (some d) = true := by
  rcases h with rfl | rfl | rfl | rfl
  all_goals
    simp [Piece.fits, operators]
    decide

theorem closes_other {d : Char} (hd : closes d = true) :
    isNamePart d = false ∧ isQuote d = false ∧ d ≠ '.' := by
  have all : ",:)]\x7d".toList.all fun d => !isNamePart d && !isQuote d && d != '.' := by decide
  have := List.all_eq_true.1 all d (List.contains_iff_mem.1 hd)
  simpa [and_assoc] using this

theorem mem_digits {c : Char} (digit : c.isDigit = true) : c ∈ "0123456789".toList := by
  have low : 48 ≤ c.toNat ∧ c.toNat ≤ 57 := by
    simp only [Char.isDigit, Bool.and_eq_true, decide_eq_true_eq, ge_iff_le,
      UInt32.le_iff_toNat_le] at digit
    exact digit
  have same : c = Char.ofNat c.toNat := (Char.ofNat_toNat c).symm
  have all : ∀ n < 58, 48 ≤ n → Char.ofNat n ∈ "0123456789".toList := by decide
  rw [same]
  exact all _ (Nat.lt_succ_of_le low.2) low.1

/-- A numeral is no name, and `-` before it is no longer operator. -/
theorem digit_other {c : Char} (digit : c.isDigit = true) :
    isNameStart c = false ∧ (Piece.op '-').fits (some c) = true := by
  have all : "0123456789".toList.all fun c =>
      !isNameStart c && (Piece.op '-').fits (some c) := by decide
  simpa using List.all_eq_true.1 all c (mem_digits digit)

/-- A numeral is one token. -/
theorem scan_number (inside : st.fresh = false) {digits : List Char} {d : Char}
    (starts : ∃ c cs, digits = c :: cs ∧ c.isDigit) {rest : List Char}
    (read : tok.number (digits ++ d :: rest) = some (digits.length - 1)) :
    scan tok st (digits ++ d :: rest) =
      (scan tok st (d :: rest)).map (.number (String.ofList digits) :: ·) := by
  obtain ⟨c, cs, rfl, digit⟩ := starts
  have other {c' : Char} (no : c'.isDigit = false) : c ≠ c' := by
    rintro rfl
    rw [no] at digit
    cases digit
  have start := (digit_other digit).1
  have step : next tok st c (cs ++ d :: rest) =
      some ([.number (String.ofList (c :: cs))], st, d :: rest) := by
    rw [next_of_not_fresh tok inside, inLine, if_neg (other (by decide)),
      if_neg (by simp [isBlank, other (show ' '.isDigit = false by decide),
        other (show '\t'.isDigit = false by decide),
        other (show '\x0c'.isDigit = false by decide)]),
      if_neg (other (by decide)), if_neg (other (by decide)),
      if_neg (by simp [isQuote, other (show '"'.isDigit = false by decide),
        other (show '\''.isDigit = false by decide)]), if_neg (by simp [start]),
      if_pos (.inl digit)]
    rw [List.cons_append] at read
    rw [read, Option.map_some, cut, List.length_cons, Nat.add_sub_cancel, List.take_succ_cons,
      List.drop_succ_cons, List.take_left, List.drop_left]
  exact scan_cons step

theorem scan_signed (inside : st.fresh = false) (negative : Bool) {digits : List Char} {d : Char}
    (starts : ∃ c cs, digits = c :: cs ∧ c.isDigit) {rest : List Char}
    (read : tok.number (digits ++ d :: rest) = some (digits.length - 1)) :
    scan tok st (signed negative digits ++ d :: rest) =
      (scan tok st (d :: rest)).map (signedTokens negative digits ++ ·) := by
  have number : scan tok st _ = _ := scan_number inside starts read
  cases negative with
  | false => exact number
  | true =>
    obtain ⟨c, cs, rfl, digit⟩ := starts
    have minus := scan_op tok inside (cs ++ d :: rest) (digit_other digit).2 rfl
    show scan tok st ('-' :: c :: (cs ++ d :: rest)) = _
    rw [minus]
    rw [List.cons_append] at number
    rw [number, Option.map_map]
    rfl

theorem fits_word {w : String} (name : isName w = true) {d : Char} (hd : closes d = true) :
    (Piece.word w).fits (some d) = true := by
  obtain ⟨part, quote, -⟩ := closes_other hd
  simp [Piece.fits, name, part, quote]

/-- The text is read as the tokens, where a literal may end. -/
def Reads (tok : PyTokens.Env) (cs : List Char) (ts : List Token) : Prop :=
  ∀ st : State, st.fresh = false → ∀ d, closes d = true → ∀ rest,
    scan tok st (cs ++ d :: rest) = (scan tok st (d :: rest)).map (ts ++ ·)

theorem reads_nil : Reads tok [] [] := fun _ _ _ _ _ => (Option.map_id' ..).symm

theorem reads_word {w : String} (name : isName w = true) : Reads tok w.toList [.name w] :=
  fun _ inside _ hd rest => scan_word tok inside rest (fits_word name hd)

theorem reads_quoted {q : Char} (quote : isQuote q = true) (s : String) :
    Reads tok (quoted env q s) [.text (codes s)] :=
  fun _ inside _ hd rest => scan_quoted tok inside quote s (closes_other hd).2.1 rest

theorem reads_str (s : String) : Reads tok (str env s) [.text (codes s)] :=
  reads_quoted (isQuote_quote s) s

theorem reads_key {k : PyKey} (string : ∃ s, k = .str s) :
    Reads tok (key env k) (keyTokens k) := by
  obtain ⟨s, rfl⟩ := string
  exact reads_str s

/-- A comma, or a colon, and a space. -/
theorem Reads.then {cs cs' : List Char} {ts ts' : List Token} (h : Reads tok cs ts)
    (h' : Reads tok cs' ts') {c : Char} (sep : c = ',' ∨ c = ':') :
    Reads tok (cs ++ c :: ' ' :: cs') (ts ++ .op (String.singleton c) :: ts') := by
  intro st inside d hd rest
  have closing : closes c = true := by
    rcases sep with rfl | rfl
    · decide
    · decide
  have fit : (Piece.op c).fits (some ' ') = true := by
    rcases sep with rfl | rfl
    · decide
    · decide
  have moved : bracket c st.brackets = some st.brackets := by
    rcases sep with rfl | rfl
    · rfl
    · rfl
  rw [List.append_assoc, List.cons_append, List.cons_append, h st inside c closing,
    scan_op tok inside _ fit moved, scan_space inside, h' st inside d hd, Option.map_map,
    Option.map_map]
  congr 1
  funext ts''
  simp

/-- A text between brackets. -/
theorem Reads.between {cs : List Char} {ts : List Token} (h : Reads tok cs ts) {c c' : Char}
    (pair : c = '[' ∧ c' = ']' ∨ c = '\x7b' ∧ c' = '\x7d') :
    Reads tok (c :: (cs ++ [c']))
      (.op (String.singleton c) :: (ts ++ [.op (String.singleton c')])) := by
  intro st inside d hd rest
  have opened : bracket c st.brackets = some (c' :: st.brackets) := by
    rcases pair with ⟨rfl, rfl⟩ | ⟨rfl, rfl⟩
    · rfl
    · rfl
  have closed : bracket c' (c' :: st.brackets) = some st.brackets := by
    rcases pair with ⟨rfl, rfl⟩ | ⟨rfl, rfl⟩
    · rfl
    · rfl
  have closing : closes c' = true := by
    rcases pair with ⟨-, rfl⟩ | ⟨-, rfl⟩
    · decide
    · decide
  obtain ⟨e, es, first⟩ : ∃ e es, cs ++ c' :: d :: rest = e :: es := by
    cases cs with
    | nil => exact ⟨_, _, rfl⟩
    | cons e cs => exact ⟨_, _, rfl⟩
  have inner := h { st with brackets := c' :: st.brackets } inside c' closing (d :: rest)
  rw [first] at inner
  have text : c :: (cs ++ [c']) ++ d :: rest = c :: e :: es := by
    rw [← first]
    simp
  have last := scan_op tok (s := { st with brackets := c' :: st.brackets }) inside rest
    (fits_opening c' d (by tauto)) closed
  rw [text, scan_op tok inside es (fits_opening c e (by tauto)) opened, inner, last,
    Option.map_map, Option.map_map]
  congr 1
  funext ts''
  simp

theorem reads_items {xs : List PyVal}
    (each : ∀ x ∈ xs, Reads tok (value env x) (valueTokens env x)) :
    Reads tok (items env xs) (itemTokens env xs) := by
  match xs with
  | [] => exact reads_nil
  | [x] => exact each x (by simp)
  | x :: y :: xs =>
    rw [List.forall_mem_cons] at each
    exact each.1.then (reads_items each.2) (.inl rfl)

theorem reads_entries {ms : List (PyKey × PyVal)}
    (strings : ∀ k ∈ ms.map Prod.fst, ∃ s, k = .str s)
    (each : ∀ m ∈ ms, Reads tok (value env m.2) (valueTokens env m.2)) :
    Reads tok (entries env ms) (entryTokens env ms) := by
  match ms with
  | [] => exact reads_nil
  | [(k, x)] =>
    exact (reads_key (strings k (by simp))).then (each (k, x) (by simp)) (.inr rfl)
  | (k, x) :: m :: ms =>
    rw [List.forall_mem_cons] at each
    rw [List.map_cons, List.forall_mem_cons] at strings
    exact (reads_key strings.1).then (each.1.then (reads_entries strings.2 each.2) (.inl rfl))
      (.inr rfl)

theorem reads_value (numerals : Numerals env tok) {v : PyVal} (literal : IsLiteral env v) :
    Reads tok (value env v) (valueTokens env v) := by
  induction v using PyVal.inductionOn with
  | atom a =>
    cases a with
    | none => exact reads_word (by decide)
    | bool b =>
      cases b with
      | false => exact reads_word (by decide)
      | true => exact reads_word (by decide)
    | int i =>
      intro st inside d hd rest
      exact scan_signed inside _ (Toml.exists_toDigits _) (numerals.int _ d rest literal hd)
    | float f =>
      cases f with
      | finite q =>
        intro st inside d hd rest
        exact scan_signed inside _ (numerals.digit _ literal) (numerals.float _ d rest literal hd)
      | inf negative => exact literal.elim
      | nan => exact literal.elim
    | str s => exact reads_str s
    | bytes b => exact literal.elim
    | complex re im => exact literal.elim
    | object o => exact literal.elim
  | list xs ih =>
    have parts := ((PyVal.everywhere_list_iff xs).1 literal).2
    exact (reads_items fun x mem => ih x mem (parts x mem)).between (.inl ⟨rfl, rfl⟩)
  | dict ms ih =>
    obtain ⟨⟨-, strings⟩, parts⟩ := (PyVal.everywhere_dict_iff ms).1 literal
    exact (reads_entries strings fun m mem => ih m mem (parts m mem)).between (.inr ⟨rfl, rfl⟩)
  | tuple xs => exact ((PyVal.everywhere_tuple_iff xs).1 literal).1.elim
  | set xs => exact literal.elim
  | ndarray a => exact literal.elim

/-- Nothing a program cannot have, and nothing but newlines that ends a line. -/
def Plain (cs : List Char) : Prop := ∀ c ∈ cs, c ≠ '\r' ∧ c ≠ '\x00'

theorem plain_of_all {cs : List Char} (all : cs.all fun c => c != '\r' && c != '\x00') :
    Plain cs := by
  intro c mem
  simpa using List.all_eq_true.1 all c mem

theorem Plain.append {cs cs' : List Char} (plain : Plain cs) (plain' : Plain cs') :
    Plain (cs ++ cs') :=
  List.forall_mem_append.2 ⟨plain, plain'⟩

theorem Plain.then {cs cs' : List Char} (plain : Plain cs) (plain' : Plain cs') {c : Char}
    (sep : c = ',' ∨ c = ':') : Plain (cs ++ c :: ' ' :: cs') := by
  refine plain.append (List.forall_mem_cons.2 ⟨?_, List.forall_mem_cons.2 ⟨by decide, plain'⟩⟩)
  rcases sep with rfl | rfl
  · decide
  · decide

theorem Plain.between {cs : List Char} (plain : Plain cs) {c c' : Char}
    (pair : c = '[' ∧ c' = ']' ∨ c = '\x7b' ∧ c' = '\x7d') : Plain (c :: (cs ++ [c'])) := by
  have ends : Plain [c] ∧ Plain [c'] := by
    rcases pair with ⟨rfl, rfl⟩ | ⟨rfl, rfl⟩
    · exact ⟨plain_of_all (by decide), plain_of_all (by decide)⟩
    · exact ⟨plain_of_all (by decide), plain_of_all (by decide)⟩
  exact ends.1.append (plain.append ends.2)

theorem plain_key {k : PyKey} (string : ∃ s, k = .str s) : Plain (key env k) := by
  obtain ⟨s, rfl⟩ := string
  exact plain_quoted (isQuote_quote s) s

theorem plain_items {xs : List PyVal} (each : ∀ x ∈ xs, Plain (value env x)) :
    Plain (items env xs) := by
  match xs with
  | [] => exact fun c mem => by cases mem
  | [x] => exact each x (by simp)
  | x :: y :: xs =>
    rw [List.forall_mem_cons] at each
    exact each.1.then (plain_items each.2) (.inl rfl)

theorem plain_entries {ms : List (PyKey × PyVal)}
    (strings : ∀ k ∈ ms.map Prod.fst, ∃ s, k = .str s)
    (each : ∀ m ∈ ms, Plain (value env m.2)) : Plain (entries env ms) := by
  match ms with
  | [] => exact fun c mem => by cases mem
  | [(k, x)] => exact (plain_key (strings k (by simp))).then (each (k, x) (by simp)) (.inr rfl)
  | (k, x) :: m :: ms =>
    rw [List.forall_mem_cons] at each
    rw [List.map_cons, List.forall_mem_cons] at strings
    exact (plain_key strings.1).then (each.1.then (plain_entries strings.2 each.2) (.inl rfl))
      (.inr rfl)

theorem plain_signed {negative : Bool} {digits : List Char} (plain : Plain digits) :
    Plain (signed negative digits) := by
  unfold signed
  split_ifs
  · exact List.forall_mem_cons.2 ⟨by decide, plain⟩
  · exact plain

theorem plain_value (numerals : Numerals env tok) {v : PyVal} (literal : IsLiteral env v) :
    Plain (value env v) := by
  induction v using PyVal.inductionOn with
  | atom a =>
    cases a with
    | none => exact @plain_of_all "None".toList (by decide)
    | bool b =>
      cases b with
      | false => exact @plain_of_all "False".toList (by decide)
      | true => exact @plain_of_all "True".toList (by decide)
    | int i =>
      refine plain_signed fun c mem => ?_
      have digit : c.isDigit = true := Nat.isDigit_of_mem_toDigits (by decide) (by decide) mem
      constructor
      · rintro rfl
        cases digit
      · rintro rfl
        cases digit
    | float f =>
      cases f with
      | finite q => exact plain_signed (numerals.plain _ literal)
      | inf negative => exact literal.elim
      | nan => exact literal.elim
    | str s => exact plain_quoted (isQuote_quote s) s
    | bytes b => exact literal.elim
    | complex re im => exact literal.elim
    | object o => exact literal.elim
  | list xs ih =>
    have parts := ((PyVal.everywhere_list_iff xs).1 literal).2
    exact (plain_items fun x mem => ih x mem (parts x mem)).between (.inl ⟨rfl, rfl⟩)
  | dict ms ih =>
    obtain ⟨⟨-, strings⟩, parts⟩ := (PyVal.everywhere_dict_iff ms).1 literal
    exact (plain_entries strings fun m mem => ih m mem (parts m mem)).between (.inr ⟨rfl, rfl⟩)
  | tuple xs => exact ((PyVal.everywhere_tuple_iff xs).1 literal).1.elim
  | set xs => exact literal.elim
  | ndarray a => exact literal.elim

end Values

end PyRepr
