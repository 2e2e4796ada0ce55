import Cpip.Python.JsonBytes
import Cpip.Python.TomlText

/-!
# JSON, character by character

How `json.dumps` spells a text, with its default separators and every character outside ASCII
escaped, and how `json.loads` reads one.  The spelling is one line of printable ASCII, and it is
read back.

A string that Lean has holds no half of a surrogate pair, so a text that spells one is not read
here.  How a finite float is spelled and read is a parameter.
-/

namespace JsonChars

open Toml (Reader hexDigit? hexDigit?_digitChar spellInt)

/-! ## Numbers -/

def isSpace (c : Char) : Bool := c = ' ' ∨ c = '\t' ∨ c = '\n' ∨ c = '\r'

/-- `WHITESPACE`. -/
def skip (cs : List Char) : List Char := cs.dropWhile isSpace

def digits (cs : List Char) : List Char × List Char :=
  (cs.takeWhile Char.isDigit, cs.dropWhile Char.isDigit)

/-- `0|[1-9]\d*`. -/
def natural : Reader (List Char)
  | '0' :: cs => some (['0'], cs)
  | c :: cs => if c.isDigit then some (digits (c :: cs)) else none
  | [] => none

/-- `-?(?:0|[1-9]\d*)`. -/
def whole : Reader (List Char)
  | '-' :: cs => (natural cs).map fun r => ('-' :: r.1, r.2)
  | cs => natural cs

/-- `(\.\d+)?`. -/
def fraction : List Char → List Char × List Char
  | '.' :: cs =>
    if (digits cs).1 = [] then ([], '.' :: cs) else ('.' :: (digits cs).1, (digits cs).2)
  | cs => ([], cs)

/-- `[eE][-+]?`, if digits come next. -/
def exponentMark : List Char → Option (List Char × List Char)
  | e :: s :: cs =>
    if e = 'e' ∨ e = 'E' then
      if s = '-' ∨ s = '+' then some ([e, s], cs) else some ([e], s :: cs)
    else none
  | _ => none

/-- `([eE][-+]?\d+)?`. -/
def exponent (cs : List Char) : List Char × List Char :=
  match exponentMark cs with
  | some (mark, rest) =>
    if (digits rest).1 = [] then ([], cs) else (mark ++ (digits rest).1, (digits rest).2)
  | none => ([], cs)

/-- `NUMBER_RE`: the number, whether it has a fraction or an exponent, and the rest. -/
def number (cs : List Char) : Option (List Char × Bool × List Char) :=
  (whole cs).map fun w =>
    let f := fraction w.2
    let e := exponent f.2
    (w.1 ++ f.1 ++ e.1, !(f.1.isEmpty && e.1.isEmpty), e.2)

/-- `int(text)`, for the number that was found. -/
def intOf : List Char → ℤ
  | '-' :: ds => -(Nat.ofDigitChars 10 ds 0)
  | ds => Nat.ofDigitChars 10 ds 0

/-- No number goes on here. -/
def Stops (rest : List Char) : Prop :=
  ∀ c ∈ rest.head?, c.isDigit = false ∧ c ≠ '.' ∧ c ≠ 'e' ∧ c ≠ 'E'

def isPrintable (c : Char) : Bool := ' ' ≤ c ∧ c ≤ '~'

/-- `float.__repr__` and `float` on finite floats: the text is a number with a fraction or an
exponent, and reads back. -/
structure FloatText where
  repr : ℚ → List Char
  read : List Char → PyFloat
  number_repr : ∀ q rest, Stops rest → number (repr q ++ rest) = some (repr q, true, rest)
  printable : ∀ q, ∀ c ∈ repr q, isPrintable c
  read_repr : ∀ q, read (repr q) = .finite q

/-! ## Spelling -/

/-- `'{0:04x}'.format(n)`. -/
def hex4 (n : ℕ) : List Char :=
  [n / 4096 % 16, n / 256 % 16, n / 16 % 16, n % 16].map Nat.digitChar

/-- The letter behind the backslash, for the characters that have one. -/
def mnemonic (c : Char) : Option Char :=
  [('"', '"'), ('\\', '\\'), ('\n', 'n'), ('\r', 'r'), ('\t', 't'), ('\x0c', 'f'),
    ('\x08', 'b')].lookup c

/-- The UTF-16 code units of a character. -/
def units (c : Char) : List ℕ :=
  if c.toNat < 0x10000 then [c.toNat]
  else [0xd800 + (c.toNat - 0x10000) / 0x400, 0xdc00 + (c.toNat - 0x10000) % 0x400]

/-- `ESCAPE_ASCII`. -/
def escape (c : Char) : List Char :=
  match mnemonic c with
  | some d => ['\\', d]
  | none => if isPrintable c then [c] else (units c).flatMap fun n => '\\' :: 'u' :: hex4 n

/-- A string with its quotes. -/
def quoted (s : String) : List Char := '"' :: (s.toList.flatMap escape ++ ['"'])

def spellFloat (fl : FloatText) : PyFloat → List Char
  | .finite q => fl.repr q
  | .inf false => "Infinity".toList
  | .inf true => "-Infinity".toList
  | .nan => "NaN".toList

mutual

/-- `json.dumps`, of a value that is a tree already. -/
def spell (fl : FloatText) : JsonText → List Char
  | .null => "null".toList
  | .bool b => (if b then "true" else "false").toList
  | .int i => spellInt i
  | .float f => spellFloat fl f
  | .str s => quoted s
  | .arr xs => '[' :: (spellItems fl xs ++ [']'])
  | .obj ms => '\x7b' :: (spellMembers fl ms ++ ['\x7d'])

def spellItems (fl : FloatText) : List JsonText → List Char
  | [] => []
  | [x] => spell fl x
  | x :: xs => spell fl x ++ (',' :: ' ' :: spellItems fl xs)

def spellMembers (fl : FloatText) : List (String × JsonText) → List Char
  | [] => []
  | [(name, x)] => quoted name ++ (':' :: ' ' :: spell fl x)
  | (name, x) :: ms =>
    quoted name ++ (':' :: ' ' :: (spell fl x ++ (',' :: ' ' :: spellMembers fl ms)))

end

/-! ## Reading -/

/-- `BACKSLASH`. -/
def meaning (c : Char) : Option Char :=
  [('"', '"'), ('\\', '\\'), ('/', '/'), ('b', '\x08'), ('f', '\x0c'), ('n', '\n'), ('r', '\r'),
    ('t', '\t')].lookup c

def hex4? (a b c d : Char) : Option ℕ :=
  (hexDigit? a).bind fun a => (hexDigit? b).bind fun b => (hexDigit? c).bind fun c =>
    (hexDigit? d).map fun d => ((a * 16 + b) * 16 + c) * 16 + d

/-- `py_scanstring` behind the opening quote, which gives code points and escaped code units. -/
def body : Reader (List ℕ)
  | [] => none
  | '"' :: cs => some ([], cs)
  | '\\' :: 'u' :: a :: b :: c :: d :: cs =>
    (hex4? a b c d).bind fun n => (body cs).map fun r => (n :: r.1, r.2)
  | '\\' :: c :: cs => (meaning c).bind fun d => (body cs).map fun r => (d.toNat :: r.1, r.2)
  | c :: cs =>
    if c.toNat < 0x20 ∨ c = '\\' then none
    else (body cs).map fun r => (c.toNat :: r.1, r.2)

def isHigh (n : ℕ) : Bool := 0xd800 ≤ n ∧ n ≤ 0xdbff

def isLow (n : ℕ) : Bool := 0xdc00 ≤ n ∧ n ≤ 0xdfff

/-- The characters of code points and escaped code units, of which two halves make one. -/
def join : List ℕ → Option (List Char)
  | [] => some []
  | [n] => if n.isValidChar then some [Char.ofNat n] else none
  | n :: m :: ns =>
    if isHigh n ∧ isLow m then
      (join ns).map fun cs => Char.ofNat (0x10000 + ((n - 0xd800) * 0x400 + (m - 0xdc00))) :: cs
    else if n.isValidChar then (join (m :: ns)).map fun cs => Char.ofNat n :: cs else none

def string (cs : List Char) : Option (String × List Char) :=
  (body cs).bind fun r => (join r.1).map fun s => (String.ofList s, r.2)

/-- A value without parts that is no string. -/
def atom (fl : FloatText) : Reader JsonText
  | 'n' :: 'u' :: 'l' :: 'l' :: cs => some (.null, cs)
  | 't' :: 'r' :: 'u' :: 'e' :: cs => some (.bool true, cs)
  | 'f' :: 'a' :: 'l' :: 's' :: 'e' :: cs => some (.bool false, cs)
  | 'N' :: 'a' :: 'N' :: cs => some (.float .nan, cs)
  | 'I' :: 'n' :: 'f' :: 'i' :: 'n' :: 'i' :: 't' :: 'y' :: cs => some (.float (.inf false), cs)
  | '-' :: 'I' :: 'n' :: 'f' :: 'i' :: 'n' :: 'i' :: 't' :: 'y' :: cs =>
    some (.float (.inf true), cs)
  | cs => (number cs).map fun n =>
    (if n.2.1 then .float (fl.read n.1) else .int (intOf n.1), n.2.2)

mutual

/-- `scan_once`, with fuel for the calls that are nested. -/
def value (fl : FloatText) : ℕ → Reader JsonText
  | 0, _ => none
  | _ + 1, '"' :: cs => (string cs).map fun r => (.str r.1, r.2)
  | n + 1, '[' :: cs =>
    match skip cs with
    | ']' :: rest => some (.arr [], rest)
    | cs => (items fl n cs).map fun r => (.arr r.1, r.2)
  | n + 1, '\x7b' :: cs =>
    match skip cs with
    | '\x7d' :: rest => some (.obj [], rest)
    | '"' :: cs => (members fl n cs).map fun r => (.obj r.1, r.2)
    | _ => none
  | _ + 1, cs => atom fl cs

/-- `JSONArray`, from a value on. -/
def items (fl : FloatText) : ℕ → Reader (List JsonText)
  | 0, _ => none
  | n + 1, cs =>
    (value fl n cs).bind fun x =>
      match skip x.2 with
      | ']' :: rest => some ([x.1], rest)
      | ',' :: cs => (items fl n (skip cs)).map fun r => (x.1 :: r.1, r.2)
      | _ => none

/-- `JSONObject`, behind the quote that opens a name. -/
def members (fl : FloatText) : ℕ → Reader (List (String × JsonText))
  | 0, _ => none
  | n + 1, cs =>
    (string cs).bind fun name =>
      match skip name.2 with
      | ':' :: cs =>
        (value fl n (skip cs)).bind fun x =>
          match skip x.2 with
          | '\x7d' :: rest => some ([(name.1, x.1)], rest)
          | ',' :: cs =>
            match skip cs with
            | '"' :: cs => (members fl n cs).map fun r => ((name.1, x.1) :: r.1, r.2)
            | _ => none
          | _ => none
      | _ => none

end

/-- `json.loads`.  Two nested calls read one character at least. -/
def loads (fl : FloatText) (cs : List Char) : Option JsonText :=
  match value fl (2 * cs.length + 2) (skip cs) with
  | some (t, rest) => if skip rest = [] then some t else none
  | none => none

/-! ## Strings are read back -/

theorem hex4?_hex4 {n : ℕ} (small : n < 0x10000) :
    hex4? (Nat.digitChar (n / 4096 % 16)) (Nat.digitChar (n / 256 % 16))
      (Nat.digitChar (n / 16 % 16)) (Nat.digitChar (n % 16)) = some n := by
  have digit (k : ℕ) : hexDigit? (Nat.digitChar (k % 16)) = some (k % 16) :=
    hexDigit?_digitChar _ (Nat.mod_lt _ (by decide))
  simp only [hex4?, digit, Option.bind_some, Option.map_some]
  congr 1
  omega

theorem body_unit {n : ℕ} (small : n < 0x10000) (cs : List Char) :
    body ('\\' :: 'u' :: (hex4 n ++ cs)) = (body cs).map fun r => (n :: r.1, r.2) := by
  show body ('\\' :: 'u' :: _ :: _ :: _ :: _ :: cs) = _
  rw [body, hex4?_hex4 small]
  rfl

/-- No character is a surrogate. -/
theorem toNat_cases (c : Char) : c.toNat < 0xd800 ∨ 0xdfff < c.toNat ∧ c.toNat < 0x110000 := c.valid

theorem units_lt (c : Char) : ∀ n ∈ units c, n < 0x10000 := by
  have bound := toNat_cases c
  unfold units
  split_ifs with small
  · simpa using small
  · simp only [List.forall_mem_cons]
    exact ⟨by omega, by omega, by simp⟩

theorem body_units {ns : List ℕ} (small : ∀ n ∈ ns, n < 0x10000) (cs : List Char) :
    body ((ns.flatMap fun n => '\\' :: 'u' :: hex4 n) ++ cs) =
      (body cs).map fun r => (ns ++ r.1, r.2) := by
  induction ns with
  | nil => simp
  | cons n ns ih =>
    rw [List.forall_mem_cons] at small
    rw [List.flatMap_cons, List.append_assoc]
    show body ('\\' :: 'u' :: (hex4 n ++ _)) = _
    rw [body_unit small.1, ih small.2, Option.map_map]
    rfl

/-- A letter behind a backslash means the character that is spelled so. -/
theorem meaning_of_mnemonic {c d : Char} (h : mnemonic c = some d) :
    meaning d = some c ∧ d ≠ 'u' ∧ units c = [c.toNat] := by
  unfold mnemonic at h
  simp only [List.lookup_cons] at h
  repeat' split at h
  all_goals first
    | cases h
      rename_i same
      obtain rfl := eq_of_beq same
      decide
    | cases h

/-- What stands for a character is read as its code units. -/
theorem body_escape (c : Char) (cs : List Char) :
    body (escape c ++ cs) = (body cs).map fun r => (units c ++ r.1, r.2) := by
  unfold escape
  split
  · rename_i d named
    obtain ⟨means, ne, unit⟩ := meaning_of_mnemonic named
    show body ('\\' :: d :: cs) = _
    rw [body.eq_def]
    split
    · rename_i same
      cases same
    · rename_i same
      cases (List.cons.inj same).1
    · rename_i same
      exact absurd (List.cons.inj (List.cons.inj same).2).1 ne
    · rename_i same
      obtain ⟨rfl, rfl⟩ := List.cons.inj (List.cons.inj same).2
      rw [means, unit]
      rfl
    · rename_i other same
      obtain ⟨rfl, rfl⟩ := List.cons.inj same
      exact absurd rfl (other d cs rfl)
  · rename_i plain
    split_ifs with printable
    · have unit : units c = [c.toNat] := by
        have bound : c.toNat ≤ '~'.toNat := by
          simp only [isPrintable, decide_eq_true_eq] at printable
          exact printable.2
        unfold units
        rw [if_pos (Nat.lt_of_le_of_lt bound (by decide))]
      have ne (d : Char) (named : mnemonic d ≠ none) : c ≠ d := by
        rintro rfl
        exact named plain
      show body (c :: cs) = _
      rw [body.eq_def]
      split
      · rename_i same
        cases same
      · rename_i same
        exact absurd (List.cons.inj same).1 (ne '"' (by decide))
      · rename_i same
        exact absurd (List.cons.inj same).1 (ne '\\' (by decide))
      · rename_i same
        exact absurd (List.cons.inj same).1 (ne '\\' (by decide))
      · rename_i same
        obtain ⟨rfl, rfl⟩ := List.cons.inj same
        have large : ' '.toNat ≤ c.toNat := by
          simp only [isPrintable, decide_eq_true_eq] at printable
          exact printable.1
        rw [if_neg, unit]
        · rfl
        · rintro (small | same)
          · have space : ' '.toNat = 0x20 := by decide
            omega
          · exact ne '\\' (by decide) same
    · exact body_units (units_lt c) cs

theorem body_quoted (cs : List Char) (rest : List Char) :
    body (cs.flatMap escape ++ '"' :: rest) = some (cs.flatMap units, rest) := by
  induction cs with
  | nil => rfl
  | cons c cs ih =>
    rw [List.flatMap_cons, List.append_assoc, body_escape, ih]
    rfl

/-- The code units of characters are joined to them. -/
theorem join_units (cs : List Char) : join (cs.flatMap units) = some cs := by
  induction cs with
  | nil => rfl
  | cons c cs ih =>
    have valid := toNat_cases c
    have back : Char.ofNat c.toNat = c := Char.ofNat_toNat c
    rw [List.flatMap_cons]
    by_cases small : c.toNat < 0x10000
    · have unit : units c = [c.toNat] := if_pos small
      have isValid : c.toNat.isValidChar := c.valid
      rw [unit, List.singleton_append]
      cases rest : cs.flatMap units with
      | nil =>
        rw [rest] at ih
        obtain rfl := Option.some.inj ih
        rw [join, if_pos isValid, back]
      | cons n ns =>
        rw [rest] at ih
        have low : isHigh c.toNat = false := by
          simp only [isHigh, decide_eq_false_iff_not]
          omega
        rw [join, low, if_neg (by simp), if_pos isValid, ih, back]
        rfl
    · have unit : units c =
          [0xd800 + (c.toNat - 0x10000) / 0x400, 0xdc00 + (c.toNat - 0x10000) % 0x400] :=
        if_neg small
      have high : isHigh (0xd800 + (c.toNat - 0x10000) / 0x400) = true := by
        simp only [isHigh, decide_eq_true_eq]
        omega
      have low : isLow (0xdc00 + (c.toNat - 0x10000) % 0x400) = true := by
        simp only [isLow, decide_eq_true_eq]
        omega
      have whole : 0x10000 + ((0xd800 + (c.toNat - 0x10000) / 0x400 - 0xd800) * 0x400 +
          (0xdc00 + (c.toNat - 0x10000) % 0x400 - 0xdc00)) = c.toNat := by omega
      rw [unit]
      show join (_ :: _ :: cs.flatMap units) = _
      rw [join, high, low, if_pos ⟨rfl, rfl⟩, ih, whole, back]
      rfl

theorem string_quoted (s : String) (rest : List Char) :
    string (s.toList.flatMap escape ++ '"' :: rest) = some (s, rest) := by
  rw [string, body_quoted, Option.bind_some, join_units, Option.map_some, String.ofList_toList]

/-! ## Numbers are read back -/

theorem fraction_of_stops {rest : List Char} (stops : Stops rest) : fraction rest = ([], rest) := by
  cases rest with
  | nil => rfl
  | cons c cs =>
    have other := (stops c rfl).2.1
    rw [fraction.eq_def]
    split
    · rename_i same
      exact absurd (List.cons.inj same).1 other
    · rfl

theorem exponent_of_stops {rest : List Char} (stops : Stops rest) : exponent rest = ([], rest) := by
  have none : exponentMark rest = none := by
    rw [exponentMark.eq_def]
    split
    · rename_i e s cs
      obtain ⟨-, -, small, large⟩ := stops e rfl
      rw [if_neg]
      rintro (rfl | rfl)
      · exact small rfl
      · exact large rfl
    · rfl
  rw [exponent, none]

theorem natural_toDigits (n : ℕ) {rest : List Char}
    (stops : ∀ c ∈ rest.head?, c.isDigit = false) :
    natural (Nat.toDigits 10 n ++ rest) = some (Nat.toDigits 10 n, rest) := by
  obtain ⟨c, cs, first, digit⟩ := Toml.exists_toDigits n
  obtain ⟨taken, left⟩ := @Toml.span_append Char.isDigit (Nat.toDigits 10 n) rest
    (fun c hc => Nat.isDigit_of_mem_toDigits (by decide) (by decide) hc) stops
  rw [first] at taken left ⊢
  rw [List.cons_append, natural.eq_def]
  split
  · rename_i same
    obtain ⟨rfl, rfl⟩ := List.cons.inj same
    have zero := Toml.head?_toDigits (n := n) (by rw [first]; rfl)
    rw [zero] at first
    obtain rfl := (List.cons.inj first).2
    rfl
  · rename_i same
    obtain ⟨rfl, rfl⟩ := List.cons.inj same
    rw [if_pos digit, digits, ← List.cons_append, taken, left]
  · rename_i same
    cases same

theorem whole_spellInt (i : ℤ) {rest : List Char}
    (stops : ∀ c ∈ rest.head?, c.isDigit = false) :
    whole (spellInt i ++ rest) = some (spellInt i, rest) := by
  rw [spellInt]
  split_ifs with negative
  · rw [List.cons_append, whole, natural_toDigits _ stops]
    rfl
  · have read := natural_toDigits i.natAbs stops
    obtain ⟨c, cs, first, digit⟩ := Toml.exists_toDigits i.natAbs
    rw [first] at read ⊢
    rw [List.cons_append] at read ⊢
    rw [whole.eq_def]
    split
    · rename_i same
      rw [(List.cons.inj same).1] at digit
      cases digit
    · exact read

theorem number_spellInt (i : ℤ) {rest : List Char} (stops : Stops rest) :
    number (spellInt i ++ rest) = some (spellInt i, false, rest) := by
  rw [number, whole_spellInt i fun c first => (stops c first).1, Option.map_some]
  simp only [fraction_of_stops stops, exponent_of_stops stops, List.append_nil]
  rfl

theorem intOf_spellInt (i : ℤ) : intOf (spellInt i) = i := by
  rw [spellInt]
  split_ifs with negative
  · rw [intOf, Nat.ofDigitChars_ten_toDigits]
    omega
  · obtain ⟨c, cs, first, digit⟩ := Toml.exists_toDigits i.natAbs
    have read : (Nat.ofDigitChars 10 (Nat.toDigits 10 i.natAbs) 0 : ℤ) = i := by
      rw [Nat.ofDigitChars_ten_toDigits]
      omega
    rw [first] at read ⊢
    rw [intOf.eq_def]
    split
    · rename_i same
      rw [(List.cons.inj same).1] at digit
      cases digit
    · exact read

/-! ## Values are read back -/

variable (fl : FloatText)

/-- The characters that a number begins with. -/
def isSign (c : Char) : Bool := c = '-' ∨ c.isDigit

theorem head_of_natural {cs : List Char} {r : List Char × List Char} (h : natural cs = some r) :
    ∃ c rest, cs = c :: rest ∧ c.isDigit = true := by
  rw [natural.eq_def] at h
  split at h
  · exact ⟨'0', _, rfl, rfl⟩
  · split at h
    · exact ⟨_, _, rfl, ‹_›⟩
    · cases h
  · cases h

theorem head_of_number {cs : List Char} {r : List Char × Bool × List Char}
    (h : number cs = some r) :
    (∃ c rest, cs = c :: rest ∧ isSign c = true) ∧ ∀ rest, cs ≠ '-' :: 'I' :: rest := by
  obtain ⟨w, found, -⟩ := Option.map_eq_some_iff.1 h
  rw [whole.eq_def] at found
  split at found
  · obtain ⟨w', found, -⟩ := Option.map_eq_some_iff.1 found
    obtain ⟨c, rest, rfl, digit⟩ := head_of_natural found
    refine ⟨⟨'-', _, rfl, rfl⟩, fun rest' same => ?_⟩
    rw [(List.cons.inj (List.cons.inj same).2).1] at digit
    cases digit
  · rename_i other
    obtain ⟨c, rest, rfl, digit⟩ := head_of_natural found
    refine ⟨⟨c, rest, rfl, ?_⟩, fun rest' same => ?_⟩
    · simp [isSign, digit]
    · exact other _ same

theorem atom_of_number {cs token rest : List Char} {isFloat : Bool}
    (read : number cs = some (token, isFloat, rest)) :
    atom fl cs = some (if isFloat then .float (fl.read token) else .int (intOf token), rest) := by
  obtain ⟨⟨c, cs', rfl, sign⟩, notInf⟩ := head_of_number read
  have other {d : Char} (h : isSign d = false) (ds : List Char) : c :: cs' ≠ d :: ds := by
    intro same
    rw [(List.cons.inj same).1, h] at sign
    cases sign
  rw [atom.eq_def]
  split
  · rename_i same
    exact absurd same (other (by decide) _)
  · rename_i same
    exact absurd same (other (by decide) _)
  · rename_i same
    exact absurd same (other (by decide) _)
  · rename_i same
    exact absurd same (other (by decide) _)
  · rename_i same
    exact absurd same (other (by decide) _)
  · rename_i same
    exact absurd same (notInf _)
  · rw [read]
    rfl

/-- The characters that a value begins with. -/
def isOpening (c : Char) : Bool := c ∈ ['"', '[', '\x7b', 'n', 't', 'f', 'N', 'I'] ∨ isSign c

theorem spell_first (t : JsonText) : ∃ c cs, spell fl t = c :: cs ∧ isOpening c = true := by
  have ofNumber {cs : List Char} {r : List Char × Bool × List Char} (read : number cs = some r) :
      ∃ c rest, cs = c :: rest ∧ isOpening c = true := by
    obtain ⟨⟨c, rest, rfl, sign⟩, -⟩ := head_of_number read
    exact ⟨c, rest, rfl, by simp [isOpening, sign]⟩
  have stops : Stops [] := by rintro c ⟨⟩
  cases t with
  | null => exact ⟨'n', _, rfl, rfl⟩
  | bool b => cases b <;> exact ⟨_, _, rfl, by decide⟩
  | int i =>
    have read := number_spellInt i stops
    rw [List.append_nil] at read
    exact ofNumber read
  | float f =>
    cases f with
    | finite q =>
      have read := fl.number_repr q [] stops
      rw [List.append_nil] at read
      exact ofNumber read
    | inf negative => cases negative <;> exact ⟨_, _, rfl, by decide⟩
    | nan => exact ⟨'N', _, rfl, by decide⟩
  | str s => exact ⟨'"', _, rfl, rfl⟩
  | arr xs => exact ⟨'[', _, rfl, by decide⟩
  | obj ms => exact ⟨'\x7b', _, rfl, by decide⟩

theorem skip_of_opening {c : Char} (opening : isOpening c = true) (cs : List Char) :
    skip (c :: cs) = c :: cs := by
  have noSpace : isSpace c = false := by
    have spaces : [' ', '\t', '\n', '\r'].all fun d => !isOpening d := by decide
    cases space : isSpace c with
    | false => rfl
    | true =>
      have mem : c ∈ [' ', '\t', '\n', '\r'] := by simpa [isSpace] using space
      simpa [opening] using List.all_eq_true.1 spaces c mem
  rw [skip, List.dropWhile_cons, noSpace]
  rfl

theorem skip_spell (t : JsonText) (rest : List Char) :
    skip (spell fl t ++ rest) = spell fl t ++ rest := by
  obtain ⟨c, cs, first, opening⟩ := spell_first fl t
  rw [first, List.cons_append, skip_of_opening opening]

/-- A value without parts that is no string. -/
theorem value_of_atom {cs : List Char} {n : ℕ} {r : JsonText × List Char}
    (other : ∀ d ∈ ['"', '[', '\x7b'], ∀ rest, cs ≠ d :: rest) (read : atom fl cs = some r) :
    value fl (n + 1) cs = some r := by
  rw [value.eq_def]
  split
  · rename_i zero
    cases zero
  · exact absurd rfl (other '"' (by decide) _)
  · exact absurd rfl (other '[' (by decide) _)
  · exact absurd rfl (other '\x7b' (by decide) _)
  · exact read

theorem spellItems_cons (x y : JsonText) (xs : List JsonText) :
    spellItems fl (x :: y :: xs) = spell fl x ++ (',' :: ' ' :: spellItems fl (y :: xs)) := rfl

theorem spellMembers_cons (name : String) (x : JsonText) (m : String × JsonText)
    (ms : List (String × JsonText)) : spellMembers fl ((name, x) :: m :: ms) =
      quoted name ++ (':' :: ' ' :: (spell fl x ++ (',' :: ' ' :: spellMembers fl (m :: ms)))) :=
  rfl

theorem spellItems_first (x : JsonText) (xs : List JsonText) :
    ∃ c cs, spellItems fl (x :: xs) = c :: cs ∧ isOpening c = true := by
  obtain ⟨c, cs, first, opening⟩ := spell_first fl x
  cases xs with
  | nil => exact ⟨c, cs, first, opening⟩
  | cons y xs =>
    refine ⟨c, cs ++ (',' :: ' ' :: spellItems fl (y :: xs)), ?_, opening⟩
    rw [spellItems_cons, first, List.cons_append]

theorem spellMembers_first (m : String × JsonText) (ms : List (String × JsonText)) :
    ∃ cs, spellMembers fl (m :: ms) = '"' :: cs := by
  obtain ⟨name, x⟩ := m
  cases ms with
  | nil => exact ⟨_, rfl⟩
  | cons m ms => exact ⟨_, rfl⟩

theorem stops_cons {c : Char} (other : c.isDigit = false ∧ c ≠ '.' ∧ c ≠ 'e' ∧ c ≠ 'E')
    (cs : List Char) : Stops (c :: cs) := by
  rintro d ⟨⟩
  exact other

/-- A number is no value of another form. -/
theorem other_of_number {cs : List Char} {r : List Char × Bool × List Char}
    (read : number cs = some r) : ∀ d ∈ ['"', '[', '\x7b'], ∀ rest, cs ≠ d :: rest := by
  obtain ⟨⟨c, cs', rfl, sign⟩, -⟩ := head_of_number read
  have signs : ['"', '[', '\x7b'].all fun d => !isSign d := by decide
  intro d mem rest same
  rw [(List.cons.inj same).1] at sign
  simpa [sign] using List.all_eq_true.1 signs d mem

theorem value_int (i : ℤ) {n : ℕ} {rest : List Char} (stops : Stops rest) :
    value fl (n + 1) (spellInt i ++ rest) = some (.int i, rest) := by
  have read := number_spellInt i stops
  rw [value_of_atom fl (other_of_number read) (atom_of_number fl read), intOf_spellInt]
  rfl

theorem value_float (f : PyFloat) {n : ℕ} {rest : List Char} (stops : Stops rest) :
    value fl (n + 1) (spellFloat fl f ++ rest) = some (.float f, rest) := by
  cases f with
  | finite q =>
    have read := fl.number_repr q rest stops
    show value fl (n + 1) (fl.repr q ++ rest) = _
    rw [value_of_atom fl (other_of_number read) (atom_of_number fl read), fl.read_repr]
    rfl
  | inf negative => cases negative <;> rfl
  | nan => rfl

mutual

/-- A value is read back, whatever stands behind it that no number goes on with. -/
theorem value_spell : ∀ (t : JsonText) (n : ℕ) (rest : List Char),
    2 * (spell fl t).length ≤ n → Stops rest → value fl n (spell fl t ++ rest) = some (t, rest)
  | t, 0, rest, fuel, _ => by
    obtain ⟨c, cs, first, -⟩ := spell_first fl t
    rw [first, List.length_cons] at fuel
    omega
  | .null, n + 1, rest, _, _ => rfl
  | .bool b, n + 1, rest, _, _ => by cases b <;> rfl
  | .int i, n + 1, rest, _, stops => value_int fl i stops
  | .float f, n + 1, rest, _, stops => value_float fl f stops
  | .str s, n + 1, rest, _, _ => by
    show value fl (n + 1) ('"' :: (s.toList.flatMap escape ++ ['"'] ++ rest)) = _
    rw [value, List.append_assoc, List.singleton_append, string_quoted]
    rfl
  | .arr xs, n + 1, rest, fuel, _ => by
    show value fl (n + 1) ('[' :: (spellItems fl xs ++ [']'] ++ rest)) = _
    rw [value, List.append_assoc, List.singleton_append]
    cases xs with
    | nil => rfl
    | cons x xs =>
      have inside : 2 * (spellItems fl (x :: xs)).length + 1 ≤ n := by
        rw [spell, List.length_cons, List.length_append] at fuel
        simp only [List.length_singleton] at fuel
        omega
      obtain ⟨c, cs, first, opening⟩ := spellItems_first fl x xs
      have read := items_spell (x :: xs) (List.cons_ne_nil _ _) n rest inside
      rw [first, List.cons_append] at read ⊢
      rw [skip_of_opening opening]
      split
      · rename_i same
        rw [(List.cons.inj same).1] at opening
        exact absurd opening (by decide)
      · rw [read]
        rfl
  | .obj ms, n + 1, rest, fuel, _ => by
    show value fl (n + 1) ('\x7b' :: (spellMembers fl ms ++ ['\x7d'] ++ rest)) = _
    rw [value, List.append_assoc, List.singleton_append]
    cases ms with
    | nil => rfl
    | cons m ms =>
      have inside : 2 * (spellMembers fl (m :: ms)).length + 1 ≤ n := by
        rw [spell, List.length_cons, List.length_append] at fuel
        simp only [List.length_singleton] at fuel
        omega
      obtain ⟨cs, first⟩ := spellMembers_first fl m ms
      have read := members_spell (m :: ms) (List.cons_ne_nil _ _) n rest inside
      rw [first, List.cons_append, List.tail_cons] at read
      rw [first, List.cons_append, skip_of_opening (by decide)]
      show (members fl n _).map _ = _
      rw [read]
      rfl

theorem items_spell : ∀ (xs : List JsonText), xs ≠ [] → ∀ (n : ℕ) (rest : List Char),
    2 * (spellItems fl xs).length + 1 ≤ n →
      items fl n (spellItems fl xs ++ ']' :: rest) = some (xs, rest)
  | [], nonempty, _, _, _ => absurd rfl nonempty
  | _ :: _, _, 0, _, fuel => absurd fuel (by omega)
  | [x], _, n + 1, rest, fuel => by
    have read := value_spell x n (']' :: rest) (by rw [spellItems] at fuel; omega)
      (stops_cons (by decide) rest)
    rw [spellItems, items, read, Option.bind_some]
    rfl
  | x :: y :: xs, _, n + 1, rest, fuel => by
    rw [spellItems_cons, List.length_append, List.length_cons, List.length_cons] at fuel
    have read := value_spell x n (',' :: ' ' :: (spellItems fl (y :: xs) ++ ']' :: rest)) (by omega)
      (stops_cons (by decide) _)
    have more := items_spell (y :: xs) (List.cons_ne_nil _ _) n rest (by omega)
    obtain ⟨c, cs, first, opening⟩ := spellItems_first fl y xs
    rw [spellItems_cons, List.append_assoc, List.cons_append, List.cons_append, items, read,
      Option.bind_some]
    show (items fl n (skip (' ' :: (spellItems fl (y :: xs) ++ ']' :: rest)))).map _ = _
    have skipped : skip (' ' :: (spellItems fl (y :: xs) ++ ']' :: rest)) =
        spellItems fl (y :: xs) ++ ']' :: rest := by
      rw [first, List.cons_append]
      exact skip_of_opening opening _
    rw [skipped, more]
    rfl

theorem members_spell : ∀ (ms : List (String × JsonText)), ms ≠ [] → ∀ (n : ℕ) (rest : List Char),
    2 * (spellMembers fl ms).length + 1 ≤ n →
      members fl n ((spellMembers fl ms ++ '\x7d' :: rest).tail) = some (ms, rest)
  | [], nonempty, _, _, _ => absurd rfl nonempty
  | _ :: _, _, 0, _, fuel => absurd fuel (by omega)
  | [(name, x)], _, n + 1, rest, fuel => by
    rw [spellMembers, List.length_append, List.length_cons, List.length_cons] at fuel
    have read := value_spell x n ('\x7d' :: rest) (by omega) (stops_cons (by decide) rest)
    have whole : (spellMembers fl [(name, x)] ++ '\x7d' :: rest).tail =
        name.toList.flatMap escape ++ '"' :: ':' :: ' ' :: (spell fl x ++ '\x7d' :: rest) := by
      simp [spellMembers, quoted]
    rw [whole, members, string_quoted, Option.bind_some]
    show (value fl n (skip (' ' :: (spell fl x ++ '\x7d' :: rest)))).bind _ = _
    have skipped : skip (' ' :: (spell fl x ++ '\x7d' :: rest)) = spell fl x ++ '\x7d' :: rest :=
      skip_spell fl x _
    rw [skipped, read, Option.bind_some]
    rfl
  | (name, x) :: m :: ms, _, n + 1, rest, fuel => by
    rw [spellMembers_cons, List.length_append, List.length_cons, List.length_cons,
      List.length_append, List.length_cons, List.length_cons] at fuel
    have read := value_spell x n (',' :: ' ' :: (spellMembers fl (m :: ms) ++ '\x7d' :: rest))
      (by omega) (stops_cons (by decide) _)
    have more := members_spell (m :: ms) (List.cons_ne_nil _ _) n rest (by omega)
    obtain ⟨cs, first⟩ := spellMembers_first fl m ms
    have whole : (spellMembers fl ((name, x) :: m :: ms) ++ '\x7d' :: rest).tail =
        name.toList.flatMap escape ++ '"' :: ':' :: ' ' ::
          (spell fl x ++ ',' :: ' ' :: (spellMembers fl (m :: ms) ++ '\x7d' :: rest)) := by
      simp [spellMembers, quoted]
    rw [whole, members, string_quoted, Option.bind_some]
    show (value fl n (skip (' ' ::
      (spell fl x ++ ',' :: ' ' :: (spellMembers fl (m :: ms) ++ '\x7d' :: rest))))).bind _ = _
    have skipped : skip (' ' ::
        (spell fl x ++ ',' :: ' ' :: (spellMembers fl (m :: ms) ++ '\x7d' :: rest))) =
        spell fl x ++ ',' :: ' ' :: (spellMembers fl (m :: ms) ++ '\x7d' :: rest) :=
      skip_spell fl x _
    rw [first, List.cons_append, List.tail_cons] at more
    rw [skipped, read, Option.bind_some, first, List.cons_append]
    show (members fl n (cs ++ '\x7d' :: rest)).map _ = _
    rw [more]
    rfl

end

/-- What was spelled is read, with space behind it or without. -/
theorem loads_spell (t : JsonText) {rest : List Char} (blank : skip rest = []) :
    loads fl (spell fl t ++ rest) = some t := by
  have stops : Stops rest := by
    intro c first
    obtain ⟨cs, rfl⟩ := List.head?_eq_some_iff.1 first
    have space : isSpace c = true := by
      by_contra other
      rw [skip, List.dropWhile_cons, if_neg other] at blank
      cases blank
    have spaces : [' ', '\t', '\n', '\r'].all fun d =>
        !d.isDigit && d != '.' && d != 'e' && d != 'E' := by decide
    simpa [and_assoc] using List.all_eq_true.1 spaces c (by simpa [isSpace] using space)
  have fuel : 2 * (spell fl t).length ≤ 2 * (spell fl t ++ rest).length + 2 := by
    rw [List.length_append]
    omega
  rw [loads, skip_spell, value_spell fl t _ rest fuel stops]
  exact if_pos blank

/-! ## Spellings are printable -/

theorem printable_digitChar : ∀ n < 16, isPrintable (Nat.digitChar n) = true := by decide

theorem printable_escape (c : Char) : ∀ d ∈ escape c, isPrintable d = true := by
  unfold escape
  split
  · rename_i d named
    have letters : ['"', '\\', 'n', 'r', 't', 'f', 'b'].all isPrintable := by decide
    have mem : d ∈ ['"', '\\', 'n', 'r', 't', 'f', 'b'] := by
      unfold mnemonic at named
      simp only [List.lookup_cons] at named
      repeat' split at named
      all_goals first
        | cases named
          decide
        | cases named
    simp only [List.forall_mem_cons]
    exact ⟨by decide, List.all_eq_true.1 letters d mem, by simp⟩
  · split_ifs with printable
    · simpa using printable
    · intro d mem
      obtain ⟨n, -, mem⟩ := List.mem_flatMap.1 mem
      rcases List.mem_cons.1 mem with rfl | mem
      · decide
      · rcases List.mem_cons.1 mem with rfl | mem
        · decide
        · obtain ⟨k, digit, rfl⟩ := List.mem_map.1 mem
          refine printable_digitChar k ?_
          simp only [List.mem_cons, List.not_mem_nil, or_false] at digit
          omega

theorem printable_quoted (s : String) : ∀ d ∈ quoted s, isPrintable d = true := by
  intro d mem
  rcases List.mem_cons.1 mem with rfl | mem
  · decide
  · rcases List.mem_append.1 mem with mem | mem
    · obtain ⟨c, -, mem⟩ := List.mem_flatMap.1 mem
      exact printable_escape c d mem
    · obtain rfl := List.mem_singleton.1 mem
      decide

theorem printable_digit {c : Char} (isDigit : c.isDigit = true) : isPrintable c = true := by
  simp only [Char.isDigit, Bool.and_eq_true, decide_eq_true_eq] at isDigit
  obtain ⟨low, high⟩ := isDigit
  have lowest : ' ' ≤ '0' := by decide
  have highest : '9' ≤ '~' := by decide
  simp only [isPrintable, decide_eq_true_eq]
  exact ⟨Char.le_trans lowest low, Char.le_trans high highest⟩

theorem printable_spellInt (i : ℤ) : ∀ d ∈ spellInt i, isPrintable d = true := by
  have digit {c : Char} (mem : c ∈ Nat.toDigits 10 i.natAbs) : isPrintable c = true :=
    printable_digit (Nat.isDigit_of_mem_toDigits (by decide) (by decide) mem)
  intro d mem
  rw [spellInt] at mem
  split_ifs at mem
  · rcases List.mem_cons.1 mem with rfl | mem
    · decide
    · exact digit mem
  · exact digit mem

theorem printable_words : ∀ w ∈ ["null", "true", "false", "Infinity", "-Infinity", "NaN"],
    w.toList.all isPrintable = true := by decide

theorem printable_word {w : String}
    (mem : w ∈ ["null", "true", "false", "Infinity", "-Infinity", "NaN"]) :
    ∀ d ∈ w.toList, isPrintable d = true := List.all_eq_true.1 (printable_words w mem)

mutual

/-- A spelling is one line of printable ASCII. -/
theorem printable_spell : ∀ (t : JsonText), ∀ d ∈ spell fl t, isPrintable d = true
  | .null => printable_word (w := "null") (by simp)
  | .bool false => printable_word (w := "false") (by simp)
  | .bool true => printable_word (w := "true") (by simp)
  | .int i => printable_spellInt i
  | .float (.finite q) => fl.printable q
  | .float (.inf false) => printable_word (w := "Infinity") (by simp)
  | .float (.inf true) => printable_word (w := "-Infinity") (by simp)
  | .float .nan => printable_word (w := "NaN") (by simp)
  | .str s => printable_quoted s
  | .arr xs => by
    intro d mem
    rcases List.mem_cons.1 mem with rfl | mem
    · decide
    · rcases List.mem_append.1 mem with mem | mem
      · exact printable_spellItems xs d mem
      · obtain rfl := List.mem_singleton.1 mem
        decide
  | .obj ms => by
    intro d mem
    rcases List.mem_cons.1 mem with rfl | mem
    · decide
    · rcases List.mem_append.1 mem with mem | mem
      · exact printable_spellMembers ms d mem
      · obtain rfl := List.mem_singleton.1 mem
        decide

theorem printable_spellItems : ∀ (xs : List JsonText),
    ∀ d ∈ spellItems fl xs, isPrintable d = true
  | [] => by
    intro d mem
    cases mem
  | [x] => printable_spell x
  | x :: y :: xs => by
    intro d mem
    rw [spellItems_cons] at mem
    rcases List.mem_append.1 mem with mem | mem
    · exact printable_spell x d mem
    · simp only [List.mem_cons] at mem
      rcases mem with rfl | rfl | mem
      · decide
      · decide
      · exact printable_spellItems (y :: xs) d mem

theorem printable_spellMembers : ∀ (ms : List (String × JsonText)),
    ∀ d ∈ spellMembers fl ms, isPrintable d = true
  | [] => by
    intro d mem
    cases mem
  | [(name, x)] => by
    intro d mem
    rcases List.mem_append.1 mem with mem | mem
    · exact printable_quoted name d mem
    · simp only [List.mem_cons] at mem
      rcases mem with rfl | rfl | mem
      · decide
      · decide
      · exact printable_spell x d mem
  | (name, x) :: m :: ms => by
    intro d mem
    rw [spellMembers_cons] at mem
    rcases List.mem_append.1 mem with mem | mem
    · exact printable_quoted name d mem
    · simp only [List.mem_cons, List.mem_append] at mem
      rcases mem with rfl | rfl | mem | rfl | rfl | mem
      · decide
      · decide
      · exact printable_spell x d mem
      · decide
      · decide
      · exact printable_spellMembers (m :: ms) d mem

end

theorem not_mem_spell (t : JsonText) : '\n' ∉ spell fl t := fun mem =>
  absurd (printable_spell fl t _ mem) (by decide)

/-- Files of JSON texts, as Python writes and reads them. -/
def files (str : PyVal → String) : JsonFiles where
  py := ⟨fun f => String.ofList (spellFloat fl f), str⟩
  spell t := encodeUtf8 (String.ofList (spell fl t))
  parse b := (decodeUtf8 b).bind fun s => loads fl s.toList
  parse_spell t := by
    have read := @loads_spell fl t [] rfl
    rw [List.append_nil] at read
    rw [decodeUtf8_encodeUtf8, Option.bind_some, String.toList_ofList, read]

/-! ## Files with a text on each line -/

/-- The lines of a text, of which the first has begun with `line`. -/
def linesFrom (line : List Char) : List Char → List (List Char)
  | [] => if line = [] then [] else [line]
  | c :: cs => if c = '\n' then line :: linesFrom [] cs else linesFrom (line ++ [c]) cs

/-- `[json.loads(line) for line in file]`, if none of them raises. -/
def readLines (cs : List Char) : Option (List JsonText) :=
  (linesFrom [] (universalNewlines cs)).mapM (loads fl)

/-- The last line of the file is complete. -/
def Complete (cs : List Char) : Prop := cs = [] ∨ cs.getLast? = some '\n'

theorem linesFrom_append {cs : List Char} (complete : cs.getLast? = some '\n') (line : List Char)
    (more : List Char) : linesFrom line (cs ++ more) = linesFrom line cs ++ linesFrom [] more := by
  induction cs generalizing line with
  | nil => cases complete
  | cons c cs ih =>
    rw [List.cons_append, linesFrom, linesFrom]
    cases cs with
    | nil =>
      obtain rfl : c = '\n' := by simpa using complete
      rw [if_pos rfl, if_pos rfl]
      rfl
    | cons d ds =>
      have rest : (d :: ds).getLast? = some '\n' := by
        rwa [List.getLast?_cons_cons] at complete
      split_ifs
      · rw [ih rest, List.cons_append]
      · exact ih rest _

theorem linesFrom_line {u : List Char} (single : '\n' ∉ u) (line : List Char) :
    linesFrom line (u ++ ['\n']) = [line ++ u] := by
  induction u generalizing line with
  | nil =>
    rw [List.nil_append, linesFrom, if_pos rfl, List.append_nil]
    rfl
  | cons c u ih =>
    rw [List.mem_cons, not_or] at single
    rw [List.cons_append, linesFrom, if_neg (Ne.symm single.1), ih single.2]
    simp

theorem universalNewlines_ne_nil (c : Char) (cs : List Char) :
    universalNewlines (c :: cs) ≠ [] := by
  rw [universalNewlines.eq_def]
  split
  · exact List.cons_ne_nil _ _
  · exact List.cons_ne_nil _ _
  · rename_i same
    cases same

theorem getLast?_cons_of_getLast? {c d : Char} {cs : List Char} (h : cs.getLast? = some d) :
    (c :: cs).getLast? = some d := by
  rw [List.getLast?_cons, h]
  rfl

theorem complete_universalNewlines {cs : List Char} (complete : Complete cs) :
    Complete (universalNewlines cs) := by
  fun_induction universalNewlines cs with
  | case1 cs ih =>
    right
    cases cs with
    | nil => rfl
    | cons c cs =>
      have last : (c :: cs).getLast? = some '\n' := by simpa [Complete] using complete
      rcases ih (.inr last) with none | more
      · rw [none]
        rfl
      · exact getLast?_cons_of_getLast? more
  | case2 c cs h ih =>
    right
    cases cs with
    | nil =>
      obtain rfl : c = '\n' := by simpa [Complete] using complete
      rfl
    | cons d ds =>
      have last : (d :: ds).getLast? = some '\n' := by simpa [Complete] using complete
      rcases ih (.inr last) with none | more
      · exact absurd none (universalNewlines_ne_nil d ds)
      · exact getLast?_cons_of_getLast? more
  | case3 => exact .inl rfl

/-- A text appended as a line of its own is read as the last. -/
theorem readLines_append {cs : List Char} (complete : Complete cs) {ts : List JsonText}
    (read : readLines fl cs = some ts) (t : JsonText) :
    readLines fl (cs ++ (spell fl t ++ ['\n'])) = some (ts ++ [t]) := by
  have noReturn : '\r' ∉ spell fl t ++ ['\n'] := by
    intro mem
    rcases List.mem_append.1 mem with mem | mem
    · exact absurd (printable_spell fl t _ mem) (by decide)
    · cases List.mem_singleton.1 mem
  have same : universalNewlines (spell fl t ++ ['\n']) = spell fl t ++ ['\n'] := by
    have plain := universalNewlines_of_not_mem noReturn []
    rw [List.append_nil] at plain
    exact plain.trans (List.append_nil _)
  have stop : (spell fl t ++ ['\n']).head? ≠ some '\n' := by
    obtain ⟨c, rest, first, opening⟩ := spell_first fl t
    rw [first]
    intro same
    obtain rfl : c = '\n' := Option.some.inj same
    exact absurd opening (by decide)
  have line : linesFrom [] (spell fl t ++ ['\n']) = [spell fl t] :=
    linesFrom_line (not_mem_spell fl t) []
  have loaded : loads fl (spell fl t) = some t := by
    have whole := @loads_spell fl t [] rfl
    rwa [List.append_nil] at whole
  have split : linesFrom [] (universalNewlines cs ++ (spell fl t ++ ['\n'])) =
      linesFrom [] (universalNewlines cs) ++ [spell fl t] := by
    rcases complete_universalNewlines complete with none | last
    · rw [none, List.nil_append, line]
      rfl
    · rw [linesFrom_append last, line]
  unfold readLines at read ⊢
  rw [universalNewlines_append stop, same, split, List.mapM_append, read]
  simp [loaded]

theorem complete_append (cs : List Char) (t : JsonText) :
    Complete (cs ++ (spell fl t ++ ['\n'])) := by
  right
  rw [← List.append_assoc, List.getLast?_concat]

/-! ## A spelling of floats -/

/-- The numerator, a point, and `0` for an integer or else the denominator; integers are spelled so
by Python too. -/
def sampleRepr (q : ℚ) : List Char :=
  spellInt q.num ++ '.' :: if q.den = 1 then ['0'] else Nat.toDigits 10 q.den

def sampleRead (cs : List Char) : PyFloat :=
  let denominator := (cs.dropWhile (· ≠ '.')).tail
  let numerator := intOf (cs.takeWhile (· ≠ '.'))
  if denominator = ['0'] then .finite numerator
  else .finite (mkRat numerator (Nat.ofDigitChars 10 denominator 0))

theorem isDigit_denominator (q : ℚ) :
    ∀ c ∈ (if q.den = 1 then ['0'] else Nat.toDigits 10 q.den), c.isDigit = true := by
  intro c mem
  split_ifs at mem
  · obtain rfl := List.mem_singleton.1 mem
    rfl
  · exact Nat.isDigit_of_mem_toDigits (by decide) (by decide) mem

theorem number_sampleRepr (q : ℚ) {rest : List Char} (stops : Stops rest) :
    number (sampleRepr q ++ rest) = some (sampleRepr q, true, rest) := by
  have point : ∀ c ∈ ('.' :: ((if q.den = 1 then ['0'] else Nat.toDigits 10 q.den) ++
      rest)).head?, c.isDigit = false := by
    rintro c ⟨⟩
    rfl
  obtain ⟨taken, left⟩ := @Toml.span_append Char.isDigit _ rest (isDigit_denominator q)
    fun c first => (stops c first).1
  have some : (if q.den = 1 then ['0'] else Nat.toDigits 10 q.den) ≠ [] := by
    split_ifs
    · exact List.cons_ne_nil _ _
    · exact Nat.toDigits_ne_nil
  have frac : fraction ('.' :: ((if q.den = 1 then ['0'] else Nat.toDigits 10 q.den) ++ rest)) =
      ('.' :: if q.den = 1 then ['0'] else Nat.toDigits 10 q.den, rest) := by
    simp only [fraction, digits, taken, left, if_neg some]
  rw [number, sampleRepr, List.append_assoc, List.cons_append, whole_spellInt _ point,
    Option.map_some]
  simp only [frac, exponent_of_stops stops, List.append_nil]
  rfl

theorem sampleRead_sampleRepr (q : ℚ) : sampleRead (sampleRepr q) = .finite q := by
  have noPoint : ∀ c ∈ spellInt q.num, c ≠ '.' := by
    rintro c mem rfl
    rw [spellInt] at mem
    split_ifs at mem
    · rcases List.mem_cons.1 mem with same | mem
      · cases same
      · exact absurd (Nat.isDigit_of_mem_toDigits (by decide) (by decide) mem) (by decide)
    · exact absurd (Nat.isDigit_of_mem_toDigits (by decide) (by decide) mem) (by decide)
  obtain ⟨taken, left⟩ := @Toml.span_append (· ≠ '.') (spellInt q.num)
    ('.' :: if q.den = 1 then ['0'] else Nat.toDigits 10 q.den)
    (fun c mem => by simpa using noPoint c mem) (by rintro c ⟨⟩; rfl)
  unfold sampleRead sampleRepr
  rw [taken, left, List.tail_cons, intOf_spellInt]
  dsimp only
  by_cases whole : q.den = 1
  · rw [if_pos whole, if_pos rfl]
    congr 1
    exact Rat.den_eq_one_iff q |>.1 whole
  · have notZero : Nat.toDigits 10 q.den ≠ ['0'] := by
      intro same
      have zero := Toml.head?_toDigits (n := q.den) (by rw [same]; rfl)
      exact absurd zero q.den_nz
    rw [if_neg whole, if_neg notZero, Nat.ofDigitChars_ten_toDigits]
    congr 1
    exact Rat.mkRat_self q

def sampleFloats : FloatText where
  repr := sampleRepr
  read := sampleRead
  number_repr q _ stops := number_sampleRepr q stops
  printable q := by
    intro c mem
    rcases List.mem_append.1 mem with mem | mem
    · exact printable_spellInt _ c mem
    · rcases List.mem_cons.1 mem with rfl | mem
      · decide
      · exact printable_digit (isDigit_denominator q c mem)
  read_repr := sampleRead_sampleRepr

end JsonChars
