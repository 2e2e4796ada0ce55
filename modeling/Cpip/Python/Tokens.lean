import Cpip.Python.Literals

/-!
# The tokens of a program

How Python reads the text of a program that is given to it as `python -c`: the line ends become
newlines, and the text is cut into names, numbers, string literals with the values they stand for,
operators and the tokens of the layout.  The parser sees these tokens and nothing else, so that two
texts with the same tokens are the same program.  Numbers, names beyond ASCII and literals with a
prefix are read by an environment.
-/

namespace PyTokens

inductive Token where
  | name (text : String)
  | number (text : String)
  | text (value : List ℕ)
  | prefixed (literal : String)
  | op (text : String)
  | newline
  | indent
  | dedent
deriving DecidableEq, Repr

/-- What is read elsewhere: the name that a word beyond ASCII is, how long a number or a literal
with a prefix goes on behind its first character, and the character of a name in `\N{...}`. -/
structure Env where
  identifier : List Char → Option String
  number : List Char → Option ℕ
  prefixed : List Char → Option ℕ
  named : List Char → Option ℕ

/-! ## Steps -/

structure State where
  /-- the indentation of the blocks around, with tabs of eight columns and of one -/
  indents : List (ℕ × ℕ) := []
  /-- the brackets that are to close -/
  brackets : List Char := []
  /-- at the beginning of a line -/
  fresh : Bool := true
deriving DecidableEq, Repr

def isBlank (c : Char) : Bool := c == ' ' || c == '\t' || c == '\x0c'

/-- Where the first word of a line stands.  A line that goes on in the next one keeps the column
of the first backslash that has blanks before it. -/
def indentation (kept col alt : ℕ) : List Char → (ℕ × ℕ) × List Char
  | ' ' :: cs => indentation kept (col + 1) (alt + 1) cs
  | '\t' :: cs => indentation kept ((col / 8 + 1) * 8) (alt + 1) cs
  | '\x0c' :: cs => indentation kept 0 0 cs
  | '\\' :: '\n' :: c :: cs => indentation (if kept = 0 then col else kept) col alt (c :: cs)
  | cs => (if kept = 0 then (col, alt) else (kept, kept), cs)

def column (indents : List (ℕ × ℕ)) : ℕ × ℕ := indents.headD (0, 0)

/-- `INDENT` for a line further to the right, a `DEDENT` for every block that a line leaves. -/
def layout (indents : List (ℕ × ℕ)) (place : ℕ × ℕ) : Option (List Token × List (ℕ × ℕ)) :=
  if (column indents).1 < place.1 then
    if (column indents).2 < place.2 then some ([.indent], place :: indents) else none
  else
    let left := indents.dropWhile fun i => place.1 < i.1
    if column left = place then
      some (List.replicate (indents.length - left.length) .dedent, left)
    else none

def isNameStart (c : Char) : Bool := c.isAlpha || c == '_' || 128 ≤ c.toNat

def isNamePart (c : Char) : Bool := isNameStart c || c.isDigit

def operators : List String :=
  ["**=", "//=", ">>=", "<<=", "...", "!=", "%=", "&=", "**", "*=", "+=", "-=", "->", "//", "/=",
    ":=", "<<", "<=", "<>", "==", ">=", ">>", "@=", "^=", "|=", "(", ")", "[", "]", "\x7b", "\x7d",
    ",", ":", ".", ";", "@", "=", "%", "&", "*", "+", "-", "/", "<", ">", "^", "|", "~"]

/-- A bracket is opened, or the last one that is open is closed. -/
def bracket (c : Char) (brackets : List Char) : Option (List Char) :=
  if c = '(' then some (')' :: brackets)
  else if c = '[' then some (']' :: brackets)
  else if c = '\x7b' then some ('\x7d' :: brackets)
  else if c = ')' ∨ c = ']' ∨ c = '\x7d' then
    if brackets.head? = some c then some brackets.tail else none
  else some brackets

def stringPrefixes : List String := ["r", "u", "b", "f", "br", "rb", "fr", "rf"]

def isQuote (c : Char) : Bool := c == '"' || c == '\''

/-- The `n + 1` characters at the front are one token. -/
def cut (s : State) (token : String → Token) (cs : List Char) (n : ℕ) :
    List Token × State × List Char :=
  ([token (String.ofList (cs.take (n + 1)))], s, cs.drop (n + 1))

/-- A word: a name, or the prefix of a literal when a quote follows. -/
def readWord (env : Env) (s : State) (cs : List Char) : Option (List Token × State × List Char) :=
  let w := cs.takeWhile isNamePart
  let rest := cs.dropWhile isNamePart
  if rest.head?.any isQuote ∧ String.ofList (w.map Char.toLower) ∈ stringPrefixes then
    (env.prefixed cs).map (cut s .prefixed cs)
  else
    (if w.all (·.toNat < 128) then some (String.ofList w) else env.identifier w).map fun n =>
      ([.name n], s, rest)

/-- The longest operator. -/
def readOperator (s : State) (cs : List Char) : Option (List Token × State × List Char) := do
  let op ← operators.find? fun op => op.toList.isPrefixOf cs
  -- the brackets are operators of one character
  let brackets ← cs.head?.bind fun c => bracket c s.brackets
  return ([.op op], { s with brackets }, cs.drop op.length)

/-- Behind a backslash: the line goes on in the next one. -/
def continued : List Char → Option (List Char)
  | '\n' :: c :: cs => some (c :: cs)
  | _ => none

/-- The next token behind the indentation of a line, or a piece of text that is no token. -/
def inLine (env : Env) (s : State) (c : Char) (cs : List Char) :
    Option (List Token × State × List Char) :=
  if c = '\n' then
    if s.brackets = [] then some ([.newline], { s with fresh := true }, cs) else some ([], s, cs)
  else if isBlank c then some ([], s, cs)
  else if c = '#' then some ([], s, cs.dropWhile (· ≠ '\n'))
  else if c = '\\' then (continued cs).map fun rest => ([], s, rest)
  else if isQuote c then (literal env.named c cs).map fun r => ([.text r.1], s, r.2)
  else if isNameStart c then readWord env s (c :: cs)
  else if c.isDigit ∨ c = '.' ∧ cs.head?.any Char.isDigit then
    (env.number (c :: cs)).map (cut s .number (c :: cs))
  else readOperator s (c :: cs)

/-- One step: at the beginning of a line its indentation, and an empty line is skipped. -/
def next (env : Env) (s : State) (c : Char) (cs : List Char) :
    Option (List Token × State × List Char) :=
  if s.fresh then
    match indentation 0 0 0 (c :: cs) with
    | (_, []) => some ([], s, [])
    | (_, '\n' :: rest) => some ([], s, rest)
    | (_, '#' :: rest) => some ([], s, rest.dropWhile (· ≠ '\n'))
    | (place, rest) =>
      (layout s.indents place).map fun r => (r.1, { s with indents := r.2, fresh := false }, rest)
  else inLine env s c cs

/-- What is left to do: a step that reads no character is the one at the beginning of a line. -/
def weight (s : State) (cs : List Char) : ℕ := 2 * cs.length + s.fresh.toNat

theorem length_indentation_le (kept col alt : ℕ) (cs : List Char) :
    (indentation kept col alt cs).2.length ≤ cs.length := by
  fun_induction indentation kept col alt cs with
  | case1 _ _ _ _ ih => exact Nat.le_succ_of_le ih
  | case2 _ _ _ _ ih => exact Nat.le_succ_of_le ih
  | case3 _ _ _ _ ih => exact Nat.le_succ_of_le ih
  | case4 _ _ _ _ _ ih =>
    simp only [List.length_cons] at ih ⊢
    omega
  | case5 => exact le_rfl

theorem length_literal_le {named : List Char → Option ℕ} {q : Char} {cs rest : List Char}
    {value : List ℕ} (h : literal named q cs = some (value, rest)) :
    rest.length ≤ cs.length := by
  obtain ⟨raw, -, single | three⟩ := literal_spec named h
  · rw [contents_spec single, List.length_append]
    exact Nat.le_add_left _ _
  · rw [three, List.length_append]
    exact Nat.le_add_left _ _

theorem length_readWord_le {env : Env} {s s' : State} {c : Char} {cs rest : List Char}
    {ts : List Token} (start : isNameStart c) (h : readWord env s (c :: cs) = some (ts, s', rest)) :
    rest.length ≤ cs.length := by
  unfold readWord at h
  dsimp only at h
  split_ifs at h
  · obtain ⟨n, -, same⟩ := Option.map_eq_some_iff.1 h
    obtain ⟨-, -, rfl⟩ := same
    rw [List.drop_succ_cons]
    exact (List.drop_sublist _ _).length_le
  all_goals
    obtain ⟨n, -, same⟩ := Option.map_eq_some_iff.1 h
    obtain ⟨-, -, rfl⟩ := same
    rw [List.dropWhile_cons_of_pos (by simp [isNamePart, start])]
    exact List.length_dropWhile_le _ _

theorem length_readOperator_le {s s' : State} {c : Char} {cs rest : List Char} {ts : List Token}
    (h : readOperator s (c :: cs) = some (ts, s', rest)) : rest.length ≤ cs.length := by
  obtain ⟨op, found, h⟩ := Option.bind_eq_some_iff.1 h
  obtain ⟨brackets, -, h⟩ := Option.bind_eq_some_iff.1 h
  obtain ⟨-, -, rfl⟩ := h
  have nonempty : ∀ op ∈ operators, 1 ≤ op.length := by decide
  have := nonempty op (List.mem_of_find?_eq_some found)
  rw [List.length_drop, List.length_cons]
  omega

theorem length_inLine_le {env : Env} {s s' : State} {c : Char} {cs rest : List Char}
    {ts : List Token} (h : inLine env s c cs = some (ts, s', rest)) :
    rest.length ≤ cs.length := by
  unfold inLine at h
  split_ifs at h with line outside blank comment backslash quote start number
  · obtain ⟨-, -, rfl⟩ := h
    exact le_rfl
  · obtain ⟨-, -, rfl⟩ := h
    exact le_rfl
  · obtain ⟨-, -, rfl⟩ := h
    exact le_rfl
  · obtain ⟨-, -, rfl⟩ := h
    exact List.length_dropWhile_le _ _
  · obtain ⟨r, read, same⟩ := Option.map_eq_some_iff.1 h
    obtain ⟨-, -, rfl⟩ := same
    unfold continued at read
    split at read
    · obtain rfl := Option.some.inj read
      exact Nat.le_succ _
    · cases read
  · obtain ⟨r, read, same⟩ := Option.map_eq_some_iff.1 h
    obtain ⟨-, -, rfl⟩ := same
    exact length_literal_le read
  · exact length_readWord_le start h
  · obtain ⟨n, -, same⟩ := Option.map_eq_some_iff.1 h
    obtain ⟨-, -, rfl⟩ := same
    rw [List.drop_succ_cons]
    exact (List.drop_sublist _ _).length_le
  · exact length_readOperator_le h

theorem next_weight {env : Env} {s s' : State} {c : Char} {cs rest : List Char} {ts : List Token}
    (h : next env s c cs = some (ts, s', rest)) : weight s' rest < weight s (c :: cs) := by
  unfold next at h
  have bit (b : Bool) : b.toNat ≤ 1 := Bool.toNat_le b
  split_ifs at h with fresh
  · have left := length_indentation_le 0 0 0 (c :: cs)
    generalize indentation 0 0 0 (c :: cs) = r at h left
    simp only [weight, fresh, List.length_cons] at left ⊢
    split at h
    · obtain ⟨-, rfl, rfl⟩ := h
      simp [fresh]
    · obtain ⟨-, rfl, rfl⟩ := h
      simp only [List.length_cons] at left
      rw [fresh]
      omega
    · obtain ⟨-, rfl, rfl⟩ := h
      rename_i comment
      have := List.length_dropWhile_le (fun c => decide (c ≠ '\n')) comment
      simp only [List.length_cons] at left
      rw [fresh]
      omega
    · obtain ⟨r, -, same⟩ := Option.map_eq_some_iff.1 h
      obtain ⟨-, rfl, rfl⟩ := same
      simp only [Bool.toNat_false, Bool.toNat_true]
      dsimp only at left
      omega
  · have := length_inLine_le h
    have := bit s'.fresh
    simp only [weight, List.length_cons]
    omega

/-- The tokens from a state on.  A program ends at the beginning of a line, outside all brackets,
and leaves its blocks. -/
def scan (env : Env) (s : State) : List Char → Option (List Token)
  | [] =>
    if s.brackets = [] ∧ s.fresh then some (List.replicate s.indents.length .dedent) else none
  | c :: cs =>
    match _h : next env s c cs with
    | none => none
    | some (ts, s', rest) => (scan env s' rest).map (ts ++ ·)
termination_by cs => weight s cs
decreasing_by exact next_weight _h

/-- The tokens of a program; `python -c` ends its last line. -/
def tokenize (env : Env) (program : String) : Option (List Token) :=
  if '\x00' ∈ program.toList then none
  else scan env {} (universalNewlines (program.toList ++ ['\n']))

theorem scan_cons {env : Env} {s s' : State} {c : Char} {cs rest : List Char} {ts : List Token}
    (h : next env s c cs = some (ts, s', rest)) :
    scan env s (c :: cs) = (scan env s' rest).map (ts ++ ·) := by
  rw [scan]
  split
  · next none =>
    rw [h] at none
    cases none
  · next read =>
    obtain ⟨rfl, rfl, rfl⟩ := Prod.mk.inj (Option.some.inj (h.symm.trans read))
    rfl

end PyTokens
