import Mathlib.Data.List.TakeWhile
import Cpip.Python.Text

/-!
# TOML (`tomllib`)

`tomllib.loads`, as a reader of one statement after another.  Strings, decimal integers, booleans,
keys, tables and arrays of tables are read here; how any other value is read (a literal string, a
number of another form, a date, an array, an inline table) is a parameter.
-/

namespace Toml

/-- What a text begins with, and the rest. -/
abbrev Reader (α : Type) := List Char → Option (α × List Char)

abbrev Items := List (PyKey × PyVal)

/-- What the reader is run with: how it reads a value of another form, and the number of digits that
`int` takes at most, where `0` is no limit. -/
structure Env where
  other : Reader PyVal
  maxDigits : ℕ

/-! ## Characters -/

/-- `TOML_WS`. -/
def isBlank (c : Char) : Bool := c = ' ' ∨ c = '\t'

/-- `BARE_KEY_CHARS`. -/
def isBare (c : Char) : Bool := c.isAlphanum ∨ c = '-' ∨ c = '_'

/-- `ASCII_CTRL` without the tab, which no comment and no string on one line may hold. -/
def isIllegal (c : Char) : Bool := (c.toNat < 32 ∨ c.toNat = 127) ∧ c ≠ '\t'

/-! ## Strings -/

/-- What stands before the rest is what was passed over. -/
theorem exists_of_dropWhile {p : Char → Bool} {cs rest : List Char} (h : cs.dropWhile p = rest) :
    cs = cs.takeWhile p ++ rest := by
  rw [← h, List.takeWhile_append_dropWhile]

theorem exists_of_mapM {α β : Type} {f : α → Option β} {xs : List α} {ys : List β}
    (h : xs.mapM f = some ys) {x : α} (mem : x ∈ xs) : ∃ y, f x = some y := by
  induction xs generalizing ys with
  | nil => cases mem
  | cons x' xs ih =>
    rw [List.mapM_cons] at h
    obtain ⟨y, hy, h⟩ := Option.bind_eq_some_iff.1 h
    obtain ⟨ys', hys, -⟩ := Option.bind_eq_some_iff.1 h
    rcases List.mem_cons.1 mem with rfl | mem
    · exact ⟨y, hy⟩
    · exact ih hys mem

/-- The value of a hexadecimal digit. -/
def hexDigit? (c : Char) : Option ℕ :=
  if c.isDigit then some (c.toNat - '0'.toNat)
  else if 'a' ≤ c ∧ c ≤ 'f' then some (c.toNat - 'a'.toNat + 10)
  else if 'A' ≤ c ∧ c ≤ 'F' then some (c.toNat - 'A'.toNat + 10)
  else none

theorem hexDigit?_digitChar : ∀ n < 16, hexDigit? (Nat.digitChar n) = some n := by decide

/-- `parse_hex_char`: digits that are the number of a Unicode scalar value. -/
def hexChar (size : ℕ) (cs : List Char) : Option (List Char × List Char) :=
  if (cs.take size).length = size then
    ((cs.take size).mapM hexDigit?).bind fun digits =>
      let n := digits.foldl (fun acc d => 16 * acc + d) 0
      if n.isValidChar then some ([Char.ofNat n], cs.drop size) else none
  else none

/-- The end of a line and the space after it, behind a backslash. -/
def lineEnding (cs : List Char) : Option (List Char × List Char) :=
  match cs.dropWhile isBlank with
  | [] => some ([], [])
  | '\n' :: cs => some ([], cs.dropWhile fun c => isBlank c ∨ c = '\n')
  | _ => none

/-- `parse_basic_str_escape`, behind the backslash. -/
def escape (multiline : Bool) : Reader (List Char)
  | [] => none
  | c :: cs =>
    if multiline ∧ (isBlank c ∨ c = '\n') then lineEnding (c :: cs)
    else if c = 'u' then hexChar 4 cs
    else if c = 'U' then hexChar 8 cs
    else if c = 'b' then some (['\x08'], cs)
    else if c = 't' then some (['\t'], cs)
    else if c = 'n' then some (['\n'], cs)
    else if c = 'f' then some (['\x0c'], cs)
    else if c = 'r' then some (['\r'], cs)
    else if c = '"' ∨ c = '\\' then some ([c], cs)
    else none

theorem hexChar_consumes {size : ℕ} {cs v rest : List Char} (h : hexChar size cs = some (v, rest)) :
    cs = cs.take size ++ rest ∧ v.length = 1 ∧ '=' ∉ cs.take size ∧ '\n' ∉ cs.take size := by
  unfold hexChar at h
  split_ifs at h
  obtain ⟨digits, read, h⟩ := Option.bind_eq_some_iff.1 h
  dsimp only at h
  split_ifs at h
  obtain ⟨rfl, rfl⟩ := Prod.mk.inj (Option.some.inj h)
  have absent {c : Char} (none : hexDigit? c = none) : c ∉ cs.take size := by
    intro mem
    obtain ⟨d, hd⟩ := exists_of_mapM read mem
    rw [none] at hd
    cases hd
  exact ⟨(List.take_append_drop size cs).symm, rfl, absent (by decide), absent (by decide)⟩

theorem lineEnding_consumes {cs v rest : List Char} (h : lineEnding cs = some (v, rest)) :
    ∃ taken, cs = taken ++ rest ∧ v = [] ∧ '=' ∉ taken ∧ (cs ≠ [] → taken ≠ []) := by
  have blanks : '=' ∉ cs.takeWhile isBlank :=
    fun mem => absurd (List.mem_takeWhile_imp mem) (by decide)
  unfold lineEnding at h
  split at h
  · next stop =>
    obtain ⟨rfl, rfl⟩ := Prod.mk.inj (Option.some.inj h)
    have whole := exists_of_dropWhile stop
    exact ⟨cs.takeWhile isBlank, whole, rfl, blanks, fun nonempty empty =>
      nonempty (by rw [whole, empty]; rfl)⟩
  · next cs' stop =>
    obtain ⟨rfl, rfl⟩ := Prod.mk.inj (Option.some.inj h)
    refine ⟨cs.takeWhile isBlank ++ '\n' :: cs'.takeWhile fun c => isBlank c ∨ c = '\n', ?_, rfl,
      ?_, ?_⟩
    · rw [List.append_assoc, List.cons_append, List.takeWhile_append_dropWhile]
      exact exists_of_dropWhile stop
    · rw [List.mem_append, List.mem_cons]
      rintro (mem | same | mem)
      · exact blanks mem
      · exact absurd same (by decide)
      · exact absurd (List.mem_takeWhile_imp mem) (by decide)
    · simp
  · cases h

/-- An escape stands for no more characters than it has behind the backslash, and it has no `=`. -/
theorem escape_consumes {multiline : Bool} {cs v rest : List Char}
    (h : escape multiline cs = some (v, rest)) :
    ∃ taken, cs = taken ++ rest ∧ taken ≠ [] ∧ v.length ≤ taken.length ∧ '=' ∉ taken ∧
      (multiline = false → '\n' ∉ taken) := by
  cases cs with
  | nil => cases h
  | cons c cs =>
    have single {x : Char} (hc : '=' ≠ c ∧ '\n' ≠ c) (h : some ([x], cs) = some (v, rest)) :
        ∃ taken, c :: cs = taken ++ rest ∧ taken ≠ [] ∧ v.length ≤ taken.length ∧ '=' ∉ taken ∧
          (multiline = false → '\n' ∉ taken) := by
      obtain ⟨rfl, rfl⟩ := Prod.mk.inj (Option.some.inj h)
      refine ⟨[c], rfl, List.cons_ne_nil _ _, le_rfl, ?_, fun _ => ?_⟩
      · simpa using hc.1
      · simpa using hc.2
    have digits {size : ℕ} (hc : '=' ≠ c ∧ '\n' ≠ c) (h : hexChar size cs = some (v, rest)) :
        ∃ taken, c :: cs = taken ++ rest ∧ taken ≠ [] ∧ v.length ≤ taken.length ∧ '=' ∉ taken ∧
          (multiline = false → '\n' ∉ taken) := by
      obtain ⟨whole, one, noEq, noLine⟩ := hexChar_consumes h
      refine ⟨c :: cs.take size, ?_, List.cons_ne_nil _ _, ?_, ?_, fun _ => ?_⟩
      · rw [List.cons_append, ← whole]
      · rw [one]
        exact Nat.succ_le_succ (Nat.zero_le _)
      · simpa using ⟨hc.1, noEq⟩
      · simpa using ⟨hc.2, noLine⟩
    rw [escape] at h
    split_ifs at h with space hu hU hb ht hn hf hr hq
    · obtain ⟨taken, whole, rfl, noEq, some⟩ := lineEnding_consumes h
      refine ⟨taken, whole, some (List.cons_ne_nil _ _), Nat.zero_le _, noEq, fun oneLine => ?_⟩
      rw [oneLine] at space
      cases space.1
    · exact digits (by rw [hu]; decide) h
    · exact digits (by rw [hU]; decide) h
    · exact single (by rw [hb]; decide) h
    · exact single (by rw [ht]; decide) h
    · exact single (by rw [hn]; decide) h
    · exact single (by rw [hf]; decide) h
    · exact single (by rw [hr]; decide) h
    · refine single ?_ h
      rcases hq with rfl | rfl <;> decide

/-- `parse_basic_str`, behind the opening quote or quotes. -/
def basic (multiline : Bool) (cs : List Char) : Option (List Char × List Char) :=
  match cs with
  | [] => none
  | c :: cs =>
    if c = '"' then
      if multiline then
        match cs with
        | '"' :: '"' :: rest => some ([], rest)
        | cs => (basic multiline cs).map fun r => (c :: r.1, r.2)
      else some ([], cs)
    else if c = '\\' then
      match _h : escape multiline cs with
      | none => none
      | some (v, rest) => (basic multiline rest).map fun r => (v ++ r.1, r.2)
    else if isIllegal c ∧ ¬ (multiline ∧ c = '\n') then none
    else (basic multiline cs).map fun r => (c :: r.1, r.2)
termination_by cs.length
decreasing_by
  · simp
  · obtain ⟨taken, rfl, -⟩ := escape_consumes _h
    simp only [List.length_cons, List.length_append]
    omega
  · simp

/-- A character that stands for itself in a string on one line. -/
def isPlain (c : Char) : Bool := c ≠ '"' ∧ c ≠ '\\' ∧ ¬ isIllegal c

/-- How a string that is read as `v` is spelled, up to its last quote: in no fewer characters, and
with no `=` that is not in `v`.  On one line it is spelled in as many only when it is spelled as
itself. -/
structure Spelled (multiline : Bool) (taken v : List Char) : Prop where
  quote : taken.getLast? = some '"'
  length : v.length + (if multiline then 3 else 1) ≤ taken.length
  count : taken.count '=' ≤ v.count '='
  line : multiline = false → '\n' ∉ taken
  itself : multiline = false → taken.length = v.length + 1 → taken = v ++ ['"'] ∧ ∀ c ∈ v, isPlain c

theorem Spelled.cons {multiline : Bool} {taken v : List Char} (h : Spelled multiline taken v)
    {c : Char} (plain : multiline = false → isPlain c) :
    Spelled multiline (c :: taken) (c :: v) where
  quote := by
    rw [List.getLast?_cons, h.quote]
    rfl
  length := by
    have := h.length
    simp only [List.length_cons]
    omega
  count := by
    have := h.count
    simp only [List.count_cons]
    omega
  line oneLine := by
    have := h.line oneLine
    have := plain oneLine
    rw [List.mem_cons]
    rintro (rfl | mem)
    · contradiction
    · contradiction
  itself oneLine same := by
    obtain ⟨rfl, all⟩ := h.itself oneLine (by simpa using same)
    exact ⟨rfl, List.forall_mem_cons.2 ⟨plain oneLine, all⟩⟩

theorem Spelled.escaped {multiline : Bool} {taken v : List Char} (h : Spelled multiline taken v)
    {behind x : List Char} (shorter : x.length ≤ behind.length) (noEq : '=' ∉ behind)
    (noLine : multiline = false → '\n' ∉ behind) :
    Spelled multiline ('\\' :: behind ++ taken) (x ++ v) where
  quote := by
    rw [List.getLast?_append, h.quote]
    rfl
  length := by
    have := h.length
    simp only [List.length_append, List.length_cons]
    omega
  count := by
    have := h.count
    have := List.count_eq_zero.2 noEq
    simp only [List.count_append, List.count_cons]
    simp only [this]
    simp
    omega
  line oneLine := by
    have := h.line oneLine
    have := noLine oneLine
    simp [*]
  itself oneLine same := by
    have := h.length
    rw [oneLine] at this
    simp at this same
    omega

/-- What a string takes of the text. -/
theorem basic_consumes {multiline : Bool} {cs v rest : List Char}
    (h : basic multiline cs = some (v, rest)) :
    ∃ taken, cs = taken ++ rest ∧ Spelled multiline taken v := by
  fun_induction basic multiline cs generalizing v rest with
  | case1 => cases h
  | case2 ml rest' =>
    obtain ⟨rfl, rfl⟩ := Prod.mk.inj (Option.some.inj h)
    refine ⟨['"', '"', '"'], rfl, rfl, ?_, by decide, ?_, ?_⟩
    · rw [if_pos ml]
      decide
    · rw [ml]
      simp
    · rw [ml]
      simp
  | case3 ml cs' _ ih =>
    obtain ⟨⟨v', rest'⟩, read, h⟩ := Option.map_eq_some_iff.1 h
    obtain ⟨rfl, rfl⟩ := Prod.mk.inj h
    obtain ⟨taken, rfl, spelled⟩ := ih read
    refine ⟨'"' :: taken, rfl, spelled.cons fun oneLine => ?_⟩
    rw [oneLine] at ml
    cases ml
  | case4 cs' oneLine =>
    obtain ⟨rfl, rfl⟩ := Prod.mk.inj (Option.some.inj h)
    refine ⟨['"'], rfl, rfl, ?_, by decide, ?_, ?_⟩
    · rw [if_neg oneLine]
      decide
    · intro _
      decide
    · intro _ _
      exact ⟨rfl, by simp⟩
  | case5 => cases h
  | case6 cs' x rest' escaped _ ih =>
    obtain ⟨⟨v', rest''⟩, read, h⟩ := Option.map_eq_some_iff.1 h
    obtain ⟨rfl, rfl⟩ := Prod.mk.inj h
    obtain ⟨behind, rfl, -, shorter, noEq, noLine⟩ := escape_consumes escaped
    obtain ⟨taken, rfl, spelled⟩ := ih read
    exact ⟨'\\' :: behind ++ taken, by simp, spelled.escaped shorter noEq noLine⟩
  | case7 => cases h
  | case8 c cs' noQuote noSlash legal ih =>
    obtain ⟨⟨v', rest'⟩, read, h⟩ := Option.map_eq_some_iff.1 h
    obtain ⟨rfl, rfl⟩ := Prod.mk.inj h
    obtain ⟨taken, rfl, spelled⟩ := ih read
    refine ⟨c :: taken, rfl, spelled.cons fun oneLine => ?_⟩
    rw [oneLine] at legal
    simp only [Bool.false_eq_true, false_and, not_false_eq_true, and_true] at legal
    simp [isPlain, noQuote, noSlash, legal]

theorem basic_of_plain {u : List Char} (plain : ∀ c ∈ u, isPlain c) (rest : List Char) :
    basic false (u ++ '"' :: rest) = some (u, rest) := by
  induction u with
  | nil =>
    rw [List.nil_append, basic.eq_def]
    simp
  | cons c u ih =>
    rw [List.forall_mem_cons] at plain
    have this := plain.1
    simp only [isPlain, ne_eq, Bool.decide_and, decide_not, Bool.and_eq_true, Bool.not_eq_true',
      decide_eq_false_iff_not, Bool.not_eq_true, Bool.decide_eq_false] at this
    obtain ⟨noQuote, noSlash, legal⟩ := this
    rw [List.cons_append, basic.eq_def]
    dsimp only
    rw [if_neg noQuote, if_neg noSlash, legal, if_neg (by simp), ih plain.2]
    rfl

/-- `parse_multiline_str`, behind the opening quotes: a newline that comes first is left out, and up
to two quotes that stand before the closing ones are read. -/
def multiline (cs : List Char) : Option (List Char × List Char) :=
  (basic true (if cs.head? = some '\n' then cs.tail else cs)).map fun r =>
    match r.2 with
    | '"' :: '"' :: rest => (r.1 ++ ['"', '"'], rest)
    | '"' :: rest => (r.1 ++ ['"'], rest)
    | rest => (r.1, rest)

/-- What a string over several lines takes of the text: it ends in three quotes, is longer than the
string by three characters at least, and has no `=` that is not in the string. -/
theorem multiline_consumes {cs v rest : List Char} (h : multiline cs = some (v, rest)) :
    ∃ taken, cs = taken ++ rest ∧ taken.getLast? = some '"' ∧ v.length + 3 ≤ taken.length ∧
      taken.count '=' ≤ v.count '=' := by
  obtain ⟨⟨v', rest'⟩, read, h⟩ := Option.map_eq_some_iff.1 h
  obtain ⟨taken, whole, spelled⟩ := basic_consumes read
  have quote := spelled.quote
  have length : v'.length + 3 ≤ taken.length := spelled.length
  have count := spelled.count
  -- the newline that is left out
  obtain ⟨first, start, noEq⟩ : ∃ first, cs = first ++ (taken ++ rest') ∧ '=' ∉ first := by
    split_ifs at whole with newline
    · obtain ⟨cs', rfl⟩ := List.head?_eq_some_iff.1 newline
      exact ⟨['\n'], by rw [← whole]; rfl, by decide⟩
    · exact ⟨[], whole, by simp⟩
  have noEq := List.count_eq_zero.2 noEq
  dsimp only at h
  split at h
  · next rest'' =>
    obtain ⟨rfl, rfl⟩ := Prod.mk.inj h
    refine ⟨first ++ (taken ++ ['"', '"']), ?_, ?_, ?_, ?_⟩
    · rw [start]
      simp
    · simp
    · simp only [List.length_append, List.length_cons, List.length_nil]
      omega
    · simp only [List.count_append, noEq]
      omega
  · next rest'' _ =>
    obtain ⟨rfl, rfl⟩ := Prod.mk.inj h
    refine ⟨first ++ (taken ++ ['"']), ?_, ?_, ?_, ?_⟩
    · rw [start]
      simp
    · simp
    · simp only [List.length_append, List.length_cons, List.length_nil]
      omega
    · simp only [List.count_append, noEq]
      omega
  · obtain ⟨rfl, rfl⟩ := Prod.mk.inj h
    refine ⟨first ++ taken, ?_, ?_, ?_, ?_⟩
    · rw [start, List.append_assoc]
    · rw [List.getLast?_append, quote]
      rfl
    · rw [List.length_append]
      omega
    · rw [List.count_append, noEq]
      omega

/-- `parse_literal_str`, behind the opening quote. -/
def literal (cs : List Char) : Option (List Char × List Char) :=
  match cs.dropWhile (· ≠ '\'') with
  | [] => none
  | _ :: rest =>
    if (cs.takeWhile (· ≠ '\'')).any isIllegal then none else some (cs.takeWhile (· ≠ '\''), rest)

/-! ## Values -/

/-- What `int` takes, and `str` of an integer gives. -/
def Env.allows (env : Env) (digits : ℕ) : Bool := env.maxDigits = 0 ∨ digits ≤ env.maxDigits

/-- The characters that go on a number of another form, or a date. -/
def goesOn (c : Char) : Bool := c.isAlphanum ∨ c ∈ ['_', '.', '-', ':']

/-- A decimal integer, behind the sign. -/
def natural (env : Env) (cs : List Char) : Option (ℕ × List Char) :=
  let digits := cs.takeWhile Char.isDigit
  let rest := cs.dropWhile Char.isDigit
  if digits = [] ∨ (digits.head? = some '0' ∧ digits ≠ ['0']) ∨ rest.head?.any goesOn ∨
      ¬ env.allows digits.length then none
  else some (Nat.ofDigitChars 10 digits 0, rest)

/-- A decimal integer. -/
def integer (env : Env) : Reader PyVal
  | '-' :: cs => (natural env cs).map fun r => (.int (-r.1), r.2)
  | '+' :: cs => (natural env cs).map fun r => (.int r.1, r.2)
  | cs => (natural env cs).map fun r => (.int r.1, r.2)

def text (r : List Char × List Char) : PyVal × List Char := (.str (String.ofList r.1), r.2)

/-- `parse_value`. -/
def value (env : Env) : Reader PyVal
  | '"' :: '"' :: '"' :: cs => (multiline cs).map text
  | '"' :: cs => (basic false cs).map text
  | 't' :: 'r' :: 'u' :: 'e' :: cs => some (.bool true, cs)
  | 'f' :: 'a' :: 'l' :: 's' :: 'e' :: cs => some (.bool false, cs)
  | cs => (integer env cs).or (env.other cs)

/-! ## Keys -/

abbrev Key := List String

/-- `parse_key_part`. -/
def keyPart : Reader String
  | '"' :: cs => (basic false cs).map fun r => (String.ofList r.1, r.2)
  | '\'' :: cs => (literal cs).map fun r => (String.ofList r.1, r.2)
  | cs =>
    if cs.takeWhile isBare = [] then none
    else some (String.ofList (cs.takeWhile isBare), cs.dropWhile isBare)

theorem length_dropWhile_le {α : Type} (p : α → Bool) (xs : List α) :
    (xs.dropWhile p).length ≤ xs.length := (List.dropWhile_suffix p).length_le

theorem length_lt_of_keyPart {cs rest : List Char} {part : String}
    (h : keyPart cs = some (part, rest)) : rest.length < cs.length := by
  unfold keyPart at h
  split at h
  · obtain ⟨⟨v, rest'⟩, read, h⟩ := Option.map_eq_some_iff.1 h
    obtain ⟨-, rfl⟩ := Prod.mk.inj h
    obtain ⟨taken, rfl, -⟩ := basic_consumes read
    simp only [List.length_cons, List.length_append]
    omega
  · next cs' =>
    obtain ⟨⟨v, rest'⟩, read, h⟩ := Option.map_eq_some_iff.1 h
    obtain ⟨-, rfl⟩ := Prod.mk.inj h
    have shorter := length_dropWhile_le (· ≠ '\'') cs'
    unfold literal at read
    split at read
    · cases read
    · next stop =>
      rw [stop] at shorter
      split_ifs at read
      obtain ⟨-, rfl⟩ := Prod.mk.inj (Option.some.inj read)
      simp only [List.length_cons] at shorter ⊢
      omega
  · split_ifs at h with empty
    obtain ⟨-, rfl⟩ := Prod.mk.inj (Option.some.inj h)
    have whole := congrArg List.length (@List.takeWhile_append_dropWhile _ isBare cs)
    have := List.length_pos_iff.2 empty
    rw [List.length_append] at whole
    omega

/-- `parse_key`: the parts between the dots, and what is behind the space after them. -/
def key (cs : List Char) : Option (Key × List Char) :=
  match _h : keyPart cs with
  | none => none
  | some (part, rest) =>
    match _stop : rest.dropWhile isBlank with
    | '.' :: rest' => (key (rest'.dropWhile isBlank)).map fun r => (part :: r.1, r.2)
    | rest' => some ([part], rest')
termination_by cs.length
decreasing_by
  have first := length_lt_of_keyPart _h
  have second := length_dropWhile_le isBlank rest
  have third := length_dropWhile_le isBlank rest'
  rw [_stop, List.length_cons] at second
  omega

/-! ## Tables -/

/-- `items[k] = v`. -/
def assign (k : String) (v : PyVal) : Items → Items
  | [] => [(.str k, v)]
  | (k', x) :: rest => if k' = .str k then (k', v) :: rest else (k', x) :: assign k v rest

theorem getStr_assign (j k : String) (v : PyVal) (items : Items) :
    PyVal.getStr j (assign k v items) = if k = j then some v else PyVal.getStr j items := by
  induction items with
  | nil => exact PyVal.getStr_cons ..
  | cons e rest ih =>
    obtain ⟨k', x⟩ := e
    rw [assign]
    split_ifs with here same same
    · rw [here, same, PyVal.getStr_cons, if_pos rfl]
    · rw [here, PyVal.getStr_cons, PyVal.getStr_cons, if_neg same, if_neg same]
    · rw [PyVal.getStr_cons_key, ih, if_pos same, if_neg (same ▸ here)]
    · rw [PyVal.getStr_cons_key, PyVal.getStr_cons_key, ih, if_neg same]

/-- `get_or_create_nest`, and what is done to the table that is found. -/
def atNest (f : Items → Option Items) : Key → Items → Option Items
  | [], items => f items
  | k :: ks, items =>
    match PyVal.getStr k items with
    | none => (atNest f ks []).map fun sub => assign k (.dict sub) items
    | some (.dict sub) => (atNest f ks sub).map fun sub => assign k (.dict sub) items
    | some (.list xs) =>
      match xs.getLast? with
      | some (.dict sub) =>
        (atNest f ks sub).map fun sub => assign k (.list (xs.dropLast ++ [.dict sub])) items
      | _ => none
    | some _ => none

/-- `nest[k] = v`, where the key is new. -/
def insertNew (k : String) (v : PyVal) (items : Items) : Option Items :=
  if (PyVal.getStr k items).isSome then none else some (assign k v items)

/-- One more table in the array of a key. -/
def appendNest (k : String) (items : Items) : Option Items :=
  match PyVal.getStr k items with
  | none => some (assign k (.list [.dict []]) items)
  | some (.list xs) => some (assign k (.list (xs ++ [.dict []])) items)
  | some _ => none

/-- What the reader has at the beginning of a statement: the tables, the one that the pairs go to,
and the keys with a flag (`EXPLICIT_NEST`, `FROZEN`, which holds for what is below too, and the
pending ones). -/
structure State where
  root : Items := []
  header : Key := []
  explicit : List Key := []
  frozen : List Key := []
  pending : List Key := []

namespace State

def isFrozen (s : State) (k : Key) : Bool := s.frozen.any (List.isPrefixOf · k)

/-- `finalize_pending`. -/
def finalize (s : State) : State := { s with explicit := s.explicit ++ s.pending, pending := [] }

/-- `create_dict_rule`, for a key. -/
def openTable (s : State) (k : Key) : Option State :=
  if k ∈ s.finalize.explicit ∨ s.isFrozen k then none
  else (atNest some k s.root).map fun root =>
    { s.finalize with root := root, header := k, explicit := k :: s.finalize.explicit }

/-- `create_list_rule`, for a key. -/
def openArray (s : State) (k : Key) : Option State :=
  if s.isFrozen k then none
  else (atNest (appendNest (k.getLast?.getD "")) k.dropLast s.root).map fun root =>
    { s.finalize with
      root := root
      header := k
      explicit := k :: s.finalize.explicit.filter fun k' => ¬ k.isPrefixOf k'
      frozen := s.frozen.filter fun k' => ¬ k.isPrefixOf k' }

def isContainer : PyVal → Bool
  | .dict _ => true
  | .list _ => true
  | _ => false

/-- `key_value_rule`, for a key and a value. -/
def addPair (s : State) (k : Key) (v : PyVal) : Option State :=
  let tables := (List.range (k.length - 1)).map fun i => s.header ++ k.take (i + 1)
  if tables.any (· ∈ s.explicit) ∨ s.isFrozen (s.header ++ k.dropLast) then none
  else (atNest (insertNew (k.getLast?.getD "") v) (s.header ++ k.dropLast) s.root).map fun root =>
    { s with
      root := root
      pending := s.pending ++ tables
      frozen := if isContainer v then (s.header ++ k) :: s.frozen else s.frozen }

end State

/-! ## Statements -/

/-- A comment, and the end of the line, or of the text. -/
def lineEnd (cs : List Char) : Option (List Char) :=
  match cs.dropWhile isBlank with
  | [] => some []
  | '\n' :: rest => some rest
  | '#' :: rest =>
    if (rest.takeWhile (· ≠ '\n')).any isIllegal then none
    else some (rest.dropWhile (· ≠ '\n')).tail
  | _ => none

/-- One statement, which is not empty, and the end of its line. -/
def statement (env : Env) (s : State) : List Char → Option (State × List Char)
  | '\n' :: rest => some (s, rest)
  | '#' :: rest => (lineEnd ('#' :: rest)).map fun rest => (s, rest)
  | '[' :: '[' :: cs =>
    match key (cs.dropWhile isBlank) with
    | some (k, ']' :: ']' :: rest) =>
      (s.openArray k).bind fun s => (lineEnd rest).map fun rest => (s, rest)
    | _ => none
  | '[' :: cs =>
    match key (cs.dropWhile isBlank) with
    | some (k, ']' :: rest) =>
      (s.openTable k).bind fun s => (lineEnd rest).map fun rest => (s, rest)
    | _ => none
  | cs =>
    match key cs with
    | some (k, '=' :: rest) =>
      (value env (rest.dropWhile isBlank)).bind fun r =>
        (s.addPair k r.1).bind fun s => (lineEnd r.2).map fun rest => (s, rest)
    | _ => none

/-- The statements of a text, a number of them at most. -/
def run (env : Env) : ℕ → State → List Char → Option State
  | 0, _, _ => none
  | n + 1, s, cs =>
    match cs.dropWhile isBlank with
    | [] => some s
    | c :: cs => (statement env s (c :: cs)).bind fun r => run env n r.1 r.2

/-- `s.replace("\r\n", "\n")`. -/
def unixLines : List Char → List Char
  | '\r' :: '\n' :: cs => '\n' :: unixLines cs
  | c :: cs => c :: unixLines cs
  | [] => []

/-- `tomllib.loads`, when it does not raise: every statement takes a character at least. -/
def loads (env : Env) (s : String) : Option Items :=
  (run env ((unixLines s.toList).length + 1) {} (unixLines s.toList)).map State.root

end Toml
