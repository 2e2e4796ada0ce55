import Mathlib.Data.List.Count
import Cpip.Python.Toml
import Cpip.Python.Text

/-!
# String literals

The string literals of a program: where the quotes of a literal end it, and the value that the
escape sequences between them make.  A text that is put between double quotes is read back as it
stands if it is `IsClean` (`literal_of_isClean`), and only then (`isClean_of_literal`), whatever
follows behind the closing bracket or the comma.
-/

namespace PyTokens

-- the character of a name in `\N{...}`
variable (named : List Char → Option ℕ)

def isOctal (c : Char) : Bool := '0' ≤ c ∧ c ≤ '7'

/-- The characters that make an escape sequence with a backslash before them. -/
def startsEscape (c : Char) : Bool := isOctal c || "\n\\'\"abfnrtvxuUN".toList.contains c

/-- The value of an escape of `size` hexadecimal digits, and its length. -/
def hexEscape (size : ℕ) (cs : List Char) : Option (List ℕ × ℕ) :=
  if (cs.take size).length = size then
    ((cs.take size).mapM Toml.hexDigit?).bind fun digits =>
      let n := digits.foldl (fun acc d => 16 * acc + d) 0
      if n ≤ 0x10ffff then some ([n], size) else none
  else none

/-- Up to two digits more belong to an octal escape. -/
def octalEscape (c : Char) (cs : List Char) : List ℕ × ℕ :=
  let digits := (cs.take 2).takeWhile isOctal
  ([(c :: digits).foldl (fun acc d => 8 * acc + (d.toNat - '0'.toNat)) 0], digits.length)

/-- The names of characters are made of letters, digits, spaces and hyphens. -/
def isNamed (c : Char) : Bool := c.isAlphanum || c == ' ' || c == '-'

/-- The character with the name between braces. -/
def namedEscape : List Char → Option (List ℕ × ℕ)
  | '\x7b' :: cs =>
    let name := cs.takeWhile isNamed
    if (cs.drop name.length).head? = some '\x7d' then
      (named name).map fun n => ([n], name.length + 2)
    else none
  | _ => none

/-- What a backslash and `c` stand for, and how many characters behind `c` belong to them. -/
def escape (c : Char) (cs : List Char) : Option (List ℕ × ℕ) :=
  match c with
  | '\n' => some ([], 0)
  | '\\' | '\'' | '"' => some ([c.toNat], 0)
  | 'a' => some ([7], 0)
  | 'b' => some ([8], 0)
  | 'f' => some ([12], 0)
  | 'n' => some ([10], 0)
  | 'r' => some ([13], 0)
  | 't' => some ([9], 0)
  | 'v' => some ([11], 0)
  | 'x' => hexEscape 2 cs
  | 'u' => hexEscape 4 cs
  | 'U' => hexEscape 8 cs
  | 'N' => namedEscape named cs
  -- any other character keeps its backslash
  | c => if isOctal c then some (octalEscape c cs) else some (['\\'.toNat, c.toNat], 0)

/-- The value of a literal, from the text between its quotes. -/
def unescape : List Char → Option (List ℕ)
  | [] => some []
  | ['\\'] => none
  | '\\' :: c :: cs =>
    match escape named c cs with
    | none => none
    | some (value, used) => (unescape (cs.drop used)).map (value ++ ·)
  | c :: cs => (unescape cs).map (c.toNat :: ·)
termination_by cs => cs.length
decreasing_by all_goals simp; try omega

/-- The text before the quotes `stop`, and what comes after them.  A backslash takes the next
character along, and only a literal with three quotes goes on over the end of a line. -/
def contents (stop : List Char) : List Char → Option (List Char × List Char)
  | [] => none
  | '\\' :: c :: cs => (contents stop cs).map fun r => ('\\' :: c :: r.1, r.2)
  | c :: cs =>
    if stop.isPrefixOf (c :: cs) then some ([], (c :: cs).drop stop.length)
    else if c = '\n' ∧ stop.length = 1 then none
    else (contents stop cs).map fun r => (c :: r.1, r.2)

/-- The value of a literal and what comes after it, behind its first quote `q`. -/
def literal (q : Char) (cs : List Char) : Option (List ℕ × List Char) :=
  let inside := if [q, q].isPrefixOf cs then contents [q, q, q] (cs.drop 2) else contents [q] cs
  inside.bind fun r => (unescape named r.1).map fun value => (value, r.2)

/-! ## Where a literal ends -/

theorem contents_spec {stop cs raw rest : List Char} (h : contents stop cs = some (raw, rest)) :
    cs = raw ++ stop ++ rest := by
  fun_induction contents stop cs generalizing raw with
  | case1 => cases h
  | case2 c cs ih =>
    obtain ⟨r, read, same⟩ := Option.map_eq_some_iff.1 h
    obtain ⟨rfl, rfl⟩ := Prod.mk.inj same
    rw [ih read]
    rfl
  | case3 c cs _ here =>
    obtain ⟨rfl, rfl⟩ := Prod.mk.inj (Option.some.inj h)
    exact (List.prefix_iff_eq_append.1 (List.isPrefixOf_iff_prefix.1 here)).symm
  | case4 => cases h
  | case5 c cs _ _ _ ih =>
    obtain ⟨r, read, same⟩ := Option.map_eq_some_iff.1 h
    obtain ⟨rfl, rfl⟩ := Prod.mk.inj same
    rw [ih read]
    rfl

/-- A literal takes the text between its quotes, and its quotes. -/
theorem literal_spec {q : Char} {cs rest : List Char} {value : List ℕ}
    (h : literal named q cs = some (value, rest)) :
    ∃ raw, unescape named raw = some value ∧
      (contents [q] cs = some (raw, rest) ∨ cs = [q, q] ++ raw ++ [q, q, q] ++ rest) := by
  obtain ⟨⟨raw, behind⟩, inside, h⟩ := Option.bind_eq_some_iff.1 h
  obtain ⟨value', read, same⟩ := Option.map_eq_some_iff.1 h
  obtain ⟨rfl, rfl⟩ := Prod.mk.inj same
  refine ⟨raw, read, ?_⟩
  split_ifs at inside with three
  · right
    have opened := (List.prefix_iff_eq_append.1 (List.isPrefixOf_iff_prefix.1 three)).symm
    have closed := contents_spec inside
    rw [opened, List.length_cons, List.length_singleton, closed]
    simp
  · exact .inl inside

/-! ## What stands for itself -/

/-- No backslash of the text makes an escape sequence, and the last character is none that is taken
along by a backslash from outside. -/
def isLiteral : List Char → Bool
  | [] => true
  | ['\\'] => false
  | '\\' :: c :: cs => !startsEscape c && isLiteral cs
  | _ :: cs => isLiteral cs

theorem hexEscape_spec {size used : ℕ} {cs : List Char} {value : List ℕ}
    (h : hexEscape size cs = some (value, used)) :
    value.length ≤ 1 ∧ ∀ d ∈ cs.take used, Toml.hexDigit? d ≠ none := by
  unfold hexEscape at h
  split_ifs at h
  obtain ⟨digits, read, h⟩ := Option.bind_eq_some_iff.1 h
  dsimp only at h
  split_ifs at h
  obtain ⟨rfl, rfl⟩ := Prod.mk.inj (Option.some.inj h)
  refine ⟨le_rfl, ?_⟩
  intro d mem none
  obtain ⟨n, hn⟩ := Toml.exists_of_mapM read mem
  rw [none] at hn
  cases hn

theorem namedEscape_spec {cs : List Char} {value : List ℕ} {used : ℕ}
    (h : namedEscape named cs = some (value, used)) :
    value.length ≤ 1 ∧ ∀ d ∈ cs.take used, isNamed d ∨ d = '\x7b' ∨ d = '\x7d' := by
  unfold namedEscape at h
  split at h
  · rename_i cs
    dsimp only at h
    split_ifs at h with closed
    obtain ⟨n, -, same⟩ := Option.map_eq_some_iff.1 h
    obtain ⟨rfl, rfl⟩ := Prod.mk.inj same
    refine ⟨le_rfl, ?_⟩
    intro d mem
    rw [List.take_succ_cons, List.mem_cons, List.take_add, List.mem_append] at mem
    rcases mem with rfl | mem | mem
    · exact .inr (.inl rfl)
    · rw [← List.prefix_iff_eq_take.1 (List.takeWhile_prefix _)] at mem
      exact .inl (List.mem_takeWhile_imp mem)
    · rw [List.take_one, closed] at mem
      exact .inr (.inr (List.mem_singleton.1 mem))
  · cases h

theorem escape_of_startsEscape {c : Char} {cs : List Char} {value : List ℕ} {used : ℕ}
    (starts : startsEscape c) (h : escape named c cs = some (value, used)) :
    value.length ≤ 1 ∧ ')' ∉ cs.take used ∧ ',' ∉ cs.take used := by
  have short {v : List ℕ} (h : some (v, 0) = some (value, used)) (one : v.length ≤ 1) :
      value.length ≤ 1 ∧ ')' ∉ cs.take used ∧ ',' ∉ cs.take used := by
    obtain ⟨rfl, rfl⟩ := Prod.mk.inj (Option.some.inj h)
    simpa using one
  have hex {size : ℕ} (h : hexEscape size cs = some (value, used)) :
      value.length ≤ 1 ∧ ')' ∉ cs.take used ∧ ',' ∉ cs.take used := by
    obtain ⟨one, digits⟩ := hexEscape_spec h
    exact ⟨one, fun mem => digits _ mem (by decide), fun mem => digits _ mem (by decide)⟩
  unfold escape at h
  split at h
  case h_12 | h_13 | h_14 => exact hex h
  case h_15 =>
    obtain ⟨one, parts⟩ := namedEscape_spec named h
    exact ⟨one, fun mem => absurd (parts _ mem) (by decide),
      fun mem => absurd (parts _ mem) (by decide)⟩
  case h_16 =>
    split_ifs at h with octal
    · obtain ⟨rfl, rfl⟩ := Prod.mk.inj (Option.some.inj h)
      have digits {d : Char} (mem : d ∈ cs.take ((cs.take 2).takeWhile isOctal).length) :
          isOctal d := by
        have part : (cs.take 2).takeWhile isOctal <+: cs :=
          (List.takeWhile_prefix _).trans (List.take_prefix 2 cs)
        rw [← List.prefix_iff_eq_take.1 part] at mem
        exact List.mem_takeWhile_imp mem
      exact ⟨le_rfl, fun mem => absurd (digits mem) (by decide),
        fun mem => absurd (digits mem) (by decide)⟩
    · rw [startsEscape, Bool.eq_false_iff.2 octal, Bool.false_or] at starts
      simp_all
  all_goals exact short h (by decide)

theorem escape_of_not_startsEscape {c : Char} (starts : startsEscape c = false)
    (cs : List Char) : escape named c cs = some (['\\'.toNat, c.toNat], 0) := by
  obtain ⟨octal, simple⟩ := Bool.or_eq_false_iff.1 starts
  unfold escape
  split
  case h_16 => rw [octal, if_neg (by decide)]
  all_goals exact absurd simple (by decide)

/-- A value is no longer than the text it was written as, and as long only if the text stands for
itself. -/
theorem unescape_spec {raw : List Char} {value : List ℕ} (h : unescape named raw = some value) :
    value.length ≤ raw.length ∧
      (value.length = raw.length → value = raw.map Char.toNat ∧ isLiteral raw) := by
  fun_induction unescape named raw generalizing value with
  | case1 =>
    obtain rfl := Option.some.inj h
    exact ⟨le_rfl, fun _ => ⟨rfl, rfl⟩⟩
  | case2 => cases h
  | case3 c cs none => cases h
  | case4 c cs front used read ih =>
    obtain ⟨value', rest, rfl⟩ := Option.map_eq_some_iff.1 h
    have bound := (ih rest).1
    rw [List.length_drop] at bound
    rw [List.length_append]
    cases starts : startsEscape c with
    | true =>
      have short := (escape_of_startsEscape named starts read).1
      simp only [List.length_cons]
      exact ⟨by omega, fun same => absurd same (by omega)⟩
    | false =>
      rw [escape_of_not_startsEscape named starts] at read
      obtain ⟨rfl, rfl⟩ := Prod.mk.inj (Option.some.inj read)
      obtain ⟨le, plain⟩ := ih rest
      simp only [List.length_cons, List.length_nil, List.drop_zero] at le plain ⊢
      refine ⟨by omega, fun same => ?_⟩
      obtain ⟨rfl, plain⟩ := plain (by omega)
      exact ⟨rfl, by simp [isLiteral, starts, plain]⟩
  | case5 c cs lone pair ih =>
    obtain ⟨value', rest, rfl⟩ := Option.map_eq_some_iff.1 h
    obtain ⟨le, plain⟩ := ih rest
    simp only [List.length_cons]
    refine ⟨by omega, fun same => ?_⟩
    obtain ⟨rfl, plain⟩ := plain (by omega)
    refine ⟨rfl, ?_⟩
    rwa [isLiteral]
    all_goals assumption

/-- A closing bracket or a comma between the quotes is one of the value. -/
theorem count_unescape {d : Char} (hd : d = ')' ∨ d = ',') {raw : List Char} {value : List ℕ}
    (h : unescape named raw = some value) : raw.count d ≤ value.count d.toNat := by
  have noBackslash : '\\' ≠ d := by rcases hd with rfl | rfl <;> decide
  have noEscape : startsEscape d = false := by rcases hd with rfl | rfl <;> decide
  have head (c : Char) (cs : List Char) (ns : List ℕ) (le : cs.count d ≤ ns.count d.toNat) :
      (c :: cs).count d ≤ (c.toNat :: ns).count d.toNat := by
    by_cases same : c = d
    · subst same
      simpa using le
    · rw [List.count_cons_of_ne same]
      exact le.trans List.count_le_count_cons
  fun_induction unescape named raw generalizing value with
  | case1 => simp
  | case2 => cases h
  | case3 c cs none => cases h
  | case4 c cs front used read ih =>
    obtain ⟨value', rest, rfl⟩ := Option.map_eq_some_iff.1 h
    have le := ih rest
    cases starts : startsEscape c with
    | true =>
      have other : c ≠ d := fun same => by simp [← same, starts] at noEscape
      obtain ⟨-, closing, comma⟩ := escape_of_startsEscape named starts read
      have absent : (cs.take used).count d = 0 := by
        rw [List.count_eq_zero]
        rcases hd with rfl | rfl
        · exact closing
        · exact comma
      rw [List.count_cons_of_ne noBackslash, List.count_cons_of_ne other,
        ← List.take_append_drop used cs, List.count_append, absent, List.count_append]
      omega
    | false =>
      rw [escape_of_not_startsEscape named starts] at read
      obtain ⟨rfl, rfl⟩ := Prod.mk.inj (Option.some.inj read)
      exact head _ _ _ (head _ _ _ le)
  | case5 c cs lone pair ih =>
    obtain ⟨value', rest, rfl⟩ := Option.map_eq_some_iff.1 h
    exact head _ _ _ (ih rest)

theorem unescape_of_isLiteral {raw : List Char} (h : isLiteral raw) :
    unescape named raw = some (raw.map Char.toNat) := by
  fun_induction isLiteral raw with
  | case1 => rw [unescape, List.map_nil]
  | case2 => cases h
  | case3 c cs ih =>
    obtain ⟨starts, plain⟩ := Bool.and_eq_true_iff.1 h
    rw [unescape, escape_of_not_startsEscape named (by simpa using starts)]
    dsimp only
    rw [List.drop_zero, ih plain]
    rfl
  | case4 c cs lone pair ih =>
    rw [unescape, ih h]
    · rfl
    all_goals assumption

theorem isLiteral_cons {c : Char} (h : c ≠ '\\') (cs : List Char) :
    isLiteral (c :: cs) = isLiteral cs := by
  rw [isLiteral]
  · rintro rfl
    exact absurd rfl h
  · rintro c cs rfl
    exact absurd rfl h

/-- What a literal in simple quotes that stands for itself does not hold. -/
theorem not_mem_of_contents {cs raw rest : List Char} (h : contents ['"'] cs = some (raw, rest))
    (plain : isLiteral raw) : '"' ∉ raw ∧ '\n' ∉ raw := by
  fun_induction contents ['"'] cs generalizing raw with
  | case1 => cases h
  | case2 c cs ih =>
    obtain ⟨r, read, same⟩ := Option.map_eq_some_iff.1 h
    obtain ⟨rfl, rfl⟩ := Prod.mk.inj same
    obtain ⟨starts, plain⟩ := Bool.and_eq_true_iff.1 plain
    obtain ⟨quote, line⟩ := ih read plain
    have other {d : Char} (hd : startsEscape d) : d ≠ c := by
      rintro rfl
      simp [hd] at starts
    simp [quote, line, other (show startsEscape '"' by decide),
      other (show startsEscape '\n' by decide)]
  | case3 c cs _ here =>
    obtain ⟨rfl, rfl⟩ := Prod.mk.inj (Option.some.inj h)
    simp
  | case4 => cases h
  | case5 c cs pair stop line ih =>
    obtain ⟨r, read, same⟩ := Option.map_eq_some_iff.1 h
    obtain ⟨rfl, rfl⟩ := Prod.mk.inj same
    have quote : '"' ≠ c := fun same => stop (by simp [← same])
    have line : '\n' ≠ c := fun same => line ⟨same.symm, rfl⟩
    have backslash : c ≠ '\\' := by
      intro same
      cases cs with
      | nil => cases read
      | cons c' cs => exact pair c' cs same rfl
    rw [isLiteral_cons backslash] at plain
    obtain ⟨noQuote, noLine⟩ := ih read plain
    simp [quote, line, noQuote, noLine]

theorem contents_of_isLiteral {raw : List Char} (plain : isLiteral raw) (quote : '"' ∉ raw)
    (line : '\n' ∉ raw) (rest : List Char) :
    contents ['"'] (raw ++ '"' :: rest) = some (raw, rest) := by
  fun_induction isLiteral raw with
  | case1 => simp [contents]
  | case2 => cases plain
  | case3 c cs ih =>
    obtain ⟨-, plain⟩ := Bool.and_eq_true_iff.1 plain
    simp only [List.mem_cons, not_or] at quote line
    rw [List.cons_append, List.cons_append, contents, ih plain quote.2.2 line.2.2]
    rfl
  | case4 c cs lone pair ih =>
    simp only [List.mem_cons, not_or] at quote line
    rw [List.cons_append, contents, ih plain quote.2 line.2, if_neg, if_neg]
    · rfl
    · exact fun same => line.1 same.1.symm
    · simpa using quote.1
    · rintro c' cs' rfl -
      cases cs with
      | nil => exact lone rfl rfl
      | cons c'' cs => exact pair c'' cs rfl rfl

/-! ## A text between double quotes -/

/-- A text that a literal holds as it stands. -/
def IsClean (u : List Char) : Prop :=
  isLiteral u ∧ '"' ∉ u ∧ '\n' ∉ u ∧ '\r' ∉ u

instance IsClean.decidable (u : List Char) : Decidable (IsClean u) :=
  inferInstanceAs (Decidable (_ ∧ _ ∧ _ ∧ _))

theorem literal_of_isClean {u : List Char} (clean : IsClean u) {d : Char} (hd : d ≠ '"')
    (rest : List Char) :
    literal named '"' (u ++ '"' :: d :: rest) = some (u.map Char.toNat, d :: rest) := by
  obtain ⟨plain, quote, line, -⟩ := clean
  have single : ['"', '"'].isPrefixOf (u ++ '"' :: d :: rest) = false := by
    cases u with
    | nil => simp [List.isPrefixOf, hd.symm]
    | cons c u =>
      rw [List.mem_cons, not_or] at quote
      simp [List.isPrefixOf, quote.1]
  rw [literal, single, if_neg (by decide), contents_of_isLiteral plain quote line, Option.bind_some,
    unescape_of_isLiteral named plain]
  rfl

theorem toNat_injective : Function.Injective Char.toNat := fun _ _ same => Char.toNat_inj.1 same

/-- What a literal takes has the closing brackets and the commas of its content, and is longer by
one character at least, which is the quote behind the content if it is the only one. -/
theorem exists_taken {cs raw rest : List Char} {d : Char} (noQuote : '"' ≠ d)
    (shape : contents ['"'] cs = some (raw, rest) ∨
      cs = ['"', '"'] ++ raw ++ ['"', '"', '"'] ++ rest) :
    ∃ taken, cs = taken ++ rest ∧ taken.count d = raw.count d ∧ raw.length + 1 ≤ taken.length ∧
      (taken.length = raw.length + 1 →
        taken = raw ++ ['"'] ∧ contents ['"'] cs = some (raw, rest)) := by
  rcases shape with single | three
  · exact ⟨raw ++ ['"'], contents_spec single, by simp [noQuote], by simp, fun _ => ⟨rfl, single⟩⟩
  · refine ⟨_, three, by simp [noQuote], by simp, fun same => ?_⟩
    simp only [List.length_append, List.length_cons, List.length_nil] at same
    omega

/-- A literal whose value is the text it was to hold ends where it was to end: if it went on, it
would have swallowed the closing bracket or the comma, and have one more of them than the text. -/
theorem isClean_of_literal {u rest after : List Char} {d : Char} (hd : d = ')' ∨ d = ',')
    (h : literal named '"' (universalNewlines u ++ '"' :: d :: after) =
      some (u.map Char.toNat, rest)) : IsClean u ∧ rest = d :: after := by
  have noQuote : '"' ≠ d := by rcases hd with rfl | rfl <;> decide
  obtain ⟨raw, read, shape⟩ := literal_spec named h
  obtain ⟨taken, whole, closers, long, ends⟩ := exists_taken noQuote shape
  have text : universalNewlines u ++ ['"'] ++ d :: after = taken ++ rest := by
    rw [List.append_assoc, List.singleton_append, whole]
  obtain ⟨le, same⟩ := unescape_spec named read
  have lines := length_universalNewlines_le u
  rw [List.length_map] at le same
  have short : taken.length ≤ (universalNewlines u).length + 1 := by
    by_contra more
    have part : universalNewlines u ++ ['"'] ++ [d] <+: taken ++ rest := by
      rw [← text]
      exact ⟨after, by simp⟩
    have whole := List.prefix_of_prefix_length_le part (List.prefix_append taken rest)
      (by simp only [List.length_append, List.length_singleton]; omega)
    have more := whole.sublist.count_le d
    have fewer := count_unescape named hd read
    rw [List.count_map_of_injective u _ toNat_injective] at fewer
    have kept : (universalNewlines u).count d = u.count d :=
      count_universalNewlines (by rcases hd with rfl | rfl <;> decide)
        (by rcases hd with rfl | rfl <;> decide) u
    simp [noQuote] at more
    omega
  obtain ⟨rfl, single⟩ := ends (by omega)
  obtain ⟨front, rfl⟩ := List.append_inj text (by simp at short ⊢; omega)
  obtain rfl := List.append_cancel_right front
  obtain ⟨value, plain⟩ := same (by simp at short; omega)
  have same : u = universalNewlines u := List.map_injective_iff.2 toNat_injective value
  obtain ⟨quote, line⟩ := not_mem_of_contents single plain
  rw [IsClean, same]
  exact ⟨⟨plain, quote, line, not_mem_universalNewlines u⟩, rfl⟩

end PyTokens
