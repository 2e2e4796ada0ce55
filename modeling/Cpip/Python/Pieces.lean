import Mathlib.Data.List.Find
import Cpip.Python.Tokens

/-!
# Programs put together from pieces

A program that is put together from words, operators and the layout of its lines, with texts between
double quotes, is read as its pieces one after the other as long as the texts are clean, and not
otherwise (`tokenize_iff`).
-/

namespace PyTokens

inductive Piece where
  | word (w : String)
  | op (c : Char)
  | space
  | newline
  | empty
  | indent (n : ℕ)
  | text (u : String)
deriving DecidableEq, Repr

/-- A name without characters beyond ASCII. -/
def isName (w : String) : Bool :=
  w.toList.head?.any isNameStart && w.toList.all fun c => isNamePart c && c.toNat < 128

namespace Piece

/-- What a piece looks like, where `lines` says what becomes of a text. -/
def write (lines : List Char → List Char) : Piece → List Char
  | word w => w.toList
  | op c => [c]
  | space => [' ']
  | newline | empty => ['\n']
  | indent n => List.replicate n ' '
  | text u => '"' :: (lines u.toList ++ ['"'])

/-- The piece ends where the next character begins. -/
def fits : Piece → Option Char → Bool
  | word w, d => isName w && d.any fun d => !isNamePart d && !isQuote d
  | op c, d =>
    !(isBlank c || isQuote c || isNameStart c || c.isDigit || "\x00\r\n#\\".toList.contains c) &&
      operators.find? (·.toList.isPrefixOf [c]) == some (String.singleton c) &&
      d.any fun d => !(c == '.' && d.isDigit) && operators.all (·.toList.take 2 != [c, d])
  | indent _, d => d.any fun d => !(isBlank d || "\n#\\".toList.contains d)
  | text _, d => d.any fun d => d == ')' || d == ','
  | _, _ => true

/-- The tokens of a piece. -/
def read (s : State) : Piece → Option (List Token × State)
  | word w => if s.fresh then none else some ([.name w], s)
  | op c =>
    if s.fresh then none
    else (bracket c s.brackets).map fun brackets =>
      ([.op (String.singleton c)], { s with brackets })
  | space => if s.fresh then none else some ([], s)
  | newline =>
    if s.fresh = false ∧ s.brackets = [] then some ([.newline], { s with fresh := true }) else none
  | empty => if s.fresh then some ([], s) else none
  | indent n =>
    if s.fresh then
      (layout s.indents (n, n)).map fun r => (r.1, { s with indents := r.2, fresh := false })
    else none
  | text u => if s.fresh then none else some ([.text (u.toList.map Char.toNat)], s)

end Piece

open Piece

/-- The text of the pieces. -/
def written (lines : List Char → List Char) (pieces : List Piece) : List Char :=
  pieces.flatMap (write lines)

/-- Every piece fits to the next one, and the last one to `after`. -/
def fitAll (after : Option Char) : List Piece → Bool
  | [] => true
  | p :: pieces => p.fits ((written id pieces).head?.or after) && fitAll after pieces

/-- The tokens `ts` come before the others. -/
def emit (ts : List Token) (r : Option (List Token × State)) : Option (List Token × State) :=
  r.map fun r => (ts ++ r.1, r.2)

def readAll (s : State) : List Piece → Option (List Token × State)
  | [] => some ([], s)
  | p :: pieces => (p.read s).bind fun r => emit r.1 (readAll r.2 pieces)

/-! ## One piece -/

theorem next_of_not_fresh (env : Env) {s : State} (inside : s.fresh = false) (c : Char)
    (cs : List Char) : next env s c cs = inLine env s c cs := by
  rw [next, if_neg (by simp [inside])]

theorem scan_word (env : Env) {s : State} (inside : s.fresh = false) {w : String} {d : Char}
    (rest : List Char) (ok : (word w).fits (some d)) :
    scan env s (w.toList ++ d :: rest) = (scan env s (d :: rest)).map (.name w :: ·) := by
  simp only [fits, isName, Bool.and_eq_true, List.all_eq_true, Option.any_some,
    Bool.not_eq_true', decide_eq_true_eq] at ok
  obtain ⟨⟨start, parts⟩, notPart, notQuote⟩ := ok
  have taken : (w.toList ++ d :: rest).takeWhile isNamePart = w.toList := by
    rw [List.takeWhile_append_of_pos fun c mem => (parts c mem).1,
      List.takeWhile_cons_of_neg (by simp [notPart]), List.append_nil]
  have left : (w.toList ++ d :: rest).dropWhile isNamePart = d :: rest := by
    rw [List.dropWhile_append_of_pos fun c mem => (parts c mem).1,
      List.dropWhile_cons_of_neg (by simp [notPart])]
  have ascii : w.toList.all fun c => decide (c.toNat < 128) := by
    rw [List.all_eq_true]
    exact fun c mem => decide_eq_true (parts c mem).2
  have name : readWord env s (w.toList ++ d :: rest) = some ([.name w], s, d :: rest) := by
    simp [readWord, taken, left, notQuote, ascii]
  cases h : w.toList with
  | nil =>
    rw [h] at start
    cases start
  | cons c cs =>
    rw [h] at start name
    have start : isNameStart c := start
    have other {c' : Char} (no : isNameStart c' = false) : c ≠ c' := by
      rintro rfl
      rw [no] at start
      cases start
    have step : next env s c (cs ++ d :: rest) = some ([.name w], s, d :: rest) := by
      rw [next_of_not_fresh env inside, inLine, if_neg (other (by decide)),
        if_neg (by simp [isBlank, other (show isNameStart ' ' = false by decide),
          other (show isNameStart '\t' = false by decide),
          other (show isNameStart '\x0c' = false by decide)]),
        if_neg (other (by decide)), if_neg (other (by decide)),
        if_neg (by simp [isQuote, other (show isNameStart '"' = false by decide),
          other (show isNameStart '\'' = false by decide)]), if_pos start]
      exact name
    exact scan_cons step

/-- A longer operator does not begin with `c` and `d`. -/
theorem find?_operators {c d : Char} (rest : List Char)
    (single : operators.find? (·.toList.isPrefixOf [c]) = some (String.singleton c))
    (longer : operators.all (·.toList.take 2 != [c, d])) :
    operators.find? (·.toList.isPrefixOf (c :: d :: rest)) = some (String.singleton c) := by
  rw [← single]
  apply List.find?_congr
  intro op mem
  have other := List.all_eq_true.1 longer op mem
  match h : op.toList with
  | [] => rfl
  | [c'] => rfl
  | c' :: d' :: cs =>
    rw [h] at other
    simp [List.isPrefixOf] at other ⊢
    tauto

theorem scan_op (env : Env) {s : State} (inside : s.fresh = false) {c d : Char}
    {brackets : List Char} (rest : List Char) (ok : (op c).fits (some d))
    (moved : bracket c s.brackets = some brackets) :
    scan env s (c :: d :: rest) = (scan env { s with brackets } (d :: rest)).map
      (.op (String.singleton c) :: ·) := by
  simp only [fits, Bool.and_eq_true, Option.any_some, Bool.not_eq_true', beq_iff_eq,
    Bool.or_eq_false_iff] at ok
  obtain ⟨⟨⟨⟨⟨⟨blank, quote⟩, start⟩, digit⟩, special⟩, single⟩, number, longer⟩ := ok
  have other {c' : Char} (mem : "\x00\r\n#\\".toList.contains c') : c ≠ c' := by
    rintro rfl
    rw [special] at mem
    cases mem
  have step : next env s c (d :: rest) =
      some ([.op (String.singleton c)], { s with brackets }, d :: rest) := by
    rw [next_of_not_fresh env inside, inLine, if_neg (other (by decide)), if_neg (by simp [blank]),
      if_neg (other (by decide)), if_neg (other (by decide)), if_neg (by simp [quote]),
      if_neg (by simp [start]), if_neg (by simpa [digit] using number)]
    simp [readOperator, find?_operators rest single longer, moved]
  exact scan_cons step

theorem indentation_spaces (n kept col alt : ℕ) (cs : List Char) :
    indentation kept col alt (List.replicate n ' ' ++ cs) =
      indentation kept (col + n) (alt + n) cs := by
  induction n generalizing col alt with
  | zero => rfl
  | succ n ih =>
    rw [List.replicate_succ, List.cons_append, indentation, ih, Nat.add_right_comm,
      Nat.add_right_comm alt]
    rfl

theorem indentation_cons {d : Char} (blank : isBlank d = false) (backslash : d ≠ '\\')
    (n : ℕ) (cs : List Char) : indentation 0 n n (d :: cs) = ((n, n), d :: cs) := by
  unfold indentation
  split
  · next same =>
    rw [(List.cons.inj same).1] at blank
    cases blank
  · next same =>
    rw [(List.cons.inj same).1] at blank
    cases blank
  · next same =>
    rw [(List.cons.inj same).1] at blank
    cases blank
  · next same => exact absurd (List.cons.inj same).1 backslash
  · rfl

theorem scan_indent (env : Env) {s : State} (outside : s.fresh) {n : ℕ} {d : Char}
    {ts : List Token} {indents : List (ℕ × ℕ)} (rest : List Char)
    (ok : (indent n).fits (some d)) (moved : layout s.indents (n, n) = some (ts, indents)) :
    scan env s (List.replicate n ' ' ++ d :: rest) =
      (scan env { s with indents, fresh := false } (d :: rest)).map (ts ++ ·) := by
  simp only [fits, Option.any_some, Bool.not_eq_true', Bool.or_eq_false_iff] at ok
  obtain ⟨blank, special⟩ := ok
  have other {c' : Char} (mem : "\n#\\".toList.contains c') : d ≠ c' := by
    rintro rfl
    rw [special] at mem
    cases mem
  have place : indentation 0 0 0 (List.replicate n ' ' ++ d :: rest) = ((n, n), d :: rest) := by
    rw [indentation_spaces, Nat.zero_add, indentation_cons blank (other (by decide))]
  cases h : List.replicate n ' ' ++ d :: rest with
  | nil => simp at h
  | cons c cs =>
    rw [h] at place
    have step : next env s c cs = some (ts, { s with indents, fresh := false }, d :: rest) := by
      rw [next, if_pos outside, place]
      split
      · next same => simp at same
      · next same => exact absurd (List.cons.inj (Prod.mk.inj same).2).1 (other (by decide))
      · next same => exact absurd (List.cons.inj (Prod.mk.inj same).2).1 (other (by decide))
      · next same =>
        obtain ⟨rfl, rfl⟩ := Prod.mk.inj same
        rw [moved]
        rfl
    exact scan_cons step

theorem scan_quote (env : Env) {s : State} (inside : s.fresh = false) (cs : List Char) :
    scan env s ('"' :: cs) = (literal env.named '"' cs).bind fun r =>
      (scan env s r.2).map (.text r.1 :: ·) := by
  have step : next env s '"' cs =
      (literal env.named '"' cs).map fun r => ([.text r.1], s, r.2) := by
    rw [next_of_not_fresh env inside]
    rfl
  cases h : literal env.named '"' cs with
  | none =>
    rw [h] at step
    rw [scan]
    split
    · rfl
    · next read =>
      rw [step] at read
      cases read
  | some r =>
    rw [h] at step
    exact scan_cons step

/-- A text is read as it stands if it is clean, and only then. -/
theorem scan_text_iff (env : Env) {s : State} (inside : s.fresh = false) (u : String) {d : Char}
    {rest : List Char} {toks : List Token} (ok : (text u).fits (some d)) :
    scan env s ((text u).write universalNewlines ++ d :: rest) =
        some (.text (u.toList.map Char.toNat) :: toks) ↔
      IsClean u.toList ∧ scan env s (d :: rest) = some toks := by
  have closer : d = ')' ∨ d = ',' := by simpa [fits] using ok
  have text : (text u).write universalNewlines ++ d :: rest =
      '"' :: (universalNewlines u.toList ++ '"' :: d :: rest) := by
    simp [write]
  rw [text, scan_quote env inside]
  constructor
  · intro h
    obtain ⟨⟨value, left⟩, read, h⟩ := Option.bind_eq_some_iff.1 h
    obtain ⟨toks', after, same⟩ := Option.map_eq_some_iff.1 h
    obtain ⟨head, rfl⟩ := List.cons.inj same
    obtain rfl : value = u.toList.map Char.toNat := Token.text.inj head
    obtain ⟨clean, rfl⟩ := isClean_of_literal env.named closer read
    exact ⟨clean, after⟩
  · rintro ⟨clean, after⟩
    have lines := @universalNewlines_of_not_mem u.toList clean.2.2.2 []
    rw [List.append_nil, universalNewlines, List.append_nil] at lines
    rw [lines, literal_of_isClean env.named clean (by rcases closer with rfl | rfl <;> decide),
      Option.bind_some, after]
    rfl

/-! ## All pieces -/

theorem head?_written (lines : List Char → List Char) (pieces : List Piece) :
    (written lines pieces).head? = (written id pieces).head? := by
  induction pieces with
  | nil => rfl
  | cons p pieces ih =>
    rw [written, written, List.flatMap_cons, List.flatMap_cons, List.head?_append,
      List.head?_append]
    have same : (p.write lines).head? = (p.write id).head? := by cases p <;> rfl
    rw [same]
    exact congrArg _ ih

theorem fitAll_append (after : Option Char) (a b : List Piece) :
    fitAll after (a ++ b) =
      (fitAll ((written id b).head?.or after) a && fitAll after b) := by
  induction a with
  | nil => simp [fitAll]
  | cons p a ih =>
    rw [List.cons_append, fitAll, fitAll, ih, written, List.flatMap_append, List.head?_append,
      Option.or_assoc, Bool.and_assoc]
    rfl

@[simp]
theorem emit_some (ts ts' : List Token) (s : State) :
    emit ts (some (ts', s)) = some (ts ++ ts', s) := rfl

@[simp]
theorem emit_emit (ts ts' : List Token) (r : Option (List Token × State)) :
    emit ts (emit ts' r) = emit (ts ++ ts') r := by
  simp [emit, Function.comp_def]

theorem readAll_cons {s s' : State} {p : Piece} {ts : List Token}
    (h : p.read s = some (ts, s')) (pieces : List Piece) :
    readAll s (p :: pieces) = emit ts (readAll s' pieces) := by
  rw [readAll, h]
  rfl

/-- One piece is read, and clean if it is a text. -/
theorem scan_piece_iff (env : Env) {s s' : State} {p : Piece} {rest : List Char}
    {ts toks : List Token} (ok : p.fits rest.head?) (read : p.read s = some (ts, s')) :
    scan env s (p.write universalNewlines ++ rest) = some (ts ++ toks) ↔
      (∀ u, p = text u → IsClean u.toList) ∧ scan env s' rest = some toks := by
  have others (h : ∀ u, p ≠ text u) : (∀ u, p = text u → IsClean u.toList) ↔ True :=
    iff_true_intro fun u same => absurd same (h u)
  have append (a b : Option (List Token)) (h : a = b.map (ts ++ ·)) :
      a = some (ts ++ toks) ↔ b = some toks := by
    rw [h]
    simp
  cases p with
  | word w =>
    rw [others nofun, true_and]
    simp only [Piece.read] at read
    split_ifs at read with fresh
    obtain ⟨rfl, rfl⟩ := Prod.mk.inj (Option.some.inj read)
    cases rest with
    | nil => simp [fits] at ok
    | cons d rest => exact append _ _ (scan_word env (Bool.eq_false_iff.2 fresh) rest ok)
  | op c =>
    rw [others nofun, true_and]
    simp only [Piece.read] at read
    split_ifs at read with fresh
    obtain ⟨brackets, moved, same⟩ := Option.map_eq_some_iff.1 read
    obtain ⟨rfl, rfl⟩ := Prod.mk.inj same
    cases rest with
    | nil => simp [fits] at ok
    | cons d rest => exact append _ _ (scan_op env (Bool.eq_false_iff.2 fresh) rest ok moved)
  | space =>
    rw [others nofun, true_and]
    simp only [Piece.read] at read
    split_ifs at read with fresh
    obtain ⟨rfl, rfl⟩ := Prod.mk.inj (Option.some.inj read)
    apply append
    exact scan_cons (by rw [next_of_not_fresh env (Bool.eq_false_iff.2 fresh)]; rfl)
  | newline =>
    rw [others nofun, true_and]
    simp only [Piece.read] at read
    split_ifs at read with outside
    obtain ⟨rfl, rfl⟩ := Prod.mk.inj (Option.some.inj read)
    apply append
    exact scan_cons (by
      rw [next_of_not_fresh env outside.1, inLine, if_pos rfl, if_pos outside.2]
      rfl)
  | empty =>
    rw [others nofun, true_and]
    simp only [Piece.read] at read
    split_ifs at read with fresh
    obtain ⟨rfl, rfl⟩ := Prod.mk.inj (Option.some.inj read)
    apply append
    exact scan_cons (by rw [next, if_pos fresh]; rfl)
  | indent n =>
    rw [others nofun, true_and]
    simp only [Piece.read] at read
    split_ifs at read with fresh
    obtain ⟨⟨ts', indents⟩, moved, same⟩ := Option.map_eq_some_iff.1 read
    obtain ⟨rfl, rfl⟩ := Prod.mk.inj same
    cases rest with
    | nil => simp [fits] at ok
    | cons d rest => exact append _ _ (scan_indent env fresh rest ok moved)
  | text u =>
    simp only [Piece.read] at read
    split_ifs at read with fresh
    obtain ⟨rfl, rfl⟩ := Prod.mk.inj (Option.some.inj read)
    cases rest with
    | nil => simp [fits] at ok
    | cons d rest =>
      rw [List.singleton_append, scan_text_iff env (Bool.eq_false_iff.2 fresh) u ok]
      simp

/-- The pieces are read one after the other, as long as the texts among them are clean. -/
theorem scan_pieces_iff (env : Env) {s s' : State} {pieces : List Piece} {rest : List Char}
    {ts toks : List Token} (ok : fitAll rest.head? pieces)
    (read : readAll s pieces = some (ts, s')) :
    scan env s (written universalNewlines pieces ++ rest) = some (ts ++ toks) ↔
      (∀ u, text u ∈ pieces → IsClean u.toList) ∧ scan env s' rest = some toks := by
  induction pieces generalizing s ts with
  | nil =>
    obtain ⟨rfl, rfl⟩ := Prod.mk.inj (Option.some.inj read)
    simp [written]
  | cons p pieces ih =>
    obtain ⟨here, later⟩ := Bool.and_eq_true_iff.1 ok
    obtain ⟨⟨ts₁, s₁⟩, first, read⟩ := Option.bind_eq_some_iff.1 read
    obtain ⟨⟨ts₂, s₂⟩, others, same⟩ := Option.map_eq_some_iff.1 read
    obtain ⟨rfl, rfl⟩ := Prod.mk.inj same
    have next : (written universalNewlines pieces ++ rest).head? =
        (written id pieces).head?.or rest.head? := by
      rw [List.head?_append, head?_written]
    rw [written, List.flatMap_cons, List.append_assoc, List.append_assoc,
      scan_piece_iff env (by rwa [← written, next]) first, ← written, ih later others]
    simp only [List.mem_cons, or_imp, forall_and, and_assoc, eq_comm]

/-! ## The program -/

/-- A text that can stand between double quotes as it is. -/
def Quotable (u : String) : Prop := IsClean u.toList ∧ '\x00' ∉ u.toList

instance Quotable.decidable (u : String) : Decidable (Quotable u) :=
  inferInstanceAs (Decidable (_ ∧ _))

theorem not_mem_write {p : Piece} {d : Option Char} (ok : p.fits d) (other : ∀ u, p ≠ text u)
    (lines : List Char → List Char) : '\r' ∉ p.write lines ∧ '\x00' ∉ p.write lines := by
  cases p with
  | word w =>
    simp only [fits, isName, Bool.and_eq_true, List.all_eq_true] at ok
    have parts (c : Char) (mem : c ∈ w.toList) : isNamePart c := (ok.1.2 c mem).1
    exact ⟨fun mem => absurd (parts _ mem) (by decide), fun mem => absurd (parts _ mem) (by decide)⟩
  | op c =>
    simp only [fits, Bool.and_eq_true, Bool.not_eq_true', Bool.or_eq_false_iff] at ok
    have special := ok.1.1.2
    have absent {c' : Char} (mem : "\x00\r\n#\\".toList.contains c') :
        c' ∉ (op c).write lines := by
      intro mem'
      rw [List.mem_singleton.1 mem', special] at mem
      cases mem
    exact ⟨absent (by decide), absent (by decide)⟩
  | space | newline | empty => exact ⟨by simp [write], by simp [write]⟩
  | indent n => exact ⟨by simp [write], by simp [write]⟩
  | text u => exact absurd rfl (other u)

theorem universalNewlines_written {after : Option Char} {pieces : List Piece}
    (ok : fitAll after pieces) (rest : List Char) :
    universalNewlines (written id pieces ++ rest) =
      written universalNewlines pieces ++ universalNewlines rest := by
  induction pieces with
  | nil => rfl
  | cons p pieces ih =>
    obtain ⟨here, later⟩ := Bool.and_eq_true_iff.1 ok
    have ih : universalNewlines (pieces.flatMap (write id) ++ rest) =
        pieces.flatMap (write universalNewlines) ++ universalNewlines rest := ih later
    rw [written, written, List.flatMap_cons, List.flatMap_cons, List.append_assoc,
      List.append_assoc, ← ih]
    by_cases other : ∀ u, p ≠ text u
    · have same : p.write universalNewlines = p.write id := by
        cases p with
        | text u => exact absurd rfl (other u)
        | _ => rfl
      rw [same]
      exact universalNewlines_of_not_mem (not_mem_write here other id).1 _
    · push Not at other
      obtain ⟨u, rfl⟩ := other
      have quote (cs : List Char) : universalNewlines ('"' :: cs) = '"' :: universalNewlines cs :=
        @universalNewlines_of_not_mem ['"'] (by decide) cs
      simp only [write, id, List.cons_append, List.append_assoc, List.nil_append]
      rw [quote, universalNewlines_append (by simp), quote]

theorem mem_written_iff {after : Option Char} {pieces : List Piece} (ok : fitAll after pieces) :
    '\x00' ∈ written id pieces ↔ ∃ u, text u ∈ pieces ∧ '\x00' ∈ u.toList := by
  induction pieces with
  | nil => simp [written]
  | cons p pieces ih =>
    obtain ⟨here, later⟩ := Bool.and_eq_true_iff.1 ok
    have ih : '\x00' ∈ pieces.flatMap (write id) ↔ _ := ih later
    rw [written, List.flatMap_cons, List.mem_append, ih]
    by_cases other : ∀ u, p ≠ text u
    · have no := (not_mem_write here other id).2
      constructor
      · rintro (mem | ⟨u, mem, hu⟩)
        · exact absurd mem no
        · exact ⟨u, List.mem_cons_of_mem _ mem, hu⟩
      · rintro ⟨u, mem, hu⟩
        rcases List.mem_cons.1 mem with same | mem
        · exact absurd same.symm (other u)
        · exact .inr ⟨u, mem, hu⟩
    · push Not at other
      obtain ⟨v, rfl⟩ := other
      simp [write, or_and_right, exists_or]

/-- The tokens of a program that is written in pieces are those of the pieces if and only if its
texts can stand between double quotes as they are. -/
theorem tokenize_iff (env : Env) {pieces : List Piece} {ts : List Token} {s : State}
    (ok : fitAll (some '\n') pieces) (read : readAll {} pieces = some (ts, s))
    (closed : s.brackets = []) (fresh : s.fresh) :
    tokenize env (String.ofList (written id pieces)) =
        some (ts ++ List.replicate s.indents.length .dedent) ↔
      ∀ u, text u ∈ pieces → Quotable u := by
  -- the line end of `python -c` is an empty line
  have last : scan env s ['\n'] = some (List.replicate s.indents.length .dedent) := by
    have skip : next env s '\n' [] = some ([], s, []) := by
      rw [next, if_pos fresh]
      rfl
    rw [scan_cons skip, scan, if_pos ⟨closed, fresh⟩]
    rfl
  have whole := @scan_pieces_iff env {} s pieces ['\n'] ts
    (List.replicate s.indents.length .dedent) ok read
  rw [last, eq_self_iff_true, and_true] at whole
  unfold tokenize
  rw [String.toList_ofList]
  split_ifs with has
  · obtain ⟨u, mem, hu⟩ := (mem_written_iff ok).1 has
    exact iff_of_false (by rintro ⟨⟩) fun all => (all u mem).2 hu
  · have line : universalNewlines ['\n'] = ['\n'] := by decide
    rw [universalNewlines_written ok, line, whole]
    constructor
    · exact fun all u mem => ⟨all u mem, fun hu => has ((mem_written_iff ok).2 ⟨u, mem, hu⟩)⟩
    · exact fun all u mem => (all u mem).1

/-- What is written around a text, after `front`. -/
theorem ofList_written_text (front : List Char) (before after : List Piece) (u : String) :
    String.ofList (front ++ written id (before ++ text u :: after)) =
      String.ofList (front ++ written id before ++ ['"']) ++ u ++
        String.ofList ('"' :: written id after) := by
  apply String.toList_injective
  simp [written, write]

end PyTokens
