import Cpip.Python.Pieces

/-!
# Scripts

The statements of a short script: imports and a `with` block of assignments and calls.  A script
that is written out, with its texts between double quotes, has the tokens of its statements if and
only if the texts can stand there as they are (`Script.tokenize_iff`).
-/

namespace PyTokens

open Piece

inductive Expr where
  | var (name : String)
  | text (u : String)
  | attr (e : Expr) (name : String)
  | call (f : Expr) (args : List Expr)

inductive Simple where
  | fromImport (package module name : String)
  | imports (name : String)
  | assign (name : String) (e : Expr)
  | expr (e : Expr)

/-- Some lines, and a `with` block of some lines.  A line without a statement is empty. -/
structure Script where
  head : List (Option Simple)
  context : Expr
  target : String
  first : Simple
  body : List (Option Simple)

/-! ## Tokens -/

mutual

def Expr.tokens : Expr → List Token
  | .var n => [.name n]
  | .text u => [.text (u.toList.map Char.toNat)]
  | .attr e n => e.tokens ++ [.op ".", .name n]
  | .call f args => f.tokens ++ .op "(" :: (argTokens args ++ [.op ")"])

def argTokens : List Expr → List Token
  | [] => []
  | [e] => e.tokens
  | e :: es => e.tokens ++ .op "," :: argTokens es

end

def Simple.tokens : Simple → List Token
  | .fromImport package module name =>
    [.name "from", .name package, .op ".", .name module, .name "import", .name name]
  | .imports name => [.name "import", .name name]
  | .assign name e => .name name :: .op "=" :: e.tokens
  | .expr e => e.tokens

/-- The tokens of a line. -/
def lineTokens : Option Simple → List Token
  | none => []
  | some s => s.tokens ++ [.newline]

def Script.tokens (s : Script) : List Token :=
  s.head.flatMap lineTokens ++ .name "with" :: (s.context.tokens ++
    [.name "as", .name s.target, .op ":", .newline, .indent] ++
      (some s.first :: s.body).flatMap lineTokens ++ [.dedent])

/-! ## Pieces -/

mutual

def Expr.pieces : Expr → List Piece
  | .var n => [word n]
  | .text u => [Piece.text u]
  | .attr e n => e.pieces ++ [op '.', word n]
  | .call f args => f.pieces ++ op '(' :: (argPieces args ++ [op ')'])

def argPieces : List Expr → List Piece
  | [] => []
  | [e] => e.pieces
  | e :: es => e.pieces ++ op ',' :: space :: argPieces es

end

def Simple.pieces : Simple → List Piece
  | .fromImport package module name =>
    [word "from", space, word package, op '.', word module, space, word "import", space, word name]
  | .imports name => [word "import", space, word name]
  | .assign name e => word name :: space :: op '=' :: space :: e.pieces
  | .expr e => e.pieces

/-- A line that begins at column `n`. -/
def linePieces (n : ℕ) : Option Simple → List Piece
  | none => [empty]
  | some s => indent n :: (s.pieces ++ [newline])

def Script.pieces (s : Script) : List Piece :=
  s.head.flatMap (linePieces 0) ++ indent 0 :: word "with" :: space :: (s.context.pieces ++
    space :: word "as" :: space :: word s.target :: op ':' :: newline ::
      (some s.first :: s.body).flatMap (linePieces 4))

/-! ## Names -/

def Expr.isText : Expr → Bool
  | .text _ => true
  | _ => false

mutual

/-- The names are names, and texts are arguments only. -/
def Expr.named : Expr → Bool
  | .var n => isName n
  | .text _ => false
  | .attr e n => e.named && isName n
  | .call f args => f.named && argsNamed args

def argsNamed : List Expr → Bool
  | [] => true
  | e :: es => (e.isText || e.named) && argsNamed es

end

def Simple.named : Simple → Bool
  | .fromImport package module name => isName package && isName module && isName name
  | .imports name => isName name
  | .assign name e => isName name && e.named
  | .expr e => e.named

def Script.named (s : Script) : Bool :=
  s.context.named && isName s.target && s.first.named &&
    (s.head ++ s.body).all fun line => line.all Simple.named

/-! ## The tokens of the pieces -/

mutual

theorem readAll_pieces (e : Expr) (i : List (ℕ × ℕ)) (b : List Char) (rest : List Piece) :
    readAll ⟨i, b, false⟩ (e.pieces ++ rest) = emit e.tokens (readAll ⟨i, b, false⟩ rest) := by
  cases e with
  | var n => exact readAll_cons rfl rest
  | text u => exact readAll_cons rfl rest
  | attr e n =>
    have dot (rest : List Piece) : readAll ⟨i, b, false⟩ (op '.' :: rest) =
      emit [.op "."] (readAll ⟨i, b, false⟩ rest) := readAll_cons rfl rest
    have name : readAll ⟨i, b, false⟩ (word n :: rest) =
      emit [.name n] (readAll ⟨i, b, false⟩ rest) := readAll_cons rfl rest
    rw [Expr.pieces, Expr.tokens, List.append_assoc, readAll_pieces e, List.cons_append,
      List.singleton_append, dot, name, emit_emit, emit_emit, List.append_assoc]
    rfl
  | call f args =>
    have opened (rest : List Piece) : readAll ⟨i, b, false⟩ (op '(' :: rest) =
      emit [.op "("] (readAll ⟨i, ')' :: b, false⟩ rest) := readAll_cons rfl rest
    have closed : readAll ⟨i, ')' :: b, false⟩ (op ')' :: rest) =
      emit [.op ")"] (readAll ⟨i, b, false⟩ rest) := readAll_cons rfl rest
    rw [Expr.pieces, Expr.tokens, List.append_assoc, readAll_pieces f, List.cons_append, opened,
      List.append_assoc, readAll_argPieces args, List.singleton_append, closed, emit_emit,
      emit_emit, emit_emit]
    simp

theorem readAll_argPieces (es : List Expr) (i : List (ℕ × ℕ)) (b : List Char)
    (rest : List Piece) :
    readAll ⟨i, b, false⟩ (argPieces es ++ rest) =
      emit (argTokens es) (readAll ⟨i, b, false⟩ rest) := by
  match es with
  | [] =>
    rw [argPieces, argTokens, List.nil_append, emit]
    simp
  | [e] => exact readAll_pieces e i b rest
  | e :: e' :: es =>
    have comma (rest : List Piece) : readAll ⟨i, b, false⟩ (op ',' :: space :: rest) =
        emit [.op ","] (readAll ⟨i, b, false⟩ rest) := by
      have op : readAll ⟨i, b, false⟩ (op ',' :: space :: rest) =
        emit [.op ","] (readAll ⟨i, b, false⟩ (space :: rest)) := readAll_cons rfl _
      have blank : readAll ⟨i, b, false⟩ (space :: rest) =
        emit [] (readAll ⟨i, b, false⟩ rest) := readAll_cons rfl _
      rw [op, blank, emit_emit]
      rfl
    rw [argPieces, argTokens, List.append_assoc, readAll_pieces e, List.cons_append,
      List.cons_append, comma, readAll_argPieces (e' :: es), emit_emit, emit_emit]
    · simp
    all_goals simp

end

theorem readAll_simple (s : Simple) (i : List (ℕ × ℕ)) (rest : List Piece) :
    readAll ⟨i, [], false⟩ (s.pieces ++ rest) = emit s.tokens (readAll ⟨i, [], false⟩ rest) := by
  have name (w : String) (rest : List Piece) : readAll ⟨i, [], false⟩ (word w :: rest) =
    emit [.name w] (readAll ⟨i, [], false⟩ rest) := readAll_cons rfl rest
  have blank (rest : List Piece) : readAll ⟨i, [], false⟩ (space :: rest) =
    emit [] (readAll ⟨i, [], false⟩ rest) := readAll_cons rfl rest
  have dot (rest : List Piece) : readAll ⟨i, [], false⟩ (op '.' :: rest) =
    emit [.op "."] (readAll ⟨i, [], false⟩ rest) := readAll_cons rfl rest
  have equals (rest : List Piece) : readAll ⟨i, [], false⟩ (op '=' :: rest) =
    emit [.op "="] (readAll ⟨i, [], false⟩ rest) := readAll_cons rfl rest
  cases s with
  | fromImport package module n =>
    simp [Simple.pieces, Simple.tokens, name, blank, dot]
  | imports n => simp [Simple.pieces, Simple.tokens, name, blank]
  | assign n e => simp [Simple.pieces, Simple.tokens, name, blank, equals, readAll_pieces]
  | expr e => exact readAll_pieces e i [] rest

/-- A line of a block that begins at column `n`. -/
theorem readAll_line {i i' : List (ℕ × ℕ)} {n : ℕ} {ts : List Token}
    (moved : layout i (n, n) = some (ts, i')) (s : Simple) (rest : List Piece) :
    readAll ⟨i, [], true⟩ (linePieces n (some s) ++ rest) =
      emit (ts ++ lineTokens (some s)) (readAll ⟨i', [], true⟩ rest) := by
  have place (rest : List Piece) : readAll ⟨i, [], true⟩ (indent n :: rest) =
      emit ts (readAll ⟨i', [], false⟩ rest) :=
    readAll_cons (by rw [Piece.read, if_pos rfl, moved]; rfl) rest
  have stop (rest : List Piece) : readAll ⟨i', [], false⟩ (newline :: rest) =
    emit [.newline] (readAll ⟨i', [], true⟩ rest) := readAll_cons rfl rest
  rw [linePieces, lineTokens, List.cons_append, List.append_assoc, place, readAll_simple,
    List.singleton_append, stop, emit_emit, emit_emit, List.append_assoc]

theorem readAll_lines {i : List (ℕ × ℕ)} {n : ℕ} (same : layout i (n, n) = some ([], i))
    (lines : List (Option Simple)) (rest : List Piece) :
    readAll ⟨i, [], true⟩ (lines.flatMap (linePieces n) ++ rest) =
      emit (lines.flatMap lineTokens) (readAll ⟨i, [], true⟩ rest) := by
  induction lines with
  | nil =>
    rw [List.flatMap_nil, List.flatMap_nil, List.nil_append, emit]
    simp
  | cons line lines ih =>
    rw [List.flatMap_cons, List.flatMap_cons, List.append_assoc]
    cases line with
    | none =>
      have skip (rest : List Piece) : readAll ⟨i, [], true⟩ (empty :: rest) =
        emit [] (readAll ⟨i, [], true⟩ rest) := readAll_cons rfl rest
      rw [linePieces, List.singleton_append, skip, ih, emit_emit]
      rfl
    | some s => rw [readAll_line same, ih, emit_emit, List.nil_append]

/-- The tokens of a script but for the end of its block, which comes with the end of the text. -/
theorem Script.readAll_pieces (s : Script) :
    ∃ ts, readAll {} s.pieces = some (ts, ⟨[(4, 4)], [], true⟩) ∧ s.tokens = ts ++ [.dedent] := by
  have place (rest : List Piece) : readAll ⟨[], [], true⟩ (indent 0 :: rest) =
    emit [] (readAll ⟨[], [], false⟩ rest) := readAll_cons rfl rest
  have name (w : String) (rest : List Piece) : readAll ⟨[], [], false⟩ (word w :: rest) =
    emit [.name w] (readAll ⟨[], [], false⟩ rest) := readAll_cons rfl rest
  have blank (rest : List Piece) : readAll ⟨[], [], false⟩ (space :: rest) =
    emit [] (readAll ⟨[], [], false⟩ rest) := readAll_cons rfl rest
  have colon (rest : List Piece) : readAll ⟨[], [], false⟩ (op ':' :: rest) =
    emit [.op ":"] (readAll ⟨[], [], false⟩ rest) := readAll_cons rfl rest
  have stop (rest : List Piece) : readAll ⟨[], [], false⟩ (newline :: rest) =
    emit [.newline] (readAll ⟨[], [], true⟩ rest) := readAll_cons rfl rest
  have body := readAll_lines (show layout [(4, 4)] (4, 4) = some ([], [(4, 4)]) by rfl) s.body []
  rw [List.append_nil] at body
  refine ⟨s.head.flatMap lineTokens ++ .name "with" :: (s.context.tokens ++
    [.name "as", .name s.target, .op ":", .newline, .indent] ++
      (some s.first :: s.body).flatMap lineTokens), ?_, by simp [Script.tokens]⟩
  rw [Script.pieces, readAll_lines rfl, place, name, blank, PyTokens.readAll_pieces, blank, name,
    blank, name, colon, stop, List.flatMap_cons, readAll_line rfl, body, readAll]
  simp

/-! ## The pieces fit -/

/-- What may follow a name or a bracket that is closed. -/
def follows (d : Char) : Bool := "),.(\n ".toList.contains d

theorem fits_word {w : String} (name : isName w) {d : Char} (hd : follows d) :
    (word w).fits (some d) := by
  have stops : "),.(\n ".toList.all fun d => !isNamePart d && !isQuote d := by decide
  have stop := List.all_eq_true.1 stops d (List.contains_iff_mem.1 hd)
  simpa [fits, name] using stop

theorem fits_paren (d : Char) : (op '(').fits (some d) ∧ (op ')').fits (some d) := by
  constructor <;> simp [fits, operators] <;> decide

/-- A name begins with a letter. -/
theorem fits_before {c : Char} (start : isNameStart c) :
    (op '.').fits (some c) ∧ ∀ n, (indent n).fits (some c) := by
  have other {c' : Char} (no : isNameStart c' = false) : c ≠ c' := by
    rintro rfl
    rw [no] at start
    cases start
  have noDigit : c.isDigit = false := by
    rw [Bool.eq_false_iff]
    intro digit
    have value : c.toNat = c.val.toNat := rfl
    have underscore : c ≠ '_' := by
      rintro rfl
      cases digit
    have letter : c.isAlpha = (decide (c.val ≥ 'A'.val ∧ c.val ≤ 'Z'.val) ||
        (decide (c.val ≥ 'a'.val) && decide (c.val ≤ 'z'.val))) := rfl
    simp only [isNameStart, letter, Char.isDigit, Bool.or_eq_true, Bool.and_eq_true, beq_iff_eq,
      decide_eq_true_eq, UInt32.le_iff_toNat_le, ge_iff_le, underscore, or_false] at start digit
    have upper : 'A'.val.toNat = 65 := rfl
    have lower : 'a'.val.toNat = 97 := rfl
    have nine : '9'.val.toNat = 57 := rfl
    omega
  have blank : isBlank c = false := by
    simp [isBlank, other (show isNameStart ' ' = false by decide),
      other (show isNameStart '\t' = false by decide),
      other (show isNameStart '\x0c' = false by decide)]
  have special : "\n#\\".toList.contains c = false := by
    simp [other (show isNameStart '\n' = false by decide),
      other (show isNameStart '#' = false by decide),
      other (show isNameStart '\\' = false by decide)]
  have dot : c ≠ '.' := other (by decide)
  constructor
  · simp [fits, operators, noDigit, dot.symm]
    decide
  · intro n
    rw [fits, Option.any_some, blank, special]
    rfl

theorem head?_word {w : String} (name : isName w) (after : List Piece) :
    ∃ c, (written id (word w :: after)).head? = some c ∧ isNameStart c := by
  obtain ⟨start, -⟩ := Bool.and_eq_true_iff.1 name
  rw [written, List.flatMap_cons, List.head?_append, write]
  cases h : w.toList with
  | nil =>
    rw [h] at start
    cases start
  | cons c cs =>
    rw [h] at start
    exact ⟨c, rfl, start⟩

theorem written_append (lines : List Char → List Char) (a b : List Piece) :
    written lines (a ++ b) = written lines a ++ written lines b := List.flatMap_append

theorem head?_pieces {e : Expr} (named : e.named) (after : List Piece) :
    ∃ c, (written id (e.pieces ++ after)).head? = some c ∧ isNameStart c := by
  match e with
  | .var n => exact head?_word named after
  | .text _ => cases named
  | .attr e n =>
    rw [Expr.pieces, List.append_assoc]
    exact head?_pieces (Bool.and_eq_true_iff.1 named).1 _
  | .call f args =>
    rw [Expr.pieces, List.append_assoc]
    exact head?_pieces (Bool.and_eq_true_iff.1 named).1 _

theorem fitAll_name {w : String} (name : isName w) {d : Char} (hd : follows d) :
    fitAll (some d) [word w] := by
  rw [fitAll, fitAll, Bool.and_true]
  exact fits_word name hd

mutual

theorem fitAll_pieces {e : Expr} (named : e.named) {d : Char} (hd : follows d) :
    fitAll (some d) e.pieces := by
  match e with
  | .var n => exact fitAll_name named hd
  | .text _ => cases named
  | .attr e n =>
    obtain ⟨named, name⟩ := Bool.and_eq_true_iff.1 named
    obtain ⟨c, head, start⟩ := head?_word name []
    have dot : fitAll (some d) [op '.', word n] := by
      rw [fitAll, head, Option.some_or, (fits_before start).1]
      exact fitAll_name name hd
    rw [Expr.pieces, fitAll_append, dot, Bool.and_true]
    exact fitAll_pieces named (d := '.') (by decide)
  | .call f args =>
    obtain ⟨named, argsNamed⟩ := Bool.and_eq_true_iff.1 named
    have last : fitAll (some d) [op ')'] := by
      rw [fitAll, fitAll, Bool.and_true]
      exact (fits_paren d).2
    obtain ⟨c, first⟩ : ∃ c, (written id (argPieces args ++ [op ')'])).head? = some c := by
      rw [written_append, List.head?_append]
      cases (written id (argPieces args)).head? with
      | none => exact ⟨')', rfl⟩
      | some c => exact ⟨c, rfl⟩
    rw [Expr.pieces, fitAll_append, fitAll, first, Option.some_or, (fits_paren c).1,
      fitAll_append, last, Bool.and_true, Bool.true_and, Bool.and_eq_true]
    exact ⟨fitAll_pieces named (d := '(') (by decide), fitAll_argPieces argsNamed⟩

theorem fitAll_argPieces {es : List Expr} (named : argsNamed es) :
    fitAll (some ')') (argPieces es) := by
  have arg {e : Expr} (fit : e.named → ∀ d, follows d → fitAll (some d) e.pieces)
      (ok : (e.isText || e.named) = true) {d : Char} (hd : d = ')' ∨ d = ',') :
      fitAll (some d) e.pieces := by
    cases text : e.isText with
    | true =>
      unfold Expr.isText at text
      split at text
      · rw [Expr.pieces]
        rcases hd with rfl | rfl <;> rfl
      · cases text
    | false =>
      rw [text, Bool.false_or] at ok
      exact fit ok d (by rcases hd with rfl | rfl <;> decide)
  match es with
  | [] => rfl
  | [e] =>
    obtain ⟨ok, -⟩ := Bool.and_eq_true_iff.1 named
    exact arg (fun h _ hd => fitAll_pieces h hd) ok (.inl rfl)
  | e :: e' :: es =>
    obtain ⟨ok, others⟩ := Bool.and_eq_true_iff.1 named
    have here := arg (fun h _ hd => fitAll_pieces h hd) ok (.inr rfl)
    have comma : (op ',').fits (some ' ') := by decide
    rw [argPieces, fitAll_append, fitAll, fitAll, Bool.and_eq_true, Bool.and_eq_true,
      Bool.and_eq_true]
    · exact ⟨here, comma, rfl, fitAll_argPieces others⟩
    · simp

end

theorem head?_simple {s : Simple} (named : s.named) (after : List Piece) :
    ∃ c, (written id (s.pieces ++ after)).head? = some c ∧ isNameStart c := by
  cases s with
  | fromImport package module n => exact head?_word (by decide) _
  | imports n => exact head?_word (by decide) _
  | assign n e => exact head?_word (Bool.and_eq_true_iff.1 named).1 _
  | expr e => exact head?_pieces named after

theorem fitAll_word_space {w : String} (name : isName w) (after : Option Char)
    (pieces : List Piece) : fitAll after (word w :: space :: pieces) = fitAll after pieces := by
  have fit : (word w).fits (some ' ') := fits_word name (by decide)
  have blank (d : Option Char) : space.fits d = true := rfl
  have head : (written id (space :: pieces)).head?.or after = some ' ' := rfl
  rw [fitAll, head, fit, fitAll, blank, Bool.true_and, Bool.true_and]

theorem fitAll_simple {s : Simple} (named : s.named) : fitAll (some '\n') s.pieces := by
  cases s with
  | fromImport package module n =>
    simp only [Simple.named, Bool.and_eq_true] at named
    obtain ⟨⟨hp, hm⟩, hn⟩ := named
    obtain ⟨c, head, start⟩ :=
      head?_word hm [space, word "import", space, word n]
    have dot : (word package).fits (some '.') := fits_word hp (by decide)
    rw [Simple.pieces, fitAll_word_space (by decide), fitAll, fitAll, head, Option.some_or,
      (fits_before start).1, fitAll_word_space hm, fitAll_word_space (by decide),
      fitAll_name hn (by decide)]
    exact Bool.and_eq_true_iff.2 ⟨dot, rfl⟩
  | imports n =>
    rw [Simple.pieces, fitAll_word_space (by decide)]
    exact fitAll_name named (by decide)
  | assign n e =>
    obtain ⟨hn, named⟩ := Bool.and_eq_true_iff.1 named
    have equals : (op '=').fits (some ' ') := by decide
    rw [Simple.pieces, fitAll_word_space hn, fitAll, fitAll, fitAll_pieces named (by decide)]
    exact Bool.and_eq_true_iff.2 ⟨equals, rfl⟩
  | expr e => exact fitAll_pieces named (by decide)

theorem fitAll_line {line : Option Simple} (named : line.all Simple.named) (n : ℕ)
    (after : Option Char) : fitAll after (linePieces n line) := by
  cases line with
  | none => rfl
  | some s =>
    obtain ⟨c, head, start⟩ := head?_simple named [newline]
    have stop : fitAll after [newline] := rfl
    rw [linePieces, fitAll, head, Option.some_or, (fits_before start).2, fitAll_append, stop,
      Bool.and_true]
    exact fitAll_simple named

theorem fitAll_lines {lines : List (Option Simple)}
    (named : ∀ line ∈ lines, line.all Simple.named) (n : ℕ) (after : Option Char) :
    fitAll after (lines.flatMap (linePieces n)) := by
  induction lines generalizing after with
  | nil => rfl
  | cons line lines ih =>
    rw [List.forall_mem_cons] at named
    rw [List.flatMap_cons, fitAll_append, fitAll_line named.1, ih named.2]
    rfl

theorem Script.fitAll_pieces {s : Script} (named : s.named) : fitAll (some '\n') s.pieces := by
  simp only [Script.named, Bool.and_eq_true, List.all_eq_true, List.mem_append] at named
  obtain ⟨⟨⟨context, target⟩, first⟩, lines⟩ := named
  have block : ∀ line ∈ some s.first :: s.body, line.all Simple.named :=
    List.forall_mem_cons.2 ⟨first, fun line mem => lines line (.inr mem)⟩
  have name : (word s.target).fits (some ':') := by
    simpa [fits] using ⟨target, by decide⟩
  have colon : (op ':').fits (some '\n') := by decide
  have line (rest : List Piece) :
      fitAll (some '\n') (op ':' :: newline :: rest) = fitAll (some '\n') rest := by
    have stop (d : Option Char) : newline.fits d = true := rfl
    have head : (written id (newline :: rest)).head?.or (some '\n') = some '\n' := rfl
    rw [fitAll, head, colon, fitAll, stop, Bool.true_and, Bool.true_and]
  have place (w : String) (name : isName w) (rest : List Piece) :
      fitAll (some '\n') (indent 0 :: word w :: rest) = fitAll (some '\n') (word w :: rest) := by
    obtain ⟨c, head, start⟩ := head?_word name rest
    rw [fitAll, head, Option.some_or, (fits_before start).2, Bool.true_and]
  rw [Script.pieces, fitAll_append, fitAll_lines (fun line mem => lines line (.inl mem)),
    place _ (by decide), fitAll_word_space (by decide), fitAll_append, Bool.true_and,
    Bool.and_eq_true]
  constructor
  · exact PyTokens.fitAll_pieces context (d := ' ') (by decide)
  · have blank (d : Option Char) : space.fits d = true := rfl
    have head (rest : List Piece) :
      (written id (op ':' :: rest)).head?.or (some '\n') = some ':' := rfl
    rw [fitAll, blank, fitAll_word_space (by decide), fitAll, head, name, line, fitAll_lines block]
    rfl

/-- A script that is written out has the tokens of its statements if and only if its texts can stand
between double quotes as they are. -/
theorem Script.tokenize_iff (env : Env) {s : Script} (named : s.named) :
    tokenize env (String.ofList (written id s.pieces)) = some s.tokens ↔
      ∀ u, Piece.text u ∈ s.pieces → Quotable u := by
  obtain ⟨ts, read, tokens⟩ := s.readAll_pieces
  rw [tokens]
  exact PyTokens.tokenize_iff env (Script.fitAll_pieces named) read rfl rfl

end PyTokens
