import Cpip.Executor.Pool
import Cpip.Python.Evaluate

/-!
# The programs that the executor writes

`ExecutionPool._build_code`, `GPURuntime._build_torch_code` and `_build_tf_code` put the name of the
method and the `repr` of the arguments into the text of a program.  Whatever strings the arguments
contain, the program is read as the fixed text around one call of the method, and what stands for
the arguments in that call are the arguments (`execute_calls`).
-/

namespace PyTokens

variable {env : Env} {s s' s'' : State} {cs rest rest' : List Char} {ts ts' : List Token}

/-- The next `n` steps, and what is left to read behind them. -/
def steps (env : Env) : ℕ → State → List Char → Option (List Token × State × List Char)
  | 0, s, cs => some ([], s, cs)
  | _ + 1, _, [] => none
  | n + 1, s, c :: cs =>
    (next env s c cs).bind fun r =>
      (steps env n r.2.1 r.2.2).map fun r' => (r.1 ++ r'.1, r'.2)

/-- From `s` on, the text is read as the tokens, and in `s'` what is left of it. -/
def Advances (env : Env) (s : State) (cs : List Char) (ts : List Token) (s' : State)
    (rest : List Char) : Prop :=
  scan env s cs = (scan env s' rest).map (ts ++ ·)

theorem Advances.refl : Advances env s cs [] s cs := Option.map_id'.symm

theorem Advances.trans (h : Advances env s cs ts s' rest)
    (h' : Advances env s' rest ts' s'' rest') : Advances env s cs (ts ++ ts') s'' rest' := by
  have h : scan env s cs = (scan env s' rest).map (ts ++ ·) := h
  have h' : scan env s' rest = (scan env s'' rest').map (ts' ++ ·) := h'
  show scan env s cs = _
  rw [h, h', Option.map_map]
  congr 1
  funext ts''
  exact (List.append_assoc ..).symm

theorem advances_steps {n : ℕ} (h : steps env n s cs = some (ts, s', rest)) :
    Advances env s cs ts s' rest := by
  induction n generalizing s cs ts with
  | zero =>
    obtain ⟨rfl, rfl, rfl⟩ := Prod.mk.inj (Option.some.inj h)
    exact Advances.refl
  | succ n ih =>
    cases cs with
    | nil => cases h
    | cons c cs =>
      obtain ⟨⟨ts₁, s₁, rest₁⟩, first, h⟩ := Option.bind_eq_some_iff.1 h
      obtain ⟨⟨ts₂, s₂, rest₂⟩, later, same⟩ := Option.map_eq_some_iff.1 h
      obtain ⟨rfl, rfl, rfl⟩ := Prod.mk.inj same
      exact Advances.trans (scan_cons first) (ih later)

/-! ## Dotted names -/

def dotted (name : List String) : List Token := (name.map Token.name).intersperse (.op ".")

theorem fits_dot {c : Char} (start : isNameStart c) : (Piece.op '.').fits (some c) := by
  have dot : c ≠ '.' := by
    rintro rfl
    cases start
  have digit : c.isDigit = false := by
    rw [Bool.eq_false_iff]
    intro digit
    rw [(PyRepr.digit_other digit).1] at start
    cases start
  simp only [Piece.fits, digit, Option.any_some, Bool.and_eq_true]
  simpa [operators, dot.symm] using
    (by decide : (isBlank '.' = false ∧ isQuote '.' = false) ∧ isNameStart '.' = false)

theorem advances_word (inside : s.fresh = false) {w : String} (name : isName w) {d : Char}
    (other : isNamePart d = false ∧ isQuote d = false) (rest : List Char) :
    Advances env s (w.toList ++ d :: rest) [.name w] s (d :: rest) :=
  scan_word env inside rest (by simp [Piece.fits, name, other.1, other.2])

theorem advances_dotted (inside : s.fresh = false) {name : List String} (nonempty : name ≠ [])
    (names : ∀ part ∈ name, isName part) {d : Char}
    (other : isNamePart d = false ∧ isQuote d = false) (rest : List Char) :
    Advances env s ((joinDots name).toList ++ d :: rest) (dotted name) s (d :: rest) := by
  match name with
  | [] => exact absurd rfl nonempty
  | [x] => exact advances_word inside (names x (by simp)) other rest
  | x :: y :: name =>
    rw [List.forall_mem_cons] at names
    have later := advances_dotted inside (by simp) names.2 other rest
    obtain ⟨c, cs, first, start⟩ : ∃ c cs, (joinDots (y :: name)).toList = c :: cs ∧
        isNameStart c := by
      have start := names.2 y (by simp)
      simp only [isName, Bool.and_eq_true] at start
      cases h : y.toList with
      | nil =>
        rw [h] at start
        cases start.1
      | cons c cs =>
        rw [h] at start
        cases name with
        | nil => exact ⟨c, cs, h, start.1⟩
        | cons z name =>
          refine ⟨c, cs ++ ('.' :: (joinDots (z :: name)).toList), ?_, start.1⟩
          rw [joinDots, String.intercalate_cons_cons, String.toList_append, String.toList_append, h]
          simp [joinDots]
    have text : (joinDots (x :: y :: name)).toList ++ d :: rest =
        x.toList ++ '.' :: ((joinDots (y :: name)).toList ++ d :: rest) := by
      rw [joinDots, String.intercalate_cons_cons, String.toList_append, String.toList_append,
        joinDots]
      simp
    have dot : Advances env s ('.' :: ((joinDots (y :: name)).toList ++ d :: rest)) [.op "."] s
        ((joinDots (y :: name)).toList ++ d :: rest) := by
      rw [first]
      exact scan_op env inside _ (fits_dot start) rfl
    have parts : dotted (x :: y :: name) = [.name x] ++ ([.op "."] ++ dotted (y :: name)) := rfl
    rw [text, parts]
    exact (advances_word inside names.1 (by decide) _).trans (dot.trans later)

end PyTokens

namespace Cpip

open PyTokens PyRepr

/-- A dictionary of keyword arguments, as a value. -/
def kwargsVal (kwargs : Dict String PyVal) : PyVal :=
  .dict (kwargs.entries.map fun e => (.str e.1, e.2))

/-- `repr` of the list and of the dictionary of the arguments. -/
def reprs (env : PyRepr.Env) : ArgsRepr where
  args xs := String.ofList (value env (.list xs))
  kwargs d := String.ofList (value env (kwargsVal d))

/-- The tokens of `name(*args, **kwargs)`. -/
def callTokens (env : PyRepr.Env) (name : List String) (args : List PyVal)
    (kwargs : Dict String PyVal) : List Token :=
  dotted name ++ ([.op "(", .op "*"] ++ (valueTokens env (.list args) ++
    ([.op ",", .op "**"] ++ (valueTokens env (kwargsVal kwargs) ++ [.op ")"]))))

section Programs

variable {env : PyRepr.Env} {tok : PyTokens.Env} {args : List PyVal} {kwargs : Dict String PyVal}
  {s : State} {name : List String}

/-- The text of the call. -/
def callText (env : PyRepr.Env) (name : List String) (args : List PyVal)
    (kwargs : Dict String PyVal) (rest : List Char) : List Char :=
  (joinDots name).toList ++ ("(*".toList ++ (value env (.list args) ++
    (", **".toList ++ (value env (kwargsVal kwargs) ++ ')' :: rest))))

theorem isLiteral_args (literals : ∀ x ∈ args, IsLiteral env x) : IsLiteral env (.list args) :=
  (PyVal.everywhere_list_iff args).2 ⟨trivial, literals⟩

theorem isLiteral_kwargsVal (literals : ∀ e ∈ kwargs.entries, IsLiteral env e.2) :
    IsLiteral env (kwargsVal kwargs) := by
  have keys : (kwargs.entries.map fun e => (PyKey.str e.1, e.2)).map Prod.fst =
      kwargs.keys.map PyKey.str := by
    rw [Dict.keys, List.map_map, List.map_map]
    rfl
  refine (PyVal.everywhere_dict_iff _).2 ⟨⟨?_, ?_⟩, ?_⟩
  · rw [keys]
    exact kwargs.nodup.map fun a b same => by simpa using same
  · rw [keys]
    intro k mem
    obtain ⟨s, -, rfl⟩ := List.mem_map.1 mem
    exact ⟨s, rfl⟩
  · intro e mem
    obtain ⟨e', mem', rfl⟩ := List.mem_map.1 mem
    exact literals e' mem'

theorem advances_value (numerals : Numerals env tok) {v : PyVal} (literal : IsLiteral env v)
    (inside : s.fresh = false) {d : Char} (closing : closes d = true) (rest : List Char) :
    Advances tok s (value env v ++ d :: rest) (valueTokens env v) s (d :: rest) :=
  reads_value numerals literal s inside d closing rest

/-- The call is read as a call, with the arguments as they are. -/
theorem advances_call (numerals : Numerals env tok) (nonempty : name ≠ [])
    (names : ∀ part ∈ name, isName part) (positional : ∀ x ∈ args, IsLiteral env x)
    (keyword : ∀ e ∈ kwargs.entries, IsLiteral env e.2) {indents : List (ℕ × ℕ)}
    {brackets : List Char} (rest : List Char) :
    Advances tok ⟨indents, brackets, false⟩ (callText env name args kwargs rest)
      (callTokens env name args kwargs) ⟨indents, brackets, false⟩ rest := by
  refine (advances_dotted rfl nonempty names (by decide) _).trans ?_
  have opened : Advances tok ⟨indents, brackets, false⟩
      ("(*".toList ++ (value env (.list args) ++
        (", **".toList ++ (value env (kwargsVal kwargs) ++ ')' :: rest))))
      [.op "(", .op "*"] ⟨indents, ')' :: brackets, false⟩ _ :=
    @advances_steps _ _ _ _ _ _ 2 rfl
  refine opened.trans ?_
  refine (advances_value numerals (isLiteral_args positional) rfl (by decide) _).trans ?_
  have separated : Advances tok ⟨indents, ')' :: brackets, false⟩
      (", **".toList ++ (value env (kwargsVal kwargs) ++ ')' :: rest))
      [.op ",", .op "**"] ⟨indents, ')' :: brackets, false⟩ _ :=
    @advances_steps _ _ _ _ _ _ 3 rfl
  refine separated.trans ?_
  refine (advances_value numerals (isLiteral_kwargsVal keyword) rfl (by decide) _).trans ?_
  exact @advances_steps _ _ _ _ _ _ 1 rfl

/-! The text of a program has its own line ends only. -/

theorem plain_word {w : String} (name : isName w) : Plain w.toList := by
  simp only [isName, Bool.and_eq_true, List.all_eq_true] at name
  intro c mem
  have part := (name.2 c mem).1
  constructor
  · rintro rfl
    cases part
  · rintro rfl
    cases part

theorem plain_joinDots {name : List String} (names : ∀ part ∈ name, isName part) :
    Plain (joinDots name).toList := by
  match name with
  | [] => exact fun c mem => by cases mem
  | [x] => exact plain_word (names x (by simp))
  | x :: y :: name =>
    rw [List.forall_mem_cons] at names
    rw [joinDots, String.intercalate_cons_cons, String.toList_append, String.toList_append]
    have dot : Plain ".".toList := plain_of_all (by decide)
    exact ((plain_word names.1).append dot).append (plain_joinDots names.2)

theorem plain_callText (numerals : Numerals env tok) (names : ∀ part ∈ name, isName part)
    (positional : ∀ x ∈ args, IsLiteral env x)
    (keyword : ∀ e ∈ kwargs.entries, IsLiteral env e.2) {rest : List Char} (plain : Plain rest) :
    Plain (callText env name args kwargs rest) := by
  have opened : Plain "(*".toList := plain_of_all (by decide)
  have separated : Plain ", **".toList := plain_of_all (by decide)
  have closed : Plain (')' :: rest) := List.forall_mem_cons.2 ⟨by decide, plain⟩
  exact (plain_joinDots names).append (opened.append
    ((plain_value numerals (isLiteral_args positional)).append (separated.append
      ((plain_value numerals (isLiteral_kwargsVal keyword)).append closed))))

theorem tokenize_of_plain {program : String} {ts : List Token} (plain : Plain program.toList)
    (read : scan tok {} (program.toList ++ ['\n']) = some ts) : tokenize tok program = some ts := by
  have lines : universalNewlines (program.toList ++ ['\n']) = program.toList ++ ['\n'] := by
    have absent : '\r' ∉ program.toList := fun mem => (plain _ mem).1 rfl
    rw [universalNewlines_of_not_mem absent]
    rfl
  rw [tokenize, if_neg fun mem => (plain _ mem).2 rfl, lines, read]

/-- A program around a call. -/
theorem tokenize_call (numerals : Numerals env tok) (nonempty : name ≠ [])
    (names : ∀ part ∈ name, isName part) (positional : ∀ x ∈ args, IsLiteral env x)
    (keyword : ∀ e ∈ kwargs.entries, IsLiteral env e.2) {front back : List Char}
    {before after : List Token} {program : String}
    (text : program.toList = front ++ callText env name args kwargs back)
    (plain : Plain front ∧ Plain back)
    (begins : ∀ cs, Advances tok {} (front ++ cs) before { fresh := false } cs)
    (ends : Advances tok { fresh := false } (back ++ ['\n']) after {} []) :
    tokenize tok program = some (before ++ (callTokens env name args kwargs ++ after)) := by
  refine tokenize_of_plain ?_ ?_
  · rw [text]
    exact plain.1.append (plain_callText numerals names positional keyword plain.2)
  · have behind : callText env name args kwargs back ++ ['\n'] =
        callText env name args kwargs (back ++ ['\n']) := by
      simp [callText]
    rw [text, List.append_assoc, behind]
    have call : Advances tok { fresh := false } (callText env name args kwargs (back ++ ['\n']))
        (callTokens env name args kwargs) { fresh := false } (back ++ ['\n']) :=
      advances_call numerals nonempty names positional keyword _
    have whole : scan tok {} _ = (scan tok {} []).map _ := (begins _).trans (call.trans ends)
    have last : scan tok {} [] = some [] := by
      rw [scan]
      rfl
    rw [whole, last]
    simp

/-! ## The three programs -/

theorem advances_quoted {q : Char} (quote : isQuote q) (inside : s.fresh = false) (u : String)
    {d : Char} (other : isQuote d = false) (rest : List Char) :
    Advances tok s (quoted env q u ++ d :: rest) [.text (codes u)] s (d :: rest) :=
  scan_quoted tok inside quote u other rest

/-- The tokens before the call in the program of `ExecutionPool`, and those behind it. -/
def poolFront (name : List String) : List Token :=
  .name "import" :: (dotted name.dropLast ++
    ([.op ";", .name "import", .name "json", .op ";", .name "r", .op "="] : List Token))

def poolBack : List Token :=
  [.op ";", .name "print", .op "(", .name "json", .op ".", .name "dumps", .op "(", .op "\x7b",
    .text (codes "result"), .op ":", .name "str", .op "(", .name "r", .op ")", .op "\x7d", .op ")",
    .op ")", .newline]

theorem tokenize_buildCode (numerals : Numerals env tok) (two : 2 ≤ name.length)
    (names : ∀ part ∈ name, isName part) (positional : ∀ x ∈ args, IsLiteral env x)
    (keyword : ∀ e ∈ kwargs.entries, IsLiteral env e.2) :
    tokenize tok (ExecutionPool.buildCode (reprs env) (joinDots name) args kwargs) =
      some (poolFront name ++ (callTokens env name args kwargs ++ poolBack)) := by
  have noDot : ∀ part ∈ name, '.' ∉ part.toList := by
    intro part mem dot
    have part := names part mem
    simp only [isName, Bool.and_eq_true, List.all_eq_true] at part
    exact absurd (part.2 '.' dot).1 (by decide)
  have nonempty : name ≠ [] := by
    rintro rfl
    cases two
  have package : name.dropLast ≠ [] := by
    intro empty
    have := congrArg List.length empty
    rw [List.length_dropLast, List.length_nil] at this
    omega
  have within : ∀ part ∈ name.dropLast, isName part :=
    fun part mem => names part (List.mem_of_mem_dropLast mem)
  have text : (ExecutionPool.buildCode (reprs env) (joinDots name) args kwargs).toList =
      ("import ".toList ++ ((joinDots name.dropLast).toList ++ "; import json; r = ".toList)) ++
        callText env name args kwargs ("; print(json.dumps(\x7b".toList ++
          (quoted env '\'' "result" ++ ':' :: " str(r)\x7d))".toList)) := by
    rw [ExecutionPool.buildCode, rsplitDot_joinDots noDot two]
    dsimp only
    simp only [String.toList_append, List.append_assoc, callText, reprs, String.toList_ofList]
    rfl
  refine tokenize_call numerals nonempty names positional keyword text ?_ ?_ ?_
  · have first : Plain "import ".toList := plain_of_all (by decide)
    have second : Plain "; import json; r = ".toList := plain_of_all (by decide)
    have third : Plain "; print(json.dumps(\x7b".toList := plain_of_all (by decide)
    have last : Plain (':' :: " str(r)\x7d))".toList) := plain_of_all (by decide)
    have key : Plain (quoted env '\'' "result") := plain_quoted rfl _
    exact ⟨first.append ((plain_joinDots within).append second), third.append (key.append last)⟩
  · intro cs
    have header : Advances tok {} ("import ".toList ++ ((joinDots name.dropLast).toList ++
        ("; import json; r = ".toList ++ cs))) [.name "import"] { fresh := false } _ :=
      @advances_steps _ _ _ _ _ _ 3 rfl
    have assigned : Advances tok { fresh := false } ("; import json; r = ".toList ++ cs)
        [.op ";", .name "import", .name "json", .op ";", .name "r", .op "="]
        { fresh := false } cs := @advances_steps _ _ _ _ _ _ 11 rfl
    rw [List.append_assoc, List.append_assoc]
    exact header.trans ((advances_dotted rfl package within (by decide) _).trans assigned)
  · rw [List.append_assoc, List.append_assoc, List.cons_append]
    have printed : Advances tok { fresh := false } ("; print(json.dumps(\x7b".toList ++
        (quoted env '\'' "result" ++ ':' :: (" str(r)\x7d))".toList ++ ['\n'])))
        [.op ";", .name "print", .op "(", .name "json", .op ".", .name "dumps", .op "(",
          .op "\x7b"] ⟨[], "\x7d))".toList, false⟩ _ := @advances_steps _ _ _ _ _ _ 9 rfl
    have closed : Advances tok ⟨[], "\x7d))".toList, false⟩
        (':' :: (" str(r)\x7d))".toList ++ ['\n']))
        [.op ":", .name "str", .op "(", .name "r", .op ")", .op "\x7d", .op ")", .op ")", .newline]
        {} [] := @advances_steps _ _ _ _ _ _ 10 rfl
    exact printed.trans ((advances_quoted rfl rfl "result" (by decide) _).trans closed)

/-- The tokens behind the call in a program of the GPU runtime: `u` is the attribute that a result
is asked for, and `converted` what follows it. -/
def gpuBack (u : String) (converted : List Token) : List Token :=
  .newline :: .name "if" :: .name "hasattr" :: .op "(" :: .name "result" :: .op "," ::
    .text (codes u) :: (converted ++ ([.text (codes "result"), .op ":", .name "result",
      .op "\x7d", .op ")", .op ")", .newline] : List Token))

theorem tokenize_gpu (numerals : Numerals env tok) (nonempty : name ≠ [])
    (names : ∀ part ∈ name, isName part) (positional : ∀ x ∈ args, IsLiteral env x)
    (keyword : ∀ e ∈ kwargs.entries, IsLiteral env e.2) {u program : String}
    {front middle : List Char} {before converted : List Token}
    (text : program.toList = front ++ callText env name args kwargs
      ("\nif hasattr(result, ".toList ++ (quoted env '\'' u ++ ')' :: (middle ++
        (quoted env '"' "result" ++ ':' :: " result\x7d))\n".toList)))))
    (plain : Plain front ∧ Plain middle)
    (begins : ∀ cs, Advances tok {} (front ++ cs) before { fresh := false } cs)
    (converts : ∀ cs, Advances tok ⟨[], [')'], false⟩ (')' :: (middle ++ cs)) converted
      ⟨[], "\x7d))".toList, false⟩ cs) :
    tokenize tok program =
      some (before ++ (callTokens env name args kwargs ++ gpuBack u converted)) := by
  refine tokenize_call numerals nonempty names positional keyword text ⟨plain.1, ?_⟩ begins ?_
  · have first : Plain "\nif hasattr(result, ".toList := plain_of_all (by decide)
    have last : Plain (':' :: " result\x7d))\n".toList) := plain_of_all (by decide)
    have asked : Plain (quoted env '\'' u) := plain_quoted rfl u
    have key : Plain (quoted env '"' "result") := plain_quoted rfl _
    exact first.append (asked.append
      (List.forall_mem_cons.2 ⟨by decide, plain.2.append (key.append last)⟩))
  · simp only [List.append_assoc, List.cons_append]
    have asked : Advances tok { fresh := false } ("\nif hasattr(result, ".toList ++
        (quoted env '\'' u ++ ')' :: (middle ++
          (quoted env '"' "result" ++ ':' :: (" result\x7d))\n".toList ++ ['\n'])))))
        [.newline, .name "if", .name "hasattr", .op "(", .name "result", .op ","]
        ⟨[], [')'], false⟩ _ := @advances_steps _ _ _ _ _ _ 9 rfl
    have closed : Advances tok ⟨[], "\x7d))".toList, false⟩
        (':' :: (" result\x7d))\n".toList ++ ['\n']))
        [.op ":", .name "result", .op "\x7d", .op ")", .op ")", .newline] {} [] :=
      @advances_steps _ _ _ _ _ _ 8 rfl
    exact asked.trans ((advances_quoted rfl rfl u (by decide) _).trans
      ((converts _).trans ((advances_quoted rfl rfl "result" (by decide) _).trans closed)))

def torchFront : List Token :=
  [.name "import", .name "torch", .op ",", .name "json", .op ",", .name "sys", .newline,
    .name "result", .op "="]

def torchConverted : List Token :=
  [.op ")", .op ":", .name "result", .op "=", .name "result", .op ".", .name "tolist", .op "(",
    .op ")", .newline, .name "print", .op "(", .name "json", .op ".", .name "dumps", .op "(",
    .op "\x7b"]

theorem tokenize_buildTorchCode (numerals : Numerals env tok) (nonempty : name ≠ [])
    (names : ∀ part ∈ name, isName part) (positional : ∀ x ∈ args, IsLiteral env x)
    (keyword : ∀ e ∈ kwargs.entries, IsLiteral env e.2) :
    tokenize tok (GpuRuntime.buildTorchCode (reprs env) (joinDots name) args kwargs) =
      some (torchFront ++
        (callTokens env name args kwargs ++ gpuBack "tolist" torchConverted)) := by
  have text : (GpuRuntime.buildTorchCode (reprs env) (joinDots name) args kwargs).toList =
      "\nimport torch, json, sys\nresult = ".toList ++ callText env name args kwargs
        ("\nif hasattr(result, ".toList ++ (quoted env '\'' "tolist" ++ ')' ::
          (": result = result.tolist()\nprint(json.dumps(\x7b".toList ++
            (quoted env '"' "result" ++ ':' :: " result\x7d))\n".toList)))) := by
    unfold GpuRuntime.buildTorchCode
    simp only [String.toList_append, List.append_assoc, callText, reprs, String.toList_ofList]
    rfl
  refine tokenize_gpu numerals nonempty names positional keyword text ?_ ?_ ?_
  · exact ⟨plain_of_all (by decide), plain_of_all (by decide)⟩
  · exact fun cs => @advances_steps _ _ _ _ _ _ 17 rfl
  · exact fun cs => @advances_steps _ _ _ _ _ _ 21 rfl

def tfFront : List Token :=
  [.name "import", .name "tensorflow", .name "as", .name "tf", .op ",", .name "json", .newline,
    .name "result", .op "="]

def tfConverted : List Token :=
  [.op ")", .op ":", .name "result", .op "=", .name "result", .op ".", .name "numpy", .op "(",
    .op ")", .op ".", .name "tolist", .op "(", .op ")", .newline, .name "print", .op "(",
    .name "json", .op ".", .name "dumps", .op "(", .op "\x7b"]

theorem tokenize_buildTfCode (numerals : Numerals env tok) (nonempty : name ≠ [])
    (names : ∀ part ∈ name, isName part) (positional : ∀ x ∈ args, IsLiteral env x)
    (keyword : ∀ e ∈ kwargs.entries, IsLiteral env e.2) :
    tokenize tok (GpuRuntime.buildTfCode (reprs env) (joinDots name) args kwargs) =
      some (tfFront ++ (callTokens env name args kwargs ++ gpuBack "numpy" tfConverted)) := by
  have text : (GpuRuntime.buildTfCode (reprs env) (joinDots name) args kwargs).toList =
      "\nimport tensorflow as tf, json\nresult = ".toList ++ callText env name args kwargs
        ("\nif hasattr(result, ".toList ++ (quoted env '\'' "numpy" ++ ')' ::
          (": result = result.numpy().tolist()\nprint(json.dumps(\x7b".toList ++
            (quoted env '"' "result" ++ ':' :: " result\x7d))\n".toList)))) := by
    unfold GpuRuntime.buildTfCode
    simp only [String.toList_append, List.append_assoc, callText, reprs, String.toList_ofList]
    rfl
  refine tokenize_gpu numerals nonempty names positional keyword text ?_ ?_ ?_
  · exact ⟨plain_of_all (by decide), plain_of_all (by decide)⟩
  · exact fun cs => @advances_steps _ _ _ _ _ _ 18 rfl
  · exact fun cs => @advances_steps _ _ _ _ _ _ 25 rfl

end Programs

/-! ## What is executed -/

/-- The call of an execution, in a program whose other tokens depend on the method only, and what
stands for the arguments there are the arguments. -/
theorem execute_calls (lower : String → String) (mode : String) {env : PyRepr.Env}
    {tok : PyTokens.Env} {numeral : String → Option PyAtom} (numerals : Numerals env tok)
    (values : Values env numeral) {name : List String} (two : 2 ≤ name.length)
    (names : ∀ part ∈ name, isName part)
    (script : ¬ (mode = "browser" ∨ pyIn "playwright" (joinDots name))) :
    ∃ front back, ∀ args (kwargs : Dict String PyVal), (∀ x ∈ args, IsLiteral env x) →
      (∀ e ∈ kwargs.entries, IsLiteral env e.2) →
      (∃ program, (ExecutionPool.execute lower (reprs env) (joinDots name) args kwargs mode).code =
          .atom (.str program) ∧
        tokenize tok program = some (front ++ (callTokens env name args kwargs ++ back))) ∧
      Stands numeral (.list args) (valueTokens env (.list args)) ∧
      Stands numeral (kwargsVal kwargs) (valueTokens env (kwargsVal kwargs)) := by
  have nonempty : name ≠ [] := by
    rintro rfl
    cases two
  have stands (args : List PyVal) (kwargs : Dict String PyVal)
      (positional : ∀ x ∈ args, IsLiteral env x)
      (keyword : ∀ e ∈ kwargs.entries, IsLiteral env e.2) :
      Stands numeral (.list args) (valueTokens env (.list args)) ∧
        Stands numeral (kwargsVal kwargs) (valueTokens env (kwargsVal kwargs)) :=
    ⟨stands_value values (isLiteral_args positional),
      stands_value values (isLiteral_kwargsVal keyword)⟩
  -- the branches of `execute`, for every argument the same
  have elsewhere (args : List PyVal) (kwargs : Dict String PyVal) :
      (ExecutionPool.executeElsewhere (reprs env) (joinDots name) args kwargs mode).code =
        .atom (.str (ExecutionPool.buildCode (reprs env) (joinDots name) args kwargs)) := by
    rw [ExecutionPool.executeElsewhere, if_neg script]
  unfold ExecutionPool.execute
  split_ifs with gpu torch tensorflow
  · exact ⟨_, _, fun args kwargs positional keyword => ⟨⟨_, rfl,
      tokenize_buildTorchCode numerals nonempty names positional keyword⟩,
      stands args kwargs positional keyword⟩⟩
  · exact ⟨_, _, fun args kwargs positional keyword => ⟨⟨_, rfl,
      tokenize_buildTfCode numerals nonempty names positional keyword⟩,
      stands args kwargs positional keyword⟩⟩
  · exact ⟨_, _, fun args kwargs positional keyword => ⟨⟨_, elsewhere args kwargs,
      tokenize_buildCode numerals two names positional keyword⟩,
      stands args kwargs positional keyword⟩⟩
  · exact ⟨_, _, fun args kwargs positional keyword => ⟨⟨_, elsewhere args kwargs,
      tokenize_buildCode numerals two names positional keyword⟩,
      stands args kwargs positional keyword⟩⟩

/-! An interpreter whose only float is `2.5`. -/

def oneFloat : PyRepr.Env where
  isPrintable _ := false
  allows digits := digits ≤ 4300
  isFloat q := q = 5 / 2
  float _ := "2.5".toList
  other _ := []

def isNumeral (c : Char) : Bool := c.isDigit || c == '.'

def plainNumbers : PyTokens.Env where
  identifier _ := none
  number cs := if cs = [] then none else some ((cs.takeWhile isNumeral).length - 1)
  prefixed _ := none
  named _ := none

def plainNumeral (w : String) : Option PyAtom :=
  if w.toList.all Char.isDigit then some (.int (Nat.ofDigitChars 10 w.toList 0))
  else if w = "2.5" then some (.float (.finite (5 / 2)))
  else none

theorem plainNumbers_number {digits : List Char} (numeral : ∀ c ∈ digits, isNumeral c) {d : Char}
    (closing : closes d = true) (rest : List Char) :
    plainNumbers.number (digits ++ d :: rest) = some (digits.length - 1) := by
  have stop : isNumeral d = false := by
    have all : ",:)]\x7d".toList.all fun d => !isNumeral d := by decide
    simpa using List.all_eq_true.1 all d (List.contains_iff_mem.1 closing)
  have taken : (digits ++ d :: rest).takeWhile isNumeral = digits := by
    rw [List.takeWhile_append_of_pos numeral, List.takeWhile_cons_of_neg (by simp [stop]),
      List.append_nil]
  show (if digits ++ d :: rest = [] then none else _) = _
  rw [if_neg (by simp), taken]

theorem numerals_oneFloat : Numerals oneFloat plainNumbers where
  int n d rest _ closing := by
    refine plainNumbers_number (fun c mem => ?_) closing rest
    have digit : c.isDigit = true := Nat.isDigit_of_mem_toDigits (by decide) (by decide) mem
    simp [isNumeral, digit]
  float _ d rest _ closing :=
    plainNumbers_number (show ∀ c ∈ "2.5".toList, isNumeral c by simp; decide) closing rest
  digit _ _ := ⟨'2', ".5".toList, rfl, rfl⟩
  plain _ _ := by
    show Plain "2.5".toList
    simp [Plain]

theorem values_oneFloat : Values oneFloat plainNumeral where
  int n _ := by
    have digits : (Nat.toDigits 10 n).all Char.isDigit := by
      rw [List.all_eq_true]
      exact fun c mem => Nat.isDigit_of_mem_toDigits (by decide) (by decide) mem
    rw [plainNumeral, String.toList_ofList, if_pos digits, Nat.ofDigitChars_ten_toDigits]
  float q only := by
    obtain rfl : q = 5 / 2 := of_decide_eq_true only
    rfl

theorem execute_calls_quotes : ∃ front back program,
    (ExecutionPool.execute id (reprs oneFloat) (joinDots ["textwrap", "dedent"])
      [.atom (.str "'); import os; os.abort() #"), .atom (.float (.finite (-5 / 2)))] ∅
      "cloud").code = .atom (.str program) ∧
    tokenize plainNumbers program = some (front ++ (callTokens oneFloat ["textwrap", "dedent"]
      [.atom (.str "'); import os; os.abort() #"), .atom (.float (.finite (-5 / 2)))] ∅ ++
        back)) := by
  obtain ⟨front, back, calls⟩ := @execute_calls id "cloud" oneFloat plainNumbers plainNumeral
    numerals_oneFloat values_oneFloat ["textwrap", "dedent"] (by decide) (by decide) (by decide)
  have literals : ∀ x ∈ [PyVal.atom (.str "'); import os; os.abort() #"),
      .atom (.float (.finite (-5 / 2)))], IsLiteral oneFloat x := by
    refine List.forall_mem_cons.2 ⟨trivial, List.forall_mem_singleton.2 ?_⟩
    show decide (magnitude (-5 / 2) = 5 / 2) = true
    decide +kernel
  obtain ⟨⟨program, code, read⟩, -⟩ := calls _ ∅ literals (fun e mem => by cases mem)
  exact ⟨front, back, program, code, read⟩

end Cpip
