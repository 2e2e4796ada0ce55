import Cpip.Python.Repr

/-!
# What a literal stands for

How the tokens of a constant, a number, a string, a list display or a dictionary display are
evaluated, and that the tokens of the literal of a value stand for that value (`stands_value`).
-/

namespace PyRepr

open PyTokens

def constant (w : String) : Option PyVal :=
  if w = "None" then some (.atom .none)
  else if w = "True" then some (.atom (.bool true))
  else if w = "False" then some (.atom (.bool false))
  else none

/-- `-number`. -/
def negated : PyAtom → Option PyAtom
  | .int i => some (.int (-i))
  | .float (.finite q) => some (.float (.finite (-q)))
  | _ => none

section Evaluation

variable (numeral : String → Option PyAtom)

/-- A number behind a minus sign. -/
def readNegative : List Token → Option (PyVal × List Token)
  | .number w :: ts => ((numeral w).bind negated).map fun a => (.atom a, ts)
  | _ => none

mutual

/-- The value of the literal at the front of the tokens, and the tokens behind it. -/
def readValue : ℕ → List Token → Option (PyVal × List Token)
  | _ + 1, .name w :: ts => (constant w).map fun v => (v, ts)
  | _ + 1, .number w :: ts => (numeral w).map fun a => (.atom a, ts)
  | _ + 1, .text value :: ts => some (.atom (.str (String.ofList (value.map Char.ofNat))), ts)
  | n + 1, .op o :: ts =>
    if o = "[" then (readItems n ts).map fun r => (.list r.1, r.2)
    else if o = "\x7b" then (readEntries n ts).map fun r => (.dict (Dict.assignAll [] r.1), r.2)
    else if o = "-" then readNegative numeral ts
    else none
  | _, _ => none

/-- The elements of a list, behind its opening bracket. -/
def readItems : ℕ → List Token → Option (List PyVal × List Token)
  | n + 1, ts =>
    if ts.head? = some (.op "]") then some ([], ts.tail)
    else
      (readValue n ts).bind fun r =>
        match r.2 with
        | .op o :: ts =>
          if o = "," then (readItems n ts).map fun r' => (r.1 :: r'.1, r'.2)
          else if o = "]" then some ([r.1], ts)
          else none
        | _ => none
  | _, _ => none

/-- The entries of a dictionary whose keys are strings, behind its opening brace. -/
def readEntries : ℕ → List Token → Option (List (PyKey × PyVal) × List Token)
  | n + 1, .text value :: .op ":" :: ts =>
    (readValue n ts).bind fun r =>
      match r.2 with
      | .op o :: ts =>
        let entry := (PyKey.str (String.ofList (value.map Char.ofNat)), r.1)
        if o = "," then (readEntries n ts).map fun r' => (entry :: r'.1, r'.2)
        else if o = "\x7d" then some ([entry], ts)
        else none
      | _ => none
  | _ + 1, .op "\x7d" :: ts => some ([], ts)
  | _, _ => none

end

end Evaluation

variable {env : Env} {numeral : String → Option PyAtom}

/-- The numerals that `repr` writes stand for their numbers. -/
structure Values (env : Env) (numeral : String → Option PyAtom) : Prop where
  int : ∀ n : ℕ, env.allows (Nat.toDigits 10 n).length →
    numeral (String.ofList (Nat.toDigits 10 n)) = some (.int n)
  float : ∀ q : ℚ, env.isFloat q →
    numeral (String.ofList (env.float q)) = some (.float (.finite q))

theorem ofNat_codes (s : String) : String.ofList ((codes s).map Char.ofNat) = s := by
  rw [codes, List.map_map]
  have same : Char.ofNat ∘ Char.toNat = id := funext Char.ofNat_toNat
  rw [same, List.map_id, String.ofList_toList]

theorem readValue_signed {negative : Bool} {digits : List Char} {a a' : PyAtom}
    (read : numeral (String.ofList digits) = some a')
    (same : (if negative then negated a' else some a') = some a) (n : ℕ) (rest : List Token) :
    readValue numeral (n + 1) (signedTokens negative digits ++ rest) = some (.atom a, rest) := by
  cases negative with
  | true =>
    have same : negated a' = some a := same
    show readValue numeral (n + 1)
      (.op "-" :: .number (String.ofList digits) :: rest) = some (.atom a, rest)
    rw [readValue, if_neg (by decide), if_neg (by decide), if_pos rfl, readNegative, read,
      Option.bind_some, same]
    rfl
  | false =>
    obtain rfl : a' = a := Option.some.inj same
    show readValue numeral (n + 1) (.number (String.ofList digits) :: rest) = some (.atom a', rest)
    rw [readValue, read]
    rfl

/-- The tokens stand for the value, whatever follows them. -/
def Stands (numeral : String → Option PyAtom) (v : PyVal) (ts : List Token) : Prop :=
  ∃ k, ∀ n, k ≤ n → ∀ rest, readValue numeral n (ts ++ rest) = some (v, rest)

theorem stands_of_succ {v : PyVal} {ts : List Token}
    (h : ∀ n rest, readValue numeral (n + 1) (ts ++ rest) = some (v, rest)) :
    Stands numeral v ts := by
  refine ⟨1, fun n one rest => ?_⟩
  obtain ⟨m, rfl⟩ := Nat.exists_eq_add_of_le' one
  exact h m rest

/-- No literal begins with a bracket that closes. -/
theorem head_valueTokens {v : PyVal} (literal : IsLiteral env v) :
    ∃ t ts, valueTokens env v = t :: ts ∧ t ≠ .op "]" := by
  have signed (negative : Bool) (digits : List Char) :
      ∃ t ts, signedTokens negative digits = t :: ts ∧ t ≠ .op "]" := by
    cases negative with
    | true => exact ⟨_, _, rfl, by decide⟩
    | false => exact ⟨_, _, rfl, by simp⟩
  cases v with
  | atom a =>
    cases a with
    | none => exact ⟨_, _, rfl, by simp⟩
    | bool b => exact ⟨_, _, rfl, by simp⟩
    | int i => exact signed _ _
    | float f =>
      cases f with
      | finite q => exact signed _ _
      | inf negative => exact literal.elim
      | nan => exact literal.elim
    | str s => exact ⟨_, _, rfl, by simp⟩
    | bytes b => exact literal.elim
    | complex re im => exact literal.elim
    | object o => exact literal.elim
  | list xs => exact ⟨_, _, rfl, by decide⟩
  | dict ms => exact ⟨_, _, rfl, by decide⟩
  | tuple xs => exact ((PyVal.everywhere_tuple_iff xs).1 literal).1.elim
  | set xs => exact literal.elim
  | ndarray a => exact literal.elim

theorem readItems_tokens {xs : List PyVal} (literals : ∀ x ∈ xs, IsLiteral env x)
    (each : ∀ x ∈ xs, Stands numeral x (valueTokens env x)) : ∃ k, ∀ n, k ≤ n → ∀ rest,
    readItems numeral n (itemTokens env xs ++ .op "]" :: rest) = some (xs, rest) := by
  -- one element, with what comes behind it
  have item {x : PyVal} (literal : IsLiteral env x) {n : ℕ} {o : String} {ts : List Token}
      (read : readValue numeral n (valueTokens env x ++ .op o :: ts) = some (x, .op o :: ts)) :
      readItems numeral (n + 1) (valueTokens env x ++ .op o :: ts) =
        if o = "," then (readItems numeral n ts).map fun r => (x :: r.1, r.2)
        else if o = "]" then some ([x], ts)
        else none := by
    obtain ⟨t, ts', first, other⟩ := head_valueTokens literal
    rw [readItems, if_neg (by simp [first, other]), read, Option.bind_some]
  match xs with
  | [] =>
    refine ⟨1, fun n one rest => ?_⟩
    obtain ⟨m, rfl⟩ := Nat.exists_eq_add_of_le' one
    show readItems numeral (m + 1) (.op "]" :: rest) = some ([], rest)
    rw [readItems, if_pos (by simp)]
    rfl
  | [x] =>
    obtain ⟨k, read⟩ := each x (by simp)
    refine ⟨k + 1, fun n enough rest => ?_⟩
    obtain ⟨m, rfl⟩ := Nat.exists_eq_add_of_le' (Nat.le_of_add_left_le enough)
    show readItems numeral (m + 1) (valueTokens env x ++ .op "]" :: rest) = some ([x], rest)
    rw [item (literals x (by simp)) (read m (Nat.le_of_succ_le_succ enough) _),
      if_neg (by decide), if_pos rfl]
  | x :: y :: xs =>
    rw [List.forall_mem_cons] at each literals
    obtain ⟨k, read⟩ := each.1
    obtain ⟨k', readAll⟩ := readItems_tokens literals.2 each.2
    refine ⟨max k k' + 1, fun n enough rest => ?_⟩
    obtain ⟨m, rfl⟩ := Nat.exists_eq_add_of_le' (Nat.le_of_add_left_le enough)
    have enough := max_le_iff.1 (Nat.le_of_succ_le_succ enough)
    have text : itemTokens env (x :: y :: xs) ++ .op "]" :: rest =
        valueTokens env x ++ .op "," :: (itemTokens env (y :: xs) ++ .op "]" :: rest) := by
      simp [itemTokens]
    rw [text, item literals.1 (read m enough.1 _), if_pos rfl, readAll m enough.2]
    rfl

theorem readEntries_tokens {ms : List (PyKey × PyVal)}
    (strings : ∀ k ∈ ms.map Prod.fst, ∃ s, k = .str s)
    (each : ∀ m ∈ ms, Stands numeral m.2 (valueTokens env m.2)) : ∃ k, ∀ n, k ≤ n → ∀ rest,
    readEntries numeral n (entryTokens env ms ++ .op "\x7d" :: rest) = some (ms, rest) := by
  have entry {s : String} {x : PyVal} {n : ℕ} {o : String} {ts : List Token}
      (read : readValue numeral n (valueTokens env x ++ .op o :: ts) = some (x, .op o :: ts)) :
      readEntries numeral (n + 1)
          (.text (codes s) :: .op ":" :: (valueTokens env x ++ .op o :: ts)) =
        if o = "," then (readEntries numeral n ts).map fun r => ((.str s, x) :: r.1, r.2)
        else if o = "\x7d" then some ([(.str s, x)], ts)
        else none := by
    rw [readEntries, read, Option.bind_some]
    dsimp only
    rw [ofNat_codes]
  match ms with
  | [] =>
    refine ⟨1, fun n one rest => ?_⟩
    obtain ⟨m, rfl⟩ := Nat.exists_eq_add_of_le' one
    show readEntries numeral (m + 1) (.op "\x7d" :: rest) = some ([], rest)
    rw [readEntries]
  | [(key, x)] =>
    obtain ⟨s, rfl⟩ := strings key (by simp)
    obtain ⟨k, read⟩ := each (.str s, x) (by simp)
    refine ⟨k + 1, fun n enough rest => ?_⟩
    obtain ⟨m, rfl⟩ := Nat.exists_eq_add_of_le' (Nat.le_of_add_left_le enough)
    have text : entryTokens env [(.str s, x)] ++ .op "\x7d" :: rest =
        .text (codes s) :: .op ":" :: (valueTokens env x ++ .op "\x7d" :: rest) := by
      simp [entryTokens, keyTokens]
    rw [text, entry (read m (Nat.le_of_succ_le_succ enough) _), if_neg (by decide), if_pos rfl]
  | (key, x) :: e :: ms =>
    rw [List.forall_mem_cons] at each
    rw [List.map_cons, List.forall_mem_cons] at strings
    obtain ⟨⟨s, rfl⟩, strings⟩ := strings
    obtain ⟨k, read⟩ := each.1
    obtain ⟨k', readAll⟩ := readEntries_tokens strings each.2
    refine ⟨max k k' + 1, fun n enough rest => ?_⟩
    obtain ⟨m, rfl⟩ := Nat.exists_eq_add_of_le' (Nat.le_of_add_left_le enough)
    have enough := max_le_iff.1 (Nat.le_of_succ_le_succ enough)
    have text : entryTokens env ((.str s, x) :: e :: ms) ++ .op "\x7d" :: rest =
        .text (codes s) :: .op ":" ::
          (valueTokens env x ++ .op "," :: (entryTokens env (e :: ms) ++ .op "\x7d" :: rest)) := by
      simp [entryTokens, keyTokens]
    rw [text, entry (read m enough.1 _), if_pos rfl, readAll m enough.2]
    rfl

/-- The literal of a value stands for the value. -/
theorem stands_value (values : Values env numeral) {v : PyVal} (literal : IsLiteral env v) :
    Stands numeral v (valueTokens env v) := by
  induction v using PyVal.inductionOn with
  | atom a =>
    cases a with
    | none => exact stands_of_succ fun _ _ => rfl
    | bool b =>
      cases b with
      | false => exact stands_of_succ fun _ _ => rfl
      | true => exact stands_of_succ fun _ _ => rfl
    | int i =>
      refine stands_of_succ (readValue_signed (values.int _ literal) ?_)
      by_cases negative : i < 0
      · rw [decide_eq_true negative, if_pos rfl, negated, Int.ofNat_natAbs_of_nonpos negative.le,
          neg_neg]
      · rw [decide_eq_false negative, if_neg (by simp), Int.natAbs_of_nonneg (not_lt.1 negative)]
    | float f =>
      cases f with
      | finite q =>
        refine stands_of_succ (readValue_signed (values.float _ literal) ?_)
        by_cases negative : q < 0
        · rw [decide_eq_true negative, if_pos rfl, negated, magnitude, if_pos negative, neg_neg]
        · rw [decide_eq_false negative, if_neg (by simp), magnitude, if_neg negative]
      | inf negative => exact literal.elim
      | nan => exact literal.elim
    | str s =>
      refine stands_of_succ fun n rest => ?_
      show readValue numeral (n + 1) (.text (codes s) :: rest) = some (.atom (.str s), rest)
      rw [readValue, ofNat_codes]
    | bytes b => exact literal.elim
    | complex re im => exact literal.elim
    | object o => exact literal.elim
  | list xs ih =>
    have parts := ((PyVal.everywhere_list_iff xs).1 literal).2
    obtain ⟨k, read⟩ := readItems_tokens parts fun x mem => ih x mem (parts x mem)
    refine ⟨k + 1, fun n enough rest => ?_⟩
    obtain ⟨m, rfl⟩ := Nat.exists_eq_add_of_le' (Nat.le_of_add_left_le enough)
    have text : valueTokens env (.list xs) ++ rest =
        .op "[" :: (itemTokens env xs ++ .op "]" :: rest) := by
      simp [valueTokens]
    rw [text, readValue, if_pos rfl, read m (Nat.le_of_succ_le_succ enough)]
    rfl
  | dict ms ih =>
    obtain ⟨⟨distinct, strings⟩, parts⟩ := (PyVal.everywhere_dict_iff ms).1 literal
    obtain ⟨k, read⟩ := readEntries_tokens strings fun m mem => ih m mem (parts m mem)
    refine ⟨k + 1, fun n enough rest => ?_⟩
    obtain ⟨m, rfl⟩ := Nat.exists_eq_add_of_le' (Nat.le_of_add_left_le enough)
    have text : valueTokens env (.dict ms) ++ rest =
        .op "\x7b" :: (entryTokens env ms ++ .op "\x7d" :: rest) := by
      simp [valueTokens]
    rw [text, readValue, if_neg (by decide), if_pos rfl, read m (Nat.le_of_succ_le_succ enough),
      Option.map_some, Dict.assignAll_of_nodup (by simpa using distinct), List.nil_append]
  | tuple xs => exact ((PyVal.everywhere_tuple_iff xs).1 literal).1.elim
  | set xs => exact literal.elim
  | ndarray a => exact literal.elim

end PyRepr
