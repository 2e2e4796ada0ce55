import Cpip.Python.Toml

/-!
# What a TOML text says

A value that is neither a table nor an array stays where it is, whatever the rest of the text is.  A
text of tables with plain pairs is read back.  A pair whose value is spelled as itself between two
quotes is read back only when the value is plain.
-/

namespace Toml

/-! ## The rest of a text changes no value -/

/-- The value at a path through tables. -/
def lookup : Key → PyVal → Option PyVal
  | [], v => some v
  | k :: ks, .dict items => (PyVal.getStr k items).bind (lookup ks)
  | _ :: _, _ => none

theorem lookup_cons_dict (k : String) (ks : Key) (items : Items) :
    lookup (k :: ks) (.dict items) = (PyVal.getStr k items).bind (lookup ks) := rfl

/-- What is done to a table keeps its values. -/
def Keeps (f : Items → Option Items) : Prop :=
  ∀ items items', f items = some items' → ∀ path a,
    lookup path (.dict items) = some (.atom a) → lookup path (.dict items') = some (.atom a)

/-- An assignment keeps the values that are not under its key. -/
theorem lookup_assign {items : Items} {k : String} {v : PyVal} {path : Key} {a : PyAtom}
    (apart : ∀ ks, path = k :: ks → lookup ks v = some (.atom a))
    (h : lookup path (.dict items) = some (.atom a)) :
    lookup path (.dict (assign k v items)) = some (.atom a) := by
  cases path with
  | nil => cases h
  | cons j ks =>
    rw [lookup_cons_dict, getStr_assign]
    split_ifs with here
    · exact apart ks (by rw [here])
    · exact h

theorem keeps_some : Keeps some := by
  intro items items' h path a found
  obtain rfl := Option.some.inj h
  exact found

theorem keeps_insertNew (k : String) (v : PyVal) : Keeps (insertNew k v) := by
  intro items items' h path a found
  unfold insertNew at h
  split_ifs at h with present
  obtain rfl := Option.some.inj h
  refine lookup_assign (fun ks same => ?_) found
  rw [same, lookup_cons_dict, Option.not_isSome_iff_eq_none.1 present] at found
  cases found

/-- Nothing is found below an array. -/
theorem lookup_list_ne (ks : Key) (xs : List PyVal) (a : PyAtom) :
    lookup ks (.list xs) ≠ some (.atom a) := by
  cases ks with
  | nil => simp [lookup]
  | cons k ks => simp [lookup]

theorem keeps_appendNest (k : String) : Keeps (appendNest k) := by
  intro items items' h path a found
  unfold appendNest at h
  split at h
  · next absent =>
    obtain rfl := Option.some.inj h
    refine lookup_assign (fun ks same => ?_) found
    rw [same, lookup_cons_dict, absent] at found
    cases found
  · next xs present =>
    obtain rfl := Option.some.inj h
    refine lookup_assign (fun ks same => ?_) found
    rw [same, lookup_cons_dict, present] at found
    exact absurd found (lookup_list_ne ks xs a)
  · cases h

theorem Keeps.atNest {f : Items → Option Items} (keeps : Keeps f) (path : Key) :
    Keeps (atNest f path) := by
  induction path with
  | nil => exact keeps
  | cons k ks ih =>
    intro items items' h path a found
    unfold Toml.atNest at h
    split at h
    · next absent =>
      obtain ⟨sub', -, rfl⟩ := Option.map_eq_some_iff.1 h
      refine lookup_assign (fun js same => ?_) found
      rw [same, lookup_cons_dict, absent] at found
      cases found
    · next sub present =>
      obtain ⟨sub', changed, rfl⟩ := Option.map_eq_some_iff.1 h
      refine lookup_assign (fun js same => ?_) found
      rw [same, lookup_cons_dict, present] at found
      exact ih sub sub' changed js a found
    · next xs present =>
      split at h
      · obtain ⟨sub', changed, rfl⟩ := Option.map_eq_some_iff.1 h
        refine lookup_assign (fun js same => ?_) found
        rw [same, lookup_cons_dict, present] at found
        exact absurd found (lookup_list_ne js xs a)
      · cases h
    · cases h

/-- The value is at the path. -/
def State.Has (s : State) (path : Key) (a : PyAtom) : Prop :=
  lookup path (.dict s.root) = some (.atom a)

variable {env : Env} {s s' : State} {path : Key} {a : PyAtom}

theorem State.Has.openTable {k : Key} (h : s.Has path a) (opened : s.openTable k = some s') :
    s'.Has path a := by
  unfold State.openTable at opened
  split_ifs at opened
  obtain ⟨root, changed, rfl⟩ := Option.map_eq_some_iff.1 opened
  exact keeps_some.atNest k _ _ changed path a h

theorem State.Has.openArray {k : Key} (h : s.Has path a) (opened : s.openArray k = some s') :
    s'.Has path a := by
  unfold State.openArray at opened
  split_ifs at opened
  obtain ⟨root, changed, rfl⟩ := Option.map_eq_some_iff.1 opened
  exact (keeps_appendNest _).atNest _ _ _ changed path a h

theorem State.Has.addPair {k : Key} {v : PyVal} (h : s.Has path a)
    (added : s.addPair k v = some s') : s'.Has path a := by
  unfold State.addPair at added
  dsimp only at added
  split_ifs at added
  · obtain ⟨root, changed, rfl⟩ := Option.map_eq_some_iff.1 added
    exact (keeps_insertNew _ v).atNest _ _ _ changed path a h
  · obtain ⟨root, changed, rfl⟩ := Option.map_eq_some_iff.1 added
    exact (keeps_insertNew _ v).atNest _ _ _ changed path a h

theorem State.Has.statement {cs rest : List Char} (h : s.Has path a)
    (read : statement env s cs = some (s', rest)) : s'.Has path a := by
  unfold Toml.statement at read
  split at read
  · obtain ⟨rfl, -⟩ := Prod.mk.inj (Option.some.inj read)
    exact h
  · obtain ⟨rest', -, read⟩ := Option.map_eq_some_iff.1 read
    obtain ⟨rfl, -⟩ := Prod.mk.inj read
    exact h
  · split at read
    · obtain ⟨s'', opened, read⟩ := Option.bind_eq_some_iff.1 read
      obtain ⟨rest', -, read⟩ := Option.map_eq_some_iff.1 read
      obtain ⟨rfl, -⟩ := Prod.mk.inj read
      exact h.openArray opened
    · cases read
  · split at read
    · obtain ⟨s'', opened, read⟩ := Option.bind_eq_some_iff.1 read
      obtain ⟨rest', -, read⟩ := Option.map_eq_some_iff.1 read
      obtain ⟨rfl, -⟩ := Prod.mk.inj read
      exact h.openTable opened
    · cases read
  · split at read
    · obtain ⟨r, -, read⟩ := Option.bind_eq_some_iff.1 read
      obtain ⟨s'', added, read⟩ := Option.bind_eq_some_iff.1 read
      obtain ⟨rest', -, read⟩ := Option.map_eq_some_iff.1 read
      obtain ⟨rfl, -⟩ := Prod.mk.inj read
      exact h.addPair added
    · cases read

theorem State.Has.run {n : ℕ} {cs : List Char} (h : s.Has path a)
    (read : run env n s cs = some s') : s'.Has path a := by
  induction n generalizing s cs with
  | zero => cases read
  | succ n ih =>
    unfold Toml.run at read
    split at read
    · obtain rfl := Option.some.inj read
      exact h
    · obtain ⟨⟨s'', rest⟩, first, read⟩ := Option.bind_eq_some_iff.1 read
      exact ih (h.statement first) read

/-! ## Plain lines are read back -/

/-- The characters of a number. -/
def spellInt (i : ℤ) : List Char :=
  if i < 0 then '-' :: Nat.toDigits 10 i.natAbs else Nat.toDigits 10 i.natAbs

/-- A boolean, an integer or a string, spelled as itself. -/
def spell : PyVal → List Char
  | .bool b => (if b then "true" else "false").toList
  | .int i => spellInt i
  | .str s => '"' :: s.toList ++ ['"']
  | _ => []

/-- What is read back: a boolean, an integer that `int` takes, and a string without quotes,
backslashes and control characters other than the tab. -/
def IsPlain (env : Env) : PyVal → Prop
  | .bool _ => True
  | .int i => env.allows (Nat.toDigits 10 i.natAbs).length
  | .str s => ∀ c ∈ s.toList, isPlain c
  | _ => False

/-- The characters up to the first that does not belong. -/
theorem span_append {p : Char → Bool} {u rest : List Char} (all : ∀ c ∈ u, p c)
    (stop : ∀ c ∈ rest.head?, p c = false) :
    (u ++ rest).takeWhile p = u ∧ (u ++ rest).dropWhile p = rest := by
  induction u with
  | nil =>
    cases rest with
    | nil => exact ⟨rfl, rfl⟩
    | cons c rest =>
      have none := stop c rfl
      rw [List.nil_append, List.takeWhile_cons, List.dropWhile_cons, none]
      exact ⟨rfl, rfl⟩
  | cons c u ih =>
    rw [List.forall_mem_cons] at all
    rw [List.cons_append, List.takeWhile_cons, List.dropWhile_cons, if_pos all.1, if_pos all.1]
    exact ⟨by rw [(ih all.2).1], (ih all.2).2⟩

/-- Only zero is spelled with a zero in front. -/
theorem head?_toDigits {n : ℕ} (h : (Nat.toDigits 10 n).head? = some '0') : n = 0 := by
  induction n using Nat.strongRecOn with
  | ind n ih =>
    rcases Nat.lt_or_ge n 10 with small | large
    · rw [Nat.toDigits_of_lt_base small] at h
      have digit : n.digitChar = '0' := Option.some.inj h
      rw [← Nat.toNat_digitChar_sub_48_of_lt_ten small, digit]
      rfl
    · rw [Nat.toDigits_of_base_le (by decide) large, List.head?_append,
        List.head?_eq_some_head Nat.toDigits_ne_nil] at h
      have zero : (Nat.toDigits 10 (n / 10)).head? = some '0' := by
        rw [List.head?_eq_some_head Nat.toDigits_ne_nil]
        exact h
      have quotient := ih (n / 10) (by omega) zero
      omega

theorem natural_toDigits {n : ℕ} (allowed : env.allows (Nat.toDigits 10 n).length)
    (rest : List Char) :
    natural env (Nat.toDigits 10 n ++ '\n' :: rest) = some (n, '\n' :: rest) := by
  have digits := fun c (hc : c ∈ Nat.toDigits 10 n) =>
    Nat.isDigit_of_mem_toDigits (by decide) (by decide) hc
  obtain ⟨taken, left⟩ := @span_append Char.isDigit _ ('\n' :: rest) digits (by
    intro c hc
    obtain rfl := Option.some.inj hc
    decide)
  have canonical : ¬ ((Nat.toDigits 10 n).head? = some '0' ∧ Nat.toDigits 10 n ≠ ['0']) := by
    rintro ⟨zero, other⟩
    rw [head?_toDigits zero] at other
    exact other rfl
  rw [natural, taken, left, if_neg, Nat.ofDigitChars_ten_toDigits]
  simp only [Nat.toDigits_ne_nil, canonical, allowed, List.head?_cons, Option.any_some, false_or]
  decide

/-- The number begins with a digit. -/
theorem exists_toDigits (n : ℕ) : ∃ c cs, Nat.toDigits 10 n = c :: cs ∧ c.isDigit := by
  cases h : Nat.toDigits 10 n with
  | nil => exact absurd h Nat.toDigits_ne_nil
  | cons c cs =>
    refine ⟨c, cs, rfl, Nat.isDigit_of_mem_toDigits (by decide) (by decide) (b := 10) (n := n) ?_⟩
    rw [h]
    exact List.mem_cons_self

theorem integer_spellInt {i : ℤ} (allowed : env.allows (Nat.toDigits 10 i.natAbs).length)
    (rest : List Char) :
    integer env (spellInt i ++ '\n' :: rest) = some (.int i, '\n' :: rest) := by
  rw [spellInt]
  split_ifs with negative
  · rw [List.cons_append, integer, natural_toDigits allowed]
    have back : -(i.natAbs : ℤ) = i := by omega
    rw [Option.map_some, back]
  · have read := @natural_toDigits env _ allowed rest
    have back : (i.natAbs : ℤ) = i := by omega
    obtain ⟨c, cs, first, digit⟩ := exists_toDigits i.natAbs
    rw [first] at read ⊢
    rw [List.cons_append] at read ⊢
    rw [integer.eq_def]
    split
    · next same =>
      rw [(List.cons.inj same).1] at digit
      cases digit
    · next same =>
      rw [(List.cons.inj same).1] at digit
      cases digit
    · rw [read, Option.map_some, back]

/-- A string on one line, where no three quotes stand. -/
theorem value_quote {cs : List Char} (single : ¬ ['"', '"'] <+: cs) :
    value env ('"' :: cs) = (basic false cs).map text := by
  rw [value.eq_def]
  split
  · next same =>
    obtain rfl := (List.cons.inj same).2
    exact absurd ⟨_, rfl⟩ single
  · next same =>
    obtain rfl := (List.cons.inj same).2
    rfl
  · next same => cases (List.cons.inj same).1
  · next same => cases (List.cons.inj same).1
  · next other _ _ => exact absurd rfl (other cs)

theorem value_of_first {c : Char} {cs : List Char} (quote : c ≠ '"') (t : c ≠ 't') (f : c ≠ 'f') :
    value env (c :: cs) = (integer env (c :: cs)).or (env.other (c :: cs)) := by
  rw [value.eq_def]
  split
  · next same => exact absurd (List.cons.inj same).1 quote
  · next same => exact absurd (List.cons.inj same).1 quote
  · next same => exact absurd (List.cons.inj same).1 t
  · next same => exact absurd (List.cons.inj same).1 f
  · rfl

/-- A number begins with a digit or a sign. -/
theorem exists_spellInt (i : ℤ) : ∃ c cs, spellInt i = c :: cs ∧ (c = '-' ∨ c.isDigit) := by
  obtain ⟨c, cs, whole, digit⟩ := exists_toDigits i.natAbs
  rw [spellInt]
  split_ifs
  · exact ⟨'-', _, rfl, .inl rfl⟩
  · exact ⟨c, cs, whole, .inr digit⟩

theorem not_quotes_of_plain {u : List Char} (plain : ∀ c ∈ u, isPlain c) (rest : List Char) :
    ¬ ['"', '"'] <+: u ++ '"' :: '\n' :: rest := by
  cases u with
  | nil =>
    rintro ⟨w, same⟩
    cases (List.cons.inj (List.cons.inj same).2).1
  | cons c u =>
    rintro ⟨w, same⟩
    have quote := plain c List.mem_cons_self
    rw [← (List.cons.inj same).1] at quote
    cases quote

theorem value_spell {v : PyVal} (plain : IsPlain env v) (rest : List Char) :
    value env (spell v ++ '\n' :: rest) = some (v, '\n' :: rest) := by
  cases v with
  | atom a =>
    cases a with
    | bool b => cases b <;> rfl
    | int i =>
      have read := @integer_spellInt env i plain rest
      obtain ⟨c, cs, whole, start⟩ := exists_spellInt i
      have spelled : spell (.int i) = c :: cs := whole
      rw [spelled]
      rw [whole] at read
      have apart (d : Char) (noSign : d ≠ '-') (noDigit : d.isDigit = false) : c ≠ d := by
        rintro rfl
        rcases start with sign | digit
        · exact noSign sign
        · rw [noDigit] at digit
          cases digit
      rw [List.cons_append] at read ⊢
      rw [value_of_first (apart '"' (by decide) (by decide)) (apart 't' (by decide) (by decide))
        (apart 'f' (by decide) (by decide)), read]
      rfl
    | str s =>
      have plain : ∀ c ∈ s.toList, isPlain c := plain
      have spelled : spell (.str s) ++ '\n' :: rest = '"' :: (s.toList ++ '"' :: '\n' :: rest) := by
        simp [spell]
      rw [spelled, value_quote (not_quotes_of_plain plain rest), basic_of_plain plain,
        Option.map_some, text, String.ofList_toList]
    | _ => cases plain
  | _ => cases plain

/-- What a value is spelled as does not begin with a space. -/
theorem dropWhile_spell {v : PyVal} (spelled : spell v ≠ []) (rest : List Char) :
    (spell v ++ rest).dropWhile isBlank = spell v ++ rest := by
  have first : ∃ c cs, spell v = c :: cs ∧ isBlank c = false := by
    cases v with
    | atom a =>
      cases a with
      | bool b => cases b <;> exact ⟨_, _, rfl, rfl⟩
      | int i =>
        obtain ⟨c, cs, whole, start⟩ := exists_spellInt i
        refine ⟨c, cs, whole, ?_⟩
        unfold isBlank
        rcases start with rfl | digit
        · decide
        · rw [decide_eq_false_iff_not]
          rintro (rfl | rfl) <;> cases digit
      | str s => exact ⟨'"', _, rfl, by decide⟩
      | _ => exact absurd rfl spelled
    | _ => exact absurd rfl spelled
  obtain ⟨c, cs, whole, noBlank⟩ := first
  rw [whole, List.cons_append, List.dropWhile_cons, noBlank]
  rfl

/-- A name that needs no quotes. -/
def IsBareName (name : String) : Prop := name ≠ "" ∧ ∀ c ∈ name.toList, isBare c

theorem exists_bareName {name : String} (bare : IsBareName name) :
    ∃ c cs, name.toList = c :: cs ∧ isBare c := by
  cases h : name.toList with
  | nil => exact absurd (String.toList_eq_nil_iff.1 h) bare.1
  | cons c cs => exact ⟨c, cs, rfl, bare.2 c (by rw [h]; exact List.mem_cons_self)⟩

/-- A key that is one name. -/
theorem key_bareName {name : String} (bare : IsBareName name) {rest : List Char}
    (stop : ∀ c ∈ rest.head?, isBare c = false)
    (noDot : (rest.dropWhile isBlank).head? ≠ some '.') :
    key (name.toList ++ rest) = some ([name], rest.dropWhile isBlank) := by
  obtain ⟨taken, left⟩ := span_append bare.2 stop
  have part : keyPart (name.toList ++ rest) = some (name, rest) := by
    obtain ⟨c, cs, whole, first⟩ := exists_bareName bare
    rw [keyPart.eq_def]
    split
    · next same =>
      rw [whole] at same
      rw [(List.cons.inj same).1] at first
      cases first
    · next same =>
      rw [whole] at same
      rw [(List.cons.inj same).1] at first
      cases first
    · rw [taken, left, if_neg, String.ofList_toList]
      rw [whole]
      exact List.cons_ne_nil _ _
  rw [key.eq_def]
  split
  · next none => 
    rw [part] at none
    cases none
  · next some =>
    rw [part] at some
    obtain ⟨rfl, rfl⟩ := Prod.mk.inj (Option.some.inj some)
    split
    · next dot => 
      rw [dot] at noDot
      exact absurd rfl noDot
    · rfl

/-! ## Sections of plain pairs -/

theorem run_of_first {n : ℕ} {c : Char} {cs : List Char} (noBlank : isBlank c = false) :
    run env (n + 1) s (c :: cs) = (statement env s (c :: cs)).bind fun r => run env n r.1 r.2 := by
  have same : (c :: cs).dropWhile isBlank = c :: cs := by
    rw [List.dropWhile_cons, noBlank]
    rfl
  rw [run, same]

theorem isBlank_of_isBare {c : Char} (bare : isBare c) : isBlank c = false := by
  unfold isBlank
  rw [decide_eq_false_iff_not]
  rintro (rfl | rfl) <;> cases bare

/-- A line that begins with a name is a pair. -/
theorem statement_pair {name : String} (bare : IsBareName name) {cs : List Char}
    (start : cs.dropWhile isBlank = cs) :
    statement env s (name.toList ++ ' ' :: '=' :: ' ' :: cs) =
      (value env cs).bind fun r =>
        (s.addPair [name] r.1).bind fun s => (lineEnd r.2).map fun rest => (s, rest) := by
  have stop : (' ' :: '=' :: ' ' :: cs).dropWhile isBlank = '=' :: ' ' :: cs := rfl
  have skip : (' ' :: cs).dropWhile isBlank = cs := start
  have read := @key_bareName name bare (' ' :: '=' :: ' ' :: cs)
    (by intro c hc; obtain rfl := Option.some.inj hc; decide)
    (by rw [stop]; simp)
  rw [stop] at read
  obtain ⟨c, cs', whole, first⟩ := exists_bareName bare
  have apart {d : Char} (other : isBare d = false) : c ≠ d := by
    rintro rfl
    rw [other] at first
    cases first
  rw [whole, List.cons_append] at read ⊢
  rw [statement.eq_def]
  split
  · next same => exact absurd (List.cons.inj same).1 (apart (by decide))
  · next same => exact absurd (List.cons.inj same).1 (apart (by decide))
  · next same => exact absurd (List.cons.inj same).1 (apart (by decide))
  · next same => exact absurd (List.cons.inj same).1 (apart (by decide))
  · simp only [read, skip]

/-- The tables are of one level, and each was opened once. -/
structure State.Flat (s : State) : Prop where
  frozen : s.frozen = []
  pending : s.pending = []
  explicit : ∀ k ∈ s.explicit, ∃ name, k = [name] ∧ (PyVal.getStr name s.root).isSome

/-- The last table is open, and this is in it. -/
def inTable (base : Items) (name : String) (sub : Items) (explicit : List Key) : State where
  root := base ++ [(.str name, .dict sub)]
  header := [name]
  explicit := explicit

theorem assign_append {k : String} {v : PyVal} {items : Items}
    (absent : PyVal.getStr k items = none) (rest : Items) :
    assign k v (items ++ rest) = items ++ assign k v rest := by
  induction items with
  | nil => rfl
  | cons e items ih =>
    obtain ⟨k', x⟩ := e
    rw [PyVal.getStr_cons_key] at absent
    split_ifs at absent with here
    rw [List.cons_append, assign, if_neg here, ih absent, List.cons_append]

theorem assign_of_absent {k : String} {items : Items} (absent : PyVal.getStr k items = none)
    (v : PyVal) : assign k v items = items ++ [(.str k, v)] := by
  have whole := @assign_append k v items absent []
  rw [List.append_nil] at whole
  exact whole

theorem openTable_of_flat (flat : s.Flat) {name : String}
    (absent : PyVal.getStr name s.root = none) :
    s.openTable [name] = some (inTable s.root name [] ([name] :: s.explicit)) := by
  obtain ⟨frozen, pending, explicit⟩ := flat
  have closed : [name] ∉ s.explicit := by
    intro mem
    obtain ⟨name', same, present⟩ := explicit _ mem
    obtain rfl := (List.cons.inj same).1
    rw [absent] at present
    cases present
  rw [State.openTable, if_neg, atNest, absent]
  · dsimp only
    rw [atNest, Option.map_some, Option.map_some, assign_of_absent absent]
    simp [State.finalize, inTable, pending, frozen]
  · simp [State.finalize, State.isFrozen, pending, frozen, closed]

theorem getStr_concat {base : Items} {name : String} (absent : PyVal.getStr name base = none)
    (v : PyVal) : PyVal.getStr name (base ++ [(.str name, v)]) = some v := by
  rw [PyVal.getStr_append, absent, PyVal.getStr_cons, if_pos rfl]
  rfl

theorem flat_inTable (flat : s.Flat) {name : String} (absent : PyVal.getStr name s.root = none)
    (sub : Items) : (inTable s.root name sub ([name] :: s.explicit)).Flat where
  frozen := rfl
  pending := rfl
  explicit k mem := by
    rcases List.mem_cons.1 mem with rfl | mem
    · refine ⟨name, rfl, ?_⟩
      rw [inTable, getStr_concat absent]
      rfl
    · obtain ⟨name', same, present⟩ := flat.explicit k mem
      refine ⟨name', same, ?_⟩
      rw [inTable, PyVal.getStr_append, Option.isSome_or, present]
      rfl

theorem addPair_inTable {base sub : Items} {name k : String} {explicit : List Key} {v : PyVal}
    (absent : PyVal.getStr name base = none) (fresh : PyVal.getStr k sub = none)
    (scalar : State.isContainer v = false) :
    (inTable base name sub explicit).addPair [k] v =
      some (inTable base name (sub ++ [(.str k, v)]) explicit) := by
  have root : atNest (insertNew k v) [name] (base ++ [(.str name, .dict sub)]) =
      some (base ++ [(.str name, .dict (sub ++ [(.str k, v)]))]) := by
    rw [atNest, getStr_concat absent]
    dsimp only
    rw [atNest, insertNew, fresh, assign_of_absent fresh, if_neg (by simp), Option.map_some,
      assign_append absent, assign, if_pos rfl]
  rw [State.addPair]
  simp [inTable, State.isFrozen, scalar, root]

/-- A line in brackets opens a table. -/
theorem statement_header {name : String} (bare : IsBareName name) (rest : List Char) :
    statement env s ('[' :: (name.toList ++ ']' :: '\n' :: rest)) =
      (s.openTable [name]).bind fun s => some (s, rest) := by
  have stop : (']' :: '\n' :: rest).dropWhile isBlank = ']' :: '\n' :: rest := rfl
  have read := @key_bareName name bare (']' :: '\n' :: rest)
    (by intro c hc; obtain rfl := Option.some.inj hc; decide)
    (by rw [stop]; simp)
  rw [stop] at read
  obtain ⟨c, cs, whole, first⟩ := exists_bareName bare
  have skip : (name.toList ++ ']' :: '\n' :: rest).dropWhile isBlank =
      name.toList ++ ']' :: '\n' :: rest := by
    rw [whole, List.cons_append, List.dropWhile_cons, isBlank_of_isBare first]
    rfl
  rw [statement.eq_def]
  split
  · next same => cases (List.cons.inj same).1
  · next same => cases (List.cons.inj same).1
  · next same =>
    rw [whole] at same
    rw [(List.cons.inj (List.cons.inj same).2).1] at first
    cases first
  · next same =>
    obtain rfl := (List.cons.inj same).2
    simp only [skip, read]
    rfl
  · next other => exact absurd rfl (other _)

/-- A pair on a line of its own. -/
def pairText (k : String) (v : PyVal) : List Char := k.toList ++ ' ' :: '=' :: ' ' :: spell v

def linesOf (pairs : List (String × PyVal)) : List Char :=
  pairs.flatMap fun e => pairText e.1 e.2 ++ ['\n']

/-- A table and its pairs, each on a line of its own. -/
def sectionText (name : String) (pairs : List (String × PyVal)) : List Char :=
  '[' :: (name.toList ++ ']' :: '\n' :: linesOf pairs)

def toItems (pairs : List (String × PyVal)) : Items := pairs.map fun e => (.str e.1, e.2)

/-- The pairs of a table that is read back. -/
structure PlainPairs (env : Env) (pairs : List (String × PyVal)) : Prop where
  names : (pairs.map Prod.fst).Nodup
  bare : ∀ e ∈ pairs, IsBareName e.1
  plain : ∀ e ∈ pairs, IsPlain env e.2

theorem getStr_toItems {k : String} {pairs : List (String × PyVal)}
    (absent : k ∉ pairs.map Prod.fst) : PyVal.getStr k (toItems pairs) = none := by
  induction pairs with
  | nil => rfl
  | cons e pairs ih =>
    rw [List.map_cons, List.mem_cons, not_or] at absent
    rw [toItems, List.map_cons, PyVal.getStr_cons, if_neg (Ne.symm absent.1)]
    exact ih absent.2

theorem spell_ne_nil {v : PyVal} (plain : IsPlain env v) : spell v ≠ [] := by
  cases v with
  | atom a =>
    cases a with
    | bool b => cases b <;> simp [spell]
    | int i =>
      obtain ⟨c, cs, whole, -⟩ := exists_spellInt i
      show spellInt i ≠ []
      rw [whole]
      exact List.cons_ne_nil c cs
    | str s => exact List.cons_ne_nil _ _
    | _ => cases plain
  | _ => cases plain

theorem run_pair {base sub : Items} {name k : String} {explicit : List Key} {v : PyVal}
    (absent : PyVal.getStr name base = none) (fresh : PyVal.getStr k sub = none)
    (bare : IsBareName k) (plain : IsPlain env v) (n : ℕ) (rest : List Char) :
    run env (n + 1) (inTable base name sub explicit) (pairText k v ++ '\n' :: rest) =
      run env n (inTable base name (sub ++ [(.str k, v)]) explicit) rest := by
  have start := @dropWhile_spell v (spell_ne_nil plain) ('\n' :: rest)
  have scalar : State.isContainer v = false := by
    cases v <;> first | rfl | cases plain
  have read := @statement_pair env (inTable base name sub explicit) k bare _ start
  obtain ⟨c, cs, whole, first⟩ := exists_bareName bare
  rw [pairText, List.append_assoc]
  simp only [List.cons_append]
  rw [whole] at read ⊢
  rw [List.cons_append] at read ⊢
  rw [run_of_first (isBlank_of_isBare first), read, value_spell plain, Option.bind_some,
    addPair_inTable absent fresh scalar]
  rfl

theorem run_pairs {base sub : Items} {name : String} {explicit : List Key}
    {pairs : List (String × PyVal)} (absent : PyVal.getStr name base = none)
    (fresh : ∀ e ∈ pairs, PyVal.getStr e.1 sub = none) (plain : PlainPairs env pairs) (n : ℕ)
    (rest : List Char) :
    run env (pairs.length + n) (inTable base name sub explicit) (linesOf pairs ++ rest) =
      run env n (inTable base name (sub ++ toItems pairs) explicit) rest := by
  induction pairs generalizing sub with
  | nil =>
    rw [toItems, List.map_nil, List.append_nil, List.length_nil, Nat.zero_add]
    rfl
  | cons e pairs ih =>
    obtain ⟨names, bare, plain⟩ := plain
    rw [List.forall_mem_cons] at fresh bare plain
    rw [List.map_cons, List.nodup_cons] at names
    have fresh' (e' : String × PyVal) (mem : e' ∈ pairs) :
        PyVal.getStr e'.1 (sub ++ [(.str e.1, e.2)]) = none := by
      have apart : e.1 ≠ e'.1 := by
        intro same
        exact names.1 (same ▸ List.mem_map_of_mem mem)
      rw [PyVal.getStr_append, fresh.2 e' mem, PyVal.getStr_cons, if_neg apart]
      rfl
    have shape : linesOf (e :: pairs) ++ rest =
        pairText e.1 e.2 ++ '\n' :: (linesOf pairs ++ rest) := by
      simp [linesOf]
    have count : (e :: pairs).length + n = (pairs.length + n) + 1 := by
      rw [List.length_cons]
      omega
    rw [shape, count, run_pair absent fresh.1 bare.1 plain.1, ih fresh' ⟨names.2, bare.2, plain.2⟩,
      List.append_assoc]
    rfl

theorem run_section (flat : s.Flat) {name : String} {pairs : List (String × PyVal)}
    (absent : PyVal.getStr name s.root = none) (bare : IsBareName name)
    (plain : PlainPairs env pairs) (n : ℕ) (rest : List Char) :
    run env (pairs.length + n + 1) s (sectionText name pairs ++ rest) =
      run env n (inTable s.root name (toItems pairs) ([name] :: s.explicit)) rest := by
  have shape : sectionText name pairs ++ rest =
      '[' :: (name.toList ++ ']' :: '\n' :: (linesOf pairs ++ rest)) := by
    simp [sectionText]
  rw [shape, run_of_first (by decide), statement_header bare, openTable_of_flat flat absent,
    Option.bind_some, Option.bind_some]
  exact run_pairs absent (fun _ _ => rfl) plain n rest

/-- Tables, and an empty line after each. -/
def documentText (tables : List (String × List (String × PyVal))) : List Char :=
  tables.flatMap fun t => sectionText t.1 t.2 ++ ['\n']

def toTables (tables : List (String × List (String × PyVal))) : Items :=
  tables.map fun t => (.str t.1, .dict (toItems t.2))

theorem getStr_toTables {name : String} {tables : List (String × List (String × PyVal))}
    (absent : name ∉ tables.map Prod.fst) : PyVal.getStr name (toTables tables) = none := by
  induction tables with
  | nil => rfl
  | cons t tables ih =>
    rw [List.map_cons, List.mem_cons, not_or] at absent
    rw [toTables, List.map_cons, PyVal.getStr_cons, if_neg (Ne.symm absent.1)]
    exact ih absent.2

/-- Tables that are read back. -/
structure PlainTables (env : Env) (tables : List (String × List (String × PyVal))) : Prop where
  names : (tables.map Prod.fst).Nodup
  bare : ∀ t ∈ tables, IsBareName t.1
  plain : ∀ t ∈ tables, PlainPairs env t.2

theorem length_le_length_linesOf (pairs : List (String × PyVal)) :
    pairs.length ≤ (linesOf pairs).length := by
  induction pairs with
  | nil => exact le_rfl
  | cons e pairs ih =>
    have shape : linesOf (e :: pairs) = pairText e.1 e.2 ++ '\n' :: linesOf pairs := by
      simp [linesOf]
    rw [shape, List.length_append, List.length_cons, List.length_cons]
    omega

theorem flat_start : State.Flat {} := ⟨rfl, rfl, fun _ mem => by cases mem⟩

theorem run_document (flat : s.Flat) {tables : List (String × List (String × PyVal))}
    (absent : ∀ t ∈ tables, PyVal.getStr t.1 s.root = none) (plain : PlainTables env tables) :
    ∃ lines ≤ (documentText tables).length, ∃ s', s'.Flat ∧ s'.root = s.root ++ toTables tables ∧
      ∀ n rest, run env (lines + n) s (documentText tables ++ rest) = run env n s' rest := by
  induction tables generalizing s with
  | nil =>
    refine ⟨0, le_rfl, s, flat, by rw [toTables, List.map_nil, List.append_nil], fun n rest => ?_⟩
    rw [Nat.zero_add]
    rfl
  | cons t tables ih =>
    obtain ⟨names, bare, plain⟩ := plain
    rw [List.forall_mem_cons] at absent bare plain
    rw [List.map_cons, List.nodup_cons] at names
    have flat' := flat_inTable flat absent.1 (toItems t.2)
    have absent' (t' : String × List (String × PyVal)) (mem : t' ∈ tables) :
        PyVal.getStr t'.1 (inTable s.root t.1 (toItems t.2) ([t.1] :: s.explicit)).root = none := by
      have apart : t.1 ≠ t'.1 := by
        intro same
        exact names.1 (same ▸ List.mem_map_of_mem mem)
      rw [inTable, PyVal.getStr_append, absent.2 t' mem, PyVal.getStr_cons, if_neg apart]
      rfl
    obtain ⟨lines, few, s', flat', whole, read⟩ := ih flat' absent' ⟨names.2, bare.2, plain.2⟩
    refine ⟨t.2.length + 2 + lines, ?_, s', flat', ?_, fun n rest => ?_⟩
    · have pairs := length_le_length_linesOf t.2
      simp only [documentText, sectionText, List.flatMap_cons, List.length_append, List.length_cons,
        List.length_nil] at few ⊢
      omega
    · rw [whole, inTable, List.append_assoc]
      rfl
    · have shape : documentText (t :: tables) ++ rest =
          sectionText t.1 t.2 ++ '\n' :: (documentText tables ++ rest) := by
        simp [documentText]
      have count : t.2.length + 2 + lines + n = t.2.length + (lines + n + 1) + 1 := by omega
      rw [shape, count, run_section flat absent.1 bare.1 plain.1, ← read]
      rfl

theorem unixLines_of_not_mem {cs : List Char} (absent : '\r' ∉ cs) : unixLines cs = cs := by
  induction cs with
  | nil => rfl
  | cons c cs ih =>
    rw [List.mem_cons, not_or] at absent
    rw [unixLines.eq_def]
    split
    · next same => exact absurd (List.cons.inj same).1.symm absent.1
    · next same =>
      obtain ⟨rfl, rfl⟩ := List.cons.inj same
      rw [ih absent.2]
    · next same => cases same

theorem loads_ofList {cs : List Char} (absent : '\r' ∉ cs) :
    loads env (String.ofList cs) = (run env (cs.length + 1) {} cs).map State.root := by
  rw [loads, String.toList_ofList, unixLines_of_not_mem absent]

/-! ### Plain text has no carriage return -/

theorem not_mem_spell {v : PyVal} (plain : IsPlain env v) : '\r' ∉ spell v := by
  cases v with
  | atom a =>
    cases a with
    | bool b => cases b <;> simp [spell]
    | int i =>
      have digits : '\r' ∉ Nat.toDigits 10 i.natAbs := fun mem =>
        absurd (Nat.isDigit_of_mem_toDigits (by decide) (by decide) mem) (by decide)
      show '\r' ∉ spellInt i
      rw [spellInt]
      split_ifs <;> simp [digits]
    | str s =>
      have plain : ∀ c ∈ s.toList, isPlain c := plain
      have absent : '\r' ∉ s.toList := fun mem => absurd (plain _ mem) (by decide)
      simp [spell, absent]
    | _ => cases plain
  | _ => cases plain

theorem not_mem_bareName {name : String} (bare : IsBareName name) : '\r' ∉ name.toList :=
  fun mem => absurd (bare.2 _ mem) (by decide)

theorem not_mem_sectionText {name : String} {pairs : List (String × PyVal)} (bare : IsBareName name)
    (plain : PlainPairs env pairs) : '\r' ∉ sectionText name pairs := by
  have lines : '\r' ∉ linesOf pairs := by
    rw [linesOf, List.mem_flatMap]
    rintro ⟨e, mem, inLine⟩
    have key := not_mem_bareName (plain.bare e mem)
    have value := not_mem_spell (plain.plain e mem)
    simp [pairText, key, value] at inLine
  have header := not_mem_bareName bare
  simp [sectionText, lines, header]

theorem not_mem_documentText {tables : List (String × List (String × PyVal))}
    (plain : PlainTables env tables) : '\r' ∉ documentText tables := by
  rw [documentText, List.mem_flatMap]
  rintro ⟨t, mem, inSection⟩
  have absent := not_mem_sectionText (plain.bare t mem) (plain.plain t mem)
  simp [absent] at inSection

/-- The tables before the last one, and the last one. -/
theorem PlainTables.split {tables : List (String × List (String × PyVal))} {name : String}
    {pairs : List (String × PyVal)} (plain : PlainTables env (tables ++ [(name, pairs)])) :
    PlainTables env tables ∧ name ∉ tables.map Prod.fst ∧ IsBareName name ∧
      PlainPairs env pairs := by
  obtain ⟨names, bare, plain⟩ := plain
  rw [List.forall_mem_append] at bare plain
  rw [List.map_append, List.nodup_append] at names
  refine ⟨⟨names.1, bare.1, plain.1⟩, fun mem => ?_, bare.2 (name, pairs) List.mem_cons_self,
    plain.2 (name, pairs) List.mem_cons_self⟩
  exact names.2.2 name mem name (by simp) rfl

theorem not_mem_text {tables : List (String × List (String × PyVal))} {name : String}
    {pairs : List (String × PyVal)} (plain : PlainTables env (tables ++ [(name, pairs)])) :
    '\r' ∉ documentText tables ++ sectionText name pairs := by
  obtain ⟨before, -, bare, last⟩ := plain.split
  simp [not_mem_documentText before, not_mem_sectionText bare last]

/-- Tables of plain pairs are read back. -/
theorem loads_document {tables : List (String × List (String × PyVal))} {name : String}
    {pairs : List (String × PyVal)} (plain : PlainTables env (tables ++ [(name, pairs)])) :
    loads env (String.ofList (documentText tables ++ sectionText name pairs)) =
      some (toTables (tables ++ [(name, pairs)])) := by
  obtain ⟨before, other, bareLast, plainLast⟩ := plain.split
  obtain ⟨lines, few, s', flat, whole, read⟩ := run_document flat_start (fun _ _ => rfl) before
  have new : PyVal.getStr name s'.root = none := by
    rw [whole]
    exact getStr_toTables other
  have long := length_le_length_linesOf pairs
  have enough : lines + (pairs.length + 2) ≤
      (documentText tables ++ sectionText name pairs).length + 1 := by
    simp only [sectionText, List.length_append, List.length_cons]
    omega
  obtain ⟨n, count⟩ := Nat.exists_eq_add_of_le enough
  have fuel : (documentText tables ++ sectionText name pairs).length + 1 =
      lines + (pairs.length + (n + 1) + 1) := by omega
  have last := run_section flat new bareLast plainLast (n + 1) []
  rw [List.append_nil] at last
  rw [loads_ofList (not_mem_text plain), fuel, read, last, run]
  show some (s'.root ++ [(.str name, .dict (toItems pairs))]) = _
  rw [whole, toTables, toTables, List.map_append]
  rfl

/-! ## A string between two quotes -/

/-- An `=` comes before the first quote, if there is a quote. -/
def Guarded (cs : List Char) : Prop :=
  ∃ k more, cs = k ++ more ∧ '"' ∉ k ∧ (more = [] ∨ ∃ m, more = '=' :: m)

/-- What stands between two quotes, at the end of its line, is read as a string, which is not what
was to be spelled unless that is plain.  The text has `u'` for it: some newlines may have been read
as one. -/
theorem value_between {u u' later : List Char} (length : u'.length ≤ u.length)
    (count : u'.count '=' = u.count '=') (guarded : Guarded later) {v : PyVal} {rest : List Char}
    (read : value env ('"' :: (u' ++ '"' :: '\n' :: later)) = some (v, rest)) :
    ∃ w, v = .str (String.ofList w) ∧ (w = u → ∀ c ∈ u, isPlain c) := by
  obtain ⟨k, more, rfl, noQuote, stop⟩ := guarded
  by_cases three : ['"', '"'] <+: u' ++ '"' :: '\n' :: (k ++ more)
  · obtain ⟨cs, whole⟩ := three
    rw [← whole] at read
    have read : (multiline cs).map text = some (v, rest) := read
    obtain ⟨⟨w, rest'⟩, inner, same⟩ := Option.map_eq_some_iff.1 read
    refine ⟨w, (Prod.mk.inj same).1.symm, ?_⟩
    rintro rfl
    obtain ⟨taken, rfl, last, long, noEq⟩ := multiline_consumes inner
    -- the string reaches into the next key, and so over the `=` behind it
    have start : u' ++ ['"', '\n'] <+: '"' :: '"' :: taken := by
      have line : u' ++ ['"', '\n'] <+: ['"', '"'] ++ (taken ++ rest') := by
        rw [whole]
        exact ⟨k ++ more, by simp⟩
      refine List.prefix_of_prefix_length_le line ⟨rest', rfl⟩ ?_
      simp only [List.length_append, List.length_cons, List.length_nil]
      omega
    obtain ⟨inNext, shape⟩ := start
    have next : inNext ++ rest' = k ++ more := by
      have : u' ++ ['"', '\n'] ++ (inNext ++ rest') = u' ++ ['"', '\n'] ++ (k ++ more) := by
        rw [← List.append_assoc, shape]
        simpa using whole
      exact List.append_cancel_left this
    have sizes := congrArg List.length shape
    simp only [List.length_append, List.length_cons, List.length_nil] at sizes
    have quote : '"' ∈ inNext := by
      have atEnd := congrArg List.getLast? shape
      rw [List.getLast?_append, List.getLast?_cons_cons, List.getLast?_cons, last] at atEnd
      cases ending : inNext.getLast? with
      | none =>
        rw [List.getLast?_eq_none_iff.1 ending, List.length_nil] at sizes
        omega
      | some c =>
        rw [ending] at atEnd
        obtain rfl : c = '"' := Option.some.inj atEnd
        exact List.mem_of_getLast? ending
    obtain rfl | ⟨m, rfl⟩ := stop
    · have mem : '"' ∈ k ++ [] := next ▸ List.mem_append_left rest' quote
      rw [List.append_nil] at mem
      exact absurd mem noQuote
    · have key : k ++ ['='] <+: k ++ '=' :: m := ⟨m, by simp⟩
      rcases List.prefix_or_prefix_of_prefix ⟨rest', next⟩ key with short | ⟨further, rfl⟩
      · have mem := short.subset quote
        simp [noQuote] at mem
      · have counts := congrArg (List.count '=') shape
        simp at counts
        omega
  · rw [value_quote three] at read
    obtain ⟨⟨w, rest'⟩, inner, same⟩ := Option.map_eq_some_iff.1 read
    refine ⟨w, (Prod.mk.inj same).1.symm, ?_⟩
    rintro rfl
    obtain ⟨taken, whole, spelled⟩ := basic_consumes inner
    have long : w.length + 1 ≤ taken.length := spelled.length
    -- the string ends on this line, and so at the quote behind the text
    have start : u' ++ ['"'] <+: taken := by
      have line : u' ++ ['"'] <+: taken ++ rest' := by
        rw [← whole]
        exact ⟨'\n' :: (k ++ more), by simp⟩
      refine List.prefix_of_prefix_length_le line ⟨rest', rfl⟩ ?_
      simp only [List.length_append, List.length_cons, List.length_nil]
      omega
    obtain ⟨beyond, rfl⟩ := start
    have next : beyond ++ rest' = '\n' :: (k ++ more) := by
      have : u' ++ ['"'] ++ (beyond ++ rest') = u' ++ ['"'] ++ '\n' :: (k ++ more) := by
        simpa using whole.symm
      exact List.append_cancel_left this
    have noLine := spelled.line rfl
    cases beyond with
    | nil =>
      refine (spelled.itself rfl ?_).2
      simp only [List.length_append, List.length_cons, List.length_nil] at long ⊢
      omega
    | cons c beyond =>
      rw [(List.cons.inj next).1] at noLine
      exact absurd (by simp) noLine

/-- A pair whose value stands between two quotes puts a string at its key, for good. -/
theorem exists_string_of_run {base sub : Items} {name key : String} {explicit : List Key}
    {u u' later : List Char} (absent : PyVal.getStr name base = none)
    (fresh : PyVal.getStr key sub = none) (bare : IsBareName key) (length : u'.length ≤ u.length)
    (count : u'.count '=' = u.count '=') (guarded : Guarded later) {n : ℕ}
    (read : run env n (inTable base name sub explicit) (key.toList ++ ' ' :: '=' :: ' ' :: '"' ::
      (u' ++ '"' :: '\n' :: later)) = some s') :
    ∃ w, s'.Has [name, key] (.str (String.ofList w)) ∧ (w = u → ∀ c ∈ u, isPlain c) := by
  cases n with
  | zero => cases read
  | succ n =>
    have pair := @statement_pair env (inTable base name sub explicit) key bare
      ('"' :: (u' ++ '"' :: '\n' :: later)) rfl
    obtain ⟨c, cs, whole, first⟩ := exists_bareName bare
    rw [whole, List.cons_append] at read pair
    rw [run_of_first (isBlank_of_isBare first), pair] at read
    obtain ⟨⟨s₁, rest⟩, read, later⟩ := Option.bind_eq_some_iff.1 read
    obtain ⟨⟨v, rest'⟩, between, read⟩ := Option.bind_eq_some_iff.1 read
    obtain ⟨w, rfl, plain⟩ := value_between length count guarded between
    rw [addPair_inTable absent fresh rfl, Option.bind_some] at read
    obtain ⟨rest'', -, read⟩ := Option.map_eq_some_iff.1 read
    obtain ⟨rfl, rfl⟩ := Prod.mk.inj read
    refine ⟨w, State.Has.run ?_ later, plain⟩
    show lookup [name, key] (.dict (base ++ [(.str name, .dict _)])) = _
    rw [lookup_cons_dict, getStr_concat absent, Option.bind_some, lookup_cons_dict,
      getStr_concat fresh]
    rfl

/-- Plain tables, and the first lines of another, up to a pair whose value stands between two
quotes. -/
theorem exists_string_of_loads {tables : List (String × List (String × PyVal))}
    {name key : String} {pairs : List (String × PyVal)} {u u' later : List Char}
    (before : PlainTables env tables) (other : name ∉ tables.map Prod.fst)
    (bareName : IsBareName name) (plain : PlainPairs env pairs)
    (bare : IsBareName key) (fresh : key ∉ pairs.map Prod.fst) (length : u'.length ≤ u.length)
    (count : u'.count '=' = u.count '=') (guarded : Guarded later) {cs : List Char}
    (shape : cs = documentText tables ++ (sectionText name pairs ++ (key.toList ++ ' ' :: '=' ::
      ' ' :: '"' :: (u' ++ '"' :: '\n' :: later))))
    (absent : '\r' ∉ cs) {root : Items} (read : loads env (String.ofList cs) = some root) :
    ∃ w, lookup [name, key] (.dict root) = some (.str (String.ofList w)) ∧
      (w = u → ∀ c ∈ u, isPlain c) := by
  obtain ⟨lines, few, s₁, flat, whole, start⟩ :=
    run_document flat_start (fun _ _ => rfl) before
  have new : PyVal.getStr name s₁.root = none := by
    rw [whole]
    exact getStr_toTables other
  rw [loads_ofList absent] at read
  obtain ⟨s', ran, rfl⟩ := Option.map_eq_some_iff.1 read
  have enough : lines + (pairs.length + 1) ≤ cs.length + 1 := by
    have pairs := length_le_length_linesOf pairs
    rw [shape]
    simp only [sectionText, List.length_append, List.length_cons]
    omega
  obtain ⟨n, size⟩ := Nat.exists_eq_add_of_le enough
  have count' : cs.length + 1 = lines + (pairs.length + n + 1) := by omega
  rw [count', shape, start, run_section flat new bareName plain] at ran
  exact exists_string_of_run new (getStr_toItems fresh) bare length count guarded ran

/-! ## Files -/

/-- Tables that come after another. -/
def following (tables : List (String × List (String × PyVal))) : List Char :=
  tables.flatMap fun t => '\n' :: sectionText t.1 t.2

/-- The text of tables, the last of which is followed by nothing. -/
def fileText : List (String × List (String × PyVal)) → List Char
  | [] => []
  | t :: tables => sectionText t.1 t.2 ++ following tables

theorem fileText_append (tables : List (String × List (String × PyVal)))
    (t : String × List (String × PyVal)) (later : List (String × List (String × PyVal))) :
    fileText (tables ++ t :: later) =
      documentText tables ++ (sectionText t.1 t.2 ++ following later) := by
  induction tables with
  | nil => rfl
  | cons t' tables ih =>
    have next : following (tables ++ t :: later) = '\n' :: fileText (tables ++ t :: later) := by
      cases tables <;> rfl
    rw [List.cons_append, fileText, next, ih]
    simp [documentText]

theorem Guarded.prepend {cs : List Char} (h : Guarded cs) {before : List Char}
    (noQuote : '"' ∉ before) : Guarded (before ++ cs) := by
  obtain ⟨k, more, rfl, none, stop⟩ := h
  exact ⟨before ++ k, more, (List.append_assoc ..).symm, by simp [noQuote, none], stop⟩

theorem guarded_universalNewlines {cs : List Char} (h : Guarded cs) :
    Guarded (universalNewlines cs) := by
  obtain ⟨k, more, rfl, noQuote, stop⟩ := h
  have noQuote' : '"' ∉ universalNewlines k := by
    rw [← List.count_eq_zero, count_universalNewlines (by decide) (by decide)]
    exact List.count_eq_zero.2 noQuote
  obtain rfl | ⟨m, rfl⟩ := stop
  · refine ⟨universalNewlines k, [], ?_, noQuote', .inl rfl⟩
    rw [List.append_nil, List.append_nil]
  · refine ⟨universalNewlines k, '=' :: universalNewlines m, ?_, noQuote', .inr ⟨_, rfl⟩⟩
    rw [universalNewlines_append (by simp)]
    exact congrArg _ (@universalNewlines_of_not_mem ['='] (by decide) m)

theorem noQuote_of_bareName {name : String} (bare : IsBareName name) : '"' ∉ name.toList :=
  fun mem => absurd (bare.2 _ mem) (by decide)

/-- Tables whose strings stand between quotes as they are, and so need not be read back. -/
structure QuotedTables (env : Env) (tables : List (String × List (String × PyVal))) : Prop where
  names : (tables.map Prod.fst).Nodup
  bare : ∀ t ∈ tables, IsBareName t.1
  keys : ∀ t ∈ tables, (t.2.map Prod.fst).Nodup
  bareKeys : ∀ t ∈ tables, ∀ e ∈ t.2, IsBareName e.1
  values : ∀ t ∈ tables, ∀ e ∈ t.2, IsPlain env e.2 ∨ ∃ s, e.2 = .str s

theorem guarded_linesOf {pairs : List (String × PyVal)} {rest : List Char}
    (bare : ∀ e ∈ pairs, IsBareName e.1) (h : Guarded rest) : Guarded (linesOf pairs ++ rest) := by
  cases pairs with
  | nil => exact h
  | cons e pairs =>
    refine ⟨e.1.toList ++ [' '], '=' :: (' ' :: spell e.2 ++ '\n' :: (linesOf pairs ++ rest)), ?_,
      ?_, .inr ⟨_, rfl⟩⟩
    · simp [linesOf, pairText]
    · rw [List.mem_append, not_or]
      exact ⟨noQuote_of_bareName (bare e List.mem_cons_self), by decide⟩

theorem guarded_following {tables : List (String × List (String × PyVal))}
    (bare : ∀ t ∈ tables, IsBareName t.1) (bareKeys : ∀ t ∈ tables, ∀ e ∈ t.2, IsBareName e.1) :
    Guarded (following tables) := by
  induction tables with
  | nil => exact ⟨[], [], rfl, List.not_mem_nil, .inl rfl⟩
  | cons t tables ih =>
    rw [List.forall_mem_cons] at bare bareKeys
    have lines := guarded_linesOf bareKeys.1 (ih bare.2 bareKeys.2)
    have header : '"' ∉ '\n' :: '[' :: (t.1.toList ++ [']', '\n']) := by
      simp [noQuote_of_bareName bare.1]
    have whole : following (t :: tables) =
        ('\n' :: '[' :: (t.1.toList ++ [']', '\n'])) ++ (linesOf t.2 ++ following tables) := by
      simp [following, sectionText]
    rw [whole]
    exact lines.prepend header

namespace QuotedTables

variable {tables done : List (String × List (String × PyVal))} {name key : String}
  {before after pairs : List (String × PyVal)} {v : PyVal}

theorem plainTables (quoted : QuotedTables env tables)
    (plain : ∀ t ∈ tables, ∀ e ∈ t.2, IsPlain env e.2) : PlainTables env tables :=
  ⟨quoted.names, quoted.bare, fun t mem => ⟨quoted.keys t mem, quoted.bareKeys t mem, plain t mem⟩⟩

theorem of_append (quoted : QuotedTables env (done ++ tables)) : QuotedTables env done where
  names := by
    have names := quoted.names
    rw [List.map_append] at names
    exact names.of_append_left
  bare t mem := quoted.bare t (List.mem_append_left _ mem)
  keys t mem := quoted.keys t (List.mem_append_left _ mem)
  bareKeys t mem := quoted.bareKeys t (List.mem_append_left _ mem)
  values t mem := quoted.values t (List.mem_append_left _ mem)

/-- After plain tables and plain pairs, a value that is read as it was spelled is plain. -/
theorem isPlain_of_read
    (quoted : QuotedTables env (done ++ (name, before ++ (key, v) :: after) :: tables))
    (plain : ∀ t ∈ done, ∀ e ∈ t.2, IsPlain env e.2) (plainBefore : ∀ e ∈ before, IsPlain env e.2)
    {root : Items} (read : loads env (String.ofList (universalNewlines
      (fileText (done ++ (name, before ++ (key, v) :: after) :: tables)))) = some root)
    (back : IsPlain env v ∨ lookup [name, key] (.dict root) = some v) : IsPlain env v := by
  have here : (name, before ++ (key, v) :: after) ∈
    done ++ (name, before ++ (key, v) :: after) :: tables := by simp
  have mem : (key, v) ∈ before ++ (key, v) :: after := by simp
  have keys := quoted.keys _ here
  have bareKeys := quoted.bareKeys _ here
  have names := quoted.names
  rw [List.map_append, List.map_cons] at keys names
  obtain already | ⟨u, rfl⟩ := quoted.values _ here _ mem
  · exact already
  obtain already | back := back
  · exact already
  have start := quoted.of_append.plainTables plain
  have pairs : PlainPairs env before :=
    ⟨keys.of_append_left, fun e he => bareKeys e (List.mem_append_left _ he), plainBefore⟩
  have bareName := quoted.bare _ here
  have bare := bareKeys _ mem
  have later : Guarded (linesOf after ++ following tables) :=
    guarded_linesOf (fun e he => bareKeys e (by simp [he]))
      (guarded_following (fun t ht => quoted.bare t (by simp [ht]))
        fun t ht => quoted.bareKeys t (by simp [ht]))
  have shape : universalNewlines
      (fileText (done ++ (name, before ++ (key, .str u) :: after) :: tables)) =
        documentText done ++ (sectionText name before ++ (key.toList ++ ' ' :: '=' :: ' ' :: '"' ::
          (universalNewlines u.toList ++
            '"' :: '\n' :: universalNewlines (linesOf after ++ following tables)))) := by
    have spelled : fileText (done ++ (name, before ++ (key, .str u) :: after) :: tables) =
        (documentText done ++ sectionText name before ++ key.toList ++ [' ', '=', ' ', '"']) ++
          (u.toList ++ (['"', '\n'] ++ (linesOf after ++ following tables))) := by
      rw [fileText_append]
      simp [sectionText, linesOf, pairText, spell]
    rw [spelled, universalNewlines_of_not_mem (by simp [not_mem_documentText start,
        not_mem_sectionText bareName pairs, not_mem_bareName bare]),
      universalNewlines_append (by simp), universalNewlines_of_not_mem (by simp)]
    simp
  obtain ⟨w, found, only⟩ := exists_string_of_loads start
    (fun there => List.nodup_append.1 names |>.2.2 _ there _ List.mem_cons_self rfl) bareName pairs
    bare (fun there => List.nodup_append.1 keys |>.2.2 _ there _ List.mem_cons_self rfl)
    (length_universalNewlines_le u.toList)
    (count_universalNewlines (by decide) (by decide) u.toList)
    (guarded_universalNewlines later) shape (not_mem_universalNewlines _) read
  refine only ?_
  have same : u = String.ofList w := by simpa using back.symm.trans found
  rw [same, String.toList_ofList]

/-- Tables all whose values are plain, or read as they were spelled, are plain. -/
theorem plainTables_of_read (quoted : QuotedTables env tables) {root : Items}
    (read : loads env (String.ofList (universalNewlines (fileText tables))) = some root)
    (back : ∀ t ∈ tables, ∀ e ∈ t.2,
      IsPlain env e.2 ∨ lookup [t.1, e.1] (.dict root) = some e.2) : PlainTables env tables := by
  refine quoted.plainTables ?_
  -- the tables in front are plain, and of the next the pairs in front
  suffices steps : ∀ todo done, tables = done ++ todo → (∀ t ∈ done, ∀ e ∈ t.2, IsPlain env e.2) →
      ∀ t ∈ tables, ∀ e ∈ t.2, IsPlain env e.2 from
    steps tables [] rfl (fun _ mem => nomatch mem)
  intro todo
  induction todo with
  | nil =>
    intro done split plain
    rwa [split, List.append_nil]
  | cons t todo ih =>
    intro done split plain
    obtain ⟨name, pairs⟩ := t
    suffices own : ∀ rest before, pairs = before ++ rest → (∀ e ∈ before, IsPlain env e.2) →
        ∀ e ∈ pairs, IsPlain env e.2 by
      refine ih (done ++ [(name, pairs)]) (by rw [split]; simp) ?_
      rw [List.forall_mem_append, List.forall_mem_singleton]
      exact ⟨plain, own pairs [] rfl fun _ mem => nomatch mem⟩
    intro rest
    induction rest with
    | nil =>
      intro before whole plainBefore
      rwa [whole, List.append_nil]
    | cons e rest inner =>
      intro before whole plainBefore
      obtain ⟨key, v⟩ := e
      refine inner (before ++ [(key, v)]) (by rw [whole]; simp) ?_
      rw [List.forall_mem_append, List.forall_mem_singleton]
      subst whole split
      exact ⟨plainBefore, quoted.isPlain_of_read plain plainBefore read
        (back (name, before ++ (key, v) :: rest) (by simp) (key, v) (by simp))⟩

end QuotedTables

/-! ## What a file of plain tables has -/

theorem getStr_toItems_of_mem {key : String} {v : PyVal} {pairs : List (String × PyVal)}
    (keys : (pairs.map Prod.fst).Nodup) (mem : (key, v) ∈ pairs) :
    PyVal.getStr key (toItems pairs) = some v := by
  induction pairs with
  | nil => cases mem
  | cons e pairs ih =>
    rw [List.map_cons, List.nodup_cons] at keys
    rw [toItems, List.map_cons, PyVal.getStr_cons]
    obtain rfl | mem := List.mem_cons.1 mem
    · exact if_pos rfl
    · rw [if_neg fun same => keys.1 (List.mem_map.2 ⟨_, mem, same.symm⟩)]
      exact ih keys.2 mem

theorem getStr_toTables_of_mem {name : String} {pairs : List (String × PyVal)}
    {tables : List (String × List (String × PyVal))} (names : (tables.map Prod.fst).Nodup)
    (mem : (name, pairs) ∈ tables) :
    PyVal.getStr name (toTables tables) = some (.dict (toItems pairs)) := by
  induction tables with
  | nil => cases mem
  | cons t tables ih =>
    rw [List.map_cons, List.nodup_cons] at names
    rw [toTables, List.map_cons, PyVal.getStr_cons]
    obtain rfl | mem := List.mem_cons.1 mem
    · exact if_pos rfl
    · rw [if_neg fun same => names.1 (List.mem_map.2 ⟨_, mem, same.symm⟩)]
      exact ih names.2 mem

/-- A file of plain tables, read as text. -/
theorem loads_file {tables : List (String × List (String × PyVal))} {name : String}
    {pairs : List (String × PyVal)} (plain : PlainTables env (tables ++ [(name, pairs)])) :
    loads env (String.ofList (universalNewlines (documentText tables ++ sectionText name pairs))) =
      some (toTables (tables ++ [(name, pairs)])) := by
  have same := universalNewlines_of_not_mem (not_mem_text plain) []
  rw [List.append_nil] at same
  rw [same]
  show loads env (String.ofList (_ ++ [])) = _
  rw [List.append_nil, loads_document plain]

theorem loads_fileText {tables : List (String × List (String × PyVal))} {name : String}
    {pairs : List (String × PyVal)} (plain : PlainTables env (tables ++ [(name, pairs)])) :
    loads env (String.ofList (universalNewlines (fileText (tables ++ [(name, pairs)])))) =
      some (toTables (tables ++ [(name, pairs)])) := by
  rw [fileText_append, following, List.flatMap_nil, List.append_nil, loads_file plain]

end Toml
