import Cpip.Python.Json

/-!
# Text

`str.encode` in UTF-8, what is read back from a file of text, `repr` of a `bytes` object, which is
what `str` gives for one, `str.strip`, `str.replace` with nothing, and the splits of a dotted name.
-/

/-- The characters that `str.strip` strips. -/
def isPySpace (c : Char) : Bool :=
  let n := c.toNat
  (9 ≤ n ∧ n ≤ 13) ∨ (28 ≤ n ∧ n ≤ 32) ∨ n = 0x85 ∨ n = 0xa0 ∨ n = 0x1680 ∨
    (0x2000 ≤ n ∧ n ≤ 0x200a) ∨ n = 0x2028 ∨ n = 0x2029 ∨ n = 0x202f ∨ n = 0x205f ∨ n = 0x3000

/-- `s.strip()`. -/
def pyStrip (s : String) : String :=
  String.ofList (((s.toList.dropWhile isPySpace).reverse.dropWhile isPySpace).reverse)

/-- `s.split(".")`. -/
def splitDots (s : String) : List String := (s.toList.splitOn '.').map String.ofList

/-- `".".join(parts)`. -/
def joinDots (parts : List String) : String := ".".intercalate parts

/-- `s.rsplit(".", 1)`, when it has two parts. -/
def rsplitDot (s : String) : Option (String × String) :=
  let parts := splitDots s
  if parts.length < 2 then none else some (joinDots parts.dropLast, parts.getLast?.getD "")

theorem splitDots_ne_nil (s : String) : splitDots s ≠ [] := by
  simp [splitDots]

@[simp]
theorem joinDots_splitDots (s : String) : joinDots (splitDots s) = s := by
  apply String.toList_injective
  have pieces : (splitDots s).map String.toList = s.toList.splitOn '.' := by
    simp [splitDots, Function.comp_def]
  rw [joinDots, String.toList_intercalate, pieces]
  exact List.intercalate_splitOn '.'

/-- A component is appended after a dot. -/
theorem joinDots_concat {parts : List String} (nonempty : parts ≠ []) (part : String) :
    joinDots (parts ++ [part]) = joinDots parts ++ "." ++ part := by
  rw [joinDots, String.intercalate_append_of_ne_nil nonempty (List.cons_ne_nil part []),
    String.intercalate_singleton, joinDots]

/-- Components without a dot are found again. -/
theorem splitDots_joinDots {parts : List String} (nonempty : parts ≠ [])
    (noDot : ∀ part ∈ parts, '.' ∉ part.toList) : splitDots (joinDots parts) = parts := by
  have split : (joinDots parts).toList.splitOn '.' = parts.map String.toList := by
    rw [joinDots, String.toList_intercalate]
    apply List.splitOn_intercalate
    · intro piece hpiece
      obtain ⟨part, hpart, rfl⟩ := List.mem_map.1 hpiece
      exact noDot part hpart
    · simpa using nonempty
  rw [splitDots, split, List.map_map]
  simp

theorem rsplitDot_joinDots {parts : List String} (noDot : ∀ part ∈ parts, '.' ∉ part.toList)
    (two : 2 ≤ parts.length) :
    rsplitDot (joinDots parts) = some (joinDots parts.dropLast, parts.getLast?.getD "") := by
  have nonempty : parts ≠ [] := by
    rintro rfl
    simp at two
  simp only [rsplitDot, splitDots_joinDots nonempty noDot]
  rw [if_neg (by omega)]

/-- `s.replace(old, "")`, when the next `skip` characters belong to an occurrence. -/
def dropAll (old : List Char) : ℕ → List Char → List Char
  | _, [] => []
  | skip + 1, _ :: s => dropAll old skip s
  | 0, c :: s => if old <+: c :: s then dropAll old (old.length - 1) s else c :: dropAll old 0 s

/-- `s.replace(old, "")`, for an `old` that is not empty. -/
def pyRemove (old s : String) : String := String.ofList (dropAll old.toList 0 s.toList)

theorem length_dropAll_le (old : List Char) (skip : ℕ) (s : List Char) :
    (dropAll old skip s).length ≤ s.length := by
  induction s generalizing skip with
  | nil => cases skip <;> exact le_rfl
  | cons c s ih =>
    cases skip with
    | succ skip => exact (ih skip).trans (Nat.le_succ _)
    | zero =>
      rw [dropAll]
      split_ifs
      · exact (ih _).trans (Nat.le_succ _)
      · exact Nat.succ_le_succ (ih 0)

theorem length_dropAll_lt {old s : List Char} (nonempty : old ≠ []) (h : old <:+: s) :
    (dropAll old 0 s).length < s.length := by
  induction s with
  | nil => exact absurd (List.infix_nil.1 h) nonempty
  | cons c s ih =>
    rw [dropAll]
    split_ifs with here
    · exact Nat.lt_succ_of_le (length_dropAll_le old _ s)
    · exact Nat.succ_lt_succ (ih ((List.infix_cons_iff.1 h).resolve_left here))

/-- Nothing is taken out of the text exactly when the pattern does not occur in it. -/
theorem dropAll_eq_self_iff {old s : List Char} (nonempty : old ≠ []) :
    dropAll old 0 s = s ↔ ¬ old <:+: s := by
  constructor
  · intro same occurs
    have shorter := length_dropAll_lt nonempty occurs
    rw [same] at shorter
    omega
  · intro absent
    induction s with
    | nil => rfl
    | cons c s ih =>
      rw [List.infix_cons_iff, not_or] at absent
      rw [dropAll, if_neg absent.1, ih absent.2]

theorem dropAll_of_length_le {old s : List Char} {skip : ℕ} (h : s.length ≤ skip) :
    dropAll old skip s = [] := by
  induction s generalizing skip with
  | nil => cases skip <;> rfl
  | cons c s ih =>
    rw [List.length_cons] at h
    cases skip with
    | zero => omega
    | succ skip => exact ih (by omega)

/-- A pattern that starts with a character that it does not have again is taken off the end. -/
theorem dropAll_append {c : Char} {rest s : List Char} (once : c ∉ rest) {skip : ℕ}
    (h : skip ≤ s.length) :
    dropAll (c :: rest) skip (s ++ c :: rest) = dropAll (c :: rest) skip s := by
  induction s generalizing skip with
  | nil =>
    obtain rfl : skip = 0 := by simpa using h
    show dropAll (c :: rest) 0 (c :: rest) = []
    rw [dropAll, if_pos (List.prefix_refl _)]
    exact dropAll_of_length_le (by simp)
  | cons x s ih =>
    cases skip with
    | succ skip => exact ih (by simpa using h)
    | zero =>
      -- an occurrence that runs into the end would have the first character twice
      have within : c :: rest <+: x :: s ++ c :: rest → c :: rest <+: x :: s := by
        intro occurs
        rcases Nat.le_total (c :: rest).length (x :: s).length with short | long
        · exact List.prefix_of_prefix_length_le occurs (List.prefix_append ..) short
        · obtain ⟨u, hu⟩ := List.prefix_of_prefix_length_le (List.prefix_append ..) occurs long
          cases u with
          | nil => exact ⟨[], by simpa using hu.symm⟩
          | cons y u =>
            have tail : s ++ y :: u = rest := (List.cons.inj hu).2
            have same : y = c := by
              rw [← hu, List.prefix_append_right_inj, hu] at occurs
              exact (List.cons_prefix_cons.1 occurs).1
            exact absurd (by rw [← tail, same]; simp) once
      rw [List.cons_append] at within ⊢
      rw [dropAll, dropAll]
      by_cases occurs : c :: rest <+: x :: s
      · have fits := occurs.length_le
        have further : c :: rest <+: x :: (s ++ c :: rest) :=
          occurs.trans (List.prefix_append (x :: s) (c :: rest))
        rw [if_pos occurs, if_pos further, ih]
        simpa using fits
      · rw [if_neg occurs, if_neg fun h => occurs (within h), ih (Nat.zero_le _)]

theorem pyRemove_append {c : Char} {rest : List Char} (once : c ∉ rest) (s : String) :
    pyRemove (String.ofList (c :: rest)) (s ++ String.ofList (c :: rest)) =
      pyRemove (String.ofList (c :: rest)) s := by
  rw [pyRemove, pyRemove, String.toList_append, String.toList_ofList,
    dropAll_append once (Nat.zero_le _)]

theorem pyRemove_eq_self_iff {old s : String} (nonempty : old ≠ "") :
    pyRemove old s = s ↔ ¬ old.toList <:+: s.toList := by
  rw [← dropAll_eq_self_iff (fun h => nonempty (String.toList_eq_nil_iff.1 h)),
    ← String.toList_inj, pyRemove, String.toList_ofList]

theorem length_pyRemove_le (old s : String) :
    (pyRemove old s).toList.length ≤ s.toList.length := by
  rw [pyRemove, String.toList_ofList]
  exact length_dropAll_le _ 0 _

theorem length_pyRemove_lt {old s : String} (nonempty : old ≠ "")
    (occurs : old.toList <:+: s.toList) : (pyRemove old s).toList.length < s.toList.length := by
  rw [pyRemove, String.toList_ofList]
  exact length_dropAll_lt (fun h => nonempty (String.toList_eq_nil_iff.1 h)) occurs

/-- `s.encode()`. -/
def encodeUtf8 (s : String) : Bytes := s.toList.flatMap String.utf8EncodeChar

theorem length_le_length_encodeUtf8 (s : String) : s.toList.length ≤ (encodeUtf8 s).length := by
  unfold encodeUtf8
  induction s.toList with
  | nil => simp
  | cons c cs ih =>
    have := c.utf8Size_pos
    rw [List.flatMap_cons, List.length_append, String.length_utf8EncodeChar, List.length_cons]
    omega

/-- `b.decode()`, when it does not raise. -/
def decodeUtf8 (b : Bytes) : Option String := String.fromUTF8? b.toByteArray

@[simp]
theorem decodeUtf8_encodeUtf8 (s : String) : decodeUtf8 (encodeUtf8 s) = some s := by
  have bytes : (encodeUtf8 s).toByteArray = s.toByteArray := by
    rw [← String.utf8Encode_toList, encodeUtf8, List.utf8Encode]
  rw [decodeUtf8, bytes, String.fromUTF8?, dif_pos s.isValidUTF8]
  rfl

/-- What a file that is read as text has for `\r\n` and for `\r`: a newline. -/
def universalNewlines : List Char → List Char
  | '\r' :: '\n' :: cs => '\n' :: universalNewlines cs
  | c :: cs => (if c = '\r' then '\n' else c) :: universalNewlines cs
  | [] => []

theorem not_mem_universalNewlines (cs : List Char) : '\r' ∉ universalNewlines cs := by
  fun_induction universalNewlines cs with
  | case1 cs ih => simpa using ih
  | case2 c cs _ ih =>
    rw [List.mem_cons, not_or]
    refine ⟨?_, ih⟩
    split_ifs with h
    · decide
    · exact Ne.symm h
  | case3 => simp

theorem length_universalNewlines_le (cs : List Char) :
    (universalNewlines cs).length ≤ cs.length := by
  fun_induction universalNewlines cs with
  | case1 cs ih => 
    simp only [List.length_cons]
    omega
  | case2 c cs _ ih => exact Nat.succ_le_succ ih
  | case3 => exact le_rfl

theorem count_universalNewlines {c : Char} (line : c ≠ '\n') (ret : c ≠ '\r') (cs : List Char) :
    (universalNewlines cs).count c = cs.count c := by
  fun_induction universalNewlines cs with
  | case1 cs ih => simp [ih, Ne.symm line, Ne.symm ret]
  | case2 d cs _ ih =>
    rw [List.count_cons, List.count_cons, ih]
    by_cases h : d = '\r'
    · simp [h, Ne.symm line, Ne.symm ret]
    · rw [if_neg h]
  | case3 => rfl

theorem universalNewlines_append {a b : List Char} (stop : b.head? ≠ some '\n') :
    universalNewlines (a ++ b) = universalNewlines a ++ universalNewlines b := by
  fun_induction universalNewlines a with
  | case1 cs ih => simp [universalNewlines, ih]
  | case2 d cs h ih =>
    rw [List.cons_append, universalNewlines.eq_def]
    split
    · next cs' same =>
      obtain ⟨hd, same⟩ := List.cons.inj same
      cases cs with
      | nil =>
        rw [List.nil_append] at same
        rw [same] at stop
        exact absurd rfl stop
      | cons c cs => exact absurd (congrArg (· :: cs) (List.cons.inj same).1) (h cs hd)
    · next same =>
      obtain ⟨rfl, rfl⟩ := List.cons.inj same
      rw [ih]
      rfl
    · next same => cases same
  | case3 => rfl

theorem universalNewlines_of_not_mem {cs : List Char} (absent : '\r' ∉ cs) (rest : List Char) :
    universalNewlines (cs ++ rest) = cs ++ universalNewlines rest := by
  induction cs with
  | nil => rfl
  | cons c cs ih =>
    rw [List.mem_cons, not_or] at absent
    rw [List.cons_append, universalNewlines.eq_def]
    split
    · next same => exact absurd (List.cons.inj same).1.symm absent.1
    · next same =>
      obtain ⟨rfl, rfl⟩ := List.cons.inj same
      rw [if_neg (Ne.symm absent.1), ih absent.2]
      rfl
    · next same => cases same

namespace BytesRepr

/-- One byte between the quotes. -/
def escape (quote : Char) (b : UInt8) : List Char :=
  let c := Char.ofNat b.toNat
  if c = quote ∨ c = '\\' then ['\\', c]
  else if c = '\t' then ['\\', 't']
  else if c = '\n' then ['\\', 'n']
  else if c = '\r' then ['\\', 'r']
  else if b.toNat < 32 ∨ 127 ≤ b.toNat then
    ['\\', 'x', Nat.digitChar (b.toNat / 16), Nat.digitChar (b.toNat % 16)]
  else [c]

/-- Single quotes, unless the bytes hold one and no double quote. -/
def quote (b : Bytes) : Char := if 39 ∈ b ∧ 34 ∉ b then '"' else '\''

theorem one_le_length_escape (q : Char) (b : UInt8) : 1 ≤ (escape q b).length := by
  unfold escape
  dsimp only
  split_ifs <;> simp

end BytesRepr

/-- `repr(b)`. -/
def bytesRepr (b : Bytes) : String :=
  String.ofList ('b' :: BytesRepr.quote b :: b.flatMap (BytesRepr.escape (BytesRepr.quote b)) ++
    [BytesRepr.quote b])

/-- The text of a byte string is longer than the byte string. -/
theorem length_lt_length_bytesRepr (b : Bytes) : b.length < (encodeUtf8 (bytesRepr b)).length := by
  have body : ∀ q, b.length ≤ (b.flatMap (BytesRepr.escape q)).length := by
    intro q
    induction b with
    | nil => simp
    | cons x xs ih =>
      have := BytesRepr.one_le_length_escape q x
      rw [List.flatMap_cons, List.length_append, List.length_cons]
      omega
  have := body (BytesRepr.quote b)
  refine lt_of_lt_of_le ?_ (length_le_length_encodeUtf8 (bytesRepr b))
  rw [bytesRepr, String.toList_ofList]
  simp only [List.length_cons, List.length_append]
  omega

/-- The spelling, with `str` of bytes as Python spells it. -/
def PyText.withBytesRepr (py : PyText) : PyText where
  floatRepr := py.floatRepr
  str
    | .bytes b => bytesRepr b
    | v => py.str v
