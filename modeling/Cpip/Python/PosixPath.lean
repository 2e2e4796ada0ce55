import Cpip.Python.Pathlib

/-!
# `posixpath.join` and `posixpath.normpath`

Paths as texts.  Normalising runs over the components with a stack, on which `..` takes one
component back.  A relative name without `..` only ever adds to the stack, so joined to an absolute
directory it stays there (`within_join`).
-/

namespace PosixPath

/-- `os.path.join(a, b)`. -/
def join (a b : String) : String :=
  if ['/'] <+: b.toList then b
  else if a = "" ∨ ['/'] <:+ a.toList then a ++ b
  else a ++ "/" ++ b

/-- How many slashes `normpath` keeps at the start of a path: two stay two, three become one. -/
def initialSlashes (p : List Char) : ℕ :=
  if ['/'] <+: p then if ['/', '/'] <+: p ∧ ¬ ['/', '/', '/'] <+: p then 2 else 1 else 0

/-- One component in the loop of `normpath`. -/
def pushComp (rooted : Bool) (comps : List String) (comp : String) : List String :=
  if comp ≠ ".." ∨ (rooted = false ∧ comps = []) ∨ comps.getLast? = some ".." then comps ++ [comp]
  else comps.dropLast

/-- The components that `normpath` keeps. -/
def normComps (path : String) : List String :=
  (PyPath.split path).foldl (pushComp (initialSlashes path.toList ≠ 0)) []

/-- `os.path.normpath(path)`. -/
def normpath (path : String) : String :=
  let slashes := String.ofList (List.replicate (initialSlashes path.toList) '/')
  let path := slashes ++ "/".intercalate (normComps path)
  if path = "" then "." else path

/-- `os.path.dirname(path)`. -/
def dirname (path : String) : String :=
  let head := (path.toList.reverse.dropWhile (· ≠ '/')).reverse
  if head.all (· = '/') then String.ofList head
  else String.ofList (head.reverse.dropWhile (· = '/')).reverse

/-- A normalised path is the directory or lies inside of it. -/
def Within (dir path : String) : Prop :=
  path = dir ∨ (if ['/'] <:+ dir.toList then dir else dir ++ "/").toList <+: path.toList

/-! ## Joining -/

theorem split_append_slash (a b : String) :
    PyPath.split (a ++ "/" ++ b) = PyPath.split a ++ PyPath.split b := by
  have pieces : (a ++ "/" ++ b).toList.splitOn '/' =
      a.toList.splitOn '/' ++ b.toList.splitOn '/' := by
    simp [String.toList_append, List.splitOn_append_cons_self]
  unfold PyPath.split
  rw [pieces, List.map_append, List.filter_append]

theorem infix_of_mem_splitOn {c : Char} {l piece : List Char} (h : piece ∈ l.splitOn c) :
    piece <:+: l := by
  obtain ⟨i, hi⟩ := List.getElem?_of_mem h
  have mem : piece ∈ (l.splitOn c).intersperse [c] :=
    List.mem_of_getElem? (List.getElem?_intersperse_two_mul.trans hi)
  have whole : piece <:+: [c].intercalate (l.splitOn c) := List.infix_of_mem_flatten mem
  rwa [List.intercalate_splitOn] at whole

/-- A component is a part of the path. -/
theorem infix_of_mem_split {path part : String} (h : part ∈ PyPath.split path) :
    part.toList <:+: path.toList := by
  unfold PyPath.split at h
  obtain ⟨piece, mem, rfl⟩ := List.mem_map.1 (List.mem_of_mem_filter h)
  rw [String.toList_ofList]
  exact infix_of_mem_splitOn mem

/-- The components of a relative name come after those of the directory. -/
theorem split_join (a : String) {b : String} (relative : ¬ ['/'] <+: b.toList) :
    PyPath.split (join a b) = PyPath.split a ++ PyPath.split b := by
  unfold join
  rw [if_neg relative]
  split_ifs with slash
  · rcases slash with rfl | ⟨a', ha⟩
    · rw [String.empty_append]
      rfl
    · obtain rfl : a = String.ofList a' ++ "/" := by
        apply String.toList_injective
        rw [← ha]
        simp
      have last : PyPath.split (String.ofList a' ++ "/") = PyPath.split (String.ofList a') := by
        have := split_append_slash (String.ofList a') ""
        rw [String.append_empty] at this
        rw [this]
        exact List.append_nil _
      rw [split_append_slash, last]
  · exact split_append_slash a b

/-- What comes after a path changes nothing at its start, unless a slash comes after a slash. -/
theorem initialSlashes_append {l tail : List Char} (absolute : ['/'] <+: l)
    (apart : ¬ ['/'] <+: tail ∨ ¬ ['/'] <:+ l) : initialSlashes (l ++ tail) = initialSlashes l := by
  obtain ⟨rest, rfl⟩ := absolute
  match rest with
  | [] =>
    have tail : ¬ ['/'] <+: tail := apart.resolve_right (not_not_intro List.suffix_rfl)
    simp [initialSlashes, tail]
  | [c] =>
    by_cases slash : c = '/'
    · subst slash
      have tail : ¬ ['/'] <+: tail := apart.resolve_right (not_not_intro ⟨['/'], rfl⟩)
      simp [initialSlashes, tail]
    · simp [initialSlashes, Ne.symm slash]
  | c :: d :: rest => simp [initialSlashes]

theorem initialSlashes_join {a b : String} (absolute : ['/'] <+: a.toList)
    (relative : ¬ ['/'] <+: b.toList) :
    initialSlashes (join a b).toList = initialSlashes a.toList := by
  unfold join
  rw [if_neg relative]
  split_ifs with slash
  · rw [String.toList_append]
    exact initialSlashes_append absolute (.inl relative)
  · rw [not_or] at slash
    rw [String.append_assoc, String.toList_append]
    exact initialSlashes_append absolute (.inr slash.2)

theorem foldl_pushComp (rooted : Bool) (comps : List String) {names : List String}
    (up : ".." ∉ names) : names.foldl (pushComp rooted) comps = comps ++ names := by
  induction names generalizing comps with
  | nil => exact (List.append_nil comps).symm
  | cons name names ih =>
    rw [List.mem_cons, not_or] at up
    rw [List.foldl_cons, pushComp, if_pos (.inl (Ne.symm up.1)), ih _ up.2, List.append_assoc]
    rfl

theorem initialSlashes_pos {p : List Char} (absolute : ['/'] <+: p) :
    initialSlashes p = 1 ∨ initialSlashes p = 2 := by
  unfold initialSlashes
  rw [if_pos absolute]
  split_ifs
  · exact .inr rfl
  · exact .inl rfl

theorem normpath_of_absolute {path : String} (absolute : ['/'] <+: path.toList) :
    normpath path = String.ofList (List.replicate (initialSlashes path.toList) '/') ++
      "/".intercalate (normComps path) := by
  unfold normpath
  refine if_neg fun empty => ?_
  have chars := congrArg String.toList empty
  rw [String.toList_append, String.toList_ofList] at chars
  rcases initialSlashes_pos absolute with slashes | slashes
  · rw [slashes] at chars
    cases chars
  · rw [slashes] at chars
    cases chars

/-- A name that is relative and has no `..` leads into the directory that it is joined to. -/
theorem within_join {dir name : String} (absolute : ['/'] <+: dir.toList)
    (relative : ¬ ['/'] <+: name.toList) (up : ".." ∉ PyPath.split name) :
    Within (normpath dir) (normpath (join dir name)) := by
  have slashes := initialSlashes_join absolute relative
  have comps : normComps (join dir name) = normComps dir ++ PyPath.split name := by
    unfold normComps
    rw [split_join dir relative, slashes, List.foldl_append, foldl_pushComp _ _ up]
  have absolute' : ['/'] <+: (join dir name).toList := by
    by_contra none
    have zero : initialSlashes (join dir name).toList = 0 := if_neg none
    rcases initialSlashes_pos absolute with one | two
    · omega
    · omega
  rw [normpath_of_absolute absolute, normpath_of_absolute absolute', slashes, comps]
  generalize normComps dir = kept
  generalize PyPath.split name = names
  by_cases none : names = []
  · rw [none, List.append_nil]
    exact .inl rfl
  · refine .inr ?_
    by_cases root : kept = []
    · have slash : ['/'] <:+ (String.ofList (List.replicate (initialSlashes dir.toList) '/') ++
          "/".intercalate kept).toList := by
        rw [root]
        rcases initialSlashes_pos absolute with one | two
        · rw [one]
          exact ⟨[], rfl⟩
        · rw [two]
          exact ⟨['/'], rfl⟩
      rw [if_pos slash, root, List.nil_append, String.toList_append, String.toList_append]
      exact (List.prefix_append_right_inj _).2 List.nil_prefix
    · rw [String.intercalate_append_of_ne_nil root none]
      split_ifs
      · exact ⟨("/" ++ "/".intercalate names).toList, by
          simp only [String.toList_append, List.append_assoc]⟩
      · exact ⟨("/".intercalate names).toList, by
          simp only [String.toList_append, List.append_assoc]⟩

end PosixPath
