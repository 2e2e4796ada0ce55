import Cpip.Python.Import
import Cpip.Python.Text
import Mathlib.Data.List.Infix

/-!
# Proxies of modules in the cloud

`import a.b` makes a proxy of every module on the path.  An attribute of a proxy that is not such a
module is a callable that knows its dotted name, and so is every attribute of a callable.
-/

namespace Cpip

inductive Proxy where
  /-- `ProxyModule(name)`. -/
  | module (name : String)
  /-- `ProxyCallable(session, name)`. -/
  | callable (name : String)
  deriving DecidableEq, Repr

namespace Proxy

/-- `name.startswith("_")`. -/
def Underscored (name : String) : Prop := name.toList.head? = some '_'

instance : DecidablePred Underscored := fun name =>
  inferInstanceAs (Decidable (name.toList.head? = some '_'))

/-- An attribute.  The modules that were imported are attributes of their parents, and
`__getattr__` is asked for the others. -/
def getattr (imported : List String) : Proxy → String → Except Raised Proxy
  | .module name, attr =>
    if name ++ "." ++ attr ∈ imported then .ok (.module (name ++ "." ++ attr))
    else if Underscored attr then .error (.attributeError attr)
    else .ok (.callable (name ++ "." ++ attr))
  | .callable name, attr => .ok (.callable (name ++ "." ++ attr))

def getattrs (imported : List String) (p : Proxy) (attrs : List String) : Except Raised Proxy :=
  attrs.foldlM (getattr imported) p

/-- The method that `__call__` sends for execution. -/
def call : Proxy → Option String
  | .module _ => none
  | .callable name => some name

/-- The names of the modules that `import path` makes proxies of. -/
def importedNames (path : ModPath) : List String := (path.inits.filter (· ≠ [])).map joinDots

theorem mem_importedNames {path : ModPath} {name : String} :
    name ∈ importedNames path ↔ ∃ part, part <+: path ∧ part ≠ [] ∧ joinDots part = name := by
  simp [importedNames, List.mem_inits, and_assoc]

/-- The modules on the path are found under one another. -/
theorem getattrs_imported {path part rest : ModPath} (nonempty : part ≠ [])
    (sub : part ++ rest <+: path) :
    getattrs (importedNames path) (.module (joinDots part)) rest =
      .ok (.module (joinDots (part ++ rest))) := by
  induction rest generalizing part with
  | nil => rw [List.append_nil]; rfl
  | cons name rest ih =>
    have split : part ++ name :: rest = part ++ [name] ++ rest := by simp
    have next : part ++ [name] <+: path :=
      (List.prefix_append _ rest).trans (split ▸ sub)
    have here : getattr (importedNames path) (.module (joinDots part)) name =
        .ok (.module (joinDots (part ++ [name]))) := by
      rw [joinDots_concat nonempty, getattr, if_pos]
      rw [← joinDots_concat nonempty]
      exact mem_importedNames.2 ⟨part ++ [name], next, by simp, rfl⟩
    rw [split, getattrs, List.foldlM_cons, here]
    exact ih (by simp) (split ▸ sub)

theorem getattrs_callable (imported : List String) {part : ModPath} (nonempty : part ≠ [])
    (rest : ModPath) :
    getattrs imported (.callable (joinDots part)) rest =
      .ok (.callable (joinDots (part ++ rest))) := by
  induction rest generalizing part with
  | nil => rw [List.append_nil]; rfl
  | cons name rest ih =>
    have here : getattr imported (.callable (joinDots part)) name =
        .ok (.callable (joinDots (part ++ [name]))) := by
      rw [joinDots_concat nonempty]
      rfl
    rw [getattrs, List.foldlM_cons, here]
    show getattrs imported _ rest = _
    rw [ih (by simp), List.append_assoc]
    rfl

/-- A call of `path.attrs` sends the dotted name. -/
theorem getattrs_path {path attrs : ModPath} {name : String} (nonempty : path ≠ [])
    (noDot : ∀ part ∈ path ++ name :: attrs, '.' ∉ part.toList) (isPublic : ¬ Underscored name) :
    getattrs (importedNames path) (.module (path.headD "")) (path.tail ++ name :: attrs) =
      .ok (.callable (joinDots (path ++ name :: attrs))) := by
  have start : Proxy.module (path.headD "") = .module (joinDots [path.headD ""]) := by
    rw [joinDots, String.intercalate_singleton]
  have whole : [path.headD ""] ++ path.tail = path := by
    cases path with
    | nil => exact absurd rfl nonempty
    | cons top path => rfl
  have module : getattrs (importedNames path) (.module (path.headD "")) path.tail =
      .ok (.module (joinDots path)) := by
    have sub : [path.headD ""] ++ path.tail <+: path := by rw [whole]
    rw [start, getattrs_imported (by simp) sub, whole]
  have other : joinDots path ++ "." ++ name ∉ importedNames path := by
    rw [← joinDots_concat nonempty, mem_importedNames]
    rintro ⟨part, sub, inner, same⟩
    -- Names without dots are told apart by their dotted path, and this one is too long.
    have equal : part = path ++ [name] := by
      rw [← splitDots_joinDots inner fun x mem => noDot x (by simp [sub.subset mem]), same,
        splitDots_joinDots (by simp)]
      intro x mem
      apply noDot
      simp only [List.mem_append, List.mem_cons] at mem ⊢
      tauto
    have short := sub.length_le
    rw [equal, List.length_append, List.length_singleton] at short
    omega
  have here : getattr (importedNames path) (.module (joinDots path)) name =
      .ok (.callable (joinDots (path ++ [name]))) := by
    rw [getattr, if_neg other, if_neg isPublic, joinDots_concat nonempty]
  have extended : path ++ [name] ≠ [] := by simp
  have rest := getattrs_callable (importedNames path) extended attrs
  rw [getattrs, List.foldlM_append, ← getattrs, module]
  show getattrs _ _ (name :: attrs) = _
  rw [getattrs, List.foldlM_cons, here]
  show getattrs _ _ attrs = _
  rw [rest, List.append_assoc]
  rfl

end Proxy

end Cpip
