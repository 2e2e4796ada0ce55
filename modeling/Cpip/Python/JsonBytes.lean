import Mathlib.Data.Rat.Encodable
import Mathlib.Data.Nat.Digits.Defs
import Mathlib.Logic.Equiv.List
import Cpip.Python.Json

/-!
# JSON in files

How a JSON text is spelled in a file does not matter to the program, as long as it is read back.
`sampleJson` is a spelling to evaluate with: a tree is a list of numbers, which are one number,
which is written in base 256.
-/

/-- How `json.dumps` spells a text in a file, and what `json.loads` reads there, if it does not
raise. -/
structure JsonFiles where
  py : PyText
  spell : JsonText → Bytes
  parse : Bytes → Option JsonText
  parse_spell : ∀ t, parse (spell t) = some t

namespace JsonCodes

/-! ## Trees as lists of numbers -/

def ofFloat : PyFloat → ℕ
  | .inf negative => negative.toNat
  | .nan => 2
  | .finite q => Encodable.encode q + 3

def toFloat : ℕ → Option PyFloat
  | 0 => some (.inf false)
  | 1 => some (.inf true)
  | 2 => some .nan
  | n + 3 => (Encodable.decode n).map .finite

def ofString (s : String) : List ℕ := s.toList.length :: s.toList.map Char.toNat

mutual

def ofText : JsonText → List ℕ
  | .null => [0]
  | .bool b => [1, b.toNat]
  | .int i => [2, Encodable.encode i]
  | .float f => [3, ofFloat f]
  | .str s => 4 :: ofString s
  | .arr xs => 5 :: xs.length :: ofTexts xs
  | .obj members => 6 :: members.length :: ofMembers members

def ofTexts : List JsonText → List ℕ
  | [] => []
  | x :: xs => ofText x ++ ofTexts xs

def ofMembers : List (String × JsonText) → List ℕ
  | [] => []
  | (name, x) :: rest => (ofString name ++ ofText x) ++ ofMembers rest

end

/-- What a list of numbers begins with, and the rest. -/
abbrev Reader (α : Type) := List ℕ → Option (α × List ℕ)

def readString : Reader String
  | [] => none
  | n :: rest => some (String.ofList ((rest.take n).map Char.ofNat), rest.drop n)

/-- The same thing, a number of times. -/
def times {α : Type} (read : Reader α) : ℕ → Reader (List α)
  | 0, codes => some ([], codes)
  | n + 1, codes => (read codes).bind fun x => (times read n x.2).map fun xs => (x.1 :: xs.1, xs.2)

def readMember (read : Reader JsonText) : Reader (String × JsonText) := fun codes =>
  (readString codes).bind fun name => (read name.2).map fun x => ((name.1, x.1), x.2)

/-- Reads a tree that is at most as deep as the fuel. -/
def readText : ℕ → Reader JsonText
  | 0, _ => none
  | _ + 1, 0 :: rest => some (.null, rest)
  | _ + 1, 1 :: b :: rest => some (.bool (b = 1), rest)
  | _ + 1, 2 :: i :: rest => (Encodable.decode i).map fun i => (.int i, rest)
  | _ + 1, 3 :: f :: rest => (toFloat f).map fun f => (.float f, rest)
  | _ + 1, 4 :: rest => (readString rest).map fun s => (.str s.1, s.2)
  | fuel + 1, 5 :: n :: rest => (times (readText fuel) n rest).map fun xs => (.arr xs.1, xs.2)
  | fuel + 1, 6 :: n :: rest =>
    (times (readMember (readText fuel)) n rest).map fun ms => (.obj ms.1, ms.2)
  | _ + 1, _ => none

theorem toFloat_ofFloat (f : PyFloat) : toFloat (ofFloat f) = some f := by
  cases f with
  | finite q => simp [ofFloat, toFloat]
  | inf negative => cases negative <;> rfl
  | nan => rfl

theorem readString_ofString (s : String) (rest : List ℕ) :
    readString (ofString s ++ rest) = some (s, rest) := by
  have chars : (s.toList.map Char.toNat).map Char.ofNat = s.toList := by
    rw [List.map_map]
    exact (List.map_congr_left fun c _ => Char.ofNat_toNat c).trans (List.map_id _)
  have size : s.toList.length = (s.toList.map Char.toNat).length := by simp
  rw [ofString, List.cons_append, readString, size, List.take_left, List.drop_left, chars,
    String.ofList_toList]

theorem times_cons {α : Type} {read : Reader α} {n : ℕ} {codes rest : List ℕ} {x : α}
    (first : read codes = some (x, rest)) :
    times read (n + 1) codes = (times read n rest).map fun xs => (x :: xs.1, xs.2) := by
  rw [times, first, Option.bind_some]

mutual

theorem readText_ofText : ∀ (t : JsonText) (fuel : ℕ) (rest : List ℕ),
    (ofText t).length ≤ fuel → readText fuel (ofText t ++ rest) = some (t, rest)
  | t, 0, rest, enough => by cases t <;> simp [ofText] at enough
  | .null, _ + 1, rest, _ => rfl
  | .bool b, _ + 1, rest, _ => by cases b <;> rfl
  | .int i, _ + 1, rest, _ => by
    rw [ofText, List.cons_append, List.cons_append, readText, Encodable.encodek]
    rfl
  | .float f, _ + 1, rest, _ => by simp [ofText, readText, toFloat_ofFloat]
  | .str s, _ + 1, rest, _ => by simp [ofText, readText, readString_ofString]
  | .arr xs, fuel + 1, rest, enough => by
    have shorter : (ofTexts xs).length ≤ fuel := by
      simp only [ofText, List.length_cons] at enough
      omega
    simp [ofText, readText, times_ofTexts xs fuel rest shorter]
  | .obj members, fuel + 1, rest, enough => by
    have shorter : (ofMembers members).length ≤ fuel := by
      simp only [ofText, List.length_cons] at enough
      omega
    simp [ofText, readText, times_ofMembers members fuel rest shorter]

theorem times_ofTexts : ∀ (xs : List JsonText) (fuel : ℕ) (rest : List ℕ),
    (ofTexts xs).length ≤ fuel →
      times (readText fuel) xs.length (ofTexts xs ++ rest) = some (xs, rest)
  | [], _, _, _ => rfl
  | x :: xs, fuel, rest, enough => by
    simp only [ofTexts, List.length_append] at enough
    rw [ofTexts, List.append_assoc, List.length_cons,
      times_cons (readText_ofText x fuel _ (by omega)), times_ofTexts xs fuel rest (by omega)]
    rfl

theorem times_ofMembers : ∀ (ms : List (String × JsonText)) (fuel : ℕ) (rest : List ℕ),
    (ofMembers ms).length ≤ fuel →
      times (readMember (readText fuel)) ms.length (ofMembers ms ++ rest) = some (ms, rest)
  | [], _, _, _ => rfl
  | (name, x) :: ms, fuel, rest, enough => by
    simp only [ofMembers, List.length_append] at enough
    have member : readMember (readText fuel)
        (ofString name ++ (ofText x ++ (ofMembers ms ++ rest))) =
        some ((name, x), ofMembers ms ++ rest) := by
      rw [readMember, readString_ofString, Option.bind_some,
        readText_ofText x fuel _ (by omega), Option.map_some]
    rw [ofMembers, List.append_assoc, List.append_assoc, List.length_cons, times_cons member,
      times_ofMembers ms fuel rest (by omega)]
    rfl

end

/-! ## Lists of numbers as bytes -/

def toBytes (codes : List ℕ) : Bytes :=
  (Nat.digits 256 (Encodable.encode codes)).map UInt8.ofNat

def ofBytes (b : Bytes) : Option (List ℕ) := Encodable.decode (Nat.ofDigits 256 (b.map UInt8.toNat))

theorem ofBytes_toBytes (codes : List ℕ) : ofBytes (toBytes codes) = some codes := by
  have digits : ((Nat.digits 256 (Encodable.encode codes)).map UInt8.ofNat).map UInt8.toNat =
      Nat.digits 256 (Encodable.encode codes) := by
    rw [List.map_map]
    refine (List.map_congr_left fun d hd => ?_).trans (List.map_id _)
    have small := Nat.digits_lt_base (by decide) hd
    simp only [Function.comp_apply, UInt8.toNat_ofNat', id_eq]
    exact Nat.mod_eq_of_lt small
  rw [ofBytes, toBytes, digits, Nat.ofDigits_digits, Encodable.encodek]

end JsonCodes

/-- A spelling of JSON texts that is read back. -/
def sampleJson : JsonFiles where
  py := plainText
  spell t := JsonCodes.toBytes (JsonCodes.ofText t)
  parse b := (JsonCodes.ofBytes b).bind fun codes =>
    (JsonCodes.readText codes.length codes).map Prod.fst
  parse_spell t := by
    have read := JsonCodes.readText_ofText t (JsonCodes.ofText t).length [] le_rfl
    rw [List.append_nil] at read
    rw [JsonCodes.ofBytes_toBytes, Option.bind_some, read, Option.map_some]
