import Cpip.Python.Value

/-!
# A hash function to evaluate with

The program is modelled over any `sha256 : Bytes → String`.  `sampleSha256` is one to evaluate it
with on small files: it has the value of SHA-256 on the empty file, and it is one to one.
-/

/-- `hashlib.sha256(b"").hexdigest()`. -/
def emptySha256 : String := "e3b0c44298fc1c149afbf4c8996fb92427ae41e4649b934ca495991b7852b855"

/-- The bytes themselves, as characters behind a letter that is no hexadecimal digit; for the empty
file, its SHA-256. -/
def sampleSha256 (b : Bytes) : String :=
  if b = [] then emptySha256 else String.ofList ('z' :: b.map fun x => Char.ofNat x.toNat)

theorem ofNat_toNat_injective : Function.Injective fun x : UInt8 => Char.ofNat x.toNat := by
  have value (x : UInt8) : (Char.ofNat x.toNat).toNat = x.toNat := by
    have bound := x.toNat_lt
    unfold Char.ofNat
    rw [dif_pos (show x.toNat.isValidChar from Or.inl (by omega))]
    rfl
  intro x y h
  have same := congrArg Char.toNat h
  rw [value, value] at same
  exact UInt8.toNat_inj.1 same

theorem sampleSha256_injective : Function.Injective sampleSha256 := by
  have apart {b : Bytes} :
      emptySha256 ≠ String.ofList ('z' :: b.map fun x => Char.ofNat x.toNat) := by
    intro h
    have first := congrArg (fun s : String => s.toList.head?) h
    simp [emptySha256] at first
  intro a b h
  unfold sampleSha256 at h
  split_ifs at h with ha hb hb
  · rw [ha, hb]
  · exact absurd h apart
  · exact absurd h.symm apart
  · rw [String.ofList_inj, List.cons.injEq] at h
    exact ofNat_toNat_injective.list_map h.2
