import Mathlib.Data.List.Basic

/-!
# Base64

The standard alphabet with padding.  `encode` writes four characters for every three bytes;
`decode` is the lenient decoder of `binascii.a2b_base64`: characters outside the alphabet are
skipped, a padding that completes a quad ends the input, and an input that stops inside a quad is an
error.  `decode_encode` says that decoding inverts encoding.
-/

namespace Base64

/-- The character for a six-bit value. -/
def alphabet (n : ℕ) : Char :=
  if n < 26 then Char.ofNat (n + 65)
  else if n < 52 then Char.ofNat (n + 71)
  else if n < 62 then Char.ofNat (n - 4)
  else if n = 62 then '+'
  else '/'

/-- The six-bit value of a character of the alphabet. -/
def value? (c : Char) : Option ℕ :=
  if 65 ≤ c.toNat ∧ c.toNat ≤ 90 then some (c.toNat - 65)
  else if 97 ≤ c.toNat ∧ c.toNat ≤ 122 then some (c.toNat - 71)
  else if 48 ≤ c.toNat ∧ c.toNat ≤ 57 then some (c.toNat + 4)
  else if c = '+' then some 62
  else if c = '/' then some 63
  else none

def encodeChars : List UInt8 → List Char
  | [] => []
  | [a] => [alphabet (a.toNat / 4), alphabet (a.toNat % 4 * 16), '=', '=']
  | [a, b] =>
    [alphabet (a.toNat / 4), alphabet (a.toNat % 4 * 16 + b.toNat / 16),
      alphabet (b.toNat % 16 * 4), '=']
  | a :: b :: c :: rest =>
    alphabet (a.toNat / 4) :: alphabet (a.toNat % 4 * 16 + b.toNat / 16) ::
      alphabet (b.toNat % 16 * 4 + c.toNat / 64) :: alphabet (c.toNat % 64) :: encodeChars rest

/-- Reads characters from inside a quad: `pos` characters of it are read, `left` holds their bits
that no byte has taken yet, and `pads` counts the padding seen since the last of them. -/
def decodeChars : List Char → (pos left pads : ℕ) → Option (List UInt8)
  | [], pos, _, _ => if pos = 0 then some [] else none
  | c :: cs, pos, left, pads =>
    if c = '=' then
      if 2 ≤ pos then
        if 4 ≤ pos + (pads + 1) then some [] else decodeChars cs pos left (pads + 1)
      else decodeChars cs pos left pads
    else
      match value? c with
      | none => decodeChars cs pos left pads
      | some v =>
        match pos with
        | 0 => decodeChars cs 1 v 0
        | 1 => (decodeChars cs 2 (v % 16) 0).map (UInt8.ofNat (left * 4 + v / 16) :: ·)
        | 2 => (decodeChars cs 3 (v % 4) 0).map (UInt8.ofNat (left * 16 + v / 4) :: ·)
        | _ => (decodeChars cs 0 0 0).map (UInt8.ofNat (left * 64 + v) :: ·)

def encode (b : List UInt8) : String := String.ofList (encodeChars b)

def decode (s : String) : Option (List UInt8) := decodeChars s.toList 0 0 0

theorem value?_alphabet {n : ℕ} (h : n < 64) : value? (alphabet n) = some n := by
  have all : ∀ m : Fin 64, value? (alphabet m) = some (m : ℕ) := by decide
  exact all ⟨n, h⟩

theorem alphabet_ne_pad {n : ℕ} (h : n < 64) : alphabet n ≠ '=' := by
  have all : ∀ m : Fin 64, alphabet m ≠ '=' := by decide
  exact all ⟨n, h⟩

theorem alphabet_ascii {n : ℕ} (h : n < 64) : (alphabet n).toNat < 128 := by
  have all : ∀ m : Fin 64, (alphabet m).toNat < 128 := by decide
  exact all ⟨n, h⟩

/-! ## One step of the decoder on a character of the alphabet -/

section Step

variable {v : ℕ} (h : v < 64) (cs : List Char) (left pads : ℕ)
include h

theorem decodeChars_first :
    decodeChars (alphabet v :: cs) 0 left pads = decodeChars cs 1 v 0 := by
  rw [decodeChars, if_neg (alphabet_ne_pad h), value?_alphabet h]
  rfl

theorem decodeChars_second :
    decodeChars (alphabet v :: cs) 1 left pads =
      (decodeChars cs 2 (v % 16) 0).map (UInt8.ofNat (left * 4 + v / 16) :: ·) := by
  rw [decodeChars, if_neg (alphabet_ne_pad h), value?_alphabet h]
  rfl

theorem decodeChars_third :
    decodeChars (alphabet v :: cs) 2 left pads =
      (decodeChars cs 3 (v % 4) 0).map (UInt8.ofNat (left * 16 + v / 4) :: ·) := by
  rw [decodeChars, if_neg (alphabet_ne_pad h), value?_alphabet h]
  rfl

theorem decodeChars_fourth :
    decodeChars (alphabet v :: cs) 3 left pads =
      (decodeChars cs 0 0 0).map (UInt8.ofNat (left * 64 + v) :: ·) := by
  rw [decodeChars, if_neg (alphabet_ne_pad h), value?_alphabet h]
  rfl

end Step

theorem ofNat_eq_of_eq_toNat {n : ℕ} {a : UInt8} (h : n = a.toNat) : UInt8.ofNat n = a := by
  rw [h, UInt8.ofNat_toNat]

theorem decodeChars_encodeChars (b : List UInt8) : decodeChars (encodeChars b) 0 0 0 = some b := by
  induction b using encodeChars.induct with
  | case1 => rfl
  | case2 a =>
    have ha := a.toNat_lt
    have e : UInt8.ofNat (a.toNat / 4 * 4 + a.toNat % 4 * 16 / 16) = a :=
      ofNat_eq_of_eq_toNat (by omega)
    rw [encodeChars, decodeChars_first (by omega), decodeChars_second (by omega), e]
    rfl
  | case3 a b =>
    have ha := a.toNat_lt
    have hb := b.toNat_lt
    have e₁ : UInt8.ofNat (a.toNat / 4 * 4 + (a.toNat % 4 * 16 + b.toNat / 16) / 16) = a :=
      ofNat_eq_of_eq_toNat (by omega)
    have e₂ :
        UInt8.ofNat ((a.toNat % 4 * 16 + b.toNat / 16) % 16 * 16 + b.toNat % 16 * 4 / 4) = b :=
      ofNat_eq_of_eq_toNat (by omega)
    rw [encodeChars, decodeChars_first (by omega), decodeChars_second (by omega),
      decodeChars_third (by omega), e₁, e₂]
    rfl
  | case4 a b c rest ih =>
    have ha := a.toNat_lt
    have hb := b.toNat_lt
    have hc := c.toNat_lt
    have e₁ : UInt8.ofNat (a.toNat / 4 * 4 + (a.toNat % 4 * 16 + b.toNat / 16) / 16) = a :=
      ofNat_eq_of_eq_toNat (by omega)
    have e₂ : UInt8.ofNat ((a.toNat % 4 * 16 + b.toNat / 16) % 16 * 16 +
        (b.toNat % 16 * 4 + c.toNat / 64) / 4) = b :=
      ofNat_eq_of_eq_toNat (by omega)
    have e₃ : UInt8.ofNat ((b.toNat % 16 * 4 + c.toNat / 64) % 4 * 64 + c.toNat % 64) = c :=
      ofNat_eq_of_eq_toNat (by omega)
    rw [encodeChars, decodeChars_first (by omega), decodeChars_second (by omega),
      decodeChars_third (by omega), decodeChars_fourth (by omega), ih, e₁, e₂, e₃]
    rfl

/-- Decoding inverts encoding. -/
theorem decode_encode (b : List UInt8) : decode (encode b) = some b := by
  rw [decode, encode, String.toList_ofList]
  exact decodeChars_encodeChars b

/-- An encoding has only ASCII characters. -/
theorem encodeChars_ascii (b : List UInt8) : ∀ c ∈ encodeChars b, c.toNat < 128 := by
  induction b using encodeChars.induct with
  | case1 => simp [encodeChars]
  | case2 a =>
    have ha := a.toNat_lt
    simp only [encodeChars, List.forall_mem_cons]
    exact ⟨alphabet_ascii (by omega), alphabet_ascii (by omega), by decide, by decide, by simp⟩
  | case3 a b =>
    have ha := a.toNat_lt
    have hb := b.toNat_lt
    simp only [encodeChars, List.forall_mem_cons]
    exact ⟨alphabet_ascii (by omega), alphabet_ascii (by omega), alphabet_ascii (by omega),
      by decide, by simp⟩
  | case4 a b c rest ih =>
    have ha := a.toNat_lt
    have hb := b.toNat_lt
    have hc := c.toNat_lt
    simp only [encodeChars, List.forall_mem_cons]
    exact ⟨alphabet_ascii (by omega), alphabet_ascii (by omega), alphabet_ascii (by omega),
      alphabet_ascii (by omega), ih⟩

example : encode [102, 111, 111, 98] = "Zm9vYg==" := by decide

end Base64
