import Mathlib.Data.List.Induction
import Cpip.Lib.Base64
import Cpip.Lib.Dict
import Cpip.Python.Text

/-!
# Package signatures (`security/signing.py`)

A verifier has one key for each id.  When it is asked for an id that it has no key for, or for the
empty one, it tries all its keys.
-/

namespace Cpip

/-- What the program uses of `cryptography`: the key in a PEM text, `none` if it is none of Ed25519,
and whether `key.verify(signature, data)` returns. -/
structure Ed25519 (κ : Type*) where
  loadPemPublicKey : Bytes → Except PyExc (Option κ)
  verify : κ → Bytes → Bytes → Bool

structure SignatureVerifier (κ : Type*) where
  trustedKeys : Dict String κ

namespace SignatureVerifier

variable {κ : Type*} (lib : Ed25519 κ)

def init : SignatureVerifier κ := ⟨∅⟩

def loadPublicKey (v : SignatureVerifier κ) (keyId pemData : String) :
    Except PyExc (SignatureVerifier κ) :=
  match lib.loadPemPublicKey (encodeUtf8 pemData) with
  | .error e => .error e
  | .ok none => .error (.valueError "Must be an Ed25519 public key")
  | .ok (some key) => .ok ⟨v.trustedKeys.set keyId key⟩

/-- `base64.b64decode(signature_b64)`. -/
def b64decode (s : String) : Except PyExc Bytes :=
  if s.toList.all fun c => c.toNat < 128 then
    match Base64.decode s with
    | some b => .ok b
    | none => .error (.valueError "Incorrect padding")
  else .error (.valueError "string argument should contain only ASCII characters")

/-- `self._trusted_keys.values()`. -/
def keys (v : SignatureVerifier κ) : List κ := v.trustedKeys.entries.map Prod.snd

/-- `keys_to_try`. -/
def keysToTry (v : SignatureVerifier κ) (keyId : Option String) : List κ :=
  match keyId with
  | none => v.keys
  | some id =>
    if id = "" then v.keys
    else
      match v.trustedKeys.get? id with
      | some key => [key]
      | none => v.keys

/-- `verify_file`, where reading the file gives `file`. -/
def verifyFile (v : SignatureVerifier κ) (file : Except PyExc Bytes) (signatureB64 : String)
    (keyId : Option String) : Except PyExc Bool :=
  if v.keys.isEmpty then .ok false
  else do
    let data ← file
    let signature ← b64decode signatureB64
    return (v.keysToTry keyId).any fun key => lib.verify key signature data

/-- The verifier after calls of `load_public_key`, of which some may raise. -/
def afterLoads (loads : List (String × String)) : SignatureVerifier κ :=
  loads.foldl (fun v load => (v.loadPublicKey lib load.1 load.2).toOption.getD v) init

/-! ## Which key an id stands for -/

/-- The key that a call of `load_public_key` loads, unless it raises. -/
def loadedKey (pemData : String) : Option κ :=
  (lib.loadPemPublicKey (encodeUtf8 pemData)).toOption.join

/-- The key that was last loaded with the id. -/
def current (loads : List (String × String)) (id : String) : Option κ :=
  (loads.filterMap fun load => if load.1 = id then loadedKey lib load.2 else none).getLast?

/-- The key verifies the bytes of the file. -/
def Accepts (key : κ) (file : Except PyExc Bytes) (signatureB64 : String) : Prop :=
  ∃ data signature, file = .ok data ∧ b64decode signatureB64 = .ok signature ∧
    lib.verify key signature data = true

/-- With an id, only the key that is loaded with it counts; without one, any loaded key does. -/
structure Guards (loads : List (String × String)) (file : Except PyExc Bytes)
    (signatureB64 : String) (keyId : Option String) : Prop where
  named : ∀ id, keyId = some id →
    (afterLoads lib loads).verifyFile lib file signatureB64 keyId = .ok true →
      ∃ key, current lib loads id = some key ∧ Accepts lib key file signatureB64
  unnamed : keyId = none →
    ((afterLoads lib loads).verifyFile lib file signatureB64 keyId = .ok true ↔
      ∃ id key, current lib loads id = some key ∧ Accepts lib key file signatureB64)

/-- With an id that a key is loaded with, only that key counts; without one, with the empty one and
with one that no key is loaded with, any loaded key does. -/
structure Selects (loads : List (String × String)) (file : Except PyExc Bytes)
    (signatureB64 : String) (keyId : Option String) : Prop where
  named : ∀ id key, keyId = some id → id ≠ "" → current lib loads id = some key →
    ((afterLoads lib loads).verifyFile lib file signatureB64 keyId = .ok true ↔
      Accepts lib key file signatureB64)
  others : (∀ id, keyId = some id → id = "" ∨ current lib loads id = none) →
    ((afterLoads lib loads).verifyFile lib file signatureB64 keyId = .ok true ↔
      ∃ id key, current lib loads id = some key ∧ Accepts lib key file signatureB64)

variable {lib}

theorem loadPublicKey_getD (v : SignatureVerifier κ) (keyId pemData : String) :
    (v.loadPublicKey lib keyId pemData).toOption.getD v =
      match loadedKey lib pemData with
      | some key => ⟨v.trustedKeys.set keyId key⟩
      | none => v := by
  unfold loadPublicKey loadedKey
  cases lib.loadPemPublicKey (encodeUtf8 pemData) with
  | error e => rfl
  | ok key? => cases key? <;> rfl

theorem get?_afterLoads (loads : List (String × String)) (id : String) :
    (afterLoads lib loads).trustedKeys.get? id = current lib loads id := by
  induction loads using List.reverseRecOn with
  | nil => rfl
  | append_singleton loads load ih =>
    have after : afterLoads lib (loads ++ [load]) =
        ((afterLoads lib loads).loadPublicKey lib load.1 load.2).toOption.getD
          (afterLoads lib loads) := List.foldl_concat ..
    unfold current at ih ⊢
    rw [after, loadPublicKey_getD, List.filterMap_append]
    cases loaded : loadedKey lib load.2 with
    | none =>
      have skipped : (List.filterMap
          (fun load => if load.1 = id then loadedKey lib load.2 else none) [load]) = [] := by
        simp [loaded]
      rw [skipped, List.append_nil]
      exact ih
    | some key =>
      dsimp only
      rw [Dict.get?_set]
      split_ifs with same
      · simp [same, loaded]
      · rw [ih]
        simp [same]

theorem mem_keys_iff {v : SignatureVerifier κ} {key : κ} :
    key ∈ v.keys ↔ ∃ id, v.trustedKeys.get? id = some key := by
  unfold keys
  simp [Dict.get?_eq_some_iff]

theorem keysToTry_subset {v : SignatureVerifier κ} {keyId : Option String} {key : κ}
    (mem : key ∈ v.keysToTry keyId) : key ∈ v.keys := by
  unfold keysToTry at mem
  split at mem
  · exact mem
  · next id =>
    split_ifs at mem with empty
    · exact mem
    · split at mem
      · next key' loaded =>
        obtain rfl := List.mem_singleton.1 mem
        exact mem_keys_iff.2 ⟨id, loaded⟩
      · exact mem

/-- The answer is `True` where one of the keys that are tried accepts the file. -/
theorem verifyFile_eq_true_iff {v : SignatureVerifier κ} {file : Except PyExc Bytes}
    {signatureB64 : String} {keyId : Option String} :
    v.verifyFile lib file signatureB64 keyId = .ok true ↔
      ∃ key ∈ v.keysToTry keyId, Accepts lib key file signatureB64 := by
  unfold verifyFile
  by_cases none : v.keys.isEmpty = true
  · rw [if_pos none]
    refine iff_of_false nofun fun ⟨key, tried, _⟩ => ?_
    have mem := keysToTry_subset tried
    rw [List.isEmpty_iff.1 none] at mem
    cases mem
  · rw [if_neg none]
    unfold Accepts
    cases file with
    | error e => exact iff_of_false nofun fun ⟨_, _, _, _, read, _⟩ => nomatch read
    | ok data =>
      cases decoded : b64decode signatureB64 with
      | error e =>
        refine iff_of_false (fun h => ?_) fun ⟨_, _, _, _, _, read, _⟩ => nomatch read
        simp only [bind, Except.bind] at h
        cases h
      | ok signature =>
        have answer : (do
            let data ← Except.ok data
            let signature ← Except.ok signature
            return (v.keysToTry keyId).any fun key => lib.verify key signature data :
              Except PyExc Bool) =
            .ok ((v.keysToTry keyId).any fun key => lib.verify key signature data) := rfl
        rw [answer, Except.ok.injEq, List.any_eq_true]
        exact ⟨fun ⟨key, mem, verified⟩ => ⟨key, mem, data, signature, rfl, rfl, verified⟩,
          fun ⟨key, mem, _, _, rfl, rfl, verified⟩ => ⟨key, mem, verified⟩⟩

/-- `verify_file` tries the key that is loaded with the id, and all keys where there is none. -/
theorem verifyFile_selects (lib : Ed25519 κ) (loads : List (String × String))
    (file : Except PyExc Bytes) (signatureB64 : String) (keyId : Option String) :
    Selects lib loads file signatureB64 keyId := by
  refine ⟨fun id key given nonempty loaded => ?_, fun absent => ?_⟩
  · have tried : (afterLoads lib loads).keysToTry keyId = [key] := by
      unfold keysToTry
      rw [given]
      dsimp only
      rw [if_neg nonempty, get?_afterLoads, loaded]
    rw [verifyFile_eq_true_iff, tried]
    simp only [List.mem_singleton, exists_eq_left]
  · have tried : (afterLoads lib loads).keysToTry keyId = (afterLoads lib loads).keys := by
      unfold keysToTry
      cases keyId with
      | none => rfl
      | some id =>
        dsimp only
        split_ifs with empty
        · rfl
        · rw [get?_afterLoads, (absent id rfl).resolve_left empty]
    rw [verifyFile_eq_true_iff, tried]
    simp only [mem_keys_iff, get?_afterLoads]
    exact ⟨fun ⟨key, ⟨id, loaded⟩, accepts⟩ => ⟨id, key, loaded, accepts⟩,
      fun ⟨id, key, loaded, accepts⟩ => ⟨key, ⟨id, loaded⟩, accepts⟩⟩

/-- Keys that are the texts themselves, each of which verifies its own bytes. -/
def sampleEd25519 : Ed25519 Bytes :=
    ⟨fun pem => .ok (some pem), fun key signature _ => key = signature⟩

/-- A key is trusted, and the file is signed with it, but the id is not the one of the key. -/
theorem unknown_id_accepted : ¬ ∀ (κ : Type) (lib : Ed25519 κ) (loads : List (String × String))
    (file : Except PyExc Bytes) (signatureB64 : String) (keyId : Option String),
    Guards lib loads file signatureB64 keyId := by
  intro claim
  have named := (claim Bytes sampleEd25519 [("release", "A")] (.ok []) "QQ==" (some "other")).named
    "other" rfl
  obtain ⟨key, loaded, -⟩ := named (by decide +kernel)
  cases loaded

end SignatureVerifier

end Cpip
