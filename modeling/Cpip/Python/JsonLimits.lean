import Mathlib.Data.List.Chain
import Mathlib.Logic.Denumerable
import Mathlib.Logic.Equiv.List
import Cpip.Python.JsonChars

/-!
# Long integers and surrogates in JSON

Two things that the trees of `JsonText` leave out.  The interpreter refuses to spell and to read an
integer of too many digits, as a value and as a key (`dumpsWithin`, `loadsWithin`).  And a Python
string is a list of code points, which may be halves of surrogate pairs, as no Lean string has them:
`json.dumps` escapes each half, and the reader makes one character of a high half and a low half
that follows it, so that a string is read back exactly when no low half stands directly behind a
high one (`reread_eq_self_iff`).
-/

/-! ## Long integers -/

/-- The interpreter spells and reads the integer. -/
def Int.short (allows : ℕ → Bool) (i : ℤ) : Bool := allows (Nat.toDigits 10 i.natAbs).length

def PyAtom.short (allows : ℕ → Bool) : PyAtom → Bool
  | .int i => i.short allows
  | _ => true

namespace PyKey

mutual

def short (allows : ℕ → Bool) : PyKey → Bool
  | .atom a => a.short allows
  | .tuple items => shortList allows items

def shortList (allows : ℕ → Bool) : List PyKey → Bool
  | [] => true
  | k :: ks => short allows k && shortList allows ks

end

end PyKey

namespace PyVal

/-- The integers at one place, as a value and as keys, are short. -/
def shortNode (allows : ℕ → Bool) : PyVal → Bool
  | .atom a => a.short allows
  | .dict items => items.all fun e => e.1.short allows
  | _ => true

/-- The integers of the value are short. -/
def Short (allows : ℕ → Bool) (v : PyVal) : Prop := v.Everywhere fun u => u.shortNode allows

instance (allows : ℕ → Bool) (v : PyVal) : Decidable (v.Short allows) :=
  inferInstanceAs (Decidable (v.Everywhere fun u => u.shortNode allows))

end PyVal

/-- `json.dumps(value, default=str)` in an interpreter with a limit on the digits of integers.  That
`dumps` raises stands first, whichever of the two it comes to first. -/
def PyText.dumpsWithin (py : PyText) (allows : ℕ → Bool) (v : PyVal) : Except PyExc JsonText := do
  let t ← py.dumps v
  if v.Short allows then return t
  else .error (.valueError "Exceeds the limit for integer string conversion")

namespace JsonText

mutual

/-- The integers of the text are short.  Member names are no integers. -/
def short (allows : ℕ → Bool) : JsonText → Bool
  | .int i => i.short allows
  | .arr xs => shortList allows xs
  | .obj ms => shortMembers allows ms
  | _ => true

def shortList (allows : ℕ → Bool) : List JsonText → Bool
  | [] => true
  | x :: xs => short allows x && shortList allows xs

def shortMembers (allows : ℕ → Bool) : List (String × JsonText) → Bool
  | [] => true
  | (_, x) :: rest => short allows x && shortMembers allows rest

end

/-- `json.loads(text)` in an interpreter with a limit on the digits of integers. -/
def loadsWithin (allows : ℕ → Bool) (t : JsonText) : Except PyExc PyVal :=
  if t.short allows then .ok t.loads
  else .error (.valueError "Exceeds the limit for integer string conversion")

mutual

/-- The tree that a reader gets who reads `f s` where `s` was spelled. -/
def mapStr (f : String → String) : JsonText → JsonText
  | .str s => .str (f s)
  | .arr xs => .arr (mapStrList f xs)
  | .obj ms => .obj (mapStrMembers f ms)
  | t => t

def mapStrList (f : String → String) : List JsonText → List JsonText
  | [] => []
  | x :: xs => mapStr f x :: mapStrList f xs

def mapStrMembers (f : String → String) : List (String × JsonText) → List (String × JsonText)
  | [] => []
  | (name, x) :: rest => (f name, mapStr f x) :: mapStrMembers f rest

end

mutual

theorem mapStr_id : ∀ t : JsonText, t.mapStr id = t
  | .null | .bool _ | .int _ | .float _ | .str _ => rfl
  | .arr xs => congrArg JsonText.arr (mapStrList_id xs)
  | .obj ms => congrArg JsonText.obj (mapStrMembers_id ms)

theorem mapStrList_id : ∀ xs : List JsonText, mapStrList id xs = xs
  | [] => rfl
  | x :: xs => congrArg₂ List.cons (mapStr_id x) (mapStrList_id xs)

theorem mapStrMembers_id : ∀ ms : List (String × JsonText), mapStrMembers id ms = ms
  | [] => rfl
  | (name, x) :: rest =>
    congrArg₂ List.cons (congrArg (Prod.mk name) (mapStr_id x)) (mapStrMembers_id rest)

end

variable (allows : ℕ → Bool) (f : String → String)

mutual

theorem short_mapStr : ∀ t : JsonText, (t.mapStr f).short allows = t.short allows
  | .null | .bool _ | .int _ | .float _ | .str _ => rfl
  | .arr xs => shortList_mapStrList xs
  | .obj ms => shortMembers_mapStrMembers ms

theorem shortList_mapStrList :
    ∀ xs : List JsonText, shortList allows (mapStrList f xs) = shortList allows xs
  | [] => rfl
  | x :: xs => congrArg₂ and (short_mapStr x) (shortList_mapStrList xs)

theorem shortMembers_mapStrMembers : ∀ ms : List (String × JsonText),
    shortMembers allows (mapStrMembers f ms) = shortMembers allows ms
  | [] => rfl
  | (_, x) :: rest => congrArg₂ and (short_mapStr x) (shortMembers_mapStrMembers rest)

end

end JsonText

namespace PyText

variable (py : PyText) {allows : ℕ → Bool}

theorem dumpsWithin_eq_ok_iff {v : PyVal} {t : JsonText} :
    py.dumpsWithin allows v = .ok t ↔ py.dumps v = .ok t ∧ v.Short allows := by
  unfold dumpsWithin
  cases py.dumps v with
  | error e => simp [bind, Except.bind]
  | ok u =>
    show (if v.Short allows then Except.ok u else _) = _ ↔ _
    split_ifs with short
    · exact (and_iff_left short).symm
    · exact iff_of_false (by simp) fun both => short both.2

theorem shortList_of_dumpsList {xs : List PyVal} {ts : List JsonText}
    (parts : ∀ x ∈ xs, ∀ t, py.dumps x = .ok t → t.short allows)
    (hts : py.dumpsList xs = .ok ts) : JsonText.shortList allows ts := by
  induction xs generalizing ts with
  | nil =>
    obtain rfl := Except.ok.inj hts
    rfl
  | cons x xs ih =>
    obtain ⟨t, ts', ht, hts', rfl⟩ := py.dumpsList_cons_eq_ok.1 hts
    rw [List.forall_mem_cons] at parts
    simp [JsonText.shortList, parts.1 t ht, ih parts.2 hts']

theorem shortMembers_of_dumpsItems {items : List (PyKey × PyVal)}
    {ms : List (String × JsonText)}
    (parts : ∀ e ∈ items, ∀ t, py.dumps e.2 = .ok t → t.short allows)
    (hms : py.dumpsItems items = .ok ms) : JsonText.shortMembers allows ms := by
  induction items generalizing ms with
  | nil =>
    obtain rfl := Except.ok.inj hms
    rfl
  | cons e rest ih =>
    obtain ⟨k, x⟩ := e
    obtain ⟨name, t, ms', -, ht, hms', rfl⟩ := py.dumpsItems_cons_eq_ok.1 hms
    rw [List.forall_mem_cons] at parts
    simp [JsonText.shortMembers, parts.1 t ht, ih parts.2 hms']

/-- What was spelled within the limit is read within it. -/
theorem short_of_dumps {v : PyVal} (short : v.Short allows) {t : JsonText}
    (ht : py.dumps v = .ok t) : t.short allows := by
  induction v using PyVal.inductionOn generalizing t with
  | atom a =>
    cases a with
    | int i =>
      obtain rfl := Except.ok.inj ht
      exact short
    | _ =>
      obtain rfl := Except.ok.inj ht
      rfl
  | ndarray arr | set xs =>
    obtain rfl := Except.ok.inj ht
    rfl
  | list xs ih =>
    have parts := ((PyVal.everywhere_list_iff xs).1 short).2
    obtain ⟨ts, hts, rfl⟩ := except_map_eq_ok.1 ht
    exact py.shortList_of_dumpsList (fun x hx t => ih x hx (parts x hx)) hts
  | tuple xs ih =>
    have parts := ((PyVal.everywhere_tuple_iff xs).1 short).2
    obtain ⟨ts, hts, rfl⟩ := except_map_eq_ok.1 ht
    exact py.shortList_of_dumpsList (fun x hx t => ih x hx (parts x hx)) hts
  | dict items ih =>
    have parts := ((PyVal.everywhere_dict_iff items).1 short).2
    obtain ⟨ms, hms, rfl⟩ := except_map_eq_ok.1 ht
    exact py.shortMembers_of_dumpsItems (fun e he t => ih e he (parts e he)) hms

/-- The reader, whatever it makes of the strings, stays within the limit that the sender kept. -/
theorem loadsWithin_of_dumpsWithin (f : String → String) {v : PyVal} {t : JsonText}
    (ht : py.dumpsWithin allows v = .ok t) :
    (t.mapStr f).loadsWithin allows = .ok (t.mapStr f).loads := by
  obtain ⟨dumped, short⟩ := py.dumpsWithin_eq_ok_iff.1 ht
  refine if_pos ?_
  rw [JsonText.short_mapStr]
  exact py.short_of_dumps short dumped

end PyText

/-! ## Surrogates -/

namespace JsonChars

/-- The UTF-16 code units of a code point. -/
def pointUnits (n : ℕ) : List ℕ :=
  if n < 0x10000 then [n] else [0xd800 + (n - 0x10000) / 0x400, 0xdc00 + (n - 0x10000) % 0x400]

/-- `ESCAPE_ASCII`, of a code point. -/
def escapePoint (n : ℕ) : List Char :=
  if n.isValidChar then escape (Char.ofNat n) else '\\' :: 'u' :: hex4 n

/-- The code points of code points and escaped code units, of which two halves make one. -/
def joinPoints : List ℕ → List ℕ
  | n :: m :: ns =>
    if isHigh n ∧ isLow m then (0x10000 + ((n - 0xd800) * 0x400 + (m - 0xdc00))) :: joinPoints ns
    else n :: joinPoints (m :: ns)
  | ns => ns

/-- The code points that the reader gets where `points` were spelled. -/
def reread (points : List ℕ) : List ℕ := joinPoints (points.flatMap pointUnits)

/-- No low half stands directly behind a high one. -/
def Apart (points : List ℕ) : Prop := points.IsChain fun n m => ¬ (isHigh n ∧ isLow m)

theorem toNat_ofNat {n : ℕ} (valid : n.isValidChar) : (Char.ofNat n).toNat = n := by
  rw [Char.ofNat, dif_pos valid]
  rfl

theorem units_ofNat {n : ℕ} (valid : n.isValidChar) : units (Char.ofNat n) = pointUnits n := by
  rw [units, toNat_ofNat valid]
  rfl

theorem body_escapePoint {n : ℕ} (inRange : n < 0x110000) (cs : List Char) :
    body (escapePoint n ++ cs) = (body cs).map fun r => (pointUnits n ++ r.1, r.2) := by
  unfold escapePoint
  split_ifs with valid
  · rw [body_escape, units_ofNat valid]
  · have half : n < 0x10000 := by
      simp only [Nat.isValidChar] at valid
      omega
    show body ('\\' :: 'u' :: (hex4 n ++ cs)) = _
    rw [body_unit half, pointUnits, if_pos half]
    rfl

/-- What is spelled of a string is read as its code units, up to the quote that closes it. -/
theorem body_points {points : List ℕ} (inRange : ∀ n ∈ points, n < 0x110000) (rest : List Char) :
    body (points.flatMap escapePoint ++ '"' :: rest) = some (points.flatMap pointUnits, rest) := by
  induction points with
  | nil => rfl
  | cons n points ih =>
    rw [List.forall_mem_cons] at inRange
    rw [List.flatMap_cons, List.append_assoc, body_escapePoint inRange.1, ih inRange.2]
    rfl

/-- The reader gets `reread points` where `points` were spelled. -/
theorem read_spelled {points : List ℕ} (inRange : ∀ n ∈ points, n < 0x110000) (rest : List Char) :
    (body (points.flatMap escapePoint ++ '"' :: rest)).map (fun r => (joinPoints r.1, r.2)) =
      some (reread points, rest) := by
  rw [body_points inRange]
  rfl

/-- The first code unit is a low half only when the code point is one. -/
theorem pointUnits_cons {m : ℕ} (inRange : m < 0x110000) :
    ∃ u us, pointUnits m = u :: us ∧ (isLow u → u = m ∧ m < 0x10000) := by
  unfold pointUnits
  split_ifs with small
  · exact ⟨m, [], rfl, fun _ => ⟨rfl, small⟩⟩
  · refine ⟨_, _, rfl, fun low => ?_⟩
    simp only [isLow, decide_eq_true_eq] at low
    omega

/-- A character outside the first plane is joined from its halves. -/
theorem joinPoints_astral {n : ℕ} (large : 0x10000 ≤ n) (inRange : n < 0x110000) (ns : List ℕ) :
    joinPoints (pointUnits n ++ ns) = n :: joinPoints ns := by
  have high : isHigh (0xd800 + (n - 0x10000) / 0x400) = true := by
    simp only [isHigh, decide_eq_true_eq]
    omega
  have low : isLow (0xdc00 + (n - 0x10000) % 0x400) = true := by
    simp only [isLow, decide_eq_true_eq]
    omega
  have whole : 0x10000 + ((0xd800 + (n - 0x10000) / 0x400 - 0xd800) * 0x400 +
      (0xdc00 + (n - 0x10000) % 0x400 - 0xdc00)) = n := by omega
  rw [pointUnits, if_neg (Nat.not_lt.2 large)]
  show joinPoints (_ :: _ :: ns) = _
  rw [joinPoints, high, low, if_pos ⟨rfl, rfl⟩, whole]

/-- Joining makes nothing but characters outside the first plane. -/
theorem forall_mem_joinPoints {P : ℕ → Prop} (astral : ∀ n, 0x10000 ≤ n → n < 0x110000 → P n) :
    ∀ {ns : List ℕ}, (∀ n ∈ ns, P n) → ∀ n ∈ joinPoints ns, P n
  | n :: m :: ns, all => by
    rw [joinPoints]
    split_ifs with pair
    · have rest : ∀ n ∈ ns, P n := fun n hn => all n (by simp [hn])
      simp only [isHigh, isLow, decide_eq_true_eq] at pair
      refine List.forall_mem_cons.2 ⟨astral _ (by omega) (by omega), ?_⟩
      exact forall_mem_joinPoints astral rest
    · rw [List.forall_mem_cons] at all ⊢
      exact ⟨all.1, forall_mem_joinPoints astral all.2⟩
  | [_], all => all
  | [], all => all

theorem reread_inRange {points : List ℕ} (inRange : ∀ n ∈ points, n < 0x110000) :
    ∀ n ∈ reread points, n < 0x110000 := by
  refine forall_mem_joinPoints (fun n _ small => small) fun u hu => ?_
  obtain ⟨n, hn, hu⟩ := List.mem_flatMap.1 hu
  have small := inRange n hn
  unfold pointUnits at hu
  split_ifs at hu
  · simp only [List.mem_singleton] at hu
    omega
  · simp only [List.mem_cons, List.not_mem_nil, or_false] at hu
    omega

/-- A string is read back exactly when none of its high halves stands before a low one. -/
theorem reread_eq_self_iff {points : List ℕ} (inRange : ∀ n ∈ points, n < 0x110000) :
    reread points = points ↔ Apart points := by
  unfold reread Apart
  induction points with
  | nil => exact iff_of_true rfl .nil
  | cons n points ih =>
    rw [List.forall_mem_cons] at inRange
    have ih := ih inRange.2
    rw [List.flatMap_cons]
    by_cases large : 0x10000 ≤ n
    · have low : isHigh n = false := by
        simp only [isHigh, decide_eq_false_iff_not]
        omega
      rw [joinPoints_astral large inRange.1, List.cons_inj_right, ih, List.isChain_cons]
      simp [low]
    · have unit : pointUnits n = [n] := if_pos (Nat.not_le.1 large)
      rw [unit, List.singleton_append]
      cases points with
      | nil => exact iff_of_true rfl (.singleton n)
      | cons m rest =>
        obtain ⟨u, us, first, low⟩ := pointUnits_cons (inRange.2 m (List.mem_cons_self ..))
        rw [List.isChain_cons_cons]
        rw [List.flatMap_cons, first, List.cons_append] at ih ⊢
        rw [joinPoints]
        split_ifs with pair
        · -- the two halves make one character
          refine iff_of_false (fun same => ?_) fun apart => ?_
          · have joined := (List.cons.inj same).1
            omega
          · obtain ⟨rfl, -⟩ := low pair.2
            exact apart.1 pair
        · rw [List.cons_inj_right, ih]
          refine (and_iff_right fun both => pair ⟨both.1, ?_⟩).symm
          have unit : pointUnits m = [m] := by
            have half := both.2
            simp only [isLow, decide_eq_true_eq] at half
            exact if_pos (by omega)
          rw [unit] at first
          rw [← (List.cons.inj first).1]
          exact both.2

end JsonChars

/-! ## Strings of the model -/

/-- All characters are ASCII. -/
def String.ascii (s : String) : Bool := s.toList.all fun c => c.toNat < 128

/-- Which Python strings the strings of the model stand for, by their code points: a string of ASCII
characters stands for itself, and what the reader gets of a string has one that stands for it. -/
structure PyStrings where
  points : String → List ℕ
  injective : Function.Injective points
  inRange : ∀ s, ∀ n ∈ points s, n < 0x110000
  ascii : ∀ s : String, s.ascii → points s = s.toList.map Char.toNat
  reread : String → String
  points_reread : ∀ s, points (reread s) = JsonChars.reread (points s)

namespace PyStrings

open JsonChars (Apart)

variable (st : PyStrings)

theorem reread_eq_self_iff (s : String) : st.reread s = s ↔ Apart (st.points s) := by
  rw [← JsonChars.reread_eq_self_iff (st.inRange s), ← st.points_reread]
  exact st.injective.eq_iff.symm

theorem reread_of_ascii {s : String} (ascii : s.ascii) : st.reread s = s := by
  rw [st.reread_eq_self_iff, st.ascii s ascii, Apart]
  refine (List.pairwise_map.2 (List.pairwise_of_forall_mem_list fun c hc d _ both => ?_)).isChain
  have small : c.toNat < 128 := by simpa using List.all_eq_true.1 ascii c hc
  have high := both.1
  simp only [JsonChars.isHigh, decide_eq_true_eq] at high
  omega

/-- The code point that a character stands for, where U+E000 to U+E7FF stand for the halves of
surrogate pairs. -/
def point (c : Char) : ℕ := if 0xe000 ≤ c.toNat ∧ c.toNat < 0xe800 then c.toNat - 0x800 else c.toNat

/-- The character that stands for a code point. -/
def char (n : ℕ) : Char := Char.ofNat (if 0xd800 ≤ n ∧ n < 0xe000 then n + 0x800 else n)

/-- What has a character that stands for it. -/
def Named (n : ℕ) : Prop := n < 0xe000 ∨ 0xe800 ≤ n ∧ n < 0x110000

theorem named_point (c : Char) : Named (point c) := by
  have valid := JsonChars.toNat_cases c
  unfold Named point
  split_ifs <;> omega

theorem point_char {n : ℕ} (named : Named n) : point (char n) = n := by
  have toNat {m : ℕ} (h : m < 0xd800 ∨ 0xdfff < m ∧ m < 0x110000) : (Char.ofNat m).toNat = m :=
    JsonChars.toNat_ofNat h
  unfold Named at named
  unfold char
  split_ifs with half
  · rw [point, toNat (by omega), if_pos (by omega)]
    omega
  · rw [point, toNat (by omega), if_neg (by omega)]

theorem char_point (c : Char) : char (point c) = c := by
  have valid := JsonChars.toNat_cases c
  have same : (if 0xd800 ≤ point c ∧ point c < 0xe000 then point c + 0x800 else point c) =
      c.toNat := by
    unfold point
    split_ifs <;> omega
  rw [char, same, Char.ofNat_toNat]

theorem named_units {n : ℕ} (named : Named n) : ∀ u ∈ JsonChars.pointUnits n, Named u := by
  unfold Named at named
  unfold JsonChars.pointUnits
  split_ifs with small
  · simpa [Named] using named
  · simp only [List.forall_mem_cons, Named]
    exact ⟨by omega, by omega, by simp⟩

/-- The halves of surrogate pairs have characters that stand for them. -/
def withSurrogates : PyStrings where
  points s := s.toList.map point
  injective s t same := by
    have inj : Function.Injective point := Function.LeftInverse.injective char_point
    exact String.toList_injective (List.map_injective_iff.2 inj same)
  inRange s n hn := by
    obtain ⟨c, -, rfl⟩ := List.mem_map.1 hn
    have named := named_point c
    unfold Named at named
    omega
  ascii s ascii := by
    refine List.map_congr_left fun c hc => ?_
    have small : c.toNat < 128 := by simpa using List.all_eq_true.1 ascii c hc
    exact if_neg (by omega)
  reread s := String.ofList ((JsonChars.reread (s.toList.map point)).map char)
  points_reread s := by
    have named : ∀ n ∈ JsonChars.reread (s.toList.map point), Named n := by
      refine JsonChars.forall_mem_joinPoints (fun n large small => .inr ⟨by omega, small⟩)
        fun u hu => ?_
      obtain ⟨n, hn, hu⟩ := List.mem_flatMap.1 hu
      obtain ⟨c, -, rfl⟩ := List.mem_map.1 hn
      exact named_units (named_point c) u hu
    rw [String.toList_ofList, List.map_map]
    refine (List.map_congr_left fun n hn => ?_).trans (List.map_id _)
    exact point_char (named n hn)

/-! ### All strings -/

/-- The strings that do not stand for themselves. -/
abbrev Wide := {s : String // ¬ s.ascii}

/-- The Python strings that are not ASCII. -/
abbrev WidePoints := {points : List ℕ // (∀ n ∈ points, n < 0x110000) ∧ ¬ ∀ n ∈ points, n < 128}

theorem toNat_injective : Function.Injective fun s : String => s.toList.map Char.toNat := by
  intro s t same
  have inj : Function.Injective Char.toNat := Function.LeftInverse.injective Char.ofNat_toNat
  exact String.toList_injective (List.map_injective_iff.2 inj same)

theorem ascii_iff {s : String} : s.ascii ↔ ∀ n ∈ s.toList.map Char.toNat, n < 128 := by
  simp [String.ascii]

instance : Countable Wide := (toNat_injective.comp Subtype.val_injective).countable

instance : Infinite Wide := by
  have wide (n : ℕ) : ¬ (String.ofList (List.replicate (n + 1) 'é')).ascii := by
    rw [ascii_iff, String.toList_ofList]
    exact fun small => absurd (small 0xe9 (by simp [List.replicate_succ])) (by decide)
  refine Infinite.of_injective (fun n => (⟨_, wide n⟩ : Wide)) fun n m same => ?_
  have length := congrArg (fun s : Wide => s.1.toList.length) same
  simpa using length

instance : Infinite WidePoints := by
  have wide (n : ℕ) : (∀ k ∈ List.replicate (n + 1) 0xe9, k < 0x110000) ∧
      ¬ ∀ k ∈ List.replicate (n + 1) 0xe9, k < 128 := by
    simp
  refine Infinite.of_injective (fun n => (⟨_, wide n⟩ : WidePoints)) fun n m same => ?_
  have length := congrArg (fun points : WidePoints => points.1.length) same
  simpa using length

/-- Strings outside ASCII can stand for all Python strings outside ASCII, so the strings of the
model can stand for all Python strings. -/
theorem exists_onto : ∃ st : PyStrings, ∀ points : List ℕ, (∀ n ∈ points, n < 0x110000) →
    ∃ s, st.points s = points := by
  obtain ⟨e⟩ : Nonempty (Wide ≃ WidePoints) := inferInstance
  let points (s : String) : List ℕ :=
    if h : s.ascii then s.toList.map Char.toNat else (e ⟨s, h⟩).1
  have ofAscii {s : String} (h : s.ascii) : points s = s.toList.map Char.toNat := dif_pos h
  have ofWide {s : String} (h : ¬ s.ascii) : points s = (e ⟨s, h⟩).1 := dif_neg h
  have small_iff (s : String) : (∀ n ∈ points s, n < 128) ↔ s.ascii := by
    by_cases h : s.ascii
    · rw [ofAscii h, ascii_iff]
    · rw [ofWide h]
      exact iff_of_false (e ⟨s, h⟩).2.2 h
  have onto (ps : List ℕ) (inRange : ∀ n ∈ ps, n < 0x110000) : ∃ s, points s = ps := by
    by_cases small : ∀ n ∈ ps, n < 128
    · have same : (String.ofList (ps.map Char.ofNat)).toList.map Char.toNat = ps := by
        rw [String.toList_ofList, List.map_map]
        refine (List.map_congr_left fun n hn => ?_).trans (List.map_id _)
        exact JsonChars.toNat_ofNat (.inl (Nat.lt_trans (small n hn) (by decide)))
      exact ⟨_, (ofAscii (ascii_iff.2 (by rwa [same]))).trans same⟩
    · have wide := (e.symm ⟨ps, inRange, small⟩).2
      exact ⟨_, (ofWide wide).trans (congrArg Subtype.val (e.apply_symm_apply _))⟩
  have inRange (s : String) : ∀ n ∈ points s, n < 0x110000 := by
    by_cases h : s.ascii
    · exact fun n hn => Nat.lt_trans ((small_iff s).2 h n hn) (by decide)
    · rw [ofWide h]
      exact (e ⟨s, h⟩).2.1
  have injective : Function.Injective points := by
    intro s t same
    have both : s.ascii ↔ t.ascii := by rw [← small_iff, ← small_iff, same]
    by_cases h : s.ascii
    · rw [ofAscii h, ofAscii (both.1 h)] at same
      exact toNat_injective same
    · rw [ofWide h, ofWide (mt both.2 h)] at same
      exact congrArg Subtype.val (e.injective (Subtype.ext same))
  choose reread points_reread using
    fun s => onto _ (JsonChars.reread_inRange (inRange s))
  exact ⟨⟨points, injective, inRange, fun _ => ofAscii, reread, points_reread⟩, onto⟩

end PyStrings
