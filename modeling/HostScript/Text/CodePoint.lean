/-!
# Code points and texts

A text is a list of Unicode code points. Unlike `String` it may hold lone surrogates, which
scripts can write as escapes and JSON documents can smuggle in; everything that depends on
them (quoting, UTF-8, JSON) sees them as a constructor of their own. `toNat` is the view of a
code point: it is injective (`toNat_inj`) and `ofNat?` inverts it (`ofNat?_toNat`).
-/

namespace HostScript

/-- A Unicode code point: a scalar value, or one of the 2048 surrogates from U+D800 on. -/
inductive CodePoint
  | scalar (c : Char)
  | surrogate (offset : Fin 0x800)
deriving DecidableEq, Inhabited

namespace CodePoint

-- the natural number zero means the same whatever else is imported
attribute [local instance (2000)] Zero.ofOfNat0

-- a numeral for a surrogate uses this proof, not one of its own
instance (priority := 2000) neZeroSurrogates : NeZero 0x800 := ⟨by decide⟩

/-- The number of a code point. -/
def toNat : CodePoint → Nat
  | .scalar c => c.toNat
  | .surrogate s => 0xD800 + s.val

/-- The code point of a number, if it has one. -/
def ofNat? (n : Nat) : Option CodePoint :=
  if h : n.isValidChar then
    some (.scalar (Char.ofNatAux n h))
  else if h : 0xD800 ≤ n ∧ n < 0xE000 then
    some (.surrogate ⟨n - 0xD800, by omega⟩)
  else
    none

instance : Coe Char CodePoint := ⟨.scalar⟩

@[simp] theorem toNat_scalar (c : Char) : (scalar c).toNat = c.toNat := rfl

theorem ofNat?_toNat (c : CodePoint) : ofNat? c.toNat = some c := by
  cases c with
  | scalar c =>
    have valid : c.toNat.isValidChar := c.valid
    rw [ofNat?, toNat, dif_pos valid]
    rfl
  | surrogate s =>
    have := s.isLt
    have invalid : ¬ (0xD800 + s.val).isValidChar := by
      simp only [Nat.isValidChar]; omega
    have range : 0xD800 ≤ 0xD800 + s.val ∧ 0xD800 + s.val < 0xE000 := by omega
    rw [ofNat?, toNat, dif_neg invalid, dif_pos range]
    simp

theorem toNat_inj {a b : CodePoint} : a.toNat = b.toNat ↔ a = b := by
  refine ⟨fun h => ?_, fun h => h ▸ rfl⟩
  have := ofNat?_toNat a
  rw [h, ofNat?_toNat b] at this
  exact (Option.some.inj this).symm

theorem toNat_lt (c : CodePoint) : c.toNat < 0x110000 := by
  cases c with
  | scalar c =>
    have := c.valid
    simp only [UInt32.isValidChar, Nat.isValidChar] at this
    show c.val.toNat < 0x110000
    omega
  | surrogate s => simp only [toNat]; omega

/-- Surrogates are the code points that UTF-8 cannot express. -/
def isSurrogate : CodePoint → Bool
  | .scalar _ => false
  | .surrogate _ => true

/-- The digits `0` to `9`. -/
def isDigit : CodePoint → Bool
  | .scalar c => c.isDigit
  | .surrogate _ => false

/-- The value of a digit in base sixteen, in either case. -/
def hexDigit? : CodePoint → Option Nat
  | .surrogate _ => none
  | .scalar c =>
    if '0' ≤ c ∧ c ≤ '9' then some (c.toNat - '0'.toNat)
    else if 'a' ≤ c ∧ c ≤ 'f' then some (c.toNat - 'a'.toNat + 10)
    else if 'A' ≤ c ∧ c ≤ 'F' then some (c.toNat - 'A'.toNat + 10)
    else none

/-- Replaces `A` to `Z` by their small letters and keeps everything else. -/
def lowerAscii : CodePoint → CodePoint
  | .scalar c => .scalar c.toLower
  | c => c

end CodePoint

/-- A sequence of code points, surrogates allowed. -/
abbrev Text := List CodePoint

namespace Text

/-- The digit of a number below sixteen, with small letters. -/
def hexDigit (n : Nat) : CodePoint :=
  if n < 10 then .scalar (Char.ofNat ('0'.toNat + n)) else .scalar (Char.ofNat ('a'.toNat + n - 10))

/-- The last `width` hexadecimal digits of a number. -/
def hex : (width : Nat) → Nat → Text
  | 0, _ => []
  | width + 1, n => hex width (n / 16) ++ [hexDigit (n % 16)]

/-- A string as a text. -/
def ofString (s : String) : Text := s.toList.map .scalar

instance : Coe String Text := ⟨ofString⟩

/-- A natural number in decimal digits. -/
def ofNat (n : Nat) : Text := ofString (toString n)

/-- An integer in decimal digits, with a minus sign if it is negative. -/
def ofInt (n : Int) : Text :=
  if n < 0 then .scalar '-' :: ofNat n.natAbs else ofNat n.natAbs

/-- The string of a text without surrogates; a surrogate turns into the replacement character. -/
def toString (t : Text) : String :=
  String.ofList (t.map fun
    | .scalar c => c
    | .surrogate _ => '\ufffd')

/-- Code point order, with a beginning before everything that continues it. -/
def before : Text → Text → Bool
  | _, [] => false
  | [], _ :: _ => true
  | a :: s, b :: t => if a = b then before s t else a.toNat < b.toNat

/-- Whether `needle` stands somewhere in the text. -/
def hasInfix (needle : Text) : Text → Bool
  | [] => needle.isEmpty
  | c :: rest => needle.isPrefixOf (c :: rest) || hasInfix needle rest

/-- The parts with the separator between neighbours. -/
def join (separator : Text) (parts : List Text) : Text := separator.intercalate parts

/-- The parts between the occurrences of a code point; a text without it is one part. -/
def splitOn (c : CodePoint) : Text → List Text
  | [] => [[]]
  | d :: rest =>
    if d = c then [] :: splitOn c rest
    else match splitOn c rest with
      | [] => [[d]]
      | part :: parts => (d :: part) :: parts

/-- The text without the longest end of which every code point satisfies `p`. -/
def dropEndWhile (p : CodePoint → Bool) (t : Text) : Text :=
  (t.reverse.dropWhile p).reverse

/-- `n` copies of a character. -/
def replicate (n : Nat) (c : Char) : Text := List.replicate n (.scalar c)

/-- The text filled up with blanks on the left to at least `width` code points. -/
def padLeft (width : Nat) (t : Text) : Text := replicate (width - t.length) ' ' ++ t

theorem splitOn_ne_nil (c : CodePoint) (t : Text) : splitOn c t ≠ [] := by
  cases t with
  | nil => simp [splitOn]
  | cons d rest =>
    simp only [splitOn]
    split
    · simp
    · split <;> simp

@[simp] theorem join_nil (separator : Text) : join separator [] = [] := rfl

@[simp] theorem join_singleton (separator part : Text) : join separator [part] = part := by
  simp [join, List.intercalate]

theorem join_cons_cons (separator part next : Text) (parts : List Text) :
    join separator (part :: next :: parts) = part ++ (separator ++ join separator (next :: parts)) := by
  simp [join, List.intercalate]

theorem join_concat (separator part : Text) {parts : List Text} (h : parts ≠ []) :
    join separator (parts ++ [part]) = join separator parts ++ separator ++ part := by
  induction parts with
  | nil => exact absurd rfl h
  | cons first parts ih =>
    cases parts with
    | nil => simp [join_cons_cons]
    | cons next parts =>
      rw [List.cons_append, List.cons_append, join_cons_cons, ← List.cons_append, ih (by simp),
        join_cons_cons]
      simp

/-- A code point that is not in the separator stands in one of the parts. -/
theorem mem_join {separator : Text} {c : CodePoint} (hc : c ∉ separator) {parts : List Text} :
    c ∈ join separator parts ↔ ∃ part ∈ parts, c ∈ part := by
  induction parts with
  | nil => simp
  | cons part parts ih =>
    cases parts with
    | nil => simp
    | cons next parts =>
      rw [join_cons_cons, List.mem_append, List.mem_append, ih]
      simp [hc]

/-- Splitting loses nothing but the separators. -/
theorem join_splitOn (c : CodePoint) (t : Text) : join [c] (splitOn c t) = t := by
  induction t with
  | nil => rfl
  | cons d rest ih =>
    have nonempty := splitOn_ne_nil c rest
    simp only [splitOn]
    split
    · next h =>
      subst h
      cases parts : splitOn d rest with
      | nil => exact absurd parts nonempty
      | cons part more =>
        rw [parts] at ih
        simp only [join, List.intercalate] at ih ⊢
        simpa using ih
    · cases parts : splitOn c rest with
      | nil => exact absurd parts nonempty
      | cons part more =>
        rw [parts] at ih
        simp only [join, List.intercalate] at ih ⊢
        cases more <;> simpa using ih

end Text

/-! ## Tables of code points -/

/-- A set of numbers: ranges with both ends, ascending. -/
abbrev Ranges := List (Nat × Nat)

/-- Whether a number lies in one of the ranges. The search ends at the first range beyond it. -/
def Ranges.has : Ranges → Nat → Bool
  | [], _ => false
  | (low, high) :: rest, n => if n < low then false else n ≤ high || Ranges.has rest n

/-- The code points `first`, `first + step`, … up to `last` map to `target`, `target + step`, …. Letters
of one case often stand in such a row. -/
structure CaseRun where
  first : Nat
  last : Nat
  step : Nat
  target : Nat

namespace CaseRun

/-- Where the run maps a number, if it maps it. -/
def image? (r : CaseRun) (n : Nat) : Option Nat :=
  if r.first ≤ n ∧ n ≤ r.last ∧ (n - r.first) % r.step = 0 then some (r.target + (n - r.first))
  else none

/-- Maps a code point by the first run that has it and keeps it if there is none. -/
def applyAll (runs : List CaseRun) (c : CodePoint) : CodePoint :=
  match runs.findSome? (·.image? c.toNat) with
  | some n => (CodePoint.ofNat? n).getD c
  | none => c

end CaseRun

end HostScript
