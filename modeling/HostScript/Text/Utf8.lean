import HostScript.Text.CodePoint

/-!
# UTF-8

Writing fails exactly at surrogates and names the first run of them. Reading is defined by
`Head.read`, which takes one character off a byte list or says how many bytes are bad and why;
`decode` stops at the first bad head and `decodeLossy` puts U+FFFD in its place.
-/

namespace HostScript

/-- A byte string. -/
abbrev Bytes := List UInt8

namespace CodePoint

/-- How many bytes a code point takes; surrogates are counted like their neighbours. -/
def utf8Size : CodePoint → Nat
  | .scalar c => c.utf8Size
  | .surrogate _ => 3

/-- The bytes of a code point. A surrogate has none. -/
def utf8 : CodePoint → Bytes
  | .scalar c => String.utf8EncodeChar c
  | .surrogate _ => []

theorem utf8Size_pos (c : CodePoint) : 0 < c.utf8Size := by
  cases c with
  | scalar c => exact Char.utf8Size_pos c
  | surrogate s => exact Nat.succ_pos 2

end CodePoint

namespace Utf8

-- the natural number zero means the same whatever else is imported
attribute [local instance (2000)] Zero.ofOfNat0

/-- The number of bytes that a text takes. -/
def size (t : Text) : Nat := (t.map CodePoint.utf8Size).sum

@[simp] theorem size_nil : size [] = 0 := rfl

@[simp] theorem size_cons (c : CodePoint) (t : Text) : size (c :: t) = c.utf8Size + size t := rfl

@[simp] theorem size_append (s t : Text) : size (s ++ t) = size s + size t := by
  simp [size]

/-- A run of surrogates from position `first` to `last`, starting with `code`. -/
structure EncodeFault where
  first : Nat
  last : Nat
  code : Fin 0x800
deriving DecidableEq

/-- The wording of an encoding failure. -/
def EncodeFault.message (f : EncodeFault) : Text :=
  if f.first = f.last then
    "'utf-8' codec can't encode character '\\u" ++ Text.hex 4 (0xD800 + f.code.val)
      ++ "' in position " ++ Text.ofNat f.first ++ ": surrogates not allowed"
  else
    "'utf-8' codec can't encode characters in position " ++ Text.ofNat f.first ++ "-"
      ++ Text.ofNat f.last ++ ": surrogates not allowed"

/-- The first run of surrogates of a text that starts at position `i`. -/
def surrogateRun? (i : Nat) : Text → Option EncodeFault
  | [] => none
  | .scalar _ :: rest => surrogateRun? (i + 1) rest
  | .surrogate s :: rest =>
    some ⟨i, i + (rest.takeWhile CodePoint.isSurrogate).length, s⟩

/-- The bytes of a text, if it holds no surrogate. -/
def encode (t : Text) : Except EncodeFault Bytes :=
  match surrogateRun? 0 t with
  | some fault => .error fault
  | none => .ok (t.flatMap CodePoint.utf8)

/-- A text is encodable unless it holds a surrogate. -/
theorem surrogateRun?_eq_none_iff (i : Nat) (t : Text) :
    surrogateRun? i t = none ↔ ∀ c ∈ t, c.isSurrogate = false := by
  induction t generalizing i with
  | nil => simp [surrogateRun?]
  | cons c rest ih =>
    cases c with
    | scalar c => simp [surrogateRun?, CodePoint.isSurrogate, ih]
    | surrogate s => simp [surrogateRun?, CodePoint.isSurrogate]

/-- Why bytes are not UTF-8. -/
inductive DecodeCause
  | invalidStart
  | invalidContinuation
  | unexpectedEnd
deriving DecidableEq

/-- What stands at the head of a byte list: a character, or bad bytes. -/
inductive Head
  | char (c : Char) (length : Nat)
  | bad (cause : DecodeCause) (length : Nat)

/-- Reads `more` continuation bytes, the first of them from `low` to `high`. -/
def Head.follow (value taken : Nat) : (more : Nat) → (low high : Nat) → Bytes → Head
  | 0, _, _, _ => .char (Char.ofNat value) taken
  | _ + 1, _, _, [] => .bad .unexpectedEnd taken
  | more + 1, low, high, b :: rest =>
    if low ≤ b.toNat ∧ b.toNat ≤ high then
      follow (value * 64 + (b.toNat - 0x80)) (taken + 1) more 0x80 0xBF rest
    else
      .bad .invalidContinuation taken

/-- Reads the character that starts with byte `b`. Overlong forms, surrogates and numbers past
the last code point are kept out by the bounds on the second byte. -/
def Head.read (b : UInt8) (rest : Bytes) : Head :=
  let n := b.toNat
  if n < 0x80 then .char (Char.ofNat n) 1
  else if n < 0xC2 then .bad .invalidStart 1
  else if n < 0xE0 then follow (n - 0xC0) 1 1 0x80 0xBF rest
  else if n = 0xE0 then follow 0 1 2 0xA0 0xBF rest
  else if n = 0xED then follow 13 1 2 0x80 0x9F rest
  else if n < 0xF0 then follow (n - 0xE0) 1 2 0x80 0xBF rest
  else if n = 0xF0 then follow 0 1 3 0x90 0xBF rest
  else if n < 0xF4 then follow (n - 0xF0) 1 3 0x80 0xBF rest
  else if n = 0xF4 then follow 4 1 3 0x80 0x8F rest
  else .bad .invalidStart 1

/-- Bad bytes from position `first` to `last`, starting with `byte`. -/
structure DecodeFault where
  cause : DecodeCause
  byte : UInt8
  first : Nat
  last : Nat

/-- The wording of a decoding failure. -/
def DecodeFault.message (f : DecodeFault) : Text :=
  let reason : Text := match f.cause with
    | .invalidStart => "invalid start byte"
    | .invalidContinuation => "invalid continuation byte"
    | .unexpectedEnd => "unexpected end of data"
  if f.first = f.last then
    "'utf-8' codec can't decode byte 0x" ++ Text.hex 2 f.byte.toNat ++ " in position "
      ++ Text.ofNat f.first ++ ": " ++ reason
  else
    "'utf-8' codec can't decode bytes in position " ++ Text.ofNat f.first ++ "-"
      ++ Text.ofNat f.last ++ ": " ++ reason

/-- Reads bytes that start at the given position, up to the first bad ones. -/
def decodeFrom (position : Nat) : Bytes → Except DecodeFault Text
  | [] => .ok []
  | b :: rest =>
    match Head.read b rest with
    | .bad cause length => .error ⟨cause, b, position, position + length - 1⟩
    | .char c length => do
      let more ← decodeFrom (position + length) (rest.drop (length - 1))
      return .scalar c :: more
termination_by bytes => bytes.length
decreasing_by simp only [List.length_drop, List.length_cons]; omega

/-- The text of some bytes. -/
def decode (bytes : Bytes) : Except DecodeFault Text := decodeFrom 0 bytes

/-- The text of some bytes, with U+FFFD for every stretch of bad ones. -/
def decodeLossy : Bytes → Text
  | [] => []
  | b :: rest =>
    match Head.read b rest with
    | .bad _ length => .scalar '\ufffd' :: decodeLossy (rest.drop (length - 1))
    | .char c length => .scalar c :: decodeLossy (rest.drop (length - 1))
termination_by bytes => bytes.length
decreasing_by all_goals (simp only [List.length_drop, List.length_cons]; omega)

end Utf8

end HostScript
