import HostScript.Proofs.Syntax.Layout
import HostScript.Text.Utf8

/-!
# Texts and their bytes

Reading the bytes of a text without surrogates gives the text again, also where reading does not
stop at bad bytes (`decodeLossy_utf8`). A line feed is the one code point with a byte `0x0A`.
-/

namespace HostScript

namespace Utf8

/-! ## Characters -/

theorem toNat_byte {n : Nat} (h : n < 256) : (UInt8.ofNat n).toNat = n :=
  UInt8.toNat_ofNat_of_lt' h

theorem lineFeed_eq_byte_iff {n : Nat} (h : n < 256) : 0x0A = UInt8.ofNat n ↔ n = 0x0A := by
  rw [← UInt8.toNat_inj, toNat_byte h]
  exact eq_comm

/-- A continuation byte within the bounds is taken. -/
theorem Head.follow_of_le {value taken more low high : Nat} {b : UInt8} (hlow : low ≤ b.toNat)
    (hhigh : b.toNat ≤ high) (rest : Bytes) :
    follow value taken (more + 1) low high (b :: rest) =
      follow (value * 64 + (b.toNat - 0x80)) (taken + 1) more 0x80 0xBF rest :=
  if_pos ⟨hlow, hhigh⟩

/-- The head of a character with one continuation byte. -/
theorem Head.read_of_two {v : Nat} (hlow : 0x80 ≤ v) (hhigh : v < 0x800) (rest : Bytes) :
    read (UInt8.ofNat (v / 64 % 32 + 192)) (UInt8.ofNat (v % 64 + 128) :: rest) =
      .char (Char.ofNat v) 2 := by
  have hfirst : (UInt8.ofNat (v / 64 % 32 + 192)).toNat = v / 64 + 192 := by
    rw [toNat_byte (by omega)]
    omega
  have hsecond : (UInt8.ofNat (v % 64 + 128)).toNat = v % 64 + 128 :=
    toNat_byte (by omega)
  rw [read, hfirst, if_neg (by omega), if_neg (by omega), if_pos (by omega),
    follow_of_le (by omega) (by omega), hsecond]
  exact congrArg (Head.char · 2) (congrArg Char.ofNat (by omega))

/-- The head of a character with two continuation bytes. Surrogates are not among them. -/
theorem Head.read_of_three {v : Nat} (hlow : 0x800 ≤ v) (hhigh : v < 0x10000)
    (hvalid : v < 0xD800 ∨ 0xDFFF < v) (rest : Bytes) :
    read (UInt8.ofNat (v / 4096 % 16 + 224))
        (UInt8.ofNat (v / 64 % 64 + 128) :: UInt8.ofNat (v % 64 + 128) :: rest) =
      .char (Char.ofNat v) 3 := by
  have hfirst : (UInt8.ofNat (v / 4096 % 16 + 224)).toNat = v / 4096 + 224 := by
    rw [toNat_byte (by omega)]
    omega
  have hsecond : (UInt8.ofNat (v / 64 % 64 + 128)).toNat = v / 64 % 64 + 128 :=
    toNat_byte (by omega)
  have hthird : (UInt8.ofNat (v % 64 + 128)).toNat = v % 64 + 128 :=
    toNat_byte (by omega)
  have hvalue {value low high : Nat} (h : value = v / 4096) (hbounds : low ≤ v / 64 % 64 + 128 ∧
      v / 64 % 64 + 128 ≤ high) :
      follow value 1 2 low high
          (UInt8.ofNat (v / 64 % 64 + 128) :: UInt8.ofNat (v % 64 + 128) :: rest) =
        .char (Char.ofNat v) 3 := by
    rw [follow_of_le (by omega) (by omega), follow_of_le (by omega) (by omega), hsecond, hthird]
    exact congrArg (Head.char · 3) (congrArg Char.ofNat (by omega))
  rw [read, hfirst, if_neg (by omega), if_neg (by omega), if_neg (by omega)]
  split
  · exact hvalue (by omega) (by omega)
  · split
    · exact hvalue (by omega) (by omega)
    · rw [if_pos (by omega)]
      exact hvalue (by omega) (by omega)

/-- The head of a character with three continuation bytes. -/
theorem Head.read_of_four {v : Nat} (hlow : 0x10000 ≤ v) (hhigh : v < 0x110000) (rest : Bytes) :
    read (UInt8.ofNat (v / 262144 % 8 + 240)) (UInt8.ofNat (v / 4096 % 64 + 128) ::
        UInt8.ofNat (v / 64 % 64 + 128) :: UInt8.ofNat (v % 64 + 128) :: rest) =
      .char (Char.ofNat v) 4 := by
  have hfirst : (UInt8.ofNat (v / 262144 % 8 + 240)).toNat = v / 262144 + 240 := by
    rw [toNat_byte (by omega)]
    omega
  have hsecond : (UInt8.ofNat (v / 4096 % 64 + 128)).toNat = v / 4096 % 64 + 128 :=
    toNat_byte (by omega)
  have hthird : (UInt8.ofNat (v / 64 % 64 + 128)).toNat = v / 64 % 64 + 128 :=
    toNat_byte (by omega)
  have hfourth : (UInt8.ofNat (v % 64 + 128)).toNat = v % 64 + 128 :=
    toNat_byte (by omega)
  have hvalue {value low high : Nat} (h : value = v / 262144) (hbounds : low ≤ v / 4096 % 64 + 128 ∧
      v / 4096 % 64 + 128 ≤ high) :
      follow value 1 3 low high (UInt8.ofNat (v / 4096 % 64 + 128) ::
          UInt8.ofNat (v / 64 % 64 + 128) :: UInt8.ofNat (v % 64 + 128) :: rest) =
        .char (Char.ofNat v) 4 := by
    rw [follow_of_le (by omega) (by omega), follow_of_le (by omega) (by omega),
      follow_of_le (by omega) (by omega), hsecond, hthird, hfourth]
    exact congrArg (Head.char · 4) (congrArg Char.ofNat (by omega))
  rw [read, hfirst, if_neg (by omega), if_neg (by omega), if_neg (by omega), if_neg (by omega),
    if_neg (by omega), if_neg (by omega)]
  split
  · exact hvalue (by omega) (by omega)
  · split
    · exact hvalue (by omega) (by omega)
    · rw [if_pos (by omega)]
      exact hvalue (by omega) (by omega)

/-- What is read first of the bytes of a character and more behind them is the character. -/
theorem exists_head (c : Char) : ∃ b more, String.utf8EncodeChar c = b :: more ∧
    ∀ rest, Head.read b (more ++ rest) = .char c (more.length + 1) := by
  have hvalid := c.valid
  have hofNat : Char.ofNat c.val.toNat = c := Char.ofNat_toNat c
  simp only [UInt32.isValidChar, Nat.isValidChar] at hvalid
  unfold String.utf8EncodeChar
  generalize c.val.toNat = v at hvalid hofNat ⊢
  subst hofNat
  dsimp only
  split
  · have hbyte : (UInt8.ofNat v).toNat = v := toNat_byte (by omega)
    refine ⟨_, _, rfl, fun rest => ?_⟩
    rw [Head.read, hbyte, if_pos (by omega)]
    rfl
  split
  · exact ⟨_, _, rfl, Head.read_of_two (by omega) (by omega)⟩
  split
  · exact ⟨_, _, rfl, Head.read_of_three (by omega) (by omega) (by omega)⟩
  · exact ⟨_, _, rfl, Head.read_of_four (by omega) (by omega)⟩

theorem length_utf8 {c : CodePoint} (h : c.isSurrogate = false) : c.utf8.length = c.utf8Size := by
  cases c with
  | scalar c => exact String.length_utf8EncodeChar c
  | surrogate s => contradiction

/-- A line feed is the one code point with a byte `0x0A`. -/
theorem lineFeed_mem_utf8_iff {c : CodePoint} : 0x0A ∈ c.utf8 ↔ c = .scalar '\n' := by
  cases c with
  | surrogate s => simp [CodePoint.utf8]
  | scalar c =>
    have hvalid := c.valid
    have hlineFeed : c = '\n' ↔ c.val.toNat = 0x0A := by
      rw [← Char.val_inj, ← UInt32.toNat_inj]
      rfl
    simp only [UInt32.isValidChar, Nat.isValidChar] at hvalid
    rw [CodePoint.utf8, CodePoint.scalar.injEq, hlineFeed]
    unfold String.utf8EncodeChar
    generalize c.val.toNat = v at hvalid ⊢
    dsimp only
    split
    · rw [List.mem_singleton, lineFeed_eq_byte_iff (by omega)]
    split
    · simp only [List.mem_cons, List.not_mem_nil, or_false]
      rw [lineFeed_eq_byte_iff (by omega), lineFeed_eq_byte_iff (by omega)]
      omega
    split
    · simp only [List.mem_cons, List.not_mem_nil, or_false]
      rw [lineFeed_eq_byte_iff (by omega), lineFeed_eq_byte_iff (by omega),
        lineFeed_eq_byte_iff (by omega)]
      omega
    · simp only [List.mem_cons, List.not_mem_nil, or_false]
      rw [lineFeed_eq_byte_iff (by omega), lineFeed_eq_byte_iff (by omega),
        lineFeed_eq_byte_iff (by omega), lineFeed_eq_byte_iff (by omega)]
      omega

/-! ## Texts -/

variable {t : Text}

theorem length_flatMap_utf8 (h : t.IsScalar) : (t.flatMap CodePoint.utf8).length = size t := by
  induction t with
  | nil => rfl
  | cons c t ih =>
    obtain ⟨hc, ht⟩ := List.forall_mem_cons.mp h
    rw [List.flatMap_cons, List.length_append, length_utf8 hc, ih ht, size_cons]

theorem encode_of_isScalar (h : t.IsScalar) : encode t = .ok (t.flatMap CodePoint.utf8) := by
  rw [encode, (surrogateRun?_eq_none_iff 0 t).mpr h]

/-- As many bytes as a text takes are its own. -/
theorem take_size (h : t.IsScalar) (behind : Text) :
    ((t ++ behind).flatMap CodePoint.utf8).take (size t) = t.flatMap CodePoint.utf8 := by
  rw [List.flatMap_append, ← length_flatMap_utf8 h, List.take_left]

/-- Reading the bytes of a text gives the text. -/
theorem decodeLossy_utf8 (h : t.IsScalar) : decodeLossy (t.flatMap CodePoint.utf8) = t := by
  induction t with
  | nil => rw [List.flatMap_nil, decodeLossy]
  | cons c t ih =>
    obtain ⟨hc, ht⟩ := List.forall_mem_cons.mp h
    cases c with
    | surrogate s => contradiction
    | scalar c =>
      obtain ⟨b, more, hbytes, hread⟩ := exists_head c
      rw [List.flatMap_cons, CodePoint.utf8, hbytes, List.cons_append, decodeLossy, hread]
      dsimp only
      rw [Nat.add_sub_cancel, List.drop_left, ih ht]

end Utf8

end HostScript
