import HostScript.Json.Read

/-!
# Strings in documents

A string is read back with the code points that it was written with, whichever of them were escaped
(`readString_writeString`). Surrogates are written as they are, so that two of them beside each
other are not taken for a pair.
-/

namespace HostScript.Json

variable {opening seen t rest : Text} {c : CodePoint} {n : Nat}

theorem hexDigit?_hexDigit (h : n < 16) : (Text.hexDigit n).hexDigit? = some n := by
  revert n
  decide

/-- Four digits are read if something follows them. -/
theorem unit?_hex (hn : n < 0x10000) (hrest : rest ≠ []) :
    unit? (Text.hex 4 n ++ rest) = some (n, rest) := by
  simp only [Text.hex, List.nil_append, List.cons_append, unit?,
    hexDigit?_hexDigit (Nat.mod_lt _ (by omega : 0 < 16)), Option.bind_eq_bind, Option.bind_some]
  rw [if_neg (by simpa using hrest)]
  congr 2
  omega

theorem readString_quote (opening seen rest : Text) :
    readString opening seen (.scalar '"' :: rest) = .ok (seen.reverse, rest) := by
  rw [readString]

theorem readString_of_readUnits (hunits : readUnits (.scalar 'u' :: t) t = .ok (c, rest))
    (hlength : rest.length < t.length) :
    readString opening seen (.scalar '\\' :: .scalar 'u' :: t) =
      readString opening (c :: seen) rest := by
  rw [readString]
  simp only [hunits, if_pos hlength]

theorem readString_of_simpleEscape {d : CodePoint} (h : simpleEscape? d = some c) :
    readString opening seen (.scalar '\\' :: d :: rest) = readString opening (c :: seen) rest := by
  rw [readString]
  · simp only [h]
  · rintro rfl
    cases h

theorem readString_of_le (hquote : c ≠ .scalar '"') (hbackslash : c ≠ .scalar '\\')
    (hc : 0x20 ≤ c.toNat) :
    readString opening seen (c :: rest) = readString opening (c :: seen) rest := by
  rw [readString]
  · rw [if_neg (by omega)]
  · exact hquote
  · exact fun h _ => hbackslash h
  · exact fun _ h _ => hbackslash h
  · exact fun _ _ h _ => hbackslash h

/-- The escape of a control character is read back. -/
theorem readString_escape (hc : c.toNat < 0x20) (hrest : rest ≠ []) :
    readString opening seen (escape c ++ rest) = readString opening (c :: seen) rest := by
  have hescape : escape c ++ rest =
      .scalar '\\' :: .scalar 'u' :: (Text.hex 4 c.toNat ++ rest) := by
    simp only [escape, if_pos (show c.toNat < 0x10000 by omega), unitEscape]
    rfl
  rw [hescape]
  refine readString_of_readUnits ?_ ?_
  · simp only [readUnits, unit?_hex (show c.toNat < 0x10000 by omega) hrest]
    rw [if_neg (by omega), CodePoint.ofNat?_toNat]
    rfl
  · simp only [Text.hex, List.nil_append, List.cons_append, List.length_cons]
    omega

/-- What a code point is written as is read back. -/
theorem readString_writePoint (c : CodePoint) (hrest : rest ≠ []) :
    readString opening seen (writePoint .plain c ++ rest) =
      readString opening (c :: seen) rest := by
  unfold writePoint
  split
  · next h => exact h ▸ readString_of_simpleEscape rfl
  split
  · next h => exact h ▸ readString_of_simpleEscape rfl
  split
  · next h => exact h ▸ readString_of_simpleEscape rfl
  split
  · next h => exact h ▸ readString_of_simpleEscape rfl
  split
  · next h => exact h ▸ readString_of_simpleEscape rfl
  split
  · next h => exact h ▸ readString_of_simpleEscape rfl
  split
  · next h => exact h ▸ readString_of_simpleEscape rfl
  split
  · next h => exact readString_escape h hrest
  · next hquote hbackslash _ _ _ _ _ hc =>
    rw [if_neg (fun h => nomatch h.1)]
    exact readString_of_le hquote hbackslash (by omega)

/-- A string is read back. -/
theorem readString_writeString (t rest : Text) :
    readString opening [] (t.flatMap (writePoint .plain) ++ .scalar '"' :: rest) =
      .ok (t, rest) := by
  suffices h : ∀ seen,
      readString opening seen (t.flatMap (writePoint .plain) ++ .scalar '"' :: rest) =
        .ok (seen.reverse ++ t, rest) from h []
  induction t with
  | nil =>
    intro seen
    rw [List.append_nil]
    exact readString_quote opening seen rest
  | cons c t ih =>
    intro seen
    rw [List.flatMap_cons, List.append_assoc, readString_writePoint c (by simp), ih]
    simp

end HostScript.Json
