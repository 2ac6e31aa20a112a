import HostScript.Proofs.Syntax.Lexemes
import HostScript.Proofs.Syntax.ParseSpans
import Mathlib.Tactic.Tauto

/-!
# The line of a span

A token and most faults of scanning have the number of the line on which they start, and do not start
at the end of a line. The fault of an escape has the number of the line on which the escape ends
(`ScanFault.ReadIn.placed`), so its span starts further up if there is a line feed in it.
-/

namespace HostScript

/-- A span is that of a part of a source: what stands before it, in it and behind it. -/
structure Span.Covers (source before inside behind : Text) (span : Span) : Prop where
  source_eq : source = before ++ inside ++ behind
  startByte : span.startByte = Utf8.size before
  endByte : span.endByte = Utf8.size (before ++ inside)

/-- A code point that ends lines, or stands before one that does. -/
def CodePoint.EndsLine (c : CodePoint) : Prop := c = .scalar '\n' ∨ c = .scalar '\r'

/-- A span has the number of the line on which it starts. It starts within the line or at the end of
the source. -/
def Span.Placed (source : Text) (span : Span) : Prop :=
  ∃ before inside behind, span.Covers source before inside behind ∧
    span.line = before.count (.scalar '\n') + 1 ∧ ∀ c ∈ (inside ++ behind).head?, ¬ c.EndsLine

/-- A span has the number of the line on which it ends. It starts with a backslash. -/
def Span.PlacedAtEnd (source : Text) (span : Span) : Prop :=
  ∃ before inside behind, span.Covers source before inside behind ∧
    span.line = (before ++ inside).count (.scalar '\n') + 1 ∧ inside.head? = some (.scalar '\\')

namespace Piece

theorem readString_eq_fault {seen t : Text} {taken skip more : Nat} {cause : ScanFault}
    (h : readString seen taken t = .fault cause skip more) :
    (skip = 0 ∧ cause = .unterminatedString) ∨
      ∃ c k rest, cause = .invalidEscape c ∧ skip = taken + k + 1 ∧ skip ≤ more ∧
        t.drop k = .scalar '\\' :: c :: rest := by
  fun_induction readString with
  | case1 =>
    obtain ⟨rfl, rfl, -⟩ := Piece.fault.inj h
    exact .inl ⟨rfl, rfl⟩
  | case2 => contradiction
  | case3 =>
    obtain ⟨rfl, rfl, -⟩ := Piece.fault.inj h
    exact .inl ⟨rfl, rfl⟩
  | case4 seen taken c rest point read hread ih =>
    obtain h | ⟨d, k, tail, hcause, hskip, hmore, hdrop⟩ := ih h
    · exact .inl h
    · refine .inr ⟨d, read + k + 2, tail, hcause, by omega, hmore, ?_⟩
      rw [List.drop_succ_cons, List.drop_succ_cons, ← List.drop_drop]
      exact hdrop
  | case5 seen taken c rest read hread =>
    obtain ⟨rfl, rfl, rfl⟩ := Piece.fault.inj h
    exact .inr ⟨c, 0, rest, rfl, rfl, by omega, rfl⟩
  | case6 seen taken c rest _ _ _ ih =>
    obtain h | ⟨d, k, tail, hcause, hskip, hmore, hdrop⟩ := ih h
    · exact .inl h
    · exact .inr ⟨d, k + 1, tail, hcause, by omega, hmore, hdrop⟩

/-- Where a fault begins in what was read: at the first code point, which does not end a line; or,
if it is an escape, at its backslash. -/
theorem read_eq_fault {c : CodePoint} {rest : Text} {skip more : Nat} {cause : ScanFault}
    (h : read c rest = .fault cause skip more) :
    (skip = 0 ∧ (∀ d, cause ≠ .invalidEscape d) ∧ ¬ c.EndsLine) ∨
      ∃ d tail, cause = .invalidEscape d ∧ 0 < skip ∧ skip ≤ more ∧
        (c :: rest).drop skip = .scalar '\\' :: d :: tail := by
  cases c with
  | surrogate s =>
    obtain ⟨rfl, rfl, -⟩ := Piece.fault.inj h
    exact .inl ⟨rfl, by simp, by simp [CodePoint.EndsLine]⟩
  | scalar char =>
    simp only [read] at h
    split at h
    · contradiction
    next hblank =>
    have hends : ¬ (CodePoint.scalar char).EndsLine := by
      simp only [CodePoint.EndsLine, CodePoint.scalar.injEq]
      tauto
    split at h
    · contradiction
    split at h
    · obtain ⟨rfl, rfl⟩ | ⟨d, k, tail, rfl, rfl, hmore, hdrop⟩ := readString_eq_fault h
      · exact .inl ⟨rfl, by simp, hends⟩
      · refine .inr ⟨d, tail, rfl, by omega, hmore, ?_⟩
        rw [Nat.zero_add, List.drop_succ_cons, hdrop]
    split at h
    · split at h <;> contradiction
    split at h
    · contradiction
    split at h
    · contradiction
    split at h
    · contradiction
    · obtain ⟨rfl, rfl, -⟩ := Piece.fault.inj h
      exact .inl ⟨rfl, by simp, hends⟩

/-- A lexeme does not begin with the end of a line. -/
theorem not_endsLine_of_read_eq_lexeme {c : CodePoint} {rest : Text} {value : Lexeme} {more : Nat}
    (h : read c rest = .lexeme value more) : ¬ c.EndsLine := by
  rintro (rfl | rfl)
  · contradiction
  · contradiction

end Piece

/-! ## Scanning -/

theorem Token.ReadIn.placed {source : Text} {t : Token} (h : t.ReadIn source) :
    t.span.Placed source := by
  cases h with
  | @piece before rest c value more h hread =>
    refine ⟨before, c :: rest.take more, rest.drop more, ⟨?_, ?_, ?_⟩, ?_, ?_⟩
    · rw [List.append_assoc, List.cons_append, List.take_append_drop, h]
    · rw [Position.start_advance]
      rfl
    · rw [← Position.advance_append, Position.start_advance, Position.start_advance]
      rfl
    · rw [Position.start_advance]
      rfl
    · rintro d hd
      obtain rfl : c = d := Option.some.inj hd
      exact Piece.not_endsLine_of_read_eq_lexeme hread
  | endOfInput =>
    rw [Position.start_advance]
    exact ⟨source, [], [], ⟨by simp, rfl, by simp [Position.spanTo]⟩, rfl, nofun⟩

/-- The span of a fault has the line on which it starts, or it is that of an escape. -/
theorem ScanFault.ReadIn.placed {source : Text} {cause : ScanFault} {span : Span}
    (h : cause.ReadIn source span) :
    (∀ c, cause ≠ .invalidEscape c) ∧ span.Placed source ∨
      (∃ c, cause = .invalidEscape c) ∧ span.PlacedAtEnd source := by
  cases h with
  | @piece before rest c _ skip more h hread =>
    have hsource : source = before ++ (c :: rest.take more) ++ rest.drop more := by
      rw [List.append_assoc, List.cons_append, List.take_append_drop, h]
    obtain ⟨rfl, hcause, hends⟩ | ⟨d, tail, hcause, hskip, hmore, hdrop⟩ := Piece.read_eq_fault hread
    · refine .inl ⟨hcause, before, c :: rest.take more, rest.drop more, ⟨hsource, ?_, ?_⟩, ?_, ?_⟩
      · rw [faultSpan, if_pos rfl, Position.start_advance]
        rfl
      · rw [faultSpan, if_pos rfl, ← Position.advance_append, Position.start_advance,
          Position.start_advance]
        rfl
      · rw [faultSpan, if_pos rfl, Position.start_advance]
        rfl
      · rintro d hd
        obtain rfl : c = d := Option.some.inj hd
        exact hends
    · have hsplit : before ++ (c :: rest.take more) =
          before ++ (c :: rest.take more).take skip ++ (c :: rest.take more).drop skip := by
        rw [List.append_assoc, List.take_append_drop]
      have hspan : faultSpan (Position.start.advance before) (c :: rest.take more) skip =
          ⟨Utf8.size (before ++ (c :: rest.take more).take skip),
            Utf8.size (before ++ (c :: rest.take more)),
            (before ++ (c :: rest.take more)).count (.scalar '\n') + 1⟩ := by
        rw [faultSpan, if_neg (by omega), ← Position.advance_append, ← Position.advance_append,
          Position.start_advance, Position.start_advance]
      refine .inr ⟨⟨d, hcause⟩, before ++ (c :: rest.take more).take skip,
        (c :: rest.take more).drop skip, rest.drop more, ⟨?_, ?_, ?_⟩, ?_, ?_⟩
      · rw [← hsplit, hsource]
      · rw [hspan]
      · rw [hspan, ← hsplit]
      · rw [hspan, ← hsplit]
      · obtain ⟨k, rfl⟩ : ∃ k, skip = k + 1 := ⟨skip - 1, by omega⟩
        rw [List.drop_succ_cons] at hdrop ⊢
        rw [List.head?_drop, List.getElem?_take_of_lt (by omega), ← List.head?_drop, hdrop]
        rfl

end HostScript
