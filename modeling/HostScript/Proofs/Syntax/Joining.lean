import HostScript.Proofs.Syntax.Lines

/-!
# Two sources in one

`Text.joined` puts a source behind another one, with a line feed and a semicolon between them. The
line feed ends whatever the first source ends in, so that the tokens of the whole are those of the
first source, a semicolon, and those of the second one with their spans shifted (`scan_joined`).
-/

namespace HostScript

namespace Text

/-- What stands in front of the second source: the first one, a line feed and a semicolon. -/
def lead (first : Text) : Text := first ++ [.scalar '\n', .scalar ';']

/-- Two sources as one. -/
def joined (first second : Text) : Text := first.lead ++ second

end Text

/-- A position in the second source, as one in both together. -/
def Position.behind (first : Text) (p : Position) : Position :=
  ⟨p.byte + Utf8.size first.lead, p.line + first.lead.count (.scalar '\n')⟩

/-- A span in the second source, as one in both together. -/
def Span.behind (first : Text) (σ : Span) : Span :=
  ⟨σ.startByte + Utf8.size first.lead, σ.endByte + Utf8.size first.lead,
    σ.line + first.lead.count (.scalar '\n')⟩

/-- A token of the second source, as one of both together. -/
def Token.behind (first : Text) (t : Token) : Token := ⟨t.lexeme, t.span.behind first⟩

/-- The second source starts behind what stands in front of it. -/
theorem Position.behind_start (first : Text) :
    (start.moved (Utf8.size first + 1) (first.count (.scalar '\n') + 1)).advance [.scalar ';'] =
      start.behind first := by
  rw [advance_eq, behind, Text.lead, Utf8.size_append, List.count_append]
  rfl

/-- Two sources that can be scanned can be scanned as one. -/
theorem scan_joined {first second : Text} {tokens tokens' : List Token}
    (h : scan first = .ok tokens) (h' : scan second = .ok tokens') :
    ∃ body semicolon, tokens = body ++ [.atEnd first] ∧ semicolon.lexeme = .symbol .semicolon ∧
      scan (first.joined second) = .ok (body ++ semicolon :: tokens'.map (.behind first)) := by
  obtain ⟨body, htokens, hline⟩ := scan_line h
  have hjoined : first.joined second =
      first ++ .scalar '\n' :: ([.scalar ';'] ++ second) := by
    simp [Text.joined, Text.lead]
  have hsemicolon : Munches [.scalar ';'] second (.symbol .semicolon) := .single rfl
  have hsecond : scanFrom (Position.start.behind first) second =
      .ok (tokens'.map (.behind first)) := by
    have hmoved := @scanFrom_moved (Utf8.size first.lead) (first.lead.count (.scalar '\n'))
      .start second
    rw [← scan, h'] at hmoved
    exact hmoved
  have hscan := hline ([.scalar ';'] ++ second)
  rw [← hjoined, scanFrom_munches hsemicolon (by simp [Text.IsScalar, CodePoint.isSurrogate]),
    Position.behind_start, hsecond] at hscan
  exact ⟨body, _, htokens, rfl, hscan⟩

end HostScript
