import HostScript.Proofs.Syntax.Layout

/-!
# Scanning over line breaks

A line feed ends whatever a source that can be scanned ends in: the words of the source stay what
they are, and a gap or a comment at its end goes no further. What follows is scanned as it is on its
own, only further on (`scanFrom_moved`), whether that succeeds or not. So scanning two sources with a
line feed between them is scanning the one and then the other (`scan_append_line`).
-/

namespace HostScript

namespace Text

/-- A run goes on no further than to a line feed that ends it. -/
theorem Stops.append_line {p : CodePoint → Bool} {t : Text} (h : t.Stops p)
    (hline : p (.scalar '\n') = false) (rest : Text) : Stops p (t ++ .scalar '\n' :: rest) := by
  cases t with
  | nil => exact stops_cons.mpr hline
  | cons c t => exact stops_cons.mpr (stops_cons.mp h)

end Text

/-! ## Words in front of a line feed -/

/-- A lexeme stays the same if a line feed comes behind what follows it. -/
theorem Munches.append_line {text after : Text} {v : Lexeme} (h : Munches text after v)
    (rest : Text) : Munches text (after ++ .scalar '\n' :: rest) v := by
  cases h with
  | single h => exact .single h
  | long h => exact .long h
  | short h hstop => exact .short h (hstop.append_line (by decide) rest)
  | string h => exact .string h
  | whole hne hdigits hstop hpoint =>
    refine .whole hne hdigits (hstop.append_line (by decide) rest) fun behind heq => ?_
    cases after with
    | nil => exact absurd (List.cons.inj heq).1 (by decide)
    | cons c after =>
      obtain ⟨rfl, rfl⟩ := List.cons.inj heq
      exact (hpoint after rfl).append_line (by decide) rest
  | decimal hne hdigits hfraction hfractionDigits hstop =>
    exact .decimal hne hdigits hfraction hfractionDigits (hstop.append_line (by decide) rest)
  | word hstart htail hstop => exact .word hstart htail (hstop.append_line (by decide) rest)

/-- A gap stays a gap if a line feed comes behind what follows it. -/
theorem IsGap.append_line {gap after : Text} (h : IsGap after gap) (rest : Text) :
    IsGap (after ++ .scalar '\n' :: rest) gap := by
  induction h with
  | nil => exact .nil
  | blank hc _ ih => exact .blank hc ih
  | comment hbody hstop _ ih =>
    refine .comment hbody ?_ ih
    rw [← List.append_assoc]
    exact hstop.append_line (by simp) rest

/-- A line feed behind a gap belongs to it. -/
theorem IsGap.line {gap rest : Text} (h : IsGap (.scalar '\n' :: rest) gap) :
    IsGap rest (gap ++ [.scalar '\n']) := by
  induction h with
  | nil => exact .blank rfl .nil
  | blank hc _ ih => exact .blank hc ih
  | comment hbody hstop _ ih =>
    rw [List.cons_append, List.append_assoc]
    refine .comment hbody ?_ ih
    rwa [List.append_assoc]

/-- Words in front of a line feed are scanned, and then what is behind it. -/
theorem Words.scanFrom_append_line {source last : Text} {words : List Word}
    (h : Words source words last) (hscalar : source.IsScalar) (p : Position) (rest : Text) :
    scanFrom p (source ++ .scalar '\n' :: rest) =
      (scanFrom (p.advance (source ++ [.scalar '\n'])) rest).map (Word.tokens p words ++ ·) := by
  induction h generalizing p with
  | @nil last hgap =>
    have hline : IsGap rest (last ++ [.scalar '\n']) := (hgap.append_line rest).line
    have hgapScalar : Text.IsScalar (last ++ [.scalar '\n']) :=
      Text.isScalar_append.mpr ⟨hscalar, by simp [Text.IsScalar, CodePoint.isSurrogate]⟩
    rw [List.append_cons, scanFrom_isGap hline hgapScalar]
    exact (congrFun Except.map_id _).symm
  | @cons gap text after last v words hgap hmunches _ ih =>
    obtain ⟨hgapScalar, hrest⟩ := Text.isScalar_append.mp hscalar
    obtain ⟨htext, hafter⟩ := Text.isScalar_append.mp hrest
    have hgap' := hgap.append_line rest
    rw [List.append_assoc] at hgap'
    rw [List.append_assoc, List.append_assoc, scanFrom_isGap hgap' hgapScalar,
      scanFrom_munches (hmunches.append_line rest) htext, ih hafter]
    simp only [List.append_assoc, Position.advance_append]
    cases scanFrom _ rest with
    | error halt => rfl
    | ok tokens => rfl

/-! ## Positions further on -/

/-- A position some bytes and lines further on. -/
def Position.moved (bytes lines : ℕ) (p : Position) : Position := ⟨p.byte + bytes, p.line + lines⟩

/-- A span some bytes and lines further on. -/
def Span.moved (bytes lines : ℕ) (σ : Span) : Span :=
  ⟨σ.startByte + bytes, σ.endByte + bytes, σ.line + lines⟩

/-- A token some bytes and lines further on. -/
def Token.moved (bytes lines : ℕ) (t : Token) : Token := ⟨t.lexeme, t.span.moved bytes lines⟩

/-- The end of a scan some bytes and lines further on. A surrogate has no place of its own. -/
def ScanHalt.moved (bytes lines : ℕ) : ScanHalt → ScanHalt
  | .fault cause span => .fault cause (span.moved bytes lines)
  | .unencodable cause => .unencodable cause

variable {bytes lines : ℕ}

namespace Position

theorem advance_eq (p : Position) (t : Text) :
    p.advance t = p.moved (Utf8.size t) (t.count (.scalar '\n')) := by
  rw [moved, ← advance_byte, ← advance_line]

theorem moved_advance (p : Position) (t : Text) :
    (p.moved bytes lines).advance t = (p.advance t).moved bytes lines := by
  simp only [advance_eq, moved, Nat.add_right_comm]

theorem moved_spanTo (p q : Position) :
    (p.moved bytes lines).spanTo (q.moved bytes lines) = (p.spanTo q).moved bytes lines := rfl

end Position

theorem faultSpan_moved (p : Position) (read : Text) (skip : ℕ) :
    faultSpan (p.moved bytes lines) read skip = (faultSpan p read skip).moved bytes lines := by
  simp only [faultSpan, Position.moved_advance]
  split
  · rfl
  · rfl

/-- From another position on, a text is scanned in the same way. -/
theorem scanFrom_moved (p : Position) (t : Text) : scanFrom (p.moved bytes lines) t =
    match scanFrom p t with
    | .ok tokens => .ok (tokens.map (.moved bytes lines))
    | .error halt => .error (halt.moved bytes lines) := by
  induction hn : t.length using Nat.strongRecOn generalizing p t with
  | ind n ih =>
    subst hn
    cases t with
    | nil =>
      rw [scanFrom, scanFrom]
      rfl
    | cons c rest =>
      -- the rest behind the piece is shorter, so it is scanned in the same way
      have hrest (more : ℕ) (read : Text) := ih (rest.drop more).length
        (by simp only [List.length_drop, List.length_cons]; omega) (p.advance read)
        (rest.drop more) rfl
      simp only [scanFrom, Position.moved_advance, Position.moved_spanTo, faultSpan_moved]
      cases hfind : (c :: rest.take (Piece.read c rest).more).find? CodePoint.isSurrogate with
      | some d =>
        obtain ⟨code, rfl⟩ := exists_surrogate_of_find?_eq_some hfind
        rfl
      | none =>
        cases Piece.read c rest with
        | gap more => exact hrest more _
        | lexeme v more =>
          simp only [hrest more _]
          cases scanFrom _ (rest.drop more) with
          | error halt => rfl
          | ok tokens => rfl
        | fault cause skip more => rfl

/-! ## Two sources -/

/-- The tokens of a source in front of a line feed are scanned without its end, and then what stands
behind the line feed. -/
theorem scan_line {first : Text} {tokens : List Token} (h : scan first = .ok tokens) :
    ∃ body, tokens = body ++ [.atEnd first] ∧ ∀ rest, scan (first ++ .scalar '\n' :: rest) =
      (scanFrom (Position.start.moved (Utf8.size first + 1) (first.count (.scalar '\n') + 1))
        rest).map (body ++ ·) := by
  obtain ⟨hscalar, words, last, hwords, rfl⟩ := scan_eq_ok_iff.mp h
  refine ⟨_, rfl, fun rest => ?_⟩
  rw [scan, hwords.scanFrom_append_line hscalar, Position.advance_eq, Utf8.size_append,
    List.count_append]
  rfl

/-- Scanning is compositional over line breaks. If the first source can be scanned, then scanning
both with a line feed between them comes to what scanning the second one comes to: to the tokens of
the first one without its end and those of the second one, or to the same fault. All spans of the
second one are further on by the bytes and lines of the first one and of the line feed. -/
theorem scan_append_line {first : Text} {tokens : List Token} (h : scan first = .ok tokens)
    (second : Text) : ∃ body, tokens = body ++ [.atEnd first] ∧
      scan (first ++ .scalar '\n' :: second) =
        match scan second with
        | .ok later =>
          .ok (body ++ later.map (.moved (Utf8.size first + 1) (first.count (.scalar '\n') + 1)))
        | .error halt =>
          .error (halt.moved (Utf8.size first + 1) (first.count (.scalar '\n') + 1)) := by
  obtain ⟨body, htokens, hline⟩ := scan_line h
  refine ⟨body, htokens, ?_⟩
  rw [hline, scanFrom_moved, ← scan]
  cases scan second with
  | error halt => rfl
  | ok later => rfl

/-- A comment at the end of the first source, and an escape that is none in the second one. -/
theorem scan_append_line_comment : ∃ body tokens, scan "x # é" = .ok tokens ∧
    tokens = body ++ [.atEnd "x # é"] ∧
    (scan (Text.ofString "x # é" ++ .scalar '\n' :: "y\n+") = .ok (body ++ [⟨.identifier "y", ⟨7, 8, 2⟩⟩,
      ⟨.symbol .plus, ⟨9, 10, 3⟩⟩, ⟨.endOfInput, ⟨10, 10, 3⟩⟩])) ∧
    scan (Text.ofString "x # é" ++ .scalar '\n' :: "\n\"\\q") =
      .error (.fault (.invalidEscape (.scalar 'q')) ⟨9, 11, 3⟩) := by
  have hscan : scan "x # é" = .ok [⟨.identifier "x", ⟨0, 1, 1⟩⟩, .atEnd "x # é"] := by cbv
  obtain ⟨body, htokens, hplus⟩ := scan_append_line hscan "y\n+"
  obtain ⟨body', htokens', hescape⟩ := scan_append_line hscan "\n\"\\q"
  have hsecond : scan "y\n+" = .ok [⟨.identifier "y", ⟨0, 1, 1⟩⟩, ⟨.symbol .plus, ⟨2, 3, 2⟩⟩,
      ⟨.endOfInput, ⟨3, 3, 2⟩⟩] := by cbv
  have hsecond' : scan "\n\"\\q" =
      .error (.fault (.invalidEscape (.scalar 'q')) ⟨2, 4, 2⟩) := by cbv
  rw [hsecond] at hplus
  rw [hsecond'] at hescape
  exact ⟨body, _, hscan, htokens, hplus, hescape⟩

end HostScript
