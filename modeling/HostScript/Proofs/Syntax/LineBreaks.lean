import HostScript.Proofs.Syntax.Layout
import HostScript.Proofs.Syntax.Pairing

/-!
# Line breaks in front of calls and indexes

Where the line breaks of a source stand matters to the parser only in front of parentheses and
brackets: whether they begin on the line on which the token before them ends (`parse_layout`). The
parser looks at the line on which that token begins instead. The two lines differ for a string with
a line feed in it, and there sources with the same layout can be parsed differently
(`parse_layout_string`).
-/

open scoped Function

namespace HostScript

/-! ## Lines -/

/-- The number of the line on which a byte of a text stands. -/
def Text.lineAt : Text → Nat → Nat
  | [], _ => 1
  | c :: rest, byte =>
    if c.utf8Size ≤ byte then
      Text.lineAt rest (byte - c.utf8Size) + if c = .scalar '\n' then 1 else 0
    else 1

/-- A byte stands on the line that the line feeds in front of it give. -/
theorem Text.lineAt_append (before after : Text) :
    Text.lineAt (before ++ after) (Utf8.size before) = before.count (.scalar '\n') + 1 := by
  induction before with
  | nil =>
    cases after with
    | nil => rfl
    | cons c after => exact if_neg (Nat.not_le.mpr c.utf8Size_pos)
  | cons c before ih =>
    rw [List.cons_append, lineAt, Utf8.size_cons, if_pos (Nat.le_add_right _ _),
      Nat.add_sub_cancel_left, ih, List.count_cons]
    simp only [beq_iff_eq]
    omega

/-- The line on which a token of a source ends. -/
def Token.lastLine (source : Text) (t : Token) : Nat := source.lineAt t.span.endByte

theorem Words.lastLine_token {source last : Text} {before after : List Word} {w : Word}
    (h : Words source (before ++ w :: after) last) :
    (w.token (Word.written before)).lastLine source =
      (Word.written before ++ w.gap ++ w.text).count (.scalar '\n') + 1 := by
  have hsource : source = (Word.written before ++ w.gap ++ w.text) ++
      (Word.written after ++ last) := by
    rw [h.eq_append]
    simp
  rw [hsource]
  exact Text.lineAt_append _ _

/-- A token ends on the line on which it begins or further down, and the one behind it begins where
it ends or further down. -/
theorem scan_lines {source : Text} {tokens : List Token} (h : scan source = .ok tokens)
    {t u : Token} (htu : [t, u] <:+: tokens) :
    t.span.line ≤ t.lastLine source ∧ t.lastLine source ≤ u.span.line := by
  obtain ⟨-, words, last, hwords, rfl⟩ := scan_eq_ok_iff.mp h
  rcases List.infix_concat_iff.mp htu with hend | hinside
  · obtain hnil | ⟨init, heq, hinit⟩ := List.suffix_concat_iff.mp hend
    · contradiction
    replace heq : [t] ++ [u] = init ++ [Token.atEnd source] := heq
    obtain ⟨rfl, hu⟩ := List.append_inj' heq rfl
    obtain rfl := (List.cons.inj hu).1
    have ht : t ∈ Word.tokens .start words := hinit.subset List.mem_cons_self
    obtain ⟨before, w, after, rfl, rfl⟩ := Word.exists_of_mem_tokens ht
    rw [hwords.lastLine_token, Token.atEnd, hwords.eq_append]
    simp only [Word.token, Word.written_append, Word.written_cons, List.count_append]
    omega
  · obtain ⟨before, v, w, after, rfl, rfl, rfl⟩ := Word.exists_of_isInfix_tokens hinside
    rw [hwords.lastLine_token]
    simp only [Word.token, List.count_append]
    omega

/-! ## Two sources -/

/-- Of two tokens next to each other in two sources: if the second one can open a call or an index,
it begins on the line on which the first one ends in both sources or in neither. -/
def EndsAlike (source source' : Text) (a b : Token × Token) : Prop :=
  b.1.lexeme.opensSuffix = true →
    (a.1.lastLine source = b.1.span.line ↔ a.2.lastLine source' = b.2.span.line)

/-- If it does so, the first one begins on this line too in both sources or in neither. -/
def StartsAlike (source : Text) (a b : Token × Token) : Prop :=
  b.1.lexeme.opensSuffix = true → a.1.lastLine source = b.1.span.line →
    (a.1.span.line = b.1.span.line ↔ a.2.span.line = b.2.span.line)

instance (source source' : Text) : DecidableRel (EndsAlike source source') :=
  fun _ _ => inferInstanceAs (Decidable (_ → _))

instance (source : Text) : DecidableRel (StartsAlike source) :=
  fun _ _ => inferInstanceAs (Decidable (_ → _))

/-- Two sources with the same lexemes, of which the parentheses and brackets are behind a line break
in the same places. -/
structure SameLayout (source source' : Text) (tokens tokens' : List Token) : Prop where
  first : scan source = .ok tokens
  second : scan source' = .ok tokens'
  lexemes : tokens.map Token.lexeme = tokens'.map Token.lexeme
  ends : (tokens.zip tokens').IsChain (EndsAlike source source')

/-- The spans of the tokens at the same index of two lists. -/
def SameIndex (tokens tokens' : List Token) (span span' : Span) : Prop :=
  ∃ (k : ℕ) (t t' : Token), tokens[k]? = some t ∧ tokens'[k]? = some t' ∧ t.span = span ∧
    t'.span = span'

/-- Tokens are paired one by one if they have paired spans and every two neighbours agree on whether
the second one is on the line of the first one. -/
theorem Cursor.paired_of_isChain {R : Span → Span → Prop} {tokens tokens' : List Token}
    (hended : Token.Ended tokens) (hlexemes : tokens.map Token.lexeme = tokens'.map Token.lexeme)
    (hspans : ∀ a ∈ tokens.zip tokens', R a.1.span a.2.span)
    (hlines : (tokens.zip tokens').IsChain fun a b => b.1.lexeme.opensSuffix = true →
      (b.1.span.line = a.1.span.line ↔ b.2.span.line = a.2.span.line)) {line line' : ℕ}
    (hfirst : ∀ a ∈ (tokens.zip tokens').head?, a.1.lexeme.opensSuffix = true →
      (a.1.span.line = line ↔ a.2.span.line = line')) :
    Cursor.Paired R ⟨line, tokens⟩ ⟨line', tokens'⟩ := by
  obtain ⟨body, last, rfl, hlast⟩ := hended
  induction body generalizing tokens' line line' with
  | nil =>
    obtain ⟨t', rfl⟩ : ∃ t', tokens' = [t'] := by
      rw [← List.length_eq_one_iff, ← List.length_map Token.lexeme, ← hlexemes]
      rfl
    have ht : last.lexeme = t'.lexeme := (List.cons.inj hlexemes).1
    exact .last hlast ⟨ht, hspans _ List.mem_cons_self⟩
  | cons t body ih =>
    cases tokens' with
    | nil => contradiction
    | cons t' rest' =>
      obtain ⟨ht, hrest⟩ := List.cons.inj hlexemes
      rw [List.cons_append, List.zip_cons_cons] at hspans hlines hfirst
      obtain ⟨hspan, hspans⟩ := List.forall_mem_cons.mp hspans
      obtain ⟨hfirst', hlines⟩ := List.isChain_cons.mp hlines
      exact .cons ⟨ht, hspan⟩ (hfirst _ rfl) (ih hrest hspans hlines hfirst')

/-- In sources with the same layout parsing comes to the same statements but for their spans, or to
the same fault at the same token, unless a parenthesis or a bracket is behind a string that begins
on an earlier line in one of them only. -/
theorem parse_layout {source source' : Text} {tokens tokens' : List Token}
    (h : SameLayout source source' tokens tokens')
    (hstarts : (tokens.zip tokens').IsChain (StartsAlike source)) (depth : ℕ) :
    ParsePaired (SameIndex tokens tokens') (Eq on bareBlock) (parse depth tokens)
      (parse depth tokens') := by
  have hlength : tokens.length = tokens'.length := by
    simpa using congrArg List.length h.lexemes
  have hfst : (tokens.zip tokens').map Prod.fst = tokens := List.map_fst_zip hlength.le
  have hsnd : (tokens.zip tokens').map Prod.snd = tokens' := List.map_snd_zip hlength.ge
  refine parse_pairs (Cursor.paired_of_isChain (scan_spans h.first).2 h.lexemes ?spans ?lines
    ?line) depth
  case spans =>
    intro a ha
    obtain ⟨k, hk⟩ := List.mem_iff_getElem?.mp ha
    obtain ⟨ht, ht'⟩ := List.getElem?_zip_eq_some.mp hk
    exact ⟨k, a.1, a.2, ht, ht', rfl, rfl⟩
  case lines =>
    refine List.isChain_iff_forall_rel_of_append_cons_cons.mpr fun a b before after heq hopens => ?_
    have hend := List.isChain_iff_forall_rel_of_append_cons_cons.mp h.ends heq hopens
    have hstart := List.isChain_iff_forall_rel_of_append_cons_cons.mp hstarts heq hopens
    have hinfix : [a, b] <:+: tokens.zip tokens' := ⟨before, after, by simp [heq]⟩
    have hlines := scan_lines h.first (hfst ▸ hinfix.map Prod.fst)
    have hlines' := scan_lines h.second (hsnd ▸ hinfix.map Prod.snd)
    -- a token on the line on which the one before it begins is on the line on which that one ends
    constructor
    · intro hsame
      have hends : a.1.lastLine source = b.1.span.line := by omega
      exact ((hstart hends).mp hsame.symm).symm
    · intro hsame
      have hends : a.2.lastLine source' = b.2.span.line := by omega
      exact ((hstart (hend.mpr hends)).mpr hsame.symm).symm
  case line =>
    intro a ha _
    have hmem := List.mem_of_mem_head? ha
    have hline := (scan_spans h.first).1 a.1 (hfst ▸ List.mem_map_of_mem hmem)
    have hline' := (scan_spans h.second).1 a.2 (hsnd ▸ List.mem_map_of_mem hmem)
    exact iff_of_false (Nat.ne_of_gt hline.2.2.1) (Nat.ne_of_gt hline'.2.2.1)

/-- A call and an array behind it, with other line breaks inside them and a string that is written
over two lines in one source only. -/
theorem parse_layout_moved : ∃ tokens tokens',
    SameLayout "f(x)\n[\"x\ny\"]" "f (\nx) # é\n[ \"x\\ny\" ]" tokens tokens' ∧
    (tokens.zip tokens').IsChain (StartsAlike "f(x)\n[\"x\ny\"]") ∧
    ParsePaired (SameIndex tokens tokens') (Eq on bareBlock) (parse 10 tokens)
      (parse 10 tokens') := by
  have h : SameLayout "f(x)\n[\"x\ny\"]" "f (\nx) # é\n[ \"x\\ny\" ]"
      [⟨.identifier "f", ⟨0, 1, 1⟩⟩, ⟨.symbol .leftParen, ⟨1, 2, 1⟩⟩,
        ⟨.identifier "x", ⟨2, 3, 1⟩⟩, ⟨.symbol .rightParen, ⟨3, 4, 1⟩⟩,
        ⟨.symbol .leftBracket, ⟨5, 6, 2⟩⟩, ⟨.string "x\ny", ⟨6, 11, 2⟩⟩,
        ⟨.symbol .rightBracket, ⟨11, 12, 3⟩⟩, ⟨.endOfInput, ⟨12, 12, 3⟩⟩]
      [⟨.identifier "f", ⟨0, 1, 1⟩⟩, ⟨.symbol .leftParen, ⟨2, 3, 1⟩⟩,
        ⟨.identifier "x", ⟨4, 5, 2⟩⟩, ⟨.symbol .rightParen, ⟨5, 6, 2⟩⟩,
        ⟨.symbol .leftBracket, ⟨12, 13, 3⟩⟩, ⟨.string "x\ny", ⟨14, 20, 3⟩⟩,
        ⟨.symbol .rightBracket, ⟨21, 22, 3⟩⟩, ⟨.endOfInput, ⟨22, 22, 3⟩⟩] :=
    ⟨by cbv, by cbv, rfl, by decide +kernel⟩
  exact ⟨_, _, h, by decide +kernel, parse_layout h (by decide +kernel) 10⟩

/-- A call of a string with a line feed in it. Written as it is, the line feed makes the call two
statements, since the string begins on an earlier line; written as an escape, it does not. -/
theorem parse_layout_string : ∃ tokens tokens',
    SameLayout "\"a\n\"(x)" "\"a\\n\"(x)" tokens tokens' ∧
    ¬ ParsePaired (SameIndex tokens tokens') (Eq on bareBlock) (parse 10 tokens)
      (parse 10 tokens') := by
  have h : SameLayout "\"a\n\"(x)" "\"a\\n\"(x)"
      [⟨.string "a\n", ⟨0, 4, 1⟩⟩, ⟨.symbol .leftParen, ⟨4, 5, 2⟩⟩, ⟨.identifier "x", ⟨5, 6, 2⟩⟩,
        ⟨.symbol .rightParen, ⟨6, 7, 2⟩⟩, ⟨.endOfInput, ⟨7, 7, 2⟩⟩]
      [⟨.string "a\n", ⟨0, 5, 1⟩⟩, ⟨.symbol .leftParen, ⟨5, 6, 1⟩⟩, ⟨.identifier "x", ⟨6, 7, 1⟩⟩,
        ⟨.symbol .rightParen, ⟨7, 8, 1⟩⟩, ⟨.endOfInput, ⟨8, 8, 1⟩⟩] :=
    ⟨by cbv, by cbv, rfl, by decide +kernel⟩
  have htwo : parse 10 [⟨.string "a\n", ⟨0, 4, 1⟩⟩, ⟨.symbol .leftParen, ⟨4, 5, 2⟩⟩,
      ⟨.identifier "x", ⟨5, 6, 2⟩⟩, ⟨.symbol .rightParen, ⟨6, 7, 2⟩⟩, ⟨.endOfInput, ⟨7, 7, 2⟩⟩] =
      .ok [.expression (.literal (.string "a\n") ⟨0, 4, 1⟩) ⟨0, 4, 1⟩,
        .expression (.grouping (.variable "x" ⟨5, 6, 2⟩) ⟨4, 5, 2⟩) ⟨4, 5, 2⟩] := by cbv
  have hone : parse 10 [⟨.string "a\n", ⟨0, 5, 1⟩⟩, ⟨.symbol .leftParen, ⟨5, 6, 1⟩⟩,
      ⟨.identifier "x", ⟨6, 7, 1⟩⟩, ⟨.symbol .rightParen, ⟨7, 8, 1⟩⟩, ⟨.endOfInput, ⟨8, 8, 1⟩⟩] =
      .ok [.expression (.call (.literal (.string "a\n") ⟨0, 5, 1⟩)
        [.variable "x" ⟨6, 7, 1⟩] ⟨5, 6, 1⟩) ⟨0, 5, 1⟩] := by cbv
  refine ⟨_, _, h, fun hpaired => ?_⟩
  rw [htwo, hone] at hpaired
  cases hpaired with
  | ok hsame => exact List.cons_ne_nil _ _ (List.cons.inj hsame).2

end HostScript
