import HostScript.Proofs.Syntax.Lexemes
import HostScript.Proofs.Syntax.ScanSpans

/-!
# The layout of a source

A source that can be scanned is a list of words, each a lexeme behind a gap, and a gap at the end
(`Words`). The words give the tokens (`scan_eq_ok_iff`), so that what is known of words is known of
tokens: where they stand, what stands between them, and that any of them are scanned in the same way
when they stand alone (`scan_layout`).
-/

namespace HostScript

/-! ## Words -/

/-- A lexeme in a source and the gap in front of it. -/
structure Word where
  gap : Text
  text : Text
  lexeme : Lexeme

namespace Word

/-- The text of words with their gaps. -/
def written (words : List Word) : Text := words.flatMap fun w => w.gap ++ w.text

@[simp] theorem written_nil : written [] = [] := rfl

@[simp] theorem written_cons (w : Word) (words : List Word) :
    written (w :: words) = w.gap ++ (w.text ++ written words) := by
  simp [written]

@[simp] theorem written_append (first second : List Word) :
    written (first ++ second) = written first ++ written second := List.flatMap_append

/-- The tokens of words from a position on. -/
def tokens (p : Position) : List Word → List Token
  | [] => []
  | w :: words =>
    let first := p.advance w.gap
    let last := first.advance w.text
    ⟨w.lexeme, first.spanTo last⟩ :: tokens last words

/-- To a part of the tokens belongs a part of the words. -/
theorem exists_of_tokens_eq_append {p : Position} {words : List Word} {first second : List Token}
    (h : tokens p words = first ++ second) : ∃ before after, words = before ++ after ∧
      tokens p before = first ∧ tokens (p.advance (written before)) after = second := by
  induction first generalizing p words with
  | nil => exact ⟨[], words, rfl, rfl, h⟩
  | cons t first ih =>
    cases words with
    | nil => contradiction
    | cons w words =>
      obtain ⟨rfl, hrest⟩ := List.cons.inj h
      obtain ⟨before, after, rfl, rfl, rfl⟩ := ih hrest
      refine ⟨w :: before, after, rfl, rfl, ?_⟩
      rw [written_cons, Position.advance_append, Position.advance_append]

theorem map_lexeme_tokens (p : Position) (words : List Word) :
    (tokens p words).map Token.lexeme = words.map Word.lexeme := by
  induction words generalizing p with
  | nil => rfl
  | cons w words ih => rw [tokens, List.map_cons, List.map_cons, ih]

end Word

/-- A source consists of words and of a gap behind them. -/
inductive Words : Text → List Word → Text → Prop
  | nil {last : Text} : IsGap [] last → Words last [] last
  | cons {gap text after last : Text} {v : Lexeme} {words : List Word} :
      IsGap (text ++ after) gap → Munches text after v → Words after words last →
      Words (gap ++ (text ++ after)) (⟨gap, text, v⟩ :: words) last

theorem IsGap.of_isPrefix {gap after cut : Text} (h : IsGap after gap) (hcut : cut <+: after) :
    IsGap cut gap := by
  induction h with
  | nil => exact .nil
  | blank hc _ ih => exact .blank hc ih
  | comment hbody hstop _ ih =>
    exact .comment hbody (hstop.of_isPrefix (List.prefix_append_right_inj _ |>.mpr hcut)) ih

namespace Words

variable {source last : Text} {words first second : List Word} {w : Word}

theorem eq_append (h : Words source words last) : source = Word.written words ++ last := by
  induction h with
  | nil => rfl
  | cons _ _ _ ih => rw [Word.written_cons, List.append_assoc, List.append_assoc, ← ih]

/-- The words behind others. -/
theorem drop (h : Words source (first ++ second) last) :
    Words (Word.written second ++ last) second last := by
  induction first generalizing source with
  | nil =>
    have heq := h.eq_append
    rwa [List.nil_append, heq] at h
  | cons w first ih =>
    cases h with
    | cons _ _ h => exact ih h

/-- Words that are cut off from what stands behind them. -/
theorem take (h : Words source (first ++ second) last) : Words (Word.written first) first [] := by
  induction first generalizing source with
  | nil => exact .nil .nil
  | cons w first ih =>
    cases h with
    | @cons gap text after _ v _ hgap hmunches h =>
      replace h : Words after (first ++ second) last := h
      have hcut : Word.written first <+: after := by
        rw [h.eq_append, Word.written_append, List.append_assoc]
        exact List.prefix_append _ _
      rw [Word.written_cons]
      exact .cons (hgap.of_isPrefix ((List.prefix_append_right_inj _).mpr hcut))
        (hmunches.of_isPrefix hcut) (ih h)

/-- A blank or a comment in front of words belongs to the gap in front of the first one. -/
theorem prepend {piece : Text} (h : Words source words last)
    (hpiece : ∀ gap behind, source = gap ++ behind → IsGap behind gap →
      IsGap behind (piece ++ gap)) : ∃ words last, Words (piece ++ source) words last := by
  cases h with
  | nil hgap => exact ⟨[], _, .nil (hpiece _ [] (List.append_nil _).symm hgap)⟩
  | cons hgap hmunches h =>
    rw [← List.append_assoc]
    exact ⟨_, last, .cons (hpiece _ _ rfl hgap) hmunches h⟩

/-- Words without the gap in front of the first one. -/
theorem tighten (h : Words source (w :: words) last) :
    Words (w.text ++ (Word.written words ++ last)) ({ w with gap := [] } :: words) last := by
  cases h with
  | cons hgap hmunches h =>
    rw [← h.eq_append]
    exact .cons .nil hmunches h

end Words

/-! ## Scanning words -/

/-- A text of scalar values. -/
def Text.IsScalar (t : Text) : Prop := ∀ c ∈ t, c.isSurrogate = false

theorem Text.isScalar_append {s t : Text} : (s ++ t).IsScalar ↔ s.IsScalar ∧ t.IsScalar :=
  List.forall_mem_append

theorem find?_surrogate_eq_none {t : Text} (h : t.IsScalar) :
    t.find? CodePoint.isSurrogate = none := by
  rw [List.find?_eq_none]
  exact fun c hc => by simp [h c hc]

theorem scanFrom_gap {c : CodePoint} {inside : Text} (after : Text)
    (hread : Piece.read c (inside ++ after) = .gap inside.length)
    (hscalar : Text.IsScalar (c :: inside)) (p : Position) :
    scanFrom p (c :: (inside ++ after)) = scanFrom (p.advance (c :: inside)) after := by
  rw [scanFrom, hread]
  simp only [Piece.more, List.take_left, List.drop_left, find?_surrogate_eq_none hscalar]

theorem scanFrom_isGap {gap after : Text} (h : IsGap after gap) (hscalar : gap.IsScalar)
    (p : Position) : scanFrom p (gap ++ after) = scanFrom (p.advance gap) after := by
  induction h generalizing p with
  | nil => rfl
  | @blank c rest hc _ ih =>
    have hrest := (List.forall_mem_cons.mp hscalar).2
    have hone : Text.IsScalar [c] := fun d hd => hscalar d (List.mem_cons.mpr (.inl (by simpa using hd)))
    have hread : Piece.read c ([] ++ (rest ++ after)) = .gap 0 := Piece.read_of_isSpacing hc _
    rw [List.cons_append, ← List.nil_append (rest ++ after), scanFrom_gap _ hread hone, ih hrest]
    rfl
  | @comment body rest hbody hstop _ ih =>
    rw [← List.cons_append] at hscalar
    obtain ⟨hfirst, hrest⟩ := Text.isScalar_append.mp hscalar
    rw [List.cons_append, List.append_assoc, scanFrom_gap _ (Piece.read_comment hbody hstop) hfirst,
      ih hrest, ← List.cons_append, Position.advance_append]

theorem scanFrom_munches {text after : Text} {v : Lexeme} (h : Munches text after v)
    (hscalar : text.IsScalar) (p : Position) : scanFrom p (text ++ after) =
      (scanFrom (p.advance text) after).map (⟨v, p.spanTo (p.advance text)⟩ :: ·) := by
  obtain ⟨c, inside, rfl⟩ := List.exists_cons_of_ne_nil h.ne_nil
  have hread : Piece.read c (inside ++ after) = .lexeme v inside.length :=
    Piece.read_eq_lexeme_iff.mpr ⟨inside, after, rfl, rfl, h⟩
  rw [List.cons_append, scanFrom, hread]
  simp only [Piece.more, List.take_left, List.drop_left, find?_surrogate_eq_none hscalar]
  cases scanFrom (p.advance (c :: inside)) after <;> rfl

/-- Scanning words gives their tokens and then the end of the input. -/
theorem Words.scanFrom_eq {source last : Text} {words : List Word} (h : Words source words last)
    (hscalar : source.IsScalar) (p : Position) : scanFrom p source =
      .ok (Word.tokens p words ++
        [⟨.endOfInput, (p.advance source).spanTo (p.advance source)⟩]) := by
  induction h generalizing p with
  | @nil last hgap =>
    have h := scanFrom_isGap hgap hscalar p
    rw [List.append_nil] at h
    rw [h, scanFrom]
    rfl
  | cons hgap hmunches _ ih =>
    obtain ⟨hgapScalar, hrest⟩ := Text.isScalar_append.mp hscalar
    obtain ⟨htext, hafter⟩ := Text.isScalar_append.mp hrest
    rw [scanFrom_isGap hgap hgapScalar, scanFrom_munches hmunches htext, ih hafter,
      Position.advance_append, Position.advance_append]
    rfl

theorem isScalar_of_find?_eq_none {t : Text} (h : t.find? CodePoint.isSurrogate = none) :
    t.IsScalar :=
  fun c hc => Bool.eq_false_iff.mpr (List.find?_eq_none.mp h c hc)

theorem exists_surrogate_of_find?_eq_some {t : Text} {c : CodePoint}
    (h : t.find? CodePoint.isSurrogate = some c) : ∃ code, c = .surrogate code := by
  have hc := List.find?_some h
  cases c with
  | scalar c => contradiction
  | surrogate code => exact ⟨code, rfl⟩

/-- What can be scanned consists of words. -/
theorem exists_words {p : Position} {source : Text} {tokens : List Token}
    (h : scanFrom p source = .ok tokens) :
    source.IsScalar ∧ ∃ words last, Words source words last := by
  induction hn : source.length using Nat.strongRecOn generalizing p source tokens with
  | ind n ih =>
    subst hn
    cases source with
    | nil => exact ⟨fun c hc => absurd hc List.not_mem_nil, [], [], .nil .nil⟩
    | cons c rest =>
      rw [scanFrom] at h
      cases hfind : (c :: rest.take (Piece.read c rest).more).find? CodePoint.isSurrogate with
      | some d =>
        obtain ⟨code, rfl⟩ := exists_surrogate_of_find?_eq_some hfind
        simp only [hfind] at h
        contradiction
      | none =>
        have hread := isScalar_of_find?_eq_none hfind
        simp only [hfind] at h
        -- the rest behind the piece is shorter
        have hless (inside after : Text) (hrest : rest = inside ++ after) :
            after.length < (c :: rest).length := by
          rw [hrest, List.length_cons, List.length_append]
          omega
        cases hp : Piece.read c rest with
        | gap more =>
          obtain ⟨inside, after, rfl, rfl, hgap⟩ := Piece.isGap_of_read hp
          simp only [hp, Piece.more, List.take_left, List.drop_left] at h hread
          obtain ⟨hafter, words, last, hwords⟩ := ih _ (hless inside after rfl) h rfl
          exact ⟨Text.isScalar_append.mpr ⟨hread, hafter⟩, hwords.prepend hgap⟩
        | lexeme v more =>
          obtain ⟨inside, after, rfl, rfl, hmunches⟩ := Piece.read_eq_lexeme_iff.mp hp
          simp only [hp, Piece.more, List.take_left, List.drop_left] at h hread
          cases hs : scanFrom (p.advance (c :: inside)) after with
          | error halt =>
            rw [hs] at h
            contradiction
          | ok later =>
            obtain ⟨hafter, words, last, hwords⟩ := ih _ (hless inside after rfl) hs rfl
            refine ⟨Text.isScalar_append.mpr ⟨hread, hafter⟩, _, last, .cons .nil hmunches hwords⟩
        | fault cause skip more =>
          simp only [hp] at h
          contradiction

/-- The token that ends a source. -/
def Token.atEnd (source : Text) : Token :=
  ⟨.endOfInput, ⟨Utf8.size source, Utf8.size source, source.count (.scalar '\n') + 1⟩⟩

/-- The tokens of a source are those of its words. -/
theorem scan_eq_ok_iff {source : Text} {tokens : List Token} :
    scan source = .ok tokens ↔ source.IsScalar ∧ ∃ words last, Words source words last ∧
      tokens = Word.tokens .start words ++ [.atEnd source] := by
  have hscan {words : List Word} {last : Text} (h : Words source words last)
      (hscalar : source.IsScalar) :
      scan source = .ok (Word.tokens .start words ++ [.atEnd source]) := by
    rw [scan, h.scanFrom_eq hscalar, Position.start_advance]
    rfl
  constructor
  · intro h
    obtain ⟨hscalar, words, last, hwords⟩ := exists_words h
    rw [hscan hwords hscalar] at h
    exact ⟨hscalar, words, last, hwords, (Except.ok.inj h).symm⟩
  · rintro ⟨hscalar, words, last, hwords, rfl⟩
    exact hscan hwords hscalar

/-! ## Bytes of a source -/

/-- A text stands between two bytes of a source. -/
def Text.Holds (source : Text) (first last : Nat) (t : Text) : Prop :=
  ∃ before after, source = before ++ (t ++ after) ∧ Utf8.size before = first ∧
    Utf8.size (before ++ t) = last

theorem Utf8.eq_nil_of_size_eq_zero {t : Text} (h : size t = 0) : t = [] := by
  cases t with
  | nil => rfl
  | cons c t =>
    have := c.utf8Size_pos
    rw [size_cons] at h
    omega

/-- A byte divides a text in one way only. -/
theorem Utf8.append_inj_of_size {s t s' t' : Text} (h : s ++ t = s' ++ t')
    (hsize : size s = size s') : s = s' ∧ t = t' := by
  rcases List.append_eq_append_iff.mp h with ⟨more, rfl, rfl⟩ | ⟨more, rfl, rfl⟩ <;>
  · rw [size_append] at hsize
    obtain rfl := eq_nil_of_size_eq_zero (t := more) (by omega)
    simp

theorem Text.Holds.eq {source s t : Text} {first last : Nat} (hs : source.Holds first last s)
    (ht : source.Holds first last t) : s = t := by
  obtain ⟨before, after, rfl, rfl, rfl⟩ := hs
  obtain ⟨before', after', heq, hbefore, hboth⟩ := ht
  obtain ⟨rfl, hrest⟩ := Utf8.append_inj_of_size heq hbefore.symm
  rw [Utf8.size_append, Utf8.size_append] at hboth
  exact (Utf8.append_inj_of_size hrest (by omega)).1

/-- A gap stands between two bytes of a source. -/
def GapAt (source : Text) (first last : Nat) : Prop :=
  ∃ before gap after, source = before ++ (gap ++ after) ∧ Utf8.size before = first ∧
    Utf8.size (before ++ gap) = last ∧ IsGap after gap

/-- Gaps stand in front of tokens, the first of them from a byte on. -/
def GapsFrom (source : Text) : Nat → List Token → Prop
  | _, [] => True
  | n, t :: tokens => GapAt source n t.span.startByte ∧ GapsFrom source t.span.endByte tokens

namespace Word

/-- The token of a word behind a text. -/
def token (w : Word) (before : Text) : Token :=
  ⟨w.lexeme, ⟨Utf8.size (before ++ w.gap), Utf8.size (before ++ w.gap ++ w.text),
    (before ++ w.gap).count (.scalar '\n') + 1⟩⟩

theorem tokens_cons (before : Text) (w : Word) (words : List Word) :
    tokens (Position.start.advance before) (w :: words) =
      w.token before :: tokens (Position.start.advance (before ++ w.gap ++ w.text)) words := by
  simp only [tokens, ← Position.advance_append]
  simp only [Position.start_advance, Position.spanTo, token]

end Word

theorem Words.gapsFrom {rest last : Text} {words : List Word} (h : Words rest words last)
    {source : Text} (before : Text) (hsource : source = before ++ rest) :
    GapsFrom source (Utf8.size before)
      (Word.tokens (Position.start.advance before) words ++ [.atEnd source]) := by
  induction h generalizing before with
  | @nil last hgap =>
    refine ⟨⟨before, last, [], ?_, rfl, ?_, hgap⟩, trivial⟩
    · rw [hsource, List.append_nil]
    · rw [hsource]
      rfl
  | @cons gap text after last v words hgap hmunches _ ih =>
    rw [Word.tokens_cons]
    refine ⟨⟨before, gap, text ++ after, hsource, rfl, rfl, hgap⟩, ih _ ?_⟩
    rw [hsource, List.append_assoc, List.append_assoc]

/-- The tokens of a source, except the one that ends it, and the source itself. -/
structure Layout (source : Text) (body : List Token) : Prop where
  /-- The end of the input is no lexeme in the source. -/
  lexeme : ∀ t ∈ body, t.lexeme ≠ .endOfInput
  /-- A text stands at the span of a token, and its line is the one on which it begins. -/
  span : ∀ t ∈ body, ∃ before text after, source = before ++ (text ++ after) ∧ text ≠ [] ∧
    t.span = ⟨Utf8.size before, Utf8.size (before ++ text), before.count (.scalar '\n') + 1⟩
  ordered : List.Pairwise (fun a b : Token => a.span.endByte ≤ b.span.startByte)
    (body ++ [.atEnd source])
  /-- What stands between tokens, in front of them and behind them are gaps. -/
  gaps : GapsFrom source 0 (body ++ [.atEnd source])
  /-- The text of a token alone is scanned as this token. -/
  alone : ∀ t ∈ body, ∀ text, source.Holds t.span.startByte t.span.endByte text →
    ∃ tokens, scan text = .ok tokens ∧ tokens.map Token.lexeme = [t.lexeme, .endOfInput]
  /-- The text of two tokens without a gap is scanned as these tokens. -/
  joined : ∀ a b, [a, b] <:+: body → a.span.endByte = b.span.startByte →
    ∀ text, source.Holds a.span.startByte b.span.endByte text → ∃ tokens,
      scan text = .ok tokens ∧ tokens.map Token.lexeme = [a.lexeme, b.lexeme, .endOfInput]

namespace Words

variable {source last : Text} {words : List Word}

theorem lexeme_ne (h : Words source words last) : ∀ w ∈ words, w.lexeme ≠ .endOfInput := by
  induction h with
  | nil => exact fun _ h => absurd h List.not_mem_nil
  | cons _ hmunches _ ih => exact List.forall_mem_cons.mpr ⟨hmunches.ne_endOfInput, ih⟩

theorem text_ne_nil (h : Words source words last) : ∀ w ∈ words, w.text ≠ [] := by
  induction h with
  | nil => exact fun _ h => absurd h List.not_mem_nil
  | cons _ hmunches _ ih => exact List.forall_mem_cons.mpr ⟨hmunches.ne_nil, ih⟩

/-- Neighbours in a source are scanned as they are there when they stand without the rest. -/
theorem scan_part {before after : List Word} {w : Word} (part : List Word)
    (h : Words source (before ++ (w :: part ++ after)) last) (hscalar : source.IsScalar) :
    ∃ tokens, scan (w.text ++ Word.written part) = .ok tokens ∧
      tokens.map Token.lexeme = w.lexeme :: part.map Word.lexeme ++ [.endOfInput] := by
  have htight : Words _ ({ w with gap := [] } :: part ++ after) last := h.drop.tighten
  have hpart : Words (w.text ++ Word.written part) ({ w with gap := [] } :: part) [] := by
    simpa using htight.take
  have hpartScalar : Text.IsScalar (w.text ++ Word.written part) := by
    intro c hc
    refine hscalar c ?_
    rw [h.eq_append]
    simp only [Word.written_append, Word.written_cons, List.cons_append, List.mem_append] at hc ⊢
    rcases hc with hc | hc <;> simp [hc]
  refine ⟨_, scan_eq_ok_iff.mpr ⟨hpartScalar, _, [], hpart, rfl⟩, ?_⟩
  rw [List.map_append, Word.map_lexeme_tokens]
  rfl

end Words

namespace Word

theorem startByte_le {words : List Word} {before : Text} {t : Token}
    (ht : t ∈ tokens (Position.start.advance before) words) :
    Utf8.size before ≤ t.span.startByte := by
  induction words generalizing before with
  | nil => exact absurd ht List.not_mem_nil
  | cons w words ih =>
    rw [tokens_cons] at ht
    rcases List.mem_cons.mp ht with rfl | ht
    · simp [token]
    · have hle := ih ht
      simp only [Utf8.size_append] at hle
      omega

/-- The tokens of words stand one behind the other. -/
theorem pairwise_tokens (words : List Word) (before : Text) :
    (tokens (Position.start.advance before) words).Pairwise
      fun a b => a.span.endByte ≤ b.span.startByte := by
  induction words generalizing before with
  | nil => exact .nil
  | cons w words ih =>
    rw [tokens_cons]
    exact .cons (fun t ht => startByte_le ht) (ih _)

theorem exists_of_mem_tokens {words : List Word} {t : Token} (ht : t ∈ tokens .start words) :
    ∃ before w after, words = before ++ w :: after ∧ t = w.token (written before) := by
  obtain ⟨first, second, heq⟩ := List.append_of_mem ht
  obtain ⟨before, after, rfl, -, hafter⟩ := exists_of_tokens_eq_append heq
  cases after with
  | nil => contradiction
  | cons w after =>
    rw [tokens_cons] at hafter
    exact ⟨before, w, after, rfl, (List.cons.inj hafter).1.symm⟩

theorem exists_of_isInfix_tokens {words : List Word} {a b : Token}
    (h : [a, b] <:+: tokens .start words) : ∃ before v w after, words = before ++ v :: w :: after ∧
      a = v.token (written before) ∧ b = w.token (written before ++ v.gap ++ v.text) := by
  obtain ⟨first, second, heq⟩ := h
  rw [List.append_assoc] at heq
  obtain ⟨before, after, rfl, -, hafter⟩ := exists_of_tokens_eq_append heq.symm
  match after with
  | [] => contradiction
  | [v] =>
    rw [tokens_cons] at hafter
    exact nomatch (List.cons.inj hafter).2
  | v :: w :: after =>
    rw [tokens_cons, tokens_cons] at hafter
    obtain ⟨ha, hrest⟩ := List.cons.inj hafter
    exact ⟨before, v, w, after, rfl, ha.symm, (List.cons.inj hrest).1.symm⟩

end Word

/-- Where the tokens of a source stand, what stands between them, and how they are scanned without
the rest of the source. -/
theorem scan_layout {source : Text} {tokens : List Token} (h : scan source = .ok tokens) :
    ∃ body, tokens = body ++ [.atEnd source] ∧ Layout source body := by
  obtain ⟨hscalar, words, last, hwords, rfl⟩ := scan_eq_ok_iff.mp h
  have hsource := hwords.eq_append
  refine ⟨_, rfl, ?_, ?_, ?_, hwords.gapsFrom [] rfl, ?_, ?_⟩
  · intro t ht
    obtain ⟨before, w, after, rfl, rfl⟩ := Word.exists_of_mem_tokens ht
    exact hwords.lexeme_ne w (by simp)
  · intro t ht
    obtain ⟨before, w, after, rfl, rfl⟩ := Word.exists_of_mem_tokens ht
    refine ⟨Word.written before ++ w.gap, w.text, Word.written after ++ last, ?_,
      hwords.text_ne_nil w (by simp), rfl⟩
    rw [hsource]
    simp
  · refine List.pairwise_append.mpr ⟨Word.pairwise_tokens words [], List.pairwise_singleton _ _, ?_⟩
    intro a ha b hb
    obtain rfl := List.mem_singleton.mp hb
    obtain ⟨before, w, after, rfl, rfl⟩ := Word.exists_of_mem_tokens ha
    rw [hsource]
    simp [Word.token, Token.atEnd]
  · intro t ht text htext
    obtain ⟨before, w, after, rfl, rfl⟩ := Word.exists_of_mem_tokens ht
    have hplace : source.Holds _ _ w.text :=
      ⟨Word.written before ++ w.gap, Word.written after ++ last, by rw [hsource]; simp, rfl, rfl⟩
    obtain rfl := htext.eq hplace
    have hscan := hwords.scan_part [] hscalar
    rwa [Word.written_nil, List.append_nil] at hscan
  · intro a b hab _ text htext
    obtain ⟨before, v, w, after, rfl, rfl, rfl⟩ := Word.exists_of_isInfix_tokens hab
    have hplace : source.Holds (v.token (Word.written before)).span.startByte
        (w.token (Word.written before ++ v.gap ++ v.text)).span.endByte
        (v.text ++ Word.written [w]) :=
      ⟨Word.written before ++ v.gap, Word.written after ++ last, by rw [hsource]; simp, rfl,
        by simp [Word.token]⟩
    obtain rfl := htext.eq hplace
    exact hwords.scan_part [w] hscalar

/-- Words, a symbol between two of them, a comment and a string that goes over two lines. -/
def twoLines : Text := "a<=b # \n \"é\n\""

theorem scan_layout_twoLines : ∃ body tokens, scan twoLines = .ok tokens ∧
    body.map Token.span = [⟨0, 1, 1⟩, ⟨1, 3, 1⟩, ⟨3, 4, 1⟩, ⟨9, 14, 2⟩] ∧
    tokens = body ++ [.atEnd twoLines] ∧ Layout twoLines body := by
  have hscan : scan twoLines = .ok [⟨.identifier "a", ⟨0, 1, 1⟩⟩,
      ⟨.symbol .lessThanEqual, ⟨1, 3, 1⟩⟩, ⟨.identifier "b", ⟨3, 4, 1⟩⟩,
      ⟨.string "é\n", ⟨9, 14, 2⟩⟩, ⟨.endOfInput, ⟨14, 14, 3⟩⟩] := by cbv
  obtain ⟨body, htokens, hlayout⟩ := scan_layout hscan
  refine ⟨body, _, hscan, ?_, htokens, hlayout⟩
  have hbody := congrArg List.dropLast htokens
  rw [List.dropLast_concat] at hbody
  rw [← hbody]
  rfl

end HostScript
