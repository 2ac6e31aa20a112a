import HostScript.Proofs.Number.Reading
import HostScript.Proofs.Syntax.Layout

/-!
# Writing tokens

How lexemes are written (`Spells`), and what may be put between them (`IsPadding`). Whatever follows
a lexeme is then the end of the source, a blank or a comment, none of which goes on with it; so
written lexemes are scanned as what they were (`scan_written`).
-/

namespace HostScript

/-! ## Strings -/

/-- Digits that write a number between the braces of an escape. -/
structure IsHex (digits : Text) (n : ℕ) : Prop where
  nonempty : digits ≠ []
  short : digits.length ≤ 7
  areDigits : Number.AreHexDigits digits
  value : Number.natInBase 16 digits = n

/-- How a text may be written between double quotes: quotes and backslashes behind a backslash,
other scalar values as they are, and every code point, surrogates included, as its number. -/
inductive Quotes : Text → Text → Prop
  | nil : Quotes [] []
  | raw {c : CodePoint} {written meaning : Text} :
      c ≠ .scalar '"' → c ≠ .scalar '\\' → c.isSurrogate = false → Quotes written meaning →
      Quotes (c :: written) (c :: meaning)
  | escaped {c : CodePoint} {written meaning : Text} :
      c = .scalar '"' ∨ c = .scalar '\\' → Quotes written meaning →
      Quotes (.scalar '\\' :: c :: written) (c :: meaning)
  | numbered {digits : Text} {c : CodePoint} {written meaning : Text} :
      IsHex digits c.toNat → Quotes written meaning →
      Quotes (.scalar '\\' :: .scalar 'u' :: .scalar '\x7b' ::
        (digits ++ .scalar '\x7d' :: written)) (c :: meaning)

/-- An escape by number stands for the code point of the number. -/
theorem IsHex.pointOf? {digits : Text} {c : CodePoint} (h : IsHex digits c.toNat) :
    Escape.pointOf? digits = some c := by
  rw [Escape.pointOf?, Number.hexInteger?_digits h.nonempty h.areDigits, h.value]
  simp [CodePoint.ofNat?_toNat]

theorem isScalar_of_areHexDigits {digits : Text} (h : Number.AreHexDigits digits) :
    digits.IsScalar := fun c hc => by
  obtain ⟨d, hd⟩ := h.exists_digit hc
  cases c with
  | scalar c => rfl
  | surrogate s => contradiction

theorem IsHex.writes {digits : Text} {c : CodePoint} (h : IsHex digits c.toNat) :
    Escape.Writes (.scalar 'u' :: .scalar '\x7b' :: (digits ++ [.scalar '\x7d'])) c := by
  refine .number h.short (fun hbrace => ?_) h.pointOf?
  obtain ⟨d, hd⟩ := h.areDigits.exists_digit hbrace
  contradiction

namespace Quotes

variable {written meaning : Text}

theorem inside (h : Quotes written meaning) : Piece.Inside written meaning := by
  induction h with
  | nil => exact .nil
  | raw hquote hbackslash _ _ ih => exact .plain hquote hbackslash ih
  | @escaped c _ _ hc _ ih =>
    have hwrites : Escape.Writes [c] c := by
      rcases hc with rfl | rfl
      · exact .letter rfl
      · exact .letter rfl
    exact .escape hwrites ih
  | numbered hhex _ ih => simpa using Piece.Inside.escape hhex.writes ih

theorem isScalar (h : Quotes written meaning) : written.IsScalar := by
  induction h with
  | nil => exact nofun
  | raw _ _ hc _ ih => exact List.forall_mem_cons.mpr ⟨hc, ih⟩
  | escaped hc _ ih =>
    refine List.forall_mem_cons.mpr ⟨rfl, List.forall_mem_cons.mpr ⟨?_, ih⟩⟩
    rcases hc with rfl | rfl <;> rfl
  | numbered hhex _ ih =>
    have hbrace : Text.IsScalar (.scalar '\x7d' :: _) := List.forall_mem_cons.mpr ⟨rfl, ih⟩
    have hrest := Text.isScalar_append.mpr ⟨isScalar_of_areHexDigits hhex.areDigits, hbrace⟩
    exact List.forall_mem_cons.mpr ⟨rfl, List.forall_mem_cons.mpr ⟨rfl,
      List.forall_mem_cons.mpr ⟨rfl, hrest⟩⟩⟩

end Quotes

/-! ## Lexemes -/

/-- How a lexeme is written. Negation as a symbol has two spellings, and a number is any row of
digits, with or without a point and more digits, that is read as it. -/
inductive Spells : Text → Lexeme → Prop
  | symbol (s : Symbol) : Spells s.spelling (.symbol s)
  | exclamation : Spells "!" (.symbol .not)
  | identifier {c : CodePoint} {tail : Text} :
      c.isNameStart = true → (∀ d ∈ tail, d.isNamePart = true) →
      (∀ s ∈ Symbol.keywords, Text.ofString s.label ≠ c :: tail) →
      Spells (c :: tail) (.identifier (c :: tail))
  | whole {digits : Text} {x : Float} :
      digits ≠ [] → digits.AreDigits → Number.float? digits = some x → Spells digits (.number x)
  | decimal {digits fraction : Text} {x : Float} :
      digits ≠ [] → digits.AreDigits → fraction ≠ [] → fraction.AreDigits →
      Number.float? (digits ++ .scalar '.' :: fraction) = some x →
      Spells (digits ++ .scalar '.' :: fraction) (.number x)
  | string {written meaning : Text} :
      Quotes written meaning → Spells (.scalar '"' :: (written ++ [.scalar '"'])) (.string meaning)

/-- Whether a code point begins a gap. -/
def CodePoint.opensGap (c : CodePoint) : Bool := c.isSpacing || c = .scalar '#'

/-- What can stand in a name begins no gap. -/
theorem CodePoint.not_isNamePart_of_opensGap {c : CodePoint} (h : c.opensGap = true) :
    c.isNamePart = false := by
  cases c with
  | surrogate s => rfl
  | scalar c =>
    simp only [opensGap, isSpacing, Bool.or_eq_true, decide_eq_true_eq, scalar.injEq, or_assoc] at h
    rcases h with rfl | rfl | rfl | rfl | rfl <;> rfl

/-- A text is empty or begins with a gap. -/
def Text.Opens (t : Text) : Prop := ∀ c ∈ t.head?, c.opensGap = true

/-- No run of a lexeme goes on into a gap. -/
theorem Text.Opens.stops {after : Text} (h : after.Opens) {p : CodePoint → Bool}
    (hp : ∀ c, c.opensGap = true → p c = false) : after.Stops p :=
  fun c hc => hp c (h c hc)

/-- A keyword is written as a word, and no other lexeme is written like it. -/
theorem isWord_of_mem_keywords : ∀ s ∈ Symbol.keywords,
    (Text.ofString s.spelling).head?.any CodePoint.isNameStart = true ∧
      (∀ d ∈ (Text.ofString s.spelling).tail, d.isNamePart = true) ∧
      Lexeme.ofWord s.spelling = .symbol s := by
  decide +kernel

theorem Munches.keyword {s : Symbol} (hs : s ∈ Symbol.keywords) {after : Text}
    (h : after.Stops CodePoint.isNamePart) : Munches s.spelling after (.symbol s) := by
  obtain ⟨hstart, htail, hword⟩ := isWord_of_mem_keywords s hs
  revert hstart htail hword
  cases Text.ofString s.spelling with
  | nil => exact nofun
  | cons c tail =>
    intro hstart htail hword
    rw [← hword]
    exact .word hstart htail h

/-- No lexeme goes on with what begins a gap. -/
theorem Spells.munches {text after : Text} {v : Lexeme} (h : Spells text v) (hafter : after.Opens) :
    Munches text after v := by
  have hname : after.Stops CodePoint.isNamePart :=
    hafter.stops fun _ hc => CodePoint.not_isNamePart_of_opensGap hc
  have hdigit : after.Stops CodePoint.isDigit :=
    hname.of_imp fun c hc => Piece.isNamePart_of_isDigit hc
  have hequals : after.Stops (· = .scalar '=') :=
    hafter.stops fun c hc => decide_eq_false fun heq => by
      rw [heq] at hc
      contradiction
  cases h with
  | symbol s =>
    cases s with
    | plus | minus | asterisk | slash | percent | semicolon | comma | leftParen | rightParen
    | leftBracket | rightBracket | leftBrace | rightBrace => exact .single rfl
    | lessThan | greaterThan | equals => exact .short rfl hequals
    | lessThanEqual | greaterThanEqual | isEqual | notEqual => exact .long rfl
    | _ => exact .keyword (by decide) hname
  | exclamation => exact .short rfl hequals
  | @identifier c tail hstart htail hkeyword =>
    have hword : Lexeme.ofWord (c :: tail) = .identifier (c :: tail) := by
      have hnone : Symbol.ofWord? (c :: tail) = none :=
        List.find?_eq_none.mpr fun s hs => by simpa using hkeyword s hs
      rw [Lexeme.ofWord, hnone]
    rw [← hword]
    exact .word hstart htail hname
  | whole hne hdigits hx =>
    rw [Number.float?_whole hne hdigits] at hx
    rw [← Option.some.inj hx]
    refine .whole hne hdigits hdigit ?_
    rintro rest rfl
    exact absurd (hafter _ rfl) (by decide)
  | decimal hne hdigits hne' hfraction hx =>
    rw [Number.float?_decimal hne hdigits hfraction] at hx
    rw [← Option.some.inj hx]
    exact .decimal hne hdigits hne' hfraction hdigit
  | string hquotes => exact .string hquotes.inside

theorem isScalar_ofString (s : String) : (Text.ofString s).IsScalar := by
  intro c hc
  obtain ⟨char, -, rfl⟩ := List.mem_map.mp hc
  rfl

theorem isScalar_of_isNamePart {t : Text} (h : ∀ c ∈ t, c.isNamePart = true) : t.IsScalar := by
  intro c hc
  obtain ⟨char, rfl⟩ := Piece.exists_scalar_of_isNamePart (h c hc)
  rfl

theorem isScalar_of_areDigits {t : Text} (h : t.AreDigits) : t.IsScalar :=
  isScalar_of_isNamePart fun c hc => Piece.isNamePart_of_isDigit (h c hc)

theorem Spells.isScalar {text : Text} {v : Lexeme} (h : Spells text v) : text.IsScalar := by
  cases h with
  | symbol s => exact isScalar_ofString _
  | exclamation => exact isScalar_ofString _
  | identifier hstart htail =>
    exact isScalar_of_isNamePart (List.forall_mem_cons.mpr ⟨by simp [CodePoint.isNamePart, hstart],
      htail⟩)
  | whole _ hdigits => exact isScalar_of_areDigits hdigits
  | decimal _ hdigits _ hfraction =>
    exact Text.isScalar_append.mpr ⟨isScalar_of_areDigits hdigits,
      List.forall_mem_cons.mpr ⟨rfl, isScalar_of_areDigits hfraction⟩⟩
  | string hquotes =>
    refine List.forall_mem_cons.mpr ⟨rfl, Text.isScalar_append.mpr ⟨hquotes.isScalar, ?_⟩⟩
    exact List.forall_mem_singleton.mpr rfl

/-! ## Between lexemes -/

/-- Blanks and comments, each of which ends with the line feed behind it. -/
inductive IsPadding : Text → Prop
  | nil : IsPadding []
  | blank {c : CodePoint} {rest : Text} :
      c.isSpacing = true → IsPadding rest → IsPadding (c :: rest)
  | comment {body rest : Text} :
      body.IsScalar → .scalar '\n' ∉ body → IsPadding rest →
      IsPadding (.scalar '#' :: (body ++ .scalar '\n' :: rest))

namespace IsPadding

variable {padding : Text}

theorem isGap (h : IsPadding padding) (after : Text) : IsGap after padding := by
  induction h with
  | nil => exact .nil
  | blank hc _ ih => exact .blank hc ih
  | comment _ hbody _ ih => exact .comment hbody (by simp) (.blank rfl ih)

theorem isScalar (h : IsPadding padding) : padding.IsScalar := by
  induction h with
  | nil => exact nofun
  | @blank c _ hc _ ih =>
    refine List.forall_mem_cons.mpr ⟨?_, ih⟩
    cases c with
    | scalar c => rfl
    | surrogate s => contradiction
  | comment hscalar _ _ ih =>
    exact List.forall_mem_cons.mpr
      ⟨rfl, Text.isScalar_append.mpr ⟨hscalar, List.forall_mem_cons.mpr ⟨rfl, ih⟩⟩⟩

theorem opens (h : IsPadding padding) : padding.Opens := by
  cases h with
  | nil => exact nofun
  | blank hc => simpa [Text.Opens, CodePoint.opensGap] using .inl hc
  | comment => simp [Text.Opens, CodePoint.opensGap]

theorem opens_append (h : IsPadding padding) (hne : padding ≠ []) (after : Text) :
    Text.Opens (padding ++ after) := by
  have hopens := h.opens
  cases padding with
  | nil => contradiction
  | cons c padding => exact hopens

end IsPadding

/-! ## Scanning what was written -/

variable {words : List Word} {last : Text}

/-- Written lexemes with padding between them are the words of a source. -/
theorem words_written (hspells : ∀ w ∈ words, Spells w.text w.lexeme)
    (hpadding : ∀ w ∈ words, IsPadding w.gap) (hbetween : ∀ w ∈ words.tail, w.gap ≠ [])
    (hlast : IsPadding last) : Words (Word.written words ++ last) words last := by
  induction words with
  | nil => exact .nil (hlast.isGap [])
  | cons w words ih =>
    rw [List.forall_mem_cons] at hspells hpadding
    have hopens : Text.Opens (Word.written words ++ last) := by
      cases words with
      | nil => exact hlast.opens
      | cons v words =>
        rw [Word.written_cons, List.append_assoc]
        exact (hpadding.2 v List.mem_cons_self).opens_append (hbetween v List.mem_cons_self) _
    rw [Word.written_cons, List.append_assoc, List.append_assoc]
    refine .cons (hpadding.1.isGap _) (hspells.1.munches hopens) (ih hspells.2 hpadding.2 ?_)
    exact fun v hv => hbetween v (List.mem_of_mem_tail hv)

theorem isScalar_written (hspells : ∀ w ∈ words, Spells w.text w.lexeme)
    (hpadding : ∀ w ∈ words, IsPadding w.gap) : (Word.written words).IsScalar := by
  intro c hc
  obtain ⟨w, hw, hc⟩ := List.mem_flatMap.mp hc
  rcases List.mem_append.mp hc with hc | hc
  · exact (hpadding w hw).isScalar c hc
  · exact (hspells w hw).isScalar c hc

/-- Scanning undoes writing: lexemes that are written one behind the other, with blanks and comments
between them, are scanned as these lexemes and the end of the input. -/
theorem scan_written (hspells : ∀ w ∈ words, Spells w.text w.lexeme)
    (hpadding : ∀ w ∈ words, IsPadding w.gap) (hbetween : ∀ w ∈ words.tail, w.gap ≠ [])
    (hlast : IsPadding last) : ∃ tokens, scan (Word.written words ++ last) = .ok tokens ∧
      tokens.map Token.lexeme = words.map Word.lexeme ++ [.endOfInput] := by
  have hwords := words_written hspells hpadding hbetween hlast
  have hscalar := Text.isScalar_append.mpr ⟨isScalar_written hspells hpadding, hlast.isScalar⟩
  refine ⟨_, scan_eq_ok_iff.mpr ⟨hscalar, _, _, hwords, rfl⟩, ?_⟩
  rw [List.map_append, Word.map_lexeme_tokens]
  rfl

/-- A keyword, a name that begins like it, a number, a string with a surrogate, a comment sign and a
quote in it, and negation, with a comment, a tab and a carriage return between them. -/
theorem scan_written_mixed : ∃ tokens,
    scan "if#é\n\tiff\r\n007.50 \"é\\u\x7bd800\x7d#\\\"\" !" = .ok tokens ∧
      tokens.map Token.lexeme = [.symbol .if, .identifier "iff", .number 7.5,
        .string [.scalar 'é', .surrogate 0, .scalar '#', .scalar '"'], .symbol .not,
        .endOfInput] := by
  have hcomment : IsPadding "#é\n\t" :=
    .comment (isScalar_ofString "é") (by decide) (.blank rfl .nil)
  have hbreak : IsPadding "\r\n" := .blank rfl (.blank rfl .nil)
  have hspace : IsPadding " " := .blank rfl .nil
  have hiff : Spells "iff" (.identifier "iff") := .identifier rfl (by decide) (by decide +kernel)
  have hnumber : Spells "007.50" (.number 7.5) :=
    @Spells.decimal "007" "50" 7.5 (by decide) (by rw [Text.AreDigits]; decide)
      (by decide) (by rw [Text.AreDigits]; decide) (by decide +kernel)
  have hhex : IsHex "d800" 0xd800 :=
    ⟨by decide, by decide, by rw [Number.AreHexDigits]; decide, by decide⟩
  have hquotes : Quotes "é\\u\x7bd800\x7d#\\\""
      [.scalar 'é', .surrogate 0, .scalar '#', .scalar '"'] :=
    .raw (by decide) (by decide) rfl (.numbered (c := .surrogate 0) hhex
      (.raw (by decide) (by decide) rfl (.escaped (.inl rfl) .nil)))
  exact @scan_written [⟨[], "if", .symbol .if⟩, ⟨"#é\n\t", "iff", .identifier "iff"⟩,
      ⟨"\r\n", "007.50", .number 7.5⟩,
      ⟨" ", "\"é\\u\x7bd800\x7d#\\\"\"",
        .string [.scalar 'é', .surrogate 0, .scalar '#', .scalar '"']⟩,
      ⟨" ", "!", .symbol .not⟩] []
    (by simpa using ⟨.symbol .if, hiff, hnumber, .string hquotes, .exclamation⟩)
    (by simpa using ⟨.nil, hcomment, hbreak, hspace⟩) (by decide) .nil

end HostScript
