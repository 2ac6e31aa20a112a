import HostScript.Proofs.Text.Runs
import HostScript.Syntax.Scan
import Mathlib

/-!
# The lexical grammar

What a piece of source may be, stated without reading it: how the code points of a string are
written (`Inside`), which text is a lexeme in front of which other text (`Munches`), and which is a
gap. A lexeme is the longest one that stands there, so the condition on what follows it says that it
cannot be continued. `read_eq_lexeme_iff` and `read_eq_gap_iff` say that reading finds these.
-/

namespace HostScript

/-! ## Escapes -/

namespace Escape

/-- The code point of an escape by number. -/
def pointOf? (digits : Text) : Option CodePoint := do
  let n ← Number.hexInteger? digits
  if n < 0 then none else CodePoint.ofNat? n.toNat

/-- How the escapes for a code point are written behind the backslash: as a letter, or as up to
seven code points between braces. -/
inductive Writes : Text → CodePoint → Prop
  | letter {c point : CodePoint} : read c [] = .point point 0 → Writes [c] point
  | number {digits : Text} {point : CodePoint} :
      digits.length ≤ 7 → .scalar '\x7d' ∉ digits → pointOf? digits = some point →
      Writes (.scalar 'u' :: .scalar '\x7b' :: (digits ++ [.scalar '\x7d'])) point

theorem readNumber_append {digits : Text} {point : CodePoint} (hlength : digits.length ≤ 7)
    (hbrace : .scalar '\x7d' ∉ digits) (hpoint : pointOf? digits = some point) (after : Text) :
    readNumber (.scalar '\x7b' :: (digits ++ .scalar '\x7d' :: after)) =
      .point point (digits.length + 2) := by
  have hrun : ((digits ++ .scalar '\x7d' :: after).take 7).takeWhile (· ≠ .scalar '\x7d') =
      digits := by
    rw [List.take_append, List.take_of_length_le hlength]
    refine Text.takeWhile_append_of_stops (fun c hc => ?_) ?_
    · exact decide_eq_true fun h => hbrace (h ▸ hc)
    · exact Text.Stops.of_isPrefix (Text.stops_cons.mpr (by simp)) (List.take_prefix _ _)
  simp only [readNumber, hrun, List.drop_left]
  rw [← pointOf?, hpoint]

theorem eq_append_of_readNumber {rest : Text} {point : CodePoint} {more : Nat}
    (h : readNumber rest = .point point more) :
    ∃ digits after, rest = .scalar '\x7b' :: (digits ++ .scalar '\x7d' :: after) ∧
      digits.length ≤ 7 ∧ .scalar '\x7d' ∉ digits ∧ pointOf? digits = some point ∧
      more = digits.length + 2 := by
  unfold readNumber at h
  split at h
  · rename_i rest
    dsimp only at h
    obtain ⟨digits, hdigits⟩ : ∃ digits, digits = (rest.take 7).takeWhile (· ≠ .scalar '\x7d') :=
      ⟨_, rfl⟩
    rw [← hdigits] at h
    have hprefix : digits <+: rest.take 7 := hdigits ▸ List.takeWhile_prefix _
    obtain ⟨tail, rfl⟩ := hprefix.trans (List.take_prefix _ _)
    have hbrace : .scalar '\x7d' ∉ digits := fun hmem => by
      rw [hdigits] at hmem
      simpa using List.all_eq_true.mp List.all_takeWhile _ hmem
    have hlength : digits.length ≤ 7 := by
      have := hprefix.length_le
      rw [List.length_take] at this
      omega
    rw [List.drop_left] at h
    split at h
    · rename_i after
      rw [← pointOf?] at h
      split at h
      · rename_i hpoint
        obtain ⟨rfl, rfl⟩ := Escape.point.inj h
        exact ⟨digits, after, rfl, hlength, hbrace, hpoint, rfl⟩
      · contradiction
    · contradiction
  · contradiction

/-- Reading an escape finds what writes it. -/
theorem read_eq_point_iff {c point : CodePoint} {rest : Text} {more : Nat} :
    read c rest = .point point more ↔
      ∃ used after, rest = used ++ after ∧ more = used.length ∧ Writes (c :: used) point := by
  by_cases hu : c = .scalar 'u'
  · subst hu
    constructor
    · intro h
      obtain ⟨digits, after, rfl, hlength, hbrace, hpoint, rfl⟩ := eq_append_of_readNumber h
      exact ⟨_, after, by simp, by simp, .number hlength hbrace hpoint⟩
    · rintro ⟨used, after, rfl, rfl, hwrites⟩
      cases hwrites with
      | letter h => exact absurd h (by simp [read, readNumber])
      | number hlength hbrace hpoint =>
        simpa [read] using readNumber_append hlength hbrace hpoint after
  · have hread : read c rest = read c [] := by
      unfold read
      split <;> first | rfl | exact absurd rfl hu
    have hmore {point : CodePoint} {more : Nat} (h : read c [] = .point point more) : more = 0 := by
      unfold read at h
      split at h <;> first | exact absurd rfl hu | cases h <;> rfl
    rw [hread]
    constructor
    · intro h
      obtain rfl := hmore h
      exact ⟨[], rest, rfl, rfl, .letter h⟩
    · rintro ⟨used, after, rfl, rfl, hwrites⟩
      cases hwrites with
      | letter h => exact h
      | number => exact absurd rfl hu

end Escape

namespace Piece

/-! ## Strings -/

/-- How the code points of a string are written between its quotes. -/
inductive Inside : Text → Text → Prop
  | nil : Inside [] []
  | plain {c : CodePoint} {written meaning : Text} :
      c ≠ .scalar '"' → c ≠ .scalar '\\' → Inside written meaning →
      Inside (c :: written) (c :: meaning)
  | escape {e : Text} {point : CodePoint} {written meaning : Text} :
      Escape.Writes e point → Inside written meaning →
      Inside (.scalar '\\' :: (e ++ written)) (point :: meaning)

theorem readString_append {written meaning : Text} (h : Inside written meaning) (seen : Text)
    (taken : Nat) (after : Text) :
    readString seen taken (written ++ .scalar '"' :: after) =
      lexeme (.string (seen.reverse ++ meaning)) (taken + written.length + 1) := by
  induction h generalizing seen taken with
  | nil => rw [List.nil_append, readString, List.append_nil, List.length_nil, Nat.add_zero]
  | plain hquote hbackslash _ ih =>
    rw [List.cons_append, readString, ih]
    · simp [Nat.add_right_comm, Nat.add_assoc]
    · exact hquote
    · exact fun h => absurd h hbackslash
    · exact fun _ _ h => absurd h hbackslash
  | @escape e point written meaning hwrites _ ih =>
    obtain ⟨c, used, rfl⟩ : ∃ c used, e = c :: used := by cases hwrites <;> exact ⟨_, _, rfl⟩
    have hread : Escape.read c (used ++ (written ++ .scalar '"' :: after)) =
        .point point used.length := Escape.read_eq_point_iff.mpr ⟨used, _, rfl, rfl, hwrites⟩
    rw [List.cons_append, List.cons_append, List.cons_append, List.append_assoc, readString, hread]
    simp only [List.drop_left, ih]
    simp only [List.reverse_cons, List.append_assoc, List.singleton_append, List.length_cons,
      List.length_append]
    congr 1
    omega

theorem eq_append_of_readString {seen : Text} {taken : Nat} {t : Text} {v : Lexeme} {more : Nat}
    (h : readString seen taken t = lexeme v more) :
    ∃ written meaning after, t = written ++ .scalar '"' :: after ∧ Inside written meaning ∧
      v = .string (seen.reverse ++ meaning) ∧ more = taken + written.length + 1 := by
  fun_induction readString seen taken t with
  | case1 => contradiction
  | case2 seen taken after =>
    obtain ⟨rfl, rfl⟩ := Piece.lexeme.inj h
    exact ⟨[], [], after, rfl, .nil, by simp, rfl⟩
  | case3 => contradiction
  | case4 seen taken c rest point more hread ih =>
    obtain ⟨written, meaning, after, hrest, hinside, rfl, rfl⟩ := ih h
    obtain ⟨used, tail, rfl, rfl, hwrites⟩ := Escape.read_eq_point_iff.mp hread
    rw [List.drop_left] at hrest
    subst hrest
    refine ⟨_, _, after, ?_, .escape hwrites hinside, ?_, ?_⟩
    · simp
    · simp
    · simp only [List.length_cons, List.length_append]
      omega
  | case5 => contradiction
  | case6 seen taken c rest hquote hlast hescape ih =>
    obtain ⟨written, meaning, after, rfl, hinside, rfl, rfl⟩ := ih h
    refine ⟨c :: written, c :: meaning, after, rfl, .plain hquote (fun hc => ?_) hinside, ?_, ?_⟩
    · cases written with
      | nil => exact hescape _ _ hc rfl
      | cons d written => exact hescape _ _ hc rfl
    · simp
    · simp only [List.length_cons]
      omega

end Piece

/-! ## Lexemes -/

/-- The lexeme of a word. -/
def Lexeme.ofWord (word : Text) : Lexeme :=
  match Symbol.ofWord? word with
  | some s => .symbol s
  | none => .identifier word

/-- A text in front of another one is a lexeme. A symbol that `=` could follow, a number and a word
are as long as they can be. -/
inductive Munches : (text after : Text) → Lexeme → Prop
  | single {c : Char} {s : Symbol} {after : Text} :
      Symbol.ofChar? c = some s → Munches [.scalar c] after (.symbol s)
  | long {c : Char} {long short : Symbol} {after : Text} :
      Symbol.ofPair? c = some (long, short) →
      Munches [.scalar c, .scalar '='] after (.symbol long)
  | short {c : Char} {long short : Symbol} {after : Text} :
      Symbol.ofPair? c = some (long, short) → after.Stops (· = .scalar '=') →
      Munches [.scalar c] after (.symbol short)
  | string {written meaning after : Text} :
      Piece.Inside written meaning →
      Munches (.scalar '"' :: (written ++ [.scalar '"'])) after (.string meaning)
  | whole {digits after : Text} :
      digits ≠ [] → (∀ c ∈ digits, c.isDigit = true) → after.Stops CodePoint.isDigit →
      (∀ rest, after = .scalar '.' :: rest → Text.Stops CodePoint.isDigit rest) →
      Munches digits after (.number (Number.ofDigits digits [] 0))
  | decimal {digits fraction after : Text} :
      digits ≠ [] → (∀ c ∈ digits, c.isDigit = true) → fraction ≠ [] →
      (∀ c ∈ fraction, c.isDigit = true) → after.Stops CodePoint.isDigit →
      Munches (digits ++ .scalar '.' :: fraction) after
        (.number (Number.ofDigits digits fraction 0))
  | word {c : CodePoint} {tail after : Text} :
      c.isNameStart = true → (∀ d ∈ tail, d.isNamePart = true) → after.Stops CodePoint.isNamePart →
      Munches (c :: tail) after (.ofWord (c :: tail))

/-- A lexeme stays the same if the text behind it is cut somewhere. -/
theorem Munches.of_isPrefix {text after cut : Text} {v : Lexeme} (h : Munches text after v)
    (hcut : cut <+: after) : Munches text cut v := by
  cases h with
  | single h => exact .single h
  | long h => exact .long h
  | short h hstop => exact .short h (hstop.of_isPrefix hcut)
  | string h => exact .string h
  | whole hne hdigits hstop hpoint =>
    refine .whole hne hdigits (hstop.of_isPrefix hcut) ?_
    rintro rest rfl
    obtain ⟨more, rfl⟩ := hcut
    exact (hpoint (rest ++ more) rfl).of_isPrefix (List.prefix_append rest more)
  | decimal hne hdigits hfraction hfractionDigits hstop =>
    exact .decimal hne hdigits hfraction hfractionDigits (hstop.of_isPrefix hcut)
  | word hstart htail hstop => exact .word hstart htail (hstop.of_isPrefix hcut)

theorem Munches.ne_nil {text after : Text} {v : Lexeme} (h : Munches text after v) :
    text ≠ [] := by
  cases h with
  | whole hne => exact hne
  | _ => simp

theorem Munches.ne_endOfInput {text after : Text} {v : Lexeme} (h : Munches text after v) :
    v ≠ .endOfInput := by
  cases h with
  | @word c tail =>
    unfold Lexeme.ofWord
    split <;> simp
  | _ => simp

/-! ## Gaps -/

/-- The blanks between lexemes. -/
def CodePoint.isSpacing : CodePoint → Bool
  | .scalar c => c = ' ' || c = '\r' || c = '\t' || c = '\n'
  | .surrogate _ => false

/-- A text in front of another one consists of blanks and of comments, each of which goes on to the
end of its line or of the whole. -/
inductive IsGap (after : Text) : Text → Prop
  | nil : IsGap after []
  | blank {c : CodePoint} {rest : Text} :
      c.isSpacing = true → IsGap after rest → IsGap after (c :: rest)
  | comment {body rest : Text} :
      .scalar '\n' ∉ body → (rest ++ after).Stops (· ≠ .scalar '\n') → IsGap after rest →
      IsGap after (.scalar '#' :: (body ++ rest))

/-! ## What reading finds -/

namespace Piece

theorem readNumber_whole {c : CodePoint} {tail after : Text} (htail : ∀ d ∈ tail, d.isDigit = true)
    (hstop : after.Stops CodePoint.isDigit)
    (hpoint : ∀ rest, after = .scalar '.' :: rest → Text.Stops CodePoint.isDigit rest) :
    readNumber c (tail ++ after) =
      lexeme (.number (Number.ofDigits (c :: tail) [] 0)) tail.length := by
  simp only [readNumber, Text.takeWhile_append_of_stops htail hstop, List.drop_left]
  split
  · next rest =>
    have hnone : rest.takeWhile CodePoint.isDigit = [] :=
      Text.takeWhile_append_of_stops (s := []) (by simp) (hpoint rest rfl)
    simp [hnone]
  · simp

theorem readNumber_decimal {c : CodePoint} {tail fraction after : Text}
    (htail : ∀ d ∈ tail, d.isDigit = true) (hne : fraction ≠ [])
    (hfraction : ∀ d ∈ fraction, d.isDigit = true) (hstop : after.Stops CodePoint.isDigit) :
    readNumber c (tail ++ .scalar '.' :: (fraction ++ after)) =
      lexeme (.number (Number.ofDigits (c :: tail) fraction 0))
        (tail.length + (fraction.length + 1)) := by
  have hdot : (CodePoint.scalar '.').isDigit = false := rfl
  simp only [readNumber, Text.takeWhile_append_of_stops htail (Text.stops_cons.mpr hdot),
    List.drop_left, Text.takeWhile_append_of_stops hfraction hstop]
  simp [hne]

theorem munches_of_readNumber {c : CodePoint} (hc : c.isDigit = true) {rest : Text} {v : Lexeme}
    {more : Nat} (h : readNumber c rest = lexeme v more) :
    ∃ inside after, rest = inside ++ after ∧ more = inside.length ∧
      Munches (c :: inside) after v := by
  obtain ⟨tail, after, rfl, htake, htail, hstop⟩ := Text.exists_run CodePoint.isDigit rest
  have hdigits : ∀ d ∈ c :: tail, d.isDigit = true := List.forall_mem_cons.mpr ⟨hc, htail⟩
  by_cases hpoint : ∀ rest, after = .scalar '.' :: rest → Text.Stops CodePoint.isDigit rest
  · rw [readNumber_whole htail hstop hpoint] at h
    obtain ⟨rfl, rfl⟩ := Piece.lexeme.inj h
    exact ⟨tail, after, rfl, rfl, .whole (List.cons_ne_nil _ _) hdigits hstop hpoint⟩
  · simp only [Classical.not_forall] at hpoint
    obtain ⟨behind, rfl, hnot⟩ := hpoint
    obtain ⟨fraction, after, rfl, -, hfraction, hend⟩ := Text.exists_run CodePoint.isDigit behind
    have hne : fraction ≠ [] := by
      rintro rfl
      exact hnot hend
    rw [readNumber_decimal htail hne hfraction hend] at h
    obtain ⟨rfl, rfl⟩ := Piece.lexeme.inj h
    exact ⟨tail ++ .scalar '.' :: fraction, after, by simp, by simp,
      .decimal (List.cons_ne_nil _ _) hdigits hne hfraction hend⟩

theorem readWord_append {c : CodePoint} {tail after : Text}
    (htail : ∀ d ∈ tail, d.isNamePart = true) (hstop : after.Stops CodePoint.isNamePart) :
    readWord c (tail ++ after) = lexeme (.ofWord (c :: tail)) tail.length := by
  cases hword : Symbol.ofWord? (c :: tail) <;>
    simp only [readWord, Text.takeWhile_append_of_stops htail hstop, Lexeme.ofWord, hword]

theorem read_of_ofChar? {c : Char} {s : Symbol} (h : Symbol.ofChar? c = some s) (rest : Text) :
    read (.scalar c) rest = lexeme s 0 := by
  unfold Symbol.ofChar? at h
  split at h <;> cases h <;> rfl

theorem read_of_ofPair? {c : Char} {long short : Symbol}
    (h : Symbol.ofPair? c = some (long, short)) (rest : Text) :
    read (.scalar c) rest =
      if rest.head? = some (.scalar '=') then lexeme long 1 else lexeme short 0 := by
  unfold Symbol.ofPair? at h
  split at h <;> cases h <;> rfl

/-- What can stand in a name is no blank and begins neither a comment nor a string nor a symbol. -/
theorem read_of_isNamePart {c : Char} (h : CodePoint.isNamePart (.scalar c) = true) (rest : Text) :
    read (.scalar c) rest =
      if CodePoint.isDigit (.scalar c) then readNumber (.scalar c) rest
      else readWord (.scalar c) rest := by
  have hne {d : Char} (hd : CodePoint.isNamePart (.scalar d) = false) : c ≠ d := by
    rintro rfl
    exact absurd h (by simp [hd])
  have hblank : ¬ (c = ' ' ∨ c = '\r' ∨ c = '\t' ∨ c = '\n') := by
    rintro (hc | hc | hc | hc) <;> exact hne rfl hc
  have hpair : Symbol.ofPair? c = none := by
    unfold Symbol.ofPair?
    split <;> first | rfl | exact absurd rfl (hne rfl)
  have hchar : Symbol.ofChar? c = none := by
    unfold Symbol.ofChar?
    split <;> first | rfl | exact absurd rfl (hne rfl)
  simp only [read, if_neg hblank, if_neg (hne (d := '#') rfl), if_neg (hne (d := '"') rfl), hpair,
    hchar]
  split
  · rfl
  · next hdigit =>
    have hstart : CodePoint.isNameStart (.scalar c) = true := by
      simpa [CodePoint.isNamePart, hdigit] using h
    rw [if_pos hstart]

theorem exists_scalar_of_isNamePart {c : CodePoint} (h : c.isNamePart = true) :
    ∃ char, c = .scalar char := by
  cases c with
  | scalar char => exact ⟨char, rfl⟩
  | surrogate s => simp [CodePoint.isNamePart, CodePoint.isNameStart, CodePoint.isDigit] at h

theorem isNamePart_of_isDigit {c : CodePoint} (h : c.isDigit = true) : c.isNamePart = true := by
  simp [CodePoint.isNamePart, h]

theorem isDigit_of_isNameStart {c : CodePoint} (h : c.isNameStart = true) : c.isDigit = false := by
  cases c with
  | surrogate s => rfl
  | scalar c =>
    simp only [CodePoint.isNameStart, Bool.or_eq_true, decide_eq_true_eq] at h
    rcases h with rfl | h
    · rfl
    · simp [CodePoint.isDigit, Char.isAlpha, Char.isUpper, Char.isLower, Char.isDigit,
        UInt32.le_iff_toNat_le] at h ⊢
      omega

theorem read_of_isDigit {c : CodePoint} (h : c.isDigit = true) (rest : Text) :
    read c rest = readNumber c rest := by
  have hpart := isNamePart_of_isDigit h
  obtain ⟨char, rfl⟩ := exists_scalar_of_isNamePart hpart
  rw [read_of_isNamePart hpart, if_pos h]

theorem read_of_isNameStart {c : CodePoint} (h : c.isNameStart = true) (rest : Text) :
    read c rest = readWord c rest := by
  have hpart : c.isNamePart = true := by simp [CodePoint.isNamePart, h]
  obtain ⟨char, rfl⟩ := exists_scalar_of_isNamePart hpart
  rw [read_of_isNamePart hpart, if_neg (by simp [isDigit_of_isNameStart h])]

/-- Reading finds the lexeme that stands there. -/
theorem read_eq_lexeme_iff {c : CodePoint} {rest : Text} {v : Lexeme} {more : Nat} :
    read c rest = lexeme v more ↔ ∃ inside after, rest = inside ++ after ∧ more = inside.length ∧
      Munches (c :: inside) after v := by
  constructor
  · intro h
    cases c with
    | surrogate s => simp [read] at h
    | scalar c =>
      simp only [read] at h
      split at h
      · contradiction
      split at h
      · contradiction
      split at h
      · next hquote =>
        subst hquote
        obtain ⟨written, meaning, after, rfl, hinside, rfl, rfl⟩ := eq_append_of_readString h
        exact ⟨written ++ [.scalar '"'], after, by simp, by simp, .string hinside⟩
      split at h
      · next long short hpair =>
        split at h
        · next hequals =>
          obtain ⟨rfl, rfl⟩ := Piece.lexeme.inj h
          obtain ⟨after, rfl⟩ := List.head?_eq_some_iff.mp hequals
          exact ⟨[.scalar '='], after, rfl, rfl, .long hpair⟩
        · next hequals =>
          obtain ⟨rfl, rfl⟩ := Piece.lexeme.inj h
          refine ⟨[], rest, rfl, rfl, .short hpair fun d hd => decide_eq_false ?_⟩
          rintro rfl
          exact hequals hd
      split at h
      · next s hs =>
        obtain ⟨rfl, rfl⟩ := Piece.lexeme.inj h
        exact ⟨[], rest, rfl, rfl, .single hs⟩
      split at h
      · next hdigit => exact munches_of_readNumber hdigit h
      split at h
      · next hstart =>
        obtain ⟨tail, after, rfl, -, htail, hstop⟩ := Text.exists_run CodePoint.isNamePart rest
        rw [readWord_append htail hstop] at h
        obtain ⟨rfl, rfl⟩ := Piece.lexeme.inj h
        exact ⟨tail, after, rfl, rfl, .word hstart htail hstop⟩
      · contradiction
  · rintro ⟨inside, after, rfl, rfl, hmunches⟩
    generalize htext : c :: inside = text at hmunches
    cases hmunches with
    | single hs =>
      obtain ⟨rfl, rfl⟩ := List.cons.inj htext
      exact read_of_ofChar? hs after
    | long hpair =>
      obtain ⟨rfl, rfl⟩ := List.cons.inj htext
      rw [read_of_ofPair? hpair]
      rfl
    | short hpair hstop =>
      obtain ⟨rfl, rfl⟩ := List.cons.inj htext
      rw [read_of_ofPair? hpair, if_neg fun hequals => ?_]
      · rfl
      · simpa using hstop _ hequals
    | @string written meaning _ hinside =>
      obtain ⟨rfl, rfl⟩ := List.cons.inj htext
      have hread : read (.scalar '"') (written ++ [.scalar '"'] ++ after) =
          readString [] 0 (written ++ .scalar '"' :: after) := by
        rw [List.append_assoc]
        rfl
      rw [hread, readString_append hinside]
      simp
    | whole hne hdigits hstop hpoint =>
      subst htext
      obtain ⟨hc, htail⟩ := List.forall_mem_cons.mp hdigits
      rw [read_of_isDigit hc, readNumber_whole htail hstop hpoint]
    | @decimal digits fraction _ hne hdigits hnonempty hfraction hstop =>
      obtain ⟨d, tail, rfl⟩ := List.exists_cons_of_ne_nil hne
      rw [List.cons_append] at htext
      obtain ⟨rfl, rfl⟩ := List.cons.inj htext
      obtain ⟨hc, htail⟩ := List.forall_mem_cons.mp hdigits
      rw [read_of_isDigit hc, List.append_assoc, List.cons_append,
        readNumber_decimal htail hnonempty hfraction hstop]
      simp
    | word hstart htail hstop =>
      obtain ⟨rfl, rfl⟩ := List.cons.inj htext
      rw [read_of_isNameStart hstart, readWord_append htail hstop]

theorem read_of_isSpacing {c : CodePoint} (h : c.isSpacing = true) (rest : Text) :
    read c rest = gap 0 := by
  cases c with
  | surrogate s => contradiction
  | scalar c =>
    simp only [CodePoint.isSpacing, Bool.or_eq_true, decide_eq_true_eq, or_assoc] at h
    simp only [read, if_pos h]

theorem read_comment {body after : Text} (hbody : .scalar '\n' ∉ body)
    (hstop : after.Stops (· ≠ .scalar '\n')) :
    read (.scalar '#') (body ++ after) = gap body.length := by
  have hrun : (body ++ after).takeWhile (· ≠ .scalar '\n') = body :=
    Text.takeWhile_append_of_stops (fun c hc => decide_eq_true fun h => hbody (h ▸ hc)) hstop
  have hread : read (.scalar '#') (body ++ after) =
      gap ((body ++ after).takeWhile (· ≠ .scalar '\n')).length := rfl
  rw [hread, hrun]

theorem readString_ne_gap (seen : Text) (taken : Nat) (t : Text) (more : Nat) :
    readString seen taken t ≠ gap more := by
  fun_induction readString seen taken t <;> first | exact Piece.noConfusion | assumption

/-- A gap that reading finds goes on with what stands behind it. -/
theorem isGap_of_read {c : CodePoint} {rest : Text} {more : Nat} (h : read c rest = gap more) :
    ∃ inside after, rest = inside ++ after ∧ more = inside.length ∧ ∀ gap behind,
      after = gap ++ behind → IsGap behind gap → IsGap behind (c :: inside ++ gap) := by
  cases c with
  | surrogate s => simp [read] at h
  | scalar c =>
    simp only [read] at h
    split at h
    · next hblank =>
      have hc : (CodePoint.scalar c).isSpacing = true := by
        simpa [CodePoint.isSpacing, or_assoc] using hblank
      exact ⟨[], rest, rfl, (Piece.gap.inj h).symm, fun _ _ _ hgap => .blank hc hgap⟩
    split at h
    · next hcomment =>
      subst hcomment
      obtain ⟨body, after, rfl, hbody, hall, hstop⟩ := Text.exists_run (· ≠ .scalar '\n') rest
      rw [hbody] at h
      refine ⟨body, after, rfl, (Piece.gap.inj h).symm, ?_⟩
      rintro gap behind rfl hgap
      exact .comment (fun hmem => by simpa using hall _ hmem) hstop hgap
    split at h
    · exact absurd h (readString_ne_gap _ _ _ _)
    split at h
    · split at h <;> contradiction
    split at h
    · contradiction
    split at h
    · contradiction
    split at h
    · contradiction
    · contradiction

end Piece

end HostScript
