import HostScript.Proofs.Depth.Parsing
import HostScript.Proofs.Grammar.Accepted
import HostScript.Proofs.Grammar.Parsed
import HostScript.Proofs.Syntax.Layout

/-!
# The programs of the grammar

The parser accepts the sentences of the accepted grammar and nothing else (`parse_accepts`). The
grammar as it is written down has sentences that the parser does not accept, and lacks some that it
does (`parse_differs_from_documented`).
-/

namespace HostScript

open Grammar

theorem Parser.ManyYield.ends {stop : Lexeme → Bool} {item : Parser Stmt} {s t : Cursor}
    {xs : List Stmt} (h : Parser.ManyYield stop item s xs t) :
    stop t.peek.lexeme = true ∨ t.peek.lexeme = .endOfInput := by
  induction h with
  | stops h => exact h
  | goes _ _ _ _ _ ih => exact ih

section

variable {depth : Nat} {body : List Token} {last : Token}
  (hbody : ∀ t ∈ body, t.lexeme ≠ .endOfInput) (hlast : last.lexeme = .endOfInput)

include hbody hlast

/-- The tokens of a program in front of the end of the input are derived. -/
theorem derives_of_parse {program : List Stmt} (h : parse depth (body ++ [last]) = .ok program) :
    accepted.Derives .statements body := by
  obtain ⟨t, hmany⟩ := parse_eq_ok_iff.mp h
  obtain ⟨ts, hts, hd⟩ := Parser.FindsAt.many_finds (Parser.findsAt depth).statement hmany
  have hend := hmany.ends.resolve_left nofun
  rcases List.append_eq_append_iff.mp hts.rest with ⟨more, rfl, hmore⟩ | ⟨more, rfl, hrest⟩
  · cases more with
    | nil => rwa [List.append_nil] at hd
    | cons u more =>
      -- the end of the input is not passed
      obtain ⟨rfl, -⟩ := List.cons.inj hmore
      exact absurd hlast (hts.lexeme last (by simp))
  · cases more with
    | nil => rwa [List.append_nil]
    | cons u more =>
      have hpeek : t.peek = u := by
        rw [Cursor.peek, hrest]
        rfl
      rw [hpeek] at hend
      exact absurd hend (hbody u (by simp))

/-- Derived tokens are parsed up to the end of the input. -/
theorem exists_parse_of_derives (h : accepted.Derives .statements body)
    (hdepth : 5 * body.length ≤ depth) : ∃ program, parse depth (body ++ [last]) = .ok program := by
  have hreads := Parser.reads_of_derives h.toEager depth hdepth
  obtain ⟨xs, hxs⟩ := hreads (fun _ => false) ⟨0, body ++ [last]⟩ ⟨lineAfter 0 body, [last]⟩ nofun
    ⟨rfl, rfl, hbody⟩ (.inr hlast)
  exact ⟨xs, parse_eq_ok_iff.mpr ⟨_, hxs⟩⟩

end

/-- The parser accepts the sentences of the accepted grammar and nothing else. Whatever the bound on
nesting is, what is parsed is a sentence, and a sentence is parsed under a bound of five times the
number of its tokens. -/
theorem parse_accepts {source : Text} {tokens : List Token} (h : scan source = .ok tokens) :
    (∀ depth program, parse depth tokens = .ok program → accepted.Sentence tokens) ∧
      (accepted.Sentence tokens →
        ∀ depth, 5 * tokens.length ≤ depth → ∃ program, parse depth tokens = .ok program) := by
  obtain ⟨body, rfl, hlayout⟩ := scan_layout h
  constructor
  · intro depth program hparse
    exact ⟨body, .atEnd source, rfl, rfl, derives_of_parse hlayout.lexeme rfl hparse⟩
  · rintro ⟨body', last, htokens, -, hd⟩ depth hdepth
    obtain ⟨rfl, -⟩ := List.append_inj' htokens rfl
    rw [List.length_append] at hdepth
    exact exists_parse_of_derives hlayout.lexeme rfl hd (by omega)

/-- The tokens of `f()[a] = b`. -/
def assignmentTokens : List Token :=
  [⟨.identifier "f", ⟨0, 1, 1⟩⟩, ⟨.symbol .leftParen, ⟨1, 2, 1⟩⟩, ⟨.symbol .rightParen, ⟨2, 3, 1⟩⟩,
    ⟨.symbol .leftBracket, ⟨3, 4, 1⟩⟩, ⟨.identifier "a", ⟨4, 5, 1⟩⟩,
    ⟨.symbol .rightBracket, ⟨5, 6, 1⟩⟩, ⟨.symbol .equals, ⟨7, 8, 1⟩⟩, ⟨.identifier "b", ⟨9, 10, 1⟩⟩,
    ⟨.endOfInput, ⟨10, 10, 1⟩⟩]

theorem scan_assignment : scan "f()[a] = b" = .ok assignmentTokens := by cbv

/-- An assignment to an element of what a call returns. -/
theorem parse_accepts_assignment :
    scan "f()[a] = b" = .ok assignmentTokens ∧
      (∀ depth program, parse depth assignmentTokens = .ok program →
        accepted.Sentence assignmentTokens) ∧
      (accepted.Sentence assignmentTokens → ∀ depth, 5 * assignmentTokens.length ≤ depth →
        ∃ program, parse depth assignmentTokens = .ok program) :=
  ⟨scan_assignment, parse_accepts scan_assignment⟩

/-! ## The grammar as it is written down -/

/-- What is a fault under one bound on nesting is parsed under none. -/
theorem parse_ne_ok_of_fault {depth : Nat} {tokens : List Token} {cause : ParseFault} {span : Span}
    (h : parse depth tokens = .error (.fault cause span)) (depth' : Nat) (program : List Stmt) :
    parse depth' tokens ≠ .ok program := by
  intro hok
  have hsame := parse_agrees (Nat.le_max_left depth depth') tokens (by rw [h]; nofun)
  have hsame' := parse_agrees (Nat.le_max_right depth depth') tokens (by rw [hok]; nofun)
  rw [hsame, h, hok] at hsame'
  contradiction

namespace Grammar

/-- No operator of the phrase is the sign of an assignment. -/
def Phrase.Plain : Phrase → Prop
  | .chain levels => Symbol.equals ∉ levels.flatten
  | _ => True

theorem equals_not_mem_commas (names : List Name) :
    Lexeme.symbol .equals ∉ commas (names.map fun name => [.identifier name]) := by
  induction names with
  | nil => simp
  | cons name names ih =>
    cases names with
    | nil => simp
    | cons => simpa using ih

/-- Where only variables and their elements are assigned to, an assignment has an identifier. -/
theorem Derives.exists_identifier {g : Grammar} {c : Phrase} {ts : List Token}
    (h : g.Derives c ts) (hany : ¬ g.anyPlace) (hc : c.Plain)
    (hts : c = .place ∨ Lexeme.symbol .equals ∈ ts.map (·.lexeme)) :
    ∃ name, Lexeme.identifier name ∈ ts.map (·.lexeme) := by
  have hplain : Phrase.expression.Plain := by
    change Symbol.equals ∉ operators.flatten
    decide
  induction h with simp only [List.map_append, List.map_cons, List.map_nil, List.mem_append,
    List.mem_cons, List.not_mem_nil, Lexeme.symbol.injEq, reduceCtorEq, false_or, or_false] at *
  | @literal value =>
    cases value with
    | boolean b => cases b <;> simp [Literal.lexeme] at hts
    | null | number | string => simp [Literal.lexeme] at hts
  | function _ hps =>
    simp only [hps, spellParameters, List.mem_cons, List.mem_append, equals_not_mem_commas] at *
    grind [Phrase.Plain]
  | more => grind [Phrase.Plain, List.mem_flatten]
  | _ => grind [Phrase.Plain]

theorem Derives.expression_of_primary {g : Grammar} {ts : List Token} (h : g.Derives .primary ts) :
    g.Derives .expression ts :=
  .single <| .single <| .single <| .single <| .single <| .single <| .operand <| .unsigned <|
    .plain h

end Grammar

/-- The tokens of `return break`. -/
def returnBreak : List Token :=
  [⟨.symbol .return, ⟨0, 6, 1⟩⟩, ⟨.symbol .break, ⟨7, 12, 1⟩⟩, ⟨.endOfInput, ⟨12, 12, 1⟩⟩]

theorem scan_returnBreak : scan "return break" = .ok returnBreak := by cbv

theorem sentence_returnBreak : documented.Sentence returnBreak := by
  have hbreak : documented.Derives .statements ([⟨.symbol .break, ⟨7, 12, 1⟩⟩] ++ []) :=
    .joined .leave .nothing fun _ _ => trivial
  have hreturn : documented.Derives .statements ([⟨.symbol .return, ⟨0, 6, 1⟩⟩] ++ _) :=
    .joined .giveNothing hbreak fun _ _ => trivial
  exact ⟨_, _, rfl, rfl, hreturn⟩

theorem parse_returnBreak : parse 9 returnBreak =
    .error (.fault (.expectedExpression (.symbol .break)) ⟨7, 12, 1⟩) := by cbv

/-- The tokens of `x [a, b]`. -/
def nameArray : List Token :=
  [⟨.identifier "x", ⟨0, 1, 1⟩⟩, ⟨.symbol .leftBracket, ⟨2, 3, 1⟩⟩, ⟨.identifier "a", ⟨3, 4, 1⟩⟩,
    ⟨.symbol .comma, ⟨4, 5, 1⟩⟩, ⟨.identifier "b", ⟨6, 7, 1⟩⟩, ⟨.symbol .rightBracket, ⟨7, 8, 1⟩⟩,
    ⟨.endOfInput, ⟨8, 8, 1⟩⟩]

theorem scan_nameArray : scan "x [a, b]" = .ok nameArray := by cbv

theorem sentence_nameArray : documented.Sentence nameArray := by
  have hname (name : Name) (σ : Span) : documented.Derives .expression [⟨.identifier name, σ⟩] :=
    .expression_of_primary .name
  have hitems : documented.Derives .items ([⟨.identifier "a", ⟨3, 4, 1⟩⟩] ++
      ⟨.symbol .comma, ⟨4, 5, 1⟩⟩ :: [⟨.identifier "b", ⟨6, 7, 1⟩⟩]) :=
    .moreItems (hname _ _) (.item (hname _ _))
  have harray : documented.Derives .statements ((⟨.symbol .leftBracket, ⟨2, 3, 1⟩⟩ ::
      (_ ++ [⟨.symbol .rightBracket, ⟨7, 8, 1⟩⟩])) ++ []) :=
    .joined (.value (.expression_of_primary (.array (.arguments hitems)))) .nothing
      fun _ _ => trivial
  have hall : documented.Derives .statements ([⟨.identifier "x", ⟨0, 1, 1⟩⟩] ++ _) :=
    .joined (.value (hname _ _)) harray fun _ _ => trivial
  exact ⟨_, _, rfl, rfl, hall⟩

theorem parse_nameArray : parse 20 nameArray =
    .error (.fault (.expected "]" (.symbol .comma)) ⟨4, 5, 1⟩) := by cbv

/-- The tokens of `[null][null] = null`. -/
def arrayElement : List Token :=
  [⟨.symbol .leftBracket, ⟨0, 1, 1⟩⟩, ⟨.symbol .null, ⟨1, 5, 1⟩⟩,
    ⟨.symbol .rightBracket, ⟨5, 6, 1⟩⟩, ⟨.symbol .leftBracket, ⟨6, 7, 1⟩⟩, ⟨.symbol .null, ⟨7, 11, 1⟩⟩,
    ⟨.symbol .rightBracket, ⟨11, 12, 1⟩⟩, ⟨.symbol .equals, ⟨13, 14, 1⟩⟩,
    ⟨.symbol .null, ⟨15, 19, 1⟩⟩, ⟨.endOfInput, ⟨19, 19, 1⟩⟩]

theorem scan_arrayElement : scan "[null][null] = null" = .ok arrayElement := by cbv

theorem not_sentence_arrayElement : ¬ documented.Sentence arrayElement := by
  rintro ⟨body, last, heq, -, hd⟩
  have hmap := congrArg (·.dropLast.map Token.lexeme) heq
  simp only [arrayElement, List.dropLast_concat] at hmap
  -- no token of it is an identifier
  obtain ⟨name, hname⟩ := hd.exists_identifier id trivial (.inr (by rw [← hmap]; simp))
  rw [← hmap] at hname
  simp at hname

theorem parse_arrayElement : parse 20 arrayElement =
    .ok [.assignIndex (.array [.literal .null ⟨1, 5, 1⟩] ⟨0, 1, 1⟩) (.literal .null ⟨7, 11, 1⟩)
      (.literal .null ⟨15, 19, 1⟩) ⟨0, 1, 1⟩] := by cbv

/-- The grammar as it is written down derives a `return` in front of a statement and an array behind
an expression, which are not parsed. It derives no assignment to an element of an array without a
name, which is parsed. -/
theorem parse_differs_from_documented :
    (∃ tokens, scan "return break" = .ok tokens ∧ documented.Sentence tokens ∧
      ∀ depth program, parse depth tokens ≠ .ok program) ∧
    (∃ tokens, scan "x [a, b]" = .ok tokens ∧ documented.Sentence tokens ∧
      ∀ depth program, parse depth tokens ≠ .ok program) ∧
    ∃ tokens, scan "[null][null] = null" = .ok tokens ∧ ¬ documented.Sentence tokens ∧
      ∃ items σ index value σ', parse 20 tokens =
        .ok [.assignIndex (.array items σ) index value σ'] :=
  ⟨⟨_, scan_returnBreak, sentence_returnBreak, parse_ne_ok_of_fault parse_returnBreak⟩,
    ⟨_, scan_nameArray, sentence_nameArray, parse_ne_ok_of_fault parse_nameArray⟩,
    _, scan_arrayElement, not_sentence_arrayElement, _, _, _, _, _, parse_arrayElement⟩

end HostScript
