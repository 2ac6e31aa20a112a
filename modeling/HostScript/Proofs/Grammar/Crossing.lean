import HostScript.Proofs.Grammar.Derivations
import HostScript.Proofs.Syntax.Reading
import Mathlib.Data.List.Forall2

/-!
# Tokens between cursors

`Cursor.Crosses` says which tokens stand between two cursors, and on which line the second one has
come. `Signs` says at which symbols a level of operators goes on.
-/

namespace HostScript

namespace Cursor

/-- The given tokens stand between the first cursor and the second one. -/
structure Crosses (s : Cursor) (ts : List Token) (t : Cursor) : Prop where
  rest : s.rest = ts ++ t.rest
  line : t.line = lineAfter s.line ts
  lexeme : ∀ u ∈ ts, u.lexeme ≠ .endOfInput

/-- What comes next opens neither a call nor an index of what has been read. -/
def Settled (s : Cursor) : Prop := ¬ s.peek.Suffixes s.line

namespace Crosses

variable {s t u : Cursor} {l : Lexeme} {σ : Span} {ts us : List Token}

theorem refl (s : Cursor) : s.Crosses [] s := ⟨rfl, rfl, nofun⟩

theorem nil_iff : s.Crosses [] t ↔ s = t := by
  obtain ⟨line, rest⟩ := s
  obtain ⟨line', rest'⟩ := t
  constructor
  · rintro ⟨hrest, hline, -⟩
    obtain rfl : line' = line := hline
    obtain rfl : rest = rest' := hrest
    rfl
  · intro h
    exact h ▸ refl _

theorem cons_iff :
    s.Crosses (⟨l, σ⟩ :: ts) t ↔ s.peek = ⟨l, σ⟩ ∧ l ≠ .endOfInput ∧ s.next.Crosses ts t := by
  obtain ⟨line, rest⟩ := s
  constructor
  · rintro ⟨hrest, hline, hne⟩
    obtain ⟨hl, hne⟩ := List.forall_mem_cons.mp hne
    obtain rfl : rest = ⟨l, σ⟩ :: (ts ++ t.rest) := hrest
    refine ⟨rfl, hl, ?_⟩
    rw [next_cons hl]
    exact ⟨rfl, hline, hne⟩
  · rintro ⟨hpeek, hl, hrest, hline, hne⟩
    cases rest with
    | nil => exact absurd (congrArg Token.lexeme hpeek).symm hl
    | cons first rest =>
      obtain rfl : first = ⟨l, σ⟩ := hpeek
      rw [next_cons hl] at hrest hline
      exact ⟨congrArg _ hrest, hline, List.forall_mem_cons.mpr ⟨hl, hne⟩⟩

theorem cons (hl : s.peek.lexeme = l) (hne : l ≠ .endOfInput) (h : s.next.Crosses ts t) :
    s.Crosses (⟨l, s.peek.span⟩ :: ts) t :=
  cons_iff.mpr ⟨by rw [← hl], hne, h⟩

theorem next (hl : s.peek.lexeme = l) (hne : l ≠ .endOfInput) :
    s.Crosses [⟨l, s.peek.span⟩] s.next :=
  cons hl hne (refl _)

theorem trans (h : s.Crosses ts t) (h' : t.Crosses us u) : s.Crosses (ts ++ us) u where
  rest := by rw [h.rest, h'.rest, List.append_assoc]
  line := by rw [h'.line, h.line, lineAfter_append]
  lexeme := List.forall_mem_append.mpr ⟨h.lexeme, h'.lexeme⟩

theorem append_iff : s.Crosses (ts ++ us) u ↔ ∃ t, s.Crosses ts t ∧ t.Crosses us u := by
  constructor
  · rintro ⟨hrest, hline, hne⟩
    obtain ⟨hts, hus⟩ := List.forall_mem_append.mp hne
    refine ⟨⟨lineAfter s.line ts, us ++ u.rest⟩, ⟨?_, rfl, hts⟩, ⟨rfl, ?_, hus⟩⟩
    · rw [hrest, List.append_assoc]
    · rw [hline, lineAfter_append]
  · rintro ⟨t, h, h'⟩
    exact h.trans h'

theorem concat_iff : s.Crosses (ts ++ [⟨l, σ⟩]) t ↔
    ∃ u, s.Crosses ts u ∧ u.peek = ⟨l, σ⟩ ∧ l ≠ .endOfInput ∧ u.next = t := by
  simp only [append_iff, cons_iff, nil_iff]

theorem length (h : s.Crosses ts t) : s.rest.length = ts.length + t.rest.length := by
  rw [h.rest, List.length_append]

theorem length_lt (h : s.Crosses ts t) (hne : ts ≠ []) : t.rest.length < s.rest.length := by
  have hpos := List.length_pos_iff.mpr hne
  rw [h.length]
  omega

/-- The second cursor has come to the line of the last token. -/
theorem line_eq (h : s.Crosses ts t) (hne : ts ≠ []) : t.line = lineAfter 0 ts := by
  rw [h.line, lineAfter_of_ne_nil hne]

/-- The first token comes next, unless there is none. -/
theorem peek (h : s.Crosses ts t) : s.peek = ts.head?.getD t.peek := by
  cases ts with
  | nil => rw [nil_iff.mp h, List.head?_nil, Option.getD_none]
  | cons u ts =>
    rw [Cursor.peek, h.rest]
    rfl

theorem peek_lexeme (h : s.Crosses ts t) (hl : (ts.map (·.lexeme)).head? = some l) :
    s.peek.lexeme = l := by
  obtain ⟨u, hu, rfl⟩ := Option.map_eq_some_iff.mp (List.head?_map ▸ hl)
  rw [h.peek, hu, Option.getD_some]

end Crosses

end Cursor

namespace Parser

open Grammar

/-! ## Levels of operators -/

/-- The tokens at which a level of operators goes on have the given symbols, and what it makes of
its operands is no variable and no index. -/
structure Signs (build? : Token → Option (Expr → Expr → Expr)) (ops : List Symbol) : Prop where
  isSome_iff : ∀ t, (build? t).isSome ↔ ∃ op ∈ ops, t.lexeme = .symbol op
  assign?_eq_none : ∀ {t build}, build? t = some build → ∀ left right value span,
    assign? (build left right) value span = none

theorem Signs.eq_none {build? : Token → Option (Expr → Expr → Expr)} {ops : List Symbol}
    (h : Signs build? ops) {t : Token} (ht : ∀ op ∈ ops, t.lexeme ≠ .symbol op) :
    build? t = none := by
  rw [← Option.not_isSome_iff_eq_none, h.isSome_iff]
  rintro ⟨op, hop, hl⟩
  exact ht op hop hl

theorem signs_logicalOf (symbol : Symbol) (op : LogicalOp) :
    Signs (logicalOf symbol op) [symbol] where
  isSome_iff t := by
    unfold logicalOf
    split <;> simpa
  assign?_eq_none {t build} h left right value span := by
    unfold logicalOf at h
    split at h
    · obtain rfl := Option.some.inj h
      rfl
    · contradiction

theorem signs_binaryOf (ops : List (Symbol × BinaryOp)) :
    Signs (binaryOf ops) (ops.map Prod.fst) where
  isSome_iff t := by
    unfold binaryOf
    split
    · next s hl => simp [hl]
    · next hl =>
      simp only [Option.isSome_none, Bool.false_eq_true, false_iff]
      rintro ⟨op, -, h⟩
      exact hl op h
  assign?_eq_none {t build} h left right value span := by
    unfold binaryOf at h
    split at h
    · obtain ⟨op, -, rfl⟩ := Option.map_eq_some_iff.mp h
      rfl
    · contradiction

/-- What the levels of operators make of their operands, the loosest level first. -/
def builders : List (Token → Option (Expr → Expr → Expr)) :=
  [logicalOf .or .or, logicalOf .and .and, binaryOf [(.isEqual, .equal), (.notEqual, .notEqual)],
    binaryOf [(.lessThan, .less), (.lessThanEqual, .lessEqual), (.greaterThan, .greater),
      (.greaterThanEqual, .greaterEqual)],
    binaryOf [(.plus, .add), (.minus, .subtract)],
    binaryOf [(.asterisk, .multiply), (.slash, .divide), (.percent, .remainder)]]

theorem levels_eq_foldr (operand : Parser Expr) : levels operand = builders.foldr chain operand :=
  rfl

theorem signs_builders : List.Forall₂ Signs builders operators :=
  .cons (signs_logicalOf _ _) <| .cons (signs_logicalOf _ _) <| .cons (signs_binaryOf _) <|
    .cons (signs_binaryOf _) <| .cons (signs_binaryOf _) <| .cons (signs_binaryOf _) .nil

end Parser

end HostScript
