import HostScript.Proofs.Syntax.Spelling
import HostScript.Syntax.Parse

/-!
# Reading what is spelled

Two ways of saying which lexemes a procedure reads. `Cursor.Reads` looks at one run: the tokens
between two cursors shorten the given lexemes. `Parser.Rereads` looks at every run on tokens of one
line that begin with the given lexemes: the procedure reads these, and nothing else, as long as what
follows them cannot go on with them. There is one rule for each primitive procedure, and one for
each way to put procedures together.
-/

namespace HostScript

variable {α β γ : Type}

/-! ## One run -/

namespace Cursor

/-- The tokens from the first cursor to the second shorten the given lexemes. -/
def Reads (s : Cursor) (ls : List Lexeme) (t : Cursor) : Prop :=
  ∃ us, s.rest = us ++ t.rest ∧ (∀ u ∈ us, u.lexeme ≠ .endOfInput) ∧
    Shortens (us.map (·.lexeme)) ls

variable {s t u : Cursor} {l : Lexeme} {ls ls' : List Lexeme}

theorem next_cons {line : Nat} {t : Token} {rest : List Token}
    (hne : t.lexeme ≠ .endOfInput) : (⟨line, t :: rest⟩ : Cursor).next = ⟨t.span.line, rest⟩ := by
  unfold next
  split
  · next heq =>
    obtain ⟨rfl, -⟩ := List.cons.inj heq
    exact absurd rfl hne
  · next heq =>
    obtain ⟨rfl, rfl⟩ := List.cons.inj heq
    rfl
  · contradiction

theorem rest_of_peek (h : s.peek.lexeme ≠ .endOfInput) : s.rest = s.peek :: s.next.rest := by
  obtain ⟨line, rest⟩ := s
  cases rest with
  | nil => exact absurd rfl h
  | cons first rest =>
    obtain ⟨lexeme, span⟩ := first
    unfold next
    split
    · next heq =>
      obtain ⟨rfl, rfl⟩ := Token.mk.inj (List.cons.inj heq).1
      exact absurd rfl h
    · next heq =>
      obtain ⟨rfl, rfl⟩ := List.cons.inj heq
      rfl
    · contradiction

namespace Reads

theorem refl (s : Cursor) : s.Reads [] s := ⟨[], rfl, by simp, .nil⟩

theorem trans (h : s.Reads ls t) (h' : t.Reads ls' u) : s.Reads (ls ++ ls') u := by
  obtain ⟨us, hrest, hend, hshort⟩ := h
  obtain ⟨us', hrest', hend', hshort'⟩ := h'
  refine ⟨us ++ us', ?_, ?_, ?_⟩
  · rw [hrest, hrest', List.append_assoc]
  · rw [List.forall_mem_append]
    exact ⟨hend, hend'⟩
  · rw [List.map_append]
    exact hshort.append hshort'

theorem cons (hl : s.peek.lexeme = l) (hne : l ≠ .endOfInput) (h : s.next.Reads ls t) :
    s.Reads (l :: ls) t := by
  obtain ⟨us, hrest, hend, hshort⟩ := h
  subst hl
  refine ⟨s.peek :: us, ?_, ?_, hshort.same _⟩
  · rw [rest_of_peek hne, hrest]
    rfl
  · rw [List.forall_mem_cons]
    exact ⟨hne, hend⟩

theorem next (hl : s.peek.lexeme = l) (hne : l ≠ .endOfInput) : s.Reads [l] s.next :=
  cons hl hne (refl _)

theorem semicolon (s : Cursor) : s.Reads [.symbol .semicolon] s :=
  ⟨[], rfl, by simp, .semicolon .nil⟩

theorem elseIf {x : Stmt} (hl : s.peek.lexeme = .symbol .else) (hx : x.IsBranch)
    (h : s.next.Reads x.spell t) : s.Reads (.symbol .else :: spellBraces [x]) t := by
  obtain ⟨us, hrest, hend, hshort⟩ := h
  have hne : s.peek.lexeme ≠ .endOfInput := by simp [hl]
  refine ⟨s.peek :: us, ?_, ?_, ?_⟩
  · rw [rest_of_peek hne, hrest]
    rfl
  · rw [List.forall_mem_cons]
    exact ⟨hne, hend⟩
  · have hlong := Shortens.elseIf hx hshort .nil
    rw [List.map_cons, hl]
    simpa using hlong

theorem peek (h : s.Reads (l :: ls) t) (hl : l ≠ .symbol .semicolon) : s.peek.lexeme = l := by
  obtain ⟨us, hrest, -, hshort⟩ := h
  cases us with
  | nil =>
    cases hshort with
    | semicolon => exact absurd rfl hl
  | cons u us =>
    have hpeek : s.peek = u := by rw [Cursor.peek, hrest]; rfl
    rw [hpeek]
    generalize huls : (u :: us).map (·.lexeme) = short at hshort
    cases hshort with
    | same => exact (List.cons.inj huls).1
    | semicolon => exact absurd rfl hl
    | elseIf => exact (List.cons.inj huls).1

/-- What is read up to the end of the input is all that stands before it. -/
theorem takeWhile (h : s.Reads ls t) (ht : t.peek.lexeme = .endOfInput) :
    Shortens ((s.rest.map (·.lexeme)).takeWhile (· ≠ .endOfInput)) ls := by
  obtain ⟨us, hrest, hend, hshort⟩ := h
  have hnil : (t.rest.map (·.lexeme)).takeWhile (· ≠ .endOfInput) = [] := by
    obtain ⟨line, rest⟩ := t
    cases rest with
    | nil => rfl
    | cons first rest =>
      have hfirst : first.lexeme = .endOfInput := ht
      simp [hfirst]
  have hall : ∀ l ∈ us.map (·.lexeme), (decide (l ≠ .endOfInput)) = true := by
    simpa using hend
  rw [hrest, List.map_append, List.takeWhile_append_of_pos hall, hnil, List.append_nil]
  exact hshort

end Reads

end Cursor

namespace Parser

/-! ## The results of primitive procedures -/

/-- A procedure reads from one cursor to another and comes to a result. -/
def Yields (p : Parser α) (s : Cursor) (a : α) (t : Cursor) : Prop := p s = .ok (a, t)

theorem yields_bind {p : Parser α} {f : α → Parser β} {s u : Cursor} {b : β} :
    (p >>= f).Yields s b u ↔ ∃ a t, p.Yields s a t ∧ (f a).Yields t b u := by
  change (p s >>= fun (a, t) => f a t) = .ok (b, u) ↔ ∃ a t, p s = .ok (a, t) ∧ f a t = .ok (b, u)
  cases p s with
  | error halt => simp [bind, Except.bind]
  | ok r =>
    constructor
    · intro h
      exact ⟨r.1, r.2, rfl, h⟩
    · rintro ⟨a, t, hr, h⟩
      obtain rfl := Except.ok.inj hr
      exact h

theorem yields_pure {a b : α} {s t : Cursor} :
    (pure a : Parser α).Yields s b t ↔ a = b ∧ s = t := by
  change (.ok (a, s) : Except ParseHalt (α × Cursor)) = .ok (b, t) ↔ _
  simp

theorem yields_get {s t u : Cursor} : (get : Parser Cursor).Yields s t u ↔ s = t ∧ s = u := by
  change (.ok (s, s) : Except ParseHalt (Cursor × Cursor)) = .ok (t, u) ↔ _
  simp

theorem yields_peek {a : Token} {s t : Cursor} :
    peek.Yields s a t ↔ s.peek = a ∧ s = t := by
  change (.ok (s.peek, s) : Except ParseHalt (Token × Cursor)) = .ok (a, t) ↔ _
  simp

theorem yields_take {a : Token} {s t : Cursor} :
    take.Yields s a t ↔ s.peek = a ∧ s.next = t := by
  change (.ok (s.peek, s.next) : Except ParseHalt (Token × Cursor)) = .ok (a, t) ↔ _
  simp

theorem yields_discard {p : Parser α} {a : PUnit} {s t : Cursor} :
    (discard p).Yields s a t ↔ ∃ b, p.Yields s b t := by
  have hd : discard p = p >>= fun _ => pure ⟨⟩ := by
    simp only [discard, map_const, bind_pure_comp]
    rfl
  rw [hd, yields_bind]
  simp [yields_pure]

theorem yields_accept {l : Lexeme} {found : Bool} {s t : Cursor} :
    (accept l).Yields s found t ↔
      (s.peek.lexeme = l ∧ found = true ∧ t = s.next) ∨
      (s.peek.lexeme ≠ l ∧ found = false ∧ t = s) := by
  change (.ok (if s.at? l then (true, s.next) else (false, s)) :
    Except ParseHalt (Bool × Cursor)) = .ok (found, t) ↔ _
  by_cases h : s.peek.lexeme = l
  · simp [Cursor.at?, h, eq_comm]
  · simp [Cursor.at?, h, eq_comm]

theorem yields_expect {symbol : Symbol} {wanted : String} {a : Unit} {s t : Cursor} :
    (expect symbol wanted).Yields s a t ↔ s.peek.lexeme = .symbol symbol ∧ t = s.next := by
  unfold expect
  rw [yields_bind]
  simp only [yields_peek]
  constructor
  · rintro ⟨_, _, ⟨rfl, rfl⟩, h⟩
    split at h
    · next hl =>
      obtain ⟨_, ht⟩ := yields_discard.mp h
      exact ⟨hl, (yields_take.mp ht).2.symm⟩
    · contradiction
  · rintro ⟨hl, rfl⟩
    refine ⟨_, _, ⟨rfl, rfl⟩, ?_⟩
    rw [if_pos hl]
    exact yields_discard.mpr ⟨_, yields_take.mpr ⟨rfl, rfl⟩⟩

theorem yields_identifier {name : Name} {span : Span} {s t : Cursor} :
    identifier.Yields s (name, span) t ↔
      s.peek.lexeme = .identifier name ∧ span = s.peek.span ∧ t = s.next := by
  unfold identifier
  rw [yields_bind]
  simp only [yields_peek]
  constructor
  · rintro ⟨_, _, ⟨rfl, rfl⟩, h⟩
    cases hl : s.peek.lexeme with
    | identifier found =>
      rw [hl] at h
      obtain ⟨_, _, htake, hpure⟩ := yields_bind.mp h
      obtain ⟨_, ht⟩ := yields_discard.mp htake
      obtain ⟨hname, rfl⟩ := yields_pure.mp hpure
      obtain ⟨rfl, rfl⟩ := Prod.mk.inj hname
      exact ⟨rfl, rfl, (yields_take.mp ht).2.symm⟩
    | symbol | number | string | endOfInput =>
      rw [hl] at h
      contradiction
  · rintro ⟨hl, rfl, rfl⟩
    refine ⟨_, _, ⟨rfl, rfl⟩, ?_⟩
    rw [hl]
    refine yields_bind.mpr ⟨⟨⟩, s.next, ?_, yields_pure.mpr ⟨rfl, rfl⟩⟩
    exact yields_discard.mpr ⟨_, yields_take.mpr ⟨rfl, rfl⟩⟩

theorem yields_get_bind {f : Cursor → Parser β} {s u : Cursor} {b : β} :
    (get >>= f).Yields s b u ↔ (f s).Yields s b u :=
  Iff.rfl

theorem yields_peek_bind {f : Token → Parser β} {s u : Cursor} {b : β} :
    (peek >>= f).Yields s b u ↔ (f s.peek).Yields s b u :=
  Iff.rfl

theorem yields_take_bind {f : Token → Parser β} {s u : Cursor} {b : β} :
    (take >>= f).Yields s b u ↔ (f s.peek).Yields s.next b u :=
  Iff.rfl

theorem yields_discard_take_bind {f : PUnit → Parser β} {s u : Cursor} {b : β} :
    (discard take >>= f).Yields s b u ↔ (f ⟨⟩).Yields s.next b u :=
  Iff.rfl

theorem yields_expect_bind {symbol : Symbol} {wanted : String} {f : Unit → Parser β} {s u : Cursor}
    {b : β} : (expect symbol wanted >>= f).Yields s b u ↔
      s.peek.lexeme = .symbol symbol ∧ (f ()).Yields s.next b u := by
  rw [yields_bind]
  constructor
  · rintro ⟨_, t, hexpect, h⟩
    obtain ⟨hl, rfl⟩ := yields_expect.mp hexpect
    exact ⟨hl, h⟩
  · rintro ⟨hl, h⟩
    exact ⟨(), s.next, yields_expect.mpr ⟨hl, rfl⟩, h⟩

theorem yields_identifier_bind {f : Name × Span → Parser β} {s u : Cursor} {b : β} :
    (identifier >>= f).Yields s b u ↔
      ∃ name, s.peek.lexeme = .identifier name ∧ (f (name, s.peek.span)).Yields s.next b u := by
  rw [yields_bind]
  constructor
  · rintro ⟨⟨name, span⟩, t, hname, h⟩
    obtain ⟨hl, rfl, rfl⟩ := yields_identifier.mp hname
    exact ⟨name, hl, h⟩
  · rintro ⟨name, hl, h⟩
    exact ⟨_, _, yields_identifier.mpr ⟨hl, rfl, rfl⟩, h⟩

theorem yields_return {p : Parser α} {g : α → β} {s u : Cursor} {b : β} :
    (do return g (← p)).Yields s b u ↔ ∃ a, p.Yields s a u ∧ g a = b := by
  rw [yields_bind]
  constructor
  · rintro ⟨a, t, hr, h⟩
    obtain ⟨rfl, rfl⟩ := yields_pure.mp h
    exact ⟨a, hr, rfl⟩
  · rintro ⟨a, hr, rfl⟩
    exact ⟨a, u, hr, yields_pure.mpr ⟨rfl, rfl⟩⟩

/-- Items are none, or those that commas separate, and then the closing symbol. -/
theorem yields_items {α : Type} {item : List α → Parser α} {closing : Symbol} {wanted : String}
    {s t : Cursor} {xs : List α} : (items item closing wanted).Yields s xs t ↔
      (s.peek.lexeme = .symbol closing ∧ xs = [] ∧ t = s.next) ∨
      (s.peek.lexeme ≠ .symbol closing ∧ ∃ u, separated item [] s = .ok (xs, u) ∧
        u.peek.lexeme = .symbol closing ∧ t = u.next) := by
  rw [items, yields_get_bind]
  dsimp only
  by_cases hat : s.peek.lexeme = .symbol closing
  · have hpos : s.at? (.symbol closing) = true := decide_eq_true hat
    rw [if_pos hpos, yields_bind]
    constructor
    · rintro ⟨_, u, hr, h⟩
      obtain ⟨rfl, rfl⟩ := yields_pure.mp hr
      obtain ⟨hl, hpure⟩ := yields_expect_bind.mp h
      obtain ⟨rfl, rfl⟩ := yields_pure.mp hpure
      exact .inl ⟨hl, rfl, rfl⟩
    · rintro (⟨hl, rfl, rfl⟩ | ⟨hl, -⟩)
      · exact ⟨[], s, yields_pure.mpr ⟨rfl, rfl⟩,
          yields_expect_bind.mpr ⟨hl, yields_pure.mpr ⟨rfl, rfl⟩⟩⟩
      · exact absurd hat hl
  · have hneg : ¬ s.at? (.symbol closing) = true := by simpa [Cursor.at?] using hat
    rw [if_neg hneg, yields_bind]
    constructor
    · rintro ⟨_, u, hr, h⟩
      obtain ⟨hl, hpure⟩ := yields_expect_bind.mp h
      obtain ⟨rfl, rfl⟩ := yields_pure.mp hpure
      exact .inr ⟨hat, u, hr, hl, rfl⟩
    · rintro (⟨hl, -⟩ | ⟨-, u, hr, hl, rfl⟩)
      · exact absurd hl hat
      · exact ⟨xs, u, hr, yields_expect_bind.mpr ⟨hl, yields_pure.mpr ⟨rfl, rfl⟩⟩⟩

theorem yields_parameter {seen : List Name} {name : Name} {s t : Cursor} :
    (parameter seen).Yields s name t ↔
      s.peek.lexeme = .identifier name ∧ name ∉ seen ∧ t = s.next := by
  rw [parameter, yields_identifier_bind]
  constructor
  · rintro ⟨found, hl, h⟩
    dsimp only at h
    split at h
    · contradiction
    · next hnot =>
      obtain ⟨rfl, rfl⟩ := yields_pure.mp h
      exact ⟨hl, by simpa using hnot, rfl⟩
  · rintro ⟨hl, hnot, rfl⟩
    refine ⟨name, hl, ?_⟩
    dsimp only
    rw [if_neg (by simpa using hnot)]
    exact yields_pure.mpr ⟨rfl, rfl⟩

theorem suffix?_eq_none_iff {inner : Parser Expr} {target : Expr} {t : Token} :
    suffix? inner target t = none ↔ t.lexeme.opensSuffix = false := by
  have hopens (l : Lexeme) :
      l.opensSuffix ↔ l = .symbol .leftParen ∨ l = .symbol .leftBracket := by
    cases l <;> simp [Lexeme.opensSuffix]
  unfold suffix?
  split
  · next hl => simp [hl, Lexeme.opensSuffix]
  · next hl => simp [hl, Lexeme.opensSuffix]
  · next hparen hbracket =>
    refine iff_of_true rfl (Bool.eq_false_iff.mpr fun h => ?_)
    exact ((hopens _).mp h).elim hparen hbracket

theorem chainRest_stop {build? : Token → Option (Expr → Expr → Expr)} (operand : Parser Expr)
    (left : Expr) {s : Cursor} (h : build? s.peek = none) :
    chainRest build? operand left s = .ok (left, s) := by
  rw [chainRest, h]

theorem chainRest_step {build? : Token → Option (Expr → Expr → Expr)} {operand : Parser Expr}
    {build : Expr → Expr → Expr} {right : Expr} {s t : Cursor} (left : Expr)
    (hbuild : build? s.peek = some build) (h : operand.Yields s.next right t)
    (hlt : t.rest.length < s.rest.length) :
    chainRest build? operand left s = chainRest build? operand (build left right) t := by
  have h : operand s.next = .ok (right, t) := h
  rw [chainRest.eq_def build? operand left s, hbuild]
  dsimp only
  rw [h]
  exact if_pos hlt

/-- An expression ends where the next token opens no call or index, or does so on another line. -/
theorem postfixRest_stop (inner : Parser Expr) (target : Expr) {s : Cursor}
    (h : ¬ (s.peek.lexeme.opensSuffix = true ∧ s.peek.span.line = s.line)) :
    postfixRest inner target s = .ok (target, s) := by
  rw [postfixRest]
  split
  · rfl
  · next hsame =>
    have hnone : suffix? inner target s.peek = none :=
      suffix?_eq_none_iff.mpr (Bool.eq_false_iff.mpr fun hs => h ⟨hs, Decidable.not_not.mp hsame⟩)
    rw [hnone]

theorem postfixRest_step {inner step : Parser Expr} {target e : Expr} {s t : Cursor}
    (hline : s.peek.span.line = s.line) (hstep : suffix? inner target s.peek = some step)
    (h : step.Yields s.next e t) (hlt : t.rest.length < s.rest.length) :
    postfixRest inner target s = postfixRest inner e t := by
  have h : step s.next = .ok (e, t) := h
  rw [postfixRest.eq_def inner target s, if_neg (not_not_intro hline), hstep]
  dsimp only
  rw [h]
  exact if_pos hlt

/-- Statements stand one behind the other up to what stops them, or to the end of the input. -/
inductive ManyYield (stop : Lexeme → Bool) (item : Parser Stmt) :
    Cursor → List Stmt → Cursor → Prop
  | stops {s : Cursor} (h : stop s.peek.lexeme = true ∨ s.peek.lexeme = .endOfInput) :
    ManyYield stop item s [] s
  | goes {s u t : Cursor} {x : Stmt} {xs : List Stmt} (hstop : stop s.peek.lexeme = false)
    (hend : s.peek.lexeme ≠ .endOfInput) (hx : item.Yields s x u)
    (hlt : u.rest.length < s.rest.length) (hxs : ManyYield stop item u xs t) :
    ManyYield stop item s (x :: xs) t

theorem many_eq_ok_iff {stop : Lexeme → Bool} {item : Parser Stmt} {s t : Cursor}
    {xs : List Stmt} : many stop item s = .ok (xs, t) ↔ ManyYield stop item s xs t := by
  constructor
  · intro h
    fun_induction many stop item s generalizing xs with
    | case1 s hstop =>
      obtain ⟨rfl, rfl⟩ := Prod.mk.inj (Except.ok.inj h)
      exact .stops (by simpa [Cursor.at?] using hstop)
    | case2 => contradiction
    | case3 s hgo x u hr hlt ih =>
      obtain ⟨hstop, hend⟩ : stop s.peek.lexeme = false ∧ s.peek.lexeme ≠ .endOfInput := by
        simpa [Cursor.at?] using hgo
      cases hm : many stop item u with
      | error halt =>
        rw [hm] at h
        contradiction
      | ok r =>
        rw [hm] at h
        obtain ⟨rfl, rfl⟩ := Prod.mk.inj (Except.ok.inj h)
        exact .goes hstop hend hr hlt (ih hm)
    | case4 => contradiction
  · intro h
    induction h with
    | stops h => rw [many, if_pos (by simpa [Cursor.at?] using h)]
    | goes hstop hend hx hlt _ ih =>
      have hx : item _ = .ok (_, _) := hx
      rw [many, if_neg (by simp [Cursor.at?, hstop, hend]), hx]
      simp only [if_pos hlt, ih]
      rfl

end Parser

theorem parse_eq_ok_iff {depth : Nat} {tokens : List Token} {program : List Stmt} :
    parse depth tokens = .ok program ↔
      ∃ t, Parser.ManyYield (fun _ => false) (Parser.statement depth) ⟨0, tokens⟩ program t := by
  simp only [← Parser.many_eq_ok_iff]
  unfold parse
  cases hr : Parser.many (fun _ => false) (Parser.statement depth) ⟨0, tokens⟩ with
  | error halt => simp
  | ok r =>
    obtain ⟨found, t⟩ := r
    simp

/-! ## Every run on one line -/

/-- The tokens ahead stand on one line and have the given lexemes. -/
structure Cursor.Shows (n : Nat) (ls : List Lexeme) (s : Cursor) : Prop where
  lexemes : s.rest.map (·.lexeme) = ls
  lines : ∀ t ∈ s.rest, t.span.line = n

namespace Cursor.Shows

variable {n : Nat} {s : Cursor} {l l' : Lexeme} {ls : List Lexeme}

theorem rest_eq (h : s.Shows n (l :: ls)) :
    ∃ t rest, s.rest = t :: rest ∧ t.lexeme = l ∧ t.span.line = n ∧
      rest.map (·.lexeme) = ls ∧ ∀ u ∈ rest, u.span.line = n := by
  obtain ⟨t, rest, hrest, hl, hls⟩ := List.map_eq_cons_iff.mp h.lexemes
  have hlines := h.lines
  rw [hrest, List.forall_mem_cons] at hlines
  exact ⟨t, rest, hrest, hl, hlines.1, hls, hlines.2⟩

theorem peek (h : s.Shows n (l :: ls)) : s.peek.lexeme = l ∧ s.peek.span.line = n := by
  obtain ⟨t, rest, hrest, hl, hline, -⟩ := h.rest_eq
  rw [Cursor.peek, hrest]
  exact ⟨hl, hline⟩

theorem second (h : s.Shows n (l :: l' :: ls)) : s.second.lexeme = l' := by
  obtain ⟨t, rest, hrest, -, -, hls, -⟩ := h.rest_eq
  obtain ⟨u, rest', rfl, hl', -⟩ := List.map_eq_cons_iff.mp hls
  rw [Cursor.second, hrest]
  exact hl'

theorem next (h : s.Shows n (l :: ls)) (hl : l ≠ .endOfInput) :
    s.next.Shows n ls ∧ s.next.line = n := by
  obtain ⟨t, rest, hrest, rfl, hline, hls, hlines⟩ := h.rest_eq
  have hnext : s.next = ⟨t.span.line, rest⟩ := by
    obtain ⟨lexeme, span⟩ := t
    rw [Cursor.next, hrest]
    cases lexeme with
    | endOfInput => exact absurd rfl hl
    | symbol | number | string | identifier => rfl
  rw [hnext]
  exact ⟨⟨hls, hlines⟩, hline⟩

theorem length (h : s.Shows n ls) : s.rest.length = ls.length := by
  rw [← h.lexemes, List.length_map]

end Cursor.Shows

namespace Parser

variable {n : Nat} {l : Lexeme} {ls ls' : List Lexeme} {F F' : Lexeme → Prop}
  {Q : α → Prop} {R : β → Prop}

/-- On every line of tokens that begins with the given lexemes and goes on with one that satisfies
`F`, the procedure reads exactly these lexemes, and its result satisfies `Q`. -/
def Rereads (n : Nat) (p : Parser α) (ls : List Lexeme) (F : Lexeme → Prop) (Q : α → Prop) : Prop :=
  ∀ s l follow, s.Shows n (ls ++ l :: follow) → F l →
    ∃ a t, p s = .ok (a, t) ∧ Q a ∧ t.Shows n (l :: follow) ∧ (s.line = n ∨ ls ≠ [] → t.line = n)

theorem Rereads.mono {p : Parser α} {Q' : α → Prop} (h : Rereads n p ls F Q)
    (hF : ∀ l, F' l → F l) (hQ : ∀ a, Q a → Q' a) : Rereads n p ls F' Q' := by
  intro s l follow hs hl
  obtain ⟨a, t, hr, ha, ht⟩ := h s l follow hs (hF l hl)
  exact ⟨a, t, hr, hQ a ha, ht⟩

/-- What reads on whatever follows does so on any restriction of it. -/
theorem Rereads.restrict {p : Parser α} (h : Rereads n p ls (fun _ => True) Q) :
    Rereads n p ls F Q :=
  h.mono (fun _ _ => trivial) fun _ ha => ha

/-- An expression is read up to the semicolon of its statement. -/
theorem Rereads.semicolon {p : Parser α} (h : Rereads n p ls (fun l => l.endsExpr) Q) :
    Rereads n p ls (fun l => l = .symbol .semicolon) Q := by
  refine h.mono (fun l hl => ?_) fun _ ha => ha
  rw [hl]
  rfl

theorem exists_headD (ls : List Lexeme) (l : Lexeme) (follow : List Lexeme) :
    ∃ follow', ls ++ l :: follow = ls.headD l :: follow' := by
  cases ls with
  | nil => exact ⟨follow, rfl⟩
  | cons first rest => exact ⟨rest ++ l :: follow, rfl⟩

/-- A run that stops in front of further lexemes. -/
theorem Rereads.run {p : Parser α} (h : Rereads n p ls F Q) {s : Cursor} {follow : List Lexeme}
    (hs : s.Shows n (ls ++ (ls' ++ l :: follow))) (hl : F (ls'.headD l)) :
    ∃ a t, p s = .ok (a, t) ∧ Q a ∧ t.Shows n (ls' ++ l :: follow) ∧
      (s.line = n ∨ ls ≠ [] → t.line = n) := by
  obtain ⟨follow', hfollow⟩ := exists_headD ls' l follow
  rw [hfollow] at hs ⊢
  exact h s _ follow' hs hl

/-! ### Rules -/

theorem rereads_pure {a : α} (h : Q a) : Rereads n (pure a) [] F Q := by
  intro s l follow hs _
  refine ⟨a, s, yields_pure.mpr ⟨rfl, rfl⟩, h, hs, fun hline => ?_⟩
  exact hline.resolve_right fun hne => hne rfl

/-- What is read first must be able to end where the rest begins. -/
theorem rereads_bind {p : Parser α} {f : α → Parser β} (hp : Rereads n p ls F' Q)
    (hf : ∀ a, Q a → Rereads n (f a) ls' F R) (hF : ∀ l, F l → F' (ls'.headD l)) :
    Rereads n (p >>= f) (ls ++ ls') F R := by
  intro s l follow hs hl
  rw [List.append_assoc] at hs
  obtain ⟨a, t, hr, ha, ht, hline⟩ := hp.run hs (hF l hl)
  obtain ⟨b, u, hr', hb, hu, hline'⟩ := hf a ha t l follow ht hl
  refine ⟨b, u, yields_bind.mpr ⟨a, t, hr, hr'⟩, hb, hu, fun h => hline' ?_⟩
  by_cases hnil : ls' = []
  · subst hnil
    rw [List.append_nil] at h
    exact .inl (hline h)
  · exact .inr hnil

/-- The same of a procedure that starts on the line that it reads. -/
def RereadsOn (n : Nat) (p : Parser α) (ls : List Lexeme) (F : Lexeme → Prop) (Q : α → Prop) :
    Prop :=
  ∀ s l follow, s.line = n → s.Shows n (ls ++ l :: follow) → F l →
    ∃ a t, p s = .ok (a, t) ∧ Q a ∧ t.Shows n (l :: follow) ∧ t.line = n

/-- Reading a lexeme of the line is a start on it. -/
theorem rereads_bind_on {p : Parser α} {f : α → Parser β} (hp : Rereads n p ls F' Q)
    (hne : ls ≠ []) (hf : ∀ a, Q a → RereadsOn n (f a) ls' F R)
    (hF : ∀ l, F l → F' (ls'.headD l)) : Rereads n (p >>= f) (ls ++ ls') F R := by
  intro s l follow hs hl
  rw [List.append_assoc] at hs
  obtain ⟨a, t, hr, ha, ht, hline⟩ := hp.run hs (hF l hl)
  obtain ⟨b, u, hr', hb, hu, hline'⟩ := hf a ha t l follow (hline (.inr hne)) ht hl
  exact ⟨b, u, yields_bind.mpr ⟨a, t, hr, hr'⟩, hb, hu, fun _ => hline'⟩

theorem rereads_cons {p : Parser α} {f : α → Parser β}
    (hp : Rereads n p [l] (fun _ => True) Q) (hf : ∀ a, Q a → Rereads n (f a) ls F R) :
    Rereads n (p >>= f) (l :: ls) F R :=
  rereads_bind hp hf fun _ _ => trivial

theorem rereads_skip {p : Parser α} {f : α → Parser β} (hp : Rereads n p [] F' Q)
    (hf : ∀ a, Q a → Rereads n (f a) ls F R) (hF : ∀ l, F l → F' (ls.headD l)) :
    Rereads n (p >>= f) ls F R :=
  rereads_bind hp hf hF

theorem rereads_return {p : Parser α} {g : α → β} (hp : Rereads n p ls F Q)
    (hg : ∀ a, Q a → R (g a)) : Rereads n (do return g (← p)) ls F R := by
  have h := rereads_bind hp (fun a ha => rereads_pure (hg a ha)) fun _ hl => hl
  rwa [List.append_nil] at h

theorem rereads_get {f : Cursor → Parser β}
    (hf : ∀ s l follow, s.Shows n (ls ++ l :: follow) → F l → Rereads n (f s) ls F R) :
    Rereads n (get >>= f) ls F R := by
  intro s l follow hs hl
  obtain ⟨b, t, hr, hb⟩ := hf s l follow hs hl s l follow hs hl
  exact ⟨b, t, yields_bind.mpr ⟨s, s, yields_get.mpr ⟨rfl, rfl⟩, hr⟩, hb⟩

theorem rereads_peek {f : Token → Parser β}
    (hf : ∀ t, t.lexeme = l → Rereads n (f t) (l :: ls) F R) :
    Rereads n (peek >>= f) (l :: ls) F R := by
  intro s l' follow hs hl'
  obtain ⟨b, t, hr, hb⟩ := hf s.peek hs.peek.1 s l' follow hs hl'
  exact ⟨b, t, yields_bind.mpr ⟨_, s, yields_peek.mpr ⟨rfl, rfl⟩, hr⟩, hb⟩

theorem rereads_peek_follow {f : Token → Parser β}
    (hf : ∀ t, F t.lexeme → Rereads n (f t) [] F R) : Rereads n (peek >>= f) [] F R := by
  intro s l follow hs hl
  obtain ⟨b, t, hr, hb⟩ := hf s.peek (hs.peek.1 ▸ hl) s l follow hs hl
  exact ⟨b, t, yields_bind.mpr ⟨_, s, yields_peek.mpr ⟨rfl, rfl⟩, hr⟩, hb⟩

theorem rereads_take (hl : l ≠ .endOfInput) : Rereads n take [l] F fun t => t.lexeme = l := by
  intro s l' follow hs _
  obtain ⟨hnext, hline⟩ := hs.next hl
  exact ⟨s.peek, s.next, yields_take.mpr ⟨rfl, rfl⟩, hs.peek.1, hnext, fun _ => hline⟩

theorem rereads_discard {p : Parser α} (h : Rereads n p ls F Q) :
    Rereads n (discard p) ls F fun _ => True := by
  intro s l follow hs hl
  obtain ⟨a, t, hr, _, ht⟩ := h s l follow hs hl
  exact ⟨⟨⟩, t, yields_discard.mpr ⟨a, hr⟩, trivial, ht⟩

/-- A procedure that looks at a lexeme first and then reads it. -/
theorem rereads_keyword {p f : Token → Parser β} (hl : l ≠ .endOfInput)
    (hp : ∀ t, t.lexeme = l → p t = (do discard take; f t))
    (hf : ∀ t : Token, Rereads n (f t) ls F R) : Rereads n (peek >>= p) (l :: ls) F R := by
  refine rereads_peek fun t ht => ?_
  rw [hp t ht]
  exact rereads_cons (rereads_discard (rereads_take hl)) fun _ _ => hf t

theorem rereads_accept (hl : l ≠ .endOfInput) : Rereads n (accept l) [l] F fun found => found := by
  intro s l' follow hs _
  obtain ⟨hnext, hline⟩ := hs.next hl
  exact ⟨true, s.next, yields_accept.mpr (.inl ⟨hs.peek.1, rfl, rfl⟩), rfl, hnext, fun _ => hline⟩

theorem rereads_accept_other :
    Rereads n (accept l) [] (· ≠ l) fun found => found = false := by
  intro s l' follow hs hl'
  refine ⟨false, s, yields_accept.mpr (.inr ⟨hs.peek.1 ▸ hl', rfl, rfl⟩), rfl, hs, fun hline => ?_⟩
  exact hline.resolve_right fun hne => hne rfl

theorem rereads_expect (symbol : Symbol) (wanted : String) :
    Rereads n (expect symbol wanted) [.symbol symbol] F fun _ => True := by
  intro s l follow hs _
  obtain ⟨hnext, hline⟩ := hs.next (by simp)
  exact ⟨(), s.next, yields_expect.mpr ⟨hs.peek.1, rfl⟩, trivial, hnext, fun _ => hline⟩

theorem rereads_identifier (name : Name) :
    Rereads n identifier [.identifier name] F fun r => r.1 = name := by
  intro s l follow hs _
  obtain ⟨hnext, hline⟩ := hs.next (by simp)
  exact ⟨(name, s.peek.span), s.next, yields_identifier.mpr ⟨hs.peek.1, rfl, rfl⟩, rfl, hnext,
    fun _ => hline⟩

/-! ## Procedures that read what they have spelled -/

/-- A procedure reads the lexemes of its result, and a second procedure, on any line with these
lexemes, comes to a result that looks the same. -/
def Restores (p p' : Parser α) (spell : α → List Lexeme) (view : α → β) (F : Lexeme → Prop) :
    Prop :=
  ∀ s a t, p.Yields s a t →
    s.Reads (spell a) t ∧ ∀ n, p'.Rereads n (spell a) F fun a' => view a' = view a

/-- The same of procedures that read the last part of the lexemes of their results, and of which the
second is told where its result begins. -/
def RestoresBehind (before : List Lexeme) (p : Parser α) (p' : Span → Parser α)
    (spell : α → List Lexeme) (view : α → β) (F : Lexeme → Prop) : Prop :=
  ∀ s a t, p.Yields s a t → ∃ ls, spell a = before ++ ls ∧
    s.Reads ls t ∧ ∀ n span, (p' span).Rereads n ls F fun a' => view a' = view a

theorem Restores.mono {p p' : Parser α} {spell : α → List Lexeme} {view : α → β}
    (h : Restores p p' spell view F) (hF : ∀ l, F' l → F l) : Restores p p' spell view F' := by
  intro s a t hr
  obtain ⟨hreads, hagain⟩ := h s a t hr
  exact ⟨hreads, fun n => (hagain n).mono hF fun _ ha => ha⟩

theorem not_yields_tooDeep {s t : Cursor} {a : α} : ¬ (tooDeep : Parser α).Yields s a t := nofun

theorem restores_tooDeep {p' : Parser α} {spell : α → List Lexeme} {view : α → β} :
    Restores tooDeep p' spell view F :=
  fun _ _ _ h => absurd h not_yields_tooDeep

theorem restoresBehind_tooDeep {before : List Lexeme} {p' : Span → Parser α} {spell : α → List Lexeme}
    {view : α → β} : RestoresBehind before tooDeep p' spell view F :=
  fun _ _ _ h => absurd h not_yields_tooDeep

end Parser

end HostScript
