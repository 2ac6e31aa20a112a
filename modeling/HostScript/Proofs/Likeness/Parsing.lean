import HostScript.Proofs.Likeness.Trees
import HostScript.Proofs.Syntax.Reading

/-!
# Parsing tokens that are alike

Two token lists are alike if the second one has the same lexemes as the first one up to its end, and
then ends or goes on with a semicolon. A procedure that reads the first list reads the second one in
the same way and comes to a tree that is alike (`FollowsAt`): it looks at lexemes and at whether
tokens stand on one line, and a semicolon ends what the end of the input ends.
-/

namespace HostScript

/-- How a token list goes on where another one ends, and how many lines it is further down. -/
structure Continuation where
  lines : Nat
  first : Token
  more : List Token
  opens : first.lexeme = .endOfInput ∨ first.lexeme = .symbol .semicolon

/-- What stands behind the statements that are alike: the end, or what follows a semicolon. -/
def Continuation.Behind (c : Continuation) (u : Cursor) : Prop :=
  c.first.lexeme = .endOfInput ∧ u.rest = c.first :: c.more ∨
    c.first.lexeme = .symbol .semicolon ∧ u.rest = c.more

/-- Token lists that are alike up to the end of the first one. No semicolon stands in front of
another one. -/
inductive TokensLike (b : Likeness) (c : Continuation) : List Token → List Token → Prop
  | ends {e : Token} (he : e.lexeme = .endOfInput) : TokensLike b c [e] (c.first :: c.more)
  | cons {t t' : Token} {rest rest' : List Token} (hl : t'.lexeme = t.lexeme)
    (hne : t.lexeme ≠ .endOfInput) (hspan : b.span t.span t'.span)
    (hline : t'.span.line = t.span.line + c.lines)
    (hlast : t.lexeme = .symbol .semicolon → rest.length = 1 → c.first.lexeme = .endOfInput)
    (hrest : TokensLike b c rest rest') : TokensLike b c (t :: rest) (t' :: rest')

/-- Tokens that are mapped to others with the same lexemes are like them. -/
theorem TokensLike.of_map {b : Likeness} {c : Continuation} {f : Token → Token}
    (hl : ∀ t, (f t).lexeme = t.lexeme) (hline : ∀ t, (f t).span.line = t.span.line + c.lines)
    {body : List Token} (hbody : ∀ t ∈ body, t.lexeme ≠ .endOfInput)
    (hspan : ∀ t ∈ body, b.span t.span (f t).span)
    (hlast : ∀ t ∈ body.getLast?, t.lexeme = .symbol .semicolon → c.first.lexeme = .endOfInput)
    {e : Token} (he : e.lexeme = .endOfInput) :
    TokensLike b c (body ++ [e]) (body.map f ++ c.first :: c.more) := by
  induction body with
  | nil => exact .ends he
  | cons t body ih =>
    rw [List.forall_mem_cons] at hbody hspan
    refine .cons (hl t) hbody.1 hspan.1 (hline t) (fun hsemicolon hlength => ?_)
      (ih hbody.2 hspan.2 fun u hu => hlast u ?_)
    · obtain rfl : body = [] := by simpa using hlength
      exact hlast t (by simp) hsemicolon
    · cases body with
      | nil => contradiction
      | cons first body => rwa [List.getLast?_cons_cons]

/-- Cursors on token lists that are alike. If they are tied, so are the lines behind them. -/
structure Cursor.Like (b : Likeness) (c : Continuation) (tied : Prop) (s s' : Cursor) : Prop where
  rest : TokensLike b c s.rest s'.rest
  line : tied → s'.line = s.line + c.lines

variable {b : Likeness} {c : Continuation} {tied : Prop}

theorem TokensLike.length {us us' : List Token} (h : TokensLike b c us us') :
    us'.length = us.length + c.more.length := by
  induction h with
  | ends => simp [Nat.add_comm]
  | cons _ _ _ _ _ _ ih => simp only [List.length_cons, ih]; omega

namespace Cursor.Like

variable {s s' : Cursor}

theorem untie (h : s.Like b c tied s') {other : Prop} (hother : other → tied) :
    s.Like b c other s' :=
  ⟨h.rest, fun ho => h.line (hother ho)⟩

theorem length_lt (h : s.Like b c tied s') {t t' : Cursor} {also : Prop} (ht : t.Like b c also t')
    (hlt : t.rest.length < s.rest.length) : t'.rest.length < s'.rest.length := by
  rw [h.rest.length, ht.rest.length]
  omega

/-- At the end of the first list, or tokens that are alike come next. -/
theorem cases (h : s.Like b c tied s') :
    s.peek.lexeme = .endOfInput ∧ s'.peek = c.first ∧ s'.rest = c.first :: c.more ∨
      s.peek.lexeme ≠ .endOfInput ∧ s'.peek.lexeme = s.peek.lexeme ∧
        b.span s.peek.span s'.peek.span ∧ s'.peek.span.line = s.peek.span.line + c.lines ∧
        s.next.Like b c True s'.next := by
  obtain ⟨line, rest⟩ := s
  obtain ⟨line', rest'⟩ := s'
  cases h.rest with
  | ends he => exact .inl ⟨he, rfl, rfl⟩
  | @cons t t' rest rest' hl hne hspan hline hlast hrest =>
    refine .inr ⟨hne, hl, hspan, hline, ?_⟩
    rw [next_cons hne, next_cons (hl ▸ hne)]
    exact ⟨hrest, fun _ => hline⟩

/-- A symbol other than the semicolon comes next in both or in none. -/
theorem peek_symbol (h : s.Like b c tied s') (symbol : Symbol) (hne : symbol ≠ .semicolon) :
    s'.peek.lexeme = .symbol symbol ↔ s.peek.lexeme = .symbol symbol := by
  rcases h.cases with ⟨he, hpeek, -⟩ | ⟨-, hl, -⟩
  · rw [he, hpeek]
    rcases c.opens with ho | ho <;> rw [ho]
    · exact ⟨fun heq => absurd (Lexeme.symbol.inj heq).symm hne, nofun⟩
  · rw [hl]

theorem at?_symbol (h : s.Like b c tied s') (symbol : Symbol) (hne : symbol ≠ .semicolon) :
    s'.at? (.symbol symbol) = s.at? (.symbol symbol) :=
  decide_eq_decide.mpr (h.peek_symbol symbol hne)

/-- Behind a lexeme that comes next in both, the cursors are tied. -/
theorem next (h : s.Like b c tied s') (hne : s.peek.lexeme ≠ .endOfInput) :
    s.next.Like b c True s'.next := by
  rcases h.cases with ⟨he, -⟩ | ⟨-, -, -, -, hnext⟩
  · exact absurd he hne
  · exact hnext

/-- The token after the next one is an identifier in both or in none. -/
theorem second (h : s.Like b c tied s') (hne : s.peek.lexeme ≠ .endOfInput) :
    (∃ name, s.second.lexeme = .identifier name ∧ s'.second.lexeme = .identifier name) ∨
      (∀ name, s.second.lexeme ≠ .identifier name) ∧
        ∀ name, s'.second.lexeme ≠ .identifier name := by
  obtain ⟨line, rest⟩ := s
  obtain ⟨line', rest'⟩ := s'
  cases h.rest with
  | ends he => exact absurd he hne
  | @cons t t' rest rest' _ _ _ _ _ hrest =>
    cases hrest with
    | @ends e he =>
      refine .inr ⟨fun name (heq : e.lexeme = _) => ?_, fun name (heq : c.first.lexeme = _) => ?_⟩
      · rw [he] at heq
        contradiction
      · rcases c.opens with ho | ho <;>
        · rw [ho] at heq
          contradiction
    | @cons u u' _ _ hl =>
      by_cases hname : ∃ name, u.lexeme = .identifier name
      · obtain ⟨name, hname⟩ := hname
        exact .inl ⟨name, hname, hl.trans hname⟩
      · refine .inr ⟨fun name heq => hname ⟨name, heq⟩, fun name heq => ?_⟩
        exact hname ⟨name, hl.symm.trans heq⟩

/-- No semicolon stands in front of another one. -/
theorem last (h : s.Like b c tied s') (hl : s.peek.lexeme = .symbol .semicolon)
    (hend : s.next.peek.lexeme = .endOfInput) : c.first.lexeme = .endOfInput := by
  obtain ⟨line, rest⟩ := s
  obtain ⟨line', rest'⟩ := s'
  cases h.rest with
  | ends he => exact nomatch he.symm.trans hl
  | @cons t t' rest rest' _ hne _ _ hlast hrest =>
    rw [next_cons hne] at hend
    cases hrest with
    | ends => exact hlast hl rfl
    | cons _ hne' => exact absurd hend hne'

theorem lexeme (h : s.Like b c tied s') (hne : s.peek.lexeme ≠ .endOfInput) :
    s'.peek.lexeme = s.peek.lexeme := by
  rcases h.cases with ⟨he, -⟩ | ⟨-, hl, -⟩
  · exact absurd he hne
  · exact hl

theorem span (h : s.Like b c tied s') (hne : s.peek.lexeme ≠ .endOfInput) :
    b.span s.peek.span s'.peek.span := by
  rcases h.cases with ⟨he, -⟩ | ⟨-, -, hspan, -⟩
  · exact absurd he hne
  · exact hspan

end Cursor.Like

namespace Parser

variable {α β : Type}

/-- What one procedure does at a cursor, another one does at another one. -/
def FollowsFrom (b : Likeness) (c : Continuation) (tied : Prop) (p p' : Parser α)
    (Q : α → α → Prop) (s s' : Cursor) : Prop :=
  ∀ a t, p.Yields s a t → ∃ a' t', p'.Yields s' a' t' ∧ t.Like b c tied t' ∧ Q a a'

/-- What one procedure does on tokens, another one does on tokens that are alike. -/
def Follows (b : Likeness) (c : Continuation) (p p' : Parser α) (Q : α → α → Prop) : Prop :=
  ∀ (tied : Prop) s s', s.Like b c tied s' → FollowsFrom b c tied p p' Q s s'

variable {Q : α → α → Prop} {R : β → β → Prop}

theorem follows_pure {a a' : α} (h : Q a a') : Follows b c (pure a) (pure a') Q := by
  intro tied s s' hs x t hr
  obtain ⟨rfl, rfl⟩ := yields_pure.mp hr
  exact ⟨a', s', yields_pure.mpr ⟨rfl, rfl⟩, hs, h⟩

theorem follows_bind {p p' : Parser α} {f f' : α → Parser β} (hp : Follows b c p p' Q)
    (hf : ∀ a a', Q a a' → Follows b c (f a) (f' a') R) :
    Follows b c (p >>= f) (p' >>= f') R := by
  intro tied s s' hs x t hr
  obtain ⟨a, u, ha, hx⟩ := yields_bind.mp hr
  obtain ⟨a', u', ha', hu, hQ⟩ := hp tied s s' hs a u ha
  obtain ⟨x', t', hx', ht, hR⟩ := hf a a' hQ tied u u' hu x t hx
  exact ⟨x', t', yields_bind.mpr ⟨a', u', ha', hx'⟩, ht, hR⟩

theorem follows_return {p p' : Parser α} {g g' : α → β} (hp : Follows b c p p' Q)
    (hg : ∀ a a', Q a a' → R (g a) (g' a')) :
    Follows b c (do return g (← p)) (do return g' (← p')) R :=
  follows_bind hp fun a a' h => follows_pure (hg a a' h)

theorem follows_tooDeep {p' : Parser α} : Follows b c tooDeep p' Q :=
  fun _ _ _ _ _ _ h => absurd h not_yields_tooDeep

theorem follows_fail {cause : ParseFault} {span : Span} {p' : Parser α} :
    Follows b c (fail cause span) p' Q :=
  fun _ _ _ _ _ _ h => nomatch h

theorem follows_peek : Follows b c peek peek fun _ _ => True := by
  intro tied s s' hs t u h
  obtain ⟨rfl, rfl⟩ := yields_peek.mp h
  exact ⟨s'.peek, s', yields_peek.mpr ⟨rfl, rfl⟩, hs, trivial⟩

theorem follows_accept (symbol : Symbol) (hne : symbol ≠ .semicolon) :
    Follows b c (accept (.symbol symbol)) (accept (.symbol symbol)) fun found found' =>
      found' = found := by
  intro tied s s' hs found t h
  rcases yields_accept.mp h with ⟨hl, rfl, rfl⟩ | ⟨hl, rfl, rfl⟩
  · refine ⟨true, s'.next, yields_accept.mpr (.inl ⟨?_, rfl, rfl⟩), ?_, rfl⟩
    · exact (hs.peek_symbol symbol hne).mpr hl
    · exact (hs.next (by simp [hl])).untie fun _ => trivial
  · refine ⟨false, s', yields_accept.mpr (.inr ⟨?_, rfl, rfl⟩), hs, rfl⟩
    rwa [Ne, hs.peek_symbol symbol hne]

theorem follows_expect (symbol : Symbol) (wanted : String) :
    Follows b c (expect symbol wanted) (expect symbol wanted) fun _ _ => True := by
  intro tied s s' hs _ t h
  obtain ⟨hl, rfl⟩ := yields_expect.mp h
  rcases hs.cases with ⟨he, -⟩ | ⟨-, hl', -, -, hnext⟩
  · exact nomatch he.symm.trans hl
  · exact ⟨(), s'.next, yields_expect.mpr ⟨hl'.trans hl, rfl⟩, hnext.untie fun _ => trivial, trivial⟩

theorem follows_identifier : Follows b c identifier identifier fun r r' => r'.1 = r.1 := by
  rintro tied s s' hs ⟨name, span⟩ t h
  obtain ⟨hl, rfl, rfl⟩ := yields_identifier.mp h
  rcases hs.cases with ⟨he, -⟩ | ⟨-, hl', -, -, hnext⟩
  · exact nomatch he.symm.trans hl
  · exact ⟨(name, _), s'.next, yields_identifier.mpr ⟨hl'.trans hl, rfl, rfl⟩,
      hnext.untie fun _ => trivial, rfl⟩

namespace FollowsFrom

variable {s s' : Cursor}

theorem peek {f f' : Token → Parser β} (h : FollowsFrom b c tied (f s.peek) (f' s'.peek) R s s') :
    FollowsFrom b c tied (Parser.peek >>= f) (Parser.peek >>= f') R s s' :=
  h

theorem get {f f' : Cursor → Parser β} (h : FollowsFrom b c tied (f s) (f' s') R s s') :
    FollowsFrom b c tied (MonadState.get >>= f) (MonadState.get >>= f') R s s' :=
  h

/-- A token that is not the end of the input is read. -/
theorem take {f f' : PUnit → Parser β} (hs : s.Like b c tied s')
    (hne : s.peek.lexeme ≠ .endOfInput) (h : Follows b c (f ⟨⟩) (f' ⟨⟩) R) :
    FollowsFrom b c tied (discard Parser.take >>= f) (discard Parser.take >>= f') R s s' :=
  h tied s.next s'.next ((hs.next hne).untie fun _ => trivial)

/-- A symbol that comes next is accepted. -/
theorem accept {f f' : Bool → Parser β} (hs : s.Like b c tied s') {symbol : Symbol}
    (hl : s.peek.lexeme = .symbol symbol) (hne : symbol ≠ .semicolon)
    (h : Follows b c (f true) (f' true) R) :
    FollowsFrom b c tied (Parser.accept (.symbol symbol) >>= f)
      (Parser.accept (.symbol symbol) >>= f') R s s' := by
  intro a t hboth
  obtain ⟨found, u, haccept, hr⟩ := yields_bind.mp hboth
  obtain ⟨-, rfl, rfl⟩ := (yields_accept.mp haccept).resolve_right fun hother => hother.1 hl
  have hnext : s.next.Like b c tied s'.next := (hs.next (by simp [hl])).untie fun _ => trivial
  obtain ⟨a', t', hr', ht, ha⟩ := h tied s.next s'.next hnext a t hr
  have hl' := (hs.peek_symbol symbol hne).mpr hl
  exact ⟨a', t', yields_bind.mpr ⟨true, _, yields_accept.mpr (.inl ⟨hl', rfl, rfl⟩), hr'⟩, ht, ha⟩

/-- A symbol that does not come next is not accepted. -/
theorem pass {f f' : Bool → Parser β} (hs : s.Like b c tied s') {symbol : Symbol}
    (hl : s.peek.lexeme ≠ .symbol symbol) (hne : symbol ≠ .semicolon)
    (h : Follows b c (f false) (f' false) R) :
    FollowsFrom b c tied (Parser.accept (.symbol symbol) >>= f)
      (Parser.accept (.symbol symbol) >>= f') R s s' := by
  intro a t hboth
  obtain ⟨found, u, haccept, hr⟩ := yields_bind.mp hboth
  obtain ⟨-, rfl, rfl⟩ := (yields_accept.mp haccept).resolve_left fun hsame => hl hsame.1
  obtain ⟨a', t', hr', ht, ha⟩ := h tied u s' hs a t hr
  have hl' := (hs.peek_symbol symbol hne).not.mpr hl
  exact ⟨a', t', yields_bind.mpr ⟨false, _, yields_accept.mpr (.inr ⟨hl', rfl, rfl⟩), hr'⟩, ht, ha⟩

/-- The next token is read, which is not the end of the input if the first procedure goes on. -/
theorem takeTied {f f' : Token → Parser β} (hs : s.Like b c tied s')
    (hend : s.peek.lexeme = .endOfInput → ∀ a t, ¬ (f s.peek).Yields s.next a t)
    (h : s.peek.lexeme ≠ .endOfInput → Follows b c (f s.peek) (f' s'.peek) R) :
    FollowsFrom b c True (Parser.take >>= f) (Parser.take >>= f') R s s' := by
  intro a t hr
  have hne : s.peek.lexeme ≠ .endOfInput := fun he => hend he a t hr
  exact h hne True s.next s'.next (hs.next hne) a t hr

end FollowsFrom

/-! ## Repetitions -/

/-- Tokens that are alike make nodes that are alike, and what ends the input makes none. -/
structure BuildsLike (b : Likeness) (build? : Token → Option (Expr → Expr → Expr)) : Prop where
  builds : ∀ {t t' : Token} {build}, t'.lexeme = t.lexeme → b.span t.span t'.span →
    build? t = some build → ∃ build', build? t' = some build' ∧
      ∀ {l l' r r' : Expr}, ExprLike b .outside l l' → ExprLike b .outside r r' →
        ExprLike b .outside (build l r) (build' l' r')
  builds_none : ∀ {t t' : Token}, t'.lexeme = t.lexeme → build? t = none → build? t' = none
  ends : ∀ {e : Token}, e.lexeme = .endOfInput ∨ e.lexeme = .symbol .semicolon → build? e = none

theorem follows_chainRest {build? : Token → Option (Expr → Expr → Expr)}
    {operand operand' : Parser Expr} (hb : BuildsLike b build?)
    (ho : Follows b c operand operand' (ExprLike b .outside)) {left left' : Expr}
    (hleft : ExprLike b .outside left left') :
    Follows b c (chainRest build? operand left) (chainRest build? operand' left')
      (ExprLike b .outside) := by
  intro tied s s' hs e t h
  unfold Yields at h ⊢
  fun_induction chainRest build? operand left s generalizing tied s' left' with
  | case1 left s hnone =>
    obtain ⟨rfl, rfl⟩ := Prod.mk.inj (Except.ok.inj h)
    have hnone' : build? s'.peek = none := by
      rcases hs.cases with ⟨-, hpeek, -⟩ | ⟨-, hl, -⟩
      · rw [hpeek]
        exact hb.ends c.opens
      · exact hb.builds_none hl hnone
    refine ⟨left', s', ?_, hs, hleft⟩
    rw [chainRest, hnone']
  | case2 => contradiction
  | case3 left s build hbuild right u hr hlt ih =>
    have hne : s.peek.lexeme ≠ .endOfInput := fun he => by
      rw [hb.ends (.inl he)] at hbuild
      contradiction
    rcases hs.cases with ⟨he, -⟩ | ⟨-, hl, hspan, -, hnext⟩
    · exact absurd he hne
    obtain ⟨build', hbuild', hlike⟩ := hb.builds hl hspan hbuild
    obtain ⟨right', u', hr', hu, hright⟩ := ho True s.next s'.next hnext right u hr
    obtain ⟨e', t', hr'', ht, he⟩ :=
      ih (hlike hleft hright) tied u' (hu.untie fun _ => trivial) h
    refine ⟨e', t', ?_, ht, he⟩
    have hr' : operand' s'.next = .ok (right', u') := hr'
    rw [chainRest, hbuild', hr', ← hr'']
    exact if_pos (hs.length_lt hu hlt)
  | case4 => contradiction

theorem follows_chain {build? : Token → Option (Expr → Expr → Expr)}
    {operand operand' : Parser Expr} (hb : BuildsLike b build?)
    (ho : Follows b c operand operand' (ExprLike b .outside)) :
    Follows b c (chain build? operand) (chain build? operand') (ExprLike b .outside) :=
  follows_bind ho fun _ _ hleft => follows_chainRest hb ho hleft

theorem follows_separated {item item' : List α → Parser α}
    (hi : ∀ {seen seen'}, List.Forall₂ Q seen seen' → Follows b c (item seen) (item' seen') Q)
    {seen seen' : List α} (hseen : List.Forall₂ Q seen seen') :
    Follows b c (separated item seen) (separated item' seen') (List.Forall₂ Q) := by
  intro tied s s' hs xs t h
  unfold Yields at h ⊢
  have hmore {seen seen' : List α} {x x' : α} (hseen : List.Forall₂ Q seen seen') (hx : Q x x') :
      List.Forall₂ Q (seen ++ [x]) (seen' ++ [x']) := List.rel_append hseen (.cons hx .nil)
  fun_induction separated item seen s generalizing tied s' seen' with
  | case1 => contradiction
  | case2 seen s x u hr hcomma hlt ih =>
    obtain ⟨x', u', hr', hu, hx⟩ := hi hseen tied s s' hs x u hr
    have hne : u.peek.lexeme ≠ .endOfInput := by
      rw [of_decide_eq_true hcomma]
      nofun
    have hnext : u.next.Like b c tied u'.next := (hu.next hne).untie fun _ => trivial
    obtain ⟨xs', t', hr'', ht, hxs⟩ := ih (hmore hseen hx) tied u'.next hnext h
    refine ⟨xs', t', ?_, ht, hxs⟩
    have hr' : item' seen' s' = .ok (x', u') := hr'
    rw [separated, hr', ← hr'']
    simp only [hu.at?_symbol .comma nofun, hcomma, if_true,
      if_pos (hs.length_lt hnext hlt)]
  | case3 => contradiction
  | case4 seen s x u hr hcomma =>
    obtain ⟨rfl, rfl⟩ := Prod.mk.inj (Except.ok.inj h)
    obtain ⟨x', u', hr', hu, hx⟩ := hi hseen tied s s' hs x u hr
    refine ⟨seen' ++ [x'], u', ?_, hu, hmore hseen hx⟩
    have hr' : item' seen' s' = .ok (x', u') := hr'
    rw [separated, hr']
    simp only [hu.at?_symbol .comma nofun, if_neg hcomma]

theorem follows_items {item item' : List α → Parser α}
    (hi : ∀ {seen seen'}, List.Forall₂ Q seen seen' → Follows b c (item seen) (item' seen') Q)
    {closing : Symbol} (hclosing : closing ≠ .semicolon) (wanted : String) :
    Follows b c (items item closing wanted) (items item' closing wanted) (List.Forall₂ Q) := by
  intro tied s s' hs xs t h
  have hnext {u u' : Cursor} (hu : u.Like b c tied u') (hl : u.peek.lexeme = .symbol closing) :
      u.next.Like b c tied u'.next := (hu.next (by simp [hl])).untie fun _ => trivial
  rcases yields_items.mp h with ⟨hclose, rfl, rfl⟩ | ⟨hnot, u, hr, hclose, rfl⟩
  · have hclose' := (hs.peek_symbol closing hclosing).mpr hclose
    exact ⟨[], s'.next, yields_items.mpr (.inl ⟨hclose', rfl, rfl⟩), hnext hs hclose, .nil⟩
  · obtain ⟨xs', u', hr', hu, hxs⟩ := follows_separated hi .nil tied s s' hs xs u hr
    have hnot' := (hs.peek_symbol closing hclosing).not.mpr hnot
    have hclose' := (hu.peek_symbol closing hclosing).mpr hclose
    exact ⟨xs', u'.next, yields_items.mpr (.inr ⟨hnot', u', hr', hclose', rfl⟩),
      hnext hu hclose, hxs⟩

theorem follows_parameter {seen seen' : List Name} (hseen : List.Forall₂ Eq seen seen') :
    Follows b c (parameter seen) (parameter seen') Eq := by
  obtain rfl := List.forall₂_eq_eq_eq ▸ hseen
  refine follows_bind follows_identifier fun (name, span) (name', span') hname => ?_
  obtain rfl : name' = name := hname
  dsimp only
  split
  · exact follows_fail
  · exact follows_pure rfl

theorem follows_parameters : Follows b c parameters parameters Eq := by
  refine follows_bind (follows_expect _ _) fun _ _ _ => ?_
  have hitems : Follows b c (items parameter .rightParen ")") (items parameter .rightParen ")")
      (List.Forall₂ Eq) := follows_items follows_parameter (by decide) _
  rwa [List.forall₂_eq_eq_eq] at hitems

theorem follows_exprs {inner inner' : Parser Expr}
    (hi : Follows b c inner inner' (ExprLike b .outside)) {closing : Symbol}
    (hclosing : closing ≠ .semicolon) (wanted : String) :
    Follows b c (items (fun _ => inner) closing wanted) (items (fun _ => inner') closing wanted)
      (ExprsLike b .outside) := by
  intro tied s s' hs es t h
  obtain ⟨es', t', hr, ht, hes⟩ := follows_items (fun _ => hi) hclosing wanted tied s s' hs es t h
  exact ⟨es', t', hr, ht, .of_forall₂ hes⟩

/-! ## Operators -/

theorem buildsLike_binaryOf (ops : List (Symbol × BinaryOp))
    (hops : ops.lookup .semicolon = none) : BuildsLike b (binaryOf ops) where
  builds {t t' build} hl hspan hbuild := by
    unfold binaryOf at hbuild ⊢
    rw [hl]
    split at hbuild
    · obtain ⟨op, hop, rfl⟩ := Option.map_eq_some_iff.mp hbuild
      simp only [hop, Option.map_some]
      exact ⟨_, rfl, fun hleft hright => .binary hleft op hright hspan⟩
    · contradiction
  builds_none hl hnone := by
    unfold binaryOf at hnone ⊢
    rw [hl]
    split
    · next heq =>
      simp only [heq] at hnone
      simpa using hnone
    · rfl
  ends he := by
    unfold binaryOf
    rcases he with he | he
    · simp only [he]
    · simp only [he, hops, Option.map_none]

theorem buildsLike_logicalOf {symbol : Symbol} (hsymbol : symbol ≠ .semicolon) (op : LogicalOp) :
    BuildsLike b (logicalOf symbol op) where
  builds {t t' build} hl hspan hbuild := by
    unfold logicalOf at hbuild ⊢
    rw [hl]
    split at hbuild
    · next heq =>
      obtain rfl := Option.some.inj hbuild
      exact ⟨_, if_pos heq, fun hleft hright => .logical hleft op hright hspan⟩
    · contradiction
  builds_none hl hnone := by
    unfold logicalOf at hnone ⊢
    rw [hl]
    simpa using hnone
  ends he := by
    unfold logicalOf
    rcases he with he | he
    · simp [he]
    · simp [he, hsymbol.symm]

theorem follows_levels {operand operand' : Parser Expr}
    (ho : Follows b c operand operand' (ExprLike b .outside)) :
    Follows b c (levels operand) (levels operand') (ExprLike b .outside) := by
  have hbinary {ops : List (Symbol × BinaryOp)} (hops : ops.lookup .semicolon = none)
      {inner inner' : Parser Expr} (hi : Follows b c inner inner' (ExprLike b .outside)) :
      Follows b c (chain (binaryOf ops) inner) (chain (binaryOf ops) inner')
        (ExprLike b .outside) := follows_chain (buildsLike_binaryOf ops hops) hi
  have hlogical {symbol : Symbol} (hsymbol : symbol ≠ .semicolon) {op : LogicalOp}
      {inner inner' : Parser Expr} (hi : Follows b c inner inner' (ExprLike b .outside)) :
      Follows b c (chain (logicalOf symbol op) inner) (chain (logicalOf symbol op) inner')
        (ExprLike b .outside) := follows_chain (buildsLike_logicalOf hsymbol op) hi
  exact hlogical (by decide) <| hlogical (by decide) <| hbinary (by rfl) <| hbinary (by rfl) <|
    hbinary (by rfl) <| hbinary (by rfl) ho

/-! ## Calls, indexes and assignments -/

theorem follows_suffix {inner inner' : Parser Expr}
    (hi : Follows b c inner inner' (ExprLike b .outside)) {target target' : Expr}
    (htarget : ExprLike b .outside target target') {t t' : Token} (hl : t'.lexeme = t.lexeme)
    (hspan : b.span t.span t'.span) {step : Parser Expr}
    (hstep : suffix? inner target t = some step) :
    ∃ step', suffix? inner' target' t' = some step' ∧
      Follows b c step step' (ExprLike b .outside) := by
  unfold suffix? at hstep ⊢
  rw [hl]
  split at hstep
  · obtain rfl := Option.some.inj hstep
    exact ⟨_, rfl, follows_return (follows_exprs hi (by decide) _) fun es es' hes =>
      .call htarget hes hspan⟩
  · obtain rfl := Option.some.inj hstep
    refine ⟨_, rfl, follows_bind hi fun index index' hindex => ?_⟩
    exact follows_bind (follows_expect _ _) fun _ _ _ =>
      follows_pure (.index htarget hindex hspan)
  · contradiction

theorem suffix?_ends {inner : Parser Expr} {target : Expr} {t : Token}
    (h : t.lexeme = .endOfInput ∨ t.lexeme = .symbol .semicolon) :
    suffix? inner target t = none := by
  rw [suffix?_eq_none_iff]
  rcases h with h | h
  · rw [h]
    rfl
  · rw [h]
    rfl

/-- The lines of tokens decide alike whether an expression goes on. -/
theorem follows_postfixRest {inner inner' : Parser Expr}
    (hi : Follows b c inner inner' (ExprLike b .outside)) {target target' : Expr}
    (htarget : ExprLike b .outside target target') {s s' t : Cursor} {e : Expr}
    (hs : s.Like b c True s') (h : postfixRest inner target s = .ok (e, t)) :
    ∃ e' t', postfixRest inner' target' s' = .ok (e', t') ∧ t.Like b c True t' ∧
      ExprLike b .outside e e' := by
  fun_induction postfixRest inner target s generalizing s' target' with
  | case1 target s hline =>
    obtain ⟨rfl, rfl⟩ := Prod.mk.inj (Except.ok.inj h)
    refine ⟨target', s', ?_, hs, htarget⟩
    rw [postfixRest]
    rcases hs.cases with ⟨-, hpeek, -⟩ | ⟨-, -, -, hline', -⟩
    · simp only [hpeek, suffix?_ends c.opens, ite_self]
    · rw [if_pos]
      rw [hline', hs.line trivial]
      exact fun heq => hline (Nat.add_right_cancel heq)
  | case2 target s hline hnone =>
    obtain ⟨rfl, rfl⟩ := Prod.mk.inj (Except.ok.inj h)
    refine ⟨target', s', ?_, hs, htarget⟩
    rw [postfixRest]
    have hnone' : suffix? inner' target' s'.peek = none := by
      rcases hs.cases with ⟨-, hpeek, -⟩ | ⟨-, hl, -⟩
      · rw [hpeek, suffix?_ends c.opens]
      · rw [suffix?_eq_none_iff, hl, suffix?_eq_none_iff.mp hnone]
    simp only [hnone', ite_self]
  | case3 => contradiction
  | case4 target s hline step hstep x u hr hlt ih =>
    rcases hs.cases with ⟨he, -⟩ | ⟨-, hl, hspan, hline', hnext⟩
    · rw [suffix?_ends (.inl he)] at hstep
      contradiction
    obtain ⟨step', hstep', hfollows⟩ := follows_suffix hi htarget hl hspan hstep
    obtain ⟨x', u', hr', hu, hx⟩ := hfollows True s.next s'.next hnext x u hr
    obtain ⟨e', t', hr'', ht, he⟩ := ih hx hu h
    refine ⟨e', t', ?_, ht, he⟩
    have hr' : step' s'.next = .ok (x', u') := hr'
    have hline'' : ¬ s'.peek.span.line ≠ s'.line := by
      rw [hline', hs.line trivial, Classical.not_not.mp hline]
      exact fun hne => hne rfl
    rw [postfixRest, if_neg hline'']
    simp only [hstep', hr', if_pos (hs.length_lt hu hlt)]
    exact hr''
  | case5 => contradiction

theorem follows_assign? {target target' value value' : Expr}
    (htarget : ExprLike b .outside target target') (hvalue : ExprLike b .outside value value')
    {σ σ' : Span} (hspan : b.span σ σ') {x : Stmt} (hx : assign? target value σ = some x) :
    ∃ x', assign? target' value' σ' = some x' ∧ StmtLike b .outside x x' := by
  unfold assign? at hx
  split at hx
  · obtain rfl := Option.some.inj hx
    cases htarget with
    | «variable» hn _ => exact ⟨_, rfl, .assign hn hvalue hspan⟩
  · obtain rfl := Option.some.inj hx
    cases htarget with
    | index ht hi _ => exact ⟨_, rfl, .assignIndex ht hi hvalue hspan⟩
  · contradiction

theorem follows_expressionOrAssignment {inner inner' : Parser Expr}
    (hi : Follows b c inner inner' (ExprLike b .outside)) {σ σ' : Span} (hspan : b.span σ σ') :
    Follows b c (expressionOrAssignment inner σ) (expressionOrAssignment inner' σ')
      (StmtLike b .outside) := by
  refine follows_bind hi fun target target' htarget => ?_
  refine follows_bind follows_peek fun equals equals' _ => ?_
  refine follows_bind (follows_accept .equals nofun) fun found found' hfound => ?_
  obtain rfl := hfound
  split
  · refine follows_bind hi fun value value' hvalue => ?_
    split
    · next x hx =>
      obtain ⟨x', hx', hlike⟩ := follows_assign? htarget hvalue hspan hx
      rw [hx']
      exact follows_pure hlike
    · exact follows_fail
  · exact follows_pure (.expression htarget hspan)

theorem follows_binding {inner inner' : Parser Expr}
    (hi : Follows b c inner inner' (ExprLike b .outside)) :
    Follows b c (binding inner) (binding inner') fun r r' =>
      r'.1 = r.1 ∧ ExprLike b .outside r.2 r'.2 := by
  refine follows_bind follows_identifier fun (name, _) (name', _) hname => ?_
  refine follows_bind (follows_expect _ _) fun _ _ _ => ?_
  exact follows_return hi fun e e' he => ⟨hname, he⟩

/-- Alternatives that are alike. -/
inductive AlternativeLike (b : Likeness) : Option (List Stmt) → Option (List Stmt) → Prop
  | none : AlternativeLike b none none
  | some {body body' : List Stmt} (h : BlockLike b .outside body body') :
    AlternativeLike b (some body) (some body')

theorem follows_alternative {branch branch' : Span → Parser Stmt} {body body' : Parser (List Stmt)}
    (hbranch : ∀ {σ σ' : Span}, b.span σ σ' →
      Follows b c (branch σ) (branch' σ') (StmtLike b .outside))
    (hbody : Follows b c body body' (BlockLike b .outside)) :
    Follows b c (alternative branch body) (alternative branch' body') (AlternativeLike b) := by
  refine follows_bind (follows_accept .else nofun) fun found found' hfound => ?_
  obtain rfl := hfound
  split
  · intro tied s s' hs
    refine .peek ?_
    by_cases hl : s.peek.lexeme = .symbol .if
    · have hbranch' := hbranch (hs.span (by simp [hl]))
      exact .accept hs hl nofun <| follows_return hbranch' fun _ _ hx => .some (.cons hx .nil)
    · exact .pass hs hl nofun <| follows_return hbody fun _ _ hbody => .some hbody
  · exact follows_pure .none

/-! ## One depth -/

/-- What a procedure does on tokens, from cursors that need not be tied to cursors that are. -/
def FollowsTied (b : Likeness) (c : Continuation) (p p' : Parser α) (Q : α → α → Prop) : Prop :=
  ∀ (tied : Prop) s s', s.Like b c tied s' → FollowsFrom b c True p p' Q s s'

/-- The end of the first list, and behind the semicolon that stands in its place in the other. -/
structure Past (c : Continuation) (t t' : Cursor) : Prop where
  ended : t.peek.lexeme = .endOfInput
  opens : c.first.lexeme = .symbol .semicolon
  rest : t'.rest = c.more

/-- What a statement does, with the semicolon behind it. It goes past the semicolon that stands in
the place of the end of the input. Before that, it does not come to the end. -/
def FollowsStatement (b : Likeness) (c : Continuation) (p p' : Parser Stmt) : Prop :=
  ∀ (tied : Prop) s s', s.Like b c tied s' → s.peek.lexeme ≠ .endOfInput → ∀ x t, p.Yields s x t →
    ∃ x' t', p'.Yields s' x' t' ∧ StmtLike b .outside x x' ∧ (Past c t t' ∨
      t.Like b c tied t' ∧ (t.peek.lexeme = .endOfInput → c.first.lexeme = .endOfInput))

/-- At a nesting depth, everything is parsed alike. -/
structure FollowsAt (b : Likeness) (c : Continuation) (depth : Nat) : Prop where
  expression : Follows b c (expression depth) (expression depth) (ExprLike b .outside)
  unary : Follows b c (unary depth) (unary depth) (ExprLike b .outside)
  primary : FollowsTied b c (primary depth) (primary depth) (ExprLike b .outside)
  block : Follows b c (block depth) (block depth) (BlockLike b .outside)
  functionRest : ∀ exported {σ σ' : Span}, b.span σ σ' → Follows b c
    (functionRest depth exported σ) (functionRest depth exported σ') (StmtLike b .outside)
  branchRest : ∀ {σ σ' : Span}, b.span σ σ' →
    Follows b c (branchRest depth σ) (branchRest depth σ') (StmtLike b .outside)
  bareStatement : ∀ (tied : Prop) s s', s.Like b c tied s' → s.peek.lexeme ≠ .endOfInput →
    FollowsFrom b c tied (bareStatement depth) (bareStatement depth) (StmtLike b .outside) s s'
  statement : FollowsStatement b c (statement depth) (statement depth)

namespace FollowsAt

variable {depth : Nat}

theorem zero : FollowsAt b c 0 where
  expression := follows_tooDeep
  unary := follows_tooDeep
  primary _ _ _ _ _ _ h := absurd h not_yields_tooDeep
  block := follows_tooDeep
  functionRest _ _ _ _ := follows_tooDeep
  branchRest _ := follows_tooDeep
  bareStatement _ _ _ _ _ _ _ h := absurd h not_yields_tooDeep
  statement _ _ _ _ _ _ _ h := absurd h not_yields_tooDeep

theorem unary_succ (ih : FollowsAt b c depth) :
    Follows b c (Parser.unary (depth + 1)) (Parser.unary (depth + 1)) (ExprLike b .outside) := by
  intro tied s s' hs
  refine .peek ?_
  have hpeek : unaryOf? s'.peek.lexeme = unaryOf? s.peek.lexeme := by
    rcases hs.cases with ⟨he, hpeek, -⟩ | ⟨-, hl, -⟩
    · rw [he, hpeek]
      rcases c.opens with ho | ho
      · rw [ho]
      · rw [ho]
        rfl
    · rw [hl]
  rw [hpeek]
  split
  · next op hop =>
    have hne : s.peek.lexeme ≠ .endOfInput := fun he => by
      rw [he] at hop
      contradiction
    exact .take hs hne <| follows_return ih.unary fun e e' he => .unary op he (hs.span hne)
  · intro e t h
    obtain ⟨head, u, hr, h⟩ := yields_bind.mp h
    obtain ⟨head', u', hr', hu, hhead⟩ := ih.primary tied s s' hs head u hr
    obtain ⟨e', t', hr'', ht, he⟩ := follows_postfixRest ih.expression hhead hu h
    exact ⟨e', t', yields_bind.mpr ⟨head', u', hr', hr''⟩, ht.untie fun _ => trivial, he⟩

theorem primary_succ (ih : FollowsAt b c depth) :
    FollowsTied b c (Parser.primary (depth + 1)) (Parser.primary (depth + 1))
      (ExprLike b .outside) := by
  intro tied s s' hs
  refine .takeTied hs (fun he a t h => ?_) fun hne => ?_
  · simp only [he] at h
    exact nomatch h
  have hspan := hs.span hne
  rw [hs.lexeme hne]
  split
  · exact follows_pure (.literal _ hspan)
  · exact follows_pure (.literal _ hspan)
  · exact follows_pure (.literal _ hspan)
  · exact follows_pure (.literal _ hspan)
  · exact follows_pure (.literal _ hspan)
  · exact follows_pure (.variable Likeness.admits_outside hspan)
  · refine follows_bind ih.expression fun inner inner' hinner => ?_
    exact follows_bind (follows_expect _ _) fun _ _ _ => follows_pure (.grouping hinner hspan)
  · exact follows_return (follows_exprs ih.expression (by decide) _) fun _ _ hes => .array hes hspan
  · refine follows_bind follows_parameters fun names names' hnames => ?_
    obtain rfl := hnames
    refine follows_return ih.block fun body body' hbody => ?_
    have hlike := ExprLike.function (.same .outside names)
      (fun _ _ => Likeness.admits_outside) hbody hspan
    rwa [Likeness.map_name_outside] at hlike
  · exact follows_fail

theorem functionRest_succ (ih : FollowsAt b c depth) (exported : Bool) {σ σ' : Span}
    (hspan : b.span σ σ') : Follows b c (Parser.functionRest (depth + 1) exported σ)
      (Parser.functionRest (depth + 1) exported σ') (StmtLike b .outside) := by
  refine follows_bind follows_identifier fun (name, _) (name', _) hname => ?_
  obtain rfl : name' = name := hname
  refine follows_bind follows_parameters fun names names' hnames => ?_
  obtain rfl := hnames
  refine follows_return ih.block fun body body' hbody => ?_
  have hlike := StmtLike.function (n := name') Likeness.keeps_outside (.same .outside names)
    (fun _ _ => Likeness.admits_outside) hbody exported hspan
  rwa [Likeness.map_name_outside] at hlike

theorem branchRest_succ (ih : FollowsAt b c depth) {σ σ' : Span} (hspan : b.span σ σ') :
    Follows b c (Parser.branchRest (depth + 1) σ) (Parser.branchRest (depth + 1) σ')
      (StmtLike b .outside) := by
  refine follows_bind ih.expression fun condition condition' hcondition => ?_
  refine follows_bind ih.block fun body body' hbody => ?_
  refine follows_return (follows_alternative ih.branchRest ih.block) fun other other' hother => ?_
  cases hother with
  | none => exact .branch hcondition hbody hspan
  | some hother => exact .branchElse hcondition hbody hother hspan

theorem follows_returned (ih : FollowsAt b c depth) {σ σ' : Span} (hspan : b.span σ σ') :
    Follows b c
      (do match (← peek).lexeme with
        | .symbol .semicolon => return .give none σ
        | .symbol .rightBrace => return .give none σ
        | .endOfInput => return .give none σ
        | _ => return .give (some (← Parser.expression depth)) σ : Parser Stmt)
      (do match (← peek).lexeme with
        | .symbol .semicolon => return .give none σ'
        | .symbol .rightBrace => return .give none σ'
        | .endOfInput => return .give none σ'
        | _ => return .give (some (← Parser.expression depth)) σ' : Parser Stmt)
      (StmtLike b .outside) := by
  intro tied s s' hs
  refine .peek ?_
  have hnull : Follows b c (pure (.give none σ)) (pure (.give none σ')) (StmtLike b .outside) :=
    follows_pure (.giveNull hspan)
  rcases hs.cases with ⟨he, hpeek, -⟩ | ⟨-, hl, -⟩
  · rw [he, hpeek]
    rcases c.opens with ho | ho <;> rw [ho]
    · exact hnull tied s s' hs
    · exact hnull tied s s' hs
  · rw [hl]
    split
    · exact hnull tied s s' hs
    · exact hnull tied s s' hs
    · exact hnull tied s s' hs
    · exact follows_return ih.expression (fun e e' he => .give he hspan) tied s s' hs

theorem bareStatement_succ (ih : FollowsAt b c depth) {s s' : Cursor} (hs : s.Like b c tied s')
    (hne : s.peek.lexeme ≠ .endOfInput) :
    FollowsFrom b c tied (Parser.bareStatement (depth + 1)) (Parser.bareStatement (depth + 1))
      (StmtLike b .outside) s s' := by
  refine .peek ?_
  have hspan := hs.span hne
  rw [hs.lexeme hne]
  split
  · refine .take hs hne <| follows_bind (follows_accept .fn nofun) fun found found' hfound => ?_
    obtain rfl := hfound
    split
    · exact ih.functionRest true hspan
    · refine follows_return (follows_binding ih.expression) fun (name, e) (name', e') he => ?_
      obtain ⟨rfl, he⟩ := he
      exact .publish Likeness.keeps_outside he hspan
  · refine .take hs hne <| follows_return (follows_binding ih.expression)
      fun (name, e) (name', e') he => ?_
    obtain ⟨rfl, he⟩ := he
    exact .declare Likeness.admits_outside he hspan
  · exact .take hs hne (ih.branchRest hspan)
  · exact .take hs hne <| follows_return ih.block fun _ _ hbody => .loop hbody hspan
  · exact .take hs hne <| follows_pure (.leave hspan)
  · exact .take hs hne (ih.follows_returned hspan)
  · refine .get ?_
    dsimp only
    rcases hs.second hne with ⟨name, hsecond, hsecond'⟩ | ⟨hsecond, hsecond'⟩
    · rw [hsecond, hsecond']
      split
      · exact .take hs hne (ih.functionRest false hspan)
      · exact follows_expressionOrAssignment ih.expression hspan tied s s' hs
    · split
      · next heq => exact absurd heq (hsecond _)
      · split
        · next heq => exact absurd heq (hsecond' _)
        · exact follows_expressionOrAssignment ih.expression hspan tied s s' hs

/-- A statement reads the semicolon behind it, or one that stands in the place of the end. -/
theorem statement_succ (ih : FollowsAt b c depth) :
    FollowsStatement b c (Parser.statement (depth + 1)) (Parser.statement (depth + 1)) := by
  intro tied s s' hs hne x t h
  obtain ⟨y, u, hr, h⟩ := yields_bind.mp h
  obtain ⟨y', u', hr', hu, hlike⟩ := ih.bareStatement tied s s' hs hne y u hr
  obtain ⟨_, v, haccept, h⟩ := yields_bind.mp h
  obtain ⟨found, haccept⟩ := yields_discard.mp haccept
  obtain ⟨rfl, rfl⟩ := yields_pure.mp h
  -- what the second procedure does is known once it is known whether it sees a semicolon
  have haccepted {found' : Bool} {v' : Cursor}
      (h : (accept (.symbol .semicolon)).Yields u' found' v') :
      (Parser.statement (depth + 1)).Yields s' y' v' :=
    yields_bind.mpr ⟨y', u', hr', yields_bind.mpr
      ⟨⟨⟩, v', yields_discard.mpr ⟨_, h⟩, yields_pure.mpr ⟨rfl, rfl⟩⟩⟩
  rcases hu.cases with ⟨he, hpeek, hrest⟩ | ⟨hne', hl, -, -, hnext⟩
  · obtain ⟨-, rfl, rfl⟩ := (yields_accept.mp haccept).resolve_left fun hsame =>
      nomatch he.symm.trans hsame.1
    rcases c.opens with ho | ho
    · have hnot : u'.peek.lexeme ≠ .symbol .semicolon := by simp [hpeek, ho]
      exact ⟨y', u', haccepted (yields_accept.mpr (.inr ⟨hnot, rfl, rfl⟩)), hlike,
        .inr ⟨hu, fun _ => ho⟩⟩
    · have hsemicolon : u'.peek.lexeme = .symbol .semicolon := by rw [hpeek, ho]
      have hmore : u'.next.rest = c.more := by
        have hnext := Cursor.rest_of_peek (s := u') (by simp [hsemicolon])
        exact (List.cons.inj (hnext.symm.trans hrest)).2
      exact ⟨y', u'.next, haccepted (yields_accept.mpr (.inl ⟨hsemicolon, rfl, rfl⟩)), hlike,
        .inl ⟨he, ho, hmore⟩⟩
  · rcases yields_accept.mp haccept with ⟨hsemicolon, -, rfl⟩ | ⟨hnot, -, rfl⟩
    · exact ⟨y', u'.next, haccepted (yields_accept.mpr (.inl ⟨hl.trans hsemicolon, rfl, rfl⟩)), hlike,
        .inr ⟨hnext.untie fun _ => trivial, hu.last hsemicolon⟩⟩
    · exact ⟨y', u', haccepted (yields_accept.mpr (.inr ⟨hl ▸ hnot, rfl, rfl⟩)), hlike,
        .inr ⟨hu, fun he => absurd he hne'⟩⟩

/-- Statements are alike up to the end of a block, which stands before the end of the input. -/
theorem follows_many {item item' : Parser Stmt} (hi : FollowsStatement b c item item')
    {s s' t : Cursor} {xs : List Stmt} (hs : s.Like b c tied s')
    (h : ManyYield (· = .symbol .rightBrace) item s xs t) (ht : t.peek.lexeme ≠ .endOfInput) :
    ∃ xs' t', ManyYield (· = .symbol .rightBrace) item' s' xs' t' ∧ t.Like b c tied t' ∧
      BlockLike b .outside xs xs' := by
  induction h generalizing s' with
  | @stops s hstop =>
    have hbrace := (hs.peek_symbol .rightBrace nofun).mpr
      (of_decide_eq_true (hstop.resolve_right ht))
    exact ⟨[], s', .stops (.inl (decide_eq_true hbrace)), hs, .nil⟩
  | @goes s u t x xs hstop hend hx hlt hxs ih =>
    obtain ⟨x', u', hx', hlike, hpast | ⟨hu, -⟩⟩ := hi tied s s' hs hend x u hx
    · -- nothing is read behind the end of the input
      cases hxs with
      | stops => exact absurd hpast.ended ht
      | goes _ hend => exact absurd hpast.ended hend
    · obtain ⟨xs', t', hxs', ht', hlikes⟩ := ih hu ht
      have hstop' : s'.peek.lexeme ≠ .symbol .rightBrace :=
        (hs.peek_symbol .rightBrace nofun).not.mpr (of_decide_eq_false hstop)
      have hend' : s'.peek.lexeme ≠ .endOfInput := hs.lexeme hend ▸ hend
      exact ⟨x' :: xs', t', .goes (decide_eq_false hstop') hend' hx' (hs.length_lt hu hlt) hxs',
        ht', .cons hlike hlikes⟩

theorem block_succ (ih : FollowsAt b c depth) :
    Follows b c (Parser.block (depth + 1)) (Parser.block (depth + 1)) (BlockLike b .outside) := by
  refine follows_bind (follows_expect _ _) fun _ _ _ => ?_
  intro tied s s' hs body t h
  obtain ⟨found, u, hmany, hclose⟩ := yields_bind.mp h
  have hl := (yields_expect_bind.mp hclose).1
  obtain ⟨found', u', hmany', hu, hfound⟩ :=
    follows_many ih.statement hs (many_eq_ok_iff.mp hmany) (by simp [hl])
  have hrest := follows_bind (c := c) (follows_expect (b := b) .rightBrace "\x7d") fun _ _ _ =>
    follows_pure hfound
  obtain ⟨body', t', hr, ht, hbody⟩ := hrest tied u u' hu body t hclose
  exact ⟨body', t', yields_bind.mpr ⟨found', u', many_eq_ok_iff.mpr hmany', hr⟩, ht, hbody⟩

end FollowsAt

theorem followsAt (b : Likeness) (c : Continuation) (depth : Nat) : FollowsAt b c depth := by
  induction depth with
  | zero => exact .zero
  | succ depth ih =>
    exact
      { expression := follows_levels ih.unary
        unary := ih.unary_succ
        primary := ih.primary_succ
        block := ih.block_succ
        functionRest := fun exported _ _ hspan => ih.functionRest_succ exported hspan
        branchRest := fun hspan => ih.branchRest_succ hspan
        bareStatement := fun _ _ _ hs hne => ih.bareStatement_succ hs hne
        statement := ih.statement_succ }

/-! ## Programs -/

/-- A program is read alike, and then the second list is read on. -/
theorem follows_program {item item' : Parser Stmt} (hi : FollowsStatement b c item item')
    {s s' t : Cursor} {xs : List Stmt} (hs : s.Like b c tied s')
    (h : ManyYield (fun _ => false) item s xs t)
    (hne : s.peek.lexeme = .endOfInput → c.first.lexeme = .endOfInput) :
    ∃ xs' u, BlockLike b .outside xs xs' ∧ c.Behind u ∧ ∀ ys v,
      ManyYield (fun _ => false) item' u ys v → ManyYield (fun _ => false) item' s' (xs' ++ ys) v := by
  induction h generalizing s' with
  | @stops s hstop =>
    have he : s.peek.lexeme = .endOfInput := hstop.resolve_left nofun
    rcases hs.cases with ⟨-, -, hrest⟩ | ⟨hne, -⟩
    · exact ⟨[], s', .nil, .inl ⟨hne he, hrest⟩, fun _ _ h => h⟩
    · exact absurd he hne
  | @goes s u t x xs hstop hend hx hlt hxs ih =>
    have hend' : s'.peek.lexeme ≠ .endOfInput := hs.lexeme hend ▸ hend
    obtain ⟨x', u', hx', hlike, hpast | ⟨hu, hlast⟩⟩ := hi tied s s' hs hend x u hx
    · -- the last statement of the first list takes the semicolon with it
      cases hxs with
      | stops =>
        have hlt' : u'.rest.length < s'.rest.length := by
          rw [hpast.rest, hs.rest.length]
          omega
        exact ⟨[x'], u', .cons hlike .nil, .inr ⟨hpast.opens, hpast.rest⟩,
          fun ys v h => .goes rfl hend' hx' hlt' h⟩
      | goes _ hend => exact absurd hpast.ended hend
    · obtain ⟨xs', v, hlikes, hbehind, hgo⟩ := ih hu hlast
      exact ⟨x' :: xs', v, .cons hlike hlikes, hbehind,
        fun ys w h => .goes rfl hend' hx' (hs.length_lt hu hlt) (hgo ys w h)⟩

end Parser

end HostScript
