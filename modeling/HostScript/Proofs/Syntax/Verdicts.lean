import HostScript.Proofs.Syntax.Reading
import HostScript.Proofs.Syntax.ScanSpans
import Mathlib.Data.List.Basic

/-!
# What parsing rests on

A procedure looks at the next token, and nowhere behind it, before it goes on; at the keyword of a
function it also looks at the token behind the keyword. `Verdict` says of one procedure in front of
one token list what it comes to and which tokens decide that. There is one rule for each way in
which procedures are put together, and `JudgesAt` has one field for each of those that call each
other.
-/

namespace HostScript

/-! ## Token lists -/

namespace Token

variable {t : Token} {front rest : List Token}

theorem ended_iff : Ended rest ↔ ∃ last ∈ rest.getLast?, last.lexeme = .endOfInput := by
  constructor
  · rintro ⟨body, last, rfl, hlast⟩
    exact ⟨last, by simp, hlast⟩
  · rintro ⟨last, hmem, hlast⟩
    exact ⟨rest.dropLast, last, (List.dropLast_append_getLast? last hmem).symm, hlast⟩

theorem Ended.ne_nil (h : Ended rest) : rest ≠ [] := by
  rintro rfl
  obtain ⟨last, hmem, -⟩ := ended_iff.mp h
  exact nomatch hmem

theorem Ended.of_append (h : Ended (front ++ t :: rest)) : Ended (t :: rest) := by
  rw [ended_iff] at h ⊢
  rwa [List.getLast?_append_of_ne_nil _ (List.cons_ne_nil t rest)] at h

theorem Ended.tail (h : Ended (t :: rest)) (ht : t.lexeme ≠ .endOfInput) : Ended rest := by
  cases rest with
  | nil =>
    obtain ⟨last, hmem, hlast⟩ := ended_iff.mp h
    obtain rfl : t = last := Option.some.inj hmem
    exact absurd hlast ht
  | cons u rest => exact @Ended.of_append u [t] rest h

end Token

namespace Cursor

/-- Two cursors on the same line in front of the same token. -/
structure Similar (s t : Cursor) : Prop where
  line : t.line = s.line
  peek : t.peek = s.peek

variable {s : Cursor} {front rest : List Token} {r : Token}

theorem Similar.at? {t : Cursor} (h : s.Similar t) (l : Lexeme) : t.at? l = s.at? l := by
  rw [Cursor.at?, Cursor.at?, h.peek]

theorem similar_of_rest (h : s.rest = front ++ r :: rest) (rest' : List Token) :
    s.Similar ⟨s.line, front ++ r :: rest'⟩ where
  line := rfl
  peek := by
    unfold peek
    rw [h]
    cases front <;> rfl

theorem similar_append (h : s.rest ≠ []) (later : List Token) :
    s.Similar ⟨s.line, s.rest ++ later⟩ where
  line := rfl
  peek := by
    obtain ⟨t, rest, ht⟩ := List.exists_cons_of_ne_nil h
    simp [peek, ht]

theorem second_of_rest (h : s.rest = front ++ r :: rest) (hfront : 1 ≤ front.length)
    (rest' : List Token) : (⟨s.line, front ++ r :: rest'⟩ : Cursor).second = s.second := by
  unfold second
  rw [h]
  match front, hfront with
  | [_], _ => rfl
  | _ :: _ :: _, _ => rfl

theorem second_append (h : 2 ≤ s.rest.length) (later : List Token) :
    (⟨s.line, s.rest ++ later⟩ : Cursor).second = s.second := by
  obtain ⟨line, tokens⟩ := s
  match tokens, h with
  | t :: u :: rest, _ => rfl

end Cursor

namespace Parser

variable {α β : Type} {least m sure n : ℕ} {short : Prop} {s : Cursor}

theorem bind_of_error {p : Parser α} {halt : ParseHalt} (h : p s = .error halt)
    (f : α → Parser β) : (p >>= f) s = .error halt := by
  change (p s >>= _) = _
  rw [h]
  rfl

theorem bind_of_ok {p : Parser α} {a : α} {t : Cursor} (h : p s = .ok (a, t)) (f : α → Parser β) :
    (p >>= f) s = f a t := by
  change (p s >>= _) = _
  rw [h]
  rfl

/-! ## Verdicts -/

/-- What a procedure comes to in front of a cursor, and on which tokens this rests: at least `least`
of them are read for a result, at least `sure` of them stand before one that is blamed, and it is
only under the condition `short` that the bound on nesting is too small. -/
inductive Verdict (p : Parser α) (least sure : ℕ) (short : Prop) (s : Cursor) : Prop
  /-- A result, which rests on the tokens that are read and the next one. -/
  | gives (front : List Token) (r : Token) (rest : List Token) (a : α) (line : ℕ) :
    s.rest = front ++ r :: rest → least ≤ front.length →
    (∀ rest', p ⟨s.line, front ++ r :: rest'⟩ = .ok (a, ⟨line, r :: rest'⟩)) →
    Verdict p least sure short s
  /-- A fault, which stays one whatever stands behind the token that is blamed. -/
  | blames (front : List Token) (r : Token) (rest : List Token) (cause : ParseFault) :
    s.rest = front ++ r :: rest → sure ≤ front.length →
    (∀ later, p ⟨s.line, s.rest ++ later⟩ = .error (.fault cause r.span)) →
    (∀ rest' x, p ⟨s.line, front ++ r :: rest'⟩ ≠ .ok x) →
    Verdict p least sure short s
  /-- The bound on nesting is too small. -/
  | stops : short → (∀ later, p ⟨s.line, s.rest ++ later⟩ = .error .tooDeep) →
    Verdict p least sure short s

namespace Verdict

variable {p q : Parser α}

theorem mono {least' sure' : ℕ} {short' : Prop} (h : Verdict p least sure short s)
    (hleast : least' ≤ least) (hsure : sure' ≤ sure) (hshort : short → short') :
    Verdict p least' sure' short' s := by
  cases h with
  | gives front r rest a line hrest hfront hok =>
    exact .gives front r rest a line hrest (Nat.le_trans hleast hfront) hok
  | blames front r rest cause hrest hfront hfault hne =>
    exact .blames front r rest cause hrest (Nat.le_trans hsure hfront) hfault hne
  | stops hs hdeep => exact .stops (hshort hs) hdeep

/-- The first token stays the first one when what is behind a later one changes. -/
theorem exists_cons {front rest rest₂ : List Token} {r r₂ : Token}
    (h : r :: rest = front ++ r₂ :: rest₂) (rest' : List Token) :
    ∃ tail, front ++ r₂ :: rest' = r :: tail := by
  cases front with
  | nil =>
    obtain ⟨rfl, -⟩ := List.cons.inj h
    exact ⟨rest', rfl⟩
  | cons t front =>
    obtain ⟨rfl, -⟩ := List.cons.inj h
    exact ⟨front ++ r₂ :: rest', rfl⟩

/-- What a procedure comes to that has read some tokens and goes on as another one does. -/
theorem shift {front rest : List Token} {r : Token} {line : ℕ} (hrest : s.rest = front ++ r :: rest)
    (hp : ∀ rest', p ⟨s.line, front ++ r :: rest'⟩ = q ⟨line, r :: rest'⟩)
    (hsure : sure ≤ front.length) (hq : Verdict q m 0 short ⟨line, r :: rest⟩) :
    Verdict p (front.length + m) sure short s := by
  have hp' (later : List Token) : p ⟨s.line, s.rest ++ later⟩ = q ⟨line, (r :: rest) ++ later⟩ := by
    rw [hrest, List.append_assoc]
    exact hp (rest ++ later)
  cases hq with
  | gives front₂ r₂ rest₂ a line₂ hrest₂ hfront hok =>
    refine .gives (front ++ front₂) r₂ rest₂ a line₂ ?_ ?_ fun rest' => ?_
    · rw [hrest, List.append_assoc]
      exact congrArg (front ++ ·) hrest₂
    · rw [List.length_append]
      exact Nat.add_le_add_left hfront _
    · obtain ⟨tail, htail⟩ := exists_cons hrest₂ rest'
      rw [List.append_assoc, htail, hp, ← htail]
      exact hok rest'
  | blames front₂ r₂ rest₂ cause hrest₂ _ hfault hne =>
    refine .blames (front ++ front₂) r₂ rest₂ cause ?_ ?_ (fun later => ?_) fun rest' x => ?_
    · rw [hrest, List.append_assoc]
      exact congrArg (front ++ ·) hrest₂
    · rw [List.length_append]
      exact Nat.le_add_right_of_le hsure
    · rw [hp']
      exact hfault later
    · obtain ⟨tail, htail⟩ := exists_cons hrest₂ rest'
      rw [List.append_assoc, htail, hp, ← htail]
      exact hne rest' x
  | stops hshort hdeep =>
    refine .stops hshort fun later => ?_
    rw [hp']
    exact hdeep later

/-- A procedure that does what another one does, and goes on from its result. -/
theorem follow {p : Parser β} {op : Parser α} {k : α → Parser β} (hs : Token.Ended s.rest)
    (hop : Verdict op least sure short s)
    (herror : ∀ t halt, s.Similar t → op t = .error halt → p t = .error halt)
    (hok : ∀ t a u, s.Similar t → op t = .ok (a, u) → u.rest.length + least ≤ t.rest.length →
      p t = k a u)
    (hk : ∀ a t, Token.Ended t.rest → t.rest.length + least ≤ s.rest.length →
      Verdict (k a) m 0 short t)
    (hsure : sure ≤ least) : Verdict p (least + m) sure short s := by
  cases hop with
  | gives front r rest a line hrest hfront hgives =>
    have hp (rest' : List Token) : p ⟨s.line, front ++ r :: rest'⟩ = k a ⟨line, r :: rest'⟩ := by
      refine hok _ a _ (Cursor.similar_of_rest hrest rest') (hgives rest') ?_
      simp only [List.length_append, List.length_cons]
      omega
    have hended : Token.Ended (r :: rest) := Token.Ended.of_append (hrest ▸ hs)
    have hlength : (r :: rest).length + least ≤ s.rest.length := by
      rw [hrest, List.length_append]
      omega
    exact (shift hrest hp (Nat.le_trans hsure hfront) (hk a ⟨line, r :: rest⟩ hended hlength)).mono
      (Nat.add_le_add_right hfront m) (Nat.le_refl sure) id
  | blames front r rest cause hrest hfront hfault hne =>
    refine .blames front r rest cause hrest hfront
      (fun later => herror _ _ (Cursor.similar_append hs.ne_nil later) (hfault later))
      fun rest' x hx => ?_
    cases hr : op ⟨s.line, front ++ r :: rest'⟩ with
    | error halt =>
      rw [herror _ _ (Cursor.similar_of_rest hrest rest') hr] at hx
      contradiction
    | ok y => exact hne rest' y hr
  | stops hshort hdeep =>
    exact .stops hshort fun later =>
      herror _ _ (Cursor.similar_append hs.ne_nil later) (hdeep later)

end Verdict

theorem verdict_pure (hs : Token.Ended s.rest) (a : α) : Verdict (pure a) 0 sure short s := by
  obtain ⟨line, rest⟩ := s
  cases rest with
  | nil => exact absurd rfl hs.ne_nil
  | cons r rest => exact .gives [] r rest a line rfl (Nat.le_refl 0) fun rest' => rfl

namespace Verdict

variable {p q : Parser α}

theorem bind {f : α → Parser β} (hs : Token.Ended s.rest) (hp : Verdict p least sure short s)
    (hf : ∀ a t, Token.Ended t.rest → t.rest.length + least ≤ s.rest.length →
      Verdict (f a) m 0 short t)
    (hsure : sure ≤ least) : Verdict (p >>= f) (least + m) sure short s :=
  hp.follow hs (k := f) (fun _ _ _ h => bind_of_error h f) (fun _ _ _ _ h _ => bind_of_ok h f) hf
    hsure

/-- What a procedure comes to is read off the first token and its line. -/
theorem congr (hs : Token.Ended s.rest) (hq : Verdict q least sure short s)
    (hsure : sure ≤ least) (h : ∀ t, s.Similar t → p t = q t) : Verdict p least sure short s :=
  hq.follow hs (k := Pure.pure) (fun t _ ht hr => (h t ht).trans hr)
    (fun t _ _ ht hr _ => (h t ht).trans hr) (fun a _ ht _ => verdict_pure ht a) hsure

end Verdict

theorem verdict_fail (hs : Token.Ended s.rest) (cause : ParseFault) :
    Verdict (fail cause s.peek.span : Parser α) least 0 short s := by
  obtain ⟨line, rest⟩ := s
  cases rest with
  | nil => exact absurd rfl hs.ne_nil
  | cons r rest =>
    exact .blames [] r rest cause rfl (Nat.le_refl 0) (fun _ => rfl) fun _ _ h => nomatch h

theorem verdict_tooDeep (hs : Token.Ended s.rest) (hlength : s.rest.length ≤ n)
    (h : 0 < n → short) : Verdict (tooDeep : Parser α) least sure short s :=
  .stops (h (Nat.lt_of_lt_of_le (List.length_pos_iff.mpr hs.ne_nil) hlength)) fun _ => rfl

theorem verdict_take (hs : Token.Ended s.rest) (hne : s.peek.lexeme ≠ .endOfInput) :
    Verdict take 1 sure short s := by
  obtain ⟨line, rest⟩ := s
  cases rest with
  | nil => exact absurd rfl hs.ne_nil
  | cons t rest =>
    obtain ⟨r, rest, rfl⟩ := List.exists_cons_of_ne_nil (hs.tail hne).ne_nil
    refine .gives [t] r rest t t.span.line rfl (Nat.le_refl 1) fun rest' => ?_
    exact congrArg (fun u => Except.ok (t, u)) (Cursor.next_cons hne)

/-- A procedure that reads the next token and goes on behind it. -/
theorem verdict_step {p k : Parser α} (hs : Token.Ended s.rest) (hne : s.peek.lexeme ≠ .endOfInput)
    (hp : ∀ t, s.Similar t → p t = k t.next)
    (hk : ∀ t, Token.Ended t.rest → t.rest.length + 1 ≤ s.rest.length → Verdict k 0 0 short t) :
    Verdict p 1 1 short s := by
  refine (verdict_take hs hne).follow hs (m := 0) (k := fun _ => k) (fun t halt _ h => ?_)
    (fun t a u ht h _ => ?_) (fun _ t => hk t) (Nat.le_refl 1)
  · exact nomatch h
  · obtain ⟨rfl, rfl⟩ := Prod.mk.inj (Except.ok.inj h)
    exact hp t ht

/-- A procedure that looks at the next token first. -/
theorem verdict_peek {f : Token → Parser α} (hs : Token.Ended s.rest) (hsure : sure ≤ least)
    (hf : Verdict (f s.peek) least sure short s) : Verdict (peek >>= f) least sure short s :=
  hf.congr hs hsure fun t ht => congrArg (fun r => f r t) ht.peek

theorem get_bind (f : Cursor → Parser α) (s : Cursor) : (get >>= f) s = f s s := rfl

/-- A procedure that fails behind another one, at the token in front of both. -/
theorem verdict_doomed {p : Parser α} (hs : Token.Ended s.rest) (hp : Verdict p least 0 short s)
    (cause : ParseFault) :
    Verdict (p >>= fun _ => (fail cause s.peek.span : Parser β)) 0 0 short s := by
  have hok {t u : Cursor} {a : α} (h : p t = .ok (a, u)) :
      (p >>= fun _ => (fail cause s.peek.span : Parser β)) t = .error (.fault cause s.peek.span) :=
    (bind_of_ok h _).trans rfl
  have hne (t : Cursor) (x : β × Cursor) :
      (p >>= fun _ => (fail cause s.peek.span : Parser β)) t ≠ .ok x := by
    cases hr : p t with
    | error halt =>
      rw [bind_of_error hr]
      nofun
    | ok r =>
      rw [hok hr]
      nofun
  cases hp with
  | gives front r rest a line hrest hfront hgives =>
    obtain ⟨t, tail, htail⟩ := List.exists_cons_of_ne_nil hs.ne_nil
    have hpeek : s.peek = t := by rw [Cursor.peek, htail]
    refine .blames [] t tail cause htail (Nat.le_refl 0) (fun later => ?_) fun rest' => hne _
    rw [hrest, List.append_assoc, List.cons_append, hok (hgives _), hpeek]
  | blames front r rest cause hrest hfront hfault _ =>
    exact .blames front r rest cause hrest hfront (fun later => bind_of_error (hfault later) _)
      fun rest' => hne _
  | stops hshort hdeep => exact .stops hshort fun later => bind_of_error (hdeep later) _

/-- A procedure that looks at the next two tokens does what another one does, which is sure of the
first one. -/
theorem verdict_second {p q : Parser α} (hs : 2 ≤ s.rest.length) (hq : Verdict q 1 1 short s)
    (h : ∀ t, s.Similar t → t.second = s.second → p t = q t) : Verdict p 1 0 short s := by
  have hne : s.rest ≠ [] := List.length_pos_iff.mp (by omega)
  have heq {front rest : List Token} {r : Token} (hrest : s.rest = front ++ r :: rest)
      (hfront : 1 ≤ front.length) (rest' : List Token) :
      p ⟨s.line, front ++ r :: rest'⟩ = q ⟨s.line, front ++ r :: rest'⟩ :=
    h _ (Cursor.similar_of_rest hrest rest') (Cursor.second_of_rest hrest hfront rest')
  have heq' (later : List Token) : p ⟨s.line, s.rest ++ later⟩ = q ⟨s.line, s.rest ++ later⟩ :=
    h _ (Cursor.similar_append hne later) (Cursor.second_append hs later)
  cases hq with
  | gives front r rest a line hrest hfront hok =>
    exact .gives front r rest a line hrest hfront fun rest' =>
      (heq hrest hfront rest').trans (hok rest')
  | blames front r rest cause hrest hfront hfault hne =>
    refine .blames front r rest cause hrest (Nat.zero_le _)
      (fun later => (heq' later).trans (hfault later)) fun rest' x => ?_
    rw [heq hrest hfront]
    exact hne rest' x
  | stops hshort hdeep => exact .stops hshort fun later => (heq' later).trans (hdeep later)

/-! ## Procedures -/

/-- There is a verdict in front of all lists of at most `n` tokens. -/
def Judges (p : Parser α) (least : ℕ) (short : Prop) (n : ℕ) : Prop :=
  ∀ s, Token.Ended s.rest → s.rest.length ≤ n → Verdict p least 0 short s

namespace Judges

variable {p q : Parser α}

theorem mono {least' n' : ℕ} {short' : Prop} (h : Judges p least short n) (hleast : least' ≤ least)
    (hn : n' ≤ n) (hshort : short → short') : Judges p least' short' n' :=
  fun s hs hlength => (h s hs (Nat.le_trans hlength hn)).mono hleast (Nat.le_refl 0) hshort

theorem weaken {short' : Prop} (h : Judges p least short n) (hshort : short → short') :
    Judges p 0 short' n :=
  h.mono (Nat.zero_le least) (Nat.le_refl n) hshort

theorem bind {f : α → Parser β} (hp : Judges p least short n)
    (hf : ∀ a, Judges (f a) m short (n - least)) :
    Judges (p >>= f) (least + m) short n :=
  fun s hs hlength => (hp s hs hlength).bind hs
    (fun a t ht hlt => hf a t ht (by omega)) (Nat.zero_le least)

end Judges

theorem judges_pure (a : α) : Judges (pure a) 0 short n := fun _ hs _ => verdict_pure hs a

theorem judges_return {p : Parser α} (hp : Judges p least short n) (g : α → β) :
    Judges (do return g (← p)) least short n :=
  hp.bind fun a => judges_pure (g a)

theorem judges_peek_bind {f : Token → Parser α} (hf : ∀ t, Judges (f t) 0 short n) :
    Judges (peek >>= f) 0 short n :=
  fun s hs hlength => verdict_peek hs (Nat.le_refl 0) (hf s.peek s hs hlength)

/-- A procedure that passes the next token first. -/
theorem verdict_pass {f : PUnit → Parser α} (hs : Token.Ended s.rest) (hlength : s.rest.length ≤ n)
    (hne : s.peek.lexeme ≠ .endOfInput) (hsure : sure ≤ 1) (hf : Judges (f ⟨⟩) 0 short (n - 1)) :
    Verdict (discard take >>= f) 1 sure short s :=
  (verdict_step hs hne (fun _ _ => rfl) fun t ht _ => hf t ht (by omega)).mono (Nat.le_refl 1)
    hsure id

theorem expect_eq (symbol : Symbol) (wanted : String) (s : Cursor) : expect symbol wanted s =
    if s.peek.lexeme = .symbol symbol then .ok ((), s.next)
    else .error (.fault (.expected wanted s.peek.lexeme) s.peek.span) := by
  change (if s.peek.lexeme = .symbol symbol then _ else _ : Parser Unit) s = _
  split <;> rfl

theorem judges_expect (symbol : Symbol) (wanted : String) :
    Judges (expect symbol wanted) 1 short n := by
  intro s hs _
  by_cases hl : s.peek.lexeme = .symbol symbol
  · refine (verdict_step hs (k := pure ()) (by simp [hl]) (fun t ht => ?_) fun t ht _ =>
      verdict_pure ht ()).mono (Nat.le_refl 1) (Nat.zero_le 1) id
    rw [expect_eq, ht.peek, if_pos hl]
    rfl
  · refine (verdict_fail hs (.expected wanted s.peek.lexeme)).congr hs (Nat.zero_le 1)
      fun t ht => ?_
    rw [expect_eq, ht.peek, if_neg hl]
    rfl

theorem identifier_eq (s : Cursor) : identifier s = match s.peek.lexeme with
    | .identifier name => .ok ((name, s.peek.span), s.next)
    | found => .error (.fault (.expected "identifier" found) s.peek.span) := by
  change (match s.peek.lexeme with
    | .identifier name => _
    | found => _ : Parser (Name × Span)) s = _
  generalize s.peek.lexeme = l
  cases l <;> rfl

/-- Without a name in front of it, a procedure that reads one first fails there. -/
theorem verdict_nameless {f : Name × Span → Parser α} (hs : Token.Ended s.rest)
    (hl : ∀ name, s.peek.lexeme ≠ .identifier name) :
    Verdict (identifier >>= f) least 0 short s := by
  refine (verdict_fail hs (.expected "identifier" s.peek.lexeme)).congr hs (Nat.zero_le least)
    fun t ht => ?_
  change (identifier t >>= _) = _
  rw [identifier_eq, ht.peek]
  split
  · next name heq => exact absurd heq (hl name)
  · rfl

/-- With a name in front of it, a procedure that reads one first goes on behind it. -/
theorem verdict_named {f : Name × Span → Parser α} {name : Name}
    (hs : Token.Ended s.rest) (hl : s.peek.lexeme = .identifier name)
    (hf : ∀ t, Token.Ended t.rest → t.rest.length + 1 ≤ s.rest.length →
      Verdict (f (name, s.peek.span)) 0 0 short t) :
    Verdict (identifier >>= f) 1 1 short s := by
  refine verdict_step hs (k := f (name, s.peek.span)) (by simp [hl]) (fun t ht => ?_) hf
  change (identifier t >>= _) = _
  rw [identifier_eq, ht.peek, hl]
  rfl

theorem judges_identifier_bind {f : Name × Span → Parser α}
    (hf : ∀ r, Judges (f r) 0 short (n - 1)) : Judges (identifier >>= f) 1 short n := by
  intro s hs hlength
  by_cases hl : ∃ name, s.peek.lexeme = .identifier name
  · obtain ⟨name, hl⟩ := hl
    exact (verdict_named hs hl fun t ht _ => hf _ t ht (by omega)).mono (Nat.le_refl _)
      (Nat.zero_le 1) id
  · exact verdict_nameless hs fun name h => hl ⟨name, h⟩

theorem accept_eq (l : Lexeme) (s : Cursor) :
    accept l s = .ok (if s.at? l then (true, s.next) else (false, s)) := rfl

theorem accept_bind (l : Lexeme) (f : Bool → Parser α) (s : Cursor) :
    (accept l >>= f) s = if s.at? l then f true s.next else f false s := by
  change (do let (found, t) ← accept l s; f found t : Except ParseHalt (α × Cursor)) = _
  rw [accept_eq]
  split <;> rfl

theorem judges_accept {l : Lexeme} (hl : l ≠ .endOfInput) : Judges (accept l) 0 short n := by
  intro s hs _
  by_cases hat : s.at? l = true
  · have hne : s.peek.lexeme ≠ .endOfInput := of_decide_eq_true hat ▸ hl
    refine (verdict_step hs (k := pure true) hne (fun t ht => ?_) fun t ht _ =>
      verdict_pure ht true).mono (Nat.zero_le 1) (Nat.zero_le 1) id
    rw [accept_eq, if_pos ((ht.at? l).trans hat)]
    rfl
  · refine (verdict_pure hs false).congr hs (Nat.le_refl 0) fun t ht => ?_
    rw [accept_eq, if_neg (ht.at? l ▸ hat)]
    rfl

/-! ## Repetitions -/

theorem judges_zero (p : Parser α) : Judges p least short 0 :=
  fun _ hs hlength => absurd (List.length_eq_zero_iff.mp (Nat.le_zero.mp hlength)) hs.ne_nil

theorem judges_chainRest {build? : Token → Option (Expr → Expr → Expr)} {operand : Parser Expr}
    (hend : ∀ t, t.lexeme = .endOfInput → build? t = none) (h : Judges operand 1 short n)
    (left : Expr) : Judges (chainRest build? operand left) 0 short n := by
  induction n generalizing left with
  | zero => exact judges_zero _
  | succ n ih =>
    intro s hs hlength
    cases hb : build? s.peek with
    | none =>
      exact (verdict_pure hs left).congr hs (Nat.le_refl 0) fun t ht =>
        chainRest_stop operand left (ht.peek ▸ hb)
    | some build =>
      have hne : s.peek.lexeme ≠ .endOfInput := fun hl => by simp [hend _ hl] at hb
      have hright : Verdict (take >>= fun _ => operand) 2 0 short s :=
        (verdict_take hs hne).bind hs (fun _ t ht _ => h t ht (by omega)) (Nat.zero_le 1)
      refine (hright.follow hs (m := 0)
        (k := fun right => chainRest build? operand (build left right))
        (fun t halt ht hr => ?_) (fun t right u ht hr hlt => ?_) (fun right t ht hlt => ?_)
        (Nat.zero_le 2)).mono (Nat.zero_le 2) (Nat.le_refl 0) id
      · have hr : operand t.next = .error halt := hr
        rw [chainRest, ht.peek, hb, hr]
      · exact chainRest_step left (ht.peek ▸ hb) hr (by omega)
      · exact ih (h.mono (Nat.le_refl 1) (Nat.le_succ n) id) _ t ht (by omega)

theorem length_next_le (s : Cursor) : s.next.rest.length ≤ s.rest.length := by
  unfold Cursor.next
  split <;> simp_all

theorem judges_separated {item : List α → Parser α} (h : ∀ seen, Judges (item seen) 1 short n)
    (seen : List α) : Judges (separated item seen) 1 short n := by
  induction n generalizing seen with
  | zero => exact judges_zero _
  | succ n ih =>
    intro s hs hlength
    have hmono (seen : List α) : Judges (item seen) 1 short n :=
      (h seen).mono (Nat.le_refl 1) (Nat.le_succ n) id
    refine (h seen s hs hlength).follow hs (m := 0)
      (k := fun x t => if t.at? (.symbol .comma) then separated item (seen ++ [x]) t.next
        else .ok (seen ++ [x], t))
      (fun t halt _ hr => ?_) (fun t x u _ hr hlt => ?_) (fun x t ht hlt => ?_) (Nat.zero_le 1)
    · rw [separated, hr]
    · have hnext := length_next_le u
      rw [separated.eq_def, hr]
      dsimp only
      rw [if_pos (show u.next.rest.length < t.rest.length by omega)]
    · by_cases hat : t.at? (.symbol .comma) = true
      · have hne : t.peek.lexeme ≠ .endOfInput := by simp [of_decide_eq_true hat]
        have hmore := (ih hmono (seen ++ [x])).weaken id
        exact (verdict_step ht hne (fun u hu => if_pos ((hu.at? _).trans hat))
          fun u hu hlt' => hmore u hu (by omega)).mono (Nat.zero_le 1) (Nat.zero_le 1) id
      · exact (verdict_pure ht (seen ++ [x])).congr ht (Nat.le_refl 0) fun u hu =>
          if_neg (hu.at? _ ▸ hat)

theorem judges_many {item : Parser Stmt} (h : Judges item 1 short n) (stop : Lexeme → Bool) :
    Judges (many stop item) 0 short n := by
  induction n with
  | zero => exact judges_zero _
  | succ n ih =>
    intro s hs hlength
    by_cases hdone : (stop s.peek.lexeme || s.at? .endOfInput) = true
    · refine (verdict_pure hs []).congr hs (Nat.le_refl 0) fun t ht => ?_
      rw [many, if_pos (by simpa only [ht.peek, ht.at?] using hdone)]
      rfl
    · refine ((h s hs hlength).follow hs (m := 0)
        (k := fun x => many stop item >>= fun xs => pure (x :: xs))
        (fun t halt ht hr => ?_) (fun t x u ht hr hlt => ?_) (fun x t ht hlt => ?_)
        (Nat.zero_le 1)).mono (Nat.zero_le 1) (Nat.le_refl 0) id
      · rw [many, if_neg (by simpa only [ht.peek, ht.at?] using hdone), hr]
      · rw [many.eq_def, if_neg (by simpa only [ht.peek, ht.at?] using hdone), hr]
        dsimp only
        rw [if_pos (show u.rest.length < t.rest.length by omega)]
        rfl
      · have hmany := ih (h.mono (Nat.le_refl 1) (Nat.le_succ n) id)
        exact judges_return hmany _ t ht (by omega)

theorem judges_items {item : List α → Parser α} (h : ∀ seen, Judges (item seen) 1 short n)
    (closing : Symbol) (wanted : String) : Judges (items item closing wanted) 1 short n := by
  have hclose {p : Parser (List α)} (hp : Judges p 0 short n) :
      Judges (p >>= fun found => expect closing wanted >>= fun _ => pure found) 1 short n :=
    hp.bind fun found => (judges_expect closing wanted).bind fun _ => judges_pure found
  intro s hs hlength
  by_cases hat : s.at? (.symbol closing) = true
  · refine (hclose (judges_pure []) s hs hlength).congr hs (Nat.zero_le 1) fun t ht => ?_
    change (if t.at? (.symbol closing) then _ else _ : Parser (List α)) t = _
    rw [if_pos ((ht.at? _).trans hat)]
  · have hfound := (judges_separated h []).mono (Nat.zero_le 1) (Nat.le_refl n) id
    refine (hclose hfound s hs hlength).congr hs (Nat.zero_le 1) fun t ht => ?_
    change (if t.at? (.symbol closing) then _ else _ : Parser (List α)) t = _
    rw [if_neg (ht.at? _ ▸ hat)]

/-- A parameter that is there already is blamed itself. -/
theorem judges_parameter (seen : List Name) : Judges (parameter seen) 1 short n := by
  intro s hs hlength
  by_cases hl : ∃ name, s.peek.lexeme = .identifier name
  · obtain ⟨name, hl⟩ := hl
    by_cases hseen : seen.contains name = true
    · refine (verdict_fail hs (.duplicateParameter name)).congr hs (Nat.zero_le 1) fun t ht => ?_
      change (identifier t >>= _) = _
      rw [identifier_eq, ht.peek, hl]
      change (if seen.contains name then _ else _ : Parser Name) t.next = _
      rw [if_pos hseen]
      rfl
    · refine (verdict_named hs hl fun t ht _ => ?_).mono (Nat.le_refl 1)
        (Nat.zero_le 1) id
      change Verdict (if seen.contains name then _ else _ : Parser Name) 0 0 short t
      rw [if_neg hseen]
      exact verdict_pure ht name
  · exact verdict_nameless hs fun name h => hl ⟨name, h⟩

theorem judges_parameters : Judges parameters 2 short n :=
  (judges_expect .leftParen "(").bind fun _ => judges_items judges_parameter .rightParen ")"

/-! ## Expressions -/

/-- One token is sure to stand before what is blamed if the first one opens a function. -/
def firm (s : Cursor) : ℕ := if s.at? (.symbol .fn) then 1 else 0

theorem firm_le (s : Cursor) : firm s ≤ 1 := by
  unfold firm
  split <;> omega

/-- There is a verdict in front of all lists of at most `n` tokens. It never blames the keyword of a
function in front. -/
def JudgesFirmly (p : Parser α) (short : Prop) (n : ℕ) : Prop :=
  ∀ s, Token.Ended s.rest → s.rest.length ≤ n → Verdict p 1 (firm s) short s

namespace JudgesFirmly

variable {p : Parser α}

theorem judges (h : JudgesFirmly p short n) : Judges p 1 short n :=
  fun s hs hlength => (h s hs hlength).mono (Nat.le_refl 1) (Nat.zero_le _) id

theorem mono {n' : ℕ} {short' : Prop} (h : JudgesFirmly p short n) (hn : n' ≤ n)
    (hshort : short → short') : JudgesFirmly p short' n' :=
  fun s hs hlength =>
    (h s hs (Nat.le_trans hlength hn)).mono (Nat.le_refl 1) (Nat.le_refl _) hshort

theorem bind {f : α → Parser β} (hp : JudgesFirmly p short n)
    (hf : ∀ a, Judges (f a) 0 short (n - 1)) : JudgesFirmly (p >>= f) short n :=
  fun s hs hlength => (hp s hs hlength).bind hs (fun a t ht _ => hf a t ht (by omega)) (firm_le s)

end JudgesFirmly

theorem judgesFirmly_chain {build? : Token → Option (Expr → Expr → Expr)} {operand : Parser Expr}
    (hend : ∀ t, t.lexeme = .endOfInput → build? t = none) (h : JudgesFirmly operand short n) :
    JudgesFirmly (chain build? operand) short n :=
  h.bind fun left =>
    (judges_chainRest hend h.judges left).mono (Nat.le_refl 0) (Nat.sub_le n 1) id

theorem logicalOf_end (symbol : Symbol) (op : LogicalOp) (t : Token) (h : t.lexeme = .endOfInput) :
    logicalOf symbol op t = none := by
  simp [logicalOf, h]

theorem binaryOf_end (ops : List (Symbol × BinaryOp)) (t : Token) (h : t.lexeme = .endOfInput) :
    binaryOf ops t = none := by
  simp [binaryOf, h]

theorem judgesFirmly_levels {operand : Parser Expr} (h : JudgesFirmly operand short n) :
    JudgesFirmly (levels operand) short n :=
  judgesFirmly_chain (logicalOf_end _ _) <| judgesFirmly_chain (logicalOf_end _ _) <|
  judgesFirmly_chain (binaryOf_end _) <| judgesFirmly_chain (binaryOf_end _) <|
  judgesFirmly_chain (binaryOf_end _) <| judgesFirmly_chain (binaryOf_end _) h

/-- A keyword of a function opens a declaration if a name stands behind it, and a value if not. Both
are sure of the keyword, and so of the token behind it. -/
theorem verdict_declaration {p declaration value : Parser α} (hs : Token.Ended s.rest)
    (hlength : s.rest.length ≤ n) (hdeclaration : Judges declaration 0 short (n - 1))
    (hvalue : JudgesFirmly value short n)
    (hname : ∀ t, s.Similar t → s.peek.lexeme = .symbol .fn →
      ∀ name, t.second.lexeme = .identifier name → p t = declaration t.next)
    (hother : ∀ t, s.Similar t →
      (s.peek.lexeme = .symbol .fn → ∀ name, t.second.lexeme ≠ .identifier name) →
      p t = value t) : Verdict p 1 0 short s := by
  by_cases hfn : s.peek.lexeme = .symbol .fn
  · have hne : s.peek.lexeme ≠ .endOfInput := by simp [hfn]
    have htwo : 2 ≤ s.rest.length := by
      rw [Cursor.rest_of_peek hne] at hs ⊢
      exact Nat.succ_le_succ (List.length_pos_iff.mpr (hs.tail hne).ne_nil)
    by_cases hsecond : ∃ name, s.second.lexeme = .identifier name
    · obtain ⟨name, hsecond⟩ := hsecond
      have hread : Verdict (discard take >>= fun _ => declaration) 1 1 short s :=
        verdict_pass hs hlength hne (Nat.le_refl 1) hdeclaration
      exact verdict_second htwo hread fun t ht heq =>
        hname t ht hfn name (heq ▸ hsecond)
    · have hfirm : firm s = 1 := if_pos (decide_eq_true hfn)
      exact verdict_second htwo (hfirm ▸ hvalue s hs hlength) fun t ht heq =>
        hother t ht fun _ name hl => hsecond ⟨name, heq ▸ hl⟩
  · exact (hvalue.judges s hs hlength).congr hs (Nat.zero_le 1) fun t ht =>
      hother t ht fun hl => absurd hl hfn

/-- What a procedure goes on with behind the next token: it fails at this token, or there is a
verdict in front of the ones behind it. -/
inductive Behind (q : Parser α) (short : Prop) (s : Cursor) : Prop
  | fails (cause : ParseFault) : q = fail cause s.peek.span → s.peek.lexeme ≠ .symbol .fn →
    Behind q short s
  | goes : s.peek.lexeme ≠ .endOfInput →
    (∀ t, Token.Ended t.rest → t.rest.length + 1 ≤ s.rest.length → Verdict q 0 0 short t) →
    Behind q short s

theorem verdict_take_bind {f : Token → Parser α} (hs : Token.Ended s.rest)
    (hf : Behind (f s.peek) short s) : Verdict (take >>= f) 1 (firm s) short s := by
  have htake {t : Cursor} (ht : s.Similar t) : (take >>= f) t = f s.peek t.next :=
    congrArg (fun r => f r t.next) ht.peek
  cases hf with
  | fails cause hq hl =>
    have hfirm : firm s = 0 := if_neg (by simpa [Cursor.at?] using hl)
    rw [hfirm]
    refine (verdict_fail hs cause).congr hs (Nat.zero_le 1) fun t ht => ?_
    rw [htake ht, hq]
    rfl
  | goes hne hq =>
    exact (verdict_step hs hne (fun t ht => htake ht) hq).mono (Nat.le_refl 1) (firm_le s) id

variable {inner : Parser Expr}

theorem judges_suffix {target : Expr} {t : Token} {step : Parser Expr} (h : Judges inner 1 short n)
    (hstep : suffix? inner target t = some step) : Judges step 1 short n := by
  unfold suffix? at hstep
  split at hstep
  · obtain rfl := Option.some.inj hstep
    exact judges_return (judges_items (fun _ => h) .rightParen ")") _
  · obtain rfl := Option.some.inj hstep
    refine (h.bind fun index => ?_).mono (Nat.le_add_right 1 1) (Nat.le_refl n) id
    exact (judges_expect .rightBracket "]").bind fun _ => judges_pure _
  · contradiction

theorem judges_postfixRest (h : Judges inner 1 short n) (target : Expr) :
    Judges (postfixRest inner target) 0 short n := by
  induction n generalizing target with
  | zero => exact judges_zero _
  | succ n ih =>
    intro s hs hlength
    by_cases hopens : s.peek.lexeme.opensSuffix = true ∧ s.peek.span.line = s.line
    · obtain ⟨step, hstep⟩ : ∃ step, suffix? inner target s.peek = some step := by
        refine Option.ne_none_iff_exists'.mp fun hnone => ?_
        exact absurd hopens.1 (by simp [suffix?_eq_none_iff.mp hnone])
      have hne : s.peek.lexeme ≠ .endOfInput := by
        intro hl
        simp [hl, Lexeme.opensSuffix] at hopens
      have hgoes : Verdict (take >>= fun _ => step) 2 0 short s :=
        (verdict_take hs hne).bind hs
          (fun _ t ht _ => judges_suffix h hstep t ht (by omega)) (Nat.zero_le 1)
      have hline {t : Cursor} (ht : s.Similar t) : t.peek.span.line = t.line := by
        rw [ht.peek, ht.line, hopens.2]
      refine (hgoes.follow hs (m := 0) (k := fun e => postfixRest inner e)
        (fun t halt ht hr => ?_) (fun t e u ht hr hlt => ?_) (fun e t ht hlt => ?_)
        (Nat.zero_le 2)).mono (Nat.zero_le 2) (Nat.le_refl 0) id
      · have hr : step t.next = .error halt := hr
        rw [postfixRest, if_neg (not_not_intro (hline ht)), ht.peek, hstep]
        dsimp only
        rw [hr]
      · exact postfixRest_step (hline ht) (ht.peek ▸ hstep) hr (by omega)
      · exact ih (h.mono (Nat.le_refl 1) (Nat.le_succ n) id) _ t ht (by omega)
    · exact (verdict_pure hs target).congr hs (Nat.le_refl 0) fun t ht =>
        postfixRest_stop inner target (by rwa [ht.peek, ht.line])

/-- Whether something can be assigned to an expression does not depend on the value. -/
theorem assign?_cases (target : Expr) (span : Span) :
    (∃ build : Expr → Stmt, ∀ value, assign? target value span = some (build value)) ∨
      ∀ value, assign? target value span = none := by
  cases target with
  | «variable» name _ => exact .inl ⟨_, fun _ => rfl⟩
  | index container index _ => exact .inl ⟨_, fun _ => rfl⟩
  | _ => exact .inr fun _ => rfl

/-- A sign of assignment behind an expression to which nothing can be assigned is blamed once the
value has been read, and would be blamed behind any value. -/
theorem judgesFirmly_expressionOrAssignment (h : JudgesFirmly inner short n) (span : Span) :
    JudgesFirmly (expressionOrAssignment inner span) short n := by
  refine h.bind fun target s hs hlength => ?_
  by_cases hat : s.at? (.symbol .equals) = true
  · have hne : s.peek.lexeme ≠ .endOfInput := by simp [of_decide_eq_true hat]
    have hvalue : Verdict (take >>= fun _ => inner) 2 0 short s :=
      (verdict_take hs hne).bind hs (fun _ t ht _ => h.judges t ht (by omega)) (Nat.zero_le 1)
    rcases assign?_cases target span with ⟨build, hbuild⟩ | hnone
    · refine ((hvalue.bind hs (f := fun value => pure (build value))
        (fun value t ht _ => verdict_pure ht _) (Nat.zero_le 2)).congr hs (Nat.zero_le 2)
        fun t ht => ?_).mono (Nat.zero_le 2) (Nat.le_refl 0) id
      change (accept (.symbol .equals) >>= fun found => if found then _ else _ : Parser Stmt) t = _
      rw [accept_bind, if_pos ((ht.at? _).trans hat)]
      simp only [hbuild]
      rfl
    · refine (verdict_doomed hs hvalue .invalidTarget).congr hs (Nat.le_refl 0) fun t ht => ?_
      change (accept (.symbol .equals) >>= fun found => if found then _ else _ : Parser Stmt) t = _
      rw [accept_bind, if_pos ((ht.at? _).trans hat), ← ht.peek]
      simp only [hnone]
      rfl
  · refine (verdict_pure hs (.expression target span)).congr hs (Nat.le_refl 0) fun t ht => ?_
    change (accept (.symbol .equals) >>= fun found => if found then _ else _ : Parser Stmt) t = _
    rw [accept_bind, if_neg (ht.at? _ ▸ hat)]
    rfl

theorem judges_binding (h : Judges inner 1 short n) : Judges (binding inner) 1 short n := by
  refine judges_identifier_bind fun r => ?_
  refine ((judges_expect .equals "=").bind (m := 0) fun _ => ?_).mono (Nat.zero_le 1)
    (Nat.le_refl _) id
  exact judges_return (h.mono (Nat.zero_le 1) (by omega) id) _

theorem judges_alternative {branch : Span → Parser Stmt} {body : Parser (List Stmt)}
    (hbranch : ∀ span, Judges (branch span) 0 short n) (hbody : Judges body 0 short n) :
    Judges (alternative branch body) 0 short n := by
  refine (judges_accept (l := .symbol .else) (by simp)).bind (m := 0) fun found => ?_
  cases found with
  | false => exact judges_pure _
  | true =>
    intro s hs hlength
    refine Verdict.congr hs (q := accept (.symbol .if) >>= fun found =>
      if found then branch s.peek.span >>= fun x => pure (some [x])
      else body >>= fun x => pure (some x)) ?_ (Nat.le_refl 0) fun t ht => ?_
    · refine (judges_accept (l := .symbol .if) (by simp)).bind (m := 0) (fun found => ?_)
        s hs hlength
      cases found with
      | true => exact judges_return (hbranch _) _
      | false => exact judges_return hbody _
    · rw [← ht.peek]
      rfl

/-! ## One depth -/

/-- There are verdicts on everything that is parsed under a bound. The bound is too small only if it
is less than three times the number of tokens that are left, and a little. -/
structure JudgesAt (depth : ℕ) : Prop where
  expression : ∀ n, JudgesFirmly (expression depth) (depth < 3 * n) n
  unary : ∀ n, JudgesFirmly (unary depth) (depth + 1 < 3 * n) n
  primary : ∀ n, JudgesFirmly (primary depth) (depth + 2 < 3 * n) n
  block : ∀ n, Judges (block depth) 1 (depth < 3 * n) n
  functionRest : ∀ n exported span, Judges (functionRest depth exported span) 1 (depth < 3 * n) n
  branchRest : ∀ n span, Judges (branchRest depth span) 1 (depth < 3 * n + 1) n
  bareStatement : ∀ n, Judges (bareStatement depth) 1 (depth < 3 * n + 1) n
  statement : ∀ n, Judges (statement depth) 1 (depth < 3 * n + 2) n

namespace JudgesAt

variable {depth : ℕ}

theorem zero : JudgesAt 0 where
  expression _ _ hs hlength := verdict_tooDeep hs hlength (by omega)
  unary _ _ hs hlength := verdict_tooDeep hs hlength (by omega)
  primary _ _ hs hlength := verdict_tooDeep hs hlength (by omega)
  block _ _ hs hlength := verdict_tooDeep hs hlength (by omega)
  functionRest _ _ _ _ hs hlength := verdict_tooDeep hs hlength (by omega)
  branchRest _ _ _ hs hlength := verdict_tooDeep hs hlength (by omega)
  bareStatement _ _ hs hlength := verdict_tooDeep hs hlength (by omega)
  statement _ _ hs hlength := verdict_tooDeep hs hlength (by omega)

theorem unary_succ (ih : JudgesAt depth) (n : ℕ) :
    JudgesFirmly (Parser.unary (depth + 1)) (depth + 1 + 1 < 3 * n) n := by
  intro s hs hlength
  refine verdict_peek hs (firm_le s) ?_
  split
  · next op hop =>
    have hne : s.peek.lexeme ≠ .endOfInput := by
      intro hl
      simp [hl, unaryOf?] at hop
    exact verdict_pass hs hlength hne (firm_le s)
      (judges_return ((ih.unary (n - 1)).judges.weaken (by omega)) _)
  · have hoperand : JudgesFirmly (Parser.primary depth) (depth + 1 + 1 < 3 * n) n :=
      (ih.primary n).mono (Nat.le_refl n) (by omega)
    have hinner : Judges (Parser.expression depth) 1 (depth + 1 + 1 < 3 * n) (n - 1) :=
      (ih.expression (n - 1)).judges.mono (Nat.le_refl 1) (Nat.le_refl _) (by omega)
    exact hoperand.bind (judges_postfixRest hinner) s hs hlength

theorem primary_succ (ih : JudgesAt depth) (n : ℕ) :
    JudgesFirmly (Parser.primary (depth + 1)) (depth + 1 + 2 < 3 * n) n := by
  intro s hs hlength
  have hinner : Judges (Parser.expression depth) 1 (depth + 1 + 2 < 3 * n) (n - 1) :=
    (ih.expression (n - 1)).judges.mono (Nat.le_refl 1) (Nat.le_refl _) (by omega)
  have hbody : Judges (Parser.block depth) 0 (depth + 1 + 2 < 3 * n) (n - 1 - 2) :=
    (ih.block (n - 1 - 2)).weaken (by omega)
  refine verdict_take_bind hs ?_
  split
  · next hl => exact .goes (by simp [hl]) fun t ht _ => verdict_pure ht _
  · next hl => exact .goes (by simp [hl]) fun t ht _ => verdict_pure ht _
  · next hl => exact .goes (by simp [hl]) fun t ht _ => verdict_pure ht _
  · next hl => exact .goes (by simp [hl]) fun t ht _ => verdict_pure ht _
  · next hl => exact .goes (by simp [hl]) fun t ht _ => verdict_pure ht _
  · next hl => exact .goes (by simp [hl]) fun t ht _ => verdict_pure ht _
  · next hl =>
    have hgroup := hinner.bind fun e =>
      (judges_expect .rightParen ")").bind fun _ => judges_pure (Expr.grouping e s.peek.span)
    exact .goes (by simp [hl]) fun t ht _ => hgroup.weaken id t ht (by omega)
  · next hl =>
    have hitems := judges_return (judges_items (fun _ => hinner) .rightBracket "]")
      (Expr.array · s.peek.span)
    exact .goes (by simp [hl]) fun t ht _ => hitems.weaken id t ht (by omega)
  · next hl =>
    have hfunction := judges_parameters.bind fun names =>
      judges_return hbody (Expr.function names · s.peek.span)
    exact .goes (by simp [hl]) fun t ht _ => hfunction.weaken id t ht (by omega)
  · next hfn => exact .fails _ rfl hfn

theorem block_succ (ih : JudgesAt depth) (n : ℕ) :
    Judges (Parser.block (depth + 1)) 1 (depth + 1 < 3 * n) n := by
  cases n with
  | zero => exact judges_zero _
  | succ n =>
    refine (judges_expect .leftBrace "\x7b").bind (m := 0) fun _ => ?_
    have hstatements : Judges (many (· = .symbol .rightBrace) (Parser.statement depth)) 0
        (depth + 1 < 3 * (n + 1)) n :=
      judges_many ((ih.statement n).mono (Nat.le_refl 1) (Nat.le_refl n) (by omega)) _
    exact (hstatements.bind fun body =>
      (judges_expect .rightBrace "\x7d").bind fun _ => judges_pure body).weaken id

theorem functionRest_succ (ih : JudgesAt depth) (n : ℕ) (exported : Bool) (span : Span) :
    Judges (Parser.functionRest (depth + 1) exported span) 1 (depth + 1 < 3 * n) n := by
  refine judges_identifier_bind fun r => ?_
  have hbody : Judges (Parser.block depth) 0 (depth + 1 < 3 * n) (n - 1 - 2) :=
    (ih.block (n - 1 - 2)).weaken (by omega)
  exact (judges_parameters.bind fun names => judges_return hbody _).weaken id

theorem branchRest_succ (ih : JudgesAt depth) (n : ℕ) (span : Span) :
    Judges (Parser.branchRest (depth + 1) span) 1 (depth + 1 < 3 * n + 1) n := by
  cases n with
  | zero => exact judges_zero _
  | succ n =>
    have hcondition : Judges (Parser.expression depth) 1 (depth + 1 < 3 * (n + 1) + 1) (n + 1) :=
      (ih.expression (n + 1)).judges.mono (Nat.le_refl 1) (Nat.le_refl _) (by omega)
    have hblock : Judges (Parser.block depth) 0 (depth + 1 < 3 * (n + 1) + 1) n :=
      (ih.block n).weaken (by omega)
    have hbranch (span : Span) :
        Judges (Parser.branchRest depth span) 0 (depth + 1 < 3 * (n + 1) + 1) n :=
      (ih.branchRest n span).weaken (by omega)
    refine hcondition.bind (m := 0) fun condition => hblock.bind (m := 0) fun consequent => ?_
    exact judges_return (judges_alternative hbranch hblock) _

theorem bareStatement_succ (ih : JudgesAt depth) (n : ℕ) :
    Judges (Parser.bareStatement (depth + 1)) 1 (depth + 1 < 3 * n + 1) n := by
  intro s hs hlength
  have hpos : 1 ≤ n := Nat.le_trans (List.length_pos_iff.mpr hs.ne_nil) hlength
  have hvalue : Judges (Parser.expression depth) 1 (depth + 1 < 3 * n + 1) (n - 1) :=
    (ih.expression (n - 1)).judges.mono (Nat.le_refl 1) (Nat.le_refl _) (by omega)
  have hbinding := judges_binding hvalue
  have hfunction (exported : Bool) (span : Span) :
      Judges (Parser.functionRest depth exported span) 0 (depth + 1 < 3 * n + 1) (n - 1) :=
    (ih.functionRest (n - 1) exported span).weaken (by omega)
  refine verdict_peek hs (Nat.zero_le 1) ?_
  split
  · next hl =>
    refine verdict_pass hs hlength (by simp [hl]) (Nat.zero_le 1) ?_
    refine (judges_accept (l := .symbol .fn) (by simp)).bind (m := 0) fun found => ?_
    cases found with
    | true => exact hfunction true s.peek.span
    | false => exact (judges_return hbinding _).weaken id
  · next hl =>
    exact verdict_pass hs hlength (by simp [hl]) (Nat.zero_le 1)
      ((judges_return hbinding _).weaken id)
  · next hl =>
    exact verdict_pass hs hlength (by simp [hl]) (Nat.zero_le 1)
      ((ih.branchRest (n - 1) s.peek.span).weaken (by omega))
  · next hl =>
    exact verdict_pass hs hlength (by simp [hl]) (Nat.zero_le 1)
      (judges_return ((ih.block (n - 1)).weaken (by omega)) _)
  · next hl => exact verdict_pass hs hlength (by simp [hl]) (Nat.zero_le 1) (judges_pure _)
  · next hl =>
    refine verdict_pass hs hlength (by simp [hl]) (Nat.zero_le 1) (judges_peek_bind fun t => ?_)
    split
    · exact judges_pure _
    · exact judges_pure _
    · exact judges_pure _
    · exact (judges_return hvalue _).weaken id
  · refine verdict_declaration hs hlength (hfunction false s.peek.span)
      (judgesFirmly_expressionOrAssignment ((ih.expression n).mono (Nat.le_refl n) (by omega))
        s.peek.span) (fun t ht hfn name hname => ?_) fun t ht hother => ?_
    · rw [get_bind, hfn, hname]
      rfl
    · rw [get_bind]
      refine congrFun ?_ t
      split
      · next hfn hname => exact absurd hname (hother hfn _)
      · rfl

theorem statement_succ (ih : JudgesAt depth) (n : ℕ) :
    Judges (Parser.statement (depth + 1)) 1 (depth + 1 < 3 * n + 2) n := by
  have hbare : Judges (Parser.bareStatement depth) 1 (depth + 1 < 3 * n + 2) n :=
    (ih.bareStatement n).mono (Nat.le_refl 1) (Nat.le_refl n) (by omega)
  have hsemicolon :
      Judges (discard (accept (.symbol .semicolon))) 0 (depth + 1 < 3 * n + 2) (n - 1) :=
    (judges_accept (by simp)).bind (m := 0) fun _ => judges_pure _
  exact hbare.bind (m := 0) fun x => hsemicolon.bind fun _ => judges_pure x

end JudgesAt

/-! ## All depths -/

theorem judgesAt (depth : ℕ) : JudgesAt depth := by
  induction depth with
  | zero => exact .zero
  | succ depth ih =>
    exact
      { expression := fun n => judgesFirmly_levels ((ih.unary n).mono (Nat.le_refl n) (by omega))
        unary := ih.unary_succ
        primary := ih.primary_succ
        block := ih.block_succ
        functionRest := ih.functionRest_succ
        branchRest := ih.branchRest_succ
        bareStatement := ih.bareStatement_succ
        statement := ih.statement_succ }

theorem verdict_program {tokens : List Token} (h : Token.Ended tokens) (depth : ℕ) :
    Verdict (many (fun _ => false) (statement depth)) 0 0 (depth < 3 * tokens.length + 2)
      ⟨0, tokens⟩ :=
  judges_many ((judgesAt depth).statement tokens.length) _ ⟨0, tokens⟩ h (Nat.le_refl _)

end Parser

end HostScript
