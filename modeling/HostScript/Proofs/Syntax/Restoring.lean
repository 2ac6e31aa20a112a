import HostScript.Proofs.Syntax.Reading

/-!
# Restoring lists, operators and suffixes

The repetitions of the parser restore what they have spelled if the procedures that they repeat do
so. What may follow an operand and what may follow a whole chain differ by the operators of the
chain: `F` is the first, and the second excludes the operators as well.
-/

namespace HostScript

namespace Parser

variable {α β : Type} {F : Lexeme → Prop}

/-! ## Repetitions -/

/-- Operators that stand between two expressions, with `F` for what may follow an operand. -/
structure Between (build? : Token → Option (Expr → Expr → Expr)) (F : Lexeme → Prop) : Prop where
  spell : ∀ {t build}, build? t = some build → ∀ left right,
    (build left right).spell = left.spell ++ t.lexeme :: right.spell
  again : ∀ {t build}, build? t = some build → ∀ t', t'.lexeme = t.lexeme →
    ∃ build', build? t' = some build' ∧ ∀ left left' right right' : Expr,
      left'.bare = left.bare → right'.bare = right.bare →
      (build' left' right').bare = (build left right).bare
  follow : ∀ {t build}, build? t = some build → F t.lexeme
  isToken : ∀ {t build}, build? t = some build → t.lexeme ≠ .endOfInput

theorem chainRest_restores {build? : Token → Option (Expr → Expr → Expr)}
    {operand operand' : Parser Expr} (hb : Between build? F)
    (ho : Restores operand operand' Expr.spell Expr.bare F) {left e : Expr} {s t : Cursor}
    (h : chainRest build? operand left s = .ok (e, t)) :
    ∃ ls, e.spell = left.spell ++ ls ∧ s.Reads ls t ∧ (∀ l, F l → F (ls.headD l)) ∧
      ∀ n left', left'.bare = left.bare →
        Rereads n (chainRest build? operand' left') ls
          (fun l => F l ∧ ∀ span, build? ⟨l, span⟩ = none) fun e' => e'.bare = e.bare := by
  fun_induction chainRest build? operand left s with
  | case1 left s hnone =>
    obtain ⟨rfl, rfl⟩ := Prod.mk.inj (Except.ok.inj h)
    refine ⟨[], by simp, .refl _, fun l hl => hl, fun n left' hleft => ?_⟩
    intro s l follow hs hl
    refine ⟨left', s, ?_, hleft, hs, fun hline => hline.resolve_right fun hne => hne rfl⟩
    have hpeek : s.peek = ⟨l, s.peek.span⟩ := by rw [← hs.peek.1]
    rw [chainRest, hpeek, hl.2]
  | case2 => contradiction
  | case3 left s build hbuild right u hr hlt ih =>
    obtain ⟨ls, hspell, hreads, hhead, hagain⟩ := ih h
    obtain ⟨hright, hright'⟩ := ho _ _ _ hr
    refine ⟨s.peek.lexeme :: (right.spell ++ ls), ?_, ?_, fun _ _ => hb.follow hbuild, ?_⟩
    · rw [hspell, hb.spell hbuild, List.append_assoc, List.cons_append]
    · exact .cons rfl (hb.isToken hbuild) (hright.trans hreads)
    · intro n left' hleft s' l follow hs hl
      obtain ⟨build', hbuild', hbare⟩ := hb.again hbuild s'.peek hs.peek.1
      rw [List.cons_append, List.append_assoc] at hs
      obtain ⟨hnext, hline⟩ := hs.next (hb.isToken hbuild)
      obtain ⟨right', u', hr', hbright, hu', hline'⟩ := (hright' n).run hnext (hhead l hl.1)
      have hlt' : u'.rest.length < s'.rest.length := by
        rw [hs.length, hu'.length]
        simp only [List.length_append, List.length_cons]
        omega
      obtain ⟨e', t', hr'', he', ht', hline''⟩ :=
        hagain n _ (hbare left left' right right' hleft hbright) u' l follow hu' hl
      refine ⟨e', t', ?_, he', ht', fun _ => hline'' (.inl (hline' (.inl hline)))⟩
      rw [chainRest, hbuild', hr', ← hr'']
      exact if_pos hlt'
  | case4 => contradiction

theorem chain_restores {build? : Token → Option (Expr → Expr → Expr)}
    {operand operand' : Parser Expr} (hb : Between build? F)
    (ho : Restores operand operand' Expr.spell Expr.bare F) :
    Restores (chain build? operand) (chain build? operand') Expr.spell Expr.bare
      fun l => F l ∧ ∀ span, build? ⟨l, span⟩ = none := by
  intro s e t h
  obtain ⟨left, u, hr, h⟩ := yields_bind.mp h
  obtain ⟨hleft, hleft'⟩ := ho _ _ _ hr
  obtain ⟨ls, hspell, hreads, hhead, hagain⟩ := chainRest_restores hb ho h
  rw [hspell]
  refine ⟨hleft.trans hreads, fun n => ?_⟩
  exact rereads_bind (hleft' n) (fun left' hl => hagain n left' hl) fun l hl => hhead l hl.1

theorem separated_restores {item item' : List α → Parser α} {spell : α → List Lexeme}
    {view : α → β} (hi : ∀ seen seen', seen'.map view = seen.map view →
      Restores (item seen) (item' seen') spell view F) (hcomma : F (.symbol .comma))
    {seen xs : List α} {s t : Cursor} (h : separated item seen s = .ok (xs, t)) :
    ∃ ys, ys ≠ [] ∧ xs = seen ++ ys ∧ s.Reads (commas (ys.map spell)) t ∧
      ∀ n seen', seen'.map view = seen.map view →
        Rereads n (separated item' seen') (commas (ys.map spell))
          (fun l => F l ∧ l ≠ .symbol .comma) fun xs' => xs'.map view = xs.map view := by
  have hmore {seen seen' : List α} {x x' : α} (hseen : seen'.map view = seen.map view)
      (hx : view x' = view x) : (seen' ++ [x']).map view = (seen ++ [x]).map view := by
    simp [hseen, hx]
  fun_induction separated item seen s with
  | case1 => contradiction
  | case2 seen s x u hr hat hlt ih =>
    obtain ⟨ys, hys, rfl, hreads, hagain⟩ := ih h
    have hu : u.peek.lexeme = .symbol .comma := by simpa [Cursor.at?] using hat
    have hspell : commas ((x :: ys).map spell) =
        spell x ++ .symbol .comma :: commas (ys.map spell) := by
      obtain ⟨y, rest, rfl⟩ := List.exists_cons_of_ne_nil hys
      simp
    rw [← List.append_cons] at hagain ⊢
    refine ⟨x :: ys, List.cons_ne_nil x ys, rfl, ?_, fun n seen' hseen => ?_⟩
    · rw [hspell]
      exact (hi seen seen rfl _ _ _ hr).1.trans (.cons hu (by simp) hreads)
    · intro s' l follow hs hl
      rw [hspell, List.append_assoc] at hs
      obtain ⟨x', u', hr', hx', hu', -⟩ :=
        ((hi seen seen' hseen _ _ _ hr).2 n).run hs (by simpa using hcomma)
      obtain ⟨hnext, hline⟩ := hu'.next (by simp)
      have hat' : u'.at? (.symbol .comma) := by simp [Cursor.at?, hu'.peek.1]
      have hlt' : u'.next.rest.length < s'.rest.length := by
        rw [hs.length, hnext.length]
        simp only [List.append_eq, List.length_append, List.length_cons]
        omega
      obtain ⟨xs', t', hr'', hxs', ht', hline'⟩ := hagain n _ (hmore hseen hx') _ l follow hnext hl
      refine ⟨xs', t', ?_, hxs', ht', fun _ => hline' (.inl hline)⟩
      rw [separated, hr', ← hr'']
      exact (if_pos hat').trans (if_pos hlt')
  | case3 => contradiction
  | case4 seen s x u hr hat =>
    obtain ⟨rfl, rfl⟩ := Prod.mk.inj (Except.ok.inj h)
    obtain ⟨hreads, -⟩ := hi seen seen rfl _ _ _ hr
    refine ⟨[x], List.cons_ne_nil x [], rfl, by simpa using hreads, fun n seen' hseen => ?_⟩
    intro s' l follow hs hl
    obtain ⟨x', t', hr', hx', ht', hline⟩ :=
      (hi seen seen' hseen _ _ _ hr).2 n s' l follow (by simpa using hs) hl.1
    have hat' : ¬ t'.at? (.symbol .comma) := by simpa [Cursor.at?, ht'.peek.1] using hl.2
    refine ⟨seen' ++ [x'], t', ?_, hmore hseen hx', ht', by simpa using hline⟩
    rw [separated, hr']
    exact if_neg hat'

/-- Items with commas between them and the symbol that closes them. -/
def spellItems (spell : α → List Lexeme) (closing : Symbol) (xs : List α) : List Lexeme :=
  commas (xs.map spell) ++ [.symbol closing]

theorem commas_head {spell : α → List Lexeme} {closing : Symbol}
    (hhead : ∀ x, ∃ l rest, spell x = l :: rest ∧ l ≠ .symbol closing) {xs : List α}
    (hne : xs ≠ []) (more : List Lexeme) :
    ∃ l rest, commas (xs.map spell) ++ more = l :: rest ∧ l ≠ .symbol closing := by
  obtain ⟨x, xs, rfl⟩ := List.exists_cons_of_ne_nil hne
  obtain ⟨l, rest, hx, hl⟩ := hhead x
  cases xs with
  | nil => exact ⟨l, rest ++ more, by simp [hx], hl⟩
  | cons y ys => exact ⟨l, rest ++ .symbol .comma :: (commas ((y :: ys).map spell) ++ more),
      by simp [hx], hl⟩

theorem items_restores {item item' : List α → Parser α} {spell : α → List Lexeme} {view : α → β}
    (hi : ∀ seen seen', seen'.map view = seen.map view →
      Restores (item seen) (item' seen') spell view F) (hcomma : F (.symbol .comma))
    {closing : Symbol} {wanted : String} (hclosing : F (.symbol closing)) (hne : closing ≠ .comma)
    (hhead : ∀ x, ∃ l rest, spell x = l :: rest ∧ l ≠ .symbol closing) :
    Restores (items item closing wanted) (items item' closing wanted) (spellItems spell closing)
      (List.map view) fun _ => True := by
  intro s xs t h
  replace h := yields_get_bind.mp h
  have hclose {n : Nat} {xs' : List α} (hxs : xs'.map view = xs.map view) :
      Rereads n (do expect closing wanted; return xs' : Parser (List α)) [.symbol closing]
        (fun _ => True) fun xs' => xs'.map view = xs.map view :=
    rereads_cons (rereads_expect closing wanted) fun _ _ => rereads_pure hxs
  dsimp only at h
  split at h
  · obtain ⟨found, u, hr, h⟩ := yields_bind.mp h
    obtain ⟨rfl, rfl⟩ := yields_pure.mp hr
    obtain ⟨hl, hpure⟩ := yields_expect_bind.mp h
    obtain ⟨rfl, rfl⟩ := yields_pure.mp hpure
    refine ⟨.next hl (by simp), fun n => rereads_get fun s' l follow hs _ => ?_⟩
    have hat : s'.at? (.symbol closing) := by simp [Cursor.at?, hs.peek.1]
    dsimp only
    rw [if_pos hat]
    have hnone : Rereads n (pure []) [] (fun _ => True) fun found : List α => found = [] :=
      rereads_pure rfl
    refine rereads_skip hnone (fun found hfound => ?_) fun _ _ => trivial
    subst hfound
    exact hclose rfl
  · obtain ⟨found, u, hr, h⟩ := yields_bind.mp h
    obtain ⟨hl, hpure⟩ := yields_expect_bind.mp h
    obtain ⟨rfl, rfl⟩ := yields_pure.mp hpure
    obtain ⟨ys, hys, rfl, hreads, hagain⟩ := separated_restores hi hcomma hr
    refine ⟨hreads.trans (.next hl (by simp)), fun n => rereads_get fun s' l follow hs _ => ?_⟩
    obtain ⟨first, rest, hfirst, hother⟩ := commas_head hhead hys [.symbol closing]
    rw [spellItems, hfirst] at hs
    have hat : ¬ s'.at? (.symbol closing) := by simpa [Cursor.at?, hs.peek.1] using hother
    dsimp only
    rw [if_neg hat]
    refine rereads_bind (hagain n [] rfl) (fun xs' hxs => hclose hxs) fun _ _ => ?_
    exact ⟨hclosing, by simpa using hne⟩

theorem parameter_restores {seen seen' : List Name} (hseen : seen'.map id = seen.map id) :
    Restores (parameter seen) (parameter seen') (fun name => [.identifier name]) id
      fun _ => True := by
  rw [List.map_id, List.map_id] at hseen
  subst hseen
  intro s name t h
  obtain ⟨found, hl, h⟩ := yields_identifier_bind.mp h
  dsimp only at h
  split at h
  · contradiction
  · next hnew =>
    obtain ⟨rfl, rfl⟩ := yields_pure.mp h
    refine ⟨.next hl (by simp), fun n => ?_⟩
    refine rereads_cons (rereads_identifier found) fun r hname => ?_
    obtain ⟨_, span'⟩ := r
    obtain rfl : _ = found := hname
    dsimp only
    rw [if_neg hnew]
    exact rereads_pure rfl

theorem parameters_restores :
    Restores parameters parameters spellParameters id fun _ => True := by
  intro s names t h
  obtain ⟨hl, hr⟩ := yields_expect_bind.mp h
  obtain ⟨hreads, hagain⟩ := items_restores (fun _ _ => parameter_restores) trivial trivial
    (by simp) (fun name => ⟨_, [], rfl, by simp⟩) _ _ _ hr
  refine ⟨.cons hl (by simp) hreads, fun n => ?_⟩
  refine rereads_cons (rereads_expect _ _) fun _ _ => ?_
  refine (hagain n).mono (fun _ _ => trivial) fun names' hnames => ?_
  simpa using hnames

/-- What may follow the statements of a block. -/
def EndsBlock (stop : Lexeme → Bool) (l : Lexeme) : Prop := stop l ∨ l = .endOfInput

theorem rereads_many_nil {n : Nat} {stop : Lexeme → Bool} {item : Parser Stmt} :
    Rereads n (many stop item) (spellBlock []) (EndsBlock stop) fun body =>
      bareBlock body = bareBlock [] := by
  intro s l follow hs hl
  rw [spellBlock, List.nil_append] at hs
  refine ⟨[], s, ?_, rfl, hs, fun hline => hline.resolve_right fun hne => hne rfl⟩
  rw [many]
  exact if_pos (by simpa [Cursor.at?, hs.peek.1, EndsBlock] using hl)

theorem rereads_many_cons {n : Nat} {stop : Lexeme → Bool} {item : Parser Stmt} {x : Stmt}
    {body : List Stmt} (hgo : ∀ first rest, x.spell = first :: rest → ¬ EndsBlock stop first)
    (hx : Rereads n item (x.spell ++ [.symbol .semicolon]) (fun _ => True) fun x' =>
      x'.bare = x.bare)
    (hbody : Rereads n (many stop item) (spellBlock body) (EndsBlock stop) fun body' =>
      bareBlock body' = bareBlock body) :
    Rereads n (many stop item) (spellBlock (x :: body)) (EndsBlock stop) fun body' =>
      bareBlock body' = bareBlock (x :: body) := by
  intro s l follow hs hl
  have hspell : spellBlock (x :: body) = (x.spell ++ [.symbol .semicolon]) ++ spellBlock body := by
    rw [spellBlock, List.append_assoc]
    rfl
  rw [hspell] at hs ⊢
  obtain ⟨first, rest, hfirst, -⟩ := x.exists_spell_cons
  have hpeek : s.peek.lexeme = first := by
    rw [hfirst] at hs
    exact hs.peek.1
  rw [List.append_assoc] at hs
  obtain ⟨x', t, hr, hx', ht, hline⟩ := hx.run hs trivial
  obtain ⟨body', u, hr', hbody', hu, hline'⟩ := hbody t l follow ht hl
  have hlt : t.rest.length < s.rest.length := by
    rw [hs.length, ht.length]
    simp only [List.length_append, List.length_cons]
    omega
  refine ⟨x' :: body', u, ?_, ?_, hu, fun _ => hline' (.inl (hline (.inr ?_)))⟩
  · have hat : ¬ (stop s.peek.lexeme || s.at? .endOfInput) := by
      simpa [hpeek, Cursor.at?, EndsBlock] using hgo first rest hfirst
    rw [many, if_neg hat, hr]
    dsimp only
    rw [if_pos hlt, hr']
    rfl
  · simp only [bareBlock, hx', hbody']
  · simp

theorem many_restores {stop : Lexeme → Bool} {item item' : Parser Stmt}
    (hi : Restores item item' (fun x => x.spell ++ [.symbol .semicolon]) Stmt.bare fun _ => True)
    (hgo : ∀ (x : Stmt) first rest, x.spell = first :: rest → ¬ EndsBlock stop first)
    {s t : Cursor} {body : List Stmt} (h : many stop item s = .ok (body, t)) :
    s.Reads (spellBlock body) t ∧ EndsBlock stop t.peek.lexeme ∧
      ∀ n, Rereads n (many stop item') (spellBlock body) (EndsBlock stop) fun body' =>
        bareBlock body' = bareBlock body := by
  fun_induction many stop item s generalizing body t with
  | case1 s hdone =>
    obtain ⟨rfl, rfl⟩ := Prod.mk.inj (Except.ok.inj h)
    simp only [Cursor.at?, Bool.or_eq_true, decide_eq_true_eq] at hdone
    refine ⟨?_, hdone, fun n => rereads_many_nil⟩
    rw [spellBlock]
    exact .refl s
  | case2 => contradiction
  | case3 s _ x u hr hlt ih =>
    cases hm : many stop item u with
    | error halt =>
      rw [hm] at h
      contradiction
    | ok r =>
      obtain ⟨xs, v⟩ := r
      rw [hm] at h
      obtain ⟨rfl, rfl⟩ := Prod.mk.inj (Except.ok.inj h)
      obtain ⟨hreads, hagain⟩ := hi _ _ _ hr
      obtain ⟨hreads', hend, hagain'⟩ := ih hm
      refine ⟨?_, hend, fun n => rereads_many_cons (hgo x) (hagain n) (hagain' n)⟩
      rw [spellBlock, List.append_cons]
      exact hreads.trans hreads'
  | case4 => contradiction

/-! ## Operators -/

theorem logicalOf_between {symbol : Symbol} {op : LogicalOp} (hsign : op.sign = symbol)
    (hF : F (.symbol symbol)) : Between (logicalOf symbol op) F := by
  have hsome {t : Token} {build : Expr → Expr → Expr} (h : logicalOf symbol op t = some build) :
      t.lexeme = .symbol symbol ∧ build = fun left right => .logical left op right t.span := by
    unfold logicalOf at h
    split at h
    · next hl => exact ⟨hl, (Option.some.inj h).symm⟩
    · contradiction
  constructor
  case spell =>
    intro t build h left right
    obtain ⟨hl, rfl⟩ := hsome h
    rw [Expr.spell, hsign, hl]
  case again =>
    intro t build h t' ht'
    obtain ⟨hl, rfl⟩ := hsome h
    refine ⟨_, if_pos (ht'.trans hl), fun left left' right right' hleft hright => ?_⟩
    simp only [Expr.bare, hleft, hright]
  case follow =>
    intro t build h
    rw [(hsome h).1]
    exact hF
  case isToken =>
    intro t build h
    simp [(hsome h).1]

theorem binaryOf_between {ops : List (Symbol × BinaryOp)}
    (hops : ∀ p ∈ ops, p.2.sign = p.1 ∧ F (.symbol p.1)) : Between (binaryOf ops) F := by
  have hsome {t : Token} {build : Expr → Expr → Expr} (h : binaryOf ops t = some build) :
      ∃ s op, t.lexeme = .symbol s ∧ ops.lookup s = some op ∧ (op.sign = s ∧ F (.symbol s)) ∧
        build = fun left right => .binary left op right t.span := by
    unfold binaryOf at h
    split at h
    · next s hl =>
      obtain ⟨op, hop, rfl⟩ := Option.map_eq_some_iff.mp h
      obtain ⟨before, after, hmem, -⟩ := List.lookup_eq_some_iff.mp hop
      exact ⟨s, op, hl, hop, hops (s, op) (by simp [hmem]), rfl⟩
    · contradiction
  constructor
  case spell =>
    intro t build h left right
    obtain ⟨s, op, hl, -, ⟨hsign, -⟩, rfl⟩ := hsome h
    rw [Expr.spell, hsign, hl]
  case again =>
    intro t build h t' ht'
    obtain ⟨s, op, hl, hop, -, rfl⟩ := hsome h
    refine ⟨fun left right => .binary left op right t'.span, ?_, ?_⟩
    · rw [binaryOf, ht'.trans hl]
      simp only [hop, Option.map_some]
    · intro left left' right right' hleft hright
      simp only [Expr.bare, hleft, hright]
  case follow =>
    intro t build h
    obtain ⟨s, op, hl, -, ⟨-, hfollow⟩, -⟩ := hsome h
    rwa [hl]
  case isToken =>
    intro t build h
    obtain ⟨s, op, hl, -⟩ := hsome h
    simp [hl]

theorem levels_restores {operand operand' : Parser Expr}
    (ho : Restores operand operand' Expr.spell Expr.bare fun l => l.opensSuffix = false) :
    Restores (levels operand) (levels operand') Expr.spell Expr.bare fun l => l.endsExpr := by
  refine Restores.mono (chain_restores (logicalOf_between rfl ?_) <|
    chain_restores (logicalOf_between rfl ?_) <| chain_restores (binaryOf_between ?_) <|
    chain_restores (binaryOf_between ?_) <| chain_restores (binaryOf_between ?_) <|
    chain_restores (binaryOf_between ?_) ho) ?_
  · simp [Lexeme.opensSuffix, binaryOf, logicalOf]
  · simp [Lexeme.opensSuffix, binaryOf]
  · simp [Lexeme.opensSuffix, binaryOf, BinaryOp.sign]
  · simp [Lexeme.opensSuffix, binaryOf, BinaryOp.sign]
  · simp [Lexeme.opensSuffix, binaryOf, BinaryOp.sign]
  · simp [Lexeme.opensSuffix, BinaryOp.sign]
  · intro l hl
    cases l with
    | symbol s =>
      simp only [Lexeme.endsExpr, List.mem_cons, decide_eq_true_eq] at hl
      rcases hl with rfl | rfl | rfl | rfl | rfl | rfl | hl
      all_goals simp [Lexeme.opensSuffix, binaryOf, logicalOf]
      contradiction
    | number | string | identifier | endOfInput => contradiction

/-! ## Calls and indexes -/

theorem suffix?_restores {inner inner' step : Parser Expr} {target e : Expr} {t : Token}
    {s u : Cursor} (hi : Restores inner inner' Expr.spell Expr.bare fun l => l.endsExpr)
    (hstep : suffix? inner target t = some step) (h : step.Yields s e u) :
    t.lexeme.opensSuffix ∧ ∃ ls, e.spell = target.spell ++ t.lexeme :: ls ∧ s.Reads ls u ∧
      ∀ n target' t', target'.bare = target.bare → t'.lexeme = t.lexeme →
        ∃ step', suffix? inner' target' t' = some step' ∧
          Rereads n step' ls (fun _ => True) fun e' => e'.bare = e.bare := by
  unfold suffix? at hstep
  split at hstep
  · next hl =>
    obtain rfl := Option.some.inj hstep
    obtain ⟨es, hr, rfl⟩ := yields_return.mp h
    obtain ⟨hreads, hagain⟩ := items_restores (fun _ _ _ => hi) rfl rfl (by simp)
      (fun x => x.exists_spell_cons rfl) _ _ _ hr
    rw [hl, Expr.spell, spellExprs_eq_map]
    refine ⟨rfl, _, rfl, hreads, fun n target' t' htarget ht => ⟨_, by rw [suffix?, ht], ?_⟩⟩
    refine rereads_return (hagain n) fun es' hes => ?_
    simp only [Expr.bare, bareExprs_eq_map, htarget, hes]
  · next hl =>
    obtain rfl := Option.some.inj hstep
    obtain ⟨index, v, hr, h⟩ := yields_bind.mp h
    obtain ⟨hclose, h⟩ := yields_expect_bind.mp h
    obtain ⟨rfl, rfl⟩ := yields_pure.mp h
    obtain ⟨hreads, hagain⟩ := hi _ _ _ hr
    rw [hl, Expr.spell]
    refine ⟨rfl, _, rfl, hreads.trans (.next hclose (by simp)), fun n target' t' htarget ht =>
      ⟨_, by rw [suffix?, ht], ?_⟩⟩
    refine rereads_bind (hagain n) (fun index' hindex => ?_) fun _ _ => rfl
    refine rereads_cons (rereads_expect _ _) fun _ _ => rereads_pure ?_
    simp only [Expr.bare, htarget, hindex]
  · contradiction

theorem postfixRest_restores {inner inner' : Parser Expr}
    (hi : Restores inner inner' Expr.spell Expr.bare fun l => l.endsExpr) {target e : Expr}
    {s t : Cursor} (h : postfixRest inner target s = .ok (e, t)) :
    ∃ ls, e.spell = target.spell ++ ls ∧ s.Reads ls t ∧
      ∀ n target', target'.bare = target.bare →
        RereadsOn n (postfixRest inner' target') ls (fun l => l.opensSuffix = false)
          fun e' => e'.bare = e.bare := by
  have hdone (target : Expr) (s : Cursor) :
      ∃ ls, target.spell = target.spell ++ ls ∧ s.Reads ls s ∧
        ∀ n target', target'.bare = target.bare →
          RereadsOn n (postfixRest inner' target') ls (fun l => l.opensSuffix = false)
            fun e' => e'.bare = target.bare := by
    refine ⟨[], by simp, .refl s, fun n target' htarget s' l follow hline hs hl => ?_⟩
    refine ⟨target', s', ?_, htarget, hs, hline⟩
    have hnone : suffix? inner' target' s'.peek = none :=
      suffix?_eq_none_iff.mpr (hs.peek.1 ▸ hl)
    rw [postfixRest, hnone]
    split <;> rfl
  fun_induction postfixRest inner target s with
  | case1 target s hline =>
    obtain ⟨rfl, rfl⟩ := Prod.mk.inj (Except.ok.inj h)
    exact hdone _ _
  | case2 target s hline hnone =>
    obtain ⟨rfl, rfl⟩ := Prod.mk.inj (Except.ok.inj h)
    exact hdone _ _
  | case3 => contradiction
  | case4 target s hline step hstep e₁ u hr hlt ih =>
    obtain ⟨hopens, ls, hspell, hreads, hagain'⟩ := suffix?_restores hi hstep hr
    have hend : s.peek.lexeme ≠ .endOfInput := by
      intro heq
      simp [heq, Lexeme.opensSuffix] at hopens
    obtain ⟨ls', hspell', hreads', hagain⟩ := ih h
    refine ⟨s.peek.lexeme :: (ls ++ ls'), ?_, .cons rfl hend (hreads.trans hreads'), ?_⟩
    · rw [hspell', hspell, List.append_assoc, List.cons_append]
    · intro n target' htarget s' l follow hline hs hl
      rw [List.cons_append, List.append_assoc] at hs
      obtain ⟨step', hstep', hagain₁⟩ := hagain' n target' s'.peek htarget hs.peek.1
      obtain ⟨hnext, hlinenext⟩ := hs.next hend
      obtain ⟨e', u', hr', he', hu', hlineu⟩ := hagain₁.run hnext trivial
      have hlt' : u'.rest.length < s'.rest.length := by
        rw [hs.length, hu'.length]
        simp only [List.length_append, List.length_cons]
        omega
      obtain ⟨e₂, t', hr'', he₂, ht', hlinet⟩ :=
        hagain n e' he' u' l follow (hlineu (.inl hlinenext)) hu' hl
      refine ⟨e₂, t', ?_, he₂, ht', hlinet⟩
      have hsame : ¬ s'.peek.span.line ≠ s'.line := by
        rw [hs.peek.2, hline]
        exact fun hne => hne rfl
      rw [postfixRest, if_neg hsame, hstep']
      dsimp only
      rw [hr', ← hr'']
      exact if_pos hlt'
  | case5 => contradiction

/-! ## Bindings and assignments -/

theorem binding_restores {inner inner' : Parser Expr}
    (hi : Restores inner inner' Expr.spell Expr.bare fun l => l.endsExpr) :
    Restores (binding inner) (binding inner')
      (fun r => .identifier r.1 :: .symbol .equals :: r.2.spell) (fun r => (r.1, r.2.bare))
      fun l => l.endsExpr := by
  intro s r t h
  obtain ⟨name, hname, h⟩ := yields_identifier_bind.mp h
  obtain ⟨hequals, h⟩ := yields_expect_bind.mp h
  obtain ⟨e, hr, rfl⟩ := yields_return.mp h
  obtain ⟨hreads, hagain⟩ := hi _ _ _ hr
  refine ⟨.cons hname nofun (.cons hequals nofun hreads), fun n => ?_⟩
  refine rereads_cons (rereads_identifier name) fun r hr' => ?_
  obtain ⟨_, span⟩ := r
  obtain rfl : _ = name := hr'
  refine rereads_cons (rereads_expect _ _) fun _ _ => ?_
  exact rereads_return (hagain n) fun e' he => Prod.ext rfl he

theorem variable_of_bare {e : Expr} {name : Name} {span : Span}
    (h : e.bare = (Expr.variable name span).bare) : ∃ span', e = .variable name span' := by
  rw [Expr.bare] at h
  cases e with
  | «variable» found span' =>
    rw [Expr.bare] at h
    obtain ⟨rfl, -⟩ := Expr.variable.inj h
    exact ⟨span', rfl⟩
  | _ => simp [Expr.bare] at h

theorem index_of_bare {e target index : Expr} {span : Span}
    (h : e.bare = (Expr.index target index span).bare) :
    ∃ target' index' span', e = .index target' index' span' ∧ target'.bare = target.bare ∧
      index'.bare = index.bare := by
  rw [Expr.bare] at h
  cases e with
  | index target' index' span' =>
    rw [Expr.bare] at h
    obtain ⟨ht, hi, -⟩ := Expr.index.inj h
    exact ⟨target', index', span', rfl, ht, hi⟩
  | _ => simp [Expr.bare] at h

theorem assign?_spell {target value : Expr} {span : Span} {x : Stmt}
    (h : assign? target value span = some x) :
    x.spell = target.spell ++ .symbol .equals :: value.spell := by
  unfold assign? at h
  split at h
  · obtain rfl := Option.some.inj h
    simp [Stmt.spell, Expr.spell]
  · obtain rfl := Option.some.inj h
    simp [Stmt.spell, Expr.spell]
  · contradiction

theorem assign?_again {target value target' value' : Expr} {span : Span} {x : Stmt}
    (h : assign? target value span = some x) (ht : target'.bare = target.bare)
    (hv : value'.bare = value.bare) (span' : Span) :
    ∃ x', assign? target' value' span' = some x' ∧ x'.bare = x.bare := by
  unfold assign? at h
  split at h
  · obtain rfl := Option.some.inj h
    obtain ⟨_, rfl⟩ := variable_of_bare ht
    exact ⟨_, rfl, by simp only [Stmt.bare, hv]⟩
  · obtain rfl := Option.some.inj h
    obtain ⟨_, _, _, rfl, ht', hi⟩ := index_of_bare ht
    exact ⟨_, rfl, by simp only [Stmt.bare, ht', hi, hv]⟩
  · contradiction

theorem expressionOrAssignment_restores {inner inner' : Parser Expr}
    (hi : Restores inner inner' Expr.spell Expr.bare fun l => l.endsExpr) {span : Span}
    {s t : Cursor} {x : Stmt} (h : (expressionOrAssignment inner span).Yields s x t) :
    OpensExpr x.spell ∧ s.Reads x.spell t ∧
      ∀ n span', Rereads n (expressionOrAssignment inner' span') x.spell
        (fun l => l = .symbol .semicolon) fun x' => x'.bare = x.bare := by
  obtain ⟨target, u, hr, h⟩ := yields_bind.mp h
  obtain ⟨found, v, haccept, hend⟩ := yields_bind.mp (yields_peek_bind.mp h)
  obtain ⟨htarget, htarget'⟩ := hi _ _ _ hr
  rcases yields_accept.mp haccept with ⟨hequals, rfl, rfl⟩ | ⟨-, rfl, rfl⟩
  · obtain ⟨value, w, hr', hend⟩ := yields_bind.mp hend
    obtain ⟨hvalue, hvalue'⟩ := hi _ _ _ hr'
    split at hend
    · next hx =>
      obtain ⟨rfl, rfl⟩ := yields_pure.mp hend
      rw [assign?_spell hx]
      refine ⟨target.spell_opens.append _, htarget.trans (.cons hequals nofun hvalue), ?_⟩
      intro n span'
      refine rereads_bind (htarget' n) (fun target' ht => ?_) fun _ _ => rfl
      refine rereads_peek fun equals _ => ?_
      refine rereads_cons (rereads_accept nofun) fun found hfound => ?_
      rw [if_pos hfound]
      rw [← List.append_nil value.spell]
      refine rereads_bind (hvalue' n).semicolon (fun value' hv => ?_) fun _ hl => hl
      obtain ⟨x', hx', hbare⟩ := assign?_again hx ht hv span'
      rw [hx']
      exact rereads_pure hbare
    · cases hend
  · obtain ⟨rfl, rfl⟩ := yields_pure.mp hend
    rw [Stmt.spell]
    refine ⟨target.spell_opens, htarget, fun n span' => ?_⟩
    rw [← List.append_nil target.spell]
    refine rereads_bind (htarget' n).semicolon (fun target' ht => ?_) fun _ hl => hl
    refine rereads_peek_follow fun equals _ => ?_
    refine rereads_skip rereads_accept_other (fun found hfound => ?_) fun l hl => by simp [hl]
    rw [hfound]
    exact rereads_pure (by simp only [Stmt.bare, ht])

end Parser

end HostScript
