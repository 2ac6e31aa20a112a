import HostScript.Proofs.Syntax.Layout
import HostScript.Proofs.Syntax.RoundTrip
import HostScript.Session.Fault

/-!
# Names in a program

Every name in a program stands in its source, so it is made of what names are made of: no name
contains a surrogate. This goes from the words of the source to the tokens (`scan_names`) and from
there to the spelling of the program (`compile_names`).
-/

namespace HostScript

/-- A lexeme that is a name contains no surrogate. -/
def Lexeme.Named : Lexeme → Prop
  | .identifier name => name.IsScalar
  | _ => True

/-! ## Tokens -/

theorem Munches.named {text after : Text} {v : Lexeme} (h : Munches text after v) : v.Named := by
  cases h with
  | @word c tail _ hstart htail _ =>
    unfold Lexeme.ofWord
    split
    · trivial
    · intro d hd
      have hpart : d.isNamePart = true := by
        rcases List.mem_cons.mp hd with rfl | hd
        · simp [CodePoint.isNamePart, hstart]
        · exact htail d hd
      obtain ⟨char, rfl⟩ := Piece.exists_scalar_of_isNamePart hpart
      rfl
  | _ => trivial

theorem Words.named {source last : Text} {words : List Word} (h : Words source words last) :
    ∀ w ∈ words, w.lexeme.Named := by
  induction h with
  | nil => exact fun _ hw => absurd hw List.not_mem_nil
  | cons _ hmunches _ ih => exact List.forall_mem_cons.mpr ⟨hmunches.named, ih⟩

theorem scan_names {source : Text} {tokens : List Token} (h : scan source = .ok tokens) :
    ∀ l ∈ tokens.map (·.lexeme), l.Named := by
  obtain ⟨-, words, last, hwords, rfl⟩ := scan_eq_ok_iff.mp h
  intro l hl
  rw [List.map_append, Word.map_lexeme_tokens] at hl
  rcases List.mem_append.mp hl with hl | hl
  · obtain ⟨w, hw, rfl⟩ := List.mem_map.mp hl
    exact hwords.named w hw
  · obtain rfl := List.mem_singleton.mp hl
    trivial

/-! ## Spellings -/

/-- What is put in between lexemes has no names that were not there. -/
theorem Shortens.named {short long : List Lexeme} (h : Shortens short long)
    (hshort : ∀ l ∈ short, l.Named) : ∀ l ∈ long, l.Named := by
  induction h with
  | nil => exact hshort
  | same l _ ih =>
    obtain ⟨hl, hrest⟩ := List.forall_mem_cons.mp hshort
    exact List.forall_mem_cons.mpr ⟨hl, ih hrest⟩
  | semicolon _ ih => exact List.forall_mem_cons.mpr ⟨trivial, ih hshort⟩
  | elseIf _ _ _ ihinner ih =>
    obtain ⟨-, hrest⟩ := List.forall_mem_cons.mp hshort
    obtain ⟨hinner, hrest⟩ := List.forall_mem_append.mp hrest
    have hinner := ihinner hinner
    have hrest := ih hrest
    simp only [spellBraces, spellBlock, List.mem_cons, List.mem_append, List.not_mem_nil]
    rintro l (rfl | (rfl | (hl | rfl | hl) | rfl | hl) | hl)
    all_goals first | trivial | exact hinner l hl | exact hrest l hl

/-- All names in an expression are made of code points that can be encoded. -/
def Expr.Named (e : Expr) : Prop := ∀ l ∈ e.spell, l.Named

/-- All names in a statement are. -/
def Stmt.Named (s : Stmt) : Prop := ∀ l ∈ s.spell, l.Named

/-- All names in some statements are. -/
def BlockNamed (body : List Stmt) : Prop := ∀ s ∈ body, s.Named

theorem blockNamed_iff {body : List Stmt} :
    BlockNamed body ↔ ∀ l ∈ spellBlock body, l.Named := by
  induction body with
  | nil => simp [BlockNamed, spellBlock]
  | cons s rest ih =>
    have hsemicolon : (Lexeme.symbol .semicolon).Named := trivial
    rw [spellBlock, List.forall_mem_append, List.forall_mem_cons, ← ih]
    simp only [BlockNamed, List.forall_mem_cons, hsemicolon, true_and]
    rfl

theorem forall_mem_commas {P : Lexeme → Prop} (hcomma : P (.symbol .comma))
    {parts : List (List Lexeme)} :
    (∀ l ∈ commas parts, P l) ↔ ∀ part ∈ parts, ∀ l ∈ part, P l := by
  induction parts with
  | nil => simp
  | cons part parts ih =>
    cases parts with
    | nil => simp
    | cons next rest =>
      rw [commas_cons_cons, List.forall_mem_append, List.forall_mem_cons, ih]
      simp [hcomma]

theorem spellExprs_named_iff {es : List Expr} :
    (∀ l ∈ commas (spellExprs es), l.Named) ↔ ∀ e ∈ es, e.Named := by
  rw [forall_mem_commas trivial, spellExprs_eq_map, List.forall_mem_map]
  rfl

/-! ## Programs -/

theorem parse_names {depth : Nat} {tokens : List Token} {program : List Stmt}
    (h : parse depth tokens = .ok program) (ht : ∀ l ∈ tokens.map (·.lexeme), l.Named) :
    BlockNamed program := by
  obtain ⟨t, hmany⟩ := parse_eq_ok_iff.mp h
  have hgo (x : Stmt) (first : Lexeme) (rest : List Lexeme) (hx : x.spell = first :: rest) :
      ¬ Parser.EndsBlock (fun _ => false) first := by
    obtain ⟨first', rest', heq, -, hend⟩ := x.exists_spell_cons
    obtain ⟨rfl, -⟩ := List.cons.inj (hx.symm.trans heq)
    simp [Parser.EndsBlock, hend]
  have hrestores := (Parser.restoresAt depth (4 * depth) (Nat.le_refl _)).statement
  obtain ⟨⟨us, hrest, -, hshort⟩, -⟩ :=
    Parser.many_restores hrestores hgo (Parser.many_eq_ok_iff.mpr hmany)
  refine blockNamed_iff.mpr (hshort.named fun l hl => ht l ?_)
  change tokens = us ++ t.rest at hrest
  rw [hrest, List.map_append]
  exact List.mem_append_left _ hl

theorem compile_names {depth : Nat} {source : Text} {statements : List Stmt}
    (h : compile depth source = .ok statements) : BlockNamed statements := by
  unfold compile at h
  split at h
  · contradiction
  · contradiction
  · next tokens hscan =>
    split at h
    · contradiction
    · contradiction
    · next program hparse =>
      obtain rfl := Except.ok.inj h
      exact parse_names hparse (scan_names hscan)

end HostScript
