import HostScript.Proofs.Grammar.Derivations

/-!
# Expressions that take what they can

A minus in front of an expression may as well stand behind one: two statements that the grammar
keeps apart there are one for the parser. Every program can be derived with no statement that ends
in an expression in front of one that begins with a minus (`Derives.toEager`).
-/

namespace HostScript

namespace Grammar

/-- The accepted grammar, with a minus going on with the expression in front of it. -/
def eager : Grammar where
  anyPlace := True
  follows
    | .closed, _, _ => True
    | .expression, line, t => ¬ t.Suffixes line ∧ t.lexeme ≠ .symbol .minus
    | .bareReturn, _, _ => False

namespace Derives

variable {g g' : Grammar} {c : Phrase} {e : StatementEnd} {ts us es : List Token} {σ : Span}
  {ls : List (List Symbol)}

/-- Chains of operators are built from the operands on. -/
theorem chain_induction
    {motive : (ls : List (List Symbol)) → (ts : List Token) → g.Derives (.chain ls) ts → Prop}
    (operand : ∀ {ts} (h : g.Derives .unary ts), motive [] ts (.operand h))
    (single : ∀ {ops rest ts} (h : g.Derives (.chain rest) ts), motive rest ts h →
      motive (ops :: rest) ts (.single h))
    (more : ∀ {ops rest op ts us σ} (h : g.Derives (.chain (ops :: rest)) ts) (hop : op ∈ ops)
      (h' : g.Derives (.chain rest) us), motive (ops :: rest) ts h → motive rest us h' →
      motive (ops :: rest) (ts ++ ⟨.symbol op, σ⟩ :: us) (.more h hop h'))
    (ls : List (List Symbol)) (ts : List Token) (h : g.Derives (.chain ls) ts) :
    motive ls ts h := by
  have hall {c : Phrase} {ts : List Token} (h : g.Derives c ts) (ls : List (List Symbol))
      (hc : c = .chain ls) : motive ls ts (hc ▸ h) := by
    induction h generalizing ls with
    | operand h =>
      obtain rfl := Phrase.chain.inj hc
      exact operand h
    | single h ih =>
      obtain rfl := Phrase.chain.inj hc
      exact single h (ih _ rfl)
    | more h hop h' ih ih' =>
      obtain rfl := Phrase.chain.inj hc
      exact more h hop h' (ih _ rfl) (ih' _ rfl)
    | _ => nomatch hc
  exact hall h ls rfl

theorem not_suffixed_minus : ¬ g.Derives .suffixed (⟨.symbol .minus, σ⟩ :: ts) :=
  fun h => nomatch h.begins.2 _ rfl

/-! ## A minus in front of an expression -/

/-- What stands behind the minus is an expression of the same levels. -/
theorem of_minus (h : g.Derives (.chain ls) (⟨.symbol .minus, σ⟩ :: ts)) :
    g.Derives (.chain ls) ts := by
  generalize hus : _ :: ts = us at h
  induction ls, us, h using chain_induction generalizing ts with
  | operand h =>
    subst hus
    cases h with
    | signed _ h => exact .operand h
    | unsigned h => exact absurd h not_suffixed_minus
  | single _ ih => exact .single (ih hus)
  | @more _ _ _ ts' _ _ h hop h' ih _ =>
    cases ts' with
    | nil => exact absurd rfl h.chain_ne_nil
    | cons t ts' =>
      obtain ⟨rfl, rfl⟩ := List.cons.inj hus
      exact .more (ih rfl) hop h'

/-- An expression that begins with a minus goes on with the expression in front of it. -/
theorem append_minus (hminus : Symbol.minus ∈ ls.flatten) (h : g.Derives (.chain ls) es)
    (h' : g.Derives (.chain ls) (⟨.symbol .minus, σ⟩ :: ts)) :
    g.Derives (.chain ls) (es ++ ⟨.symbol .minus, σ⟩ :: ts) := by
  induction ls generalizing es ts with
  | nil => contradiction
  | cons ops rest ih =>
    generalize hls : ops :: rest = ls at h'
    generalize hus : _ :: ts = us at h'
    induction ls, us, h' using chain_induction generalizing ts with
    | operand => contradiction
    | single h' =>
      obtain ⟨rfl, rfl⟩ := List.cons.inj hls
      subst hus
      by_cases hops : Symbol.minus ∈ ops
      · exact .more h hops h'.of_minus
      · have hrest : Symbol.minus ∈ rest.flatten :=
          (List.mem_append.mp hminus).resolve_left hops
        -- the last operand goes on
        cases h with
        | single h => exact .single (ih hrest h h')
        | more h hop h'' =>
          rw [List.append_assoc, List.cons_append]
          exact .more h hop (ih hrest h'' h')
    | @more _ _ _ ts' _ _ h' hop h'' ihl _ =>
      obtain ⟨rfl, rfl⟩ := List.cons.inj hls
      cases ts' with
      | nil => exact absurd rfl h'.chain_ne_nil
      | cons t ts' =>
        obtain ⟨rfl, rfl⟩ := List.cons.inj hus
        rw [← List.append_assoc]
        exact .more (ihl rfl rfl) hop h''

/-- A statement that ends in an expression goes on with a minus behind it. -/
theorem statement_append_minus (h : g.Derives (.statement .expression) es)
    (h' : g.Derives .expression (⟨.symbol .minus, σ⟩ :: ts)) :
    g.Derives (.statement .expression) (es ++ ⟨.symbol .minus, σ⟩ :: ts) := by
  have hminus : Symbol.minus ∈ operators.flatten := by decide
  cases h with
  | assignIndex h hline hi hv =>
    simp only [List.append_assoc, List.cons_append]
    exact .assignIndex h hline hi (hv.append_minus hminus h')
  | assign h => exact .assign (h.append_minus hminus h')
  | declare h => exact .declare (h.append_minus hminus h')
  | «export» h => exact .export (h.append_minus hminus h')
  | give h => exact .give (h.append_minus hminus h')
  | value h => exact .value (h.append_minus hminus h')

/-- A statement that begins with a minus is an expression. -/
theorem of_statement_minus (h : g.Derives (.statement e) (⟨.symbol .minus, σ⟩ :: ts)) :
    e = .expression ∧ g.Derives .expression (⟨.symbol .minus, σ⟩ :: ts) := by
  generalize hus : _ :: ts = us at h
  cases h with
  | value h => exact ⟨rfl, hus ▸ h⟩
  | @assignIndex ts' _ _ _ _ _ h =>
    have hfirst := h.begins.2
    cases ts' with
    | nil => exact absurd rfl h.suffixed_of_place.suffixed_ne_nil
    | cons t ts' =>
      obtain ⟨rfl, -⟩ := List.cons.inj hus
      exact nomatch hfirst _ rfl
  | branch h =>
    subst hus
    exact nomatch h.begins
  | assign | declare | declareFunction | exportFunction | «export» | loop | leave | giveNothing
  | give => nomatch hus

/-- A statement that ends in an expression goes together with statements that begin with a minus. -/
theorem statements_append_minus (h : g.Derives (.statement .expression) es)
    (h' : g.Derives .statements (⟨.symbol .minus, σ⟩ :: ts)) :
    g.Derives .statements (es ++ ⟨.symbol .minus, σ⟩ :: ts) := by
  generalize hus : _ :: ts = us at h'
  cases h' with
  | nothing => nomatch hus
  | @ended _ ts' _ _ h' hrest =>
    cases ts' with
    | nil => exact absurd rfl h'.statement_ne_nil
    | cons t ts' =>
      obtain ⟨rfl, -⟩ := List.cons.inj hus
      obtain ⟨rfl, hvalue⟩ := h'.of_statement_minus
      rw [← List.append_assoc]
      exact .ended (h.statement_append_minus hvalue) hrest
  | @joined _ ts' _ h' hrest hf =>
    cases ts' with
    | nil => exact absurd rfl h'.statement_ne_nil
    | cons t ts' =>
      obtain ⟨rfl, -⟩ := List.cons.inj hus
      obtain ⟨rfl, hvalue⟩ := h'.of_statement_minus
      rw [← List.append_assoc]
      refine .joined (h.statement_append_minus hvalue) hrest fun u hu => ?_
      rw [lineAfter_append]
      exact hf u hu

/-! ## From one grammar to another -/

/-- A grammar derives what another one does if it can join whatever that one joins. -/
theorem transfer (hany : g.anyPlace → g'.anyPlace)
    (hjoin : ∀ {e ts us}, g'.Derives (.statement e) ts → g'.Derives .statements us →
      (∀ u ∈ us.head?, g.follows e (lineAfter 0 ts) u) → g'.Derives .statements (ts ++ us))
    (h : g.Derives c ts) : g'.Derives c ts := by
  induction h with
  | operand _ ih => exact .operand ih
  | single _ ih => exact .single ih
  | more _ hop _ ih ih' => exact .more ih hop ih'
  | signed hop _ ih => exact .signed hop ih
  | unsigned _ ih => exact .unsigned ih
  | plain _ ih => exact .plain ih
  | call _ hline _ ih ih' => exact .call ih hline ih'
  | index _ hline _ ih ih' => exact .index ih hline ih'
  | literal => exact .literal
  | name => exact .name
  | grouping _ ih => exact .grouping ih
  | array _ ih => exact .array ih
  | closure _ ih => exact .closure ih
  | item _ ih => exact .item ih
  | moreItems _ _ ih ih' => exact .moreItems ih ih'
  | noArguments => exact .noArguments
  | arguments _ ih => exact .arguments ih
  | function hnames hps _ ih => exact .function hnames hps ih
  | block _ ih => exact .block ih
  | ifThen _ _ ih ih' => exact .ifThen ih ih'
  | ifElse _ _ _ ih ih' ih'' => exact .ifElse ih ih' ih''
  | elseIf _ _ _ ih ih' ih'' => exact .elseIf ih ih' ih''
  | placeName => exact .placeName
  | placeIndex _ hline _ ih ih' => exact .placeIndex ih hline ih'
  | placeAny h _ ih => exact .placeAny (hany h) ih
  | assignIndex _ hline _ _ ih ih' ih'' => exact .assignIndex ih hline ih' ih''
  | assign _ ih => exact .assign ih
  | declare _ ih => exact .declare ih
  | declareFunction _ ih => exact .declareFunction ih
  | exportFunction _ ih => exact .exportFunction ih
  | «export» _ ih => exact .export ih
  | branch _ ih => exact .branch ih
  | loop _ ih => exact .loop ih
  | leave => exact .leave
  | giveNothing => exact .giveNothing
  | give _ ih => exact .give ih
  | value _ ih => exact .value ih
  | nothing => exact .nothing
  | ended _ _ ih ih' => exact .ended ih ih'
  | joined _ _ hf ih ih' => exact hjoin ih ih' hf

/-- Where a statement may stand, an expression may take what can go on with it. -/
theorem toEager (h : accepted.Derives c ts) : eager.Derives c ts := by
  refine h.transfer (fun _ => trivial) fun {e ts us} h h' hf => ?_
  cases e with
  | closed => exact .joined h h' fun _ _ => trivial
  | bareReturn => exact .joined h h' hf
  | expression =>
    cases us with
    | nil => exact .joined h h' nofun
    | cons u us =>
      obtain ⟨lexeme, span⟩ := u
      by_cases hu : lexeme = .symbol .minus
      · subst hu
        exact h.statements_append_minus h'
      · refine .joined h h' fun u' hu' => ?_
        obtain rfl := Option.some.inj hu'
        exact ⟨hf _ rfl, hu⟩

end Derives

end Grammar

end HostScript
