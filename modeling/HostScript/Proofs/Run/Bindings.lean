import HostScript.Proofs.Run.Rooted

/-!
# Where names are bound

A scope comes to bind a name only where a statement is executed that binds it there (`gains`), and
what binds a name in the scope at hand is executed in a scope that is made for it, unless it is
executed by itself (`next_le_here_of_transGen`). So whatever is evaluated, called or executed leaves
the scopes that were there with the names that they had, but for what is exported to the root
(`Stage.contained`).
-/

namespace HostScript

namespace Stmt

variable {s : Stmt} {env : Env} {id : ScopeId} {name : Name}

/-- The name that a statement binds in the scope at hand. -/
def declares? : Stmt → Option Name
  | .declare name _ _ | .function name _ _ false _ => some name
  | _ => none

/-- The name that a statement binds in the root scope. -/
def exports? : Stmt → Option Name
  | .publish name _ _ | .function name _ _ true _ => some name
  | _ => none

theorem binding?_cases (h : s.binding? env = some (id, name)) :
    (s.declares? = some name ∧ id = env.here) ∨ (s.exports? = some name ∧ id = env.root) := by
  unfold binding? at h
  split at h
  · cases h
    exact .inl ⟨rfl, rfl⟩
  · cases h
    exact .inl ⟨rfl, rfl⟩
  · cases h
    exact .inr ⟨rfl, rfl⟩
  · cases h
    exact .inr ⟨rfl, rfl⟩
  · cases h

theorem binding?_of_declares? (h : s.declares? = some name) (env : Env) :
    s.binding? env = some (env.here, name) := by
  unfold declares? at h
  split at h
  · cases h
    rfl
  · cases h
    rfl
  · cases h

end Stmt

namespace World

variable {w : World} {id : ScopeId} {name : Name}

/-- The names that a scope binds, in the order in which they came in. -/
def names (w : World) (id : ScopeId) : List Name := (w.scopes.bindings id).keys

theorem names_of_next_le (h : w.next ≤ id) : w.names id = [] := by
  rw [names, Scopes.bindings_eq_empty h]
  rfl

theorem names_push_of_lt (h : id < w.next) (d : Dict Value) : (w.push d).names id = w.names id :=
  congrArg Dict.keys (bindings_push_of_lt h d)

theorem names_bind_of_ne {other : ScopeId} (h : other ≠ id) (name : Name) (v : Value) :
    (w.bind id name v).names other = w.names other :=
  congrArg Dict.keys (bindings_bind_of_ne h name v)

theorem names_bind_self (h : id < w.next) (name : Name) (v : Value) :
    (w.bind id name v).names id =
      if name ∈ w.names id then w.names id else w.names id ++ [name] := by
  rw [names, bindings_bind_self h, Dict.keys_put]
  rfl

end World

namespace Run

variable {setup : Setup} {reached : Stage → Prop} {m m' : Stage} {depth : Nat} {env : Env}
  {s : Stmt} {w w' : World} {id root : ScopeId} {name : Name}

/-! ## What binds a name -/

theorem scopes_of_run_proceed {values : List Value} (hbinding : s.binding? env = some (id, name))
    (hlength : values.length = s.operands.length) (w : World) :
    ∃ v, ((proceed setup depth env s values).run w).2.scopes = w.scopes.bind id name v := by
  unfold Stmt.binding? at hbinding
  split at hbinding
  · cases hbinding
    obtain ⟨v, rfl⟩ := List.length_eq_one_iff.mp hlength
    exact ⟨v, rfl⟩
  · cases hbinding
    exact ⟨_, rfl⟩
  · cases hbinding
    obtain ⟨v, rfl⟩ := List.length_eq_one_iff.mp hlength
    exact ⟨v, rfl⟩
  · cases hbinding
    exact ⟨_, rfl⟩
  · cases hbinding

/-- A statement that binds a name evaluates its operands first. If they have values, it binds the name
in its scope and nowhere else, and otherwise it does nothing more. -/
theorem run_execute_binding (hbinding : s.binding? env = some (id, name)) (w : World) :
    (∃ halt, (s.operands.mapM (evaluate setup depth env)).run w =
      (.error halt, ((execute setup (depth + 1) env s).run w).2)) ∨
    ∃ values u v, (s.operands.mapM (evaluate setup depth env)).run w = (.ok values, u) ∧
      ((execute setup (depth + 1) env s).run w).2.scopes = u.scopes.bind id name v := by
  rw [execute_eq_proceed, run_bind]
  rcases hoperands : (s.operands.mapM (evaluate setup depth env)).run w with ⟨halt | values, u⟩
  · exact .inl ⟨halt, rfl⟩
  · obtain ⟨v, hv⟩ := scopes_of_run_proceed hbinding (length_of_run_mapM hoperands) u
    exact .inr ⟨values, u, v, rfl, hv⟩

/-- At a stage a statement begins that ends normally. -/
def Stage.Finishes (setup : Setup) (env : Env) (s : Stmt) (m : Stage) : Prop :=
  m.task = .execute env s ∧ ∃ w', (execute setup m.depth env s).run m.world = (.ok .normal, w')

/-- The scope in which a task binds a name by itself, and the name. -/
def Task.binding? : Task → Option (ScopeId × Name)
  | .execute env s => s.binding? env
  | _ => none

/-- The scopes that are there keep their names. New ones come behind them, each bound by a statement
that has been reached. -/
def gains (setup : Setup) (reached : Stage → Prop) : Invariant where
  below w w' := w.next ≤ w'.next ∧ ∀ id < w.next, ∃ names, w'.names id = w.names id ++ names ∧
    ∀ name ∈ names, ∃ m env s, reached m ∧ m.Finishes setup env s ∧ s.binding? env = some (id, name)
  world _ := True
  env _ _ := True
  value _ _ := True

theorem later_gains_of_names (hnext : w.next ≤ w'.next)
    (hnames : ∀ id < w.next, w'.names id = w.names id) : (gains setup reached).Later w w' :=
  ⟨⟨hnext, fun id hid => ⟨[], by rw [hnames id hid, List.append_nil], List.forall_mem_nil _⟩⟩,
    trivial⟩

theorem ordered_gains (setup : Setup) (reached : Stage → Prop) :
    (gains setup reached).Ordered where
  refl w := (later_gains_of_names (Nat.le_refl _) fun _ _ => rfl).below
  trans := by
    rintro w₁ w₂ w₃ ⟨hnext, h⟩ ⟨hnext', h'⟩
    refine ⟨Nat.le_trans hnext hnext', fun id hid => ?_⟩
    obtain ⟨names, heq, hnames⟩ := h id hid
    obtain ⟨names', heq', hnames'⟩ := h' id (Nat.lt_of_lt_of_le hid hnext)
    refine ⟨names ++ names', by rw [heq', heq, List.append_assoc], ?_⟩
    exact List.forall_mem_append.mpr ⟨hnames, hnames'⟩
  env_mono _ _ := trivial
  value_mono _ _ := trivial

/-- A name comes into a scope where a statement binds it. -/
theorem later_gains_bind {v : Value} (hm : reached m) (hfinishes : m.Finishes setup env s)
    (hbinding : s.binding? env = some (id, name)) :
    (gains setup reached).Later w (w.bind id name v) := by
  refine ⟨⟨World.next_bind.ge, fun other hother => ?_⟩, trivial⟩
  by_cases hid : other = id
  · subst hid
    rw [World.names_bind_self hother]
    split
    · exact ⟨[], (List.append_nil _).symm, List.forall_mem_nil _⟩
    · exact ⟨[name], rfl, List.forall_mem_singleton.mpr ⟨m, env, s, hm, hfinishes, hbinding⟩⟩
  · rw [World.names_bind_of_ne hid]
    exact ⟨[], (List.append_nil _).symm, List.forall_mem_nil _⟩

/-- Binding anew a name that a scope binds brings in none. -/
theorem later_gains_assign {v : Value} (howner : w.scopes.owner? name env.path = some id) :
    (gains setup reached).Later w (w.bind id name v) := by
  refine later_gains_of_names World.next_bind.ge fun other hother => ?_
  by_cases hid : other = id
  · subst hid
    have hmem : name ∈ w.names other :=
      (Dict.has_iff_mem_keys _ _).mp (List.find?_eq_some_iff_append.mp howner).1
    rw [World.names_bind_self hother, if_pos hmem]
  · exact World.names_bind_of_ne hid _ _

theorem later_gains_push (d : Dict Value) : (gains setup reached).Later w (w.push d) :=
  later_gains_of_names (World.next_push.symm ▸ Nat.le_succ _) fun _ hid =>
    World.names_push_of_lt hid d

theorem later_gains_of_scopes_eq (h : w'.scopes = w.scopes) :
    (gains setup reached).Later w w' := by
  refine later_gains_of_names (congrArg (·.frames.size) h).ge fun id _ => ?_
  rw [World.names, h, World.names]

theorem kept_gains (setup : Setup) (reached : Stage → Prop) :
    (gains setup reached).Kept setup reached where
  toOrdered := ordered_gains setup reached
  plain _ := trivial
  lookup _ _ _ := trivial
  index _ _ := trivial
  createArray _ _ := ⟨later_gains_of_scopes_eq rfl, fun _ _ => trivial⟩
  assignIndex _ _ _ := later_gains_of_scopes_eq rfl
  newFunction _ _ := ⟨later_gains_of_scopes_eq rfl, fun _ _ => trivial⟩
  callNative _ _ :=
    ⟨later_gains_of_scopes_eq (scopes_callNative setup _ _ _ _), fun _ _ => trivial⟩
  enterCall _ _ _ := ⟨later_gains_push _, trivial⟩
  enter _ _ := ⟨later_gains_push _, trivial⟩
  bind hm hbinding hrun _ _ _ := later_gains_bind hm ⟨rfl, _, hrun⟩ hbinding
  assign _ _ _ howner := later_gains_assign howner

theorem holds_gains (m : Stage) : (gains setup reached).Holds m := by
  obtain ⟨depth, task, w⟩ := m
  cases task with
  | call f values span => exact ⟨trivial, trivial, fun _ _ => trivial⟩
  | _ => exact ⟨trivial, trivial⟩

/-- Every new name in a scope that was there is bound by a statement that was reached. -/
theorem gains_after (setup : Setup) (m : Stage) :
    (gains setup (Within setup m)).below m.world (m.after setup) :=
  ((holds_gains m).after (kept_gains setup _) (fun _ _ h hbegins => h.tail hbegins) .refl).below

theorem names_prefix_of_gains (h : (gains setup reached).below w w') (id : ScopeId) :
    w.names id <+: w'.names id := by
  by_cases hid : id < w.next
  · obtain ⟨names, heq, -⟩ := h.2 id hid
    exact ⟨names, heq.symm⟩
  · rw [World.names_of_next_le (Nat.le_of_not_lt hid)]
    exact List.nil_prefix

/-! ## Scopes of their own -/

theorem next_le_of_within (h : Within setup m m') : m.world.next ≤ m'.world.next :=
  ((holds_gains m).within (kept_gains setup fun _ => True) (fun _ _ _ _ => trivial) trivial h).1.1

/-- Statements that another task begins are executed in a new scope. -/
theorem next_le_here (h : Begins setup m ⟨depth, .execute env s, w⟩) : m.world.next ≤ env.here := by
  have hJ := kept_gains setup fun _ => True
  obtain ⟨outer, u, hlater, rfl⟩ := (holds_gains m).enters hJ (fun _ _ _ _ => trivial) trivial h
  exact hlater.below.1

/-- Statements that are executed somewhere inside another task are executed in a new scope. -/
theorem next_le_here_of_transGen
    (h : Relation.TransGen (Begins setup) m ⟨depth, .execute env s, w⟩) :
    m.world.next ≤ env.here := by
  obtain ⟨m₁, hwithin, hbegins⟩ := Relation.TransGen.tail'_iff.mp h
  exact Nat.le_trans (next_le_of_within hwithin) (next_le_here hbegins)

/-! ## Tasks that leak nothing -/

/-- What a task leaves of the scopes that were there when it began: each binds the same names, in the
same order, but in the root names come in behind that are exported by statements which were
executed. -/
structure Stage.Contained (setup : Setup) (root : ScopeId) (m : Stage) : Prop where
  inner : ∀ id < m.world.next, id ≠ root → (m.after setup).names id = m.world.names id
  root : ∃ names, (m.after setup).names root = m.world.names root ++ names ∧
    ∀ name ∈ names, ∃ m' env s, Within setup m m' ∧ m'.Finishes setup env s ∧
      s.exports? = some name

/-- A name that is declared at a stage is bound, once the operands have values, in the scope at hand,
which is none of the scopes around it and none of the first `n`. Nothing else is bound then. -/
def Stage.DeclaresApart (setup : Setup) (n : ScopeId) (m : Stage) : Prop :=
  ∀ depth env s name, m.depth = depth + 1 → m.task = .execute env s → s.declares? = some name →
    n ≤ env.here ∧ env.here ∉ env.outer ∧
    ((∃ halt, (s.operands.mapM (evaluate setup depth env)).run m.world =
      (.error halt, m.after setup)) ∨
    ∃ values u v, (s.operands.mapM (evaluate setup depth env)).run m.world = (.ok values, u) ∧
      (m.after setup).scopes = u.scopes.bind env.here name v)

variable (hm : (rooted root).Holds m)
include hm

theorem rooted_of_within (h : Within setup m m') : (rooted root).Holds m' :=
  (hm.within (kept_rooted root setup fun _ => True) (fun _ _ _ _ => trivial) trivial h).2.1

/-- What binds a name in a scope that was there when a task began is an export to the root, unless it
is the task itself. -/
theorem exports_of_binding (htask : m.task.binding? = none) (h : Within setup m m')
    (hfinishes : m'.Finishes setup env s) (hbinding : s.binding? env = some (id, name))
    (hid : id < m.world.next) : id = root ∧ s.exports? = some name := by
  obtain ⟨depth, task, w⟩ := m'
  obtain ⟨rfl, -⟩ := hfinishes
  rcases Stmt.binding?_cases hbinding with ⟨-, rfl⟩ | ⟨hexports, rfl⟩
  · rcases Relation.reflTransGen_iff_eq_or_transGen.mp h with rfl | htrans
    · exact nomatch htask.symm.trans hbinding
    · exact absurd hid (Nat.not_lt_of_le (next_le_here_of_transGen htrans))
  · exact ⟨(rooted_of_within hm h).task.root, hexports⟩

/-- Unless a task is itself a statement that binds a name, it leaks none. -/
theorem contained (setup : Setup) (htask : m.task.binding? = none) : m.Contained setup root := by
  obtain ⟨-, hgains⟩ := gains_after setup m
  constructor
  · intro id hid hne
    obtain ⟨names, heq, hnames⟩ := hgains id hid
    cases names with
    | nil => rw [heq, List.append_nil]
    | cons name names =>
      obtain ⟨m', env, s, hwithin, hfinishes, hbinding⟩ := hnames name List.mem_cons_self
      exact absurd (exports_of_binding hm htask hwithin hfinishes hbinding hid).1 hne
  · obtain ⟨names, heq, hnames⟩ := hgains root hm.world.1
    refine ⟨names, heq, fun name hname => ?_⟩
    obtain ⟨m', env, s, hwithin, hfinishes, hbinding⟩ := hnames name hname
    have hexports := (exports_of_binding hm htask hwithin hfinishes hbinding hm.world.1).2
    exact ⟨m', env, s, hwithin, hfinishes, hexports⟩

/-- What is declared inside a task is declared apart from the scopes that were there. -/
theorem declaresApart (h : Relation.TransGen (Begins setup) m m') :
    m'.DeclaresApart setup m.world.next := by
  obtain ⟨depth', task, w⟩ := m'
  rintro depth env s name rfl rfl hdeclares
  have hbinding := Stmt.binding?_of_declares? hdeclares env
  refine ⟨next_le_here_of_transGen h, ?_, run_execute_binding hbinding w⟩
  exact (rooted_of_within hm h.to_reflTransGen).task.here_notMem_outer

end Run

end HostScript
