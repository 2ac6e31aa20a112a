import HostScript.Proofs.Likeness.Trees
import HostScript.Run.Evaluate
import Mathlib.Data.List.Forall2

/-!
# Values that are alike

Two runs of programs that are alike make the same scopes, arrays and tables in the same order, so
places mean the same in both. Values are alike if they are the same, or functions with code that is
alike. To know which names a function may use, each scope has a kind: it was made outside or inside
of the functions with another parameter name, or it is the frame of a call of one of them. All that
native functions make of values that are alike is alike.
-/

namespace HostScript

/-! ## Kinds of scopes -/

/-- What a scope was made for. A frame binds the parameter that has another name. -/
inductive ScopeKind
  | outside
  | inside
  | frame
deriving DecidableEq

/-- The region of the code that runs in a scope. -/
def ScopeKind.region : ScopeKind → Region
  | outside => .outside
  | inside => .inside
  | frame => .inside

/-- The environment of code in a region. Inside, it leads through a frame. -/
def Env.StandsIn (kinds : List ScopeKind) : Region → Env → Prop
  | .outside, env => ∀ id ∈ env.path, kinds[id]? = some .outside
  | .inside, env => ∃ inner outer, env.path = inner ++ outer ∧ outer ≠ [] ∧
      (∀ id ∈ inner, ∃ k, kinds[id]? = some k ∧ k ≠ .outside) ∧
      (∃ id ∈ inner, kinds[id]? = some .frame) ∧ ∀ id ∈ outer, kinds[id]? = some .outside

variable {kinds more : List ScopeKind}

theorem ScopeKind.mono (h : kinds <+: more) {id : ScopeId} {k : ScopeKind}
    (hk : kinds[id]? = some k) : more[id]? = some k := by
  obtain ⟨rest, rfl⟩ := h
  obtain ⟨hlt, -⟩ := List.getElem?_eq_some_iff.mp hk
  rwa [List.getElem?_append_left hlt]

theorem Env.StandsIn.mono (h : kinds <+: more) {region : Region} {env : Env}
    (he : env.StandsIn kinds region) : env.StandsIn more region := by
  cases region with
  | outside => exact fun id hid => ScopeKind.mono h (he id hid)
  | inside =>
    obtain ⟨inner, outer, hpath, hne, hinner, ⟨frame, hframe, hkind⟩, houter⟩ := he
    refine ⟨inner, outer, hpath, hne, fun id hid => ?_, ⟨frame, hframe, ScopeKind.mono h hkind⟩,
      fun id hid => ScopeKind.mono h (houter id hid)⟩
    obtain ⟨k, hk, hoff⟩ := hinner id hid
    exact ⟨k, ScopeKind.mono h hk, hoff⟩

/-- The scope at hand is of a kind for the region. -/
theorem Env.StandsIn.here {region : Region} {env : Env} (he : env.StandsIn kinds region) :
    ∃ k, kinds[env.here]? = some k ∧ k.region = region := by
  cases region with
  | outside => exact ⟨.outside, he env.here List.mem_cons_self, rfl⟩
  | inside =>
    obtain ⟨inner, outer, hpath, -, hinner, ⟨frame, hframe, -⟩, -⟩ := he
    obtain ⟨first, rest, rfl⟩ := List.exists_cons_of_ne_nil (List.ne_nil_of_mem hframe)
    obtain ⟨rfl, -⟩ := List.cons.inj hpath
    obtain ⟨k, hk, hne⟩ := hinner env.here List.mem_cons_self
    exact ⟨k, hk, by cases k <;> first | rfl | exact absurd rfl hne⟩

theorem Env.root_eq_getLast (env : Env) :
    env.root = env.path.getLast (List.cons_ne_nil _ _) := by
  obtain ⟨here, outer⟩ := env
  cases outer with
  | nil => rfl
  | cons id rest =>
    simp only [Env.root, Env.path]
    rw [List.getLast_cons (List.cons_ne_nil id rest), List.getLast?_eq_some_getLast]
    rfl

/-- The outermost scope is outside wherever code stands. -/
theorem Env.StandsIn.rootEnv {region : Region} {env : Env} (he : env.StandsIn kinds region) :
    env.rootEnv.StandsIn kinds .outside := by
  intro id hid
  obtain rfl : id = env.root := by simpa [Env.path, Env.rootEnv] using hid
  cases region with
  | outside => exact he env.root env.root_mem_path
  | inside =>
    obtain ⟨inner, outer, hpath, hne, -, -, houter⟩ := he
    refine houter env.root ?_
    rw [Env.root_eq_getLast]
    simp only [hpath, List.getLast_append_of_ne_nil _ hne]
    exact List.getLast_mem hne

/-- The kind of a new scope for a block. -/
def Region.scope : Region → ScopeKind
  | .outside => .outside
  | .inside => .inside

theorem Env.StandsIn.enter {region : Region} {env : Env} (he : env.StandsIn kinds region) :
    (env.enter kinds.length).StandsIn (kinds ++ [region.scope]) region := by
  have hmore : kinds <+: kinds ++ [region.scope] := List.prefix_append _ _
  have hnew : (kinds ++ [region.scope])[kinds.length]? = some region.scope := by simp
  cases region with
  | outside =>
    intro id hid
    rcases List.mem_cons.mp hid with rfl | hid
    · exact hnew
    · exact ScopeKind.mono hmore (he id hid)
  | inside =>
    obtain ⟨inner, outer, hpath, hne, hinner, ⟨frame, hframe, hkind⟩, houter⟩ := he.mono hmore
    refine ⟨kinds.length :: inner, outer, congrArg (kinds.length :: ·) hpath, hne, ?_,
      ⟨frame, List.mem_cons_of_mem _ hframe, hkind⟩, houter⟩
    intro id hid
    rcases List.mem_cons.mp hid with rfl | hid
    · exact ⟨.inside, hnew, nofun⟩
    · exact hinner id hid

theorem Env.StandsIn.enterFrame {env : Env} (he : env.StandsIn kinds .outside) :
    (env.enter kinds.length).StandsIn (kinds ++ [.frame]) .inside := by
  have hmore : kinds <+: kinds ++ [.frame] := List.prefix_append _ _
  have hnew : (kinds ++ [ScopeKind.frame])[kinds.length]? = some .frame := by simp
  refine ⟨[kinds.length], env.path, rfl, List.cons_ne_nil _ _, fun id hid => ?_,
    ⟨_, List.mem_singleton_self _, hnew⟩, he.mono hmore⟩
  obtain rfl := List.mem_singleton.mp hid
  exact ⟨.frame, hnew, nofun⟩

/-! ## Values -/

/-- Functions that are alike: they were made in the same place, by code that is alike. -/
structure Closure.Like (b : Likeness) (kinds : List ScopeKind) (c d : Closure) : Prop where
  id : d.id = c.id
  name : d.name = c.name
  env : d.env = c.env
  code : ∃ region inner, c.env.StandsIn kinds region ∧ b.Opens region c.parameters inner ∧
    (∀ n ∈ c.parameters, b.Admits inner n) ∧ d.parameters = c.parameters.map (b.name inner) ∧
    BlockLike b inner c.body d.body

/-- Values that are alike: functions of scripts that are, and equal values else. -/
def Value.Like (b : Likeness) (kinds : List ScopeKind) : Value → Value → Prop
  | .function (.closure c), v => ∃ d, v = .function (.closure d) ∧ c.Like b kinds d
  | u, v => v = u

/-- Entries that are alike, in a scope of the region. -/
def EntryLike (b : Likeness) (kinds : List ScopeKind) (region : Region) (e e' : Text × Value) :
    Prop :=
  b.Admits region e.1 ∧ e'.1 = b.name region e.1 ∧ e.2.Like b kinds e'.2

/-- Dictionaries that are alike. Tables are like the scopes outside. -/
def Dict.Like (b : Likeness) (kinds : List ScopeKind) (region : Region) (d d' : Dict Value) :
    Prop :=
  List.Forall₂ (EntryLike b kinds region) d.entries d'.entries

/-- Flows that are alike. -/
def Flow.Like (b : Likeness) (kinds : List ScopeKind) : Flow → Flow → Prop
  | .give u, f => ∃ v, f = .give v ∧ u.Like b kinds v
  | f, f' => f' = f

variable {b : Likeness}

/-- Flows that are alike are of the same kind. -/
theorem Flow.Like.cases {f f' : Flow} (h : f.Like b kinds f') :
    f = .normal ∧ f' = .normal ∨ f = .leave ∧ f' = .leave ∨
      ∃ v v', f = .give v ∧ f' = .give v' ∧ v.Like b kinds v' := by
  cases f with
  | normal => exact .inl ⟨rfl, h⟩
  | leave => exact .inr (.inl ⟨rfl, h⟩)
  | give v =>
    obtain ⟨v', hf, hv⟩ := h
    exact .inr (.inr ⟨v, v', rfl, hf, hv⟩)

theorem Closure.Like.mono (h : kinds <+: more) {c d : Closure} (hc : c.Like b kinds d) :
    c.Like b more d := by
  obtain ⟨region, inner, henv, hcode⟩ := hc.code
  exact ⟨hc.id, hc.name, hc.env, region, inner, henv.mono h, hcode⟩

namespace Value

variable {u v : Value}

/-- Values that are alike are the same, or both are functions of scripts. -/
theorem Like.cases (h : u.Like b kinds v) :
    v = u ∨ ∃ c d, u = .function (.closure c) ∧ v = .function (.closure d) ∧ c.Like b kinds d := by
  unfold Like at h
  split at h
  · next c =>
    obtain ⟨d, hv, hlike⟩ := h
    exact .inr ⟨c, d, rfl, hv, hlike⟩
  · exact .inl h

theorem Like.mono (h : kinds <+: more) (hv : u.Like b kinds v) : u.Like b more v := by
  rcases hv.cases with rfl | ⟨c, d, rfl, rfl, hc⟩
  · unfold Like at hv ⊢
    split
    · next c =>
      obtain ⟨d, hd, hlike⟩ := hv
      exact ⟨d, hd, hlike.mono h⟩
    · rfl
  · exact ⟨d, rfl, hc.mono h⟩

@[simp] theorem like_null : (null).Like b kinds v ↔ v = null := Iff.rfl

@[simp] theorem like_boolean {x : Bool} : (boolean x).Like b kinds v ↔ v = boolean x := Iff.rfl

@[simp] theorem like_number {x : Float} : (number x).Like b kinds v ↔ v = number x := Iff.rfl

@[simp] theorem like_string {t : Text} : (string t).Like b kinds v ↔ v = string t := Iff.rfl

@[simp] theorem like_array {id : ArrayId} : (array id).Like b kinds v ↔ v = array id := Iff.rfl

@[simp] theorem like_table {id : TableId} : (table id).Like b kinds v ↔ v = table id := Iff.rfl

@[simp] theorem like_error {t : Text} : (error t).Like b kinds v ↔ v = error t := Iff.rfl

theorem Like.kindName (h : u.Like b kinds v) : v.kindName = u.kindName := by
  rcases h.cases with rfl | ⟨c, d, rfl, rfl, -⟩ <;> rfl

theorem Like.truthy (h : u.Like b kinds v) : v.truthy = u.truthy := by
  rcases h.cases with rfl | ⟨c, d, rfl, rfl, -⟩ <;> rfl

theorem Like.function_name {c d : Closure} (h : c.Like b kinds d) :
    (Function.closure d).name? = (Function.closure c).name? := by
  simp only [Function.name?, h.name]

theorem Like.displayAtom (h : u.Like b kinds v) : v.displayAtom = u.displayAtom := by
  rcases h.cases with rfl | ⟨c, d, rfl, rfl, hlike⟩
  · rfl
  · simp only [Value.displayAtom, Function.display, Like.function_name hlike]

theorem Like.documentOfAtom (h : u.Like b kinds v) : v.documentOfAtom = u.documentOfAtom := by
  rcases h.cases with rfl | ⟨c, d, rfl, rfl, hlike⟩
  · rfl
  · simp only [Value.documentOfAtom, Function.display, Like.function_name hlike]

theorem like_ofLiteral (value : Literal) : (ofLiteral value).Like b kinds (ofLiteral value) := by
  cases value <;> rfl

/-! ### Operators -/

theorem Like.applyUnary (op : UnaryOp) (h : u.Like b kinds v) :
    (applyUnary op u).Like b kinds (applyUnary op v) := by
  rcases h.cases with rfl | ⟨c, d, rfl, rfl, -⟩
  · cases op <;> cases v <;> rfl
  · cases op <;> rfl

variable {l l' r r' : Value}

theorem like_onNumbers (op : BinaryOp) (x y : Float) :
    (onNumbers op x y).Like b kinds (onNumbers op x y) := by
  cases op <;> rfl

theorem like_onStrings (op : BinaryOp) (s t : Text) :
    (onStrings op s t).Like b kinds (onStrings op s t) := by
  cases op <;> rfl

theorem like_applyBinary (op : BinaryOp) (l r : Value) :
    (applyBinary op l r).Like b kinds (applyBinary op l r) := by
  unfold applyBinary
  split
  · rfl
  · rfl
  · split
    · exact like_onNumbers ..
    · exact like_onStrings ..
    · split <;> rfl

/-- A function is no operand of any operator but the comparisons. -/
theorem applyBinary_closure_left (op : BinaryOp) (c d : Closure) (hid : d.id = c.id) (r : Value) :
    applyBinary op (.function (.closure d)) r = applyBinary op (.function (.closure c)) r := by
  cases op <;> cases r <;> try rfl
  all_goals next f => cases f <;> simp [applyBinary, Value.equal, Function.same, hid]

theorem applyBinary_closure_right (op : BinaryOp) (c d : Closure) (hid : d.id = c.id) (l : Value) :
    applyBinary op l (.function (.closure d)) = applyBinary op l (.function (.closure c)) := by
  cases op <;> cases l <;> try rfl
  all_goals next f => cases f <;> simp [applyBinary, Value.equal, Function.same, hid]

theorem Like.applyBinary (op : BinaryOp) (hl : l.Like b kinds l') (hr : r.Like b kinds r') :
    (applyBinary op l r).Like b kinds (applyBinary op l' r') := by
  have hleft : Value.applyBinary op l' r' = Value.applyBinary op l r' := by
    rcases hl.cases with rfl | ⟨c, d, rfl, rfl, hc⟩
    · rfl
    · exact applyBinary_closure_left op c d hc.id r'
  have hright : Value.applyBinary op l r' = Value.applyBinary op l r := by
    rcases hr.cases with rfl | ⟨c, d, rfl, rfl, hc⟩
    · rfl
    · exact applyBinary_closure_right op c d hc.id l
  rw [hleft, hright]
  exact like_applyBinary op l r

end Value

end HostScript
