import HostScript.Dict

/-!
# Scopes

A store of scopes, each a dictionary from names to values, and environments. An environment is the
way from a scope out to the root, so it never changes; what changes is the store. Looking a name up
finds the nearest scope on the way that binds it (`owner?`), assigning writes there, and defining
writes to the scope at hand.
-/

namespace HostScript

/-- The place of a scope in a store. -/
abbrev ScopeId := Nat

/-- A scope and those around it, the nearest first. The last one is the root. -/
structure Env where
  here : ScopeId
  outer : List ScopeId
deriving DecidableEq, Inhabited

namespace Env

/-- All scopes of an environment, the nearest first. -/
def path (e : Env) : List ScopeId := e.here :: e.outer

/-- The outermost scope. -/
def root (e : Env) : ScopeId := e.outer.getLast?.getD e.here

/-- The environment of the outermost scope. -/
def rootEnv (e : Env) : Env := ⟨e.root, []⟩

/-- The environment with one more scope inside. -/
def enter (e : Env) (id : ScopeId) : Env := ⟨id, e.path⟩

theorem root_mem_path (e : Env) : e.root ∈ e.path := by
  unfold root path
  cases h : e.outer.getLast? with
  | none => exact List.mem_cons_self
  | some id => exact List.mem_cons_of_mem _ (List.mem_of_getLast? h)

end Env

/-- A store of scopes. -/
structure Scopes (α : Type) where
  frames : Array (Dict α)

namespace Scopes

variable {α : Type}

instance : Inhabited (Scopes α) := ⟨⟨#[]⟩⟩

/-- The store that holds one empty scope, and the environment of that scope. -/
def start : Scopes α × Env := (⟨#[.empty]⟩, ⟨0, []⟩)

/-- The bindings of a scope. -/
def bindings (s : Scopes α) (id : ScopeId) : Dict α := s.frames[id]?.getD .empty

/-- Adds an empty scope inside an environment. -/
def child (s : Scopes α) (e : Env) : Env × Scopes α :=
  (e.enter s.frames.size, ⟨s.frames.push .empty⟩)

/-- Binds a name in one scope, over what it was bound to there. -/
def bind (s : Scopes α) (id : ScopeId) (name : Text) (value : α) : Scopes α :=
  ⟨s.frames.modify id (·.put name value)⟩

/-- Binds a name in the nearest scope of an environment. -/
def define (s : Scopes α) (e : Env) (name : Text) (value : α) : Scopes α :=
  s.bind e.here name value

/-- A new scope binds nothing, so no scope seems changed. -/
@[simp] theorem bindings_child (s : Scopes α) (e : Env) (id : ScopeId) :
    (s.child e).2.bindings id = s.bindings id := by
  simp only [child, bindings, Array.getElem?_push]
  split
  · next h => simp [h]
  · rfl

theorem bindings_bind (s : Scopes α) (changed : ScopeId) (name : Text) (value : α) (id : ScopeId) :
    (s.bind changed name value).bindings id =
      if id = changed ∧ changed < s.frames.size then (s.bindings changed).put name value
      else s.bindings id := by
  simp only [bind, bindings, Array.getElem?_modify]
  by_cases hid : id = changed
  · subst hid
    by_cases hb : id < s.frames.size <;> simp [hb]
  · simp [hid, Ne.symm hid]

/-- The first of some scopes that binds a name. -/
def owner? (s : Scopes α) (name : Text) (path : List ScopeId) : Option ScopeId :=
  path.find? fun id => (s.bindings id).has name

/-- What a name is bound to. -/
def get? (s : Scopes α) (e : Env) (name : Text) : Option α := do
  (s.bindings (← s.owner? name e.path)).get? name

theorem owner?_mem {s : Scopes α} {name : Text} {path : List ScopeId} {id : ScopeId}
    (h : s.owner? name path = some id) : id ∈ path :=
  List.mem_of_find?_eq_some h

/-- What a name is bound to stands among the bindings of a scope of the environment. -/
theorem mem_bindings_of_get? {s : Scopes α} {e : Env} {name : Text} {value : α}
    (h : s.get? e name = some value) :
    ∃ id ∈ e.path, (name, value) ∈ (s.bindings id).entries := by
  obtain ⟨id, ho, hg⟩ := Option.bind_eq_some_iff.mp h
  exact ⟨id, owner?_mem ho, Dict.mem_of_get? hg⟩

/-- Binds a name anew in the nearest scope that binds it, if there is one. -/
def assign? (s : Scopes α) (e : Env) (name : Text) (value : α) : Option (Scopes α) :=
  (s.owner? name e.path).map (s.bind · name value)

/-- The form of a scope in listings, with the names that it binds. -/
def inspect (s : Scopes α) (id : ScopeId) : Text :=
  "<Environment bindings=[" ++ Text.join ", " (s.bindings id).keys ++ "]>"

end Scopes

end HostScript
