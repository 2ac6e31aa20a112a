import HostScript.Proofs.Syntax.Spans
import HostScript.Run.Evaluate

/-!
# Places and what can be reached

A place is a scope, an array or a table. A world holds values in its places, and values refer to
places: an array or a table to itself, a function to the scopes of its environment, which are the
scope in which it was made and all scopes around that one. `World.Reaches` follows both as far as
they go. `Bounds` describe a part of a world together with the functions that are in it, and
`World.Confined` says that this part refers to nothing outside and that nothing outside has changed.
-/

namespace HostScript

/-- A scope, an array or a table. -/
inductive Place
  | scope (id : ScopeId)
  | composite (c : Composite)
deriving DecidableEq

/-! ## Contents -/

namespace Heap

/-- There is such an array or table. -/
def Has (h : Heap) : Composite → Prop
  | .array id => id < h.arrays.size
  | .table id => id < h.tables.size

/-- An array or a table holds the same in two heaps: the same elements, or the same entries in the
same order. -/
def SameAt (h h' : Heap) : Composite → Prop
  | .array id => h'.array id = h.array id
  | .table id => h'.table id = h.table id

theorem SameAt.trans {h₁ h₂ h₃ : Heap} {c : Composite} (h : h₁.SameAt h₂ c)
    (h' : h₂.SameAt h₃ c) : h₁.SameAt h₃ c := by
  cases c with
  | array id => exact Eq.trans h' h
  | table id => exact Eq.trans h' h

theorem members_eq_of_sameAt {h h' : Heap} {c : Composite} (hs : h.SameAt h' c) :
    h'.members c = h.members c := by
  cases c with
  | array id => exact congrArg Array.toList hs
  | table id => exact congrArg (fun d : Dict Value => d.entries.map (·.2)) hs

theorem members_of_not_has {h : Heap} {c : Composite} (hc : ¬ h.Has c) : h.members c = [] := by
  cases c with
  | array id =>
    have : h.arrays[id]? = none := by simpa [Has] using hc
    simp [members, array, this]
  | table id =>
    have : h.tables[id]? = none := by simpa [Has] using hc
    simp [members, table, this, Dict.empty]

end Heap

/-- The values that a scope binds names to, in order. -/
def Scopes.members (s : Scopes Value) (id : ScopeId) : List Value :=
  (s.bindings id).entries.map (·.2)

theorem Scopes.members_of_size_le {s : Scopes Value} {id : ScopeId} (h : s.frames.size ≤ id) :
    s.members id = [] := by
  have : s.frames[id]? = none := by simpa using h
  simp [members, bindings, this, Dict.empty]

/-- Binding brings in no value but the one that is bound. -/
theorem Scopes.mem_members_bind {s : Scopes Value} {changed id : ScopeId} {name : Text}
    {u v : Value} (h : v ∈ (s.bind changed name u).members id) : v = u ∨ v ∈ s.members id := by
  simp only [members, bindings_bind] at h
  split at h
  · next hid =>
    obtain ⟨entry, he, rfl⟩ := List.mem_map.mp h
    rcases Dict.mem_put he with rfl | he
    · exact .inl rfl
    · rw [hid.1]
      exact .inr (List.mem_map.mpr ⟨entry, he, rfl⟩)
  · exact .inr h

namespace World

/-- The values that a place holds. -/
def members (w : World) : Place → List Value
  | .scope id => w.scopes.members id
  | .composite c => w.heap.members c

/-- There is such a place. -/
def Has (w : World) : Place → Prop
  | .scope id => id < w.scopes.frames.size
  | .composite c => w.heap.Has c

/-- A place holds the same in two worlds: the same bindings, elements or entries in the same
order. -/
def SameAt (w w' : World) : Place → Prop
  | .scope id => w'.scopes.bindings id = w.scopes.bindings id
  | .composite c => w.heap.SameAt w'.heap c

theorem members_of_not_has {w : World} {p : Place} (h : ¬ w.Has p) : w.members p = [] := by
  cases p with
  | scope id => exact Scopes.members_of_size_le (Nat.le_of_not_lt h)
  | composite c => exact Heap.members_of_not_has h

end World

/-! ## Reachability -/

/-- The scopes of an environment. -/
def Env.places (e : Env) : List Place := e.path.map .scope

/-- The places that a value refers to. -/
def Value.places : Value → List Place
  | .array id => [.composite (.array id)]
  | .table id => [.composite (.table id)]
  | .function (.closure c) => c.env.places
  | _ => []

/-- The places that can be reached from some values: those that they refer to, and those that the
values in a reached place refer to. -/
inductive World.Reaches (w : World) (start : List Value) : Place → Prop
  | start {v : Value} {p : Place} : v ∈ start → p ∈ v.places → Reaches w start p
  | member {p q : Place} {v : Value} :
      Reaches w start p → v ∈ w.members p → q ∈ v.places → Reaches w start q

/-! ## Bounds -/

/-- A part of a world, the spans that the code in this part may have, and the functions that may be
there. -/
structure Bounds where
  place : Place → Prop
  span : Span → Prop
  code : Closure → Prop

/-- Functions may be there if their code may. -/
def Bounds.AdmitCode (b : Bounds) : Prop := ∀ c, b.code c ↔ BlockSpansIn b.span c.body

/-- All scopes of an environment are within bounds. -/
def Env.Within (b : Bounds) (e : Env) : Prop := ∀ id ∈ e.path, b.place (.scope id)

/-- A value refers only to places within bounds, and if it is a function of a script, it is one that
may be there. -/
def Value.Within (b : Bounds) : Value → Prop
  | .array id => b.place (.composite (.array id))
  | .table id => b.place (.composite (.table id))
  | .function (.closure c) => c.env.Within b ∧ b.code c
  | _ => True

/-- What a statement gives is within bounds. -/
def Flow.Within (b : Bounds) : Flow → Prop
  | .give v => v.Within b
  | _ => True

/-- The span that a fault is blamed on is within bounds. -/
def Halt.Within (b : Bounds) : Halt → Prop
  | .fault _ (some span) => b.span span
  | _ => True

/-- A heap that has grown out of `h₀`: what lies within bounds holds only values within bounds,
whatever is still to be made lies within bounds, and what lies outside is as it was. -/
structure Heap.Confined (b : Bounds) (h₀ h : Heap) : Prop where
  members : ∀ c, b.place (.composite c) → ∀ v ∈ h.members c, v.Within b
  fresh : ∀ c, ¬ h.Has c → b.place (.composite c)
  same : ∀ c, ¬ b.place (.composite c) → h₀.SameAt h c

/-- A store of scopes that has grown out of `s₀`, likewise. -/
structure Scopes.Confined (b : Bounds) (s₀ s : Scopes Value) : Prop where
  members : ∀ id, b.place (.scope id) → ∀ v ∈ s.members id, v.Within b
  fresh : ∀ id, s.frames.size ≤ id → b.place (.scope id)
  same : ∀ id, ¬ b.place (.scope id) → s.bindings id = s₀.bindings id

/-- A world that has grown out of `w₀`, likewise. -/
structure World.Confined (b : Bounds) (w₀ w : World) : Prop where
  scopes : w₀.scopes.Confined b w.scopes
  heap : w₀.heap.Confined b w.heap

theorem World.Confined.sameAt {b : Bounds} {w₀ w : World} (h : w₀.Confined b w) {p : Place}
    (hp : ¬ b.place p) : w₀.SameAt w p := by
  cases p with
  | scope id => exact h.scopes.same id hp
  | composite c => exact h.heap.same c hp

/-- A world is confined within bounds that hold what is still to be made and are closed under
reference. -/
theorem World.confined_self {b : Bounds} {w : World}
    (hm : ∀ p, b.place p → ∀ v ∈ w.members p, v.Within b) (hf : ∀ p, ¬ w.Has p → b.place p) :
    w.Confined b w where
  scopes :=
    { members := fun id => hm (.scope id)
      fresh := fun id hid => hf (.scope id) (Nat.not_lt_of_le hid)
      same := fun _ _ => rfl }
  heap :=
    { members := fun c => hm (.composite c)
      fresh := fun c => hf (.composite c)
      same := fun c _ => by cases c <;> rfl }

end HostScript
