import HostScript.Proofs.Run.Forward

/-!
# Assigning and defining in nested scopes

Environments share the scopes around them, so what is bound through one of them may be read through
others. When a scope has bound a name, an environment reads the new value if that scope is now the
nearest one that binds the name, and what it read before otherwise (`Scopes.get?_bind`). In a forest
of environments, where each scope belongs to one environment (`Scopes.Forest`), this says what
assigning and defining in one environment change for all of them (`Run.lookup_after_update`).
-/

namespace HostScript

/-! ## Chains of environments -/

namespace Env

/-- The environment around an environment. A root has none. -/
def parent? : Env → Option Env
  | ⟨_, []⟩ => none
  | ⟨_, id :: outer⟩ => some ⟨id, outer⟩

/-- The environment of a scope that stands inside others, and those around it. -/
def chainFrom : (here : ScopeId) → (outer : List ScopeId) → List Env
  | here, [] => [⟨here, []⟩]
  | here, id :: outer => ⟨here, id :: outer⟩ :: chainFrom id outer

/-- An environment and those around it, the nearest first. The last one is a root. -/
def chain (e : Env) : List Env := chainFrom e.here e.outer

/-- The scopes of an environment are those that its chain has at hand. -/
theorem map_here_chain (e : Env) : e.chain.map here = e.path := by
  obtain ⟨id, outer⟩ := e
  induction outer generalizing id with
  | nil => rfl
  | cons next outer ih => exact congrArg (id :: ·) (ih next)

end Env

namespace Scopes

variable {α : Type} {s s' : Scopes α} {envs : List Env} {e e' : Env} {id : ScopeId}
  {name other : Text} {path : List ScopeId}

/-- An environment binds a name in its own scope. -/
def bindsHere (s : Scopes α) (name : Text) (e : Env) : Bool := (s.bindings e.here).has name

/-- The nearest environment that binds a name, from an environment outwards. -/
def nearest? (s : Scopes α) (name : Text) (e : Env) : Option Env :=
  e.chain.find? (s.bindsHere name)

/-- What `e` binds a name to shows in `e'`: `e` is on the chain of `e'`, and no environment that is
nearer to `e'` binds the name. -/
def ShowsIn (s : Scopes α) (name : Text) (e e' : Env) : Prop :=
  ∃ nearer outer, e'.chain = nearer ++ e :: outer ∧ ∀ d ∈ nearer, s.bindsHere name d = false

theorem owner?_path (s : Scopes α) (name : Text) (e : Env) :
    s.owner? name e.path = (s.nearest? name e).map Env.here := by
  rw [owner?, ← e.map_here_chain, List.find?_map]
  rfl

/-! ## One scope changes -/

@[simp] theorem size_bind (s : Scopes α) (id : ScopeId) (name : Text) (value : α) :
    (s.bind id name value).frames.size = s.frames.size := by
  simp [bind]

theorem has_bindings_bind (hid : id < s.frames.size) (name : Text) (value : α) (i : ScopeId)
    (other : Text) : ((s.bind id name value).bindings i).has other =
      (decide (i = id ∧ other = name) || (s.bindings i).has other) := by
  rw [bindings_bind]
  by_cases hi : i = id
  · simp [hi, hid, Dict.has_put]
  · simp [hi]

theorem owner?_cons_of_has (h : (s.bindings id).has name = true) :
    s.owner? name (id :: path) = some id := by
  simp [owner?, h]

theorem owner?_bind_cons_self (hid : id < s.frames.size) (name : Text) (value : α)
    (path : List ScopeId) : (s.bind id name value).owner? name (id :: path) = some id := by
  apply owner?_cons_of_has
  simp [has_bindings_bind hid]

/-- When a scope binds a name anew, names have the owners that they had. -/
theorem owner?_bind_of_has (hid : id < s.frames.size) (h : (s.bindings id).has name = true)
    (value : α) (other : Text) (path : List ScopeId) :
    (s.bind id name value).owner? other path = s.owner? other path := by
  apply owner?_congr
  intro i _
  rw [has_bindings_bind hid]
  by_cases hi : i = id ∧ other = name
  · simp [hi, h]
  · simp [hi]

/-- When a scope binds a name, the other names have the owners that they had. -/
theorem owner?_bind_of_ne (hid : id < s.frames.size) (h : other ≠ name) (value : α)
    (path : List ScopeId) : (s.bind id name value).owner? other path = s.owner? other path := by
  apply owner?_congr
  intro i _
  simp [has_bindings_bind hid, h]

/-- A scope that binds a name comes to own it along a path, or the owner stays what it was. -/
theorem owner?_bind_cases (hid : id < s.frames.size) (name : Text) (value : α)
    (path : List ScopeId) :
    (s.bind id name value).owner? name path = some id ∨
      (s.bind id name value).owner? name path = s.owner? name path ∧
        s.owner? name path ≠ some id := by
  induction path with
  | nil => exact .inr ⟨rfl, nofun⟩
  | cons i rest ih =>
    by_cases hi : i = id
    · rw [hi]
      exact .inl (owner?_bind_cons_self hid name value rest)
    · have hsame : ((s.bind id name value).bindings i).has name = (s.bindings i).has name := by
        simp [has_bindings_bind hid, hi]
      cases hhas : (s.bindings i).has name with
      | true =>
        rw [owner?_cons_of_has (hsame.trans hhas), owner?_cons_of_has hhas]
        exact .inr ⟨rfl, fun h => hi (Option.some.inj h)⟩
      | false =>
        rw [owner?_cons_of_not_has (hsame.trans hhas), owner?_cons_of_not_has hhas]
        exact ih

/-- A scope that binds a name owns it along a path just if it stands there behind scopes that do not
bind the name. -/
theorem owner?_bind_eq_some_iff (hid : id < s.frames.size) (value : α) :
    (s.bind id name value).owner? name path = some id ↔
      ∃ nearer outer, path = nearer ++ id :: outer ∧
        ∀ i ∈ nearer, (s.bindings i).has name = false := by
  constructor
  · intro h
    obtain ⟨-, nearer, outer, hpath, hnearer⟩ := List.find?_eq_some_iff_append.mp h
    refine ⟨nearer, outer, hpath, ?_⟩
    intro i hi
    have hnot : ((s.bind id name value).bindings i).has name = false := by simpa using hnearer i hi
    rw [has_bindings_bind hid, Bool.or_eq_false_iff] at hnot
    exact hnot.2
  · rintro ⟨nearer, outer, rfl, hnearer⟩
    -- The scope may stand among the nearer ones as well, and owns the name there then.
    induction nearer with
    | nil => exact owner?_bind_cons_self hid name value outer
    | cons i nearer ih =>
      by_cases hi : i = id
      · rw [hi]
        exact owner?_bind_cons_self hid name value _
      · have hnot : ((s.bind id name value).bindings i).has name = false := by
          simp [has_bindings_bind hid, hi, hnearer i List.mem_cons_self]
        rw [List.cons_append, owner?_cons_of_not_has hnot]
        exact ih fun j hj => hnearer j (List.mem_cons_of_mem _ hj)

/-- When a scope has bound a name, an environment in which the scope owns the name reads the new
value. All else is read as it was. -/
theorem get?_bind (hid : id < s.frames.size) (name : Text) (value : α) (e : Env) (other : Text) :
    (s.bind id name value).get? e other =
      if other = name ∧ (s.bind id name value).owner? name e.path = some id then some value
      else s.get? e other := by
  have hread (i : ScopeId) (h : ¬ (other = name ∧ i = id)) :
      ((s.bind id name value).bindings i).get? other = (s.bindings i).get? other := by
    rw [bindings_bind]
    split
    · next hi => rw [hi.1, Dict.get?_put_of_ne _ _ fun hother => h ⟨hother, hi.1⟩]
    · rfl
  by_cases hother : other = name
  · subst hother
    rcases owner?_bind_cases hid other value e.path with howner | ⟨howner, hne⟩
    · simp [get?, howner, bindings_bind, hid]
    · rw [if_neg fun h => hne (howner.symm.trans h.2), get?, get?, howner]
      cases h : s.owner? other e.path with
      | none => rfl
      | some i => exact hread i fun hi => hne (h.trans (congrArg some hi.2))
  · rw [if_neg fun h => hother h.1, get?, get?, owner?_bind_of_ne hid hother]
    cases s.owner? other e.path with
    | none => rfl
    | some i => exact hread i fun h => hother h.1

/-! ## Forests of environments -/

/-- Environments that form trees: each has a scope of its own in the store, and the environment around
it is one of them. -/
structure Forest (s : Scopes α) (envs : List Env) : Prop where
  there : ∀ e ∈ envs, e.here < s.frames.size
  closed : ∀ e ∈ envs, ∀ p, e.parent? = some p → p ∈ envs
  apart : ∀ e ∈ envs, ∀ e' ∈ envs, e.here = e'.here → e = e'

/-- A tree of environments as it grows from its root: environments are made inside others, and names
are defined and assigned in them. -/
inductive Grown : Scopes α → List Env → Prop
  | start : Grown (start : Scopes α × Env).1 [(start : Scopes α × Env).2]
  | child {s : Scopes α} {envs : List Env} {e : Env} :
      Grown s envs → e ∈ envs → Grown (s.child e).2 ((s.child e).1 :: envs)
  | define {s : Scopes α} {envs : List Env} {e : Env} (name : Text) (value : α) :
      Grown s envs → e ∈ envs → Grown (s.define e name value) envs
  | assign {s s' : Scopes α} {envs : List Env} {e : Env} {name : Text} {value : α} :
      Grown s envs → e ∈ envs → s.assign? e name value = some s' → Grown s' envs

namespace Forest

theorem bind (h : s.Forest envs) (id : ScopeId) (name : Text) (value : α) :
    (s.bind id name value).Forest envs where
  there e he := by
    rw [size_bind]
    exact h.there e he
  closed := h.closed
  apart := h.apart

theorem of_start : (start : Scopes α × Env).1.Forest [(start : Scopes α × Env).2] where
  there e he := by
    rw [List.mem_singleton.mp he]
    exact Nat.one_pos
  closed e he p hp := by
    rw [List.mem_singleton.mp he] at hp
    cases hp
  apart e he e' he' _ := by rw [List.mem_singleton.mp he, List.mem_singleton.mp he']

/-- The scope of a new environment is none of those that were there. -/
theorem child (h : s.Forest envs) (he : e ∈ envs) :
    (s.child e).2.Forest ((s.child e).1 :: envs) where
  there d hd := by
    change d.here < (s.frames.push .empty).size
    rw [Array.size_push]
    rcases List.mem_cons.mp hd with rfl | hd
    · exact Nat.lt_succ_self _
    · exact Nat.lt_succ_of_lt (h.there d hd)
  closed d hd p hp := by
    apply List.mem_cons_of_mem
    rcases List.mem_cons.mp hd with rfl | hd
    · cases hp
      exact he
    · exact h.closed d hd p hp
  apart d hd d' hd' heq := by
    rcases List.mem_cons.mp hd with rfl | hd <;> rcases List.mem_cons.mp hd' with rfl | hd'
    · rfl
    · exact absurd heq.symm (Nat.ne_of_lt (h.there d' hd'))
    · exact absurd heq (Nat.ne_of_lt (h.there d hd))
    · exact h.apart d hd d' hd' heq

theorem of_grown (h : Grown s envs) : s.Forest envs := by
  induction h with
  | start => exact of_start
  | child _ he ih => exact ih.child he
  | define name value _ _ ih => exact ih.bind _ name value
  | assign _ _ hassign ih =>
    obtain ⟨id, -, rfl⟩ := Option.map_eq_some_iff.mp hassign
    exact ih.bind id _ _

theorem mem_of_mem_chain (h : s.Forest envs) (he : e ∈ envs) : ∀ d ∈ e.chain, d ∈ envs := by
  obtain ⟨here, outer⟩ := e
  induction outer generalizing here with
  | nil =>
    intro d hd
    rw [List.mem_singleton.mp hd]
    exact he
  | cons id outer ih =>
    intro d hd
    rcases List.mem_cons.mp hd with rfl | hd
    · exact he
    · exact ih id (h.closed _ he _ rfl) d hd

theorem mem_of_nearest? (h : s.Forest envs) (he : e ∈ envs) {d : Env}
    (hd : s.nearest? name e = some d) : d ∈ envs :=
  h.mem_of_mem_chain he d (List.mem_of_find?_eq_some hd)

/-- The scopes that own a name for two environments are the same just if the environments that bind
it nearest to them are. -/
theorem owner?_eq_iff (h : s.Forest envs) (he : e ∈ envs) (he' : e' ∈ envs) :
    s.owner? name e'.path = s.owner? name e.path ↔ s.nearest? name e' = s.nearest? name e := by
  rw [owner?_path, owner?_path]
  constructor
  · intro hmap
    cases hd : s.nearest? name e with
    | none => simpa [hd] using hmap
    | some d =>
      obtain ⟨d', hd', hhere⟩ := Option.map_eq_some_iff.mp (hmap.trans (congrArg _ hd))
      rw [hd', h.apart d' (h.mem_of_nearest? he' hd') d (h.mem_of_nearest? he hd) hhere]
  · intro hnearest
    rw [hnearest]

/-- What an environment binds a name to shows in another one just if its scope stands on the path of
that one behind scopes that do not bind the name. -/
theorem showsIn_iff (h : s.Forest envs) (he : e ∈ envs) (he' : e' ∈ envs) :
    s.ShowsIn name e e' ↔ ∃ nearer outer, e'.path = nearer ++ e.here :: outer ∧
      ∀ i ∈ nearer, (s.bindings i).has name = false := by
  constructor
  · rintro ⟨nearer, outer, hchain, hnearer⟩
    refine ⟨nearer.map Env.here, outer.map Env.here, ?_, ?_⟩
    · rw [← e'.map_here_chain, hchain, List.map_append, List.map_cons]
    · intro i hi
      obtain ⟨d, hd, rfl⟩ := List.mem_map.mp hi
      exact hnearer d hd
  · rintro ⟨nearer, outer, hpath, hnearer⟩
    rw [← e'.map_here_chain] at hpath
    obtain ⟨nearer, rest, hchain, rfl, hrest⟩ := List.map_eq_append_iff.mp hpath
    obtain ⟨d, outer, rfl, hhere, rfl⟩ := List.map_eq_cons_iff.mp hrest
    have hd : d ∈ envs := h.mem_of_mem_chain he' d (by simp [hchain])
    rw [h.apart d hd e he hhere] at hchain
    refine ⟨nearer, outer, hchain, ?_⟩
    intro d hd
    exact hnearer d.here (List.mem_map_of_mem hd)

/-- After a name has been defined in `e`, the scope of `e` owns it where its binding shows. -/
theorem owner?_define_iff (h : s.Forest envs) (he : e ∈ envs) (he' : e' ∈ envs) (value : α) :
    (s.define e name value).owner? name e'.path = some e.here ↔ s.ShowsIn name e e' :=
  (owner?_bind_eq_some_iff (h.there e he) value).trans (h.showsIn_iff he he').symm

/-- After a name has been assigned in `e`, the scope that was written to owns it where the nearest
environment that binds it is the one that is nearest to `e`. -/
theorem owner?_assign_iff (h : s.Forest envs) (he : e ∈ envs) (he' : e' ∈ envs) {d : Env}
    (hd : s.nearest? name e = some d) (value : α) :
    (s.bind d.here name value).owner? name e'.path = some d.here ↔
      s.nearest? name e' = s.nearest? name e := by
  have howner : s.owner? name e.path = some d.here := by rw [owner?_path, hd, Option.map_some]
  have hbinds : s.bindsHere name d = true := List.find?_some hd
  rw [owner?_bind_of_has (h.there d (h.mem_of_nearest? he hd)) hbinds, ← howner]
  exact h.owner?_eq_iff he he'

end Forest

end Scopes

/-! ## Reading after an update -/

namespace World

variable {w w' : World} {e : Env} {id : ScopeId} {name : Name} {v : Value}

/-- What a name reads as in an environment: its value, or the fault that it is not bound. -/
def read (w : World) (e : Env) (name : Name) (span : Span) : Except Halt Value :=
  ((Run.lookup e name span).run w).1

/-- From `w` to `w'` a name comes to read as a value if something holds, and reads as before
otherwise. If it did not read as that value before, it does so now just if that holds. -/
structure Rereads (w w' : World) (e : Env) (name : Name) (v : Value) (changes : Prop) : Prop where
  changed : changes → ∀ span, w'.read e name span = .ok v
  kept : ¬ changes → ∀ span, w'.read e name span = w.read e name span
  exactly : ∀ span, w.read e name span ≠ .ok v → (w'.read e name span = .ok v ↔ changes)

theorem read_of_get? (h : w.scopes.get? e name = some v) (span : Span) :
    w.read e name span = .ok v :=
  congrArg Prod.fst (Run.run_lookup_of_get? h span)

theorem read_congr (h : w'.scopes.get? e name = w.scopes.get? e name) (span : Span) :
    w'.read e name span = w.read e name span := by
  cases hv : w.scopes.get? e name with
  | none =>
    rw [read, read, Run.run_lookup_of_not_bound hv, Run.run_lookup_of_not_bound (h.trans hv)]
  | some v => rw [read_of_get? hv, read_of_get? (h.trans hv)]

theorem rereads_of_get? {changes : Prop} (hchanged : changes → w'.scopes.get? e name = some v)
    (hkept : ¬ changes → w'.scopes.get? e name = w.scopes.get? e name) :
    w.Rereads w' e name v changes where
  changed h := read_of_get? (hchanged h)
  kept h := read_congr (hkept h)
  exactly span hother := by
    by_cases h : changes
    · exact ⟨fun _ => h, fun _ => read_of_get? (hchanged h) span⟩
    · rw [read_congr (hkept h)]
      exact ⟨fun hv => absurd hv hother, fun hc => absurd hc h⟩

theorem rereads_bind (hid : id < w.next) {shows : Prop}
    (hshows : (w.scopes.bind id name v).owner? name e.path = some id ↔ shows) (other : Name) :
    w.Rereads (w.bind id name v) e other v (other = name ∧ shows) := by
  have hget := w.scopes.get?_bind hid name v e other
  apply rereads_of_get?
  · rintro ⟨hother, h⟩
    exact hget.trans (if_pos ⟨hother, hshows.mpr h⟩)
  · intro h
    exact hget.trans (if_neg fun hnew => h ⟨hnew.1, hshows.mp hnew.2⟩)

end World

namespace Run

variable {w : World} {envs : List Env} {e e' : Env}

/-- In a forest of environments assigning succeeds just if some environment on the chain binds the
name. The new value is then read by that name wherever the nearest environment that binds it is the
same; all else reads as before, and a failure changes nothing. Defining succeeds, and the new value
is read by that name wherever the binding shows; all else reads as before. -/
theorem lookup_after_update (hforest : w.scopes.Forest envs) (he : e ∈ envs) (he' : e' ∈ envs)
    (name other : Name) (v : Value) (span : Span) :
    ((∃ w', (assign e name v span).run w = (.ok (), w')) ↔
      ∃ d ∈ e.chain, w.scopes.bindsHere name d) ∧
    (∀ w', (assign e name v span).run w = (.ok (), w') → w.Rereads w' e' other v
      (other = name ∧ w.scopes.nearest? name e' = w.scopes.nearest? name e)) ∧
    (∀ halt w', (assign e name v span).run w = (.error halt, w') →
      halt = .fault (.undefinedTarget name) (some span) ∧ w' = w) ∧
    ∃ w', (define e name v).run w = (.ok (), w') ∧
      w.Rereads w' e' other v (other = name ∧ w.scopes.ShowsIn name e e') := by
  have hdefine : w.Rereads (w.bind e.here name v) e' other v
      (other = name ∧ w.scopes.ShowsIn name e e') :=
    World.rereads_bind (hforest.there e he) (hforest.owner?_define_iff he he' v) other
  have howner := w.scopes.owner?_path name e
  -- A name that is bound on the chain has a nearest environment there, and that is written to.
  rw [← List.find?_isSome]
  change (_ ↔ (w.scopes.nearest? name e).isSome) ∧ _
  cases hnearest : w.scopes.nearest? name e with
  | none =>
    rw [hnearest] at howner
    rw [run_assign_of_not_bound howner]
    refine ⟨⟨nofun, nofun⟩, nofun, ?_, _, rfl, hdefine⟩
    rintro halt w' ⟨⟩
    exact ⟨rfl, rfl⟩
  | some d =>
    rw [hnearest] at howner
    have hthere := hforest.there d (hforest.mem_of_nearest? he hnearest)
    have hassign := World.rereads_bind hthere (hforest.owner?_assign_iff he he' hnearest v) other
    rw [hnearest] at hassign
    rw [run_assign_of_owner? howner]
    refine ⟨⟨fun _ => rfl, fun _ => ⟨_, rfl⟩⟩, ?_, nofun, _, rfl, hdefine⟩
    rintro w' ⟨⟩
    exact hassign

/-! ## A name that is bound twice -/

/-- A root with two scopes inside it, one of which has another one inside. The root and the scope
that has one inside bind the same name. -/
def shadowing : World :=
  let (s, root) := Scopes.start
  let (inner, s) := s.child root
  let (_, s) := s.child inner
  let (_, s) := s.child root
  ⟨(s.define root "x" .null).define inner "x" (.boolean false), .empty, 0, #[], none, []⟩

def shadowingTree : List Env := [⟨3, [0]⟩, ⟨2, [1, 0]⟩, ⟨1, [0]⟩, ⟨0, []⟩]

theorem grown_shadowing : shadowing.scopes.Grown shadowingTree := by
  have hroot : Scopes.Grown (Scopes.start : Scopes Value × Env).1 [⟨0, []⟩] := .start
  have hinner := hroot.child (e := ⟨0, []⟩) (by decide)
  have hleaf := hinner.child (e := ⟨1, [0]⟩) (by decide)
  have hbeside := hleaf.child (e := ⟨0, []⟩) (by decide)
  have hdefined := hbeside.define "x" .null (e := ⟨0, []⟩) (by decide)
  exact hdefined.define "x" (.boolean false) (e := ⟨1, [0]⟩) (by decide)

/-- What is assigned in the innermost scope is read in the one around it and not beside. What is
defined in the root is read beside, and is hidden from the innermost scope. -/
theorem lookup_after_update_shadowing :
    shadowing.scopes.Forest shadowingTree ∧ ⟨0, []⟩ ∈ shadowingTree ∧ ⟨1, [0]⟩ ∈ shadowingTree ∧
      ⟨2, [1, 0]⟩ ∈ shadowingTree ∧ ⟨3, [0]⟩ ∈ shadowingTree ∧
      (∃ w', (assign ⟨2, [1, 0]⟩ "x" (.boolean true) ⟨0, 1, 1⟩).run shadowing = (.ok (), w') ∧
        w'.read ⟨1, [0]⟩ "x" ⟨0, 1, 1⟩ = .ok (.boolean true) ∧
        w'.read ⟨3, [0]⟩ "x" ⟨0, 1, 1⟩ = .ok .null) ∧
      ∃ w', (define ⟨0, []⟩ "x" (.boolean true)).run shadowing = (.ok (), w') ∧
        w'.read ⟨3, [0]⟩ "x" ⟨0, 1, 1⟩ = .ok (.boolean true) ∧
        w'.read ⟨2, [1, 0]⟩ "x" ⟨0, 1, 1⟩ = .ok (.boolean false) := by
  have hforest := Scopes.Forest.of_grown grown_shadowing
  have hroot : ⟨0, []⟩ ∈ shadowingTree := by decide
  have hinner : ⟨1, [0]⟩ ∈ shadowingTree := by decide
  have hleaf : ⟨2, [1, 0]⟩ ∈ shadowingTree := by decide
  have hbeside : ⟨3, [0]⟩ ∈ shadowingTree := by decide
  refine ⟨hforest, hroot, hinner, hleaf, hbeside, ?_, ?_⟩
  · obtain ⟨hassigns, haround, -⟩ :=
      lookup_after_update hforest hleaf hinner "x" "x" (.boolean true) ⟨0, 1, 1⟩
    obtain ⟨-, hapart, -⟩ :=
      lookup_after_update hforest hleaf hbeside "x" "x" (.boolean true) ⟨0, 1, 1⟩
    obtain ⟨w', hrun⟩ := hassigns.mpr ⟨⟨1, [0]⟩, by decide, rfl⟩
    refine ⟨w', hrun, (haround w' hrun).changed ⟨rfl, rfl⟩ _, ?_⟩
    exact (hapart w' hrun).kept (by decide +kernel) _
  · obtain ⟨-, -, -, w', hrun, hapart⟩ :=
      lookup_after_update hforest hroot hbeside "x" "x" (.boolean true) ⟨0, 1, 1⟩
    obtain ⟨-, -, -, w'', hrun', hhidden⟩ :=
      lookup_after_update hforest hroot hleaf "x" "x" (.boolean true) ⟨0, 1, 1⟩
    cases hrun.symm.trans hrun'
    have hshows : shadowing.scopes.ShowsIn "x" ⟨0, []⟩ ⟨3, [0]⟩ :=
      ⟨[⟨3, [0]⟩], [], rfl, by decide +kernel⟩
    have hhides : ¬ shadowing.scopes.ShowsIn "x" ⟨0, []⟩ ⟨2, [1, 0]⟩ := by
      rw [← hforest.owner?_define_iff hroot hleaf .null]
      decide +kernel
    refine ⟨w', hrun, hapart.changed ⟨rfl, hshows⟩ _, ?_⟩
    exact hhidden.kept (fun h => hhides h.2) _

end Run

end HostScript
