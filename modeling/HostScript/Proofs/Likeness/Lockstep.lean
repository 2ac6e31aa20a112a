import HostScript.Proofs.Likeness.Heaps
import HostScript.Proofs.Run.Steps

/-!
# Runs in lockstep

Two runs go in lockstep if from worlds that are alike they come to worlds that are alike, with
results or halts that are alike. The kinds of the scopes that there are stay what they are; scopes
that come in are of kinds that both runs agree on. There is one rule for each way in which runs are
put together, and one for each operation on scopes.
-/

namespace HostScript

variable {b : Likeness} {kinds more : List ScopeKind} {region : Region}

/-! ## Worlds -/

/-- Stores of scopes that are alike. A frame binds the parameter that has another name. -/
structure Scopes.Like (b : Likeness) (kinds : List ScopeKind) (s s' : Scopes Value) : Prop where
  size : s.frames.size = kinds.length
  size' : s'.frames.size = kinds.length
  bindings : ∀ {id k}, kinds[id]? = some k →
    (s.bindings id).Like b kinds k.region (s'.bindings id)
  frames : ∀ {id}, kinds[id]? = some .frame → ∃ n, b.old = some n ∧ (s.bindings id).has n = true

/-- Worlds that are alike. The host has seen the same calls, and what shows is the same. -/
structure World.Like (b : Likeness) (kinds : List ScopeKind) (w w' : World) : Prop where
  scopes : w.scopes.Like b kinds w'.scopes
  heap : w.heap.Like b kinds w'.heap
  closures : w'.closures = w.closures
  events : w'.events.toList.filter b.shows = w.events.toList.filter b.shows
  link : w'.link = w.link
  replies : w'.replies = w.replies
  kinds : b.old = none → ∀ k ∈ kinds, k = .outside

/-- Halts that are alike: the same, but for the place that is blamed. -/
def Halt.Like (b : Likeness) : Halt → Halt → Prop
  | .fault cause span, h => ∃ span', h = .fault cause span' ∧ Option.Rel b.span span span'
  | h, h' => h' = h

/-- Outcomes that are alike. -/
def OutcomeLike {α : Type} (b : Likeness) (Q : α → α → Prop) :
    Except Halt α → Except Halt α → Prop
  | .ok a, .ok a' => Q a a'
  | .error h, .error h' => h.Like b h'
  | _, _ => False

theorem World.Like.hostCalls {w w' : World} (hw : w.Like b kinds w') :
    World.hostCalls w'.events.toList = World.hostCalls w.events.toList := by
  have hfilter (es : List Event) : World.hostCalls (es.filter b.shows) = World.hostCalls es := by
    induction es with
    | nil => rfl
    | cons e rest ih =>
      rw [List.filter_cons]
      split
      · cases e <;> simp_all [World.hostCalls]
      · cases e with
        | called c => exact absurd (b.shows_called c) ‹_›
        | _ => simpa [World.hostCalls] using ih
  rw [← hfilter, hw.events, hfilter]

/-! ## Scopes -/

theorem Scopes.owner?_eq_none {α : Type} {s : Scopes α} {env : Env} {n : Text}
    (h : s.get? env n = none) : s.owner? n env.path = none := by
  cases ho : s.owner? n env.path with
  | none => rfl
  | some id =>
    have hbound : (s.bindings id).has n = true := by simpa using List.find?_some ho
    have hnone : (s.bindings id).get? n = none := by simpa [Scopes.get?, ho] using h
    simp [Dict.has, hnone] at hbound

/-- The kind of a scope that was there before the last one. -/
theorem ScopeKind.of_ne_length {k k' : ScopeKind} {id : ScopeId}
    (h : (kinds ++ [k])[id]? = some k') (hne : id ≠ kinds.length) : kinds[id]? = some k' := by
  obtain ⟨hlt, -⟩ := List.getElem?_eq_some_iff.mp h
  rw [List.length_append, List.length_singleton] at hlt
  have hlt : id < kinds.length := Nat.lt_of_le_of_ne (Nat.le_of_lt_succ hlt) hne
  rwa [List.getElem?_append_left hlt] at h

namespace Scopes.Like

variable {s s' : Scopes Value} {env : Env} {n : Name}

theorem has (hs : s.Like b kinds s') {id : ScopeId} {k : ScopeKind} (hk : kinds[id]? = some k)
    (hn : b.Admits k.region n) :
    (s'.bindings id).has (b.name k.region n) = (s.bindings id).has n :=
  (hs.bindings hk).has hn

/-- A name is bound in the same scope in both runs. There it is replaced or not, just as it is where
it is used. -/
theorem owner? (hs : s.Like b kinds s') (he : env.StandsIn kinds region)
    (hn : b.Admits region n) :
    s'.owner? (b.name region n) env.path = s.owner? n env.path ∧
      ∀ id, s.owner? n env.path = some id → ∃ k, kinds[id]? = some k ∧ b.Admits k.region n ∧
        b.name k.region n = b.name region n := by
  cases region with
  | outside =>
    refine ⟨owner?_congr fun id hid => hs.has (k := .outside) (he id hid) hn, fun id hid => ?_⟩
    exact ⟨.outside, he id (owner?_mem hid), hn, rfl⟩
  | inside =>
    obtain ⟨inner, outer, hpath, -, hinner, ⟨frame, hframe, hkind⟩, houter⟩ := he
    have hregion {id : ScopeId} (hid : id ∈ inner) :
        ∃ k, kinds[id]? = some k ∧ k.region = .inside := by
      obtain ⟨k, hk, hne⟩ := hinner id hid
      exact ⟨k, hk, by cases k <;> first | rfl | exact absurd rfl hne⟩
    have hhas {id : ScopeId} (hid : id ∈ inner) :
        (s'.bindings id).has (b.name .inside n) = (s.bindings id).has n := by
      obtain ⟨k, hk, hr⟩ := hregion hid
      have := hs.has hk (hr ▸ hn)
      rwa [hr] at this
    rw [hpath]
    by_cases hold : b.old = some n
    · -- the frame binds the parameter, so no scope outside is looked at
      have hfound : (inner.find? fun id => (s.bindings id).has n).isSome := by
        obtain ⟨m, hm, hbound⟩ := hs.frames hkind
        obtain rfl := Option.some.inj (hold.symm.trans hm)
        exact List.find?_isSome.mpr ⟨frame, hframe, hbound⟩
      have hsame : s'.owner? (b.name .inside n) inner = s.owner? n inner :=
        owner?_congr fun id hid => hhas hid
      have happend {s : Scopes Value} {m : Name} (h : (s.owner? m inner).isSome) :
          s.owner? m (inner ++ outer) = s.owner? m inner := by
        simp only [Scopes.owner?, List.find?_append] at h ⊢
        exact Option.or_of_isSome h
      rw [happend hfound, happend (hsame ▸ hfound)]
      refine ⟨hsame, fun id hid => ?_⟩
      obtain ⟨k, hk, hr⟩ := hregion (owner?_mem hid)
      exact ⟨k, hk, hr ▸ hn, by rw [hr]⟩
    · have hname : b.name .inside n = n := if_neg hold
      rw [hname] at hhas ⊢
      refine ⟨owner?_congr fun id hid => ?_, fun id hid => ?_⟩
      · rcases List.mem_append.mp hid with hid | hid
        · exact hhas hid
        · exact hs.has (k := .outside) (houter id hid) Likeness.admits_outside
      · rcases List.mem_append.mp (owner?_mem hid) with hid | hid
        · obtain ⟨k, hk, hr⟩ := hregion hid
          exact ⟨k, hk, hr ▸ hn, by rw [hr, hname]⟩
        · exact ⟨.outside, houter id hid, Likeness.admits_outside, rfl⟩

/-- A name that is not bound stays as it is: the parameter with another name always is bound. -/
theorem name_of_not_bound (hs : s.Like b kinds s') (he : env.StandsIn kinds region)
    (ho : s.owner? n env.path = none) : b.name region n = n := by
  cases region with
  | outside => rfl
  | inside =>
    refine if_neg fun hold => ?_
    obtain ⟨inner, outer, hpath, -, -, ⟨frame, hframe, hkind⟩, -⟩ := he
    obtain ⟨m, hm, hbound⟩ := hs.frames hkind
    obtain rfl := Option.some.inj (hold.symm.trans hm)
    have hmem : frame ∈ env.path := hpath ▸ List.mem_append_left _ hframe
    exact List.find?_eq_none.mp ho frame hmem hbound

theorem get? (hs : s.Like b kinds s') (he : env.StandsIn kinds region) (hn : b.Admits region n) :
    Option.Rel (Value.Like b kinds) (s.get? env n) (s'.get? env (b.name region n)) := by
  obtain ⟨howner, hkind⟩ := hs.owner? he hn
  simp only [Scopes.get?, howner]
  cases ho : s.owner? n env.path with
  | none => exact .none
  | some id =>
    obtain ⟨k, hk, hadmits, hname⟩ := hkind id ho
    have hget := (hs.bindings hk).get? hadmits
    rwa [hname] at hget

theorem bind (hs : s.Like b kinds s') {id : ScopeId} {k : ScopeKind} (hk : kinds[id]? = some k)
    (hn : b.Admits k.region n) {v v' : Value} (hv : v.Like b kinds v') :
    (s.bind id n v).Like b kinds (s'.bind id (b.name k.region n) v') where
  size := by simpa [Scopes.bind] using hs.size
  size' := by simpa [Scopes.bind] using hs.size'
  bindings := fun {other k'} hk' => by
    simp only [bindings_bind, hs.size, hs.size']
    split
    · next h =>
      obtain rfl := h.1
      obtain rfl := Option.some.inj (hk.symm.trans hk')
      exact (hs.bindings hk).put hn hv
    · exact hs.bindings hk'
  frames := fun {other} hk' => by
    obtain ⟨m, hm, hbound⟩ := hs.frames hk'
    refine ⟨m, hm, ?_⟩
    simp only [bindings_bind]
    split
    · next h =>
      obtain rfl := h.1
      rw [Dict.has_put, hbound, Bool.or_true]
    · exact hbound

/-- A new scope, of some kind, with bindings that are alike. -/
theorem push (hs : s.Like b kinds s') (k : ScopeKind) {d d' : Dict Value}
    (hd : d.Like b (kinds ++ [k]) k.region d')
    (hframe : k = .frame → ∃ n, b.old = some n ∧ d.has n = true) :
    (⟨s.frames.push d⟩ : Scopes Value).Like b (kinds ++ [k]) ⟨s'.frames.push d'⟩ where
  size := by simp [hs.size]
  size' := by simp [hs.size']
  bindings := fun {id k'} hk' => by
    simp only [bindings_push, hs.size, hs.size']
    by_cases hid : id = kinds.length
    · subst hid
      obtain rfl : k = k' := by simpa using hk'
      simpa using hd
    · rw [if_neg hid, if_neg hid]
      exact (hs.bindings (ScopeKind.of_ne_length hk' hid)).mono (List.prefix_append _ _)
  frames := fun {id} hk' => by
    simp only [bindings_push, hs.size]
    by_cases hid : id = kinds.length
    · subst hid
      obtain rfl : k = .frame := by simpa using hk'
      simpa using hframe rfl
    · rw [if_neg hid]
      exact hs.frames (ScopeKind.of_ne_length hk' hid)

end Scopes.Like

/-- A new scope comes in. -/
theorem World.Like.push {w w' : World} (hw : w.Like b kinds w') {k : ScopeKind}
    (hk : b.old = none → k = .outside) {d d' : Dict Value}
    (hd : d.Like b (kinds ++ [k]) k.region d')
    (hframe : k = .frame → ∃ n, b.old = some n ∧ d.has n = true) :
    ({ w with scopes := ⟨w.scopes.frames.push d⟩ } : World).Like b (kinds ++ [k])
      { w' with scopes := ⟨w'.scopes.frames.push d'⟩ } where
  scopes := hw.scopes.push k hd hframe
  heap := hw.heap.mono (List.prefix_append _ _)
  closures := hw.closures
  events := hw.events
  link := hw.link
  replies := hw.replies
  kinds hold k' hk' := by
    rcases List.mem_append.mp hk' with hk' | hk'
    · exact hw.kinds hold k' hk'
    · obtain rfl := List.mem_singleton.mp hk'
      exact hk hold

/-- Two events happen of which the same shows. -/
theorem World.Like.noted {w w' : World} (hw : w.Like b kinds w') {e e' : Event}
    (he : [e'].filter b.shows = [e].filter b.shows) :
    ({ w with events := w.events.push e } : World).Like b kinds
      { w' with events := w'.events.push e' } where
  scopes := hw.scopes
  heap := hw.heap
  closures := hw.closures
  events := by
    rw [Array.toList_push, Array.toList_push, List.filter_append, List.filter_append, hw.events, he]
  link := hw.link
  replies := hw.replies
  kinds := hw.kinds

/-- Where no parameter has another name, all code stands outside. -/
theorem World.Like.eq_outside {w w' : World} (hw : w.Like b kinds w') (hold : b.old = none)
    {env : Env} (he : env.StandsIn kinds region) : region = .outside := by
  cases region with
  | outside => rfl
  | inside =>
    obtain ⟨inner, outer, -, -, -, ⟨frame, -, hkind⟩, -⟩ := he
    exact nomatch hw.kinds hold .frame (List.mem_of_getElem? hkind)

/-! ## Rules -/

namespace Run

variable {α β γ : Type}

/-- From worlds that are alike two runs come to worlds that are alike and end alike. The scopes that
come in meanwhile have kinds, which the results may speak about. -/
def Lockstep (b : Likeness) (kinds : List ScopeKind) (m m' : Run α)
    (Q : List ScopeKind → α → α → Prop) : Prop :=
  ∀ w w', w.Like b kinds w' → ∃ more, kinds <+: more ∧ (m.run w).2.Like b more (m'.run w').2 ∧
    OutcomeLike b (Q more) (m.run w).1 (m'.run w').1

variable {P Q : List ScopeKind → α → α → Prop} {R : List ScopeKind → β → β → Prop}

theorem lockstep_pure {a a' : α} (h : Q kinds a a') : Lockstep b kinds (pure a) (pure a') Q :=
  fun _ _ hw => ⟨kinds, List.prefix_rfl, hw, h⟩

theorem lockstep_halt {h h' : Halt} (hh : h.Like b h') :
    Lockstep b kinds (halt h) (halt h') Q :=
  fun _ _ hw => ⟨kinds, List.prefix_rfl, hw, hh⟩

theorem lockstep_bind {m m' : Run α} {f f' : α → Run β} (hm : Lockstep b kinds m m' P)
    (hf : ∀ more, kinds <+: more → ∀ a a', P more a a' → Lockstep b more (f a) (f' a') R) :
    Lockstep b kinds (m >>= f) (m' >>= f') R := by
  intro w w' hw
  obtain ⟨more, hmore, hworld, hout⟩ := hm w w' hw
  rw [run_bind, run_bind]
  rcases hr : m.run w with ⟨h | a, u⟩ <;> rcases hr' : m'.run w' with ⟨h' | a', u'⟩ <;>
    rw [hr, hr'] at hout hworld
  · exact ⟨more, hmore, hworld, hout⟩
  · exact hout.elim
  · exact hout.elim
  · obtain ⟨last, hlast, hend⟩ := hf more hmore a a' hout u u' hworld
    exact ⟨last, hmore.trans hlast, hend⟩

theorem lockstep_return {m m' : Run α} (hm : Lockstep b kinds m m' P) {g g' : α → β}
    (hg : ∀ more, kinds <+: more → ∀ a a', P more a a' → R more (g a) (g' a')) :
    Lockstep b kinds (do return g (← m)) (do return g' (← m')) R :=
  lockstep_bind hm fun more hmore a a' ha => lockstep_pure (hg more hmore a a' ha)

theorem lockstep_discard {m m' : Run α} (hm : Lockstep b kinds m m' P) :
    Lockstep b kinds (discard m) (discard m') fun _ _ _ => True := by
  rw [discard_eq_bind, discard_eq_bind]
  exact lockstep_bind hm fun _ _ _ _ _ => lockstep_pure trivial

/-! ## Blocks and loops -/

theorem lockstep_block {step step' : Stmt → Run Flow} {body body' : List Stmt}
    (hbody : BlockLike b region body body')
    (h : ∀ more, kinds <+: more → ∀ s s', StmtLike b region s s' →
      Lockstep b more (step s) (step' s') (Flow.Like b)) :
    Lockstep b kinds (block step body) (block step' body') (Flow.Like b) := by
  induction body generalizing kinds body' with
  | nil =>
    cases hbody
    exact lockstep_pure rfl
  | cons s rest ih =>
    cases hbody with
    | cons hs hrest =>
      rw [block, block]
      refine lockstep_bind (h kinds List.prefix_rfl s _ hs) fun more hmore f f' hflow => ?_
      rcases hflow.cases with ⟨rfl, rfl⟩ | ⟨rfl, rfl⟩ | ⟨v, v', rfl, rfl, hv⟩
      · exact ih hrest fun last hlast => h last (hmore.trans hlast)
      · exact lockstep_pure rfl
      · exact lockstep_pure ⟨v', rfl, hv⟩

theorem lockstep_iterate {body body' : Run Flow}
    (h : ∀ more, kinds <+: more → Lockstep b more body body' (Flow.Like b)) (bound : Nat) :
    Lockstep b kinds (iterate body bound) (iterate body' bound) (Flow.Like b) := by
  induction bound generalizing kinds with
  | zero => exact lockstep_halt rfl
  | succ bound ih =>
    rw [iterate, iterate]
    refine lockstep_bind (h kinds List.prefix_rfl) fun more hmore f f' hflow => ?_
    rcases hflow.cases with ⟨rfl, rfl⟩ | ⟨rfl, rfl⟩ | ⟨v, v', rfl, rfl, hv⟩
    · exact ih fun last hlast => h last (hmore.trans hlast)
    · exact lockstep_pure rfl
    · exact lockstep_pure ⟨v', rfl, hv⟩

theorem lockstep_mapM {f f' : α → Run β} {r : α → α → Prop} {S : List ScopeKind → β → β → Prop}
    (hmono : ∀ {kinds more y y'}, kinds <+: more → S kinds y y' → S more y y')
    {xs xs' : List α} (hxs : List.Forall₂ r xs xs')
    (h : ∀ more, kinds <+: more → ∀ x x', r x x' → Lockstep b more (f x) (f' x') S) :
    Lockstep b kinds (xs.mapM f) (xs'.mapM f') fun more => List.Forall₂ (S more) := by
  induction hxs generalizing kinds with
  | nil => exact lockstep_pure .nil
  | cons hx _ ih =>
    rw [List.mapM_cons, List.mapM_cons]
    refine lockstep_bind (h kinds List.prefix_rfl _ _ hx) fun more hmore y y' hy => ?_
    refine lockstep_bind (ih fun last hlast => h last (hmore.trans hlast)) fun last hlast ys ys' hys => ?_
    exact lockstep_pure (.cons (hmono hlast hy) hys)

/-! ## Operations on worlds -/

theorem lockstep_get : Lockstep b kinds get get (World.Like b) :=
  fun _ _ hw => ⟨kinds, List.prefix_rfl, hw, hw⟩

theorem lockstep_heap : Lockstep b kinds heap heap (Heap.Like b) :=
  fun _ _ hw => ⟨kinds, List.prefix_rfl, hw, hw.heap⟩

theorem lockstep_onHeap {f f' : Heap → Value × Heap}
    (h : ∀ {h h' : Heap}, h.Like b kinds h' → Heap.OutcomeLike b kinds (f h) (f' h')) :
    Lockstep b kinds (onHeap f) (onHeap f') (Value.Like b) := by
  intro w w' hw
  obtain ⟨hv, hheap⟩ := h hw.heap
  exact ⟨kinds, List.prefix_rfl, { hw with heap := hheap }, hv⟩

theorem lockstep_modifyGet {f f' : World → α × World} {Q : List ScopeKind → α → α → Prop}
    (h : ∀ w w', w.Like b kinds w' → (f w).2.Like b kinds (f' w').2 ∧ Q kinds (f w).1 (f' w').1) :
    Lockstep b kinds (modifyGet f) (modifyGet f') Q := by
  intro w w' hw
  obtain ⟨hworld, hq⟩ := h w w' hw
  exact ⟨kinds, List.prefix_rfl, hworld, hq⟩

theorem lockstep_note (e : Event) : Lockstep b kinds (note e) (note e) fun _ _ _ => True :=
  fun _ _ hw => ⟨kinds, List.prefix_rfl, hw.noted rfl, trivial⟩

theorem lockstep_lookup {env : Env} (he : env.StandsIn kinds region) {n : Name}
    (hn : b.Admits region n) {σ σ' : Span} (hσ : b.span σ σ') :
    Lockstep b kinds (lookup env n σ) (lookup env (b.name region n) σ') (Value.Like b) := by
  intro w w' hw
  have hget := hw.scopes.get? he hn
  rcases hv : w.scopes.get? env n with _ | v <;>
    rcases hv' : w'.scopes.get? env (b.name region n) with _ | v' <;> rw [hv, hv'] at hget
  · have ho := Scopes.owner?_eq_none hv
    rw [run_lookup_of_not_bound hv, run_lookup_of_not_bound hv', hw.scopes.name_of_not_bound he ho]
    exact ⟨kinds, List.prefix_rfl, hw, some σ', rfl, .some hσ⟩
  · exact nomatch hget
  · exact nomatch hget
  · rw [run_lookup_of_get? hv, run_lookup_of_get? hv']
    cases hget with
    | some hlike => exact ⟨kinds, List.prefix_rfl, hw, hlike⟩

/-- Changing scopes that are alike to scopes that are. -/
theorem lockstep_onScopes {f f' : Scopes Value → Scopes Value}
    (h : ∀ {s s' : Scopes Value}, s.Like b kinds s' → (f s).Like b kinds (f' s')) :
    Lockstep b kinds (onScopes f) (onScopes f') fun _ _ _ => True :=
  fun _ _ hw => ⟨kinds, List.prefix_rfl, { hw with scopes := h hw.scopes }, trivial⟩

theorem lockstep_define {env : Env} (he : env.StandsIn kinds region) {n : Name}
    (hn : b.Admits region n) {v v' : Value} (hv : v.Like b kinds v') :
    Lockstep b kinds (define env n v) (define env (b.name region n) v') fun _ _ _ => True := by
  obtain ⟨k, hk, rfl⟩ := he.here
  exact lockstep_onScopes fun hs => hs.bind hk hn hv

theorem lockstep_assign {env : Env} (he : env.StandsIn kinds region) {n : Name}
    (hn : b.Admits region n) {v v' : Value} (hv : v.Like b kinds v') {σ σ' : Span}
    (hσ : b.span σ σ') :
    Lockstep b kinds (assign env n v σ) (assign env (b.name region n) v' σ')
      fun _ _ _ => True := by
  intro w w' hw
  obtain ⟨howner, hkind⟩ := hw.scopes.owner? he hn
  rcases ho : w.scopes.owner? n env.path with _ | id
  · rw [run_assign_of_not_bound ho, run_assign_of_not_bound (howner.trans ho),
      hw.scopes.name_of_not_bound he ho]
    exact ⟨kinds, List.prefix_rfl, hw, some σ', rfl, .some hσ⟩
  · obtain ⟨k, hk, hadmits, hname⟩ := hkind id ho
    have hbind := hw.scopes.bind hk hadmits hv
    rw [hname] at hbind
    rw [run_assign_of_owner? ho, run_assign_of_owner? (howner.trans ho)]
    exact ⟨kinds, List.prefix_rfl, { hw with scopes := hbind }, trivial⟩

theorem lockstep_enter {env : Env} (he : env.StandsIn kinds region) :
    Lockstep b kinds (enter env) (enter env)
      fun more inner inner' => inner' = inner ∧ inner.StandsIn more region := by
  intro w w' hw
  have hkind : b.old = none → region.scope = .outside := by
    intro hold
    obtain rfl := hw.eq_outside hold he
    rfl
  have hregion : region.scope.region = region := by cases region <;> rfl
  refine ⟨_, List.prefix_append _ _, hw.push hkind .empty ?_, ?_⟩
  · cases region <;> exact nofun
  · rw [run_enter, run_enter]
    have hsize := hw.scopes.size
    have hsize' := hw.scopes.size'
    simp only [Scopes.child, OutcomeLike, hsize, hsize', true_and]
    exact he.enter

theorem lockstep_newFunction {env : Env} (he : env.StandsIn kinds region) {inner : Region}
    {parameters : List Name} (ho : b.Opens region parameters inner)
    (hp : ∀ n ∈ parameters, b.Admits inner n) {body body' : List Stmt}
    (hbody : BlockLike b inner body body') (name : Option Name) :
    Lockstep b kinds (newFunction name parameters body env)
      (newFunction name (parameters.map (b.name inner)) body' env) (Value.Like b) := by
  intro w w' hw
  refine ⟨kinds, List.prefix_rfl, { hw with closures := congrArg (· + 1) hw.closures }, ?_⟩
  exact ⟨_, rfl, hw.closures, rfl, rfl, region, inner, he, ho, hp, rfl, hbody⟩

/-! ## Frames of calls -/

/-- Names that are all bound in some entries are bound in their dictionary. -/
theorem has_ofList {entries : List (Text × Value)} {n : Text} (h : n ∈ entries.map (·.1)) :
    (Dict.ofList entries).has n = true := by
  suffices ∀ d : Dict Value, (n ∈ entries.map (·.1) ∨ d.has n = true) →
      (entries.foldl (fun d e => d.put e.1 e.2) d).has n = true from this .empty (.inl h)
  clear h
  induction entries with
  | nil => exact fun d h => h.resolve_left List.not_mem_nil
  | cons e rest ih =>
    intro d h
    refine ih _ ?_
    rcases h with h | h
    · rcases List.mem_cons.mp h with rfl | h
      · exact .inr (by simp [Dict.has])
      · exact .inl h
    · exact .inr (by rw [Dict.has_put, h, Bool.or_true])

/-- Parameters and arguments are alike. -/
theorem entries_zip {parameters : List Name} (hp : ∀ n ∈ parameters, b.Admits region n)
    {values values' : List Value} (hv : List.Forall₂ (Value.Like b kinds) values values') :
    List.Forall₂ (EntryLike b kinds region) (parameters.zip values)
      ((parameters.map (b.name region)).zip values') := by
  induction parameters generalizing values values' with
  | nil => exact .nil
  | cons n rest ih =>
    cases hv with
    | nil => exact .nil
    | cons hfirst hrest =>
      exact .cons ⟨hp n List.mem_cons_self, rfl, hfirst⟩
        (ih (fun m hm => hp m (List.mem_cons_of_mem _ hm)) hrest)

/-- The scope of a call comes in with the parameters bound. It is a frame if one of them has another
name. -/
theorem lockstep_enterCall {c d : Closure} (hc : c.Like b kinds d) {values values' : List Value}
    (hv : List.Forall₂ (Value.Like b kinds) values values')
    (hlength : values.length = c.parameters.length) :
    ∃ inner, BlockLike b inner c.body d.body ∧
      Lockstep b kinds (enterCall c values) (enterCall d values')
        fun more env env' => env' = env ∧ env.StandsIn more inner := by
  obtain ⟨region, inner, he, ho, hp, hparameters, hbody⟩ := hc.code
  refine ⟨inner, hbody, fun w w' hw => ?_⟩
  have hentries {k : ScopeKind} (hk : k.region = inner) :
      (Dict.ofList (c.parameters.zip values)).Like b (kinds ++ [k]) k.region
        (.ofList (d.parameters.zip values')) := by
    rw [hparameters, hk]
    exact .ofList (entries_zip hp (hv.imp fun _ _ h => h.mono (List.prefix_append _ _)))
  have hsize : w'.scopes.frames.size = w.scopes.frames.size :=
    hw.scopes.size'.trans hw.scopes.size.symm
  rw [run_enterCall, run_enterCall, hc.env, hsize, hw.scopes.size]
  cases ho with
  | same =>
    have hkind : b.old = none → region.scope = .outside := by
      intro hold
      obtain rfl := hw.eq_outside hold he
      rfl
    have hregion : region.scope.region = region := by cases region <;> rfl
    refine ⟨_, List.prefix_append _ _, hw.push hkind (hentries hregion) ?_, rfl, he.enter⟩
    cases region <;> exact nofun
  | @renamed n _ hold hmem =>
    refine ⟨_, List.prefix_append _ [.frame], hw.push ?_ (hentries rfl) fun _ => ⟨n, hold, ?_⟩, rfl,
      he.enterFrame⟩
    · exact fun hnone => nomatch hnone.symm.trans hold
    · rw [has_ofList]
      rwa [List.map_fst_zip (Nat.le_of_eq hlength.symm)]

end Run

end HostScript
