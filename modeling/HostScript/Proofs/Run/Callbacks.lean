import HostScript.Proofs.Run.Forward
import HostScript.Proofs.Run.Growth
import Mathlib.Tactic.ByContra
import Mathlib.Tactic.Tauto

/-!
# Functions that call a function they are given

A function goes through some elements and calls another function for each of them. In between it
works on places that it has made for itself (`World.Works`). `Callback.Visits` says what has been
called so far, in which order and with which results. The called function does not see the places
of its caller (`Since`), so it leaves them as they are (`Since.call`).
-/

namespace HostScript

/-! ## Work on places of its own -/

/-- From one world to another nothing has happened, nothing is gone, and nothing has changed but
places of its own. These are the ones that it had before and the new ones. -/
structure World.Works (own own' : Place → Prop) (w u : World) : Prop where
  below : w.Below u
  closed : w.Closed → u.Closed
  owns : ∀ p, own' p ↔ own p ∨ u.Has p ∧ ¬ w.Has p
  same : ∀ p, w.Has p → ¬ own p → w.SameAt u p
  events : u.events = w.events
  link : u.link = w.link
  replies : u.replies = w.replies

namespace World

theorem SameAt.refl (w : World) (p : Place) : w.SameAt w p := by
  cases p with
  | scope id => rfl
  | composite c => cases c <;> rfl

theorem SameAt.trans {w u v : World} {p : Place} (h : w.SameAt u p) (h' : u.SameAt v p) :
    w.SameAt v p := by
  cases p with
  | scope id => exact Eq.trans h' h
  | composite c => exact Heap.SameAt.trans h h'

/-- A new scope changes nothing that is there. -/
theorem sameAt_push {w : World} {p : Place} (hp : w.Has p) (d : Dict Value) :
    w.SameAt (w.push d) p := by
  cases p with
  | scope id => exact bindings_push_of_lt hp d
  | composite c => cases c <;> rfl

theorem members_eq_of_sameAt {w u : World} {p : Place} (h : w.SameAt u p) :
    u.members p = w.members p := by
  cases p with
  | scope id => exact congrArg (fun d : Dict Value => d.entries.map (·.2)) h
  | composite c => exact Heap.members_eq_of_sameAt h

/-- An array with elements is there. -/
theorem has_of_mem {w : World} {p : Place} {v : Value} (hv : v ∈ w.members p) : w.Has p := by
  by_contra h
  rw [members_of_not_has h] at hv
  exact List.not_mem_nil hv

namespace Works

variable {own own' own'' : Place → Prop} {w u v : World}

theorem refl (own : Place → Prop) (w : World) : w.Works own own w where
  below := .refl w
  closed h := h
  owns _ := (or_iff_left fun h => h.2 h.1).symm
  same p _ _ := .refl w p
  events := rfl
  link := rfl
  replies := rfl

theorem mono (h : w.Works own own' u) {p : Place} (hp : own p) : own' p := (h.owns p).mpr (.inl hp)

theorem trans (h : w.Works own own' u) (h' : u.Works own' own'' v) : w.Works own own'' v where
  below := h.below.trans h'.below
  closed hw := h'.closed (h.closed hw)
  owns p := by
    have hwu : w.Has p → u.Has p := h.below.has
    have huv : u.Has p → v.Has p := h'.below.has
    rw [h'.owns, h.owns]
    tauto
  same p hp hno := by
    have hno' : ¬ own' p := by
      rw [h.owns]
      exact fun hp' => hp'.elim hno fun hnew => hnew.2 hp
    exact (h.same p hp hno).trans (h'.same p (h.below.has hp) hno')
  events := h'.events.trans h.events
  link := h'.link.trans h.link
  replies := h'.replies.trans h.replies

/-- The places of one who does a part of the work are places of the one who does all of it. -/
theorem within (h : w.Works own own' u) {all : Place → Prop} (hall : ∀ p, own p → all p) :
    w.Works all (fun p => all p ∨ own' p) u where
  below := h.below
  closed := h.closed
  owns p := by
    have hp : own p → all p := hall p
    rw [h.owns]
    tauto
  same p hp hno := h.same p hp fun hown => hno (hall p hown)
  events := h.events
  link := h.link
  replies := h.replies

private theorem eq_iff_first_new (i n : Nat) : i = n ↔ i < n + 1 ∧ ¬ i < n := by omega

/-- A new scope is its own. -/
theorem push (own : Place → Prop) {d : Dict Value} (hd : ∀ e ∈ d.entries, e.2.Within w.extent) :
    w.Works own (fun p => own p ∨ p = .scope w.next) (w.push d) where
  below := ⟨by simp [World.push], fun _ hc => hc⟩
  closed hw := (hw.push hd).2
  owns p := by
    refine or_congr Iff.rfl ?_
    cases p with
    | scope id =>
      change Place.scope id = Place.scope w.next ↔ id < (w.push d).next ∧ ¬ id < w.next
      rw [next_push, Place.scope.injEq]
      exact eq_iff_first_new _ _
    | composite c => exact iff_of_false (by simp) fun h => h.2 h.1
  same p hp _ := sameAt_push hp d
  events := rfl
  link := rfl
  replies := rfl

/-- The scope of a call is a new scope. -/
theorem enterCall (own : Place → Prop) (parameters : List Name) {values : List Value}
    (hv : ∀ v ∈ values, v.Within w.extent) :
    w.Works own (fun p => own p ∨ p = .scope w.next)
      (w.push (.ofList (parameters.zip values))) :=
  push own fun e he => hv e.2 (List.of_mem_zip (Dict.mem_ofList he)).2

theorem bind {id : ScopeId} (hid : own (.scope id)) (name : Name) {v : Value}
    (hv : v.Within w.extent) : w.Works own own (w.bind id name v) where
  below := ⟨by simp [World.bind, Scopes.bind], fun _ hc => hc⟩
  closed hw := (hw.bind id name hv).2
  owns p := by
    refine (or_iff_left fun h => h.2 ?_).symm
    cases p with
    | scope other =>
      have hlt : other < (w.bind id name v).next := h.1
      rwa [next_bind] at hlt
    | composite c => exact h.1
  same p _ hno := by
    cases p with
    | scope other =>
      refine bindings_bind_of_ne ?_ name v
      rintro rfl
      exact hno hid
    | composite c => cases c <;> rfl
  events := rfl
  link := rfl
  replies := rfl

/-- So is a new array. -/
theorem newArray (own : Place → Prop) {items : Array Value}
    (hi : ∀ v ∈ items, v.Within w.extent) :
    w.Works own (fun p => own p ∨ p = .composite (.array w.heap.arrays.size))
      (w.newArray items) where
  below := by
    refine ⟨Nat.le_refl _, fun c hc => ?_⟩
    cases c with
    | array id => simpa [Heap.Has, World.newArray, Heap.newArray] using Nat.lt_succ_of_lt hc
    | table id => exact hc
  closed hw := (hw.withHeap (hw.heap.newArray hi).1).2
  owns p := by
    refine or_congr Iff.rfl ?_
    cases p with
    | scope id => exact iff_of_false (by simp) fun h => h.2 h.1
    | composite c =>
      cases c with
      | array id =>
        simp only [World.Has, Heap.Has, World.newArray, Heap.newArray, Array.size_push,
          Place.composite.injEq, Composite.array.injEq]
        exact eq_iff_first_new _ _
      | table id => exact iff_of_false (by simp) fun h => h.2 h.1
  same p hp _ := by
    cases p with
    | scope id => rfl
    | composite c =>
      cases c with
      | array id =>
        have hne : id ≠ w.heap.arrays.size := Nat.ne_of_lt hp
        simp [World.SameAt, Heap.SameAt, World.newArray, Heap.array_newArray, hne]
      | table id => rfl
  events := rfl
  link := rfl
  replies := rfl

theorem pushBack {id : ArrayId} (hid : own (.composite (.array id))) {v : Value}
    (hv : v.Within w.extent) : w.Works own own (w.pushBack id v) where
  below := by
    refine ⟨Nat.le_refl _, fun c hc => ?_⟩
    cases c with
    | array other => simpa [Heap.Has, World.pushBack, Heap.modifyArray] using hc
    | table other => exact hc
  closed hw := (hw.withHeap (hw.heap.arrayPushBack id hv)).2
  owns p := by
    refine (or_iff_left fun h => h.2 ?_).symm
    cases p with
    | scope other => exact h.1
    | composite c =>
      cases c with
      | array other => simpa [World.Has, Heap.Has, World.pushBack, Heap.modifyArray] using h.1
      | table other => exact h.1
  same p _ hno := by
    cases p with
    | scope other => rfl
    | composite c =>
      cases c with
      | array other =>
        have hne : other ≠ id := by
          rintro rfl
          exact hno hid
        simp [World.SameAt, Heap.SameAt, World.pushBack, Heap.array_modifyArray, hne]
      | table other => rfl
  events := rfl
  link := rfl
  replies := rfl

/-- A new function is in no place yet. -/
theorem newFunction (own : Place → Prop) (w : World) (n : Nat) :
    w.Works own own { w with closures := n } where
  below := ⟨Nat.le_refl _, fun _ hc => hc⟩
  closed hw := ⟨hw.scopes, hw.heap⟩
  owns _ := (or_iff_left fun h => h.2 h.1).symm
  same p _ _ := by
    cases p with
    | scope id => rfl
    | composite c => cases c <;> rfl
  events := rfl
  link := rfl
  replies := rfl

end Works

end World

/-! ## What is seen from outside -/

/-- The bounds of everything outside of some places. -/
def Bounds.outside (own : Place → Prop) : Bounds := ⟨fun p => ¬ own p, fun _ => True, fun _ => True⟩

/-- A value refers to what is there, and to none of some places. -/
structure Value.Shown (own : Place → Prop) (w : World) (v : Value) : Prop where
  known : v.Within w.extent
  outside : v.Within (.outside own)

theorem Value.Shown.works {own own' : Place → Prop} {w u : World} {v : Value}
    (hv : v.Shown own w) (h : w.Works own own' u) : v.Shown own' u := by
  refine ⟨h.below.within hv.known, ?_⟩
  have hboth : v.Within ⟨fun p => w.Has p ∧ ¬ own p, fun _ => True, fun _ => True⟩ := by
    obtain ⟨hknown, houtside⟩ := hv
    cases v with
    | array id => exact ⟨World.place_extent.mp hknown, houtside⟩
    | table id => exact ⟨World.place_extent.mp hknown, houtside⟩
    | function f =>
      cases f with
      | native f => trivial
      | closure c =>
        exact ⟨fun id hid => ⟨World.place_extent.mp (hknown.1 id hid), houtside.1 id hid⟩, trivial⟩
    | _ => trivial
  refine hboth.mono (fun p hp => ?_) fun _ => trivial
  change ¬ own' p
  rw [h.owns]
  exact fun hp' => hp'.elim hp.2 fun hnew => hnew.2 hp.1

/-- The situation of a caller that has made some places since it began in a world: nothing outside
refers to them, and an array and some names of the root scope are what they were. -/
structure Since (names : List Name) (a : ArrayId) (w₀ : World) (own : Place → Prop) (w : World) :
    Prop where
  closed : w.Closed
  below : w₀.Below w
  new : ∀ p, own p → w.Has p ∧ ¬ w₀.Has p
  unseen : ∀ p, ¬ own p → ∀ v ∈ w.members p, v.Within (.outside own)
  hasArray : w₀.Has (.composite (.array a))
  hasRoot : w₀.Has (.scope 0)
  array : w.heap.array a = w₀.heap.array a
  names : ∀ name ∈ names, (w.scopes.bindings 0).get? name = (w₀.scopes.bindings 0).get? name

namespace Since

variable {names : List Name} {a : ArrayId} {w₀ w u : World} {own own' : Place → Prop}

theorem start (hw : w.Closed) (hasArray : w.Has (.composite (.array a)))
    (hasRoot : w.Has (.scope 0)) : Since names a w (fun _ => False) w where
  closed := hw
  below := .refl w
  new _ h := h.elim
  unseen _ _ _ hv := (hw.within hv).mono (fun _ _ h => h) fun _ => trivial
  hasArray := hasArray
  hasRoot := hasRoot
  array := rfl
  names _ _ := rfl

theorem not_own (h : Since names a w₀ own w) {p : Place} (hp : w₀.Has p) : ¬ own p :=
  fun hown => (h.new p hown).2 hp

theorem shown (h : Since names a w₀ own w) {v : Value} (hv : v.Within w₀.extent) :
    v.Shown own w :=
  ⟨h.below.within hv,
    hv.mono (fun _ hp => h.not_own (World.place_extent.mp hp)) fun _ => trivial⟩

theorem shown_of_mem (h : Since names a w₀ own w) {p : Place} (hp : ¬ own p) {v : Value}
    (hv : v ∈ w.members p) : v.Shown own w :=
  ⟨h.closed.within hv, h.unseen p hp v hv⟩

/-- The elements of the array can be seen. -/
theorem shown_of_mem_array (h : Since names a w₀ own w) {v : Value} (hv : v ∈ w.heap.array a) :
    v.Shown own w :=
  h.shown_of_mem (p := .composite (.array a)) (h.not_own h.hasArray)
    (Array.mem_toList_iff.mpr hv)

/-- Work on its own places keeps them unseen. -/
theorem works (h : Since names a w₀ own w) (hw : w.Works own own' u) :
    Since names a w₀ own' u where
  closed := hw.closed h.closed
  below := h.below.trans hw.below
  new p hp := by
    rcases (hw.owns p).mp hp with hold | ⟨hnew, hnot⟩
    · exact ⟨hw.below.has (h.new p hold).1, (h.new p hold).2⟩
    · exact ⟨hnew, fun hp => hnot (h.below.has hp)⟩
  unseen p hp v hv := by
    have hno : ¬ own p := fun hown => hp (hw.mono hown)
    have hhas : w.Has p := by
      by_contra hnot
      exact hp ((hw.owns p).mpr (.inr ⟨World.has_of_mem hv, hnot⟩))
    rw [World.members_eq_of_sameAt (hw.same p hhas hno)] at hv
    exact ((h.shown_of_mem hno hv).works hw).outside
  hasArray := h.hasArray
  hasRoot := h.hasRoot
  array := by
    have harray : w.SameAt u (.composite (.array a)) :=
      hw.same _ (h.below.has h.hasArray) (h.not_own h.hasArray)
    exact Eq.trans harray h.array
  names name hname := by
    have hroot : u.scopes.bindings 0 = w.scopes.bindings 0 :=
      hw.same (.scope 0) (h.below.has h.hasRoot) (h.not_own h.hasRoot)
    rw [hroot]
    exact h.names name hname

/-- A function that does not see the places of its caller leaves them alone, and what it gives does
not refer to them. -/
theorem call (h : Since names a w₀ own w) {setup : Setup} {depth : Nat} {f r : Value}
    {values : List Value} {span : Option Span} (hf : f.Shown own w)
    (hv : ∀ v ∈ values, v.Shown own w)
    (hrun : (Run.callFunction setup depth f values span).run w = (.ok r, u))
    (harray : u.heap.array a = w.heap.array a)
    (hnames : ∀ name ∈ names,
      (u.scopes.bindings 0).get? name = (w.scopes.bindings 0).get? name) :
    Since names a w₀ own u ∧ w.Below u ∧ r.Shown own u ∧ ∀ p, own p → w.SameAt u p := by
  obtain ⟨hbelow, hclosed, hknown⟩ := (Run.growsAt setup depth).callFunction w f values span
    h.closed hf.known fun v hmem => (hv v hmem).known
  have hconfined : w.Confined (.outside own) w :=
    World.confined_self h.unseen fun p hp hown => hp (h.new p hown).1
  have hat := Run.staysAt (b := .outside own) (fun _ => iff_of_true trivial fun _ _ => trivial) w
    setup depth
  obtain ⟨hstays, hresult⟩ := hat.callFunction f values span hf.outside
    (fun v hmem => (hv v hmem).outside) (fun _ _ => trivial) w hconfined
  rw [hrun] at hbelow hclosed hknown hstays hresult
  refine ⟨?_, hbelow, ⟨hknown r rfl, hresult⟩, fun p hp => hstays.sameAt (not_not.mpr hp)⟩
  exact
    { closed := hclosed
      below := h.below.trans hbelow
      new := fun p hp => ⟨hbelow.has (h.new p hp).1, (h.new p hp).2⟩
      unseen := fun p hp v hv => by
        cases p with
        | scope id => exact hstays.scopes.members id hp v hv
        | composite c => exact hstays.heap.members c hp v hv
      hasArray := h.hasArray
      hasRoot := h.hasRoot
      array := harray.trans h.array
      names := fun name hname => (hnames name hname).trans (h.names name hname) }

end Since

/-! ## Calls for one element after another -/

/-- How a function is called for an element. Its arguments may depend on what the call before has
given, or at first on an initial value. -/
structure Callback where
  setup : Setup
  depth : Nat
  f : Value
  initial : Value
  arguments : (last element : Value) → List Value

namespace Callback

/-- The call for an element behind calls with some results. -/
def call (c : Callback) (results : List Value) (element : Value) : Run Value :=
  Run.callFunction c.setup c.depth c.f (c.arguments (results.getLastD c.initial) element) none

/-- A caller has begun in a world and called the function for some elements, in their order, with
these results and once for each of them. In between it has worked on places of its own. -/
inductive Visits (c : Callback) (w : World) :
    (own : Place → Prop) → (elements results : List Value) → World → Prop
  | start {own : Place → Prop} {u : World} :
      w.Works (fun _ => False) own u → Visits c w own [] [] u
  | next {own own' : Place → Prop} {elements results : List Value} {x r : Value} {u u' v : World} :
      Visits c w own elements results u → (c.call results x).run u = (.ok r, u') →
      u'.Works own own' v → Visits c w own' (elements ++ [x]) (results ++ [r]) v

/-- Wherever the function is called for one of the elements, it gives a result, leaves an array as it
is, and does not bind some names of the root scope anew. -/
def Serves (c : Callback) (names : List Name) (a : ArrayId) (elements : List Value) (w : World) :
    Prop :=
  ∀ own before x after results u, elements = before ++ x :: after →
    c.Visits w own before results u →
    ∃ r u', (c.call results x).run u = (.ok r, u') ∧ u'.heap.array a = u.heap.array a ∧
      ∀ name ∈ names, (u'.scopes.bindings 0).get? name = (u.scopes.bindings 0).get? name

/-- How far a caller has come: what it has called, and its situation since it began. The results do
not refer to its places. -/
structure Reached (c : Callback) (names : List Name) (a : ArrayId) (w : World) (own : Place → Prop)
    (elements results : List Value) (u : World) : Prop where
  visits : c.Visits w own elements results u
  since : Since names a w own u
  shown : ∀ r ∈ results, r.Shown own u

variable {c : Callback} {names : List Name} {a : ArrayId} {w u v : World} {own own' : Place → Prop}
  {elements results : List Value}

theorem Visits.works (h : c.Visits w own elements results u) (hw : u.Works own own' v) :
    c.Visits w own' elements results v := by
  cases h with
  | start hstart => exact .start (hstart.trans hw)
  | next hbefore hrun hafter => exact .next hbefore hrun (hafter.trans hw)

theorem Visits.length_eq (h : c.Visits w own elements results u) :
    results.length = elements.length := by
  induction h with
  | start => rfl
  | next _ _ _ ih => simp [ih]

namespace Reached

theorem start (hw : w.Closed) (hasArray : w.Has (.composite (.array a)))
    (hasRoot : w.Has (.scope 0)) : c.Reached names a w (fun _ => False) [] [] w :=
  ⟨.start (.refl _ w), .start hw hasArray hasRoot, nofun⟩

theorem works (h : c.Reached names a w own elements results u) (hw : u.Works own own' v) :
    c.Reached names a w own' elements results v :=
  ⟨h.visits.works hw, h.since.works hw, fun r hr => (h.shown r hr).works hw⟩

/-- What the last call has given does not refer to the places of the caller, nor does what the first
one gets. -/
theorem shown_last (h : c.Reached names a w own elements results u)
    (hi : c.initial.Within w.extent) : (results.getLastD c.initial).Shown own u := by
  rcases List.eq_nil_or_concat results with rfl | ⟨before, r, rfl⟩
  · exact h.since.shown hi
  · rw [List.concat_eq_append, List.getLastD_concat]
    exact h.shown r (by simp)

/-- The call for the next element. -/
theorem call {before after : List Value} {x : Value} (hs : c.Serves names a elements w)
    (helements : elements = before ++ x :: after) (h : c.Reached names a w own before results u)
    (hf : c.f.Within w.extent)
    (ha : ∀ v ∈ c.arguments (results.getLastD c.initial) x, v.Shown own u) :
    ∃ r u', (c.call results x).run u = (.ok r, u') ∧
      c.Reached names a w own (before ++ [x]) (results ++ [r]) u' ∧ u.Below u' ∧ r.Shown own u' ∧
      ∀ p, own p → u.SameAt u' p := by
  obtain ⟨r, u', hrun, harray, hnames⟩ := hs own before x after results u helements h.visits
  obtain ⟨hsince, hbelow, hr, hsame⟩ := h.since.call (h.since.shown hf) ha hrun harray hnames
  refine ⟨r, u', hrun, ⟨.next h.visits hrun (.refl own u'), hsince, fun v hv => ?_⟩, hbelow, hr, hsame⟩
  rcases List.mem_append.mp hv with hv | hv
  · exact ⟨hbelow.within (h.shown v hv).known, (h.shown v hv).outside⟩
  · exact List.mem_singleton.mp hv ▸ hr

end Reached

/-! ## A function that calls another -/

/-- The state between the calls of a function that a caller has made in order to call `c` through
it: how far the caller has come with `c`, and what is true of some of its places. -/
structure Between (c : Callback) (names : List Name) (a : ArrayId) (w : World) (kept : Place → Prop)
    (Holds : List Value → List Value → World → Prop) (own : Place → Prop)
    (elements results : List Value) (u : World) : Prop where
  reached : c.Reached names a w own elements results u
  keeps : ∀ p, kept p → own p
  holds : Holds elements results u

variable {g : Callback} {kept : Place → Prop} {Holds : List Value → List Value → World → Prop}
  {w₁ : World} {own₁ : Place → Prop}

/-- What others do in their own places is nothing to the places that are kept. -/
theorem Between.works (h : c.Between names a w kept Holds own elements results u)
    (hplaces : ∀ elements results u v, (∀ p, kept p → u.SameAt v p) →
      Holds elements results u → Holds elements results v)
    {part part' : Place → Prop} (hw : u.Works part part' v) (hpart : ∀ p, part p → own p)
    (hnot : ∀ p, kept p → ¬ part p) :
    c.Between names a w kept Holds (fun p => own p ∨ part' p) elements results v where
  reached := h.reached.works (hw.within hpart)
  keeps p hp := .inl (h.keeps p hp)
  holds := hplaces _ _ u v
    (fun p hp => hw.same p (h.reached.since.new p (h.keeps p hp)).1 (hnot p hp)) h.holds

/-- A function relays if each of its calls calls `c` once. -/
def Relays (g c : Callback) (names : List Name) (a : ArrayId) (w : World) (kept : Place → Prop)
    (Holds : List Value → List Value → World → Prop) (elements : List Value) : Prop :=
  ∀ own before x after results given u, elements = before ++ x :: after →
    c.Between names a w kept Holds own before results u →
    ∃ own' r r' u', (g.call given x).run u = (.ok r', u') ∧
      c.Between names a w kept Holds own' (before ++ [x]) (results ++ [r]) u' ∧ ∀ p, own p → own' p

section

variable (hrelays : g.Relays c names a w kept Holds elements)
  (hplaces : ∀ elements results u v, (∀ p, kept p → u.SameAt v p) →
    Holds elements results u → Holds elements results v)
  (hstart : c.Between names a w kept Holds own₁ [] [] w₁)

include hrelays hplaces hstart

/-- When a function that relays has been called for some elements, so has been `c`. -/
theorem between_of_visits {before after given : List Value} (helements : elements = before ++ after)
    (hv : g.Visits w₁ own before given u) :
    ∃ all results, c.Between names a w kept Holds all before results u ∧ (∀ p, own p → all p) ∧
      ∀ p, kept p → ¬ own p := by
  induction hv generalizing after with
  | start hwork =>
    refine ⟨_, [], hstart.works hplaces hwork (fun _ h => h.elim) fun _ _ => not_false,
      fun p hp => .inr hp, ?_⟩
    intro p hp hown
    rw [hwork.owns] at hown
    exact hown.elim id fun hnew => hnew.2 (hstart.reached.since.new p (hstart.keeps p hp)).1
  | next _ hrun hwork ih =>
    obtain ⟨all, results, hbetween, hall, hnot⟩ := ih (helements.trans (List.append_assoc _ _ _))
    obtain ⟨all', r, r', u', hrun', hbetween', hmono⟩ := hrelays _ _ _ after _ _ _
      (helements.trans (List.append_assoc _ _ _)) hbetween
    obtain ⟨-, rfl⟩ := Prod.mk.inj (hrun.symm.trans hrun')
    refine ⟨_, _, hbetween'.works hplaces hwork (fun p hp => hmono p (hall p hp)) hnot,
      fun p hp => .inr hp, ?_⟩
    intro p hp hown
    rw [hwork.owns] at hown
    exact hown.elim (hnot p hp) fun hnew =>
      hnew.2 (hbetween'.reached.since.new p (hbetween'.keeps p hp)).1

/-- So a function that relays can be called for all elements. -/
theorem serves_of_relays : g.Serves names a elements w₁ := by
  intro own before x after given u helements hv
  obtain ⟨all, results, hbetween, -⟩ := between_of_visits hrelays hplaces hstart helements hv
  obtain ⟨all', r, r', u', hrun, hbetween', -⟩ := hrelays _ _ _ after _ given _ helements hbetween
  refine ⟨r', u', hrun, ?_, fun name hname => ?_⟩
  · rw [hbetween'.reached.since.array, hbetween.reached.since.array]
  · rw [hbetween'.reached.since.names name hname, hbetween.reached.since.names name hname]

end

end Callback

end HostScript
