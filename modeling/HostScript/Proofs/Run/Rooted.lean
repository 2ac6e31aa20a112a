import HostScript.Proofs.Library.Footprints
import HostScript.Proofs.Run.Invariants

/-!
# Environments lead to the root

The scopes of an environment are made from the outside in, so each is younger than those around it
(`Env.Rooted`). Runs make environments only by entering a new scope in one that is there, and what
they hold in arrays, tables and scopes are functions with such environments. So all environments of a
world lead to the same root (`Run.rooted`).
-/

namespace HostScript

/-- The scopes of an environment lead out to the root. Each is younger than those around it, so none
comes twice, and all of them are among the first `n`. -/
structure Env.Rooted (e : Env) (root n : ScopeId) : Prop where
  root : e.root = root
  younger : e.path.Pairwise (· > ·)
  lt : ∀ id ∈ e.path, id < n

/-- The functions whose environments lead to a root, wherever they are. -/
def Bounds.rooted (root n : ScopeId) : Bounds :=
  ⟨fun _ => True, fun _ => True, fun c => c.env.Rooted root n⟩

namespace Env

variable {e : Env} {root n m : ScopeId}

@[simp] theorem root_enter (e : Env) (id : ScopeId) : (e.enter id).root = e.root := by
  obtain ⟨here, outer⟩ := e
  cases outer with
  | nil => rfl
  | cons next outer => simp [root, enter, path, List.getLast?_cons]

namespace Rooted

theorem mono (he : e.Rooted root n) (h : n ≤ m) : e.Rooted root m :=
  ⟨he.root, he.younger, fun id hid => Nat.lt_of_lt_of_le (he.lt id hid) h⟩

theorem enter (he : e.Rooted root n) : (e.enter n).Rooted root (n + 1) where
  root := (root_enter e n).trans he.root
  younger := List.pairwise_cons.mpr ⟨he.lt, he.younger⟩
  lt := by
    rintro id hid
    rcases List.mem_cons.mp hid with rfl | hid
    · exact Nat.lt_succ_self _
    · exact Nat.lt_succ_of_lt (he.lt id hid)

/-- The scope at hand is not among those around it. -/
theorem here_notMem_outer (he : e.Rooted root n) : e.here ∉ e.outer :=
  fun hmem => Nat.lt_irrefl _ ((List.pairwise_cons.mp he.younger).1 _ hmem)

end Rooted

end Env

theorem Value.Within.rooted_mono {root n m : ScopeId} {v : Value}
    (hv : v.Within (.rooted root n)) (h : n ≤ m) : v.Within (.rooted root m) := by
  cases v with
  | function f =>
    cases f with
    | native f => trivial
    | closure c => exact ⟨fun _ _ => trivial, hv.2.mono h⟩
  | _ => trivial

namespace Run

variable {root : ScopeId} {w : World}

/-- All environments lead to the root, those at hand and those of the functions that are held in a
world. -/
def rooted (root : ScopeId) : Invariant where
  below w w' := w.next ≤ w'.next
  world w := root < w.next ∧ ∀ p, ∀ v ∈ w.members p, v.Within (.rooted root w.next)
  env w e := e.Rooted root w.next
  value w v := v.Within (.rooted root w.next)

/-! ## Single operations -/

theorem confined_of_rooted (hw : (rooted root).world w) : w.Confined (.rooted root w.next) w :=
  World.confined_self (fun p _ => hw.2 p) fun _ _ => trivial

/-- A world with the same scopes is later if it is confined. -/
theorem later_rooted_of_confined {w' : World} (hw : (rooted root).world w)
    (h : w.Confined (.rooted root w.next) w') (hscopes : w'.scopes = w.scopes) :
    (rooted root).Later w w' := by
  have hnext : w'.next = w.next := congrArg (·.frames.size) hscopes
  refine ⟨hnext.ge, hnext.symm ▸ hw.1, fun p v hv => ?_⟩
  rw [hnext]
  cases p with
  | scope id => exact h.scopes.members id trivial v hv
  | composite c => exact h.heap.members c trivial v hv

theorem later_rooted_withHeap (hw : (rooted root).world w) {h : Heap}
    (hh : w.heap.Confined (.rooted root w.next) h) :
    (rooted root).Later w { w with heap := h } :=
  later_rooted_of_confined hw ⟨(confined_of_rooted hw).scopes, hh⟩ rfl

/-- A scope comes in that holds values of this world. -/
theorem later_rooted_push (hw : (rooted root).world w) {d : Dict Value}
    (hd : ∀ entry ∈ d.entries, entry.2.Within (.rooted root w.next)) :
    (rooted root).Later w (w.push d) := by
  have hle : w.next ≤ (w.push d).next := World.next_push.symm ▸ Nat.le_succ _
  refine ⟨hle, Nat.lt_of_lt_of_le hw.1 hle, fun p v hv => ?_⟩
  refine Value.Within.rooted_mono ?_ hle
  cases p with
  | scope id =>
    rcases World.mem_members_push hv with ⟨entry, hentry, rfl⟩ | hv
    · exact hd entry hentry
    · exact hw.2 (.scope id) v hv
  | composite c => exact hw.2 (.composite c) v hv

theorem env_rooted_push {e : Env} (he : (rooted root).env w e) (d : Dict Value) :
    (rooted root).env (w.push d) (e.enter w.next) := by
  change (e.enter w.next).Rooted root (w.push d).next
  rw [World.next_push]
  exact he.enter

theorem later_rooted_bind (hw : (rooted root).world w) (id : ScopeId) (name : Name) {v : Value}
    (hv : v.Within (.rooted root w.next)) : (rooted root).Later w (w.bind id name v) := by
  have hnext : (w.bind id name v).next = w.next := World.next_bind
  refine ⟨hnext.ge, hnext.symm ▸ hw.1, fun p u hu => ?_⟩
  rw [hnext]
  cases p with
  | scope other =>
    rcases Scopes.mem_members_bind hu with rfl | hu
    · exact hv
    · exact hw.2 (.scope other) u hu
  | composite c => exact hw.2 (.composite c) u hu

/-- Native functions leave the scopes as they are. -/
theorem scopes_callNative (setup : Setup) (depth : Nat) (f : Native) (values : List Value)
    (w : World) : ((callNative setup depth f values).run w).2.scopes = w.scopes := by
  cases f with
  | standard f => exact (StandardFunction.leaves_call { setup with depth } f values w).1
  | http f =>
    have hspares : Spares w.scopes w.heap (Http.call setup f values) Value.Plain :=
      Http.spares_call setup f values
    exact (hspares w ⟨rfl, rfl⟩).1.1
  | host m =>
    have hspares : Spares w.scopes w.heap (Host.call setup m values) Value.Plain :=
      Host.spares_call setup m values
    exact (hspares w ⟨rfl, rfl⟩).1.1

theorem leads_rooted_callNative (setup : Setup) (depth : Nat) (hw : (rooted root).world w)
    (f : Native) {values : List Value} (hvalues : ∀ v ∈ values, (rooted root).value w v) :
    (rooted root).Leads w (callNative setup depth f values) (rooted root).value := by
  have hscopes := scopes_callNative setup depth f values w
  obtain ⟨hconfined, hresult⟩ := stays_callNative setup depth f hvalues w (confined_of_rooted hw)
  refine ⟨later_rooted_of_confined hw hconfined hscopes, fun v hv => ?_⟩
  rw [hv] at hresult
  have hnext : ((callNative setup depth f values).run w).2.next = w.next :=
    congrArg (·.frames.size) hscopes
  change v.Within (.rooted root _)
  rw [hnext]
  exact hresult

/-! ## All operations -/

theorem kept_rooted (root : ScopeId) (setup : Setup) (reached : Stage → Prop) :
    (rooted root).Kept setup reached where
  refl w := Nat.le_refl w.next
  trans := Nat.le_trans
  env_mono h he := he.mono h
  value_mono h hv := hv.rooted_mono h
  plain hv := hv _
  lookup hw he h := by
    obtain ⟨id, -, hmem⟩ := Scopes.mem_bindings_of_get? h
    exact hw.2 (.scope id) _ (List.mem_map.mpr ⟨_, hmem, rfl⟩)
  index hw ht := (confined_of_rooted hw).heap.index ht
  createArray hw hvalues := by
    obtain ⟨hv, hheap⟩ := (confined_of_rooted hw).heap.createArray hvalues
    refine ⟨later_rooted_withHeap hw hheap, ?_⟩
    rintro _ ⟨⟩
    exact hv
  assignIndex hw ht hv :=
    later_rooted_withHeap hw ((confined_of_rooted hw).heap.assignIndex ht hv)
  newFunction hw he := by
    refine ⟨⟨Nat.le_refl _, hw⟩, ?_⟩
    rintro _ ⟨⟩
    exact ⟨fun _ _ => trivial, he⟩
  callNative hw hvalues := leads_rooted_callNative setup _ hw _ hvalues
  enterCall hw hc hvalues := by
    refine ⟨later_rooted_push hw fun entry hentry => ?_, env_rooted_push hc.2 _⟩
    exact hvalues entry.2 (List.of_mem_zip (Dict.mem_ofList hentry)).2
  enter hw he := ⟨later_rooted_push hw (List.forall_mem_nil _), env_rooted_push he _⟩
  bind _ _ _ hw _ hv := later_rooted_bind hw _ _ hv
  assign hw _ hv _ := later_rooted_bind hw _ _ hv

end Run

end HostScript
