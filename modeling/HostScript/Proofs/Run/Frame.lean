import HostScript.Http.Charset
import HostScript.Proofs.Run.Evaluation

/-!
# What a call leaves alone

A call changes no scope, array or table that was there before and cannot be reached from the called
function or its arguments (`callFunction_sameAt`), however it ends. A function of a script reaches
the root scope through its environment, and a native function changes no scope, so the root scope
needs no mention. The locals of a caller are left alone unless a function that captured them can be
reached.
-/

namespace HostScript

/-- The bounds of what can be reached from some values or is still to be made. -/
def World.reach (w : World) (start : List Value) : Bounds where
  place p := w.Has p → w.Reaches start p
  span _ := True
  code _ := True

theorem World.admitCode_reach (w : World) (start : List Value) : (w.reach start).AdmitCode :=
  fun _ => iff_of_true trivial fun _ _ => trivial

theorem Value.within_of_places {b : Bounds} {v : Value} (hs : ∀ c, b.code c)
    (hp : ∀ p ∈ v.places, b.place p) : v.Within b := by
  cases v with
  | array id => exact hp _ (List.mem_singleton.mpr rfl)
  | table id => exact hp _ (List.mem_singleton.mpr rfl)
  | function f =>
    cases f with
    | native f => trivial
    | closure c =>
      refine ⟨fun id hid => hp _ ?_, hs c⟩
      exact List.mem_map.mpr ⟨id, hid, rfl⟩
  | _ => trivial

theorem World.within_reach_of_mem {w : World} {start : List Value} {v : Value} (hv : v ∈ start) :
    v.Within (w.reach start) :=
  Value.within_of_places (fun _ => trivial) fun _ hp _ => .start hv hp

/-- What can be reached is closed under reference, so a world is confined within it. -/
theorem World.confined_reach (w : World) (start : List Value) :
    w.Confined (w.reach start) w := by
  refine confined_self (fun p hp v hv => ?_) fun p hp hhas => absurd hhas hp
  have hhas : w.Has p := by
    refine Classical.byContradiction fun hno => ?_
    rw [members_of_not_has hno] at hv
    exact List.not_mem_nil hv
  exact Value.within_of_places (fun _ => trivial) fun q hq _ => .member (hp hhas) hv hq

namespace Run

/-- A call leaves every place as it is that was there before and cannot be reached from the function
and its arguments: whether it gives a value, is faulty, loses the host or does not end. -/
theorem callFunction_sameAt (setup : Setup) (depth : Nat) (f : Value) (values : List Value)
    (span : Option Span) (w : World) {p : Place} (hhas : w.Has p)
    (hp : ¬ w.Reaches (f :: values) p) :
    w.SameAt ((callFunction setup depth f values span).run w).2 p := by
  have hat := staysAt (w.admitCode_reach (f :: values)) w setup depth
  have hf : f.Within (w.reach (f :: values)) := World.within_reach_of_mem List.mem_cons_self
  have hv : ∀ v ∈ values, v.Within (w.reach (f :: values)) :=
    fun v hv => World.within_reach_of_mem (List.mem_cons_of_mem f hv)
  obtain ⟨hc, -⟩ :=
    hat.callFunction f values span hf hv (fun _ _ => trivial) w (w.confined_reach (f :: values))
  exact hc.sameAt fun hin => hp (hin hhas)

/-- A world in which a caller's scope holds an array and the root scope holds something of the same
name. -/
def callerWorld : World where
  scopes := ⟨#[⟨[("x", .null)]⟩, ⟨[("x", .array 0)]⟩]⟩
  heap := ⟨#[#[.string "kept"]], #[]⟩
  closures := 1
  events := #[]
  link := none
  replies := []

/-- A function of the root scope that binds a name of its caller anew. -/
def rebinding : Value :=
  .function (.closure ⟨0, none, [], [.assign "x" (.literal (.boolean true) default) default],
    ⟨0, []⟩⟩)

theorem callFunction_sameAt_callerWorld :
    callerWorld.Has (.scope 1) ∧ ¬ callerWorld.Reaches [rebinding] (.scope 1) ∧
      callerWorld.SameAt ((callFunction ⟨9, 9, true, .default, .usual⟩ 9 rebinding [] none).run
        callerWorld).2 (.scope 1) := by
  have hhas : callerWorld.Has (.scope 1) := by
    change 1 < 2
    decide
  have hroot : ∀ p, callerWorld.Reaches [rebinding] p → p = .scope 0 := by
    intro p hp
    induction hp with
    | start hv hp =>
      obtain rfl := List.mem_singleton.mp hv
      exact List.mem_singleton.mp hp
    | member _ hv hq ih =>
      subst ih
      obtain rfl := List.mem_singleton.mp hv
      exact absurd hq List.not_mem_nil
  have hp : ¬ callerWorld.Reaches [rebinding] (.scope 1) := by
    intro hp
    exact absurd (hroot _ hp) (by decide)
  exact ⟨hhas, hp, callFunction_sameAt _ _ _ _ _ _ hhas hp⟩

end Run

end HostScript
