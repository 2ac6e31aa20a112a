import HostScript.Proofs.Library.Footprints
import HostScript.Proofs.Session.Invariants
import HostScript.Proofs.Value.KeyOrder

/-!
# Tables keep their keys

No script takes a key out of a table or moves it (`run_keeps_keys`). Whatever runs, the keys that a
table has stay the first ones, new ones come behind them, and none is ever there twice. So a table is
always listed in the order in which its keys came in.
-/

namespace HostScript

namespace StandardFunction

open Run

variable {setup : Setup} {values : List Value} {w : World}

/-- A run extends the keys of all tables, however it ends. -/
def ExtendsKeys (m : Run Value) : Prop := ∀ w : World, w.heap.Extends (m.run w).2.heap

theorem extendsKeys_of_spares {m : Run Value} {Q : Value → Prop}
    (hm : ∀ scopes heap, Spares scopes heap m Q) : ExtendsKeys m := by
  intro w
  obtain ⟨⟨-, hheap⟩, -⟩ := hm w.scopes w.heap w ⟨rfl, rfl⟩
  rw [hheap]
  exact .refl _

theorem extendsKeys_onHeap {f : Heap → Value × Heap} (hf : ∀ h : Heap, h.Extends (f h).2) :
    ExtendsKeys (onHeap f) :=
  fun w => hf w.heap

theorem extendsKeys_withArguments {name : Text} {kinds : List Kind}
    {body : Arguments kinds → Run Value} (hb : ∀ arguments, ExtendsKeys (body arguments)) :
    ExtendsKeys (withArguments name kinds values body) := by
  unfold withArguments
  split
  · exact hb _
  · exact fun w => .refl _

theorem extendsKeys_readJson (t : Text) : ExtendsKeys (readJson setup t) := by
  unfold readJson
  split
  · exact extendsKeys_onHeap fun h => h.extends_load _
  · exact fun w => .refl _
  · exact extendsKeys_of_spares fun _ _ => spares_nestedTooDeeply setup _

theorem extendsKeys_call (setup : Setup) (f : StandardFunction) (values : List Value) :
    ExtendsKeys (f.call setup values) := by
  by_cases hquiet : f ∈ quiet
  · exact extendsKeys_of_spares (spares_of_quiet hquiet)
  cases f with
  | fromJson => exact extendsKeys_withArguments fun (t, _) => extendsKeys_readJson t
  | createArray => exact extendsKeys_onHeap fun h => h.extends_newArray _
  | createTable =>
    exact extendsKeys_withArguments fun _ => extendsKeys_onHeap fun h => h.extends_createTable
  | tableKeys | stringSplitLines =>
    exact extendsKeys_withArguments fun _ => extendsKeys_onHeap fun h => h.extends_newArray _
  | arrayGet | tableGet => exact extendsKeys_withArguments fun _ w => .refl _
  | arraySet =>
    exact extendsKeys_withArguments fun _ => extendsKeys_onHeap fun h => h.extends_arraySet _ _ _
  | arrayPushBack =>
    exact extendsKeys_withArguments fun _ => extendsKeys_onHeap fun h => h.extends_modifyArray _ _
  | arrayPopBack =>
    exact extendsKeys_withArguments fun _ => extendsKeys_onHeap fun h => h.extends_arrayPopBack _
  | arrayInsert =>
    exact extendsKeys_withArguments fun _ => extendsKeys_onHeap fun h => h.extends_arrayInsert _ _ _
  | arrayRemove =>
    exact extendsKeys_withArguments fun _ => extendsKeys_onHeap fun h => h.extends_arrayRemove _ _
  | tableSet =>
    exact extendsKeys_withArguments fun _ => extendsKeys_onHeap fun h => h.extends_tableSet _ _ _
  | tableMerge =>
    exact extendsKeys_withArguments fun _ => extendsKeys_onHeap fun h => h.extends_tableMerge _ _
  | _ => exact absurd (by decide) hquiet

end StandardFunction

namespace Run

/-- The keys of each table are different from each other, and a later world has those of an earlier
one as the first ones, in the same order. -/
def keyOrder : Invariant where
  below w w' := w.heap.Extends w'.heap
  world w := ∀ id, (w.heap.table id).keys.Nodup
  env _ _ := True
  value _ _ := True

theorem later_keyOrder {w w' : World} (hw : keyOrder.world w) (h : w.heap.Extends w'.heap) :
    keyOrder.Later w w' :=
  ⟨h, fun id => (h id).nodup (hw id)⟩

theorem extendsKeys_callNative (setup : Setup) (depth : Nat) (f : Native) (values : List Value) :
    StandardFunction.ExtendsKeys (callNative setup depth f values) := by
  cases f with
  | standard f => exact StandardFunction.extendsKeys_call { setup with depth } f values
  | http f => exact StandardFunction.extendsKeys_of_spares fun _ _ => Http.spares_call setup f values
  | host m => exact StandardFunction.extendsKeys_of_spares fun _ _ => Host.spares_call setup m values

theorem kept_keyOrder (setup : Setup) (reached : Stage → Prop) :
    keyOrder.Kept setup reached where
  refl w := .refl w.heap
  trans := Heap.Extends.trans
  env_mono _ _ := trivial
  value_mono _ _ := trivial
  plain _ := trivial
  lookup _ _ _ := trivial
  index _ _ := trivial
  createArray hw _ := ⟨later_keyOrder hw (Heap.extends_newArray _ _), fun _ _ => trivial⟩
  assignIndex hw _ _ := later_keyOrder hw (Heap.extends_assignIndex _ _ _ _)
  newFunction hw _ := ⟨later_keyOrder hw (.refl _), fun _ _ => trivial⟩
  callNative hw _ := ⟨later_keyOrder hw (extendsKeys_callNative setup _ _ _ _), fun _ _ => trivial⟩
  enterCall hw _ _ := ⟨later_keyOrder hw (.refl _), trivial⟩
  enter hw _ := ⟨later_keyOrder hw (.refl _), trivial⟩
  bind _ _ _ hw _ _ := later_keyOrder hw (.refl _)
  assign hw _ _ _ := later_keyOrder hw (.refl _)

end Run

namespace Session

open Run

theorem aloof_keyOrder : Aloof keyOrder := fun _ _ _ hw => later_keyOrder hw (.refl _)

/-- There are no tables in a session in which nothing has run. -/
theorem ready_keyOrder_fresh (config : Config) (around : Surroundings) :
    Ready keyOrder (fresh config around) where
  world _ := List.nodup_nil
  env := trivial

/-- However a script that a session runs ends, the keys that a table had before are the first ones
that it has afterwards, in the same order, and so they are at each stage of the run; and at no time
are two keys of a table the same. Whatever lists the keys of a table lists them in their order: the
array that `tableKeys` makes of them, the display form, and the text that `toJson` makes, also where
the table stands in others. -/
theorem run_keeps_keys {sources : List Text} {s : Session} (h : History sources s)
    (source : Text) :
    (∀ id, (s.world.heap.table id).keys.Nodup ∧
      (s.world.heap.table id).keys <+: ((s.run source).2.world.heap.table id).keys ∧
      ((s.run source).2.world.heap.table id).keys.Nodup) ∧
    (∀ m, s.During source m → ∀ id,
      (s.world.heap.table id).keys <+: (m.world.heap.table id).keys ∧
      (m.world.heap.table id).keys.Nodup ∧
      (m.world.heap.table id).keys <+: ((m.after s.setup).heap.table id).keys ∧
      ((m.after s.setup).heap.table id).keys.Nodup) ∧
    ∀ (setup : Setup) (w : World) (id : TableId), w.heap.ListsKeys id ∧
      (StandardFunction.tableKeys.call setup [.table id]).run w =
        (.ok (.array w.heap.arrays.size),
          w.newArray ((w.heap.table id).keys.map Value.string).toArray) := by
  have hJ : ∀ setup, keyOrder.Kept setup fun _ => True := fun setup => kept_keyOrder setup _
  have hready : Ready keyOrder s := h.keeps hJ aloof_keyOrder ready_keyOrder_fresh
  refine ⟨fun id => ?_, fun m hm id => ?_, fun setup w id => ⟨w.heap.listsKeys id, rfl⟩⟩
  · have hlater := later_run (hJ s.setup) aloof_keyOrder hready source
    exact ⟨hready.world id, (hlater.below id).keys, hlater.world id⟩
  · obtain ⟨hbelow, hholds⟩ := holds_of_during (hJ s.setup) aloof_keyOrder hready hm
    have hlater := hholds.after (hJ s.setup) (fun _ _ _ _ => trivial) trivial
    exact ⟨(hbelow id).keys, hholds.world id, (hlater.below id).keys, hlater.world id⟩

/-- A session that holds a table with one key. -/
def withKey : Session := (withoutBootstrap.run "let t=createTable();t[\"b\"]=1").2

/-- A script that writes two keys, the first of which is new, and then ends with a fault. -/
theorem run_keeps_keys_withKey :
    History ["let t=createTable();t[\"b\"]=1"] withKey ∧
      (withKey.world.heap.table 0).keys = ["b"] ∧
      ((withKey.run "t[\"a\"]=1;t[\"b\"]=2;x").2.world.heap.table 0).keys = ["b", "a"] ∧
      (withKey.world.heap.table 0).keys <+:
        ((withKey.run "t[\"a\"]=1;t[\"b\"]=2;x").2.world.heap.table 0).keys ∧
      ((withKey.run "t[\"a\"]=1;t[\"b\"]=2;x").2.world.heap.table 0).keys.Nodup := by
  have hhistory : History ["let t=createTable();t[\"b\"]=1"] withKey :=
    .run _ (History.fresh quiet .bare)
  obtain ⟨-, hprefix, hnodup⟩ := (run_keeps_keys hhistory "t[\"a\"]=1;t[\"b\"]=2;x").1 0
  exact ⟨hhistory, by decide +kernel, by decide +kernel, hprefix, hnodup⟩

end Session

end HostScript
