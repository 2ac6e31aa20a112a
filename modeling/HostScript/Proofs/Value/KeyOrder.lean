import HostScript.Proofs.Json.Documents
import HostScript.Proofs.Run.SelfReference
import HostScript.Proofs.Value.Access
import HostScript.Proofs.Value.Depictions

/-!
# The order of keys

The keys of a table are listed in the order in which they came in. `Dict.Extends` and `Heap.Extends`
say that keys are only ever added, behind those that are there, and that no two become the same; each
operation on arrays and tables is of this kind. Whatever shows a table as a whole shows it key by key
in this order (`Heap.listsKeys`).
-/

namespace HostScript

/-! ## Dictionaries -/

namespace Dict

variable {α : Type} {d d₁ d₂ d₃ : Dict α}

/-- The keys of a dictionary are the first ones of another, in the same order. No two of these are
the same if no two of those are. -/
structure Extends (d d' : Dict α) : Prop where
  keys : d.keys <+: d'.keys
  nodup : d.keys.Nodup → d'.keys.Nodup

theorem Extends.refl (d : Dict α) : d.Extends d := ⟨List.prefix_rfl, id⟩

theorem Extends.trans (h : d₁.Extends d₂) (h' : d₂.Extends d₃) : d₁.Extends d₃ :=
  ⟨h.keys.trans h'.keys, fun hd => h'.nodup (h.nodup hd)⟩

/-- A dictionary without entries is the beginning of each that has no key twice. -/
theorem extends_of_nodup (h : d.keys.Nodup) : (empty : Dict α).Extends d :=
  ⟨List.nil_prefix, fun _ => h⟩

theorem extends_put (d : Dict α) (key : Text) (value : α) : d.Extends (d.put key value) := by
  by_cases hkey : key ∈ d.keys
  · have hkeys : (d.put key value).keys = d.keys := by rw [keys_put, if_pos hkey]
    constructor
    · rw [hkeys]
    · rw [hkeys]
      exact id
  · have hkeys : (d.put key value).keys = d.keys ++ [key] := by rw [keys_put, if_neg hkey]
    constructor
    · rw [hkeys]
      exact List.prefix_append _ _
    · intro hd
      rw [hkeys, List.nodup_append_comm, List.singleton_append, List.nodup_cons]
      exact ⟨hkey, hd⟩

theorem extends_putAbsent (d : Dict α) (key : Text) (value : α) :
    d.Extends (d.putAbsent key value) := by
  unfold putAbsent
  split
  · exact .refl d
  · exact extends_put d key value

theorem extends_merge (d e : Dict α) : d.Extends (d.merge e) := by
  obtain ⟨entries⟩ := e
  unfold merge
  induction entries generalizing d with
  | nil => exact .refl d
  | cons entry entries ih => exact (extends_putAbsent d entry.1 entry.2).trans (ih _)

end Dict

/-! ## Heaps -/

namespace Heap

variable {h h₁ h₂ h₃ : Heap}

/-- The keys of all tables are extended. -/
def Extends (h h' : Heap) : Prop := ∀ id, (h.table id).Extends (h'.table id)

theorem Extends.refl (h : Heap) : h.Extends h := fun id => .refl (h.table id)

theorem Extends.trans (h : h₁.Extends h₂) (h' : h₂.Extends h₃) : h₁.Extends h₃ :=
  fun id => (h id).trans (h' id)

/-- What leaves all tables as they are. -/
theorem extends_of_table_eq {h' : Heap} (heq : ∀ id, h'.table id = h.table id) : h.Extends h' := by
  intro id
  rw [heq id]
  exact .refl _

theorem extends_newArray (h : Heap) (items : Array Value) : h.Extends (h.newArray items).2 :=
  extends_of_table_eq fun _ => rfl

theorem extends_modifyArray (h : Heap) (id : ArrayId) (f : Array Value → Array Value) :
    h.Extends (h.modifyArray id f) :=
  extends_of_table_eq fun _ => rfl

theorem table_of_size_le {id : TableId} (hid : h.tables.size ≤ id) : h.table id = .empty := by
  have hnone : h.tables[id]? = none := by simpa using hid
  rw [table, hnone, Option.getD_none]

theorem extends_newTable {d : Dict Value} (hd : d.keys.Nodup) (h : Heap) :
    h.Extends (h.newTable d).2 := by
  intro id
  rw [table_newTable]
  split
  · next hid =>
    rw [table_of_size_le (Nat.le_of_eq hid.symm)]
    exact Dict.extends_of_nodup hd
  · exact .refl _

theorem extends_modifyTable {f : Dict Value → Dict Value}
    (hf : ∀ d : Dict Value, d.Extends (f d)) (h : Heap) (id : TableId) :
    h.Extends (h.modifyTable id f) := by
  intro other
  rw [table_modifyTable]
  split
  · next hother =>
    rw [hother.1]
    exact hf _
  · exact .refl _

theorem extends_createTable (h : Heap) : h.Extends h.createTable.2 :=
  extends_newTable (d := .empty) List.nodup_nil h

theorem extends_tableSet (h : Heap) (id : TableId) (key : Text) (v : Value) :
    h.Extends (h.tableSet id key v) :=
  extends_modifyTable (fun d => d.extends_put key v) h id

theorem extends_tableMerge (h : Heap) (destination source : TableId) :
    h.Extends (h.tableMerge destination source).2 :=
  extends_modifyTable (fun d => d.extends_merge (h.table source)) h destination

theorem extends_arraySet (h : Heap) (id : ArrayId) (x : Float) (v : Value) :
    h.Extends (h.arraySet id x v).2 := by
  unfold arraySet
  dsimp only
  split
  · split
    · exact extends_modifyArray h id _
    · exact .refl h
  · exact .refl h

theorem extends_assignIndex (h : Heap) (target i v : Value) :
    h.Extends (h.assignIndex target i v).2 := by
  rcases access_cases target i with ⟨id, x, rfl, rfl⟩ | ⟨id, key, rfl, rfl⟩ | ⟨_, _, hfails⟩
  · rw [assignIndex_array]
    exact extends_arraySet h id x v
  · rw [assignIndex_table]
    exact extends_tableSet h id key v
  · rw [(hfails h).2]
    exact .refl h

theorem extends_arrayPopBack (h : Heap) (id : ArrayId) : h.Extends (h.arrayPopBack id).2 := by
  unfold arrayPopBack
  split
  · exact extends_modifyArray h id _
  · exact .refl h

theorem extends_arrayInsert (h : Heap) (id : ArrayId) (x : Float) (v : Value) :
    h.Extends (h.arrayInsert id x v).2 := by
  unfold arrayInsert
  dsimp only
  split
  · split
    · exact extends_modifyArray h id _
    · exact .refl h
  · exact .refl h

theorem extends_arrayRemove (h : Heap) (id : ArrayId) (x : Float) :
    h.Extends (h.arrayRemove id x).2 := by
  unfold arrayRemove
  dsimp only
  split
  · split
    · exact extends_modifyArray h id _
    · exact .refl h
  · exact .refl h

mutual

theorem extends_load (h : Heap) : (d : Json) → h.Extends (h.load d).2
  | .null | .boolean _ | .integer _ | .number _ | .string _ => by
    rw [load]
    exact .refl h
  | .array items => by
    rw [load]
    exact (extends_loadItems h items).trans (extends_newArray _ _)
  | .object members => by
    rw [load]
    exact (extends_loadMembers h members).trans (extends_newTable (Dict.nodup_keys_ofList _) _)

theorem extends_loadItems (h : Heap) : (items : List Json) → h.Extends (h.loadItems items).2
  | [] => by
    rw [loadItems]
    exact .refl h
  | item :: rest => by
    rw [loadItems]
    exact (extends_load h item).trans (extends_loadItems (h.load item).2 rest)

theorem extends_loadMembers (h : Heap) :
    (members : List (Text × Json)) → h.Extends (h.loadMembers members).2
  | [] => by
    rw [loadMembers]
    exact .refl h
  | (_, item) :: rest => by
    rw [loadMembers]
    exact (extends_load h item).trans (extends_loadMembers (h.load item).2 rest)

end

/-! ## Listings -/

theorem length_of_mapM_eq_ok {α β ε : Type} {f : α → Except ε β} {xs : List α} {ys : List β}
    (h : xs.mapM f = .ok ys) : ys.length = xs.length := by
  induction xs generalizing ys with
  | nil =>
    obtain rfl := Except.ok.inj h
    rfl
  | cons x xs ih =>
    rw [List.mapM_cons] at h
    cases hx : f x with
    | error fault => simp [hx, bind, Except.bind] at h
    | ok y =>
      cases hxs : xs.mapM f with
      | error fault => simp [hx, hxs, bind, Except.bind] at h
      | ok rest =>
        simp only [hx, hxs, bind, Except.bind, pure, Except.pure, Except.ok.injEq] at h
        rw [← h, List.length_cons, List.length_cons, ih hxs]

/-- A table that is written out, wherever it stands, is written key by key: in the display form, in a
document and in the text of the document. It has a display form unless it is nested too deeply, and
then it has a document unless it holds something that holds itself. -/
structure ListsKeys (h : Heap) (id : TableId) : Prop where
  displayed : ∀ depth, (∃ t, (Value.table id).display h depth = some t) ↔
    ¬ h.Exceeds depth (.table id)
  documented : ∀ depth, ¬ h.Exceeds depth (.table id) →
    ((∃ d, (Value.table id).document h depth = .ok d) ↔
      ¬ ∃ c, h.Reaches (.table id) c ∧ h.Cyclic c)
  display : ∀ depth above t, .table id ∉ above →
    (Value.table id).displayIn h depth above = some t →
      ∃ texts, texts.length = (h.table id).keys.length ∧ t = (Node.table (h.table id).keys).text texts
  document : ∀ depth above d, .table id ∉ above →
    (Value.table id).documentIn h depth above = .ok d →
      ∃ documents, documents.length = (h.table id).keys.length ∧
        d = .object ((h.table id).keys.zip documents) ∧
        d.finite.write .plain =
          (Node.table ((h.table id).keys.map (Json.writeString .plain))).text
            (documents.map fun document => document.finite.write .plain)

theorem length_members_table (h : Heap) (id : TableId) :
    (h.members (.table id)).length = (h.table id).keys.length := by
  rw [members, Dict.keys, List.length_map, List.length_map]

/-- The text of an object over the texts of its members. -/
theorem write_object (keys : List Text) (documents : List Json) :
    (Json.object (keys.zip documents)).finite.write .plain =
      (Node.table (keys.map (Json.writeString .plain))).text
        (documents.map fun document => document.finite.write .plain) := by
  rw [Json.finite, Json.finiteMembers_eq_map, Json.write, Json.writeMembers_eq_map, Node.text,
    List.map_map, List.zip, List.map_zipWith, List.zipWith_map]
  rfl

theorem listsKeys (h : Heap) (id : TableId) : h.ListsKeys id where
  displayed depth := by
    rw [← Option.ne_none_iff_exists', Ne, Value.display_eq_none_iff]
    rfl
  documented depth hdeep := by
    have hlevels := Value.levels_le_of_not_exceeds hdeep
    rw [Value.document, Value.documentIn_eq hlevels, ← Value.isCut_unfold_iff]
    split
    · next hcut => simp [hcut]
    · next hcut => simp [hcut]
  display depth above t habove ht := by
    cases depth with
    | zero => cases ht
    | succ depth =>
      rw [Value.displayIn_whole rfl habove] at ht
      obtain ⟨texts, htexts, rfl⟩ := Option.map_eq_some_iff.mp ht
      refine ⟨texts, ?_, rfl⟩
      rw [← length_members_table, ← (mapM_eq_some_iff.mp htexts).length_eq]
  document depth above d habove hd := by
    cases depth with
    | zero => cases hd
    | succ depth =>
      rw [Value.documentIn_whole rfl habove] at hd
      cases hdocuments : (h.members (.table id)).mapM
          (Value.documentIn h depth (.table id :: above)) with
      | error fault =>
        rw [hdocuments] at hd
        cases hd
      | ok documents =>
        rw [hdocuments] at hd
        obtain rfl := Except.ok.inj hd
        refine ⟨documents, ?_, rfl, write_object _ _⟩
        rw [← length_members_table, length_of_mapM_eq_ok hdocuments]

end Heap

end HostScript
