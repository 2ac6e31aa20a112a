import HostScript.Proofs.Run.Places
import HostScript.Proofs.Value.Nesting
import Mathlib.Data.Set.Card
import Mathlib.Data.Set.Finite.Lattice

/-!
# Values as trees

A value unfolds to a tree (`Heap.UnfoldsTo`): members stand below the composite that holds them, in
order, and what is shared is repeated wherever it occurs. The tree ends at the references back to a
composite that they are inside of, so it is finite in every heap, however its composites hold each
other. `Value.display_unfolds` says that the display form of a value is the text of its tree, and
that the tree has at most one level more than there are composites to be reached.
-/

namespace HostScript

/-! ## Trees -/

/-- What stands at one place of a tree: a value without members, a reference back to a composite, an
array, or a table with its keys. -/
inductive Node
  | atom (v : Value)
  | cut (c : Composite)
  | array
  | table (keys : List Text)

/-- A tree of nodes. -/
inductive Unfolding
  | node (root : Node) (parts : List Unfolding)

namespace Node

/-- The display form of an entry over that of its value. -/
def entryText (key t : Text) : Text := key ++ ": " ++ t

/-- The display form of a node over the display forms of its parts. -/
def text : Node → List Text → Text
  | atom v, _ => v.displayAtom
  | cut c, _ => c.cut
  | array, texts => "[" ++ Text.join ", " texts ++ "]"
  | table keys, texts => "\x7b" ++ Text.join ", " (keys.zipWith entryText texts) ++ "\x7d"

/-- The levels that a node adds to its parts. -/
def ownLevels : Node → ℕ
  | atom _ => 0
  | _ => 1

end Node

namespace Unfolding

/-- The node at the top. -/
def root : Unfolding → Node
  | node root _ => root

/-- The trees below the top. -/
def parts : Unfolding → List Unfolding
  | node _ parts => parts

/-- The tree at a place, which is given by the position to take at each level. -/
def at? (t : Unfolding) : List ℕ → Option Unfolding
  | [] => some t
  | i :: place => t.parts[i]?.bind fun part => part.at? place

/-- The text of a tree. -/
def text : Unfolding → Text
  | node root parts => root.text (parts.map text)

/-- The number of composites on the longest way down, cut references included. -/
def levels : Unfolding → ℕ
  | node root parts => root.ownLevels + (parts.map levels).foldr max 0

@[simp] theorem text_leaf (root : Node) : (node root []).text = root.text [] := by rw [text]; rfl

@[simp] theorem levels_leaf (root : Node) : (node root []).levels = root.ownLevels := by
  rw [levels]
  rfl

theorem foldr_max_le_iff {sizes : List ℕ} {n : ℕ} :
    sizes.foldr max 0 ≤ n ↔ ∀ size ∈ sizes, size ≤ n := by
  induction sizes with
  | nil => simp
  | cons size sizes ih => simp [ih]

theorem levels_le_iff {root : Node} {parts : List Unfolding} {n : ℕ} (h : root.ownLevels = 1) :
    (node root parts).levels ≤ n + 1 ↔ ∀ part ∈ parts, part.levels ≤ n := by
  rw [levels, h, Nat.add_comm, Nat.add_le_add_iff_right, foldr_max_le_iff, List.forall_mem_map]

theorem levels_pos {t : Unfolding} (h : t.root.ownLevels = 1) : 0 < t.levels := by
  obtain ⟨root, parts⟩ := t
  have hroot : root.ownLevels = 1 := h
  rw [levels, hroot]
  omega

/-- The nodes at all places make the tree. -/
theorem eq_of_at? : ∀ (t t' : Unfolding),
    (∀ place, (t.at? place).map root = (t'.at? place).map root) → t = t'
  | node root₁ parts₁, node root₂ parts₂, h => by
    have hroot : root₁ = root₂ := Option.some.inj (h [])
    have hparts : parts₁ = parts₂ := by
      refine List.ext_getElem? fun i => ?_
      have hat (place : List ℕ) : (parts₁[i]?.bind (at? · place)).map root =
          (parts₂[i]?.bind (at? · place)).map root := h (i :: place)
      cases h₁ : parts₁[i]? with
      | none =>
        cases h₂ : parts₂[i]? with
        | none => rfl
        | some part₂ => simpa [h₁, h₂, at?] using hat []
      | some part₁ =>
        cases h₂ : parts₂[i]? with
        | none => simpa [h₁, h₂, at?] using hat []
        | some part₂ =>
          have hmem : part₁ ∈ parts₁ := List.mem_of_getElem? h₁
          have hsame : part₁ = part₂ :=
            eq_of_at? part₁ part₂ fun place => by simpa [h₁, h₂] using hat place
          rw [hsame]
    rw [hroot, hparts]
  termination_by t => sizeOf t

end Unfolding

/-! ## The tree of a value -/

namespace Heap

variable {h : Heap} {above : List Composite} {v : Value} {c d : Composite}

/-- A composite has a reference to another one among its members. -/
def Holds (h : Heap) (c d : Composite) : Prop := ∃ u ∈ h.members c, u.composite? = some d

/-- A composite can be reached from a value through members. -/
def Reaches (h : Heap) (v : Value) (c : Composite) : Prop :=
  ∃ b, v.composite? = some b ∧ Relation.ReflTransGen h.Holds b c

/-- Where a way through members leads from a value that is inside the composites `above`: the value
there and what it is inside of. No way leads through a reference back. -/
def follow (h : Heap) (above : List Composite) (v : Value) :
    List ℕ → Option (List Composite × Value)
  | [] => some (above, v)
  | i :: place =>
    match v.composite? with
    | none => none
    | some c =>
      if c ∈ above then none
      else (h.members c)[i]?.bind fun u => h.follow (c :: above) u place

/-- The node of a composite that is written out. -/
def whole (h : Heap) : Composite → Node
  | .array _ => .array
  | .table id => .table (h.table id).keys

/-- The node of a value that is inside the composites `above`. -/
def nodeOf (h : Heap) (above : List Composite) (v : Value) : Node :=
  match v.composite? with
  | none => .atom v
  | some c => if c ∈ above then .cut c else h.whole c

/-- A tree has the node of what the members of a value lead to at every place, and no other places.
A reference is cut if, and only if, it refers to a composite that it is inside of. -/
def UnfoldsTo (h : Heap) (v : Value) (t : Unfolding) : Prop :=
  ∀ place, (t.at? place).map Unfolding.root =
    (h.follow [] v place).map fun (above, u) => h.nodeOf above u

/-- The composites that there are. -/
def composites (h : Heap) : Finset Composite :=
  (Finset.range h.arrays.size).image .array ∪ (Finset.range h.tables.size).image .table

theorem mem_composites : c ∈ h.composites ↔ h.Has c := by
  cases c <;> simp [composites, Has]

theorem has_of_mem_members {u : Value} (hu : u ∈ h.members c) : h.Has c := by
  by_contra hc
  rw [members_of_not_has hc] at hu
  exact List.not_mem_nil hu

/-- There are fewer composites left inside of one that was left before. -/
theorem card_outside_lt (hc : h.Has c) (habove : c ∉ above) :
    (h.composites \ (c :: above).toFinset).card < (h.composites \ above.toFinset).card := by
  refine Finset.card_lt_card (Finset.ssubset_iff_subset_ne.mpr ⟨?_, fun heq => ?_⟩)
  · refine Finset.sdiff_subset_sdiff (Finset.Subset.refl _) fun d hd => ?_
    simp_all
  · have hmem : c ∈ h.composites \ above.toFinset := by simp [mem_composites, hc, habove]
    rw [← heq] at hmem
    simp at hmem

end Heap

namespace Value

/-- The tree of a value that is inside the composites `above`. -/
def unfold (h : Heap) (above : List Composite) (v : Value) : Unfolding :=
  .node (h.nodeOf above v) <|
    match v.composite? with
    | none => []
    | some c =>
      if _hc : c ∈ above then []
      else (h.members c).attach.map fun u => unfold h (c :: above) u.1
termination_by (h.composites \ above.toFinset).card
decreasing_by exact Heap.card_outside_lt (Heap.has_of_mem_members u.2) _hc

variable {h : Heap} {above : List Composite} {v : Value} {c : Composite}

theorem unfold_atom (hv : v.composite? = none) : v.unfold h above = .node (.atom v) [] := by
  rw [unfold, Heap.nodeOf, hv]

theorem unfold_cut (hv : v.composite? = some c) (hc : c ∈ above) :
    v.unfold h above = .node (.cut c) [] := by
  rw [unfold, Heap.nodeOf, hv]
  simp [hc]

theorem unfold_whole (hv : v.composite? = some c) (hc : c ∉ above) :
    v.unfold h above = .node (h.whole c) ((h.members c).map (unfold h (c :: above))) := by
  rw [unfold, Heap.nodeOf, hv]
  simp [hc]

theorem at?_unfold (place : List ℕ) : ((v.unfold h above).at? place).map Unfolding.root =
    (h.follow above v place).map fun (above, u) => h.nodeOf above u := by
  induction place generalizing above v with
  | nil =>
    rw [unfold]
    rfl
  | cons i place ih =>
    cases hv : v.composite? with
    | none => simp [unfold_atom hv, Unfolding.at?, Unfolding.parts, Heap.follow, hv]
    | some c =>
      by_cases hc : c ∈ above
      · simp [unfold_cut hv hc, Unfolding.at?, Unfolding.parts, Heap.follow, hv, hc]
      · simp only [unfold_whole hv hc, Unfolding.at?, Unfolding.parts, Heap.follow, hv, hc,
          if_false, List.getElem?_map]
        cases (h.members c)[i]? with
        | none => rfl
        | some u => exact ih

/-- Every value unfolds to one tree. -/
theorem unfoldsTo_iff {t : Unfolding} : h.UnfoldsTo v t ↔ t = v.unfold h [] := by
  constructor
  · intro ht
    exact Unfolding.eq_of_at? _ _ fun place => (ht place).trans (at?_unfold place).symm
  · rintro rfl
    exact at?_unfold

/-! ## The text of the tree -/

/-- A traversal of which each step is made or not comes through if each step is made. -/
theorem mapM_ite {α β : Type} {p : α → Prop} [DecidablePred p] {f : α → β} (xs : List α) :
    (xs.mapM fun x => if p x then some (f x) else none) =
      if ∀ x ∈ xs, p x then some (xs.map f) else none := by
  induction xs with
  | nil => simp
  | cons x xs ih =>
    rw [List.mapM_cons, ih]
    by_cases hx : p x
    · by_cases hxs : ∀ y ∈ xs, p y
      · rw [if_pos hx, if_pos hxs, if_pos (List.forall_mem_cons.mpr ⟨hx, hxs⟩)]
        rfl
      · rw [if_pos hx, if_neg hxs, if_neg fun h => hxs (List.forall_mem_cons.mp h).2]
        rfl
    · rw [if_neg hx, if_neg fun h => hx (List.forall_mem_cons.mp h).1]
      rfl

theorem ownLevels_whole (c : Composite) : (h.whole c).ownLevels = 1 := by cases c <;> rfl

theorem mapM_displayEntry (display : Value → Option Text) (entries : List (Text × Value)) :
    entries.mapM (displayEntry display) = ((entries.map (·.2)).mapM display).map fun texts =>
      (entries.map (·.1)).zipWith Node.entryText texts := by
  induction entries with
  | nil => rfl
  | cons entry entries ih =>
    simp only [List.mapM_cons, List.map_cons, ih, displayEntry]
    cases display entry.2 with
    | none => rfl
    | some t => cases (entries.map (·.2)).mapM display <;> rfl

theorem levels_unfold_pos (hv : v.composite? = some c) : 0 < (v.unfold h above).levels := by
  refine Unfolding.levels_pos ?_
  by_cases hc : c ∈ above
  · rw [unfold_cut hv hc]
    rfl
  · rw [unfold_whole hv hc]
    exact ownLevels_whole c

/-- The display form of a composite that is written out, over those of its members. -/
theorem displayIn_whole (hv : v.composite? = some c) (hc : c ∉ above) (depth : ℕ) :
    v.displayIn h (depth + 1) above =
      ((h.members c).mapM (displayIn h depth (c :: above))).map (h.whole c).text := by
  cases v with
  | array id =>
    obtain rfl := Option.some.inj hv
    simp only [displayIn, List.contains_iff_mem, hc, if_false, Heap.members]
    cases (h.array id).toList.mapM (displayIn h depth (.array id :: above)) <;> rfl
  | table id =>
    obtain rfl := Option.some.inj hv
    simp only [displayIn, List.contains_iff_mem, hc, if_false, Heap.members, mapM_displayEntry]
    cases ((h.table id).entries.map (·.2)).mapM (displayIn h depth (.table id :: above)) <;> rfl
  | _ => simp [composite?] at hv

theorem displayIn_cut (hv : v.composite? = some c) (hc : c ∈ above) (depth : ℕ) :
    v.displayIn h (depth + 1) above = some c.cut := by
  cases v with
  | array id =>
    obtain rfl := Option.some.inj hv
    simp [displayIn, hc]
  | table id =>
    obtain rfl := Option.some.inj hv
    simp [displayIn, hc]
  | _ => simp [composite?] at hv

theorem displayIn_atom (hv : v.composite? = none) (depth : ℕ) :
    v.displayIn h depth above = some v.displayAtom := by
  cases v with
  | array id | table id => simp [composite?] at hv
  | _ => cases depth <;> rfl

theorem displayIn_eq_of_atom (hv : v.composite? = none) (depth : ℕ) : v.displayIn h depth above =
    if (v.unfold h above).levels ≤ depth then some (v.unfold h above).text else none := by
  rw [displayIn_atom hv, unfold_atom hv, Unfolding.levels_leaf, Unfolding.text_leaf]
  exact (if_pos (Nat.zero_le depth)).symm

/-- A value is shown as the text of its tree, unless the tree has too many levels. -/
theorem displayIn_eq (depth : ℕ) : v.displayIn h depth above =
    if (v.unfold h above).levels ≤ depth then some (v.unfold h above).text else none := by
  cases hv : v.composite? with
  | none => exact displayIn_eq_of_atom hv depth
  | some c =>
    induction depth generalizing above v c with
    | zero => rw [displayIn_zero hv, if_neg (Nat.not_le_of_gt (levels_unfold_pos hv))]
    | succ depth ih =>
      by_cases hc : c ∈ above
      · rw [displayIn_cut hv hc, unfold_cut hv hc, Unfolding.levels_leaf, Unfolding.text_leaf]
        exact (if_pos (Nat.le_add_left 1 depth)).symm
      · have hmember (u : Value) : u.displayIn h depth (c :: above) =
            if (u.unfold h (c :: above)).levels ≤ depth then some (u.unfold h (c :: above)).text
            else none := by
          cases hu : u.composite? with
          | none => exact displayIn_eq_of_atom hu depth
          | some d => exact ih _ hu
        rw [displayIn_whole hv hc, unfold_whole hv hc, funext hmember, mapM_ite, Unfolding.text,
          List.map_map]
        simp only [Unfolding.levels_le_iff (ownLevels_whole c), List.forall_mem_map]
        split <;> rfl

theorem display_eq (depth : ℕ) : v.display h depth =
    if (v.unfold h []).levels ≤ depth then some (v.unfold h []).text else none :=
  displayIn_eq depth

/-! ## The levels of the tree -/

theorem reaches_of_descends {path : List Composite} (hd : h.Descends v path) :
    ∀ d ∈ path, h.Reaches v d := by
  induction hd with
  | last hc =>
    intro d hd
    obtain rfl := List.mem_singleton.mp hd
    exact ⟨_, hc, .refl⟩
  | step hc hu _ ih =>
    refine List.forall_mem_cons.mpr ⟨⟨_, hc, .refl⟩, fun d hd => ?_⟩
    obtain ⟨b, hb, hbd⟩ := ih d hd
    exact ⟨_, hc, .head ⟨_, hu, hb⟩ hbd⟩

/-- No more can be reached than the value itself and what the composites that there are hold. -/
theorem finite_reaches (h : Heap) (v : Value) : {c | h.Reaches v c}.Finite := by
  have hheld (b : Composite) : {c | h.Holds b c}.Finite :=
    ((h.members b).filterMap composite?).finite_toSet.subset fun c ⟨u, hu, hc⟩ =>
      List.mem_filterMap.mpr ⟨u, hu, hc⟩
  refine ((v.composite?.toList.finite_toSet).union
    (h.composites.finite_toSet.biUnion fun b _ => hheld b)).subset ?_
  rintro c ⟨b, hb, hbc⟩
  rcases hbc.cases_tail with rfl | ⟨d, -, hdc⟩
  · exact .inl (by simp [hb])
  · obtain ⟨u, hu, -⟩ := id hdc
    exact .inr (Set.mem_biUnion (Heap.mem_composites.mpr (Heap.has_of_mem_members hu)) hdc)

/-- The tree goes at most one level below the composites that can be reached, since none of them is
written out inside itself. -/
theorem levels_unfold_le : (v.unfold h []).levels ≤ {c | h.Reaches v c}.ncard + 1 := by
  by_contra hlevels
  have hnone : v.display h ({c | h.Reaches v c}.ncard + 1) = none := by
    rw [display_eq, if_neg hlevels]
  obtain ⟨path, hd, hlength, hnodup⟩ := display_eq_none_iff.mp hnone
  have hsubset : (path.dropLast.toFinset : Set Composite) ⊆ {c | h.Reaches v c} := by
    intro c hc
    exact reaches_of_descends hd c (List.dropLast_subset path (List.mem_toFinset.mp hc))
  have hcard := Set.ncard_le_ncard hsubset (finite_reaches h v)
  rw [Set.ncard_coe_finset, List.toFinset_card_of_nodup hnodup, List.length_dropLast, hlength]
    at hcard
  omega

/-- Every value has one tree, in whatever heap. With a bound on nesting the value is shown as the
text of this tree if the tree has no more levels than the bound, and it has at most one more than
there are composites to be reached. -/
theorem display_unfolds (h : Heap) (v : Value) : ∃! t : Unfolding, h.UnfoldsTo v t ∧
    t.levels ≤ {c | h.Reaches v c}.ncard + 1 ∧
    ∀ depth, v.display h depth = if t.levels ≤ depth then some t.text else none := by
  refine ⟨v.unfold h [], ⟨unfoldsTo_iff.mpr rfl, levels_unfold_le, display_eq⟩, ?_⟩
  rintro t ⟨ht, -⟩
  exact unfoldsTo_iff.mp ht

/-- An array that holds itself and, twice, a table that holds the array. -/
example : (Value.array 0).display ⟨#[#[.array 0, .table 0, .table 0]],
    #[⟨[("a", .array 0), ("b", .null)]⟩]⟩ 3 =
      some "[[...], \x7ba: [...], b: null\x7d, \x7ba: [...], b: null\x7d]" := by cbv

end Value

end HostScript
