import HostScript.Http.Charset
import HostScript.Library.Call
import HostScript.Proofs.Run.Places
import HostScript.Proofs.Value.KeyOrder

/-!
# Merging tables

Merging puts the entries of a table behind those of another, without those whose keys are there
(`Dict.merge_eq`), so that it is associative (`Dict.merge_assoc`). `tableMerge` does this to the
table that is its first argument, also where both arguments are one table or one holds the other
(`StandardFunction.tableMerge_fills`).
-/

namespace HostScript

/-! ## Dictionaries -/

namespace Dict

variable {α : Type} {d e f : Dict α} {key : Text} {value : α}

theorem putAbsent_of_mem (h : key ∈ d.keys) : d.putAbsent key value = d :=
  if_pos ((has_iff_mem_keys d key).mpr h)

theorem putAbsent_of_notMem (h : key ∉ d.keys) :
    d.putAbsent key value = ⟨d.entries ++ [(key, value)]⟩ := by
  rw [putAbsent, if_neg (mt (has_iff_mem_keys d key).mp h), put, putEntry_of_not_mem h]

/-- The entries of the first dictionary stay, and those of the second with other keys follow. -/
theorem merge_eq (he : e.keys.Nodup) :
    d.merge e = ⟨d.entries ++ e.entries.filter fun entry => entry.1 ∉ d.keys⟩ := by
  obtain ⟨entries⟩ := e
  unfold merge
  induction entries generalizing d with
  | nil => simp
  | cons entry entries ih =>
    obtain ⟨hentry, hentries⟩ := List.nodup_cons.mp he
    rw [List.foldl_cons]
    by_cases hmem : entry.1 ∈ d.keys
    · rw [putAbsent_of_mem hmem, ih hentries, List.filter_cons_of_neg (by simpa using hmem)]
    · have hrest : (entries.filter fun later => later.1 ∉ (d.putAbsent entry.1 entry.2).keys) =
          entries.filter fun later => later.1 ∉ d.keys := by
        apply List.filter_congr
        intro later hlater
        have hne : later.1 ≠ entry.1 := by
          rintro heq
          exact hentry (List.mem_map.mpr ⟨later, hlater, heq⟩)
        rw [decide_eq_decide, putAbsent_of_notMem hmem, keys, List.map_append, List.mem_append]
        exact not_congr (or_iff_left (mt List.mem_singleton.mp hne))
      rw [ih hentries, hrest, putAbsent_of_notMem hmem,
        List.filter_cons_of_pos (by simpa using hmem), List.append_assoc, List.singleton_append]

theorem mem_keys_merge (he : e.keys.Nodup) :
    key ∈ (d.merge e).keys ↔ key ∈ d.keys ∨ key ∈ e.keys := by
  rw [merge_eq he, keys, List.map_append, List.mem_append]
  refine or_congr_right' fun hmem => ?_
  constructor
  · intro hkey
    obtain ⟨entry, hentry, rfl⟩ := List.mem_map.mp hkey
    exact List.mem_map_of_mem (List.mem_filter.mp hentry).1
  · intro hkey
    obtain ⟨entry, hentry, rfl⟩ := List.mem_map.mp hkey
    exact List.mem_map_of_mem (List.mem_filter.mpr ⟨hentry, decide_eq_true hmem⟩)

/-- Nothing is added to a dictionary that has all keys. -/
theorem merge_eq_self (h : e.keys ⊆ d.keys) : d.merge e = d := by
  obtain ⟨entries⟩ := e
  unfold merge
  induction entries with
  | nil => rfl
  | cons entry entries ih =>
    obtain ⟨hentry, hentries⟩ := List.cons_subset.mp h
    rw [List.foldl_cons, putAbsent_of_mem hentry, ih hentries]

theorem merge_assoc (he : e.keys.Nodup) (hf : f.keys.Nodup) :
    (d.merge e).merge f = d.merge (e.merge f) := by
  have hlast : (f.entries.filter fun entry => entry.1 ∉ (d.merge e).keys) =
      (f.entries.filter fun entry => entry.1 ∉ e.keys).filter fun entry => entry.1 ∉ d.keys := by
    rw [List.filter_filter]
    apply List.filter_congr
    intro entry _
    simp [mem_keys_merge he]
  rw [merge_eq hf, merge_eq ((extends_merge e f).nodup he), hlast, merge_eq he, merge_eq hf,
    List.filter_append, List.append_assoc]

end Dict

/-! ## Runs -/

namespace Heap

variable {h : Heap} {destination source id : TableId}

theorem table_tableMerge (hdestination : h.Has (.table destination)) :
    (h.tableMerge destination source).2.table destination =
      (h.table destination).merge (h.table source) := by
  rw [tableMerge, table_modifyTable, if_pos ⟨rfl, hdestination⟩]

theorem table_tableMerge_of_ne (hne : id ≠ destination) :
    (h.tableMerge destination source).2.table id = h.table id := by
  rw [tableMerge, table_modifyTable, if_neg fun hid => hne hid.1]

theorem has_tableMerge {c : Composite} (hc : h.Has c) :
    (h.tableMerge destination source).2.Has c := by
  cases c with
  | array id => exact hc
  | table id =>
    rw [Has] at hc ⊢
    simpa [tableMerge, modifyTable] using hc

/-- Afterwards the destination has all keys of the source, which may be the same table. -/
theorem keys_tableMerge_subset (hdestination : h.Has (.table destination))
    (hsource : (h.table source).keys.Nodup) :
    ((h.tableMerge destination source).2.table source).keys ⊆
      ((h.tableMerge destination source).2.table destination).keys := by
  by_cases heq : source = destination
  · rw [heq]
    exact List.Subset.refl _
  · rw [table_tableMerge_of_ne heq, table_tableMerge hdestination]
    exact fun key hkey => (Dict.mem_keys_merge hsource).mpr (.inr hkey)

/-- Nothing changes if the table has all keys. -/
theorem tableMerge_eq_self (hsubset : (h.table source).keys ⊆ (h.table destination).keys) :
    (h.tableMerge destination source).2 = h := by
  have htables : h.tables.modify destination (·.merge (h.table source)) = h.tables := by
    refine Array.ext (by simp) fun i hi hi' => ?_
    rw [Array.getElem_modify]
    split
    · next heq =>
      subst heq
      have hget : h.table destination = h.tables[destination] := by
        simp [table, Array.getElem?_eq_getElem hi']
      rw [← hget]
      exact Dict.merge_eq_self hsubset
    · rfl
  rw [tableMerge, modifyTable, htables]

end Heap

namespace StandardFunction

open Run

variable {setup : Setup} {w : World} {destination source : TableId}

/-- A call that merges one table into another. -/
def merging (setup : Setup) (destination source : TableId) : Run Value :=
  tableMerge.call setup [.table destination, .table source]

theorem run_merging : (merging setup destination source).run w =
    (.ok .null, { w with heap := (w.heap.tableMerge destination source).2 }) :=
  rfl

/-- A table stands in for a copy of the first of two tables that are merged into another: merging
the second one into the copy, and then the copy, comes to the same. -/
theorem run_merging_copy (hkeys : ∀ id, (w.heap.table id).keys.Nodup)
    (hdestination : w.heap.Has (.table destination)) {first second copy : TableId}
    (hcopy : w.heap.Has (.table copy)) (heq : w.heap.table copy = w.heap.table first)
    (hapart : copy ≠ destination) : ∃ w₁ w₂,
      (merging setup destination first >>= fun _ => merging setup destination second).run w =
        (.ok .null, w₁) ∧
      (merging setup copy second >>= fun _ => merging setup destination copy).run w =
        (.ok .null, w₂) ∧
      w₁.heap.table destination = w₂.heap.table destination := by
  refine ⟨_, _, rfl, rfl, ?_⟩
  have hleft : ((w.heap.tableMerge destination first).2.tableMerge destination second).2.table
      destination = ((w.heap.table destination).merge (w.heap.table first)).merge
        (w.heap.table second) := by
    rw [Heap.table_tableMerge (Heap.has_tableMerge hdestination),
      Heap.table_tableMerge hdestination]
    by_cases hsecond : second = destination
    · subst hsecond
      rw [Heap.table_tableMerge hdestination, Dict.merge_eq_self (List.Subset.refl _),
        Dict.merge_eq_self ((Dict.extends_merge _ _).keys.subset)]
    · rw [Heap.table_tableMerge_of_ne hsecond]
  have hright : ((w.heap.tableMerge copy second).2.tableMerge destination copy).2.table
      destination = (w.heap.table destination).merge
        ((w.heap.table first).merge (w.heap.table second)) := by
    rw [Heap.table_tableMerge (Heap.has_tableMerge hdestination),
      Heap.table_tableMerge_of_ne hapart.symm, Heap.table_tableMerge hcopy, heq]
  exact hleft.trans ((Dict.merge_assoc (hkeys first) (hkeys second)).trans hright.symm)

/-- No table has a key twice, as in all worlds that scripts come to (`Run.kept_keyOrder`). However
many keys two tables have in common, and whether they are one table or hold each other, merging
gives the destination, behind its own entries, those entries of the source whose keys it lacks, in
their order, and changes nothing else; nothing at all if both are the same. Merging again changes
nothing, and merging two tables one after the other comes to merging a copy of the first one into
which the second one was merged. -/
theorem tableMerge_fills (hkeys : ∀ id, (w.heap.table id).keys.Nodup)
    (hdestination : w.heap.Has (.table destination)) :
    (∀ source, ∃ heap,
      (merging setup destination source).run w = (.ok .null, { w with heap := heap }) ∧
      (heap.table destination).entries = (w.heap.table destination).entries ++
        (w.heap.table source).entries.filter
          (fun entry => entry.1 ∉ (w.heap.table destination).keys) ∧
      (∀ p, p ≠ .composite (.table destination) → w.SameAt { w with heap := heap } p) ∧
      (source = destination → heap = w.heap) ∧
      (merging setup destination source).run { w with heap := heap } =
        (.ok .null, { w with heap := heap })) ∧
    ∀ first second copy, w.heap.Has (.table copy) → w.heap.table copy = w.heap.table first →
      copy ≠ destination → ∃ w₁ w₂,
        (merging setup destination first >>= fun _ => merging setup destination second).run w =
          (.ok .null, w₁) ∧
        (merging setup copy second >>= fun _ => merging setup destination copy).run w =
          (.ok .null, w₂) ∧
        w₁.heap.table destination = w₂.heap.table destination := by
  refine ⟨fun source => ⟨_, run_merging, ?_, ?_, ?_, ?_⟩,
    fun first second copy => run_merging_copy hkeys hdestination⟩
  · rw [Heap.table_tableMerge hdestination, Dict.merge_eq (hkeys source)]
  · rintro (_ | _ | id) hp
    · rfl
    · rfl
    · exact Heap.table_tableMerge_of_ne fun heq => hp (heq ▸ rfl)
  · intro heq
    subst heq
    exact Heap.tableMerge_eq_self (List.Subset.refl _)
  · rw [run_merging]
    dsimp only
    rw [Heap.tableMerge_eq_self (Heap.keys_tableMerge_subset hdestination (hkeys source))]

/-- A world with tables that hold each other and have some keys in common. The last one is a copy of
the second. -/
def overlapping : World where
  scopes := ⟨#[]⟩
  heap := ⟨#[], #[⟨[("b", .table 0), ("a", .table 1)]⟩, ⟨[("c", .table 1), ("a", .null)]⟩,
    ⟨[("d", .table 0), ("c", .boolean true), ("b", .null)]⟩, ⟨[("c", .table 1), ("a", .null)]⟩]⟩
  closures := 0
  events := #[]
  link := none
  replies := []

theorem nodup_keys_overlapping (id : TableId) : (overlapping.heap.table id).keys.Nodup := by
  match id with
  | 0 | 1 | 2 | 3 => decide +kernel
  | id + 4 =>
    have hempty : overlapping.heap.table (id + 4) = .empty := rfl
    rw [hempty]
    exact List.nodup_nil

theorem tableMerge_fills_overlapping :
    (∀ id, (overlapping.heap.table id).keys.Nodup) ∧ overlapping.heap.Has (.table 0) ∧
      (∃ heap, (merging ⟨3, 9, true, .default, .usual⟩ 0 1).run overlapping =
          (.ok .null, { overlapping with heap := heap }) ∧
        heap.table 0 = ⟨[("b", .table 0), ("a", .table 1), ("c", .table 1)]⟩) ∧
      (merging ⟨3, 9, true, .default, .usual⟩ 0 0).run overlapping = (.ok .null, overlapping) ∧
      ∃ w₁ w₂ : World, (do
          let _ ← merging ⟨3, 9, true, .default, .usual⟩ 0 1
          merging ⟨3, 9, true, .default, .usual⟩ 0 2).run overlapping = (.ok .null, w₁) ∧
        (do
          let _ ← merging ⟨3, 9, true, .default, .usual⟩ 3 2
          merging ⟨3, 9, true, .default, .usual⟩ 0 3).run overlapping = (.ok .null, w₂) ∧
        w₁.heap.table 0 = w₂.heap.table 0 ∧ (w₂.heap.table 0).keys = ["b", "a", "c", "d"] := by
  have hhas : overlapping.heap.Has (.table 0) := show 0 < 4 by decide
  obtain ⟨hmerging, hcopy⟩ :=
    @tableMerge_fills ⟨3, 9, true, .default, .usual⟩ overlapping 0 nodup_keys_overlapping hhas
  obtain ⟨heap, hrun, hentries, -⟩ := hmerging 1
  obtain ⟨same, hsame, -, -, heq, -⟩ := hmerging 0
  obtain ⟨w₁, w₂, hfirst, hsecond, htable⟩ := hcopy 1 2 3 (show 3 < 4 by decide) rfl (by decide)
  refine ⟨nodup_keys_overlapping, hhas, ⟨heap, hrun, ?_⟩, ?_, w₁, w₂, hfirst, hsecond, htable, ?_⟩
  · exact congrArg Dict.mk hentries
  · rw [hsame, heq rfl]
  · obtain rfl := congrArg Prod.snd hsecond
    decide +kernel

end StandardFunction

end HostScript
