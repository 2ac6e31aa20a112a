import HostScript.Http.Charset
import HostScript.Proofs.Run.Returning
import HostScript.Proofs.Run.Steps
import HostScript.Proofs.Value.Unfolding

/-!
# Values inside themselves

A value refers to itself if a composite can be reached from it that holds itself, directly or
through others. Its tree has a reference that is cut in this case, and in no other
(`Value.isCut_unfold_iff`). `StandardFunction.toJson_refuses` says that this is exactly where
`toJson` answers with an error, and that it writes out the whole tree of every other value.
-/

namespace HostScript

/-! ## Trees with and without cut references -/

/-- Somewhere in a tree there is a reference that is cut. -/
inductive Unfolding.IsCut : Unfolding → Prop
  | here {c : Composite} {parts : List Unfolding} : IsCut (.node (.cut c) parts)
  | inside {root : Node} {parts : List Unfolding} {part : Unfolding} :
      part ∈ parts → IsCut part → IsCut (.node root parts)

/-- The document of a node over the documents of its parts. Nothing stands for a reference that is
cut. -/
def Node.document : Node → List Json → Json
  | atom v, _ => v.documentOfAtom
  | cut _, _ => .null
  | array, documents => .array documents
  | table keys, documents => .object (keys.zip documents)

/-- The document that a tree writes out. -/
def Unfolding.document : Unfolding → Json
  | node root parts => root.document (parts.map document)

/-- A composite holds itself, directly or through others. -/
def Heap.Cyclic (h : Heap) (c : Composite) : Prop := Relation.TransGen h.Holds c c

namespace Value

variable {h : Heap} {above : List Composite} {v : Value} {c : Composite}

theorem not_isCut_atom (v : Value) : ¬ (Unfolding.node (.atom v) []).IsCut := by
  rintro (_ | ⟨hpart, _⟩)
  exact List.not_mem_nil hpart

/-- A composite that is written out has a reference that is cut in one of its members. -/
theorem isCut_whole : (Unfolding.node (h.whole c) ((h.members c).map (unfold h above))).IsCut ↔
    ∃ u ∈ h.members c, (u.unfold h above).IsCut := by
  constructor
  · intro hcut
    generalize hroot : h.whole c = root at hcut
    cases hcut with
    | here => cases c <;> contradiction
    | inside hpart hcut =>
      obtain ⟨u, hu, rfl⟩ := List.mem_map.mp hpart
      exact ⟨u, hu, hcut⟩
  · rintro ⟨u, hu, hcut⟩
    exact .inside (List.mem_map_of_mem hu) hcut

/-! ## Cut references and cycles -/

/-- A reference that is cut refers to a composite above the value, or closes a cycle below it. -/
theorem exists_of_isCut_unfold (hcut : (v.unfold h above).IsCut) :
    (∃ c, h.Reaches v c ∧ h.Cyclic c) ∨ ∃ c ∈ above, h.Reaches v c := by
  induction above, v using unfold.induct (h := h) with
  | case1 above v ih =>
    cases hv : v.composite? with
    | none =>
      rw [unfold_atom hv] at hcut
      exact absurd hcut (not_isCut_atom v)
    | some c =>
      by_cases hc : c ∈ above
      · exact .inr ⟨c, hc, c, hv, .refl⟩
      · rw [unfold_whole hv hc] at hcut
        obtain ⟨u, hu, hcut⟩ := isCut_whole.mp hcut
        have hbelow {d : Composite} (hd : h.Reaches u d) : Relation.TransGen h.Holds c d := by
          obtain ⟨b, hb, hbd⟩ := hd
          exact .head' ⟨u, hu, hb⟩ hbd
        rcases ih c hc ⟨u, hu⟩ hcut with ⟨d, hd, hcycle⟩ | ⟨d, hd, hud⟩
        · exact .inl ⟨d, ⟨c, hv, (hbelow hd).to_reflTransGen⟩, hcycle⟩
        · rcases List.mem_cons.mp hd with rfl | hd
          · exact .inl ⟨d, ⟨d, hv, .refl⟩, hbelow hud⟩
          · exact .inr ⟨d, hd, c, hv, (hbelow hud).to_reflTransGen⟩

/-- From a composite whose tree is not cut all ways through members end. -/
theorem acc_of_not_isCut (hv : v.composite? = some c) (hcut : ¬ (v.unfold h above).IsCut) :
    Acc (fun d b => h.Holds b d) c := by
  induction above, v using unfold.induct (h := h) generalizing c with
  | case1 above v ih =>
    by_cases hc : c ∈ above
    · rw [unfold_cut hv hc] at hcut
      exact absurd .here hcut
    · rw [unfold_whole hv hc, isCut_whole, not_exists] at hcut
      refine .intro c fun d ⟨u, hu, hd⟩ => ?_
      exact ih c hc ⟨u, hu⟩ hd fun hpart => hcut u ⟨hu, hpart⟩

theorem acc_of_reaches {b : Composite} (hb : Acc (fun d b => h.Holds b d) b)
    (hbc : Relation.ReflTransGen h.Holds b c) : Acc (fun d b => h.Holds b d) c := by
  induction hbc with
  | refl => exact hb
  | tail _ hcd ih => exact ih.inv hcd

theorem not_cyclic_of_acc (hc : Acc (fun d b => h.Holds b d) c) : ¬ h.Cyclic c := by
  intro hcycle
  have hswap : Relation.TransGen (fun d b => h.Holds b d) c c := Relation.transGen_swap.mpr hcycle
  have hacc := hc.transGen
  clear hc hcycle
  induction hacc with
  | intro c _ ih => exact ih c hswap hswap

/-- The tree of a value has a reference that is cut if, and only if, a composite can be reached that
holds itself. -/
theorem isCut_unfold_iff :
    (v.unfold h []).IsCut ↔ ∃ c, h.Reaches v c ∧ h.Cyclic c := by
  constructor
  · intro hcut
    rcases exists_of_isCut_unfold hcut with hcycle | ⟨c, hc, -⟩
    · exact hcycle
    · exact absurd hc List.not_mem_nil
  · rintro ⟨c, ⟨b, hb, hbc⟩, hcycle⟩
    by_contra hcut
    exact not_cyclic_of_acc (acc_of_reaches (acc_of_not_isCut hb hcut) hbc) hcycle

/-! ## The document of the tree -/

theorem mapM_documentEntry (document : Value → Except DocumentFault Json)
    (entries : List (Text × Value)) :
    entries.mapM (documentEntry document) =
      ((entries.map (·.2)).mapM document).map (entries.map (·.1)).zip := by
  induction entries with
  | nil => rfl
  | cons entry entries ih =>
    simp only [List.mapM_cons, List.map_cons, ih, documentEntry]
    cases document entry.2 with
    | error fault => rfl
    | ok d => cases (entries.map (·.2)).mapM document <;> rfl

/-- The document of a composite that is written out, over those of its members. -/
theorem documentIn_whole (hv : v.composite? = some c) (hc : c ∉ above) (depth : ℕ) :
    v.documentIn h (depth + 1) above =
      ((h.members c).mapM (documentIn h depth (c :: above))).map (h.whole c).document := by
  cases v with
  | array id =>
    obtain rfl := Option.some.inj hv
    simp only [documentIn, List.contains_iff_mem, hc, if_false, Heap.members]
    cases (h.array id).toList.mapM (documentIn h depth (.array id :: above)) <;> rfl
  | table id =>
    obtain rfl := Option.some.inj hv
    simp only [documentIn, List.contains_iff_mem, hc, if_false, Heap.members, mapM_documentEntry]
    cases ((h.table id).entries.map (·.2)).mapM (documentIn h depth (.table id :: above)) <;> rfl
  | _ => simp [composite?] at hv

theorem documentIn_cut (hv : v.composite? = some c) (hc : c ∈ above) (depth : ℕ) :
    v.documentIn h (depth + 1) above = .error .selfReference := by
  cases v with
  | array id =>
    obtain rfl := Option.some.inj hv
    simp [documentIn, hc]
  | table id =>
    obtain rfl := Option.some.inj hv
    simp [documentIn, hc]
  | _ => simp [composite?] at hv

theorem documentIn_atom (hv : v.composite? = none) (depth : ℕ) :
    v.documentIn h depth above = .ok v.documentOfAtom := by
  cases v with
  | array id | table id => simp [composite?] at hv
  | _ => cases depth <;> rfl

open scoped Classical in
theorem documentIn_eq_of_atom (hv : v.composite? = none) (depth : ℕ) :
    v.documentIn h depth above = if (v.unfold h above).IsCut then .error .selfReference
      else .ok (v.unfold h above).document := by
  rw [documentIn_atom hv, unfold_atom hv, if_neg (not_isCut_atom v), Unfolding.document]
  rfl

/-- A traversal of which each step fails in the same way or comes through fails if one step does. -/
theorem mapM_except_ite {ε α β : Type} {e : ε} {p : α → Prop} [DecidablePred p] {f : α → β}
    {step : α → Except ε β} {xs : List α}
    (h : ∀ x ∈ xs, step x = if p x then .error e else .ok (f x)) :
    xs.mapM step = if ∃ x ∈ xs, p x then .error e else .ok (xs.map f) := by
  induction xs with
  | nil => simp [pure, Except.pure]
  | cons x xs ih =>
    obtain ⟨hx, hxs⟩ := List.forall_mem_cons.mp h
    rw [List.mapM_cons, hx, ih hxs]
    simp only [List.exists_mem_cons_iff]
    by_cases hp : p x
    · simp only [hp, true_or, if_true]
      rfl
    · simp only [hp, false_or, if_false]
      split <;> rfl

open scoped Classical in
/-- A value whose tree has no more levels than the bound has a document, which writes the tree out,
unless a reference is cut in it. -/
theorem documentIn_eq {depth : ℕ} (hlevels : (v.unfold h above).levels ≤ depth) :
    v.documentIn h depth above = if (v.unfold h above).IsCut then .error .selfReference
      else .ok (v.unfold h above).document := by
  induction depth generalizing above v with
  | zero =>
    cases hv : v.composite? with
    | none => exact documentIn_eq_of_atom hv 0
    | some c => exact absurd (levels_unfold_pos hv) (Nat.not_lt_of_le hlevels)
  | succ depth ih =>
    cases hv : v.composite? with
    | none => exact documentIn_eq_of_atom hv (depth + 1)
    | some c =>
      by_cases hc : c ∈ above
      · rw [documentIn_cut hv hc, unfold_cut hv hc, if_pos .here]
      · rw [unfold_whole hv hc] at hlevels ⊢
        rw [Unfolding.levels_le_iff (ownLevels_whole c), List.forall_mem_map] at hlevels
        rw [documentIn_whole hv hc, mapM_except_ite fun u hu => ih (hlevels u hu)]
        simp only [isCut_whole, Unfolding.document, List.map_map]
        split <;> rfl

/-- The tree of a value that is not nested too deeply has no more levels than the bound. -/
theorem levels_le_of_not_exceeds {depth : ℕ} (hdeep : ¬ h.Exceeds depth v) :
    (v.unfold h []).levels ≤ depth := by
  by_contra hlevels
  exact hdeep (display_eq_none_iff.mp ((display_eq _).trans (if_neg hlevels)))

end Value

namespace StandardFunction

open Run

variable {setup : Setup} {w : World} {v : Value}

/-- What `toJson` comes to where a value refers to itself. -/
def selfReferenceError : Value := .error "toJson: cannot serialize a self-referencing value"

theorem run_toJson (setup : Setup) (w : World) (v : Value) :
    (toJson.call setup [v]).run w = match v.document w.heap setup.depth with
      | .ok d => (.ok (.string (d.finite.write .plain)), w)
      | .error .selfReference => (.ok selfReferenceError, w)
      | .error .tooDeep => (nestedTooDeeply setup "toJson: value is nested too deeply").run w := by
  change (writeJson setup v).run w = _
  rw [writeJson, run_bind, run_heap]
  dsimp only
  split <;> simp_all [selfReferenceError]

/-- A value that is not nested too deeply is refused by `toJson` if a composite can be reached from
it that holds itself; if not, its tree is written out in full. It is refused exactly where its
display form has a reference that is cut. -/
theorem toJson_refuses (hdeep : ¬ w.heap.Exceeds setup.depth v) :
    ∃ t : Unfolding, w.heap.UnfoldsTo v t ∧ v.display w.heap setup.depth = some t.text ∧
      ((toJson.call setup [v]).run w = (.ok selfReferenceError, w) ↔
        ∃ c, w.heap.Reaches v c ∧ w.heap.Cyclic c) ∧
      ((toJson.call setup [v]).run w ≠ (.ok selfReferenceError, w) →
        (toJson.call setup [v]).run w = (.ok (.string (t.document.finite.write .plain)), w)) ∧
      (t.IsCut ↔ (toJson.call setup [v]).run w = (.ok selfReferenceError, w)) := by
  have hlevels := Value.levels_le_of_not_exceeds hdeep
  have hdocument := Value.documentIn_eq hlevels
  have hrefused : (toJson.call setup [v]).run w = (.ok selfReferenceError, w) ↔
      (v.unfold w.heap []).IsCut := by
    rw [run_toJson, Value.document, hdocument]
    by_cases hcut : (v.unfold w.heap []).IsCut
    · simp only [hcut, if_true]
    · simp only [hcut, if_false, iff_false]
      nofun
  refine ⟨v.unfold w.heap [], Value.unfoldsTo_iff.mpr rfl,
    (Value.display_eq _).trans (if_pos hlevels), hrefused.trans Value.isCut_unfold_iff, ?_,
    hrefused.symm⟩
  intro hne
  rw [run_toJson, Value.document, hdocument, if_neg (mt hrefused.mpr hne)]

/-- A world with an array that holds a table twice, which holds another array. Two more arrays hold
each other, and one of them the first one. -/
def knotted : World where
  scopes := ⟨#[]⟩
  heap := ⟨#[#[.table 0, .table 0], #[.boolean true], #[.array 0, .array 3], #[.array 2]],
    #[⟨[("a", .array 1)]⟩]⟩
  closures := 0
  events := #[]
  link := none
  replies := []

theorem display_knotted :
    (Value.array 0).display knotted.heap 3 =
      some "[\x7ba: [true]\x7d, \x7ba: [true]\x7d]" ∧
    (Value.array 2).display knotted.heap 4 =
      some "[[\x7ba: [true]\x7d, \x7ba: [true]\x7d], [[...]]]" :=
  ⟨by cbv, by cbv⟩

theorem document_knotted :
    (Value.array 0).document knotted.heap 3 = .ok (.array
      [.object [("a", .array [.boolean true])], .object [("a", .array [.boolean true])]]) := by cbv

theorem toJson_refuses_knotted :
    (¬ knotted.heap.Exceeds 3 (.array 0) ∧
      (∃ t : Unfolding, knotted.heap.UnfoldsTo (.array 0) t ∧ ¬ t.IsCut) ∧
      (toJson.call ⟨3, 9, true, .default, .usual⟩ [.array 0]).run knotted =
        (.ok (.string "[\x7b\"a\": [true]\x7d, \x7b\"a\": [true]\x7d]"), knotted)) ∧
    ¬ knotted.heap.Exceeds 4 (.array 2) ∧
      (∃ t : Unfolding, knotted.heap.UnfoldsTo (.array 2) t ∧ t.IsCut) ∧
      (toJson.call ⟨4, 9, true, .default, .usual⟩ [.array 2]).run knotted =
        (.ok selfReferenceError, knotted) := by
  have hshared : ¬ knotted.heap.Exceeds 3 (.array 0) := by
    intro hdeep
    exact nomatch display_knotted.1.symm.trans (Value.display_eq_none_iff.mpr hdeep)
  have hcyclic : ¬ knotted.heap.Exceeds 4 (.array 2) := by
    intro hdeep
    exact nomatch display_knotted.2.symm.trans (Value.display_eq_none_iff.mpr hdeep)
  have hcycle : knotted.heap.Cyclic (.array 2) :=
    .tail (.single ⟨.array 3, .tail _ (.head _), rfl⟩) ⟨.array 2, .head _, rfl⟩
  obtain ⟨t, ht, -, -, -, hcut⟩ :=
    @toJson_refuses ⟨3, 9, true, .default, .usual⟩ knotted (.array 0) hshared
  obtain ⟨u, hu, -, hrefused, -, hcut'⟩ :=
    @toJson_refuses ⟨4, 9, true, .default, .usual⟩ knotted (.array 2) hcyclic
  have hrun := hrefused.mpr ⟨.array 2, ⟨.array 2, rfl, .refl⟩, hcycle⟩
  have hwritten : (toJson.call ⟨3, 9, true, .default, .usual⟩ [.array 0]).run knotted =
      (.ok (.string "[\x7b\"a\": [true]\x7d, \x7b\"a\": [true]\x7d]"), knotted) := by
    rw [run_toJson, document_knotted]
    rfl
  refine ⟨⟨hshared, ⟨t, ht, fun ht => ?_⟩, hwritten⟩, hcyclic, ⟨u, hu, hcut'.mpr hrun⟩, hrun⟩
  exact nomatch hwritten.symm.trans (hcut.mp ht)

end StandardFunction

end HostScript
