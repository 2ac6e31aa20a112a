import HostScript.Http.Charset
import HostScript.Proofs.Run.Steps
import HostScript.Proofs.Value.Depictions

/-!
# Values as texts

`toJson` writes a value as a text from which `fromJson` makes a value that is like the first one
through and through, but for numbers that are not finite (`fromJson_toJson`). Writing what was read
from any document gives a text that is written again for what is read from it.
-/

namespace HostScript.StandardFunction

open Run

variable {setup : Setup} {w w' : World} {v : Value} {d : Json} {t : Text} {n : ℕ}

/-- The text of a value that unfolds to a tree. -/
theorem run_toJson_of_tree? (ht : v.tree? w.heap setup.depth = some d) :
    (toJson.call setup [v]).run w = (.ok (.string (d.finite.write .plain)), w) := by
  have hdocument : v.document w.heap setup.depth = .ok d :=
    Value.documentIn_eq_ok ht le_rfl fun _ hc => absurd hc List.not_mem_nil
  change (writeJson setup v).run w = _
  rw [writeJson, run_bind, run_heap]
  simp only [hdocument, run_pure]

/-- Reading a text loads the document that it writes. -/
theorem run_fromJson_of_read (hread : Json.read .script setup.depth t = .ok d) (w : World) :
    (fromJson.call setup [.string t]).run w =
      (.ok (w.heap.load d).1, { w with heap := (w.heap.load d).2 }) := by
  change (readJson setup t).run w = _
  simp only [readJson, hread, run_onHeap]

theorem exists_read_of_run_fromJson (hrun : (fromJson.call setup [.string t]).run w = (.ok v, w'))
    (hv : ∀ message, v ≠ .error message) : ∃ d, Json.read .script setup.depth t = .ok d := by
  change (readJson setup t).run w = _ at hrun
  unfold readJson at hrun
  split at hrun
  · next d hread => exact ⟨d, hread⟩
  · obtain ⟨hmessage, -⟩ := Prod.mk.inj hrun
    exact absurd (Except.ok.inj hmessage).symm (hv _)
  · unfold nestedTooDeeply at hrun
    split at hrun
    · obtain ⟨hmessage, -⟩ := Prod.mk.inj hrun
      exact absurd (Except.ok.inj hmessage).symm (hv _)
    · exact nomatch (Prod.mk.inj hrun).1

/-- The text of a document is read as a value that unfolds to the document, but for numbers that
are not finite. -/
theorem exists_run_fromJson_write (hs : d.Shaped setup.depth) (w : World) :
    ∃ v h, (fromJson.call setup [.string (d.finite.write .plain)]).run w =
      (.ok v, { w with heap := h }) ∧ w.heap.Grows h ∧ v.tree? h setup.depth = some d.finite := by
  obtain ⟨hgrows, htree⟩ := Heap.loads hs.finite w.heap
  exact ⟨_, _, run_fromJson_of_read (Json.read_write hs) w, hgrows, htree _ (.refl _)⟩

/-- Data that is not nested too deeply has a text, from which anyone makes a copy of it. Whatever is
made of some text has itself a text, which comes back whenever it is read and written again. -/
theorem fromJson_toJson (setup : Setup) :
    (∀ (w : World) (v : Value) (n : ℕ), w.heap.Data n v → n ≤ setup.depth →
      ∃ t, (toJson.call setup [v]).run w = (.ok (.string t), w) ∧
        ∀ w' : World, ∃ v' h', (fromJson.call setup [.string t]).run w' =
          (.ok v', { w' with heap := h' }) ∧ w'.heap.Grows h' ∧ w.heap.Copies h' v v') ∧
    ∀ (w w₁ : World) (t : Text) (v : Value),
      (fromJson.call setup [.string t]).run w = (.ok v, w₁) → (∀ message, v ≠ .error message) →
      ∃ u, (toJson.call setup [v]).run w₁ = (.ok (.string u), w₁) ∧
        ∀ w₂ : World, ∃ v' w₃, (fromJson.call setup [.string u]).run w₂ = (.ok v', w₃) ∧
          (toJson.call setup [v']).run w₃ = (.ok (.string u), w₃) := by
  constructor
  · intro w v n hd hn
    obtain ⟨d, htree, hs⟩ := (hd.mono hn).exists_tree
    refine ⟨_, run_toJson_of_tree? htree, fun w' => ?_⟩
    obtain ⟨v', h', hrun, hgrows, htree'⟩ := exists_run_fromJson_write hs w'
    exact ⟨v', h', hrun, hgrows, Value.copies_of_tree? htree htree'⟩
  · intro w w₁ t v hrun hv
    obtain ⟨d, hread⟩ := exists_read_of_run_fromJson hrun hv
    have hs := Json.shaped_of_read hread
    obtain ⟨hvalue, hworld⟩ := Prod.mk.inj ((run_fromJson_of_read hread w).symm.trans hrun)
    obtain rfl := Except.ok.inj hvalue
    subst hworld
    refine ⟨_, run_toJson_of_tree? ((Heap.loads hs w.heap).2 _ (.refl _)), fun w₂ => ?_⟩
    obtain ⟨v', h', hrun', -, htree'⟩ := exists_run_fromJson_write hs w₂
    refine ⟨v', _, hrun', ?_⟩
    have htext := run_toJson_of_tree? (w := { w₂ with heap := h' }) htree'
    rwa [hs.finite_finite] at htext

/-- A world with an array that holds another one twice, beside a table. There are numbers that are
not finite, a zero with a sign, and two surrogates that would make a pair. -/
def sharing : World where
  scopes := ⟨#[]⟩
  heap := ⟨#[#[.number (-0.0), .number Number.nan, .string [.surrogate 0x3d, .surrogate 0x600]],
      #[.array 0, .table 0, .array 0]],
    #[⟨[("b", .array 0), ("a", .number (-Number.infinity))]⟩]⟩
  closures := 0
  events := #[]
  link := none
  replies := []

/-- A text with blanks, and with a member that is given twice. -/
def roundabout : Text := "[ null , \x7b\"b\": \"x\", \"a\": false, \"b\": true\x7d ]"

theorem data_sharing : sharing.heap.Data 3 (.array 1) := by
  have hinner : sharing.heap.Data 1 (.array 0) := by
    refine .array fun v hv => ?_
    have hv : v ∈ [Value.number (-0.0), .number Number.nan,
      .string [.surrogate 0x3d, .surrogate 0x600]] := hv
    simp only [List.mem_cons, List.not_mem_nil, or_false] at hv
    rcases hv with rfl | rfl | rfl
    · exact .number _
    · exact .number _
    · exact .string _
  have htable : sharing.heap.Data 2 (.table 0) := by
    refine .table (by decide) fun entry hentry => ?_
    have hentry : entry ∈ [((.ofString "b" : Text), Value.array 0),
      (.ofString "a", .number (-Number.infinity))] := hentry
    simp only [List.mem_cons, List.not_mem_nil, or_false] at hentry
    rcases hentry with rfl | rfl
    · exact hinner
    · exact .number _
  refine .array fun v hv => ?_
  have hv : v ∈ [Value.array 0, .table 0, .array 0] := hv
  simp only [List.mem_cons, List.not_mem_nil, or_false] at hv
  rcases hv with rfl | rfl | rfl
  · exact hinner.mono (by decide)
  · exact htable
  · exact hinner.mono (by decide)

theorem read_roundabout : Json.read .script 9 roundabout =
    .ok (.array [.null, .object [("b", .boolean true), ("a", .boolean false)]]) := by
  cbv

theorem fromJson_toJson_sharing :
    (∃ t, (toJson.call ⟨9, 9, true, .default, .usual⟩ [.array 1]).run sharing =
        (.ok (.string t), sharing) ∧
      ∃ v h, (fromJson.call ⟨9, 9, true, .default, .usual⟩ [.string t]).run sharing =
        (.ok v, { sharing with heap := h }) ∧ sharing.heap.Copies h (.array 1) v) ∧
    ∃ v w u, (fromJson.call ⟨9, 9, true, .default, .usual⟩ [.string roundabout]).run sharing =
        (.ok v, w) ∧
      (toJson.call ⟨9, 9, true, .default, .usual⟩ [v]).run w = (.ok (.string u), w) ∧
      ∃ v' w', (fromJson.call ⟨9, 9, true, .default, .usual⟩ [.string u]).run sharing =
          (.ok v', w') ∧
        (toJson.call ⟨9, 9, true, .default, .usual⟩ [v']).run w' = (.ok (.string u), w') := by
  obtain ⟨hcopy, hback⟩ := fromJson_toJson ⟨9, 9, true, .default, .usual⟩
  constructor
  · obtain ⟨t, hwrite, hread⟩ := hcopy sharing (.array 1) 3 data_sharing (by decide)
    obtain ⟨v, h, hrun, -, hcopies⟩ := hread sharing
    exact ⟨t, hwrite, v, h, hrun, hcopies⟩
  · have hrun : (fromJson.call ⟨9, 9, true, .default, .usual⟩ [.string roundabout]).run
        sharing = _ := run_fromJson_of_read read_roundabout sharing
    obtain ⟨u, hwrite, hread⟩ := hback _ _ _ _ hrun fun _ h => nomatch h
    exact ⟨_, _, u, hrun, hwrite, hread sharing⟩

end HostScript.StandardFunction
