import HostScript.Proofs.Depth.Agreement
import HostScript.Proofs.Json.Shapes
import HostScript.Value.Display
import HostScript.Value.Document

/-!
# Texts and documents under larger bounds

A bound on nesting decides whether a value has a display form and a document, and whether a text is
read as a document, but not which ones: with a larger bound they are the same
(`Value.display_of_le`, `Value.document_agrees`, `Json.read_agrees`).
-/

namespace HostScript

/-! ## Display forms -/

/-- A traversal that came through comes to the same if each step does. -/
theorem mapM_of_eq_some {α β : Type} {f g : α → Option β}
    (h : ∀ x y, f x = some y → g x = some y) {xs : List α} {ys : List β}
    (hf : xs.mapM f = some ys) : xs.mapM g = some ys := by
  induction xs generalizing ys with
  | nil => exact hf
  | cons x xs ih =>
    rw [List.mapM_cons] at hf ⊢
    obtain ⟨y, hy, hrest⟩ := Option.bind_eq_some_iff.mp hf
    obtain ⟨zs, hzs, hpure⟩ := Option.bind_eq_some_iff.mp hrest
    rw [h x y hy, Option.bind_eq_bind, Option.bind_some, ih hzs]
    exact hpure

namespace Value

variable {h : Heap} {depth depth' : Nat} {t : Text}

theorem displayIn_of_le (hle : depth ≤ depth') {active : List Composite} {v : Value}
    (ht : v.displayIn h depth active = some t) : v.displayIn h depth' active = some t := by
  induction depth generalizing depth' active v t with
  | zero => cases v <;> cases depth' <;> first | exact ht | exact nomatch ht
  | succ depth ih =>
    obtain ⟨more, rfl⟩ : ∃ more, depth' = more + 1 := ⟨depth' - 1, by omega⟩
    have hmore : depth ≤ more := Nat.le_of_succ_le_succ hle
    cases v with
    | array id =>
      rw [displayIn] at ht ⊢
      split at ht
      · next hcut => rwa [if_pos hcut]
      · next hcut =>
        obtain ⟨items, hitems, hpure⟩ := Option.bind_eq_some_iff.mp ht
        rw [if_neg hcut, mapM_of_eq_some (fun _ _ => ih hmore) hitems]
        exact hpure
    | table id =>
      rw [displayIn] at ht ⊢
      split at ht
      · next hcut => rwa [if_pos hcut]
      · next hcut =>
        obtain ⟨entries, hentries, hpure⟩ := Option.bind_eq_some_iff.mp ht
        have hentry : ∀ entry t,
            displayEntry (displayIn h depth (.table id :: active)) entry = some t →
            displayEntry (displayIn h more (.table id :: active)) entry = some t := by
          intro entry t hentry
          obtain ⟨value, hvalue, rfl⟩ := Option.map_eq_some_iff.mp hentry
          rw [displayEntry, ih hmore hvalue, Option.map_some]
        rw [if_neg hcut, mapM_of_eq_some hentry hentries]
        exact hpure
    | _ => exact ht

/-- With a larger bound a value has the same display form. -/
theorem display_of_le (hle : depth ≤ depth') {v : Value} (ht : v.display h depth = some t) :
    v.display h depth' = some t :=
  displayIn_of_le hle ht

/-! ## Documents -/

theorem documentIn_agrees (hle : depth ≤ depth') (active : List Composite) (v : Value) :
    AgreesUnless .tooDeep (v.documentIn h depth active) (v.documentIn h depth' active) := by
  induction depth generalizing depth' active v with
  | zero => cases v <;> cases depth' <;> first | exact .refl _ _ | exact .of_stop _
  | succ depth ih =>
    obtain ⟨more, rfl⟩ : ∃ more, depth' = more + 1 := ⟨depth' - 1, by omega⟩
    have hmore : depth ≤ more := Nat.le_of_succ_le_succ hle
    cases v with
    | array id =>
      rw [documentIn, documentIn]
      split
      · exact .refl _ _
      · exact (AgreesUnless.mapM (ih hmore _) _).bind fun _ => .refl _ _
    | table id =>
      rw [documentIn, documentIn]
      split
      · exact .refl _ _
      · exact (AgreesUnless.mapM (fun entry : Text × Value => (ih hmore _ entry.2).map _) _).bind
          fun _ => .refl _ _
    | _ => exact .refl _ _

/-- With a larger bound a value has the same document, unless the smaller one was reached. -/
theorem document_agrees (hle : depth ≤ depth') (h : Heap) (v : Value) :
    AgreesUnless .tooDeep (v.document h depth) (v.document h depth') :=
  documentIn_agrees hle [] v

end Value

/-! ## Reading documents -/

namespace Json

variable {value value' : Text → Except ReadHalt (Json × Text)}

theorem readItems_agrees (h : ∀ t, AgreesUnless .tooDeep (value t) (value' t)) (t : Text) :
    AgreesUnless .tooDeep (readItems value t) (readItems value' t) := by
  fun_induction readItems value t with
  | case1 t halt hr =>
    rcases (h t).eq_or with hstop | heq
    · obtain rfl := Except.error.inj (hr.symm.trans hstop)
      exact .of_stop _
    · rw [readItems.eq_def value', heq, hr]
      exact .refl _ _
  | case2 t item rest hr more hskip =>
    have heq : value' t = value t := h t (by simp [hr])
    rw [readItems.eq_def value', heq, hr]
    dsimp only
    rw [hskip]
    exact .refl _ _
  | case3 t item rest hr more hskip hlt ih =>
    have heq : value' t = value t := h t (by simp [hr])
    rw [readItems.eq_def value', heq, hr]
    dsimp only
    simp only [hskip, if_pos hlt]
    exact ih.bind fun _ => .refl _ _
  | case4 => exact .of_stop _
  | case5 t item rest hr hbracket hcomma =>
    have heq : value' t = value t := h t (by simp [hr])
    rw [readItems.eq_def value', heq, hr]
    dsimp only
    split
    · next hskip => exact absurd hskip (hbracket _)
    · next hskip => exact absurd hskip (hcomma _)
    · exact .refl _ _

theorem readMembers_agrees (h : ∀ t, AgreesUnless .tooDeep (value t) (value' t)) (t : Text) :
    AgreesUnless .tooDeep (readMembers value t) (readMembers value' t) := by
  fun_induction readMembers value t with
  | case1 name halt hr =>
    rw [readMembers.eq_def value']
    simp only [hr]
    exact .refl _ _
  | case2 name key rest hr more hskip halt hv =>
    rcases (h (skip more)).eq_or with hstop | heq
    · obtain rfl := Except.error.inj (hv.symm.trans hstop)
      exact .of_stop _
    · rw [readMembers.eq_def value']
      simp only [hr, hskip, heq, hv]
      exact .refl _ _
  | case3 name key rest hr more hskip member rest' hv last hlast =>
    have heq : value' (skip more) = value (skip more) := h _ (by simp [hv])
    rw [readMembers.eq_def value']
    simp only [hr, hskip, heq, hv, hlast]
    exact .refl _ _
  | case4 name key rest hr more hskip member rest' hv last hlast hlt ih =>
    have heq : value' (skip more) = value (skip more) := h _ (by simp [hv])
    rw [readMembers.eq_def value']
    simp only [hr, hskip, heq, hv, hlast, if_pos hlt]
    exact ih.bind fun _ => .refl _ _
  | case5 => exact .of_stop _
  | case6 name key rest hr more hskip member rest' hv hbrace hcomma =>
    have heq : value' (skip more) = value (skip more) := h _ (by simp [hv])
    rw [readMembers.eq_def value']
    simp only [hr, hskip, heq, hv]
    exact .refl _ _
  | case7 name key rest hr hcolon =>
    rw [readMembers.eq_def value']
    simp only [hr]
    exact .refl _ _
  | case8 t hquote =>
    rw [readMembers.eq_def value']
    split
    · exact absurd rfl (hquote _)
    · exact .refl _ _

theorem readArray_agrees (h : ∀ t, AgreesUnless .tooDeep (value t) (value' t)) (t : Text) :
    AgreesUnless .tooDeep (readArray value t) (readArray value' t) := by
  unfold readArray
  split
  · exact .refl _ _
  · exact (readItems_agrees h _).bind fun _ => .refl _ _

theorem readObject_agrees (h : ∀ t, AgreesUnless .tooDeep (value t) (value' t)) (t : Text) :
    AgreesUnless .tooDeep (readObject value t) (readObject value' t) := by
  unfold readObject
  split
  · exact .refl _ _
  · exact (readMembers_agrees h _).bind fun _ => .refl _ _

/-- A text opens a string, an array or an object, or is read as a word or a number at all depths. -/
theorem opening (t : Text) :
    (∃ rest, t = .scalar '"' :: rest) ∨ (∃ rest, t = .scalar '[' :: rest) ∨
      (∃ rest, t = .scalar '\x7b' :: rest) ∨
      ∀ dialect depth, readValue dialect depth t = readAtom dialect t := by
  by_cases hquote : ∃ rest, t = .scalar '"' :: rest
  · exact .inl hquote
  by_cases hbracket : ∃ rest, t = .scalar '[' :: rest
  · exact .inr (.inl hbracket)
  by_cases hbrace : ∃ rest, t = .scalar '\x7b' :: rest
  · exact .inr (.inr (.inl hbrace))
  refine .inr (.inr (.inr fun dialect depth => ?_))
  simp only [not_exists] at hquote hbracket hbrace
  unfold readValue
  split <;> simp_all

theorem readValue_agrees (dialect : Dialect) {depth depth' : Nat} (hle : depth ≤ depth')
    (t : Text) :
    AgreesUnless .tooDeep (readValue dialect depth t) (readValue dialect depth' t) := by
  rcases opening t with ⟨rest, rfl⟩ | ⟨rest, rfl⟩ | ⟨rest, rfl⟩ | hatom
  · rw [readValue, readValue]
    exact .refl _ _
  · cases depth with
    | zero => exact .of_stop _
    | succ depth =>
      obtain ⟨more, rfl⟩ : ∃ more, depth' = more + 1 := ⟨depth' - 1, by omega⟩
      have hmore : depth ≤ more := Nat.le_of_succ_le_succ hle
      exact readArray_agrees (readValue_agrees dialect hmore) rest
  · cases depth with
    | zero => exact .of_stop _
    | succ depth =>
      obtain ⟨more, rfl⟩ : ∃ more, depth' = more + 1 := ⟨depth' - 1, by omega⟩
      have hmore : depth ≤ more := Nat.le_of_succ_le_succ hle
      exact readObject_agrees (readValue_agrees dialect hmore) rest
  · rw [hatom, hatom]
    exact .refl _ _

/-- With a larger bound a text is read as the same document, or refused for the same reason, unless
the smaller one was reached. -/
theorem read_agrees (dialect : Dialect) {depth depth' : Nat} (hle : depth ≤ depth') (t : Text) :
    AgreesUnless .tooDeep (read dialect depth t) (read dialect depth' t) := by
  unfold read
  split
  · exact .refl _ _
  · exact (readValue_agrees dialect hle _).bind fun _ => .refl _ _

end Json

end HostScript
