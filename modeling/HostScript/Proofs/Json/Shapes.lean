import HostScript.Json.Read
import Mathlib.Data.List.Basic

/-!
# Shapes of documents

What scripts read of a text has only floating-point numbers, no two members of the same name in an
object, and no more levels than the bound of the reader (`shaped_of_read`). Putting null for the
numbers that are not finite changes nothing of that, and nothing if it is done again.
-/

namespace HostScript.Json

/-- A document as scripts have them, nested no deeper than a bound: all numbers are floating-point,
and no two members of an object have the same name. -/
inductive Shaped : ℕ → Json → Prop
  | null {n : ℕ} : Shaped n .null
  | boolean {n : ℕ} (b : Bool) : Shaped n (.boolean b)
  | number {n : ℕ} (x : Float) : Shaped n (.number x)
  | string {n : ℕ} (t : Text) : Shaped n (.string t)
  | array {n : ℕ} {items : List Json} (hitems : ∀ item ∈ items, Shaped n item) :
      Shaped (n + 1) (.array items)
  | object {n : ℕ} {members : List (Text × Json)} (hnames : (members.map (·.1)).Nodup)
      (hmembers : ∀ member ∈ members, Shaped n member.2) : Shaped (n + 1) (.object members)

/-! ## Numbers that are not finite -/

theorem finiteItems_eq_map (items : List Json) : finiteItems items = items.map finite := by
  induction items with
  | nil => rfl
  | cons item items ih => rw [finiteItems, ih, List.map_cons]

theorem finiteMembers_eq_map (members : List (Text × Json)) :
    finiteMembers members = members.map fun member => (member.1, member.2.finite) := by
  induction members with
  | nil => rfl
  | cons member members ih => rw [finiteMembers, ih, List.map_cons]

theorem Shaped.finite {n : ℕ} {document : Json} (hs : Shaped n document) :
    Shaped n document.finite := by
  induction hs with
  | null => exact .null
  | boolean b => exact .boolean b
  | number x =>
    rw [Json.finite]
    split
    · exact .number x
    · exact .null
  | string t => exact .string t
  | array hitems ih =>
    rw [Json.finite, finiteItems_eq_map]
    exact .array (List.forall_mem_map.mpr ih)
  | object hnames hmembers ih =>
    rw [Json.finite, finiteMembers_eq_map]
    refine .object ?_ (List.forall_mem_map.mpr ih)
    simpa [Function.comp_def] using hnames

theorem Shaped.finite_finite {n : ℕ} {document : Json} (hs : Shaped n document) :
    document.finite.finite = document.finite := by
  induction hs with
  | number x =>
    rw [Json.finite]
    split
    · next hx => rw [Json.finite, if_pos hx]
    · rfl
  | array hitems ih =>
    simp only [Json.finite, finiteItems_eq_map, List.map_map]
    exact congrArg Json.array (List.map_congr_left ih)
  | object hnames hmembers ih =>
    simp only [Json.finite, finiteMembers_eq_map, List.map_map]
    refine congrArg Json.object (List.map_congr_left fun member hmember => ?_)
    simp only [Function.comp_def, ih member hmember]
  | _ => rfl

/-! ## What is read -/

variable {t rest : Text} {n : ℕ} {document : Json}

theorem bind_eq_ok {α β : Type} {x : Except ReadHalt α} {f : α → Except ReadHalt β} {b : β}
    (h : (x >>= f) = .ok b) : ∃ a, x = .ok a ∧ f a = .ok b := by
  cases x with
  | error halt => exact nomatch h
  | ok a => exact ⟨a, rfl, h⟩

section Shapes

variable {value : Text → Except ReadHalt (Json × Text)} {p : Json → Prop}

theorem forall_mem_of_readItems (hvalue : ∀ t item rest, value t = .ok (item, rest) → p item)
    {items : List Json} (h : readItems value t = .ok (items, rest)) : ∀ item ∈ items, p item := by
  fun_induction readItems value t generalizing items rest with
  | case1 => exact nomatch h
  | case2 t item behind hitem more hskip =>
    obtain ⟨rfl, -⟩ := Prod.mk.inj (Except.ok.inj h)
    exact List.forall_mem_singleton.mpr (hvalue t item behind hitem)
  | case3 t item behind hitem more hskip hlength ih =>
    obtain ⟨⟨others, after⟩, hothers, hpure⟩ := bind_eq_ok h
    obtain ⟨rfl, -⟩ := Prod.mk.inj (Except.ok.inj hpure)
    exact List.forall_mem_cons.mpr ⟨hvalue t item behind hitem, ih hothers⟩
  | case4 => exact nomatch h
  | case5 => exact nomatch h

theorem forall_mem_of_readMembers (hvalue : ∀ t item rest, value t = .ok (item, rest) → p item)
    {members : List (Text × Json)} (h : readMembers value t = .ok (members, rest)) :
    ∀ member ∈ members, p member.2 := by
  fun_induction readMembers value t generalizing members rest with
  | case3 name key afterKey hkey afterColon hcolon item behind hitem more hskip =>
    obtain ⟨rfl, -⟩ := Prod.mk.inj (Except.ok.inj h)
    exact List.forall_mem_singleton.mpr (hvalue _ item behind hitem)
  | case4 name key afterKey hkey afterColon hcolon item behind hitem more hskip hlength ih =>
    obtain ⟨⟨others, after⟩, hothers, hpure⟩ := bind_eq_ok h
    obtain ⟨rfl, -⟩ := Prod.mk.inj (Except.ok.inj hpure)
    exact List.forall_mem_cons.mpr ⟨hvalue _ item behind hitem, ih hothers⟩
  | _ => exact nomatch h

end Shapes

theorem shaped_of_mem_words {entry : String × Json} (h : entry ∈ words) : Shaped n entry.2 := by
  simp only [words, List.mem_cons, List.not_mem_nil, or_false] at h
  rcases h with rfl | rfl | rfl
  · exact .null
  · exact .boolean true
  · exact .boolean false

theorem exists_of_word? {α : Type} {table : List (String × α)} {word : String} {value : α}
    (h : word? table t = some (word, value, rest)) : ∃ entry ∈ table, entry.2 = value := by
  obtain ⟨entry, hentry, hfound⟩ := List.exists_of_findSome?_eq_some h
  refine ⟨entry, hentry, ?_⟩
  dsimp only at hfound
  split at hfound
  · simp only [Option.some.injEq, Prod.mk.injEq] at hfound
    exact hfound.2.1
  · exact nomatch hfound

theorem shaped_of_readAtom (h : readAtom .script t = .ok (document, rest)) :
    Shaped n document := by
  unfold readAtom at h
  split at h
  · next word value behind hword =>
    obtain ⟨rfl, -⟩ := Prod.mk.inj (Except.ok.inj h)
    obtain ⟨entry, hentry, rfl⟩ := exists_of_word? hword
    exact shaped_of_mem_words hentry
  · split at h
    · exact nomatch h
    · -- a numeral is a number here even if it could be an integer
      unfold readNumber at h
      split at h
      · exact nomatch h
      · obtain ⟨number, hnumber, hpure⟩ := bind_eq_ok h
        obtain ⟨rfl, -⟩ := Prod.mk.inj (Except.ok.inj hpure)
        obtain rfl := Except.ok.inj hnumber
        exact .number _

theorem shaped_of_readArray {value : Text → Except ReadHalt (Json × Text)}
    (hvalue : ∀ t item rest, value t = .ok (item, rest) → Shaped n item)
    (h : readArray value t = .ok (document, rest)) : Shaped (n + 1) document := by
  unfold readArray at h
  split at h
  · obtain ⟨rfl, -⟩ := Prod.mk.inj (Except.ok.inj h)
    exact .array (List.forall_mem_nil _)
  · obtain ⟨⟨items, after⟩, hitems, hpure⟩ := bind_eq_ok h
    obtain ⟨rfl, -⟩ := Prod.mk.inj (Except.ok.inj hpure)
    exact .array (forall_mem_of_readItems hvalue hitems)

theorem shaped_of_readObject {value : Text → Except ReadHalt (Json × Text)}
    (hvalue : ∀ t item rest, value t = .ok (item, rest) → Shaped n item)
    (h : readObject value t = .ok (document, rest)) : Shaped (n + 1) document := by
  unfold readObject at h
  split at h
  · obtain ⟨rfl, -⟩ := Prod.mk.inj (Except.ok.inj h)
    exact .object List.nodup_nil (List.forall_mem_nil _)
  · obtain ⟨⟨members, after⟩, hmembers, hpure⟩ := bind_eq_ok h
    obtain ⟨rfl, -⟩ := Prod.mk.inj (Except.ok.inj hpure)
    exact .object (Dict.nodup_keys_ofList members) fun member hmember =>
      forall_mem_of_readMembers hvalue hmembers member (Dict.mem_ofList hmember)

/-- What is read of a text is nested no deeper than the bound. -/
theorem shaped_of_readValue (h : readValue .script n t = .ok (document, rest)) :
    Shaped n document := by
  induction n using Nat.strongRecOn generalizing t document rest with
  | ind n ih =>
    unfold readValue at h
    split at h
    · obtain ⟨⟨text, after⟩, -, hpure⟩ := bind_eq_ok h
      obtain ⟨rfl, -⟩ := Prod.mk.inj (Except.ok.inj hpure)
      exact .string text
    · exact nomatch h
    · exact nomatch h
    · exact shaped_of_readArray (fun _ _ _ hread => ih _ (Nat.lt_succ_self _) hread) h
    · exact shaped_of_readObject (fun _ _ _ hread => ih _ (Nat.lt_succ_self _) hread) h
    · exact shaped_of_readAtom h

theorem shaped_of_read (h : read .script n t = .ok document) : Shaped n document := by
  unfold read at h
  split at h
  · exact nomatch h
  · obtain ⟨⟨found, behind⟩, hread, hrest⟩ := bind_eq_ok h
    dsimp only at hrest
    split at hrest
    · obtain rfl := Except.ok.inj hrest
      exact shaped_of_readValue hread
    · exact nomatch hrest

end HostScript.Json
