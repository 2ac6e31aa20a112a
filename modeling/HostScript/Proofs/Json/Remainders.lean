import HostScript.Proofs.Depth.Documents
import HostScript.Proofs.Json.Wire
import Mathlib.Data.List.TakeWhile

/-!
# What is left to read

A reader takes something of the text that it is given, or finds a fault in it (`Advances`). Each
level of a document takes a bracket of the text, so the bound on nesting is not reached by a text
that has no more code points (`read_ne_tooDeep`). What a text is read as does not depend on the
bound (`IsReadFrom`).
-/

namespace HostScript.Json

variable {α β : Type} {m n depth : ℕ} {t rest : Text}

/-! ## Progress -/

/-- What a reader makes of a text with `n` code points: it leaves fewer, or it finds a fault. -/
def Advances (n : ℕ) : Except ReadHalt (α × Text) → Prop
  | .ok (_, rest) => rest.length < n
  | .error halt => halt ≠ .tooDeep

namespace Advances

variable {r : Except ReadHalt (α × Text)}

theorem faultAt (cause : ReadCause) (rest : Text) :
    Advances n (faultAt cause rest : Except ReadHalt (α × Text)) :=
  nofun

theorem lt {a : α} (h : Advances n r) (hr : r = .ok (a, rest)) : rest.length < n := by
  rw [hr] at h
  exact h

theorem ne {halt : ReadHalt} (h : Advances n r) (hr : r = .error halt) : halt ≠ .tooDeep := by
  rw [hr] at h
  exact h

theorem mono (h : Advances m r) (hle : m ≤ n) : Advances n r := by
  cases r with
  | ok result => exact Nat.lt_of_lt_of_le h hle
  | error halt => exact h

theorem bind (h : Advances m r) {f : α × Text → Except ReadHalt (β × Text)}
    (hf : ∀ a rest, rest.length < m → Advances n (f (a, rest))) : Advances n (r >>= f) := by
  cases r with
  | ok result => exact hf result.1 result.2 h
  | error halt => exact h

/-- A reader that only works on what another one has read. -/
theorem map (h : Advances n r) (f : α → β) :
    Advances n (r >>= fun result => pure (f result.1, result.2)) :=
  h.bind fun _ _ hlt => hlt

end Advances

theorem length_skip_le (t : Text) : (skip t).length ≤ t.length := List.length_dropWhile_le isBlank t

/-- What follows the code point behind the blanks at the head of a text. -/
theorem length_lt_of_skip {c : CodePoint} (h : skip t = c :: rest) : rest.length < t.length := by
  have hle := length_skip_le t
  rw [h, List.length_cons] at hle
  exact hle

/-! ## Strings -/

theorem length_lt_of_unit? {digits : Text} (h : unit? digits = some (n, rest)) :
    rest.length < digits.length := by
  unfold unit? at h
  split at h
  · simp only [Option.bind_eq_bind, Option.bind_eq_some_iff, Option.ite_none_left_eq_some,
      Option.some.injEq, Prod.mk.injEq] at h
    obtain ⟨_, _, _, _, _, _, _, _, _, _, rfl⟩ := h
    simp only [List.length_cons]
    omega
  · exact nomatch h

theorem length_lt_of_lowUnit? (h : lowUnit? t = some (some (n, rest))) :
    rest.length < t.length := by
  unfold lowUnit? at h
  split at h
  · split_ifs at h
    split at h
    · exact nomatch h
    · next hunit =>
      split_ifs at h
      simp only [Option.some.injEq, Prod.mk.injEq] at h
      obtain ⟨rfl, rfl⟩ := h
      have hlt := length_lt_of_unit? hunit
      simp only [List.length_cons]
      omega
  · exact nomatch h

theorem advances_readUnits (fromU digits : Text) :
    Advances digits.length (readUnits fromU digits) := by
  unfold readUnits
  split
  · exact .faultAt _ _
  · next n rest hunit =>
    have hlt := length_lt_of_unit? hunit
    dsimp only
    split_ifs
    · split
      · exact hlt
      · exact .faultAt _ _
      · next hlow => exact Nat.lt_trans (length_lt_of_lowUnit? hlow) hlt
    · exact hlt

theorem advances_readString (opening seen t : Text) :
    Advances t.length (readString opening seen t) := by
  fun_induction readString opening seen t with
  | case1 => exact .faultAt _ _
  | case2 seen rest => exact Nat.lt_succ_self _
  | case3 => exact .faultAt _ _
  | case4 seen rest halt hunits => exact (advances_readUnits _ rest).ne hunits
  | case5 seen rest c more hunits hlt ih =>
    refine ih.mono ?_
    simp only [List.length_cons]
    omega
  | case6 seen rest c more hunits hlt =>
    exact absurd ((advances_readUnits _ rest).lt hunits) hlt
  | case7 seen c rest _ value _ ih =>
    refine ih.mono ?_
    simp only [List.length_cons]
    omega
  | case8 => exact .faultAt _ _
  | case9 => exact .faultAt _ _
  | case10 seen c rest _ _ _ _ _ ih => exact ih.mono (Nat.le_succ _)

/-! ## Words and numbers -/

theorem length_lt_of_word? {table : List (String × α)} {word : String} {value : α}
    (htable : ∀ entry ∈ table, Text.ofString entry.1 ≠ [])
    (h : word? table t = some (word, value, rest)) : rest.length < t.length := by
  obtain ⟨entry, hentry, hfound⟩ := List.exists_of_findSome?_eq_some h
  dsimp only at hfound
  split_ifs at hfound with hprefix
  simp only [Option.some.injEq, Prod.mk.injEq] at hfound
  obtain ⟨-, -, rfl⟩ := hfound
  have hpos := List.length_pos_iff.mpr (htable entry hentry)
  have hle := (List.isPrefixOf_iff_prefix.mp hprefix).length_le
  rw [List.length_drop]
  omega

theorem length_fraction_le (t : Text) : (fraction t).2.length ≤ t.length := by
  unfold fraction
  split
  · dsimp only
    split_ifs
    · exact Nat.le_refl _
    · simp only [List.length_drop, List.length_cons]
      omega
  · exact Nat.le_refl _

theorem length_sign_le (t : Text) : (Number.sign t).2.length ≤ t.length := by
  unfold Number.sign
  split
  · exact Nat.le_succ _
  · exact Nat.le_succ _
  · exact Nat.le_refl _

theorem length_power_le (t : Text) : (power t).2.length ≤ t.length := by
  unfold power
  split
  · next c rest =>
    have hle := length_sign_le rest
    dsimp only
    split
    · split
      · exact Nat.le_refl _
      · simp only [List.length_drop, List.length_cons]
        omega
    · exact Nat.le_refl _
  · exact Nat.le_refl _

theorem length_takeMinus_le (t : Text) : (takeMinus t).2.length ≤ t.length := by
  unfold takeMinus
  split
  · exact Nat.le_succ _
  · exact Nat.le_refl _

theorem length_lt_of_numeral? {numeral : Numeral} (h : numeral? t = some (numeral, rest)) :
    rest.length < t.length := by
  rw [numeral?_eq] at h
  dsimp only at h
  split_ifs at h with hwhole
  simp only [Option.some.injEq, Prod.mk.injEq] at h
  obtain ⟨-, rfl⟩ := h
  let body := (takeMinus t).2
  have hne : wholeOf body ≠ [] := fun hnil => hwhole (List.isEmpty_iff.mpr hnil)
  obtain ⟨c, rest, hbody, -⟩ := exists_cons_of_wholeOf hne
  calc (power (fraction (body.drop (wholeOf body).length)).2).2.length
      ≤ (fraction (body.drop (wholeOf body).length)).2.length := length_power_le _
    _ ≤ (body.drop (wholeOf body).length).length := length_fraction_le _
    _ < body.length := by
      have hpos := List.length_pos_iff.mpr hne
      have hlength : 0 < body.length := by simp [hbody]
      rw [List.length_drop]
      omega
    _ ≤ t.length := length_takeMinus_le t

theorem Numeral.document_ne_tooDeep (dialect : Dialect) (numeral : Numeral) :
    numeral.document dialect ≠ .error .tooDeep := by
  unfold document
  split_ifs <;> exact nofun

theorem advances_readNumber (dialect : Dialect) (t : Text) :
    Advances t.length (readNumber dialect t) := by
  unfold readNumber
  split
  · exact .faultAt _ _
  · next numeral rest hnumeral =>
    cases hdocument : numeral.document dialect with
    | error halt =>
      rintro rfl
      exact numeral.document_ne_tooDeep dialect hdocument
    | ok document => exact length_lt_of_numeral? hnumeral

theorem advances_readAtom (dialect : Dialect) (t : Text) :
    Advances t.length (readAtom dialect t) := by
  unfold readAtom
  split
  · next hword => exact length_lt_of_word? (by decide) hword
  · split
    · next hword =>
      split_ifs
      · exact length_lt_of_word? (by decide) hword
      · exact nofun
    · exact advances_readNumber dialect t

/-! ## Documents -/

/-- The text behind the name of a member is shorter than the one from the name on. -/
theorem length_skip_lt_of_readString {opening name key more : Text}
    (hkey : readString opening [] name = .ok (key, rest))
    (hskip : skip rest = .scalar ':' :: more) : (skip more).length < name.length := by
  have hrest := (advances_readString opening [] name).lt hkey
  have hmore := length_lt_of_skip hskip
  have hle := length_skip_le more
  omega

section Documents

variable {value : Text → Except ReadHalt (Json × Text)}
  (hvalue : ∀ t, t.length ≤ n → Advances t.length (value t))

include hvalue

theorem advances_readItems (ht : t.length ≤ n) : Advances t.length (readItems value t) := by
  fun_induction readItems value t with
  | case1 t halt hitem => exact (hvalue t ht).ne hitem
  | case2 t item rest hitem more hskip =>
    exact Nat.lt_trans (length_lt_of_skip hskip) ((hvalue t ht).lt hitem)
  | case3 t item rest hitem more hskip hlt ih =>
    exact .map ((ih (by omega)).mono hlt.le) fun items => item :: items
  | case4 t item rest hitem more hskip hlt =>
    -- the reader need not have tested that what is left is shorter
    have hrest := (hvalue t ht).lt hitem
    have hmore := length_lt_of_skip hskip
    have hle := length_skip_le more
    exact absurd (show (skip more).length < t.length by omega) hlt
  | case5 => exact .faultAt _ _

theorem advances_readMembers (ht : t.length ≤ n) : Advances t.length (readMembers value t) := by
  fun_induction readMembers value t with
  | case1 name halt hkey => exact (advances_readString _ [] name).ne hkey
  | case2 name key rest hkey more hskip halt hmember =>
    rw [List.length_cons] at ht
    have hname := length_skip_lt_of_readString hkey hskip
    exact (hvalue (skip more) (by omega)).ne hmember
  | case3 name key rest hkey more hskip member rest' hmember last hlast =>
    rw [List.length_cons] at ht
    have hname := length_skip_lt_of_readString hkey hskip
    have hrest := (hvalue (skip more) (by omega)).lt hmember
    have hbrace := length_lt_of_skip hlast
    change last.length < name.length + 1
    omega
  | case4 name key rest hkey more hskip member rest' hmember last hlast hlt ih =>
    rw [List.length_cons] at ht ⊢
    exact .map ((ih (by omega)).mono (by omega)) fun members => (key, member) :: members
  | case5 name key rest hkey more hskip member rest' hmember last hlast hlt =>
    rw [List.length_cons] at ht
    have hname := length_skip_lt_of_readString hkey hskip
    have hrest := (hvalue (skip more) (by omega)).lt hmember
    have hcomma := length_lt_of_skip hlast
    have hle := length_skip_le last
    exact absurd (show (skip last).length < name.length by omega) hlt
  | case6 => exact .faultAt _ _
  | case7 => exact .faultAt _ _
  | case8 => exact .faultAt _ _

theorem advances_readArray (ht : t.length ≤ n) : Advances t.length (readArray value t) := by
  have hle := length_skip_le t
  unfold readArray
  split
  · next hskip => exact length_lt_of_skip hskip
  · exact .map ((advances_readItems hvalue (hle.trans ht)).mono hle) Json.array

theorem advances_readObject (ht : t.length ≤ n) : Advances t.length (readObject value t) := by
  have hle := length_skip_le t
  unfold readObject
  split
  · next hskip => exact length_lt_of_skip hskip
  · exact .map ((advances_readMembers hvalue (hle.trans ht)).mono hle)
      fun members => Json.object (Dict.ofList members).entries

end Documents

/-- A text that has no more code points than there may be levels is read, or a fault is found. -/
theorem advances_readValue (dialect : Dialect) (depth : ℕ) (t : Text) (ht : t.length ≤ depth) :
    Advances t.length (readValue dialect depth t) := by
  induction depth generalizing t with
  | zero =>
    obtain rfl := List.length_eq_zero_iff.mp (Nat.le_zero.mp ht)
    exact advances_readAtom dialect []
  | succ depth ih =>
    rcases opening t with ⟨rest, rfl⟩ | ⟨rest, rfl⟩ | ⟨rest, rfl⟩ | hatom
    · rw [readValue]
      exact .map ((advances_readString _ [] rest).mono (Nat.le_succ _)) Json.string
    · exact (advances_readArray ih (Nat.le_of_succ_le_succ ht)).mono (Nat.le_succ _)
    · exact (advances_readObject ih (Nat.le_of_succ_le_succ ht)).mono (Nat.le_succ _)
    · rw [hatom]
      exact advances_readAtom dialect t

/-- The bound on nesting is not reached by a text that has no more code points. -/
theorem read_ne_tooDeep (dialect : Dialect) (ht : t.length ≤ depth) :
    read dialect depth t ≠ .error .tooDeep := by
  unfold read
  split
  · exact nofun
  · have hle := length_skip_le t
    have hadvances := advances_readValue dialect depth (skip t) (by omega)
    cases hread : readValue dialect depth (skip t) with
    | error halt =>
      intro h
      exact hadvances.ne hread (Except.error.inj h)
    | ok result =>
      dsimp only [bind, Except.bind]
      split <;> exact nofun

/-! ## What a text is read as -/

/-- A text is read as a document on the wire, if there may be enough levels. -/
def IsReadFrom (t : Text) (document : Json) : Prop := ∃ depth, read .wire depth t = .ok document

/-- With any bound a text is read as the same document, or the bound is reached. -/
theorem IsReadFrom.read_eq {document : Json} (h : IsReadFrom t document)
    (hread : read .wire depth t ≠ .error .tooDeep) : read .wire depth t = .ok document := by
  obtain ⟨depth', hdocument⟩ := h
  rcases Nat.le_total depth depth' with hle | hle
  · rw [← read_agrees .wire hle t hread, hdocument]
  · rw [read_agrees .wire hle t (by simp [hdocument]), hdocument]

theorem IsReadFrom.unique {document document' : Json} (h : IsReadFrom t document)
    (h' : IsReadFrom t document') : document = document' := by
  have hread := read_ne_tooDeep .wire (Nat.le_refl t.length)
  exact Except.ok.inj ((h.read_eq hread).symm.trans (h'.read_eq hread))

/-- What a document is written as is read as what is received of it. -/
theorem isReadFrom_write {document : Json} (h : document.hasLongInteger = false) :
    IsReadFrom (document.write .ascii) document.received := by
  refine ⟨document.nesting, ?_⟩
  rw [read_wire h, receive, if_pos (Nat.le_refl _)]

end HostScript.Json
