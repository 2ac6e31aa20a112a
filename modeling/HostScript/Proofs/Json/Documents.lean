import HostScript.Proofs.Json.Numerals
import HostScript.Proofs.Json.Shapes
import HostScript.Proofs.Json.Strings

/-!
# Documents are read back

A document that was written with null for every number that is not finite is read back as it was
(`read_write`). Blanks are written between items only, so no document begins with one, and whatever
follows a document does not go on with its last numeral.
-/

namespace HostScript.Json

/-! ## Blanks -/

variable {t rest : Text} {c : CodePoint} {n : ℕ} {document : Json}

theorem skip_cons (h : isBlank c = false) : skip (c :: t) = c :: t := by
  rw [skip, List.dropWhile_cons_of_neg (by simp [h])]

theorem skip_space (t : Text) : skip (.scalar ' ' :: t) = skip t := rfl

theorem skip_comma (t : Text) : skip (.scalar ',' :: t) = .scalar ',' :: t := rfl

theorem skip_colon (t : Text) : skip (.scalar ':' :: t) = .scalar ':' :: t := rfl

/-! ## Heads of documents -/

/-- Whether a numeral is at the head of a text: a digit, or a minus and a digit. -/
def opensNumeral : Text → Bool
  | c :: d :: _ => c.isDigit || (c = .scalar '-' && d.isDigit)
  | [c] => c.isDigit
  | [] => false

theorem exists_cons_of_wholeOf (h : wholeOf t ≠ []) :
    ∃ c rest, t = c :: rest ∧ c.isDigit = true := by
  unfold wholeOf at h
  split at h
  · next rest => exact ⟨.scalar '0', rest, rfl, rfl⟩
  · cases t with
    | nil => exact absurd rfl h
    | cons c rest =>
      cases hc : c.isDigit with
      | true => exact ⟨c, rest, rfl, hc⟩
      | false => simp [hc] at h

theorem opensNumeral_of_numeral? {result : Numeral × Text} (h : numeral? t = some result) :
    opensNumeral t = true := by
  rw [numeral?_eq] at h
  have hwhole : wholeOf (takeMinus t).2 ≠ [] := by
    intro hnil
    simp [hnil] at h
  obtain ⟨c, rest, hbody, hc⟩ := exists_cons_of_wholeOf hwhole
  unfold takeMinus at hbody
  split at hbody
  · obtain rfl := hbody
    simp [opensNumeral, hc]
  · obtain rfl := hbody
    cases rest <;> simp [opensNumeral, hc]

/-- A numeral is none of the words that have a place in documents. -/
theorem word?_eq_none {α : Type} {table : List (String × α)} (ht : opensNumeral t = true)
    (htable : ∀ entry ∈ table, 2 ≤ (Text.ofString entry.1).length ∧
      opensNumeral (Text.ofString entry.1) = false) : word? table t = none := by
  refine List.findSome?_eq_none_iff.mpr fun entry hentry => ?_
  obtain ⟨hlength, hword⟩ := htable entry hentry
  refine if_neg fun hprefix => ?_
  obtain ⟨rest, rfl⟩ := List.isPrefixOf_iff_prefix.mp hprefix
  match hspelled : Text.ofString entry.1 with
  | [] => simp [hspelled] at hlength
  | [c] => simp [hspelled] at hlength
  | c :: d :: more =>
    rw [hspelled] at ht hword
    exact nomatch hword.symm.trans ht

theorem opensNumeral_of_readNumber {dialect : Dialect} {result : Json × Text}
    (h : readNumber dialect t = .ok result) : opensNumeral t = true := by
  cases hnumeral : numeral? t with
  | none => simp [readNumber, hnumeral, faultAt] at h
  | some result => exact opensNumeral_of_numeral? hnumeral

/-- A number is read wherever a document may stand. -/
theorem readValue_of_readNumber {dialect : Dialect} {result : Json × Text}
    (h : readNumber dialect t = .ok result) (n : ℕ) : readValue dialect n t = .ok result := by
  have ht := opensNumeral_of_readNumber h
  have hatom : readAtom dialect t = .ok result := by
    rw [readAtom, word?_eq_none ht (by decide), word?_eq_none ht (by decide)]
    exact h
  have hother {c : CodePoint} {rest : Text} (hc : c.isDigit = false) (hminus : c ≠ .scalar '-') :
      opensNumeral (c :: rest) = false := by
    cases rest <;> simp [opensNumeral, hc, hminus]
  unfold readValue
  split
  case h_6 => exact hatom
  all_goals
    -- neither a string nor a composite begins like a numeral
    rw [hother rfl (by decide)] at ht
    exact nomatch ht

/-! ## Reading a document back -/

/-- What may stand at the head of a document. -/
def beginsDocument (c : CodePoint) : Bool :=
  !isBlank c && c ≠ .scalar ']' && c ≠ .scalar '\x7d' && c ≠ .scalar '\ufeff'

/-- A text that can be that of a document, as far as its head goes. -/
def Opens (t : Text) : Prop := ∃ c rest, t = c :: rest ∧ beginsDocument c = true

theorem beginsDocument_of_isDigit (h : c.isDigit = true) : beginsDocument c = true := by
  have hblank : isBlank c = false := by
    cases hb : isBlank c with
    | false => rfl
    | true =>
      simp only [isBlank, Bool.or_eq_true, decide_eq_true_eq] at hb
      rcases hb with ((rfl | rfl) | rfl) | rfl <;> exact nomatch h
  have hne (d : CodePoint) (hd : d.isDigit = false) : c ≠ d := by
    rintro rfl
    exact nomatch hd.symm.trans h
  simp only [beginsDocument, hblank, Bool.not_false, Bool.true_and, Bool.and_eq_true, decide_eq_true_eq]
  exact ⟨⟨hne _ rfl, hne _ rfl⟩, hne _ rfl⟩

theorem Opens.of_opensNumeral (h : opensNumeral t = true) : Opens t := by
  match t with
  | [] => exact nomatch h
  | [c] => exact ⟨c, [], rfl, beginsDocument_of_isDigit h⟩
  | c :: d :: rest =>
    simp only [opensNumeral, Bool.or_eq_true, Bool.and_eq_true, decide_eq_true_eq] at h
    rcases h with h | ⟨rfl, -⟩
    · exact ⟨c, d :: rest, rfl, beginsDocument_of_isDigit h⟩
    · exact ⟨_, d :: rest, rfl, rfl⟩

theorem opens_write (hs : Shaped n document) : Opens (write .plain document.finite) := by
  cases hs with
  | null => exact ⟨.scalar 'n', _, rfl, rfl⟩
  | boolean b => cases b with
    | true => exact ⟨.scalar 't', _, rfl, rfl⟩
    | false => exact ⟨.scalar 'f', _, rfl, rfl⟩
  | number x =>
    rw [finite]
    split
    · next hx =>
      have hread := readNumber_text hx .script (Text.stops_nil _)
      rw [List.append_nil] at hread
      rw [write, writeNumber_of_isFinite hx]
      exact Opens.of_opensNumeral (opensNumeral_of_readNumber hread)
    · exact ⟨.scalar 'n', _, rfl, rfl⟩
  | string t => exact ⟨.scalar '"', _, rfl, rfl⟩
  | array hitems => exact ⟨.scalar '[', _, rfl, rfl⟩
  | object hnames hmembers => exact ⟨.scalar '\x7b', _, rfl, rfl⟩

theorem readValue_null (dialect : Dialect) (n : ℕ) (rest : Text) :
    readValue dialect n (write .plain .null ++ rest) = .ok (.null, rest) := by
  cases n <;> rfl

theorem readValue_boolean (dialect : Dialect) (n : ℕ) (b : Bool) (rest : Text) :
    readValue dialect n (write .plain (.boolean b) ++ rest) = .ok (.boolean b, rest) := by
  cases b <;> cases n <;> rfl

theorem readValue_string (dialect : Dialect) (n : ℕ) (t rest : Text) :
    readValue dialect n (write .plain (.string t) ++ rest) = .ok (.string t, rest) := by
  have hwrite : write .plain (.string t) ++ rest =
      .scalar '"' :: (t.flatMap (writePoint .plain) ++ .scalar '"' :: rest) := by
    simp [write, writeString]
  rw [hwrite]
  cases n <;> simp only [readValue, readString_writeString] <;> rfl

theorem Opens.append (h : Opens t) (rest : Text) : Opens (t ++ rest) := by
  obtain ⟨c, more, rfl, hc⟩ := h
  exact ⟨c, more ++ rest, rfl, hc⟩

theorem Opens.skip (h : Opens t) : skip t = t := by
  obtain ⟨c, rest, rfl, hc⟩ := h
  simp only [beginsDocument, Bool.and_eq_true, Bool.not_eq_true'] at hc
  exact skip_cons hc.1.1.1

theorem writeItems_eq_map (style : Style) (items : List Json) :
    writeItems style items = items.map (write style) := by
  induction items with
  | nil => rfl
  | cons item items ih => rw [writeItems, ih, List.map_cons]

theorem writeMembers_eq_map (style : Style) (members : List (Text × Json)) :
    writeMembers style members =
      members.map fun member => writeString style member.1 ++ ": " ++ write style member.2 := by
  induction members with
  | nil => rfl
  | cons member members ih => rw [writeMembers, ih, List.map_cons]

theorem opens_join {separator : Text} {texts : List Text} (hne : texts ≠ [])
    (htexts : ∀ t ∈ texts, Opens t) : Opens (Text.join separator texts) := by
  match texts with
  | [] => exact absurd rfl hne
  | [t] =>
    rw [Text.join_singleton]
    exact htexts t List.mem_cons_self
  | t :: next :: others =>
    rw [Text.join_cons_cons]
    exact (htexts t List.mem_cons_self).append _

theorem join_map_cons {α : Type} (f : α → Text) (a b : α) (l : List α) (rest : Text) :
    Text.join ", " ((a :: b :: l).map f) ++ rest =
      f a ++ .scalar ',' :: .scalar ' ' :: (Text.join ", " ((b :: l).map f) ++ rest) := by
  rw [List.map_cons, List.map_cons, Text.join_cons_cons, List.append_assoc, List.append_assoc]
  rfl

theorem skip_join_map {α : Type} {f : α → Text} {l : List α} (hne : l ≠ [])
    (hf : ∀ a ∈ l, Opens (f a)) (rest : Text) :
    skip (Text.join ", " (l.map f) ++ rest) = Text.join ", " (l.map f) ++ rest :=
  ((opens_join (by simpa using hne) (List.forall_mem_map.mpr hf)).append rest).skip

section Lists

theorem mapM_ok {α ε : Type} (xs : List α) : xs.mapM (Except.ok : α → Except ε α) = .ok xs := by
  induction xs with
  | nil => rfl
  | cons x xs ih =>
    rw [List.mapM_cons, ih]
    rfl

variable {α : Type} {value : Text → Except ReadHalt (Json × Text)}

/-- The items of an array are read as what each of them is read as. -/
theorem readItems_join {f : α → Text} {g : α → Except ReadHalt Json} {items : List α}
    (hne : items ≠ []) (hopens : ∀ a ∈ items, Opens (f a))
    (hread : ∀ a ∈ items, ∀ rest : Text, rest.Stops continuesNumeral →
      value (f a ++ rest) = (g a).map (·, rest)) :
    readItems value (Text.join ", " (items.map f) ++ .scalar ']' :: rest) =
      (items.mapM g).map (·, rest) := by
  induction items with
  | nil => exact absurd rfl hne
  | cons a items ih =>
    obtain ⟨-, hopens⟩ := List.forall_mem_cons.mp hopens
    obtain ⟨ha, hread⟩ := List.forall_mem_cons.mp hread
    cases items with
    | nil =>
      have hvalue := ha (.scalar ']' :: rest) (Text.stops_cons.mpr rfl)
      rw [List.map_singleton, Text.join_singleton, readItems, List.mapM_cons, List.mapM_nil]
      simp only [hvalue]
      cases g a <;> rfl
    | cons next others =>
      have ih := ih (List.cons_ne_nil _ _) hopens hread
      have hskip := skip_join_map (List.cons_ne_nil _ _) hopens (.scalar ']' :: rest)
      rw [join_map_cons, List.mapM_cons]
      generalize Text.join ", " ((next :: others).map f) ++ .scalar ']' :: rest = tail at ih hskip
      generalize (next :: others).mapM g = found at ih
      have hvalue := ha (.scalar ',' :: .scalar ' ' :: tail) (Text.stops_cons.mpr rfl)
      have hlength : tail.length < (f a ++ .scalar ',' :: .scalar ' ' :: tail).length := by
        simp only [List.length_append, List.length_cons]
        omega
      rw [readItems]
      simp only [hvalue]
      cases g a with
      | error halt => rfl
      | ok item =>
        simp only [Except.map, skip_comma, skip_space, hskip, if_pos hlength, ih]
        cases found <;> rfl

/-- What a member of an object is written as. -/
def writeMember (style : Style) (member : Text × Json) : Text :=
  writeString style member.1 ++ ": " ++ write style member.2

theorem opens_writeMember (style : Style) (member : Text × Json) :
    Opens (writeMember style member) :=
  ⟨.scalar '"', _, rfl, rfl⟩

theorem writeMember_append (style : Style) (member : Text × Json) (rest : Text) :
    writeMember style member ++ rest = .scalar '"' :: (member.1.flatMap (writePoint style) ++
      .scalar '"' :: .scalar ':' :: .scalar ' ' :: (write style member.2 ++ rest)) := by
  have hcolon : Text.ofString ": " = [.scalar ':', .scalar ' '] := rfl
  simp [writeMember, writeString, hcolon]

/-- The members of an object are read as what their names and values are read as. -/
theorem readMembers_join (style : Style) {f : Text → Text} {g : Json → Except ReadHalt Json}
    {members : List (Text × Json)} (hne : members ≠ [])
    (hname : ∀ opening t rest : Text,
      readString opening [] (t.flatMap (writePoint style) ++ .scalar '"' :: rest) =
        .ok (f t, rest))
    (hopens : ∀ member ∈ members, Opens (write style member.2))
    (hread : ∀ member ∈ members, ∀ rest : Text, rest.Stops continuesNumeral →
      value (write style member.2 ++ rest) = (g member.2).map (·, rest)) :
    readMembers value
        (Text.join ", " (members.map (writeMember style)) ++ .scalar '\x7d' :: rest) =
      (members.mapM fun member => (g member.2).map (f member.1, ·)).map (·, rest) := by
  induction members with
  | nil => exact absurd rfl hne
  | cons member members ih =>
    obtain ⟨hmember, hopens⟩ := List.forall_mem_cons.mp hopens
    obtain ⟨hvalue, hread⟩ := List.forall_mem_cons.mp hread
    have hskipvalue (tail : Text) : skip (write style member.2 ++ tail) =
        write style member.2 ++ tail := (hmember.append tail).skip
    cases members with
    | nil =>
      have hvalue := hvalue (.scalar '\x7d' :: rest) (Text.stops_cons.mpr rfl)
      rw [List.map_singleton, Text.join_singleton, writeMember_append, readMembers,
        List.mapM_cons, List.mapM_nil]
      simp only [hname, skip_colon, skip_space, hskipvalue, hvalue]
      cases g member.2 <;> rfl
    | cons next others =>
      have ih := ih (List.cons_ne_nil _ _) hopens hread
      have hskip := skip_join_map (List.cons_ne_nil next others) (fun member _ =>
        opens_writeMember style member) (.scalar '\x7d' :: rest)
      rw [join_map_cons, writeMember_append, List.mapM_cons]
      generalize Text.join ", " ((next :: others).map (writeMember style)) ++
        .scalar '\x7d' :: rest = tail at ih hskip
      generalize ((next :: others).mapM fun member =>
        (g member.2).map (f member.1, ·)) = found at ih
      have hvalue := hvalue (.scalar ',' :: .scalar ' ' :: tail) (Text.stops_cons.mpr rfl)
      have hlength : tail.length < (member.1.flatMap (writePoint style) ++ .scalar '"' ::
          .scalar ':' :: .scalar ' ' :: (write style member.2 ++
            .scalar ',' :: .scalar ' ' :: tail)).length := by
        simp only [List.length_append, List.length_cons]
        omega
      rw [readMembers]
      simp only [hname, skip_colon, skip_space, hskipvalue, hvalue]
      cases g member.2 with
      | error halt => rfl
      | ok value =>
        simp only [Except.map, skip_comma, skip_space, hskip, if_pos hlength, ih]
        cases found <;> rfl

end Lists

theorem readArray_of_readItems {value : Text → Except ReadHalt (Json × Text)} {items : List Json}
    (ht : Opens t) (h : readItems value t = .ok (items, rest)) :
    readArray value t = .ok (.array items, rest) := by
  rw [readArray, ht.skip]
  obtain ⟨c, more, rfl, hc⟩ := ht
  split
  · next heq =>
    obtain ⟨rfl, -⟩ := List.cons.inj heq
    exact nomatch hc
  · rw [h]
    rfl

theorem readObject_of_readMembers {value : Text → Except ReadHalt (Json × Text)}
    {members : List (Text × Json)} (hnames : (members.map (·.1)).Nodup) (ht : Opens t)
    (h : readMembers value t = .ok (members, rest)) :
    readObject value t = .ok (.object members, rest) := by
  rw [readObject, ht.skip]
  obtain ⟨c, more, rfl, hc⟩ := ht
  split
  · next heq =>
    obtain ⟨rfl, -⟩ := List.cons.inj heq
    exact nomatch hc
  · rw [h]
    change Except.ok (Json.object (Dict.ofList members).entries, rest) = _
    rw [Dict.ofList_of_nodup hnames]

/-- A document is read back in front of what does not continue a numeral. -/
theorem readValue_write (hs : Shaped n document) (hrest : rest.Stops continuesNumeral) :
    readValue .script n (write .plain document.finite ++ rest) = .ok (document.finite, rest) := by
  induction hs generalizing rest with
  | null => exact readValue_null _ _ rest
  | boolean b => exact readValue_boolean _ _ b rest
  | number x =>
    rw [finite]
    split
    · next hx =>
      rw [write, writeNumber_of_isFinite hx]
      exact readValue_of_readNumber (readNumber_text hx .script hrest) _
    · exact readValue_null _ _ rest
  | string t => exact readValue_string _ _ t rest
  | @array n items hitems ih =>
    rw [finite, finiteItems_eq_map, write, writeItems_eq_map, List.append_assoc, List.append_assoc]
    change readArray (readValue .script n) (_ ++ .scalar ']' :: rest) = _
    cases items with
    | nil => rfl
    | cons item items =>
      have hopens : ∀ x ∈ (item :: items).map finite, Opens (write .plain x) := by
        intro x hx
        obtain ⟨item, hitem, rfl⟩ := List.mem_map.mp hx
        exact opens_write (hitems item hitem)
      refine readArray_of_readItems ((opens_join (by simp) ?_).append _)
        ((readItems_join (g := Except.ok) (by simp) hopens ?_).trans ?_)
      · exact List.forall_mem_map.mpr hopens
      · exact List.forall_mem_map.mpr fun item h rest hrest => ih item h hrest
      · rw [mapM_ok]
        rfl
  | @object n members hnames hmembers ih =>
    rw [finite, finiteMembers_eq_map, write, writeMembers_eq_map, List.append_assoc,
      List.append_assoc]
    change readObject (readValue .script n)
      (Text.join ", " ((members.map _).map (writeMember .plain)) ++ .scalar '\x7d' :: rest) = _
    cases members with
    | nil => rfl
    | cons member members =>
      refine readObject_of_readMembers ?_ ((opens_join (by simp) ?_).append _)
        ((readMembers_join .plain (f := id) (g := Except.ok) (by simp)
          (fun _ => readString_writeString) ?_ ?_).trans ?_)
      · simpa [Function.comp_def] using hnames
      · exact List.forall_mem_map.mpr fun member _ => opens_writeMember .plain member
      · exact List.forall_mem_map.mpr fun member h => opens_write (hmembers member h)
      · exact List.forall_mem_map.mpr fun member h rest hrest => ih member h hrest
      · rw [show (fun member : Text × Json => (Except.ok member.2 : Except ReadHalt Json).map
          (id member.1, ·)) = Except.ok from rfl, mapM_ok]
        rfl

/-- A document is read back from the text that is written for it. -/
theorem read_write (hs : Shaped n document) :
    read .script n (write .plain document.finite) = .ok document.finite := by
  have hopens := opens_write hs
  have hread := readValue_write hs (Text.stops_nil _)
  rw [List.append_nil] at hread
  rw [read, hopens.skip, hread]
  obtain ⟨c, rest, hcons, hc⟩ := hopens
  rw [hcons, if_neg]
  · rfl
  · rw [List.head?_cons, Option.some.injEq]
    rintro rfl
    exact nomatch hc

end HostScript.Json
