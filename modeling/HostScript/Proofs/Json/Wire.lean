import HostScript.Proofs.Json.Documents

/-!
# Documents on the wire

Documents go to the host and back with everything outside ASCII escaped. An escaped text is read
back with each high surrogate joined to the low one behind it (`readString_writeAscii`), so only a
text without such a pair is received as it was sent. Everything else in a document is received as it
was (`Json.received`), and a document is read if it is nested no deeper than the reader goes
(`read_wire`).
-/

namespace HostScript

/-! ## Pairs of surrogates -/

namespace CodePoint

/-- The code point that a high surrogate and a low one behind it stand for. -/
def pair? : CodePoint → CodePoint → Option CodePoint
  | .surrogate a, .surrogate b =>
    if a.val < 0x400 ∧ 0x400 ≤ b.val then ofNat? (0x10000 + a.val * 0x400 + (b.val - 0x400))
    else none
  | _, _ => none

/-- Low surrogates. -/
def isLow (c : CodePoint) : Bool := 0xDC00 ≤ c.toNat && c.toNat < 0xE000

theorem isLow_eq_false_iff {c : CodePoint} :
    c.isLow = false ↔ ¬ (0xDC00 ≤ c.toNat ∧ c.toNat < 0xE000) := by
  rw [← Bool.not_eq_true, isLow, Bool.and_eq_true, decide_eq_true_iff, decide_eq_true_iff]

end CodePoint

namespace Text

/-- The text with the code points that pairs of surrogates stand for in place of the pairs. -/
def paired : Text → Text
  | [] => []
  | [c] => [c]
  | c :: d :: rest =>
    match c.pair? d with
    | some e => e :: paired rest
    | none => c :: paired (d :: rest)

theorem pair?_eq_none_of_not_isSurrogate {c d : CodePoint} (h : c.isSurrogate = false) :
    c.pair? d = none := by
  cases c with
  | scalar c => rfl
  | surrogate s => exact nomatch h

theorem paired_cons {c : CodePoint} {rest : Text} (h : ∀ d, rest.head? = some d → c.pair? d = none) :
    paired (c :: rest) = c :: paired rest := by
  cases rest with
  | nil => rfl
  | cons d rest => rw [paired, h d rfl]

/-- A text without surrogates has no pairs of them. -/
theorem paired_of_plain {t : Text} (h : ∀ c ∈ t, c.isSurrogate = false) : t.paired = t := by
  induction t with
  | nil => rfl
  | cons c rest ih =>
    obtain ⟨hc, hrest⟩ := List.forall_mem_cons.mp h
    rw [paired_cons fun d _ => pair?_eq_none_of_not_isSurrogate hc, ih hrest]

theorem paired_ofString (s : String) : (ofString s).paired = s := by
  apply paired_of_plain
  intro c hc
  obtain ⟨x, -, rfl⟩ := List.mem_map.mp hc
  rfl

end Text

namespace Json

/-! ## Strings -/

variable {opening seen t rest : Text} {c : CodePoint} {n m : ℕ}

theorem unitEscape_append (n : ℕ) (rest : Text) :
    unitEscape n ++ rest = .scalar '\\' :: .scalar 'u' :: (Text.hex 4 n ++ rest) := rfl

/-- A unit that opens no pair is read on its own. -/
theorem readString_unit (hn : n < 0x10000) (hc : CodePoint.ofNat? n = some c) (hrest : rest ≠ [])
    (hsingle : 0xD800 ≤ n ∧ n < 0xDC00 → lowUnit? rest = none) :
    readString opening seen (unitEscape n ++ rest) = readString opening (c :: seen) rest := by
  rw [unitEscape_append]
  apply readString_of_readUnits
  · simp only [readUnits, unit?_hex hn hrest, hc, Option.getD_some]
    by_cases hhigh : 0xD800 ≤ n ∧ n < 0xDC00
    · rw [if_pos hhigh, hsingle hhigh]
    · rw [if_neg hhigh]
  · simp only [Text.hex, List.nil_append, List.cons_append, List.length_cons]
    omega

theorem lowUnit?_unitEscape (hm : m < 0x10000) (hrest : rest ≠ []) :
    lowUnit? (unitEscape m ++ rest) =
      if 0xDC00 ≤ m ∧ m < 0xE000 then some (some (m, rest)) else none := by
  have hlength : 0 < rest.length := List.length_pos_of_ne_nil hrest
  rw [unitEscape_append]
  simp only [lowUnit?, unit?_hex hm hrest]
  rw [if_neg]
  simp only [Text.hex, List.nil_append, List.cons_append, List.length_cons]
  omega

/-- Two units that make a pair are read as the code point that they stand for. -/
theorem readString_pair (hn : 0xD800 ≤ n ∧ n < 0xDC00) (hm : 0xDC00 ≤ m ∧ m < 0xE000)
    (hc : CodePoint.ofNat? (0x10000 + (n - 0xD800) * 0x400 + (m - 0xDC00)) = some c)
    (hrest : rest ≠ []) :
    readString opening seen (unitEscape n ++ (unitEscape m ++ rest)) =
      readString opening (c :: seen) rest := by
  have hn' : n < 0x10000 := by omega
  have hm' : m < 0x10000 := by omega
  have hmore : unitEscape m ++ rest ≠ [] := List.cons_ne_nil _ _
  rw [unitEscape_append]
  apply readString_of_readUnits
  · simp only [readUnits, unit?_hex hn' hmore, if_pos hn, lowUnit?_unitEscape hm' hrest, if_pos hm,
      hc, Option.getD_some]
  · simp only [unitEscape_append, Text.hex, List.nil_append, List.cons_append, List.length_cons]
    omega

/-- What follows the text of a string that is being read, with the string's end behind it. -/
abbrev writeRest (t rest : Text) : Text := t.flatMap (writePoint .ascii) ++ .scalar '"' :: rest

theorem writeRest_cons (c : CodePoint) (t rest : Text) :
    writeRest (c :: t) rest = writePoint .ascii c ++ writeRest t rest := by
  simp [writeRest]

theorem writeRest_ne_nil (t rest : Text) : writeRest t rest ≠ [] := by
  simp [writeRest]

/-- The first unit of an escape is that of a low surrogate only if the code point is one. -/
theorem lowUnit?_escape (hc : c.isLow = false) (hrest : rest ≠ []) :
    lowUnit? (escape c ++ rest) = none := by
  rw [CodePoint.isLow_eq_false_iff] at hc
  unfold escape
  dsimp only
  split
  · next hn =>
    rw [lowUnit?_unitEscape hn hrest, if_neg (by omega)]
  · next hn =>
    have hlt := c.toNat_lt
    have hmore : unitEscape (0xDC00 + (c.toNat - 0x10000) % 0x400) ++ rest ≠ [] :=
      List.cons_ne_nil _ _
    rw [List.append_assoc, lowUnit?_unitEscape (by omega) hmore, if_neg (by omega)]

theorem lowUnit?_of_ne (h : ∀ rest', t ≠ .scalar '\\' :: .scalar 'u' :: rest') :
    lowUnit? t = none := by
  unfold lowUnit?
  split
  · next rest' => exact absurd rfl (h rest')
  · rfl

/-- A text that does not begin with a low surrogate is not written as one. -/
theorem lowUnit?_writeRest (ht : ∀ c, t.head? = some c → c.isLow = false) :
    lowUnit? (writeRest t rest) = none := by
  cases t with
  | nil => exact lowUnit?_of_ne fun rest' h => nomatch h
  | cons c t =>
    rw [writeRest_cons]
    have hescape := lowUnit?_escape (ht c rfl) (writeRest_ne_nil t rest)
    unfold writePoint
    split
    · exact lowUnit?_of_ne fun rest' h => nomatch h
    split
    · exact lowUnit?_of_ne fun rest' h => nomatch h
    split
    · exact lowUnit?_of_ne fun rest' h => nomatch h
    split
    · exact lowUnit?_of_ne fun rest' h => nomatch h
    split
    · exact lowUnit?_of_ne fun rest' h => nomatch h
    split
    · exact lowUnit?_of_ne fun rest' h => nomatch h
    split
    · exact lowUnit?_of_ne fun rest' h => nomatch h
    split
    · exact hescape
    split
    · exact hescape
    · next hbackslash _ _ _ _ _ _ _ =>
      refine lowUnit?_of_ne fun rest' h => hbackslash ?_
      exact (List.cons.inj h).1

/-- The escape of a code point that opens no pair is read back. -/
theorem readString_escapeAscii (hrest : rest ≠ [])
    (hsingle : 0xD800 ≤ c.toNat ∧ c.toNat < 0xDC00 → lowUnit? rest = none) :
    readString opening seen (escape c ++ rest) = readString opening (c :: seen) rest := by
  have hlt := c.toNat_lt
  unfold escape
  dsimp only
  split
  · next hn => exact readString_unit hn c.ofNat?_toNat hrest hsingle
  · next hn =>
    rw [List.append_assoc]
    apply readString_pair (by omega) (by omega) _ hrest
    have hsum : 0x10000 + (0xD800 + (c.toNat - 0x10000) / 0x400 - 0xD800) * 0x400 +
        (0xDC00 + (c.toNat - 0x10000) % 0x400 - 0xDC00) = c.toNat := by omega
    rw [hsum, c.ofNat?_toNat]

/-- What a code point is written as is read back, unless it opens a pair. -/
theorem readString_writeAscii_single (hrest : rest ≠ [])
    (hsingle : 0xD800 ≤ c.toNat ∧ c.toNat < 0xDC00 → lowUnit? rest = none) :
    readString opening seen (writePoint .ascii c ++ rest) =
      readString opening (c :: seen) rest := by
  by_cases hplain : c.toNat < 0x7F
  · -- below the end of ASCII both styles write the same
    have hsame : writePoint .ascii c = writePoint .plain c := by
      have h : ¬ 0x7F ≤ c.toNat := by omega
      simp only [writePoint, h, and_false, if_false]
    rw [hsame]
    exact readString_writePoint c hrest
  · have hescape : writePoint .ascii c = escape c := by
      have hne (d : Char) (hd : d.toNat < 0x7F) : c ≠ .scalar d := by
        rintro rfl
        exact hplain hd
      have h : 0x7F ≤ c.toNat := by omega
      have hlow : ¬ c.toNat < 0x20 := by omega
      simp only [writePoint, hne '"' (by decide), hne '\\' (by decide), hne '\n' (by decide),
        hne '\r' (by decide), hne '\t' (by decide), hne '\x0c' (by decide), hne '\x08' (by decide),
        hlow, h, and_true, if_false, if_true]
    rw [hescape]
    exact readString_escapeAscii hrest hsingle

theorem writePoint_surrogate (s : Fin 0x800) :
    writePoint .ascii (.surrogate s) = unitEscape (0xD800 + s.val) := by
  have hs := s.isLt
  have hlow : ¬ 0xD800 + s.val < 0x20 := by omega
  have hhigh : 0x7F ≤ 0xD800 + s.val := by omega
  have hunit : 0xD800 + s.val < 0x10000 := by omega
  simp [writePoint, escape, CodePoint.toNat, hlow, hhigh, hunit]

theorem readString_writePair {a b : Fin 0x800} {e : CodePoint}
    (h : CodePoint.pair? (.surrogate a) (.surrogate b) = some e) (hrest : rest ≠ []) :
    readString opening seen (writePoint .ascii (.surrogate a) ++
        (writePoint .ascii (.surrogate b) ++ rest)) =
      readString opening (e :: seen) rest := by
  have hb := b.isLt
  by_cases hpair : a.val < 0x400 ∧ 0x400 ≤ b.val
  · rw [CodePoint.pair?, if_pos hpair] at h
    rw [writePoint_surrogate, writePoint_surrogate]
    apply readString_pair (by omega) (by omega) _ hrest
    have hsum : 0x10000 + (0xD800 + a.val - 0xD800) * 0x400 + (0xD800 + b.val - 0xDC00) =
        0x10000 + a.val * 0x400 + (b.val - 0x400) := by omega
    rw [hsum, h]
  · rw [CodePoint.pair?, if_neg hpair] at h
    exact nomatch h

theorem isLow_of_pair?_eq_none {c d : CodePoint} (hc : 0xD800 ≤ c.toNat ∧ c.toNat < 0xDC00)
    (h : c.pair? d = none) : d.isLow = false := by
  have hscalar (x : Char) : ¬ (0xD800 ≤ x.toNat ∧ x.toNat < 0xE000) := by
    have hvalid := x.valid
    simp only [UInt32.isValidChar, Nat.isValidChar] at hvalid
    change ¬ (0xD800 ≤ x.val.toNat ∧ x.val.toNat < 0xE000)
    omega
  cases c with
  | scalar x => exact absurd ⟨hc.1, by simp only [CodePoint.toNat] at hc; omega⟩ (hscalar x)
  | surrogate a =>
    cases d with
    | scalar y =>
      have hy := hscalar y
      rw [CodePoint.isLow_eq_false_iff, CodePoint.toNat]
      omega
    | surrogate b =>
      simp only [CodePoint.toNat] at hc
      have ha : a.val < 0x400 := by omega
      by_cases hb : 0x400 ≤ b.val
      · -- a high surrogate and a low one always stand for a code point
        have hlt := b.isLt
        have hvalid : (0x10000 + a.val * 0x400 + (b.val - 0x400)).isValidChar := by
          simp only [Nat.isValidChar]
          omega
        simp [CodePoint.pair?, ha, hb, CodePoint.ofNat?, hvalid] at h
      · rw [CodePoint.isLow_eq_false_iff, CodePoint.toNat]
        omega

/-- A text that was written with escapes is read back with its pairs of surrogates joined. -/
theorem readString_writeAscii (opening t rest : Text) :
    readString opening [] (writeRest t rest) = .ok (t.paired, rest) := by
  suffices h : ∀ seen, readString opening seen (writeRest t rest) =
      .ok (seen.reverse ++ t.paired, rest) from h []
  fun_induction Text.paired t with
  | case1 =>
    intro seen
    rw [List.append_nil]
    exact readString_quote opening seen rest
  | case2 c =>
    intro seen
    rw [writeRest_cons, readString_writeAscii_single (writeRest_ne_nil [] rest) fun _ =>
      lowUnit?_writeRest nofun]
    exact (readString_quote opening _ rest).trans (by simp)
  | case3 c d more e hpair ih =>
    intro seen
    cases c with
    | scalar x => exact nomatch hpair
    | surrogate a =>
      cases d with
      | scalar y => exact nomatch hpair
      | surrogate b =>
        rw [writeRest_cons, writeRest_cons, readString_writePair hpair (writeRest_ne_nil more rest),
          ih]
        simp
  | case4 c d more hpair ih =>
    intro seen
    rw [writeRest_cons, readString_writeAscii_single (writeRest_ne_nil _ rest), ih]
    · simp
    · intro hc
      apply lowUnit?_writeRest
      intro d' hd
      obtain rfl := Option.some.inj hd
      exact isLow_of_pair?_eq_none hc hpair

/-! ## What is received -/

mutual

/-- How many arrays and objects stand inside each other at most. -/
def nesting : Json → ℕ
  | array items => nestingOfItems items + 1
  | object members => nestingOfMembers members + 1
  | _ => 0

/-- How deep some items are nested at most. -/
def nestingOfItems : List Json → ℕ
  | [] => 0
  | item :: rest => max (nesting item) (nestingOfItems rest)

/-- How deep the values of some members are nested at most. -/
def nestingOfMembers : List (Text × Json) → ℕ
  | [] => 0
  | (_, value) :: rest => max (nesting value) (nestingOfMembers rest)

end

mutual

/-- What a document has become at the other end of the wire: pairs of surrogates are joined, in
names too, and of members that have got the same name the last one counts. -/
def received : Json → Json
  | string t => string t.paired
  | array items => array (receivedItems items)
  | object members => object (Dict.ofList (receivedMembers members)).entries
  | document => document

/-- What some items have become. -/
def receivedItems : List Json → List Json
  | [] => []
  | item :: rest => received item :: receivedItems rest

/-- What some members have become. -/
def receivedMembers : List (Text × Json) → List (Text × Json)
  | [] => []
  | (key, value) :: rest => (key.paired, received value) :: receivedMembers rest

end

/-- What a reader with a bound on nesting makes of a document that was written. -/
def receive (n : ℕ) (document : Json) : Except ReadHalt Json :=
  if document.nesting ≤ n then .ok document.received else .error .tooDeep

theorem mapM_receive (n : ℕ) (items : List Json) :
    items.mapM (receive n) =
      if nestingOfItems items ≤ n then .ok (receivedItems items) else .error .tooDeep := by
  induction items with
  | nil => rfl
  | cons item items ih =>
    simp only [List.mapM_cons, ih, receive, nestingOfItems, receivedItems, Nat.max_le]
    by_cases hitem : item.nesting ≤ n
    · by_cases hitems : nestingOfItems items ≤ n
      · simp only [hitem, hitems, and_self, if_true]
        rfl
      · simp only [hitem, hitems, and_false, if_true, if_false]
        rfl
    · simp only [hitem, false_and, if_false]
      rfl

theorem mapM_receive_members (n : ℕ) (members : List (Text × Json)) :
    (members.mapM fun member => (receive n member.2).map (member.1.paired, ·)) =
      if nestingOfMembers members ≤ n then .ok (receivedMembers members)
      else .error .tooDeep := by
  induction members with
  | nil => rfl
  | cons member members ih =>
    obtain ⟨key, value⟩ := member
    rw [List.mapM_cons, ih]
    simp only [receive, nestingOfMembers, receivedMembers, Nat.max_le]
    by_cases hvalue : value.nesting ≤ n
    · by_cases hmembers : nestingOfMembers members ≤ n
      · simp only [hvalue, hmembers, and_self, if_true]
        rfl
      · simp only [hvalue, hmembers, and_false, if_true, if_false]
        rfl
    · simp only [hvalue, false_and, if_false]
      rfl

/-! ## Numbers that are not finite -/

theorem eq_nan_of_isNaN {x : Float} (h : x.isNaN = true) : x = Number.nan := by
  obtain ⟨model⟩ := x
  have hmodel := Packing.pack_unpack model
  change model.unpack.isNaN = true at h
  generalize model.unpack = u at h hmodel
  subst hmodel
  cases u with
  | notANumber => rfl
  | _ => exact nomatch h

theorem eq_infinity_of_isInf {x : Float} (h : x.isInf = true) :
    x = if x < 0 then -Number.infinity else Number.infinity := by
  obtain ⟨model⟩ := x
  have hmodel := Packing.pack_unpack model
  change model.unpack.isInf = true at h
  generalize model.unpack = u at h hmodel
  subst hmodel
  cases u with
  | infinity s => cases s <;> rfl
  | _ => exact nomatch h

theorem isFinite_of_not {x : Float} (hnan : ¬ x.isNaN = true) (hinf : ¬ x.isInf = true) :
    x.isFinite = true := by
  obtain ⟨model⟩ := x
  change ¬ model.unpack.isNaN = true at hnan
  change ¬ model.unpack.isInf = true at hinf
  change model.unpack.isFinite = true
  generalize model.unpack = u at hnan hinf ⊢
  cases u with
  | notANumber => exact absurd rfl hnan
  | infinity s => exact absurd rfl hinf
  | _ => rfl

/-! ## Documents are received -/

/-- A document that was written for the wire is received by a reader, whatever follows it that does
not go on with a numeral. -/
def Arrives (document : Json) : Prop :=
  ∀ (n : ℕ) (rest : Text), rest.Stops continuesNumeral →
    readValue .wire n (write .ascii document ++ rest) = (receive n document).map (·, rest)

theorem receive_atom {document : Json} (h : document.nesting = 0) (n : ℕ) :
    receive n document = .ok document.received := by
  rw [receive, if_pos (by omega)]

theorem arrives_number (x : Float) : Arrives (.number x) := by
  intro n rest hrest
  rw [write, receive_atom rfl]
  by_cases hnan : x.isNaN = true
  · rw [writeNumber, if_pos hnan, eq_nan_of_isNaN hnan]
    cases n <;> rfl
  · by_cases hinf : x.isInf = true
    · rw [writeNumber, if_neg hnan, if_pos hinf]
      by_cases hneg : x < 0
      · have hx := eq_infinity_of_isInf hinf
        rw [if_pos hneg] at hx ⊢
        rw [hx]
        cases n <;> rfl
      · have hx := eq_infinity_of_isInf hinf
        rw [if_neg hneg] at hx ⊢
        rw [hx]
        cases n <;> rfl
    · have hx : x.isFinite = true := isFinite_of_not hnan hinf
      rw [writeNumber_of_isFinite hx]
      exact readValue_of_readNumber (readNumber_text hx .wire hrest) n

theorem arrives_integer {i : ℤ} (hi : (integer i).hasLongInteger = false) :
    Arrives (.integer i) := by
  intro n rest hrest
  have hshort : (Text.ofNat i.natAbs).length ≤ Number.digitLimit := by
    simpa [hasLongInteger] using hi
  rw [write, receive_atom rfl]
  exact readValue_of_readNumber (readNumber_ofInt hshort hrest) n

theorem arrives_string (t : Text) : Arrives (.string t) := by
  intro n rest hrest
  have hwrite : write .ascii (.string t) ++ rest = .scalar '"' :: writeRest t rest := by
    simp [write, writeString, writeRest]
  rw [hwrite, receive_atom rfl]
  cases n <;> simp only [readValue, readString_writeAscii] <;> rfl

/-- The texts of all documents can open a document, those of long integers included. -/
theorem opens_write_ascii (document : Json) : Opens (write .ascii document) := by
  cases document with
  | null => exact ⟨.scalar 'n', _, rfl, rfl⟩
  | boolean b => cases b with
    | true => exact ⟨.scalar 't', _, rfl, rfl⟩
    | false => exact ⟨.scalar 'f', _, rfl, rfl⟩
  | integer i =>
    rw [write, Text.ofInt]
    by_cases hneg : i < 0
    · rw [if_pos hneg]
      exact ⟨.scalar '-', _, rfl, rfl⟩
    · rw [if_neg hneg]
      obtain ⟨c, rest, hcons⟩ := List.exists_cons_of_ne_nil (Text.ofNat_ne_nil i.natAbs)
      have hdigits := Text.areDigits_ofNat i.natAbs
      rw [hcons] at hdigits ⊢
      exact ⟨c, rest, rfl, beginsDocument_of_isDigit (hdigits c List.mem_cons_self)⟩
  | number x =>
    rw [write]
    by_cases hnan : x.isNaN = true
    · rw [writeNumber, if_pos hnan]
      exact ⟨.scalar 'N', _, rfl, rfl⟩
    · by_cases hinf : x.isInf = true
      · rw [writeNumber, if_neg hnan, if_pos hinf]
        by_cases hneg : x < 0
        · rw [if_pos hneg]
          exact ⟨.scalar '-', _, rfl, rfl⟩
        · rw [if_neg hneg]
          exact ⟨.scalar 'I', _, rfl, rfl⟩
      · have hx : x.isFinite = true := isFinite_of_not hnan hinf
        have hread := readNumber_text hx .wire (Text.stops_nil _)
        rw [List.append_nil] at hread
        rw [writeNumber_of_isFinite hx]
        exact Opens.of_opensNumeral (opensNumeral_of_readNumber hread)
  | string t => exact ⟨.scalar '"', _, rfl, rfl⟩
  | array items => exact ⟨.scalar '[', _, rfl, rfl⟩
  | object members => exact ⟨.scalar '\x7b', _, rfl, rfl⟩

section Composites

variable {value : Text → Except ReadHalt (Json × Text)}

theorem readArray_of_opens (ht : Opens t) :
    readArray value t = (readItems value t).map fun found => (.array found.1, found.2) := by
  rw [readArray, ht.skip]
  obtain ⟨c, more, rfl, hc⟩ := ht
  split
  · next heq =>
    obtain ⟨rfl, -⟩ := List.cons.inj heq
    cases hc
  · cases readItems value (c :: more) <;> rfl

theorem readObject_of_opens (ht : Opens t) :
    readObject value t = (readMembers value t).map fun found =>
      (.object (Dict.ofList found.1).entries, found.2) := by
  rw [readObject, ht.skip]
  obtain ⟨c, more, rfl, hc⟩ := ht
  split
  · next heq =>
    obtain ⟨rfl, -⟩ := List.cons.inj heq
    cases hc
  · cases readMembers value (c :: more) <;> rfl

end Composites

theorem arrives_array {items : List Json} (h : ∀ item ∈ items, item.Arrives) :
    Arrives (.array items) := by
  intro n rest hrest
  rw [write, writeItems_eq_map, List.append_assoc, List.append_assoc]
  cases n with
  | zero => rfl
  | succ n =>
    change readArray (readValue .wire n) (_ ++ .scalar ']' :: rest) = _
    by_cases hnil : items = []
    · subst hnil
      rfl
    · have hopens : ∀ item ∈ items, Opens (write .ascii item) :=
        fun item _ => opens_write_ascii item
      have hjoin : Opens (Text.join ", " (items.map (write .ascii))) :=
        opens_join (by simpa using hnil) (List.forall_mem_map.mpr hopens)
      rw [readArray_of_opens (hjoin.append _),
        readItems_join hnil hopens fun item hitem rest hrest => h item hitem n rest hrest,
        mapM_receive, receive, nesting, received]
      by_cases hle : nestingOfItems items ≤ n
      · rw [if_pos hle, if_pos (Nat.succ_le_succ hle)]
        rfl
      · rw [if_neg hle, if_neg fun h => hle (Nat.le_of_succ_le_succ h)]
        rfl

theorem arrives_object {members : List (Text × Json)}
    (h : ∀ member ∈ members, member.2.Arrives) : Arrives (.object members) := by
  intro n rest hrest
  rw [write, writeMembers_eq_map, List.append_assoc, List.append_assoc]
  cases n with
  | zero => rfl
  | succ n =>
    change readObject (readValue .wire n)
      (Text.join ", " (members.map (writeMember .ascii)) ++ .scalar '\x7d' :: rest) = _
    by_cases hnil : members = []
    · subst hnil
      rfl
    · have hjoin : Opens (Text.join ", " (members.map (writeMember .ascii))) :=
        opens_join (by simpa using hnil)
          (List.forall_mem_map.mpr fun member _ => opens_writeMember .ascii member)
      rw [readObject_of_opens (hjoin.append _),
        readMembers_join .ascii hnil readString_writeAscii
          (fun member _ => opens_write_ascii member.2)
          fun member hmember rest hrest => h member hmember n rest hrest,
        mapM_receive_members, receive, nesting, received]
      by_cases hle : nestingOfMembers members ≤ n
      · rw [if_pos hle, if_pos (Nat.succ_le_succ hle)]
        rfl
      · rw [if_neg hle, if_neg fun h => hle (Nat.le_of_succ_le_succ h)]
        rfl

mutual

theorem arrives : (document : Json) → document.hasLongInteger = false → document.Arrives
  | .null, _ => fun n rest _ => by cases n <;> rfl
  | .boolean b, _ => fun n rest _ => by cases b <;> cases n <;> rfl
  | .integer _, h => arrives_integer h
  | .number x, _ => arrives_number x
  | .string t, _ => arrives_string t
  | .array items, h => arrives_array (arrives_items items h)
  | .object members, h => arrives_object (arrives_members members h)

theorem arrives_items : (items : List Json) → hasLongIntegers items = false →
    ∀ item ∈ items, item.Arrives
  | [], _ => nofun
  | item :: rest, h => by
    simp only [hasLongIntegers, Bool.or_eq_false_iff] at h
    exact List.forall_mem_cons.mpr ⟨arrives item h.1, arrives_items rest h.2⟩

theorem arrives_members : (members : List (Text × Json)) → hasLongMembers members = false →
    ∀ member ∈ members, member.2.Arrives
  | [], _ => nofun
  | (key, value) :: rest, h => by
    simp only [hasLongMembers, Bool.or_eq_false_iff] at h
    exact List.forall_mem_cons.mpr ⟨arrives value h.1, arrives_members rest h.2⟩

end

/-- A text that was written for the wire is read as what is received of the document: as the
document with its pairs of surrogates joined, or not at all if it is nested too deeply. -/
theorem read_wire {document : Json} (h : document.hasLongInteger = false) (n : ℕ) :
    read .wire n (write .ascii document) = receive n document := by
  have hopens := opens_write_ascii document
  have hread := arrives document h n [] (Text.stops_nil _)
  rw [List.append_nil] at hread
  rw [read, hopens.skip, hread]
  obtain ⟨c, rest, hcons, hc⟩ := hopens
  rw [hcons, if_neg]
  · cases receive n document <;> rfl
  · rw [List.head?_cons, Option.some.injEq]
    rintro rfl
    cases hc

end Json

end HostScript
