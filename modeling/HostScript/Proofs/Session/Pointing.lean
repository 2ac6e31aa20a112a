import HostScript.Proofs.Depth.Parsing
import HostScript.Proofs.Number.Digits
import HostScript.Proofs.Session.Blame
import HostScript.Proofs.Syntax.Placing
import HostScript.Proofs.Text.Encoding
import Mathlib.Data.List.TakeWhile

/-!
# Where an excerpt points

An excerpt marks a line of a source by its number, and the column of its caret is found among the
bytes in front of the place. `Excerpt.Spot` says where the place really is: in which line, behind
which code points of it. If the number is that of this line, the excerpt points at the spot
(`Excerpt.excerpt_eq_rows`). In a fresh session it does for all faults but those of escapes with a
line feed in them (`Session.report_points`).
-/

namespace HostScript

namespace Text

variable {c : CodePoint} {s t head tail : Text} {above below : List Text}

/-- Where a text is cut, the last line of one part goes on with the first line of the other. -/
theorem splitOn_append (hs : splitOn c s = above ++ [head]) (ht : splitOn c t = tail :: below) :
    splitOn c (s ++ t) = above ++ (head ++ tail) :: below := by
  induction s generalizing above head with
  | nil =>
    obtain ⟨rfl, rfl⟩ : above = [] ∧ head = [] := by
      cases above with
      | nil => exact ⟨rfl, (List.cons.inj hs).1.symm⟩
      | cons part above => exact absurd (List.cons.inj hs).2.symm (by simp)
    simpa using ht
  | cons d s ih =>
    rw [splitOn] at hs
    rw [List.cons_append, splitOn]
    split at hs
    · next heq =>
      rw [if_pos heq]
      cases above with
      | nil => exact absurd (List.cons.inj hs).2 (splitOn_ne_nil c s)
      | cons part above =>
        obtain ⟨rfl, hrest⟩ := List.cons.inj hs
        rw [ih hrest, List.cons_append]
    · next hne =>
      rw [if_neg hne]
      cases hparts : splitOn c s with
      | nil => exact absurd hparts (splitOn_ne_nil c s)
      | cons part parts =>
        rw [hparts] at hs
        cases above with
        | nil =>
          obtain ⟨rfl, rfl⟩ := List.cons.inj hs
          rw [ih (show splitOn c s = [] ++ [part] from hparts)]
          rfl
        | cons first above =>
          obtain ⟨rfl, rfl⟩ := List.cons.inj hs
          rw [ih (show splitOn c s = (part :: above) ++ [head] from hparts)]
          rfl

/-- The last line of a text is all of it, or what stands behind the last separator. -/
theorem eq_of_splitOn (hs : splitOn c s = above ++ [head]) : c ∉ head ∧
    (above = [] → s = head) ∧ (above ≠ [] → ∃ front, s = front ++ c :: head) := by
  induction s generalizing above head with
  | nil =>
    cases above with
    | nil =>
      obtain ⟨rfl, -⟩ := List.cons.inj hs
      exact ⟨List.not_mem_nil, fun _ => rfl, fun h => absurd rfl h⟩
    | cons part above => exact absurd (List.cons.inj hs).2.symm (by simp)
  | cons d s ih =>
    rw [splitOn] at hs
    split at hs
    · next heq =>
      cases above with
      | nil => exact absurd (List.cons.inj hs).2 (splitOn_ne_nil c s)
      | cons part above =>
        obtain ⟨hmem, hwhole, hbehind⟩ := ih (List.cons.inj hs).2
        refine ⟨hmem, fun h => absurd h (List.cons_ne_nil _ _), fun _ => ?_⟩
        subst heq
        by_cases habove : above = []
        · exact ⟨[], congrArg (d :: ·) (hwhole habove)⟩
        · obtain ⟨front, hfront⟩ := hbehind habove
          exact ⟨d :: front, congrArg (d :: ·) hfront⟩
    · next hne =>
      cases hparts : splitOn c s with
      | nil => exact absurd hparts (splitOn_ne_nil c s)
      | cons part parts =>
        rw [hparts] at hs
        cases above with
        | nil =>
          obtain ⟨rfl, rfl⟩ := List.cons.inj hs
          obtain ⟨hmem, hwhole, -⟩ := ih (show splitOn c s = [] ++ [part] from hparts)
          refine ⟨?_, fun _ => congrArg (d :: ·) (hwhole rfl), fun h => absurd rfl h⟩
          simpa [Ne.symm hne] using hmem
        | cons first above =>
          obtain ⟨rfl, rfl⟩ := List.cons.inj hs
          obtain ⟨hmem, -, hbehind⟩ := ih (show splitOn c s = (part :: above) ++ [head] from hparts)
          obtain ⟨front, hfront⟩ := hbehind (List.cons_ne_nil _ _)
          exact ⟨hmem, fun h => absurd h (List.cons_ne_nil _ _),
            fun _ => ⟨d :: front, congrArg (d :: ·) hfront⟩⟩

/-- A code point that does not satisfy the predicate is the last one to be dropped behind. -/
theorem dropEndWhile_append_cons {p : CodePoint → Bool} (h : p c = false) (s t : Text) :
    dropEndWhile p (s ++ c :: t) = s ++ c :: dropEndWhile p t := by
  simp only [dropEndWhile, List.reverse_append, List.reverse_cons, List.append_assoc,
    List.singleton_append, List.dropWhile_append, List.dropWhile_cons_of_neg (Bool.eq_false_iff.mp h)]
  split
  · next hempty => simp [List.isEmpty_iff.mp hempty]
  · simp

theorem length_dropEndWhile_iff {p : CodePoint → Bool} (t : Text) :
    (dropEndWhile p t).length = t.length ↔ ∀ c ∈ t.getLast?, p c = false := by
  rw [dropEndWhile, List.length_reverse, ← t.length_reverse, ← t.head?_reverse]
  cases t.reverse with
  | nil => simp
  | cons c rest =>
    have hle := (rest.dropWhile_sublist p).length_le
    cases hc : p c with
    | false => simp [hc]
    | true =>
      simp only [List.dropWhile_cons, hc, if_true, List.length_cons, List.head?_cons,
        Option.mem_def, Option.some.injEq, forall_eq', reduceCtorEq, iff_false]
      omega

/-- Numbers do not get shorter. -/
theorem length_ofNat_mono {n m : Nat} (h : n ≤ m) : (ofNat n).length ≤ (ofNat m).length := by
  have hpos : 0 < (ofNat m).length := List.length_pos_iff.mpr (ofNat_ne_nil m)
  exact (length_ofNat_le_iff hpos).mpr (Nat.lt_of_le_of_lt h ((length_ofNat_le_iff hpos).mp le_rfl))

end Text

namespace Excerpt

/-! ## Spots -/

/-- A place in a source: what stands in front of it and behind it, the lines above, what its line has
in front of it and from it on, and the lines below. -/
structure Spot (source : Text) (place : Nat) where
  before : Text
  behind : Text
  above : List Text
  head : Text
  tail : Text
  below : List Text
  source_eq : source = before ++ behind
  place_eq : place = Utf8.size before
  lines_before : lines before = above ++ [head]
  lines_behind : lines behind = tail :: below

namespace Spot

variable {source : Text} {place : Nat} (spot : Spot source place)

/-- The number of its line. -/
def number : Nat := spot.above.length + 1

/-- Its line. -/
def line : Text := spot.head ++ spot.tail

theorem lines_eq : lines source = spot.above ++ spot.line :: spot.below :=
  (congrArg lines spot.source_eq).trans
    (Text.splitOn_append spot.lines_before spot.lines_behind)

theorem number_eq : spot.number = spot.before.count (.scalar '\n') + 1 := by
  have h := Text.length_splitOn (.scalar '\n') spot.before
  rw [← lines, spot.lines_before, List.length_append] at h
  exact h

/-- There is a spot wherever a source can be cut. -/
theorem exists_of_append {before behind : Text} (h : source = before ++ behind)
    (hplace : place = Utf8.size before) :
    ∃ spot : Spot source place, spot.before = before ∧ spot.behind = behind := by
  obtain ⟨tail, below, hbehind⟩ := List.exists_cons_of_ne_nil
    (Text.splitOn_ne_nil (.scalar '\n') behind)
  have hbefore : lines before = (lines before).dropLast ++
      [(lines before).getLast (Text.splitOn_ne_nil _ _)] := (List.dropLast_concat_getLast _).symm
  exact ⟨⟨before, behind, _, _, tail, below, h, hplace, hbefore, hbehind⟩, rfl, rfl⟩

/-- What the line of a spot has in front of it holds no line feed, and is what stands in front of it in
the source, up to the line feed before. -/
theorem before_cases : .scalar '\n' ∉ spot.head ∧
    (spot.before = spot.head ∨ ∃ front, spot.before = front ++ .scalar '\n' :: spot.head) := by
  obtain ⟨hlineFeed, hfirst, hlater⟩ := Text.eq_of_splitOn spot.lines_before
  refine ⟨hlineFeed, ?_⟩
  by_cases habove : spot.above = []
  · exact .inl (hfirst habove)
  · exact .inr (hlater habove)

theorem isScalar_head (hscalar : source.IsScalar) : spot.head.IsScalar := by
  intro c hc
  refine hscalar c ?_
  rw [spot.source_eq]
  refine List.mem_append_left _ ?_
  rcases spot.before_cases.2 with h | ⟨front, h⟩
  · rwa [h]
  · rw [h]
    exact List.mem_append_right _ (List.mem_cons_of_mem _ hc)

/-- The bytes of a line in front of a spot are those of what the line has in front of it. -/
theorem lineBefore_eq (hscalar : source.IsScalar) :
    lineBefore (source.flatMap CodePoint.utf8) place = spot.head.flatMap CodePoint.utf8 := by
  have hcut : (source.flatMap CodePoint.utf8).take place = spot.before.flatMap CodePoint.utf8 := by
    rw [spot.source_eq] at hscalar
    have h := Utf8.take_size (Text.isScalar_append.mp hscalar).1 spot.behind
    rwa [← spot.source_eq, ← spot.place_eq] at h
  obtain ⟨hlineFeed, hbefore⟩ := spot.before_cases
  have hbytes : ∀ b ∈ (spot.head.flatMap CodePoint.utf8).reverse, decide (b ≠ 0x0A) = true := by
    intro b hb
    obtain ⟨c, hc, hbc⟩ := List.mem_flatMap.mp (List.mem_reverse.mp hb)
    refine decide_eq_true fun h => hlineFeed ?_
    rw [h, Utf8.lineFeed_mem_utf8_iff] at hbc
    exact hbc ▸ hc
  rw [lineBefore, hcut]
  rcases hbefore with h | ⟨front, h⟩
  · rw [h, List.takeWhile_eq_self_iff.mpr hbytes, List.reverse_reverse]
  · have hbyte : CodePoint.utf8 (.scalar '\n') = [0x0A] := by decide
    rw [h, List.flatMap_append, List.flatMap_cons, hbyte, List.singleton_append,
      List.reverse_append, List.reverse_cons, List.append_assoc,
      List.takeWhile_append_of_pos hbytes, List.singleton_append,
      List.takeWhile_cons_of_neg (by decide), List.append_nil, List.reverse_reverse]

/-- The column of a spot is the number of code points that its line has in front of it. -/
theorem column_eq (hscalar : source.IsScalar) :
    column (source.flatMap CodePoint.utf8) place = spot.head.length := by
  rw [column, spot.lineBefore_eq hscalar, Utf8.decodeLossy_utf8 (spot.isScalar_head hscalar)]

end Spot

/-! ## Rows -/

/-- Lines around the marked one, of which the first has the number `first`. -/
def around (width first : Nat) : List Text → List Text
  | [] => []
  | t :: rest => Excerpt.line width first false t :: around width (first + 1) rest

theorem rows_append {width marked column first : Nat} {above : List Text}
    (h : first + above.length ≤ marked) (rest : List Text) :
    rows width marked column first (above ++ rest) =
      around width first above ++ rows width marked column (first + above.length) rest := by
  induction above generalizing first with
  | nil => rfl
  | cons t above ih =>
    rw [List.length_cons] at h
    have hne : first ≠ marked := by omega
    rw [List.cons_append, rows, if_neg hne, ih (by omega)]
    simp [around, hne, Nat.add_comm, Nat.add_left_comm]

theorem rows_of_lt {width marked column first : Nat} (h : marked < first) (below : List Text) :
    rows width marked column first below = around width first below := by
  induction below generalizing first with
  | nil => rfl
  | cons t below ih =>
    have hne : first ≠ marked := by omega
    rw [rows, if_neg hne, ih (by omega), around]
    simp [hne]

theorem rows_eq (width column first : Nat) (above : List Text) (t : Text) (below : List Text) :
    rows width (first + above.length) column first (above ++ t :: below) =
      around width first above ++ line width (first + above.length) true t ::
        caret width column :: around width (first + above.length + 1) below := by
  rw [rows_append (Nat.le_refl _), rows, if_pos rfl, rows_of_lt (Nat.lt_succ_self _)]
  simp

namespace Spot

variable {source : Text} {place : Nat} (spot : Spot source place)

/-- The lines above that are shown. -/
def shownAbove : List Text := spot.above.drop (spot.above.length - radius)

/-- The lines below that are shown. -/
def shownBelow : List Text := spot.below.take radius

/-- The width of the numbers, which is that of the last one. -/
def width : Nat := (Text.ofNat (spot.number + spot.shownBelow.length)).length

/-- The excerpt that points at a spot: its line is marked, the caret below it stands in the column of
the spot, and at most two lines are shown on either side, all with their numbers. -/
def excerpt : Text :=
  Text.join "\n" (around spot.width (spot.number - spot.shownAbove.length) spot.shownAbove ++
    Excerpt.line spot.width spot.number true spot.line :: caret spot.width spot.head.length ::
      around spot.width (spot.number + 1) spot.shownBelow)

/-- The lines from at most `k` above a line to at most `m` below it. -/
theorem take_drop_append {above below : List Text} (t : Text) (k m : Nat) :
    ((above ++ t :: below).drop (above.length - k)).take
        ((above.drop (above.length - k)).length + 1 + m) =
      above.drop (above.length - k) ++ t :: below.take m := by
  rw [List.drop_append_of_le_length (Nat.sub_le _ _), Nat.add_assoc, List.take_length_add_append,
    Nat.add_comm 1 m, List.take_succ_cons]

theorem length_shownAbove : spot.shownAbove.length = min spot.above.length radius := by
  rw [shownAbove, List.length_drop]
  omega

/-- The lines that an excerpt shows around the line of a spot. -/
theorem shown_lines : ((lines source).drop (spot.number - spot.shownAbove.length - 1)).take
    (spot.number + spot.shownBelow.length + 1 - (spot.number - spot.shownAbove.length)) =
      spot.shownAbove ++ spot.line :: spot.shownBelow := by
  have hskip : spot.number - spot.shownAbove.length - 1 = spot.above.length - radius := by
    rw [length_shownAbove, number]
    omega
  have hcount : spot.number + spot.shownBelow.length + 1 -
      (spot.number - spot.shownAbove.length) =
        (spot.above.drop (spot.above.length - radius)).length + 1 + spot.shownBelow.length := by
    have hle := spot.length_shownAbove
    rw [← shownAbove, number]
    omega
  have hprefix : spot.shownBelow = spot.below.take spot.shownBelow.length :=
    List.prefix_iff_eq_take.mp (List.take_prefix radius spot.below)
  rw [hskip, hcount, spot.lines_eq, take_drop_append, ← hprefix]
  rfl

/-- An excerpt with the number of the line of a spot points at it. -/
theorem excerpt_eq (hscalar : source.IsScalar) {span : Span} (spot : Spot source span.startByte)
    (hline : span.line = spot.number) : HostScript.excerpt source span = .ok (some spot.excerpt) := by
  have hlength : (lines source).length = spot.number + spot.below.length := by
    rw [spot.lines_eq, List.length_append, List.length_cons, number]
    omega
  have hbelow : spot.shownBelow.length = min radius spot.below.length := List.length_take
  have hfirst : max 1 (span.line - radius) = spot.number - spot.shownAbove.length := by
    rw [hline, length_shownAbove, number]
    omega
  have hlast : min (lines source).length (span.line + radius) =
      spot.number + spot.shownBelow.length := by
    rw [hline, hlength, hbelow]
    omega
  have hle : spot.shownAbove.length ≤ spot.number := by
    rw [length_shownAbove, number]
    omega
  have hrows := rows_eq spot.width spot.head.length (spot.number - spot.shownAbove.length)
    spot.shownAbove spot.line spot.shownBelow
  rw [Nat.sub_add_cancel hle] at hrows
  unfold HostScript.excerpt
  rw [if_neg (by rw [hline, hlength, number]; omega), Utf8.encode_of_isScalar hscalar]
  dsimp only [bind, Except.bind, pure, Except.pure]
  rw [hfirst, hlast, spot.shown_lines, spot.column_eq hscalar, hline, ← width, hrows]
  rfl

/-- The line of a spot as it is shown. -/
def shownLine : Text := Text.dropEndWhile (· = .scalar '\r') spot.line

/-- The marked row and the row below it begin with labels of one length. The line stands behind one of
them, and the caret behind the other, after as many blanks as the line has code points in front of the
spot. -/
theorem exists_labels : ∃ label bar : Text, label.length = bar.length ∧
    Excerpt.line spot.width spot.number true spot.line = label ++ spot.shownLine ∧
    caret spot.width spot.head.length = bar ++ Text.replicate spot.head.length ' ' ++ "^" := by
  refine ⟨_, _, ?_, rfl, rfl⟩
  have hdigits : (Text.ofNat spot.number).length ≤ spot.width :=
    Text.length_ofNat_mono (Nat.le_add_right _ _)
  simp [Text.padLeft, Text.replicate, Text.ofString]
  omega

/-- A spot in front of something within a line has it in the line. -/
theorem getElem?_line {c : CodePoint} (hc : ¬ c.EndsLine) (h : spot.behind.head? = some c) :
    spot.shownLine[spot.head.length]? = some c := by
  have hlines := spot.lines_behind
  obtain ⟨rest, hbehind⟩ : ∃ rest, spot.behind = c :: rest := List.head?_eq_some_iff.mp h
  have hlineFeed : c ≠ .scalar '\n' := fun heq => hc (.inl heq)
  have hreturn : decide (c = .scalar '\r') = false := decide_eq_false fun heq => hc (.inr heq)
  obtain ⟨more, htail⟩ : ∃ more, spot.tail = c :: more := by
    rw [hbehind, lines, Text.splitOn, if_neg hlineFeed] at hlines
    split at hlines
    · exact ⟨[], (List.cons.inj hlines).1.symm⟩
    · next part parts _ => exact ⟨part, (List.cons.inj hlines).1.symm⟩
  rw [shownLine, line, htail, Text.dropEndWhile_append_cons hreturn]
  simp

/-- A spot at the end of a source has the end of the line behind it, as it is shown, unless the line
ends in carriage returns. -/
theorem line_of_behind_eq_nil (h : spot.behind = []) : spot.line = spot.head ∧
    (spot.shownLine.length = spot.head.length ↔ spot.head.getLast? ≠ some (.scalar '\r')) := by
  have htail : spot.tail = [] := by
    have hlines := spot.lines_behind
    rw [h] at hlines
    exact (List.cons.inj hlines).1.symm
  have hline : spot.line = spot.head := by rw [line, htail, List.append_nil]
  refine ⟨hline, ?_⟩
  rw [shownLine, hline, Text.length_dropEndWhile_iff]
  cases spot.head.getLast? <;> simp

end Spot

end Excerpt

/-! ## Faults -/

/-- The span of a fault has the number of the line on which it starts, or it is that of an escape and
has the number of the line on which it ends. -/
def ScriptFault.Placed (source : Text) (fault : ScriptFault) (span : Span) : Prop :=
  (∀ c, fault ≠ .scan (.invalidEscape c) span) ∧ span.Placed source ∨
    (∃ c, fault = .scan (.invalidEscape c) span) ∧ span.PlacedAtEnd source

theorem compile_fault_placed {depth : Nat} {source : Text} {fault : ScriptFault} {span : Span}
    (h : compile depth source = .error fault) (hs : fault.span? = some span) :
    fault.Placed source span := by
  obtain ⟨cause, rfl, hread⟩ | ⟨⟨cause, rfl⟩, hplaced⟩ :=
    compile_fault_cases (fun t ht => ht.placed) h hs
  · obtain ⟨hcause, hplaced⟩ | ⟨⟨c, rfl⟩, hplaced⟩ := hread.placed
    · exact .inl ⟨fun c hc => hcause c (ScriptFault.scan.inj hc).1, hplaced⟩
    · exact .inr ⟨⟨c, rfl⟩, hplaced⟩
  · exact .inl ⟨nofun, hplaced⟩

namespace Session

theorem run_fresh_placed {config : Config} {around : Surroundings} {source : Text}
    {fault : ScriptFault} (hf : ((fresh config around).run source).1 = .failure fault) {span : Span}
    (hs : fault.span? = some span) : fault.Placed source span := by
  cases hr : compile (fresh config around).setup.depth source with
  | error found =>
    rw [run_of_compile_error hr] at hf
    obtain rfl := RunResult.failure.inj hf
    exact compile_fault_placed hr hs
  | ok statements =>
    rw [run_of_compile_ok hr] at hf
    have hheld (c : Closure) (hc : ((fresh config around).announced source).world.Holds c) :
        BlockSpansIn (Span.Placed source) c.body :=
      absurd hc (not_holds_fresh config around c)
    obtain ⟨hplaced, cause, rfl⟩ :=
      (runStatements_blames hheld (compile_spansIn (fun t ht => ht.placed) hr)).2 fault span hf hs
    exact .inl ⟨nofun, hplaced⟩

/-- The spot that a fault of a fresh session is blamed on, and the text of its span. -/
theorem exists_spot {config : Config} {around : Surroundings} {source : Text} {fault : ScriptFault}
    (hf : ((fresh config around).run source).1 = .failure fault) {span : Span}
    (hs : fault.span? = some span) :
    ∃ (spot : Excerpt.Spot source span.startByte) (inside rest : Text),
      spot.behind = inside ++ rest ∧ span.endByte = Utf8.size (spot.before ++ inside) ∧
      (∀ c ∈ spot.behind.head?, ¬ c.EndsLine) ∧
      (span.line = spot.number ↔
        ¬ ((∃ c, fault = .scan (.invalidEscape c) span) ∧ .scalar '\n' ∈ inside)) := by
  obtain ⟨hescape, before, inside, rest, ⟨hsource, hstart, hend⟩, hline, hhead⟩ |
    ⟨hescape, before, inside, rest, ⟨hsource, hstart, hend⟩, hline, hhead⟩ := run_fresh_placed hf hs
  · rw [List.append_assoc] at hsource
    obtain ⟨spot, rfl, hbehind⟩ := Excerpt.Spot.exists_of_append hsource hstart
    refine ⟨spot, inside, rest, hbehind, hend, ?_, iff_of_true ?_ ?_⟩
    · rwa [hbehind]
    · rw [spot.number_eq, hline]
    · rintro ⟨⟨c, hc⟩, -⟩
      exact hescape c hc
  · rw [List.append_assoc] at hsource
    obtain ⟨spot, rfl, hbehind⟩ := Excerpt.Spot.exists_of_append hsource hstart
    refine ⟨spot, inside, rest, hbehind, hend, ?_, ?_⟩
    · rw [hbehind, List.head?_append, hhead]
      rintro c hc
      obtain rfl := Option.some.inj hc
      simp [CodePoint.EndsLine]
    · rw [spot.number_eq, hline, List.count_append, not_and, ← List.count_pos_iff]
      constructor
      · intro hcount _
        omega
      · intro hcount
        have := hcount hescape
        omega

theorem run_nil (config : Config) (around : Surroundings) :
    ((fresh config around).run []).1 = .success .null := by
  have hleast : compile leastDepth [] = .ok [] := by cbv
  have hcompile : compile (fresh config around).setup.depth [] = .ok [] :=
    compile_of_le around.machine.roomy hleast
  rw [run_of_compile_ok hcompile]
  rfl

/-- What the report of a fault with a span shows, in a session in which nothing has run. If the span
has the number of the line on which it starts, the report is the message above the excerpt that
points at this place. It has another number for an escape with a line feed in it, and only then. The
caret of the excerpt stands below the code point that starts at the place, or behind the line at the
end of a source; but carriage returns at the end of a line are counted and not shown. -/
theorem report_points {config : Config} {around : Surroundings} {source : Text}
    (hscalar : source.IsScalar) {fault : ScriptFault}
    (hf : ((fresh config around).run source).1 = .failure fault) {span : Span}
    (hs : fault.span? = some span) :
    ∃ (spot : Excerpt.Spot source span.startByte) (inside rest : Text),
      spot.behind = inside ++ rest ∧ span.endByte = Utf8.size (spot.before ++ inside) ∧
      Excerpt.lines source = spot.above ++ spot.line :: spot.below ∧
      (span.line = spot.number ↔
        ¬ ((∃ c, fault = .scan (.invalidEscape c) span) ∧ .scalar '\n' ∈ inside)) ∧
      (span.line = spot.number → report fault.message fault.span? source =
        .ok (fault.message ++ "\n" ++ spot.excerpt)) ∧
      (∃ label bar : Text, label.length = bar.length ∧
        Excerpt.line spot.width spot.number true spot.line = label ++ spot.shownLine ∧
        Excerpt.caret spot.width spot.head.length =
          bar ++ Text.replicate spot.head.length ' ' ++ "^") ∧
      (∀ c, spot.behind.head? = some c → spot.shownLine[spot.head.length]? = some c) ∧
      (spot.behind = [] → spot.line = spot.head ∧
        (spot.shownLine.length = spot.head.length ↔
          spot.head.getLast? ≠ some (.scalar '\r'))) := by
  obtain ⟨spot, inside, rest, hbehind, hend, hhead, hline⟩ := exists_spot hf hs
  refine ⟨spot, inside, rest, hbehind, hend, spot.lines_eq, hline, fun hnumber => ?_,
    spot.exists_labels, fun c hc => spot.getElem?_line (hhead c hc) hc,
    spot.line_of_behind_eq_nil⟩
  have hsource : source.isEmpty = false := by
    cases source with
    | nil =>
      rw [run_nil] at hf
      contradiction
    | cons c source => rfl
  rw [hs, report, hsource, spot.excerpt_eq hscalar hnumber]
  rfl

/-- A fault of scanning on the second line. -/
theorem report_points_secondLine :
    ((fresh quiet .bare).run "a\n  @").1 =
        .failure (.scan (.unexpectedCharacter (.scalar '@')) ⟨4, 5, 2⟩) ∧
      ∃ spot : Excerpt.Spot "a\n  @" 4, spot.number = 2 ∧ report
        (ScriptFault.scan (.unexpectedCharacter (.scalar '@')) ⟨4, 5, 2⟩).message (some ⟨4, 5, 2⟩)
        "a\n  @" = .ok ((ScriptFault.scan (.unexpectedCharacter (.scalar '@')) ⟨4, 5, 2⟩).message
          ++ "\n" ++ spot.excerpt) := by
  have hcompile : compile (fresh quiet .bare).setup.depth "a\n  @" =
      .error (.scan (.unexpectedCharacter (.scalar '@')) ⟨4, 5, 2⟩) := by
    change compile 1500 _ = _
    cbv
  have hf : ((fresh quiet .bare).run "a\n  @").1 =
      .failure (.scan (.unexpectedCharacter (.scalar '@')) ⟨4, 5, 2⟩) := by
    rw [run_of_compile_error hcompile]
  have hscalar : Text.IsScalar "a\n  @" := by
    unfold Text.IsScalar
    decide
  obtain ⟨spot, inside, rest, -, -, -, hline, hreport, -⟩ := report_points hscalar hf rfl
  have hnumber : 2 = spot.number := hline.mpr (by simp)
  exact ⟨hf, spot, hnumber.symm, hreport hnumber⟩

/-- A string with an escape that begins on the first line and has a line feed for its letter. -/
def brokenEscape : Text := "\"\\\n\" x"

/-- It is the second line that is marked. -/
theorem brokenEscape_marks_next :
    ((fresh quiet .bare).run brokenEscape).1 =
        .failure (.scan (.invalidEscape (.scalar '\n')) ⟨1, 3, 2⟩) ∧
      (∃ spot : Excerpt.Spot brokenEscape 1, spot.number = 1 ∧ spot.line = "\"\\") ∧
      excerpt brokenEscape ⟨1, 3, 2⟩ = .ok (some "  1 | \"\\\n> 2 | \" x\n    |  ^") := by
  have hcompile : compile (fresh quiet .bare).setup.depth brokenEscape =
      .error (.scan (.invalidEscape (.scalar '\n')) ⟨1, 3, 2⟩) := by
    change compile 1500 _ = _
    cbv
  refine ⟨?_, ⟨⟨"\"", "\\\n\" x", [], "\"", "\\", ["\" x"], ?_, ?_, ?_, ?_⟩, rfl, rfl⟩, ?_⟩
  · rw [run_of_compile_error hcompile]
  · decide
  · decide
  · decide
  · decide
  · decide +kernel

end Session

end HostScript
