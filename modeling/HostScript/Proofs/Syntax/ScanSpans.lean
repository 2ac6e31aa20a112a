import HostScript.Session.Excerpt
import HostScript.Syntax.Scan

/-!
# The spans of scanned tokens

Every token that scanning finds, and every fault that it reports, lies in the source: between two
of its bytes and on one of its lines (`scan_spans`, `scan_fault_span`).
-/

namespace HostScript

/-- A span is a place in a source: its bytes are bytes of the source, and its line is one of the
lines that an excerpt can show. -/
def Span.In (source : Text) (span : Span) : Prop :=
  span.startByte ≤ span.endByte ∧ span.endByte ≤ Utf8.size source ∧ 1 ≤ span.line ∧
    span.line ≤ (Excerpt.lines source).length

instance (source : Text) (span : Span) : Decidable (span.In source) := by
  unfold Span.In
  infer_instance

/-- The last token of a list is the end of the input. -/
def Token.Ended (tokens : List Token) : Prop :=
  ∃ body last, tokens = body ++ [last] ∧ last.lexeme = .endOfInput

theorem Token.Ended.cons {tokens : List Token} (h : Ended tokens) (t : Token) :
    Ended (t :: tokens) := by
  obtain ⟨body, last, rfl, hlast⟩ := h
  exact ⟨t :: body, last, rfl, hlast⟩

theorem Text.length_splitOn (c : CodePoint) (t : Text) :
    (splitOn c t).length = t.count c + 1 := by
  induction t with
  | nil => rfl
  | cons d rest ih =>
    by_cases h : d = c
    · simp [splitOn, h, ih]
    · cases hs : splitOn c rest with
      | nil => exact absurd hs (splitOn_ne_nil c rest)
      | cons part parts =>
        rw [hs] at ih
        simpa [splitOn, h, hs] using ih

namespace Position

theorem start_advance (t : Text) :
    start.advance t = ⟨Utf8.size t, t.count (.scalar '\n') + 1⟩ := by
  have hb := advance_byte start t
  have hl := advance_line start t
  simp only [start, Nat.zero_add, Nat.add_comm 1] at hb hl
  rw [← hb, ← hl]
  rfl

end Position

/-- What stands between two positions of a source lies in it. -/
theorem span_in_of_append {source before inside : Text} {after : Text} {line : Nat}
    (h : source = before ++ inside ++ after) (hl : 1 ≤ line)
    (hle : line ≤ (before ++ inside).count (.scalar '\n') + 1) :
    Span.In source ⟨Utf8.size before, Utf8.size (before ++ inside), line⟩ := by
  subst h
  refine ⟨?_, ?_, hl, ?_⟩
  · rw [Utf8.size_append]
    exact Nat.le_add_right _ _
  · rw [Utf8.size_append (before ++ inside)]
    exact Nat.le_add_right _ _
  · rw [Excerpt.lines, Text.length_splitOn, List.count_append]
    exact Nat.le_trans hle (Nat.succ_le_succ (Nat.le_add_right _ _))

theorem spanTo_in {source before inside after : Text} (h : source = before ++ inside ++ after) :
    ((Position.start.advance before).spanTo
      ((Position.start.advance before).advance inside)).In source := by
  rw [← Position.advance_append, Position.start_advance, Position.start_advance]
  refine span_in_of_append h (Nat.succ_le_succ (Nat.zero_le _)) ?_
  rw [List.count_append]
  exact Nat.succ_le_succ (Nat.le_add_right _ _)

theorem faultSpan_in {source before inside after : Text} (h : source = before ++ inside ++ after)
    (skip : Nat) : (faultSpan (Position.start.advance before) inside skip).In source := by
  simp only [faultSpan]
  split
  · exact spanTo_in h
  · rw [← Position.advance_append, ← Position.advance_append, Position.start_advance,
      Position.start_advance]
    have hsplit : before ++ inside = before ++ inside.take skip ++ inside.drop skip := by
      rw [List.append_assoc, List.take_append_drop]
    rw [hsplit] at h ⊢
    exact span_in_of_append h (Nat.succ_le_succ (Nat.zero_le _)) (Nat.le_refl _)

/-- A token is read from a place in a source, or it is the end of the input. -/
inductive Token.ReadIn (source : Text) : Token → Prop
  | piece {before rest : Text} {c : CodePoint} {value : Lexeme} {more : Nat}
      (h : source = before ++ c :: rest) (hread : Piece.read c rest = .lexeme value more) :
      ReadIn source ⟨value, (Position.start.advance before).spanTo
        ((Position.start.advance before).advance (c :: rest.take more))⟩
  | endOfInput : ReadIn source
      ⟨.endOfInput, (Position.start.advance source).spanTo (Position.start.advance source)⟩

/-- A fault is read from a place in a source, and has the span of what was read. -/
inductive ScanFault.ReadIn (source : Text) : ScanFault → Span → Prop
  | piece {before rest : Text} {c : CodePoint} {cause : ScanFault} {skip more : Nat}
      (h : source = before ++ c :: rest) (hread : Piece.read c rest = .fault cause skip more) :
      ReadIn source cause (faultSpan (Position.start.advance before) (c :: rest.take more) skip)

/-- What is known of a scan of the rest of a source: where its tokens or its fault are read. -/
def ScanReads (source : Text) : Except ScanHalt (List Token) → Prop
  | .ok tokens => (∀ t ∈ tokens, t.ReadIn source) ∧ Token.Ended tokens
  | .error (.fault cause span) => cause.ReadIn source span
  | .error (.unencodable _) => True

theorem scanFrom_reads (source before rest : Text) (h : source = before ++ rest) :
    ScanReads source (scanFrom (Position.start.advance before) rest) := by
  induction hn : rest.length using Nat.strongRecOn generalizing before rest with
  | ind n ih =>
    cases rest with
    | nil =>
      rw [scanFrom]
      obtain rfl : source = before := by simpa using h
      refine ⟨fun t ht => ?_, [], _, rfl, rfl⟩
      obtain rfl := List.mem_singleton.mp ht
      exact .endOfInput
    | cons c rest =>
      rw [scanFrom]
      have hread : source = before ++ (c :: rest.take (Piece.read c rest).more) ++
          rest.drop (Piece.read c rest).more := by
        rw [List.append_assoc, List.cons_append, List.take_append_drop]
        exact h
      -- the scan goes on behind the piece
      have hnext (more : Nat) (hmore : (Piece.read c rest).more = more) :
          ScanReads source (scanFrom ((Position.start.advance before).advance
            (c :: rest.take more)) (rest.drop more)) := by
        subst hmore
        rw [← Position.advance_append]
        refine ih _ ?_ _ _ hread rfl
        rw [← hn, List.length_drop, List.length_cons]
        omega
      split
      · trivial
      · split
        · next more hp =>
          rw [hp] at hnext ⊢
          exact hnext more rfl
        · next value more hp =>
          have hrest := hnext more (by rw [hp]; rfl)
          rw [hp]
          dsimp only [Piece.more]
          cases hs : scanFrom ((Position.start.advance before).advance (c :: rest.take more))
            (rest.drop more) with
          | error halt =>
            rw [hs] at hrest
            exact hrest
          | ok tokens =>
            rw [hs] at hrest
            obtain ⟨hin, hended⟩ := hrest
            exact ⟨List.forall_mem_cons.mpr ⟨.piece h hp, hin⟩, hended.cons _⟩
        · next cause skip more hp =>
          rw [hp]
          exact .piece h hp

theorem scan_reads (source : Text) : ScanReads source (scan source) :=
  scanFrom_reads source [] source rfl

theorem Token.ReadIn.span_in {source : Text} {t : Token} (h : t.ReadIn source) :
    t.span.In source := by
  cases h with
  | @piece before rest c value more h =>
    have hsplit : source = before ++ (c :: rest.take more) ++ rest.drop more := by
      rw [List.append_assoc, List.cons_append, List.take_append_drop, h]
    exact spanTo_in hsplit
  | endOfInput =>
    have hsplit : source = source ++ [] ++ [] := by simp
    exact spanTo_in hsplit

theorem ScanFault.ReadIn.span_in {source : Text} {cause : ScanFault} {span : Span}
    (h : cause.ReadIn source span) : span.In source := by
  cases h with
  | @piece before rest c _ skip more h =>
    have hsplit : source = before ++ (c :: rest.take more) ++ rest.drop more := by
      rw [List.append_assoc, List.cons_append, List.take_append_drop, h]
    exact faultSpan_in hsplit skip

/-- The tokens of a source lie in it, and the last of them is the end of the input. -/
theorem scan_spans {source : Text} {tokens : List Token} (h : scan source = .ok tokens) :
    (∀ t ∈ tokens, t.span.In source) ∧ Token.Ended tokens := by
  have hs := scan_reads source
  rw [h] at hs
  exact ⟨fun t ht => (hs.1 t ht).span_in, hs.2⟩

/-- The fault of a source lies in it. -/
theorem scan_fault_span {source : Text} {cause : ScanFault} {span : Span}
    (h : scan source = .error (.fault cause span)) : span.In source := by
  have hs := scan_reads source
  rw [h] at hs
  exact hs.span_in

end HostScript
