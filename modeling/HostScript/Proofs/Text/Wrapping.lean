import HostScript.Text.Layout
import Mathlib.Data.Int.Notation
import Mathlib.Data.List.Chain
import Mathlib.Data.List.Forall2

/-!
# Broken lines

Wrapping breaks each line of a text into pieces (`wrap_pieces`). The pieces of a line are the line
again when they are joined, each of them fits into the width or is a single character that is wider,
and no piece ends where the next character would still fit (`IsBroken`). There is only one way to
break a line like this (`IsBroken.eq`).
-/

namespace HostScript.Text

variable {limit : ℤ} {line rest current piece : Text} {pieces pieces' : List Text} {used : ℕ}

/-- A piece has its place on one line: it fits, or it is a single character wider than the line. -/
def Fits (limit : ℤ) (piece : Text) : Prop :=
  piece.width ≤ limit ∨ ∃ c : CodePoint, piece = [c] ∧ limit < c.width

/-- What goes on after a piece begins with a character that does not fit behind the piece. -/
def Overflows (limit : ℤ) (piece rest : Text) : Prop :=
  ∀ c ∈ rest.head?, limit < (piece.width + c.width : ℕ)

theorem overflows_nil (limit : ℤ) (piece : Text) : Overflows limit piece [] := nofun

theorem overflows_cons {c : CodePoint} :
    Overflows limit piece (c :: rest) ↔ limit < (piece.width + c.width : ℕ) := by
  simp [Overflows]

/-- The pieces of a line: all of the line and nothing else, no empty piece, each piece with its
place on one line, and as much in each piece as fits. -/
structure IsBroken (limit : ℤ) (line : Text) (pieces : List Text) : Prop where
  joined : pieces.flatten = line
  nonempty : [] ∉ pieces
  fits : ∀ piece ∈ pieces, Fits limit piece
  greedy : pieces.IsChain (Overflows limit)

/-- What is shown of a line: one empty piece if it is empty, and otherwise its pieces. -/
inductive IsWrapped (limit : ℤ) : Text → List Text → Prop
  | empty : IsWrapped limit [] [[]]
  | broken {line : Text} {pieces : List Text} (hline : line ≠ [])
    (h : IsBroken limit line pieces) : IsWrapped limit line pieces

namespace IsBroken

theorem nil (limit : ℤ) : IsBroken limit [] [] :=
  ⟨rfl, List.not_mem_nil, nofun, .nil⟩

/-- What follows a piece begins as the next piece does. -/
theorem overflows_iff (h : IsBroken limit rest pieces) :
    (∀ next ∈ pieces.head?, Overflows limit piece next) ↔ Overflows limit piece rest := by
  obtain ⟨rfl, hnonempty, -, -⟩ := h
  cases pieces with
  | nil => exact iff_of_true nofun (overflows_nil limit piece)
  | cons next pieces =>
    cases next with
    | nil => exact absurd List.mem_cons_self hnonempty
    | cons c next => simp [overflows_cons]

/-- A piece in front of the pieces of a rest. -/
theorem cons (hpiece : piece ≠ []) (hfits : Fits limit piece) (hnext : Overflows limit piece rest)
    (h : IsBroken limit rest pieces) : IsBroken limit (piece ++ rest) (piece :: pieces) where
  joined := by rw [List.flatten_cons, h.joined]
  nonempty hmem := by
    rcases List.mem_cons.mp hmem with heq | hmem
    · exact hpiece heq.symm
    · exact h.nonempty hmem
  fits := List.forall_mem_cons.mpr ⟨hfits, h.fits⟩
  greedy := List.isChain_cons.mpr ⟨h.overflows_iff.mpr hnext, h.greedy⟩

theorem exists_rest (h : IsBroken limit line (piece :: pieces)) :
    ∃ rest, line = piece ++ rest ∧ piece ≠ [] ∧ Fits limit piece ∧ Overflows limit piece rest ∧
      IsBroken limit rest pieces := by
  obtain ⟨hhead, hchain⟩ := List.isChain_cons.mp h.greedy
  have hrest : IsBroken limit pieces.flatten pieces :=
    ⟨rfl, fun hmem => h.nonempty (List.mem_cons_of_mem _ hmem),
      fun other hmem => h.fits other (List.mem_cons_of_mem _ hmem), hchain⟩
  refine ⟨pieces.flatten, h.joined.symm, ?_, h.fits piece List.mem_cons_self,
    hrest.overflows_iff.mp hhead, hrest⟩
  rintro rfl
  exact h.nonempty List.mem_cons_self

/-! ## The only way -/

/-- A piece that has its place does not go on past one that was filled up. -/
theorem eq_nil_of_overflows {more : Text} (hpiece : piece ≠ []) (hfits : Fits limit (piece ++ more))
    (hnext : Overflows limit piece (more ++ rest)) : more = [] := by
  cases more with
  | nil => rfl
  | cons c more =>
    have hover := overflows_cons.mp hnext
    obtain hwidth | ⟨d, hsingle, -⟩ := hfits
    · rw [width_append, width_cons] at hwidth
      omega
    · -- a single character cannot be a nonempty piece with something behind it
      have hlength := congrArg List.length hsingle
      have hpos := List.length_pos_of_ne_nil hpiece
      simp at hlength
      omega

/-- A line has only one list of pieces. -/
theorem eq (h : IsBroken limit line pieces) (h' : IsBroken limit line pieces') :
    pieces = pieces' := by
  induction pieces generalizing line pieces' with
  | nil =>
    cases pieces' with
    | nil => rfl
    | cons piece' pieces' =>
      obtain ⟨rest', hline, hpiece', -⟩ := h'.exists_rest
      have hempty : [] = piece' ++ rest' := h.joined.trans hline
      exact absurd (List.append_eq_nil_iff.mp hempty.symm).1 hpiece'
  | cons piece pieces ih =>
    obtain ⟨rest, hline, hpiece, hfits, hnext, hrest⟩ := h.exists_rest
    cases pieces' with
    | nil =>
      have hempty : [] = piece ++ rest := h'.joined.trans hline
      exact absurd (List.append_eq_nil_iff.mp hempty.symm).1 hpiece
    | cons piece' pieces' =>
      obtain ⟨rest', hline', hpiece', hfits', hnext', hrest'⟩ := h'.exists_rest
      -- of the two first pieces one begins with the other
      rcases List.append_eq_append_iff.mp (hline.symm.trans hline') with
        ⟨more, rfl, rfl⟩ | ⟨more, rfl, rfl⟩
      · obtain rfl := eq_nil_of_overflows hpiece hfits' hnext
        rw [List.nil_append] at hrest
        rw [List.append_nil, ih hrest hrest']
      · obtain rfl := eq_nil_of_overflows hpiece' hfits hnext'
        rw [List.nil_append] at hrest'
        rw [List.append_nil, ih hrest hrest']

end IsBroken

/-! ## Wrapping -/

/-- The piece that is being filled stands in front of the pieces of the rest, unless it is empty. -/
theorem IsBroken.close (hfits : current.width ≤ limit) (hnext : Overflows limit current rest)
    (h : IsBroken limit rest pieces) :
    IsBroken limit (current ++ rest) ((if current.isEmpty then [] else [current]) ++ pieces) := by
  cases current with
  | nil => exact h
  | cons c current => exact h.cons (List.cons_ne_nil c current) (.inl hfits) hnext

/-- A line that goes on after a piece which is being filled is broken into pieces. -/
theorem isBroken_wrapAfter (hfits : current.width ≤ limit) (line : Text) :
    IsBroken limit (current ++ line) (wrapAfter limit current current.width line) := by
  induction line generalizing current with
  | nil =>
    have hclose := (IsBroken.nil limit).close hfits (overflows_nil limit current)
    rwa [List.append_nil (if current.isEmpty then [] else [current])] at hclose
  | cons c rest ih =>
    have hwidth : width [c] = c.width := Nat.add_zero c.width
    rw [wrapAfter]
    by_cases hwide : limit < c.width
    · -- a character that is wider than the line ends the piece before it and is one itself
      have hrest : IsBroken limit ([] ++ rest) (wrapAfter limit [] 0 rest) :=
        ih (by rw [width_nil]; omega)
      have hbehind : Overflows limit [c] rest := fun d _ => by omega
      have hbefore : Overflows limit current (c :: rest) := overflows_cons.mpr (by omega)
      rw [if_pos hwide]
      exact (hrest.cons (List.cons_ne_nil c []) (.inr ⟨c, rfl, hwide⟩) hbehind).close hfits hbefore
    · rw [if_neg hwide]
      by_cases hover : limit < (current.width + c.width : ℕ)
      · -- the character does not fit any more, so the piece is not empty
        have hcurrent : current ≠ [] := by
          rintro rfl
          rw [width_nil] at hover
          omega
        have hrest : IsBroken limit ([c] ++ rest) (wrapAfter limit [c] c.width rest) :=
          hwidth ▸ ih (by omega)
        rw [if_pos hover]
        exact hrest.cons hcurrent (.inl hfits) (overflows_cons.mpr hover)
      · have hlonger : width (current ++ [c]) = current.width + c.width := by
          rw [width_append, hwidth]
        rw [if_neg hover, ← hlonger, List.append_cons]
        exact ih (by omega)

/-- A line is wrapped into its pieces, and into nothing else. -/
theorem isWrapped_iff (hlimit : 0 ≤ limit) :
    IsWrapped limit line pieces ↔ pieces = wrapLine limit line := by
  unfold wrapLine
  cases line with
  | nil =>
    constructor
    · rintro (_ | ⟨hline, -⟩)
      · rfl
      · exact absurd rfl hline
    · rintro rfl
      exact .empty
  | cons c rest =>
    have hbroken : IsBroken limit ([] ++ c :: rest) (wrapAfter limit [] 0 (c :: rest)) :=
      isBroken_wrapAfter hlimit (c :: rest)
    constructor
    · rintro (_ | ⟨-, h⟩)
      exact h.eq hbroken
    · rintro rfl
      exact .broken (List.cons_ne_nil c rest) hbroken

/-- Wrapping puts the pieces of each line one after another, in the order of the lines. No line can
be broken into other pieces. -/
theorem wrap_pieces (hlimit : 1 ≤ limit) (t : Text) :
    ∃ pieces : List (List Text), wrap limit t = pieces.flatten ∧
      List.Forall₂ (IsWrapped limit) (lines t) pieces ∧
      ∀ pieces', List.Forall₂ (IsWrapped limit) (lines t) pieces' → pieces' = pieces := by
  have hpieces (pieces : List (List Text)) : List.Forall₂ (IsWrapped limit) (lines t) pieces ↔
      pieces = (lines t).map (wrapLine limit) := by
    have hwrapped : IsWrapped limit = fun line pieces => wrapLine limit line = pieces :=
      funext₂ fun line pieces => propext ((isWrapped_iff (by omega)).trans eq_comm)
    rw [hwrapped, ← List.forall₂_map_left_iff (R := Eq), List.forall₂_eq_eq_eq, eq_comm]
  refine ⟨(lines t).map (wrapLine limit), ?_, (hpieces _).mpr rfl, fun _ h => (hpieces _).mp h⟩
  rw [wrap, if_neg (by omega), List.flatMap_def]

/-- A character that is wider than the line, one that attaches to it, and an empty line. -/
theorem wrap_pieces_tooWide :
    ∃ pieces, List.Forall₂ (IsWrapped 1) (lines "a日\u0301\n\n") pieces ∧
      pieces.flatten = ["a", "日", "\u0301", ""] := by
  obtain ⟨pieces, hwrap, hpieces, -⟩ := wrap_pieces (Int.le_refl 1) "a日\u0301\n\n"
  refine ⟨pieces, hpieces, hwrap.symm.trans ?_⟩
  decide +kernel

end HostScript.Text
