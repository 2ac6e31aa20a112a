import HostScript.Text.Layout
import Mathlib.Data.List.Basic

/-!
# Lines and their ends

Lines are put together to a text by a line end behind each of them, which is a line feed with a
carriage return in front of it, or a line feed alone. Taking the text apart again gives the lines
back (`lines_ended`). What is said of all texts is shown for a text in front of which one more line
is put (`line_induction`).
-/

namespace HostScript.Text

variable {line last s t : Text} {ls : List Text}

/-- Lines, each of them with a line end behind it. -/
def ended (lineEnd : Text) (ls : List Text) : Text := ls.flatMap (· ++ lineEnd)

/-- A line end of two characters. -/
def returnFeed : Text := [.scalar '\r', .scalar '\n']

/-- A line end of one character. -/
def lineFeed : Text := [.scalar '\n']

/-! ## The first line -/

theorem splitOn_of_notMem {c : CodePoint} (h : c ∉ t) : splitOn c t = [t] := by
  induction t with
  | nil => rfl
  | cons d t ih =>
    obtain ⟨hne, hrest⟩ := List.ne_and_not_mem_of_not_mem_cons h
    rw [splitOn, if_neg (Ne.symm hne), ih hrest]

theorem splitOn_append_cons {c : CodePoint} (h : c ∉ s) (t : Text) :
    splitOn c (s ++ c :: t) = s :: splitOn c t := by
  induction s with
  | nil => rw [List.nil_append, splitOn, if_pos rfl]
  | cons d s ih =>
    obtain ⟨hne, hrest⟩ := List.ne_and_not_mem_of_not_mem_cons h
    rw [List.cons_append, splitOn, if_neg (Ne.symm hne), ih hrest]

theorem lines_nil : lines [] = [] := rfl

/-- A text without a line feed is one line. -/
theorem lines_of_notMem (hne : t ≠ []) (h : .scalar '\n' ∉ t) : lines t = [dropReturn t] := by
  rw [lines, splitOn_of_notMem h]
  simp [hne]

/-- What stands in front of the first line feed is the first line. -/
theorem lines_append_cons (h : .scalar '\n' ∉ s) (t : Text) :
    lines (s ++ .scalar '\n' :: t) = dropReturn s :: lines t := by
  have hne := splitOn_ne_nil (.scalar '\n') t
  rw [lines, lines, splitOn_append_cons h]
  rw [List.getLast?_cons_of_ne_nil hne, List.dropLast_cons_of_ne_nil hne]
  split
  · rw [List.map_cons]
  · rw [List.map_cons]

/-- Every text is empty, one line without an end, or a line with its end in front of a text. -/
@[elab_as_elim]
theorem line_induction {motive : Text → Prop} (nil : motive [])
    (last : ∀ t, t ≠ [] → .scalar '\n' ∉ t → motive t)
    (line : ∀ s t, .scalar '\n' ∉ s → motive t → motive (s ++ .scalar '\n' :: t)) (t : Text) :
    motive t := by
  induction hn : t.length using Nat.strongRecOn generalizing t with
  | ind n ih =>
    by_cases hmem : CodePoint.scalar '\n' ∈ t
    · obtain ⟨s, rest, rfl, hs⟩ := List.eq_append_cons_of_mem hmem
      refine line s rest hs (ih rest.length ?_ rest rfl)
      rw [← hn, List.length_append, List.length_cons]
      omega
    · by_cases hne : t = []
      · rwa [hne]
      · exact last t hne hmem

/-! ## Joining -/

theorem dropReturn_append_return (line : Text) : dropReturn (line ++ [.scalar '\r']) = line := by
  simp [dropReturn]

theorem dropReturn_of_ne (h : line.getLast? ≠ some (.scalar '\r')) : dropReturn line = line :=
  if_neg h

/-- Lines with their ends in front of a text are the first lines of the whole, if each is what is
left when the end is taken away. -/
theorem lines_ended_append (front : Text) (hfront : .scalar '\n' ∉ front)
    (hls : ∀ l ∈ ls, .scalar '\n' ∉ l)
    (hback : ∀ l ∈ ls, dropReturn (l ++ front) = l) (t : Text) :
    lines (ended (front ++ [.scalar '\n']) ls ++ t) = ls ++ lines t := by
  induction ls with
  | nil => rfl
  | cons line ls ih =>
    obtain ⟨hline, hls⟩ := List.forall_mem_cons.mp hls
    obtain ⟨hfirst, hback⟩ := List.forall_mem_cons.mp hback
    have hsplit : ended (front ++ [.scalar '\n']) (line :: ls) ++ t =
        line ++ front ++ .scalar '\n' :: (ended (front ++ [.scalar '\n']) ls ++ t) := by
      simp [ended]
    have hnone : CodePoint.scalar '\n' ∉ line ++ front := by simp [hline, hfront]
    rw [hsplit, lines_append_cons hnone, hfirst, ih hls hback, List.cons_append]

/-- Lines are given back that are put together, and so they are without the end of the last one, if
this is not empty and does not itself end in a carriage return. -/
theorem lines_of_ended (front : Text) (hfront : .scalar '\n' ∉ front)
    (hls : ∀ l ∈ ls, .scalar '\n' ∉ l)
    (hback : ∀ l ∈ ls, dropReturn (l ++ front) = l) :
    lines (ended (front ++ [.scalar '\n']) ls) = ls ∧
      ∀ last t, ls.getLast? = some last → last ≠ [] → last.getLast? ≠ some (.scalar '\r') →
        t ++ (front ++ [.scalar '\n']) = ended (front ++ [.scalar '\n']) ls → lines t = ls := by
  constructor
  · have hall := lines_ended_append front hfront hls hback []
    rwa [List.append_nil, lines_nil, List.append_nil] at hall
  · intro last t hlast hne hreturn ht
    obtain ⟨init, rfl⟩ := List.getLast?_eq_some_iff.mp hlast
    obtain ⟨hinit, hend⟩ := List.forall_mem_append.mp hls
    have hbegin := (List.forall_mem_append.mp hback).1
    have heq : t = ended (front ++ [.scalar '\n']) init ++ last := by
      have hends : t ++ (front ++ [.scalar '\n']) =
          ended (front ++ [.scalar '\n']) init ++ last ++ (front ++ [.scalar '\n']) := by
        rw [ht]
        simp [ended]
      exact List.append_cancel_right hends
    rw [heq, lines_ended_append front hfront hinit hbegin,
      lines_of_notMem hne (hend last List.mem_cons_self), dropReturn_of_ne hreturn]

/-! ## All texts -/

theorem notMem_of_mem_lines (h : line ∈ lines t) : .scalar '\n' ∉ line := by
  have hdrop {s : Text} (hs : .scalar '\n' ∉ s) : .scalar '\n' ∉ dropReturn s := by
    unfold dropReturn
    split
    · exact fun hmem => hs (List.dropLast_subset s hmem)
    · exact hs
  induction t using line_induction with
  | nil => exact absurd h List.not_mem_nil
  | last t hne ht =>
    rw [lines_of_notMem hne ht] at h
    obtain rfl := List.mem_singleton.mp h
    exact hdrop ht
  | line s t hs ih =>
    rw [lines_append_cons hs] at h
    rcases List.mem_cons.mp h with rfl | h
    · exact hdrop hs
    · exact ih h

/-- There are as many lines as line feeds, and one more if something stands behind the last one. -/
theorem length_lines (t : Text) : (lines t).length =
    t.count (.scalar '\n') + if t ≠ [] ∧ t.getLast? ≠ some (.scalar '\n') then 1 else 0 := by
  induction t using line_induction with
  | nil => rfl
  | last t hne ht =>
    have hlast : t.getLast? ≠ some (.scalar '\n') := fun h => ht (List.mem_of_getLast? h)
    rw [lines_of_notMem hne ht, if_pos ⟨hne, hlast⟩, List.count_eq_zero_of_not_mem ht]
    rfl
  | line s t hs ih =>
    have hcount : (s ++ .scalar '\n' :: t).count (.scalar '\n') = t.count (.scalar '\n') + 1 := by
      rw [List.count_append, List.count_eq_zero_of_not_mem hs, List.count_cons_self, Nat.zero_add]
    rw [lines_append_cons hs, List.length_cons, ih, hcount]
    cases t with
    | nil => simp
    | cons c t =>
      simp [List.getLast?_append, List.getLast?_cons_cons]
      omega

/-- Taking a text apart undoes putting lines together that have no line feeds in them: by line feeds
with carriage returns whatever the lines are, and by line feeds alone if no line ends in a carriage
return. The end of the last line may be left out, if the line is not empty and does not end in a
carriage return. Whatever text is taken apart, no line has a line feed in it, and there is one line
for each line feed, and one more if the text does not end with one, and is not empty. -/
theorem lines_ended :
    (∀ ls : List Text, (∀ l ∈ ls, .scalar '\n' ∉ l) →
      (lines (ended returnFeed ls) = ls ∧
        ∀ last t, ls.getLast? = some last → last ≠ [] → last.getLast? ≠ some (.scalar '\r') →
          t ++ returnFeed = ended returnFeed ls → lines t = ls) ∧
      ((∀ l ∈ ls, l.getLast? ≠ some (.scalar '\r')) →
        lines (ended lineFeed ls) = ls ∧
        ∀ last t, ls.getLast? = some last → last ≠ [] →
          t ++ lineFeed = ended lineFeed ls → lines t = ls)) ∧
    ∀ t : Text, (∀ line ∈ lines t, .scalar '\n' ∉ line) ∧
      (lines t).length =
        t.count (.scalar '\n') + if t ≠ [] ∧ t.getLast? ≠ some (.scalar '\n') then 1 else 0 := by
  refine ⟨fun ls hls => ⟨?_, fun hreturn => ?_⟩,
    fun t => ⟨fun _ h => notMem_of_mem_lines h, length_lines t⟩⟩
  · exact lines_of_ended [.scalar '\r'] (by simp) hls fun l _ =>
      dropReturn_append_return l
  · have hback : ∀ l ∈ ls, dropReturn (l ++ []) = l := by
      intro l hl
      rw [List.append_nil]
      exact dropReturn_of_ne (hreturn l hl)
    obtain ⟨hall, hlast⟩ := lines_of_ended [] List.not_mem_nil hls hback
    refine ⟨hall, fun last t hls hne => hlast last t hls hne ?_⟩
    exact hreturn last (List.mem_of_getLast? hls)

/-- A line that ends in a carriage return, an empty line and a last line without an end. -/
theorem lines_ended_threeLines :
    let ls := [ofString "a\r", [], ofString "b"]
    lines (ofString "a\r\r\n\r\nb\r\n") = ls ∧ lines (ofString "a\r\r\n\r\nb") = ls ∧
      lines (ofString "\nb\n") = ls.drop 1 ∧ lines (ofString "\nb") = ls.drop 1 ∧
      (lines (ofString "\nb")).length = 2 := by
  intro ls
  obtain ⟨hwhole, hopen⟩ := (lines_ended.1 ls (by decide +kernel)).1
  obtain ⟨hwhole', hopen'⟩ :=
    (lines_ended.1 (ls.drop 1) (by decide +kernel)).2 (by decide +kernel)
  refine ⟨hwhole, ?_, hwhole', ?_, (lines_ended.2 (ofString "\nb")).2⟩
  · exact hopen (ofString "b") _ rfl (by decide +kernel) (by decide +kernel) (by decide +kernel)
  · exact hopen' (ofString "b") _ rfl (by decide +kernel) (by decide +kernel)

end HostScript.Text
