import HostScript.Library.Call
import HostScript.Proofs.Number.Truncation

/-!
# Windows

A viewport shows some of the wrapped lines of a text. Counted from the top, the windows that follow
each other at the height of the viewport show each line once (`flatten_windows`). Counted from the
bottom, a window ends in front of the lines that are left out there, and if it is full, then it is
the one that is counted from the top to the same place (`window_bottom_eq_top`).
-/

namespace HostScript

namespace Text

variable {height k : ℕ} {rows : List Text}

/-! ## The end of a list -/

theorem takeLast_suffix (n : ℕ) (rows : List Text) : takeLast n rows <:+ rows :=
  List.drop_suffix _ rows

theorem length_takeLast (n : ℕ) (rows : List Text) :
    (takeLast n rows).length = min n rows.length := by
  rw [takeLast, List.length_drop]
  omega

/-! ## Windows of a list -/

theorem window_top (height s : ℕ) (rows : List Text) :
    window height s rows = (rows.drop s).take height := by
  rw [window, if_pos (Int.natCast_nonneg s), Int.toNat_natCast]

theorem window_bottom (height k : ℕ) (rows : List Text) :
    window height (-1 - k) rows = takeLast height (rows.take (rows.length - k)) := by
  have hhidden : (-(-1 - (k : ℤ)) - 1).toNat = k := by omega
  rw [window, if_neg (by omega), hhidden]

/-- A scroll position is counted from the top or from the bottom. -/
theorem scroll_cases (scroll : ℤ) : (∃ s : ℕ, scroll = s) ∨ ∃ k : ℕ, scroll = -1 - k := by
  by_cases h : 0 ≤ scroll
  · exact .inl ⟨scroll.toNat, by omega⟩
  · exact .inr ⟨(-1 - scroll).toNat, by omega⟩

theorem window_isInfix (height : ℕ) (scroll : ℤ) (rows : List Text) :
    window height scroll rows <:+: rows := by
  rcases scroll_cases scroll with ⟨s, rfl⟩ | ⟨k, rfl⟩
  · rw [window_top]
    exact (List.take_prefix height _).isInfix.trans (List.drop_suffix s rows).isInfix
  · rw [window_bottom]
    exact (takeLast_suffix height _).isInfix.trans (List.take_prefix _ rows).isInfix

theorem length_window_top (height s : ℕ) (rows : List Text) :
    (window height s rows).length = min height (rows.length - s) := by
  rw [window_top, List.length_take, List.length_drop]

theorem length_window_bottom (height k : ℕ) (rows : List Text) :
    (window height (-1 - k) rows).length = min height (rows.length - k) := by
  rw [window_bottom, length_takeLast, List.length_take]
  omega

theorem length_window_le (height : ℕ) (scroll : ℤ) (rows : List Text) :
    (window height scroll rows).length ≤ height := by
  rcases scroll_cases scroll with ⟨s, rfl⟩ | ⟨k, rfl⟩
  · rw [length_window_top]
    omega
  · rw [length_window_bottom]
    omega

/-- The windows that follow each other from the top show the lines one after another. -/
theorem flatten_windows (height m : ℕ) (rows : List Text) :
    ((List.range m).flatMap fun i => window height (i * height : ℕ) rows) =
      rows.take (m * height) := by
  induction m with
  | zero => simp
  | succ m ih =>
    rw [List.range_succ, List.flatMap_append, ih, List.flatMap_singleton, window_top, Nat.succ_mul,
      List.take_add]

/-- A full window that is counted from the bottom is counted from the top, too. -/
theorem window_bottom_eq_top (h : k + height ≤ rows.length) :
    window height (-1 - k) rows = window height (rows.length - k - height : ℕ) rows := by
  have hshown : rows.length - k - (rows.length - k - height) = height := by omega
  rw [window_bottom, window_top, takeLast, List.length_take, Nat.min_eq_left (Nat.sub_le _ _),
    List.drop_take, hshown]

/-! ## Viewports -/

/-- The wrapped lines that a viewport shows at a scroll position. -/
def shown (width : ℤ) (height : ℕ) (scroll : ℤ) (t : Text) : List Text :=
  window height scroll (wrap width t)

theorem viewport_eq_join {width : ℤ} (hwidth : 1 ≤ width) (hheight : 1 ≤ height) (scroll : ℤ)
    (t : Text) :
    t.viewport width height scroll = join [.scalar '\n'] (shown width height scroll t) := by
  rw [viewport, if_neg (by omega), Int.toNat_natCast, shown]

/-- The function of the library shows the viewport of the numbers rounded toward zero. -/
theorem run_renderViewport (setup : Setup) (t : Text) {x y z : Float} {q r s : ℚ}
    (hx : Number.value? x = some q) (hy : Number.value? y = some r)
    (hz : Number.value? z = some s) (w : World) :
    (StandardFunction.call setup .renderViewport
        [.string t, .number x, .number y, .number z]).run w =
      (.ok (.string (t.viewport (Number.towardZero q) (Number.towardZero r)
        (Number.towardZero s))), w) := by
  change (Except.ok (Value.rendered t x y z), w) = _
  simp only [Value.rendered, Number.truncate?_eq, hx, hy, hz, Option.map_some]

/-- The text of a viewport is made of successive wrapped lines, at most as many as it is high. From
the top it shows those from the scroll position on, and the windows that follow each other show each
line once. From the bottom it shows the last ones of those that are not left out, which is the same
text as from the top if it is full. The function of the library rounds its numbers toward zero. -/
theorem viewport_shows {width : ℤ} {height : ℕ} (hwidth : 1 ≤ width) (hheight : 1 ≤ height)
    (t : Text) :
    (∀ scroll, t.viewport width height scroll =
        join [.scalar '\n'] (shown width height scroll t) ∧
      shown width height scroll t <:+: wrap width t ∧
      (shown width height scroll t).length ≤ height) ∧
    (∀ s : ℕ, shown width height s t = ((wrap width t).drop s).take height) ∧
    (∀ m : ℕ, (wrap width t).length ≤ m * height →
      ((List.range m).flatMap fun i => shown width height (i * height : ℕ) t) = wrap width t) ∧
    (∀ k : ℕ,
      shown width height (-1 - k) t <:+ (wrap width t).take ((wrap width t).length - k) ∧
      (shown width height (-1 - k) t).length = min height ((wrap width t).length - k) ∧
      ((wrap width t).length ≤ k → shown width height (-1 - k) t = []) ∧
      (k + height ≤ (wrap width t).length → t.viewport width height (-1 - k) =
        t.viewport width height ((wrap width t).length - k - height : ℕ))) ∧
    ∀ (setup : Setup) (x y z : Float) (q r s : ℚ) (w : World), Number.value? x = some q →
      Number.value? y = some r → Number.value? z = some s →
      (StandardFunction.call setup .renderViewport
          [.string t, .number x, .number y, .number z]).run w =
        (.ok (.string (t.viewport (Number.towardZero q) (Number.towardZero r)
          (Number.towardZero s))), w) := by
  refine ⟨fun scroll => ⟨viewport_eq_join hwidth hheight scroll t, window_isInfix _ _ _,
      length_window_le _ _ _⟩, fun s => window_top _ _ _, fun m hm => ?_, fun k => ⟨?_, ?_, ?_, ?_⟩,
    fun setup x y z q r s w hx hy hz => run_renderViewport setup t hx hy hz w⟩
  · exact (flatten_windows _ _ _).trans (List.take_of_length_le hm)
  · rw [shown, window_bottom]
    exact takeLast_suffix _ _
  · exact length_window_bottom _ _ _
  · intro hk
    rw [← List.length_eq_zero_iff, shown, length_window_bottom]
    omega
  · intro hfull
    rw [viewport_eq_join hwidth hheight, viewport_eq_join hwidth hheight, shown, shown,
      window_bottom_eq_top hfull]

/-- Five lines of which the last is hidden, and numbers that are not whole. -/
theorem viewport_shows_fiveLines :
    Text.viewport 10 2 (-1 - (1 : ℕ)) "1\n2\n3\n4\n5" = "3\n4" ∧
    ((List.range 3).flatMap fun i => shown 10 2 (i * 2 : ℕ) "1\n2\n3\n4\n5") =
      ["1", "2", "3", "4", "5"] ∧
    ∀ (setup : Setup) (w : World), (StandardFunction.call setup .renderViewport
        [.string "1\n2\n3\n4\n5", .number 10.5, .number 2, .number (-2.75)]).run w =
      (.ok (.string "3\n4"), w) := by
  have hrows : wrap 10 "1\n2\n3\n4\n5" = ["1", "2", "3", "4", "5"] := by decide +kernel
  obtain ⟨-, -, hcover, hbottom, hnative⟩ :=
    viewport_shows (by decide : (1 : ℤ) ≤ 10) (by decide : 1 ≤ 2) "1\n2\n3\n4\n5"
  have hx : Number.value? 10.5 = some (21 / 2) := by decide +kernel
  have hy : Number.value? 2 = some 2 := by decide +kernel
  have hz : Number.value? (-2.75) = some (-11 / 4) := by decide +kernel
  rw [hrows] at hcover hbottom
  have hsame := (hbottom 1).2.2.2 (by decide)
  refine ⟨hsame.trans (by decide +kernel), hcover 3 (by decide), fun setup w => ?_⟩
  have htext : Text.viewport (Number.towardZero (21 / 2)) (Number.towardZero 2)
      (Number.towardZero (-11 / 4)) "1\n2\n3\n4\n5" = "3\n4" := by decide +kernel
  rw [hnative setup _ _ _ _ _ _ w hx hy hz, htext]

end Text

end HostScript
