import HostScript.Library.Call
import HostScript.Proofs.Number.Truncation

/-!
# The longest beginning that fits

Truncating a text leaves the longest of its beginnings that fit into the width (`IsLongestFit`).
There is only one (`IsLongestFit.eq`), so that truncating twice is truncating to the smaller width:
the longest fitting beginning of a longest fitting beginning is one of the text itself
(`IsLongestFit.trans`).
-/

namespace HostScript.Text

variable {limit limit' : ℤ} {t s s' : Text} {c : CodePoint}

/-- A beginning takes no more columns than the whole. -/
theorem width_le_of_isPrefix (h : s <+: t) : s.width ≤ t.width := by
  obtain ⟨rest, rfl⟩ := h
  rw [width_append]
  exact Nat.le_add_right _ _

/-- A beginning of a text that takes at most `limit` columns, while every longer one takes more. So
marks without a column that follow the last character that fits belong to it. -/
structure IsLongestFit (limit : ℤ) (t s : Text) : Prop where
  isPrefix : s <+: t
  fits : s.width ≤ limit
  longest : ∀ longer : Text, longer <+: t → s.length < longer.length → limit < longer.width

namespace IsLongestFit

/-- A text has only one longest beginning that fits. -/
theorem eq (h : IsLongestFit limit t s) (h' : IsLongestFit limit t s') : s = s' := by
  have hlength : s.length = s'.length := by
    have hfits := h.fits
    have hfits' := h'.fits
    refine Nat.le_antisymm (Nat.not_lt.mp fun hlt => ?_) (Nat.not_lt.mp fun hlt => ?_)
    · have := h'.longest s h.isPrefix hlt
      omega
    · have := h.longest s' h'.isPrefix hlt
      omega
  exact (List.prefix_of_prefix_length_le h.isPrefix h'.isPrefix hlength.le).eq_of_length hlength

/-- The longest fitting beginning of one of a text is the one of the text for the smaller limit. -/
theorem trans (h : IsLongestFit limit t s) (h' : IsLongestFit limit' s s') :
    IsLongestFit (min limit limit') t s' where
  isPrefix := h'.isPrefix.trans h.isPrefix
  fits := by
    have hfits := h.fits
    have hfits' := h'.fits
    have hle := width_le_of_isPrefix h'.isPrefix
    omega
  longest longer hlonger hlength := by
    -- a longer beginning lies in the first one, or it is longer than that as well
    rcases Nat.lt_or_ge s.length longer.length with hlt | hge
    · have := h.longest longer hlonger hlt
      omega
    · have := h'.longest longer (List.prefix_of_prefix_length_le hlonger h.isPrefix hge) hlength
      omega

theorem nil (hlimit : 0 ≤ limit) : IsLongestFit limit [] [] where
  isPrefix := List.prefix_refl []
  fits := hlimit
  longest longer hlonger hlength := by
    rw [List.prefix_nil.mp hlonger] at hlength
    exact absurd hlength (Nat.lt_irrefl 0)

/-- No beginning fits if the first character does not. -/
theorem of_overflow (hlimit : 0 ≤ limit) (hover : limit < c.width) :
    IsLongestFit limit (c :: t) [] where
  isPrefix := List.nil_prefix
  fits := hlimit
  longest longer hlonger hlength := by
    cases longer with
    | nil => exact absurd hlength (Nat.lt_irrefl 0)
    | cons d longer =>
      obtain ⟨rfl, -⟩ := List.cons_prefix_cons.mp hlonger
      rw [width_cons]
      omega

/-- A first character that fits stands in front of what fits behind it. -/
theorem cons (h : IsLongestFit limit t s) : IsLongestFit (c.width + limit) (c :: t) (c :: s) where
  isPrefix := List.cons_prefix_cons.mpr ⟨rfl, h.isPrefix⟩
  fits := by
    have hfits := h.fits
    rw [width_cons]
    omega
  longest longer hlonger hlength := by
    cases longer with
    | nil => exact absurd hlength (Nat.not_lt_zero _)
    | cons d longer =>
      obtain ⟨rfl, hrest⟩ := List.cons_prefix_cons.mp hlonger
      have := h.longest longer hrest (Nat.lt_of_succ_lt_succ hlength)
      rw [width_cons]
      omega

end IsLongestFit

/-! ## Truncating -/

/-- Truncating goes on with the columns that are left. -/
theorem isLongestFit_truncateAfter {used : ℕ} (hused : used ≤ limit) (t : Text) :
    IsLongestFit (limit - used) t (truncateAfter limit used t) := by
  induction t generalizing used with
  | nil => exact .nil (by omega)
  | cons c rest ih =>
    rw [truncateAfter]
    by_cases hover : limit < (used + c.width : ℕ)
    · rw [if_pos hover]
      exact .of_overflow (by omega) (by omega)
    · have hover' : (used + c.width : ℕ) ≤ limit := by omega
      have hrest := (ih hover').cons (c := c)
      have hleft : (c.width : ℤ) + (limit - (used + c.width : ℕ)) = limit - used := by omega
      rw [if_neg hover]
      rwa [hleft] at hrest

theorem isLongestFit_truncate (hlimit : 0 ≤ limit) (t : Text) :
    IsLongestFit limit t (t.truncate limit) := by
  have hnone : (0 : ℕ) ≤ limit := hlimit
  have h := isLongestFit_truncateAfter hnone t
  rwa [Nat.cast_zero, Int.sub_zero] at h

/-- Truncating twice is truncating to the smaller width. -/
theorem truncate_truncate (hlimit : 0 ≤ limit) (hlimit' : 0 ≤ limit') (t : Text) :
    (t.truncate limit).truncate limit' = t.truncate (min limit limit') :=
  ((isLongestFit_truncate hlimit t).trans (isLongestFit_truncate hlimit' _)).eq
    (isLongestFit_truncate (by omega) t)

/-- The function of the library truncates to the number rounded toward zero. -/
theorem run_stringTruncateToWidth (setup : Setup) (t : Text) {x : Float} {q : ℚ}
    (hx : Number.value? x = some q) (w : World) :
    (StandardFunction.call setup .stringTruncateToWidth [.string t, .number x]).run w =
      (.ok (.string (t.truncate (Number.towardZero q))), w) := by
  change (Except.ok (Value.truncated t x), w) = _
  simp only [Value.truncated, Number.truncate?_eq, hx, Option.map_some]

/-- Truncating a text to a width leaves the longest beginning that fits, marks without a column
behind its last character included, and doing it twice is doing it once to the smaller width. The
function of the library rounds its width toward zero. -/
theorem truncate_longest (t : Text) {a b : ℤ} (ha : 0 ≤ a) (hb : 0 ≤ b) :
    (t.truncate a <+: t ∧ (t.truncate a).width ≤ a ∧
      ∀ longer : Text, longer <+: t → (t.truncate a).length < longer.length → a < longer.width) ∧
    (t.truncate a).truncate b = t.truncate (min a b) ∧
    ∀ (setup : Setup) (x : Float) (q : ℚ) (w : World), Number.value? x = some q → 0 ≤ q →
      0 ≤ Number.towardZero q ∧
      (StandardFunction.call setup .stringTruncateToWidth [.string t, .number x]).run w =
        (.ok (.string (t.truncate (Number.towardZero q))), w) := by
  have hfit := isLongestFit_truncate ha t
  refine ⟨⟨hfit.isPrefix, hfit.fits, hfit.longest⟩, truncate_truncate ha hb t, ?_⟩
  intro setup x q w hx hq
  refine ⟨?_, run_stringTruncateToWidth setup t hx w⟩
  rw [Number.towardZero, if_pos hq]
  exact Int.floor_nonneg.mpr hq

/-- A wide character that does not fit, and a mark behind the last one that does. -/
theorem truncate_longest_mark :
    Text.truncate 2 "a\u0301日本" = "a\u0301" ∧
    (∀ longer : Text, longer <+: Text.ofString "a\u0301日本" → 2 < longer.length →
      (2 : ℤ) < longer.width) ∧
    (Text.truncate 3 "a\u0301日本").truncate 2 = Text.truncate 2 "a\u0301日本" ∧
    ∀ (setup : Setup) (w : World), (StandardFunction.call setup .stringTruncateToWidth
        [.string "a\u0301日本", .number 2.75]).run w = (.ok (.string "a\u0301"), w) := by
  have htwo : Text.truncate 2 "a\u0301日本" = "a\u0301" := by decide +kernel
  obtain ⟨⟨-, -, hlongest⟩, -, hnative⟩ :=
    truncate_longest "a\u0301日本" (by decide : (0 : ℤ) ≤ 2) (by decide : (0 : ℤ) ≤ 2)
  obtain ⟨-, htwice, -⟩ :=
    truncate_longest "a\u0301日本" (by decide : (0 : ℤ) ≤ 3) (by decide : (0 : ℤ) ≤ 2)
  have hx : Number.value? 2.75 = some (11 / 4) := by decide +kernel
  have hround : Number.towardZero (11 / 4) = 2 := by decide +kernel
  rw [htwo] at hlongest
  refine ⟨htwo, hlongest, htwice, fun setup w => ?_⟩
  rw [(hnative setup _ _ w hx (by norm_num)).2, hround, htwo]

end HostScript.Text
