import HostScript.Proofs.Session.Scripts
import HostScript.Proofs.Syntax.ScanSpans

/-!
# Which faults cannot be reported

A report of a fault shows the source around it, for which the source is encoded. A source with a
surrogate in it cannot be, and its scan fails; but a scan that meets another fault first blames that
one. Its report is then the only one that fails (`report_run_isError_iff`).
-/

namespace HostScript

theorem encode_isError_iff (t : Text) :
    (∃ e, Utf8.encode t = .error e) ↔ ∃ c ∈ t, c.isSurrogate = true := by
  have hnone := Utf8.surrogateRun?_eq_none_iff 0 t
  unfold Utf8.encode
  cases hr : Utf8.surrogateRun? 0 t with
  | none =>
    refine iff_of_false (by simp) ?_
    rintro ⟨c, hc, hs⟩
    simp [hnone.mp hr c hc] at hs
  | some fault =>
    refine iff_of_true ⟨fault, rfl⟩ ?_
    refine Classical.byContradiction fun hno => ?_
    rw [hnone.mpr fun c hc => ?_] at hr
    · contradiction
    · exact Bool.eq_false_iff.mpr fun hs => hno ⟨c, hc, hs⟩

theorem excerpt_isError_iff {source : Text} {span : Span} (h : span.In source) :
    (∃ e, excerpt source span = .error e) ↔ ∃ c ∈ source, c.isSurrogate = true := by
  obtain ⟨-, -, hfirst, hlast⟩ := h
  rw [← encode_isError_iff]
  unfold excerpt
  rw [if_neg (by omega)]
  cases Utf8.encode source with
  | error e => exact iff_of_true ⟨e, rfl⟩ ⟨e, rfl⟩
  | ok bytes => exact iff_of_false (by simp [bind, Except.bind, pure, Except.pure]) (by simp)

theorem excerpt_isOk {source : Text} (h : ¬ ∃ c ∈ source, c.isSurrogate = true) (span : Span) :
    ¬ ∃ e, excerpt source span = .error e := by
  rw [← encode_isError_iff] at h
  unfold excerpt
  dsimp only
  split
  · simp
  · cases he : Utf8.encode source with
    | error e => exact absurd ⟨e, he⟩ h
    | ok bytes => simp [bind, Except.bind, pure, Except.pure]

theorem report_isError_iff {message source : Text} {span : Span} (h : span.In source) :
    (∃ e, report message (some span) source = .error e) ↔ ∃ c ∈ source, c.isSurrogate = true := by
  unfold report
  dsimp only
  cases source with
  | nil => simp
  | cons c rest =>
    rw [← excerpt_isError_iff h]
    cases excerpt (c :: rest) span with
    | error e => simp [Except.map]
    | ok rows => simp [Except.map]

/-- A report of a source without surrogates never fails, wherever its fault lies. -/
theorem report_isOk {source : Text} (h : ¬ ∃ c ∈ source, c.isSurrogate = true) (message : Text)
    (span : Option Span) : ¬ ∃ e, report message span source = .error e := by
  unfold report
  split
  · simp
  · next place =>
    split
    · simp
    · have hok := excerpt_isOk h place
      cases he : excerpt source place with
      | error e => exact absurd ⟨e, he⟩ hok
      | ok rows => simp [Except.map]

/-! ## Scanning -/

/-- A source that is scanned to its end holds no surrogate. -/
theorem encodable_of_scanFrom {p : Position} {source : Text} {tokens : List Token}
    (h : scanFrom p source = .ok tokens) : ∀ c ∈ source, c.isSurrogate = false := by
  induction hn : source.length using Nat.strongRecOn generalizing p source tokens with
  | ind n ih =>
    cases source with
    | nil => simp
    | cons c rest =>
      rw [scanFrom] at h
      have hsplit (more : Nat) : c :: rest = (c :: rest.take more) ++ rest.drop more := by
        rw [List.cons_append, List.take_append_drop]
      have hshort (more : Nat) : (rest.drop more).length < n := by
        rw [← hn, List.length_drop, List.length_cons]
        omega
      split at h
      · contradiction
      · next hfound =>
        have hread : ∀ d ∈ c :: rest.take (Piece.read c rest).more, d.isSurrogate = false := by
          cases hf : (c :: rest.take (Piece.read c rest).more).find? CodePoint.isSurrogate with
          | none => simpa using List.find?_eq_none.mp hf
          | some d =>
            cases d with
            | scalar d => exact absurd (List.find?_some hf) (by simp [CodePoint.isSurrogate])
            | surrogate code => exact absurd hf (hfound code)
        split at h
        · next more hp =>
          rw [hp] at hread
          rw [hsplit more, List.forall_mem_append]
          exact ⟨hread, ih _ (hshort more) h rfl⟩
        · next value more hp =>
          rw [hp] at hread h
          rw [hsplit more, List.forall_mem_append]
          refine ⟨hread, ?_⟩
          dsimp only [Piece.more] at h
          cases hrest : scanFrom (p.advance (c :: rest.take more)) (rest.drop more) with
          | error halt =>
            rw [hrest] at h
            contradiction
          | ok tokens => exact ih _ (hshort more) hrest rfl
        · contradiction

theorem encodable_of_scan {source : Text} {tokens : List Token} (h : scan source = .ok tokens) :
    ¬ ∃ c ∈ source, c.isSurrogate = true := by
  rintro ⟨c, hc, hs⟩
  simp [encodable_of_scanFrom h c hc] at hs

/-! ## Scripts -/

/-- The fault of a source that does not compile can be reported, unless scanning it stopped at a
fault in front of a surrogate. -/
theorem report_compile_isError_iff {depth : Nat} {source : Text} {fault : ScriptFault}
    (hf : compile depth source = .error fault) :
    (∃ e, report fault.message fault.span? source = .error e) ↔
      (∃ cause span, fault = .scan cause span) ∧ ∃ c ∈ source, c.isSurrogate = true := by
  unfold compile at hf
  split at hf
  · next cause span hscan =>
    obtain rfl := Except.error.inj hf
    rw [ScriptFault.span?, report_isError_iff (scan_fault_span hscan)]
    exact ⟨fun h => ⟨⟨cause, span, rfl⟩, h⟩, fun h => h.2⟩
  · obtain rfl := Except.error.inj hf
    exact iff_of_false (by simp [ScriptFault.span?, report]) (by simp)
  · next tokens hscan =>
    have hencodable := encodable_of_scan hscan
    exact iff_of_false (report_isOk hencodable _ _) fun h => hencodable h.2

namespace Session

/-- The fault of a script can be reported, with the same exception. -/
theorem report_run_isError_iff {s : Session} {source : Text} {fault : ScriptFault}
    (hf : (s.run source).1 = .failure fault) :
    (∃ e, report fault.message fault.span? source = .error e) ↔
      (∃ cause span, fault = .scan cause span) ∧ ∃ c ∈ source, c.isSurrogate = true := by
  cases hr : compile s.setup.depth source with
  | error found =>
    rw [run_of_compile_error hr] at hf
    obtain rfl := RunResult.failure.inj hf
    exact report_compile_isError_iff hr
  | ok statements =>
    have hencodable : ¬ ∃ c ∈ source, c.isSurrogate = true := by
      unfold compile at hr
      split at hr
      · contradiction
      · contradiction
      · next tokens hscan => exact encodable_of_scan hscan
    exact iff_of_false (report_isOk hencodable _ _) fun h => hencodable h.2

end Session

end HostScript
