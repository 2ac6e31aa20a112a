import HostScript.Proofs.Session.Ending
import HostScript.Session.Shell

/-!
# What an interactive shell runs

The lines that a shell is given fall into blank lines and chunks, up to an `exit` in front of a chunk
or to the end (`Shell.Reading`). There is one way to read them so, and the shell follows it: it runs
the chunks one after another in one session, and shows what comes of each of them
(`Shell.interact_follows`). It breaks off at a chunk of which nothing can be shown, and only there.
-/

namespace HostScript

namespace Session

/-- The session that is left when scripts have been run in it, one after another. -/
def after (s : Session) (sources : List Text) : Session :=
  sources.foldl (fun s source => (s.run source).2) s

/-- Nothing can be shown of what comes of a script, for a reason that also ends a worker, or because
its value has a display form with a surrogate in it, or because it does not end. -/
inductive Unshown (s : Session) (source : Text) : Prop
  | endsWorker (h : s.EndsBy (.script source))
  | surrogate {v : Value} {t : Text} (hr : (s.run source).1 = .success v)
      (hdisplay : (s.run source).2.display v = some t) (ht : ∃ c ∈ t, c.isSurrogate = true)
  | endless (hr : (s.run source).1 = .endless)

/-- Something can be shown of each script that is run, one after another. -/
def Shows (s : Session) (sources : List Text) : Prop :=
  ∀ before source behind, sources = before ++ source :: behind → ¬ (s.after before).Unshown source

theorem shows_nil (s : Session) : s.Shows [] := by
  intro before source behind h
  exact absurd h.symm (List.append_ne_nil_of_right_ne_nil _ (List.cons_ne_nil _ _))

theorem shows_cons_iff {s : Session} {source : Text} {sources : List Text} :
    s.Shows (source :: sources) ↔ ¬ s.Unshown source ∧ (s.run source).2.Shows sources := by
  constructor
  · refine fun h => ⟨h [] source sources rfl, fun before other behind heq => ?_⟩
    exact h (source :: before) other behind (congrArg (source :: ·) heq)
  · rintro ⟨hfirst, hrest⟩ before other behind heq
    cases before with
    | nil =>
      obtain ⟨rfl, -⟩ := List.cons.inj heq
      exact hfirst
    | cons first before =>
      obtain ⟨rfl, htail⟩ := List.cons.inj heq
      exact hrest before other behind htail

end Session

namespace Shell

/-! ## Reading lines -/

/-- A line with nothing but white space in it. -/
def IsBlank (line : Text) : Prop := line.trim = []

/-- A line that says `exit`. -/
def IsExit (line : Text) : Prop := line.trim = "exit"

instance (line : Text) : Decidable (IsBlank line) := inferInstanceAs (Decidable (line.trim = []))

/-- How lines are read in front of a chunk: the input ends, maybe with a chunk unfinished; or there is
an `exit`, with more lines behind it; or a blank line; or a chunk and the blank line that ends it. -/
inductive Reading
  | ended (unfinished : List Text)
  | exit (line : Text) (behind : List Text)
  | blank (line : Text) (rest : Reading)
  | chunk (first : Text) (more : List Text) (line : Text) (rest : Reading)

namespace Reading

/-- The lines that are read so. -/
def lines : Reading → List Text
  | ended unfinished => unfinished
  | exit line behind => line :: behind
  | blank line rest => line :: rest.lines
  | chunk first more line rest => first :: (more ++ line :: rest.lines)

/-- Lines are what they are read as. A chunk has no blank lines, and its first line does not say
`exit`, whatever its other lines say. -/
def Valid : Reading → Prop
  | ended unfinished =>
    (∀ line ∈ unfinished, ¬ IsBlank line) ∧ ∀ line ∈ unfinished.head?, ¬ IsExit line
  | exit line _ => IsExit line
  | blank line rest => IsBlank line ∧ rest.Valid
  | chunk first more line rest =>
    ¬ IsBlank first ∧ ¬ IsExit first ∧ (∀ other ∈ more, ¬ IsBlank other) ∧ IsBlank line ∧ rest.Valid

/-- The chunks as scripts. -/
def scripts : Reading → List Text
  | chunk first more _ rest => Text.join "\n" (first :: more) :: rest.scripts
  | blank _ rest => rest.scripts
  | _ => []

end Reading

theorem not_isExit_of_isBlank {line : Text} (h : IsBlank line) : ¬ IsExit line := by
  unfold IsExit
  rw [show line.trim = [] from h]
  decide

/-- Lines have no blank one among them, or they have a first one. -/
theorem blank_cases (lines : List Text) : (∀ line ∈ lines, ¬ IsBlank line) ∨
    ∃ before line rest, lines = before ++ line :: rest ∧ (∀ other ∈ before, ¬ IsBlank other) ∧
      IsBlank line := by
  cases hfind : lines.find? (decide <| IsBlank ·) with
  | none => exact .inl (by simpa using hfind)
  | some line =>
    obtain ⟨hblank, before, rest, rfl, hbefore⟩ := List.find?_eq_some_iff_append.mp hfind
    exact .inr ⟨before, line, rest, rfl, by simpa using hbefore, by simpa using hblank⟩

/-- The first blank line is found in one place. -/
theorem append_blank_inj {before before' rest rest' : List Text} {line line' : Text}
    (h : before ++ line :: rest = before' ++ line' :: rest')
    (hbefore : ∀ other ∈ before, ¬ IsBlank other) (hbefore' : ∀ other ∈ before', ¬ IsBlank other)
    (hline : IsBlank line) (hline' : IsBlank line') :
    before = before' ∧ line = line' ∧ rest = rest' := by
  induction before generalizing before' with
  | nil =>
    cases before' with
    | nil => exact ⟨rfl, List.cons.inj h⟩
    | cons other before' =>
      obtain ⟨rfl, -⟩ := List.cons.inj h
      exact absurd hline (hbefore' line List.mem_cons_self)
  | cons other before ih =>
    cases before' with
    | nil =>
      obtain ⟨rfl, -⟩ := List.cons.inj h
      exact absurd hline' (hbefore other List.mem_cons_self)
    | cons other' before' =>
      obtain ⟨rfl, htail⟩ := List.cons.inj h
      obtain ⟨rfl, hrest⟩ := ih htail (List.forall_mem_cons.mp hbefore).2
        (List.forall_mem_cons.mp hbefore').2
      exact ⟨rfl, hrest⟩

namespace Reading

/-- Any lines can be read. -/
theorem exists_of_lines (lines : List Text) : ∃ r : Reading, r.Valid ∧ r.lines = lines := by
  induction hn : lines.length using Nat.strongRecOn generalizing lines with
  | ind n ih =>
    subst hn
    cases lines with
    | nil => exact ⟨.ended [], ⟨by simp, by simp⟩, rfl⟩
    | cons first rest =>
      by_cases hblank : IsBlank first
      · obtain ⟨r, hr, rfl⟩ := ih rest.length (Nat.lt_succ_self _) rest rfl
        exact ⟨.blank first r, ⟨hblank, hr⟩, rfl⟩
      by_cases hexit : IsExit first
      · exact ⟨.exit first rest, hexit, rfl⟩
      obtain hnone | ⟨more, line, behind, rfl, hmore, hline⟩ := blank_cases rest
      · refine ⟨.ended (first :: rest), ⟨List.forall_mem_cons.mpr ⟨hblank, hnone⟩, ?_⟩, rfl⟩
        simpa using hexit
      · obtain ⟨r, hr, rfl⟩ := ih behind.length (by simp; omega) behind rfl
        exact ⟨.chunk first more line r, ⟨hblank, hexit, hmore, hline, hr⟩, rfl⟩

/-- There is one way to read them. -/
theorem eq_of_lines_eq {r r' : Reading} (h : r.Valid) (h' : r'.Valid) (heq : r.lines = r'.lines) :
    r = r' := by
  induction r generalizing r' with
  | ended unfinished =>
    cases r' with
    | ended unfinished' => exact congrArg ended heq
    | exit line behind =>
      obtain rfl : unfinished = line :: behind := heq
      exact absurd h' (h.2 line rfl)
    | blank line rest =>
      obtain rfl : unfinished = line :: rest.lines := heq
      exact absurd h'.1 (h.1 line List.mem_cons_self)
    | chunk first more line rest =>
      obtain rfl : unfinished = first :: (more ++ line :: rest.lines) := heq
      exact absurd h'.2.2.2.1 (h.1 line (by simp))
  | exit line behind =>
    cases r' with
    | ended unfinished =>
      obtain rfl : line :: behind = unfinished := heq
      exact absurd h (h'.2 line rfl)
    | exit line' behind' =>
      obtain ⟨rfl, rfl⟩ := List.cons.inj heq
      rfl
    | blank line' rest =>
      obtain ⟨rfl, -⟩ := List.cons.inj heq
      exact absurd h (not_isExit_of_isBlank h'.1)
    | chunk first more line' rest =>
      obtain ⟨rfl, -⟩ := List.cons.inj heq
      exact absurd h h'.2.1
  | blank line rest ih =>
    cases r' with
    | ended unfinished =>
      obtain rfl : line :: rest.lines = unfinished := heq
      exact absurd h.1 (h'.1 line List.mem_cons_self)
    | exit line' behind =>
      obtain ⟨rfl, -⟩ := List.cons.inj heq
      exact absurd h' (not_isExit_of_isBlank h.1)
    | blank line' rest' =>
      obtain ⟨rfl, hrest⟩ := List.cons.inj heq
      rw [ih h.2 h'.2 hrest]
    | chunk first more line' rest' =>
      obtain ⟨rfl, -⟩ := List.cons.inj heq
      exact absurd h.1 h'.1
  | chunk first more line rest ih =>
    obtain ⟨hblank, hexit, hmore, hline, hrest⟩ := h
    cases r' with
    | ended unfinished =>
      obtain rfl : first :: (more ++ line :: rest.lines) = unfinished := heq
      exact absurd hline (h'.1 line (by simp))
    | exit line' behind =>
      obtain ⟨rfl, -⟩ := List.cons.inj heq
      exact absurd h' hexit
    | blank line' rest' =>
      obtain ⟨rfl, -⟩ := List.cons.inj heq
      exact absurd h'.1 hblank
    | chunk first' more' line' rest' =>
      obtain ⟨rfl, htail⟩ := List.cons.inj heq
      obtain ⟨rfl, rfl, hlines⟩ := append_blank_inj htail hmore h'.2.2.1 hline h'.2.2.2.1
      rw [ih hrest h'.2.2.2.2 hlines]

end Reading

/-! ## Running a chunk -/

theorem display_null (s : Session) : s.display .null = some (Text.ofString "null") := by
  cases hd : s.setup.depth <;> simp only [Session.display, Value.display, hd] <;> rfl

theorem surrogateRun?_eq_some_iff {t : Text} :
    (∃ fault, Utf8.surrogateRun? 0 t = some fault) ↔ ∃ c ∈ t, c.isSurrogate = true := by
  rw [← Option.isSome_iff_exists, ← Option.ne_none_iff_isSome, Ne, Utf8.surrogateRun?_eq_none_iff]
  simp only [Classical.not_forall, exists_prop, Bool.not_eq_false]

theorem resultOutput_success_isError_iff {s : Session} {source : Text} {v : Value} :
    (∃ fault, resultOutput s source (.success v) = .error fault) ↔
      s.display v = none ∨ ∃ t, s.display v = some t ∧ ∃ c ∈ t, c.isSurrogate = true := by
  by_cases hnull : v = .null
  · subst hnull
    have hplain : ¬ ∃ c ∈ Text.ofString "null", c.isSurrogate = true := by decide
    simp only [resultOutput, display_null, reduceCtorEq, Option.some.injEq, exists_eq_left',
      exists_false, false_or, hplain]
  · rw [resultOutput.eq_2 _ _ _ hnull]
    cases s.display v with
    | none => simp
    | some t =>
      simp only [reduceCtorEq, Option.some.injEq, exists_eq_left', false_or]
      rw [← surrogateRun?_eq_some_iff]
      cases Utf8.surrogateRun? 0 t <;> simp

theorem resultOutput_failure_isError_iff {s : Session} {source : Text} {cause : ScriptFault} :
    (∃ fault, resultOutput s source (.failure cause) = .error fault) ↔
      ∃ e, report cause.message cause.span? source = .error e := by
  rw [resultOutput]
  cases report cause.message cause.span? source <;> simp

/-- When nothing can be shown of what comes of a script. -/
theorem resultOutput_run_isError_iff {s : Session} {source : Text} :
    (∃ fault, resultOutput (s.run source).2 source (s.run source).1 = .error fault) ↔
      s.Unshown source := by
  have hends : s.EndsBy (.script source) ↔ _ := Session.endsBy_script_iff
  cases hr : (s.run source).1 with
  | success v =>
    rw [hr] at hends
    rw [resultOutput_success_isError_iff]
    constructor
    · rintro (h | ⟨t, hdisplay, ht⟩)
      · exact .endsWorker (hends.mpr h)
      · exact .surrogate hr hdisplay ht
    · rintro (h | ⟨hr', hdisplay, ht⟩ | hr')
      · exact .inl (hends.mp h)
      · obtain rfl := RunResult.success.inj (hr.symm.trans hr')
        exact .inr ⟨_, hdisplay, ht⟩
      · exact nomatch hr.symm.trans hr'
  | failure cause =>
    rw [hr] at hends
    rw [resultOutput_failure_isError_iff]
    constructor
    · exact fun h => .endsWorker (hends.mpr h)
    · rintro (h | ⟨hr', -, -⟩ | hr')
      · exact hends.mp h
      · exact nomatch hr.symm.trans hr'
      · exact nomatch hr.symm.trans hr'
  | disconnected cause => exact iff_of_true ⟨_, rfl⟩ (.endsWorker (.disconnected hr))
  | endless => exact iff_of_true ⟨_, rfl⟩ (.endless hr)

/-- What a shell does with a script: it shows what happened and what came of it, or breaks off. -/
theorem runSource_eq (s : Shell) (source : Text) :
    s.runSource source =
      match resultOutput (s.session.run source).2 source (s.session.run source).1 with
      | .error fault => (shown s.debug (s.session.run source).2 s.session.mark, .error fault)
      | .ok (more, failed) => (shown s.debug (s.session.run source).2 s.session.mark ++ more,
          .ok (⟨(s.session.run source).2, s.debug, []⟩, failed)) := rfl

/-! ## Following a reading -/

/-- What a shell writes before it reads some lines of a chunk and the one behind them. -/
def prompts (lines : List Text) : List Output :=
  match lines with
  | [] => [.out ">> "]
  | _ :: more => .out ">> " :: List.replicate (more.length + 1) (.out ".. ")

/-- What a shell in front of a chunk makes of lines that are read so. It runs the chunks in order,
each in the session that the one before has left. -/
def follow (s : Shell) : Reading → List Output × ShellEnd
  | .ended unfinished => (prompts unfinished ++ [.out farewell], .done)
  | .exit _ _ => ([.out ">> "], .done)
  | .blank _ rest =>
    let (more, ending) := s.follow rest
    (.out ">> " :: more, ending)
  | .chunk first more _ rest =>
    match s.runSource (Text.join "\n" (first :: more)) with
    | (output, .error fault) => (prompts (first :: more) ++ output, .raised fault)
    | (output, .ok (next, _)) =>
      let (later, ending) := next.follow rest
      (prompts (first :: more) ++ output ++ later, ending)

theorem feed_of_isBlank {s : Shell} (hs : s.chunk = []) {line : Text} (h : IsBlank line) :
    s.feed (some line) = ([], .ok s) := by
  have hexit := not_isExit_of_isBlank h
  unfold IsBlank at h
  unfold IsExit at hexit
  simp only [feed, hexit, decide_false, Bool.and_false, Bool.false_eq_true, if_false]
  rw [h, if_neg (by decide), hs, if_pos (by decide)]

theorem feed_of_isExit {s : Shell} (hs : s.chunk = []) {line : Text} (h : IsExit line) :
    s.feed (some line) = ([], .error .done) := by
  unfold IsExit at h
  simp [feed, hs, h]

theorem feed_of_not_isBlank {s : Shell} {line : Text} (h : ¬ IsBlank line)
    (hexit : s.chunk = [] → ¬ IsExit line) :
    s.feed (some line) = ([], .ok { s with chunk := s.chunk ++ [line] }) := by
  unfold IsBlank at h
  unfold IsExit at hexit
  have hstays : ¬ (s.chunk = [] ∧ line.trim = Text.ofString "exit") := fun hboth =>
    hexit hboth.1 hboth.2
  simp [feed, h, hstays]

theorem feed_of_chunk {s : Shell} (hs : s.chunk ≠ []) {line : Text} (h : IsBlank line) :
    s.feed (some line) = match s.runSource (Text.join "\n" s.chunk) with
      | (output, .ok (s, _)) => (output, .ok s)
      | (output, .error fault) => (output, .error (.raised fault)) := by
  have hexit := not_isExit_of_isBlank h
  unfold IsBlank at h
  unfold IsExit at hexit
  simp only [feed, hexit, decide_false, Bool.and_false, Bool.false_eq_true, if_false]
  rw [h, if_neg (by decide)]
  exact if_neg (by simpa using hs)

/-- Lines that go on with a chunk are put to those before them. -/
theorem interact_append {s : Shell} (hs : s.chunk ≠ []) {lines : List Text}
    (h : ∀ line ∈ lines, ¬ IsBlank line) (rest : List Text) :
    s.interact (lines ++ rest) =
      (List.replicate lines.length (.out ".. ") ++
          (interact { s with chunk := s.chunk ++ lines } rest).1,
        (interact { s with chunk := s.chunk ++ lines } rest).2) := by
  induction lines generalizing s with
  | nil => simp
  | cons line lines ih =>
    obtain ⟨hline, hlines⟩ := List.forall_mem_cons.mp h
    rw [List.cons_append, interact, feed_of_not_isBlank hline fun hempty => absurd hempty hs]
    dsimp only
    rw [ih (by simp) hlines]
    simp [prompt, hs, List.replicate_succ]

/-- The lines of a chunk are gathered, and the line behind it has them run. -/
theorem interact_chunk {s : Shell} (hs : s.chunk = []) {first line : Text} {more : List Text}
    (hblank : ¬ IsBlank first) (hexit : ¬ IsExit first) (hmore : ∀ other ∈ more, ¬ IsBlank other)
    (hline : IsBlank line) (rest : List Text) :
    s.interact (first :: (more ++ line :: rest)) =
      match s.runSource (Text.join "\n" (first :: more)) with
      | (output, .error fault) => (prompts (first :: more) ++ output, .raised fault)
      | (output, .ok (next, _)) =>
        (prompts (first :: more) ++ output ++ (next.interact rest).1, (next.interact rest).2) := by
  have hchunk : s.chunk ++ [first] ≠ [] := by simp
  have hsource (lines : List Text) : runSource { s with chunk := lines } = s.runSource := rfl
  rw [interact, feed_of_not_isBlank hblank fun _ => hexit]
  dsimp only
  rw [interact_append hchunk hmore, interact, feed_of_chunk (by simp) hline]
  dsimp only
  rw [hsource, hs, List.nil_append, List.singleton_append]
  rcases hrun : s.runSource (Text.join "\n" (first :: more)) with ⟨output, fault | ⟨next, failed⟩⟩
  · simp [hrun, prompt, hs, prompts, List.replicate_succ']
  · simp [hrun, prompt, hs, prompts, List.replicate_succ']

/-- A shell follows the reading of the lines that it is given. -/
theorem interact_eq_follow {r : Reading} (h : r.Valid) {s : Shell} (hs : s.chunk = []) :
    s.interact r.lines = s.follow r := by
  induction r generalizing s with
  | ended unfinished =>
    obtain ⟨hblank, hexit⟩ := h
    cases unfinished with
    | nil => simp [Reading.lines, interact, follow, prompt, hs, prompts]
    | cons first more =>
      obtain ⟨hfirst, hmore⟩ := List.forall_mem_cons.mp hblank
      rw [Reading.lines, interact, feed_of_not_isBlank hfirst fun _ => hexit first rfl]
      have hrest := interact_append (s := { s with chunk := s.chunk ++ [first] }) (by simp) hmore []
      rw [List.append_nil] at hrest
      dsimp only
      rw [hrest]
      simp [interact, follow, prompt, hs, prompts, List.replicate_succ']
  | exit line behind =>
    rw [Reading.lines, interact, feed_of_isExit hs h]
    simp [follow, prompt, hs]
  | blank line rest ih =>
    rw [Reading.lines, interact, feed_of_isBlank hs h.1]
    dsimp only
    rw [ih h.2 hs]
    simp [follow, prompt, hs]
  | chunk first more line rest ih =>
    obtain ⟨hblank, hexit, hmore, hline, hrest⟩ := h
    rw [Reading.lines, interact_chunk hs hblank hexit hmore hline, follow]
    rw [runSource_eq]
    cases resultOutput (s.session.run (Text.join "\n" (first :: more))).2
        (Text.join "\n" (first :: more)) (s.session.run (Text.join "\n" (first :: more))).1 with
    | error fault => rfl
    | ok shown =>
      dsimp only
      rw [ih hrest rfl]

/-- A shell that follows a reading comes to the end of it, unless there is a chunk of which nothing
can be shown. It breaks off at the first of these. -/
theorem follow_ends (s : Shell) (r : Reading) :
    (s.session.Shows r.scripts ∧ (s.follow r).2 = .done) ∨
    ∃ before source behind fault, r.scripts = before ++ source :: behind ∧
      s.session.Shows before ∧ (s.session.after before).Unshown source ∧
      (s.follow r).2 = .raised fault := by
  induction r generalizing s with
  | ended unfinished => exact .inl ⟨s.session.shows_nil, rfl⟩
  | exit line behind => exact .inl ⟨s.session.shows_nil, rfl⟩
  | blank line rest ih => exact ih s
  | chunk first more line rest ih =>
    rw [Reading.scripts, follow, runSource_eq]
    generalize Text.join "\n" (first :: more) = source
    have hunshown : _ ↔ s.session.Unshown source := resultOutput_run_isError_iff
    cases hresult : resultOutput (s.session.run source).2 source (s.session.run source).1 with
    | error fault =>
      exact .inr ⟨[], source, rest.scripts, fault, rfl, s.session.shows_nil,
        hunshown.mp ⟨fault, hresult⟩, rfl⟩
    | ok output =>
      have hshown : ¬ s.session.Unshown source := by
        rw [← hunshown, hresult]
        simp
      rcases ih ⟨(s.session.run source).2, s.debug, []⟩ with
        ⟨hshows, hdone⟩ | ⟨before, other, behind, fault, hscripts, hbefore, hother, hraised⟩
      · exact .inl ⟨Session.shows_cons_iff.mpr ⟨hshown, hshows⟩, hdone⟩
      · refine .inr ⟨source :: before, other, behind, fault, ?_, ?_, hother, hraised⟩
        · rw [hscripts, List.cons_append]
        · exact Session.shows_cons_iff.mpr ⟨hshown, hbefore⟩

theorem chunk_of_start {terminal : Terminal} {greeting : List Output} {s : Shell}
    (h : start terminal = (greeting, .ok s)) : s.chunk = [] := by
  unfold start at h
  split at h
  · exact nomatch congrArg Prod.snd h
  · dsimp only at h
    split at h
    · exact nomatch congrArg Prod.snd h
    · obtain rfl := Except.ok.inj (congrArg Prod.snd h)
      rfl

/-- A shell that has started follows the one reading that there is of the lines that it is given. It
comes to the end of it, unless there is a chunk of which nothing can be shown: the first of these is
the last script that it runs. -/
theorem interact_follows {terminal : Terminal} {greeting : List Output} {s : Shell}
    (hstart : start terminal = (greeting, .ok s)) (lines : List Text) :
    ∃ r : Reading, r.Valid ∧ r.lines = lines ∧
      (∀ other : Reading, other.Valid → other.lines = lines → other = r) ∧
      s.interact lines = s.follow r ∧
      ((s.session.Shows r.scripts ∧ (s.interact lines).2 = .done) ∨
        ∃ before source behind fault, r.scripts = before ++ source :: behind ∧
          s.session.Shows before ∧ (s.session.after before).Unshown source ∧
          (s.interact lines).2 = .raised fault) ∧
      ∀ input, inputLines input = lines →
        converse terminal input =
          (.out banner :: greeting ++ (s.interact lines).1, (s.interact lines).2) := by
  obtain ⟨r, hr, rfl⟩ := Reading.exists_of_lines lines
  have hfollow := interact_eq_follow hr (chunk_of_start hstart)
  refine ⟨r, hr, rfl, fun other hother h => Reading.eq_of_lines_eq hother hr h, hfollow, ?_,
    fun input hinput => ?_⟩
  · rw [hfollow]
    exact s.follow_ends r
  · rw [converse, hstart, hinput]

/-! ## A chunk that cannot be shown -/

/-- A terminal that has a configuration without a bootstrap script, the only one that its library
can read. -/
def bareTerminal : Terminal where
  environment := ⟨[("RSL_CONFIG", "rsl.yaml")]⟩
  files := [(⟨.relative, ["rsl.yaml"]⟩, "load_bootstrap: false\n")]
  reader _ := .ok (.mapping [("load_bootstrap", .boolean false)])
  accounts _ := none
  machine := .plain

theorem configure_bareTerminal : ∃ config, configure bareTerminal = .ok config ∧
    config.loadBootstrap.isOn = false ∧ config.debug.isOn = false := by
  have h : (configure bareTerminal).toOption.any
      (fun config => !config.loadBootstrap.isOn && !config.debug.isOn) = true := by
    decide +kernel
  cases hc : configure bareTerminal with
  | error fault =>
    rw [hc] at h
    exact nomatch h
  | ok config =>
    rw [hc] at h
    exact ⟨config, rfl, by simpa [Except.toOption] using h⟩

theorem start_bareTerminal : ∃ config, start bareTerminal =
    ([], .ok ⟨Session.fresh config ⟨bareTerminal.files, [], none, .plain⟩, false, []⟩) := by
  obtain ⟨config, hconfigure, hboot, hdebug⟩ := configure_bareTerminal
  refine ⟨config, ?_⟩
  rw [start, hconfigure]
  simp only [Session.start, Session.prepare, hboot, hdebug, Bool.false_eq_true, if_false]
  rfl

/-- It runs the one chunk in front of the `exit`. -/
theorem interact_follows_bareTerminal :
    ∃ s : Shell, start bareTerminal = ([], .ok s) ∧
      s.interact ["1", [], "exit"] = s.follow (.chunk "1" [] [] (.exit "exit" [])) := by
  obtain ⟨config, hstart⟩ := start_bareTerminal
  obtain ⟨r, -, -, hunique, hfollow, -, -⟩ := interact_follows hstart ["1", [], "exit"]
  have hvalid : Reading.Valid (.chunk "1" [] [] (.exit "exit" [])) := by
    simp only [Reading.Valid, IsBlank, IsExit]
    decide
  refine ⟨_, hstart, ?_⟩
  rw [hunique _ hvalid rfl]
  exact hfollow

/-- A script that is a string with nothing but a surrogate in it. -/
def loneString : Text := "\"\\u\x7bd800\x7d\""

theorem run_loneString {s : Session} (hs : s.setup.depth = 1500) :
    s.run loneString = (.success (.string [.surrogate 0]), s.announced loneString) := by
  have hcompile : compile s.setup.depth loneString = .ok
      [.expression (.literal (.string [.surrogate 0]) ⟨0, 10, 1⟩) ⟨0, 10, 1⟩] := by
    rw [hs]
    cbv
  have hrun : (Run.program s.setup s.root .null
      [.expression (.literal (.string [.surrogate 0]) ⟨0, 10, 1⟩) ⟨0, 10, 1⟩]).run
        (s.announced loneString).world =
          (.ok (.string [.surrogate 0]), (s.announced loneString).world) := by
    rw [Run.program, hs]
    rfl
  rw [Session.run_of_compile_ok hcompile,
    Session.runStatements_of_run (s := s.announced loneString) rfl hrun]
  rfl

/-- The log is not shown. -/
theorem shown_announced (s : Session) (source : Text) :
    shown false (s.announced source) s.mark = [] := by
  have hevents : (s.announced source).eventsSince s.mark =
      [.logged ⟨.debug, LogRecord.sessionLogger,
        "running script (" ++ Text.ofNat source.length ++ " chars)"⟩] := by
    change (s.world.events.push _).toList.drop s.world.events.size = _
    rw [Array.toList_push, ← Array.length_toList, List.drop_left]
  rw [shown, hevents]
  rfl

/-- Nothing of such a string can be shown, and the next chunk is not run. -/
theorem loneString_breaks_off :
    ∃ (s : Shell) (r : Reading), start bareTerminal = ([], .ok s) ∧ r.Valid ∧
      r.lines = [loneString, [], "1", []] ∧ r.scripts = [loneString, "1"] ∧
      s.interact r.lines = ([.out ">> ", .out ".. "], .raised (.unencodable ⟨0, 0, 0⟩)) := by
  obtain ⟨config, hstart⟩ := start_bareTerminal
  have hvalid : Reading.Valid (.chunk loneString [] [] (.chunk "1" [] [] (.ended []))) := by
    simp only [Reading.Valid, IsBlank, IsExit]
    decide
  refine ⟨_, _, hstart, hvalid, rfl, rfl, ?_⟩
  rw [interact_eq_follow hvalid rfl]
  have hrun :=
    run_loneString (s := Session.fresh config ⟨bareTerminal.files, [], none, .plain⟩) rfl
  have hsource : Text.join "\n" [loneString] = loneString := rfl
  simp only [follow]
  rw [hsource, runSource_eq, hrun]
  dsimp only
  rw [shown_announced]
  rfl

end Shell

end HostScript
