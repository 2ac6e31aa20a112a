import HostScript.Http.Charset
import HostScript.Proofs.Host.Carrying
import HostScript.Proofs.Host.Outcomes
import HostScript.Proofs.Number.Naturals

/-!
# Buffer numbers on their way through a script

A host hands out a buffer number as a natural number, a script holds it as a number, and the host
gets a natural number back when the script passes it on. It is the one that was handed out if this
fits into a number (`Number.Fits`), and another one otherwise (`call_returns_buffer`).
-/

namespace HostScript

namespace Host

variable {w : World} {m : HostMethod} {values : List Value} {kinds : List ParameterKind}
  {kind : ParameterKind} {v : Value} {parameters : List Json} {link : Link} {reaction : Reaction}
  {setup : Setup} {n k i : ℕ} {x : Float}

/-! ## Handing out -/

/-- A call of a method that gives a buffer number reaches a handler, which returns this one. -/
structure Issues (w : World) (m : HostMethod) (values : List Value) (n : ℕ) : Prop where
  buffer : m.signature.result = some .buffer
  returns : ∃ link reaction, Reaches w m values link reaction ∧
    reaction.outcome = .returns (.integer n)

/-- A script gets the number for the buffer number that is handed out, if there is one. -/
theorem run_call_of_issues (hdepth : 2 ≤ setup.depth) (h : Issues w m values n) :
    ((call setup m values).run w).1 = .ok (.number x) ↔ Number.ofInt? n = some x := by
  obtain ⟨hbuffer, link, reaction, ⟨haccepted, hlink, hopen, hmeasurable, hoffers⟩, houtcome⟩ := h
  have hnesting : (Json.integer n).nesting < setup.depth := by
    change 0 < setup.depth
    omega
  rw [run_call_of_handled haccepted hdepth hlink hopen hmeasurable hoffers, settled, houtcome]
  dsimp only
  by_cases hlong : (Json.integer n).hasLongInteger = true
  · rw [if_pos hlong]
    constructor
    · intro hx
      cases hx
    · intro hx
      rw [hasLongInteger_eq_of_lt (Number.lt_of_ofInt? hx)] at hlong
      cases hlong
  · rw [if_neg hlong, if_pos hnesting, show (Json.integer n).received = .integer n from rfl]
    unfold converted
    rw [hbuffer]
    dsimp only
    cases Number.ofInt? (n : ℤ) <;> simp

/-! ## Passing on -/

theorem Conveys.getElem? (h : Conveys kinds values parameters) (hkind : kinds[i]? = some kind)
    (hv : values[i]? = some v) :
    ∃ document, parameters[i]? = some document ∧ ConveysOne kind v document := by
  induction h generalizing i with
  | nil => exact nomatch hkind
  | cons hone hrest ih =>
    cases i with
    | zero =>
      obtain rfl := Option.some.inj hkind
      obtain rfl := Option.some.inj hv
      exact ⟨_, rfl, hone⟩
    | succ i => exact ih hkind hv

/-- A handler is invoked with the natural number for a buffer number that was passed on. -/
theorem hostCalls_call_of_buffer (hdepth : 2 ≤ setup.depth) (h : Reaches w m values link reaction)
    (hkind : m.kinds[i]? = some .buffer) (hv : values[i]? = some (.number x))
    (hx : Number.truncate? x = some (k : ℤ)) : ∃ parameters,
      World.hostCalls ((call setup m values).run w).2.events.toList =
        World.hostCalls w.events.toList ++ [⟨m.name, parameters⟩] ∧
      parameters[i]? = some (.integer k) := by
  obtain @⟨parameters, haccepted, hlink, hopen, hmeasurable, hoffers⟩ := h
  obtain ⟨document, hdocument, hone⟩ := haccepted.getElem? hkind hv
  refine ⟨Json.receivedItems parameters, ?_, ?_⟩
  · rw [run_call_of_handled haccepted hdepth hlink hopen hmeasurable hoffers]
    simp only [delivered]
    rw [Array.toList_append, hostCalls_append, hostCalls_invoke]
  · rw [getElem?_receivedItems, hdocument]
    cases hone with
    | buffer hwhole hvalue => rw [Option.some.inj (hvalue.symm.trans hx)]; rfl

/-- What becomes of a buffer number `n` that a handler returns. If it fits into a number, the script
gets a number. Whatever number it gets, each method takes it for a buffer number `k`, with which the
handler of the method is then invoked. This is `n` if `n` fits, and another one if not; and of the
buffer numbers that fit, `k` is the one and only for which a script gets this number. -/
theorem call_returns_buffer (hdepth : 2 ≤ setup.depth) (h : Issues w m values n) :
    (Number.Fits n → n < 2 ^ 1024 → ∃ x, ((call setup m values).run w).1 = .ok (.number x)) ∧
    ∀ x, ((call setup m values).run w).1 = .ok (.number x) → ∃ k : ℕ,
      Number.Fits k ∧ (k = n ↔ Number.Fits n) ∧
      (∀ position, convertArgument .buffer position (.number x) = .ok (.integer k)) ∧
      (∀ (w' : World) (m' : HostMethod) (values' : List Value) (link : Link) (reaction : Reaction)
        (i : ℕ), Reaches w' m' values' link reaction → m'.kinds[i]? = some .buffer →
          values'[i]? = some (.number x) → ∃ parameters,
            World.hostCalls ((call setup m' values').run w').2.events.toList =
              World.hostCalls w'.events.toList ++ [⟨m'.name, parameters⟩] ∧
            parameters[i]? = some (.integer k)) ∧
      ∀ (w' : World) (m' : HostMethod) (values' : List Value) (n' : ℕ), Issues w' m' values' n' →
        Number.Fits n' → (((call setup m' values').run w').1 = .ok (.number x) ↔ n' = k) := by
  refine ⟨fun hfits hn => ?_, fun x hx => ?_⟩
  · obtain ⟨x, hx⟩ := Number.exists_ofInt?_eq_some hfits hn
    exact ⟨x, (run_call_of_issues hdepth h).mpr hx⟩
  rw [run_call_of_issues hdepth h] at hx
  obtain ⟨k, hk, hsame, hwhole, hvalue, hback⟩ := Number.exists_of_ofInt? hx
  refine ⟨k, hk, ⟨fun heq => heq ▸ hk, hsame⟩, fun position => ?_, ?_, ?_⟩
  · exact convertArgument_buffer.mpr (.buffer hwhole hvalue)
  · intro w' m' values' link reaction i hreaches hkind hv
    exact hostCalls_call_of_buffer hdepth hreaches hkind hv hvalue
  · intro w' m' values' n' hissues hn'
    rw [run_call_of_issues hdepth hissues]
    constructor
    · intro hx'
      obtain ⟨k', -, hsame', -, hvalue', -⟩ := Number.exists_of_ofInt? hx'
      rw [← hsame' hn']
      exact Int.ofNat.inj (Option.some.inj (hvalue'.symm.trans hvalue))
    · rintro rfl
      exact hback

/-! ## A host with one buffer -/

/-- A host that hands out one buffer number. -/
def handing (n : ℕ) : Host :=
  Behavior.host (Dict.ofList [("create_special_buffer", ⟨true, false, .gives (.integer n)⟩),
    ("set_active_buffer", ⟨true, false, .gives .null⟩)])

/-- A world that is linked to it. -/
def linkedToBuffer (n : ℕ) : World :=
  ⟨⟨#[]⟩, .empty, 0, #[], some ⟨handing n, true, .null⟩, []⟩

theorem issues_handing {n : ℕ} : Issues (linkedToBuffer n) .createSpecialBuffer [] n :=
  ⟨rfl, ⟨handing n, true, .null⟩, ⟨[], false, .returns (.integer n)⟩,
    .intro .nil rfl rfl rfl rfl, rfl⟩

/-- A large buffer number, with zero bits at its end, comes back to the host. -/
theorem call_returns_buffer_large :
    Issues (linkedToBuffer (2 ^ 60)) .createSpecialBuffer [] (2 ^ 60) ∧
    ∃ x, ((call ⟨1500, 10, true, .default, .usual⟩ .createSpecialBuffer []).run
        (linkedToBuffer (2 ^ 60))).1 = .ok (.number x) ∧
      ∃ parameters, World.hostCalls ((call ⟨1500, 10, true, .default, .usual⟩ .setActiveBuffer
          [.number x]).run (linkedToBuffer (2 ^ 60))).2.events.toList =
            [⟨"set_active_buffer", parameters⟩] ∧
        parameters[0]? = some (.integer (2 ^ 60)) := by
  have hfits : Number.Fits (2 ^ 60) := ⟨1, 60, by decide, by decide⟩
  obtain ⟨hgiven, hreturned⟩ :=
    @call_returns_buffer _ _ _ ⟨1500, 10, true, .default, .usual⟩ _ (by decide)
      (@issues_handing (2 ^ 60))
  obtain ⟨x, hx⟩ := hgiven hfits (pow_lt_pow_right₀ one_lt_two (by decide))
  obtain ⟨k, -, hk, haccepted, hreceived, -⟩ := hreturned x hx
  obtain rfl := hk.mpr hfits
  have hreaches : Reaches (linkedToBuffer (2 ^ 60)) .setActiveBuffer [.number x]
      ⟨handing (2 ^ 60), true, .null⟩ ⟨[], false, .returns .null⟩ :=
    .intro (.cons (convertArgument_buffer.mp (haccepted 1)) .nil) rfl rfl rfl rfl
  obtain ⟨parameters, hcalls, hparameter⟩ := hreceived _ _ _ _ _ 0 hreaches rfl rfl
  exact ⟨issues_handing, x, hx, parameters, hcalls, hparameter⟩

end Host

namespace Session

open Host

/-- A session without a bootstrap script that is linked to a host that hands out a buffer number
with too many bits. -/
def withOddBuffer : Session :=
  fresh quiet ⟨[], [], some ⟨handing (2 ^ 53 + 1), true, .null⟩, .plain⟩

/-- The host that handed it out is given another one back. -/
theorem oddBuffer_changes :
    History [] withOddBuffer ∧
      (handing (2 ^ 53 + 1)).respond [] ⟨"create_special_buffer", []⟩ =
        ⟨[], false, .returns (.integer 9007199254740993)⟩ ∧
      (World.hostCalls (withOddBuffer.run
          "setActiveBuffer(createSpecialBuffer())").2.world.events.toList).map
            (fun call => (call.name, call.parameters.map (Json.write .plain))) =
        ([("create_special_buffer", []), ("set_active_buffer", ["9007199254740992"])] :
          List (Text × List Text)) := by
  refine ⟨History.fresh quiet _, rfl, ?_⟩
  decide +kernel

end Session

end HostScript
