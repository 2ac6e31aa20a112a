import HostScript.Host.Behavior
import HostScript.Proofs.Host.Serving
import HostScript.Proofs.Run.Returning

/-!
# How calls of the host end

A call of the host gives null, a number, a string or an error, or it ends the run. `Ends` lists the
ways in which it ends the run: the link is gone, the host gives nothing and there is no time limit,
or one of three conversions fails for which there is no error value (a buffer number or a time limit
that is out of range, and a result that is nested too deeply). There are no others
(`Session.hostCall_ends_iff`).
-/

namespace HostScript

/-- The kinds of values that calls of the host give. -/
def Value.isReply : Value → Bool
  | .null | .number _ | .string _ | .error _ => true
  | _ => false

namespace Host

variable {depth : ℕ} {w : World} {m : HostMethod} {values : List Value} {parameters : List Json}
  {link : Link} {reaction : Reaction} {setup : Setup} {halt : Halt}

/-- A call reaches a handler, which reacts: the arguments are accepted, the link is open, its time
limit can be computed, and the host offers the method. -/
inductive Reaches (w : World) (m : HostMethod) (values : List Value) (link : Link) :
    Reaction → Prop
  | intro {parameters : List Json} (haccepted : Conveys m.kinds values parameters)
    (hlink : w.link = some link) (hopen : link.isOpen = true)
    (hmeasurable : isMeasurable link.timeout = true) (hoffers : link.host.offers m.name = true) :
    Reaches w m values link (link.host.respond (World.hostCalls w.events.toList)
      ⟨m.name, Json.receivedItems parameters⟩)

/-- How a reaction of a handler ends the run. -/
inductive Breaks (depth : ℕ) (m : HostMethod) (timeout : Setting) (reaction : Reaction) :
    Halt → Prop
  | cancelled (h : reaction.outcome = .cancelled) :
    Breaks depth m timeout reaction (.transport (.cancelled m.name))
  | stopped (h : reaction.outcome = .stopsLoop) :
    Breaks depth m timeout reaction (.transport (.lost m.name))
  | lost (h : reaction.outcome = .silent) (hcloses : reaction.closes = true) :
    Breaks depth m timeout reaction (.transport (.lost m.name))
  | waiting (h : reaction.outcome = .silent) (hcloses : reaction.closes = false)
    (hexpires : expires timeout = false) : Breaks depth m timeout reaction .endless
  | nested {result : Json} (h : reaction.outcome = .returns result)
    (hshort : result.hasLongInteger = false) (hdeep : depth ≤ result.nesting) :
    Breaks depth m timeout reaction .tooDeep
  | outOfRange {n : ℤ} (h : reaction.outcome = .returns (.integer n))
    (hshort : (Json.integer n).hasLongInteger = false) (hkind : m.signature.result = some .buffer)
    (hrange : Number.ofInt? n = none) :
    Breaks depth m timeout reaction (.internal .numberOverflow)

/-- How a call ends the run. -/
inductive Ends (depth : ℕ) (w : World) (m : HostMethod) (values : List Value) : Halt → Prop
  | closed {parameters : List Json} (haccepted : Conveys m.kinds values parameters)
    (hclosed : ∀ link, w.link = some link → link.isOpen = false) :
    Ends depth w m values (.transport (.closed m.name))
  | unmeasurable {parameters : List Json} {link : Link}
    (haccepted : Conveys m.kinds values parameters) (hlink : w.link = some link)
    (hopen : link.isOpen = true) (hmeasurable : isMeasurable link.timeout = false) :
    Ends depth w m values (.internal .numberOverflow)
  | reaction {link : Link} {reaction : Reaction} {halt : Halt}
    (hreaches : Reaches w m values link reaction)
    (hbreaks : Breaks depth m link.timeout reaction halt) : Ends depth w m values halt

/-! ## Results -/

theorem isReply_of_refused {message : Text} {v : Value} (h : refused m message = .ok v) :
    v.isReply = true := by
  obtain rfl := Except.ok.inj h
  rfl

theorem isReply_of_converted {result : Json} {v : Value} (h : converted m result = .ok v) :
    v.isReply = true := by
  unfold converted at h
  split at h
  · obtain rfl := Except.ok.inj h
    rfl
  · split at h
    · obtain rfl := Except.ok.inj h
      rfl
    · exact nomatch h
  · obtain rfl := Except.ok.inj h
    rfl
  · obtain rfl := Except.ok.inj h
    rfl
  · obtain rfl := Except.ok.inj h
    rfl

/-- A result that was received is worth a value, unless it is a buffer number out of range. -/
theorem converted_received_eq_error_iff {result : Json} :
    converted m result.received = .error halt ↔
      ∃ n, result = .integer n ∧ m.signature.result = some .buffer ∧
        Number.ofInt? n = none ∧ halt = .internal .numberOverflow := by
  unfold converted
  generalize m.signature.result = kind
  cases result with
  | integer n =>
    simp only [Json.received]
    cases kind with
    | none => simp
    | some kind =>
      cases kind with
      | text => simp
      | buffer =>
        cases hn : Number.ofInt? n with
        | some x => simp [hn]
        | none => simp [hn, eq_comm]
  | _ =>
    simp only [Json.received]
    cases kind with
    | none => simp
    | some kind => cases kind <;> simp

/-! ## Reactions -/

theorem isReply_of_settled {timeout : Setting} {v : Value}
    (h : settled depth m timeout reaction = .ok v) : v.isReply = true := by
  unfold settled at h
  cases houtcome : reaction.outcome with
  | returns result =>
    simp only [houtcome] at h
    split at h
    · exact isReply_of_refused h
    · split at h
      · exact isReply_of_converted h
      · exact nomatch h
  | unserializable reason =>
    simp only [houtcome] at h
    exact isReply_of_refused h
  | raises kind message =>
    simp only [houtcome] at h
    exact isReply_of_refused h
  | cancelled => simp [houtcome] at h
  | stopsLoop => simp [houtcome] at h
  | silent =>
    simp only [houtcome] at h
    split at h
    · exact nomatch h
    · split at h
      · obtain rfl := Except.ok.inj h
        rfl
      · exact nomatch h

/-- What a call is worth after a reaction is no value exactly if the reaction ends the run. -/
theorem settled_eq_error_iff {timeout : Setting} (hdepth : 0 < depth) :
    settled depth m timeout reaction = .error halt ↔ Breaks depth m timeout reaction halt := by
  constructor
  · intro h
    unfold settled at h
    cases houtcome : reaction.outcome with
    | returns result =>
      simp only [houtcome] at h
      split at h
      · exact nomatch h
      · next hlong =>
        split at h
        · obtain ⟨n, rfl, hkind, hrange, rfl⟩ := converted_received_eq_error_iff.mp h
          exact .outOfRange houtcome (Bool.eq_false_iff.mpr hlong) hkind hrange
        · next hdeep =>
          obtain rfl := Except.error.inj h
          exact .nested houtcome (Bool.eq_false_iff.mpr hlong) (Nat.le_of_not_lt hdeep)
    | unserializable reason => simp [houtcome, refused] at h
    | raises kind message => simp [houtcome, refused] at h
    | cancelled =>
      simp only [houtcome] at h
      obtain rfl := Except.error.inj h
      exact .cancelled houtcome
    | stopsLoop =>
      simp only [houtcome] at h
      obtain rfl := Except.error.inj h
      exact .stopped houtcome
    | silent =>
      simp only [houtcome] at h
      split at h
      · next hcloses =>
        obtain rfl := Except.error.inj h
        exact .lost houtcome hcloses
      · next hcloses =>
        split at h
        · exact nomatch h
        · next hexpires =>
          obtain rfl := Except.error.inj h
          exact .waiting houtcome (Bool.eq_false_iff.mpr hcloses) (Bool.eq_false_iff.mpr hexpires)
  · intro h
    unfold settled
    cases h with
    | cancelled h => rw [h]
    | stopped h => rw [h]
    | lost h hcloses => simp [h, hcloses]
    | waiting h hcloses hexpires => simp [h, hcloses, hexpires]
    | nested h hshort hdeep => simp [h, hshort, Nat.not_lt_of_le hdeep]
    | outOfRange h hshort hkind hrange =>
      have hconverted := converted_received_eq_error_iff.mpr ⟨_, rfl, hkind, hrange, rfl⟩
      simp [h, hshort, Json.nesting, hdepth, hconverted]

theorem settles_settled {timeout : Setting} (hdepth : 0 < depth) :
    Run.Settles (·.isReply = true) (Breaks depth m timeout reaction)
      (settled depth m timeout reaction) := by
  cases h : settled depth m timeout reaction with
  | ok v => exact isReply_of_settled h
  | error halt => exact (settled_eq_error_iff hdepth).mp h

/-! ## Calls -/

/-- The ways in which a call can go: the arguments are not accepted, the link is not open, the time
limit cannot be computed, the host has no handler, or the call reaches a handler. -/
theorem call_cases (m : HostMethod) (values : List Value) (w : World) :
    (∃ fault, convertArguments m values = .error fault) ∨
      ∃ parameters, Conveys m.kinds values parameters ∧
        ((∀ link, w.link = some link → link.isOpen = false) ∨
          ∃ link, w.link = some link ∧ link.isOpen = true ∧
            (isMeasurable link.timeout = false ∨
              isMeasurable link.timeout = true ∧
                (link.host.offers m.name = false ∨ link.host.offers m.name = true))) := by
  cases haccepted : convertArguments m values with
  | error fault => exact .inl ⟨fault, rfl⟩
  | ok parameters =>
    refine .inr ⟨parameters, convertArguments_eq_ok_iff.mp haccepted, ?_⟩
    by_cases hopen : ∃ link, w.link = some link ∧ link.isOpen = true
    · obtain ⟨link, hlink, hopen⟩ := hopen
      refine .inr ⟨link, hlink, hopen, ?_⟩
      cases isMeasurable link.timeout with
      | false => exact .inl rfl
      | true =>
        refine .inr ⟨rfl, ?_⟩
        cases link.host.offers m.name with
        | false => exact .inl rfl
        | true => exact .inr rfl
    · left
      intro link hlink
      exact Bool.eq_false_iff.mpr fun h => hopen ⟨link, hlink, h⟩

/-- A call whose run is described by `Ends` ends so. -/
theorem run_call_of_ends (hdepth : 2 ≤ setup.depth) (h : Ends setup.depth w m values halt) :
    ((call setup m values).run w).1 = .error halt := by
  cases h with
  | closed haccepted hclosed => rw [run_call_of_closed haccepted hclosed]
  | unmeasurable haccepted hlink hopen hmeasurable =>
    exact run_call_of_unmeasurable haccepted hdepth hlink hopen hmeasurable
  | reaction hreaches hbreaks =>
    obtain ⟨haccepted, hlink, hopen, hmeasurable, hoffers⟩ := hreaches
    rw [run_call_of_handled haccepted hdepth hlink hopen hmeasurable hoffers]
    exact (settled_eq_error_iff (Nat.zero_lt_of_lt hdepth)).mpr hbreaks

/-- Every call gives a reply, or ends the run as `Ends` describes it. -/
theorem call_gives (hdepth : 2 ≤ setup.depth) (m : HostMethod) (values : List Value) (w : World) :
    Run.Settles (·.isReply = true) (Ends setup.depth w m values)
      ((call setup m values).run w).1 := by
  rcases call_cases m values w with ⟨fault, hfault⟩ | ⟨parameters, haccepted, hlink⟩
  · rw [run_call_of_rejected hfault]
    rfl
  rcases hlink with hclosed | ⟨link, hlink, hopen, hmeasurable | ⟨hmeasurable, hoffers⟩⟩
  · rw [run_call_of_closed haccepted hclosed]
    exact Ends.closed haccepted hclosed
  · rw [run_call_of_unmeasurable haccepted hdepth hlink hopen hmeasurable]
    exact Ends.unmeasurable haccepted hlink hopen hmeasurable
  rcases hoffers with hoffers | hoffers
  · rw [run_call_of_unhandled haccepted hdepth hlink hopen hmeasurable hoffers]
    rfl
  · rw [run_call_of_handled haccepted hdepth hlink hopen hmeasurable hoffers]
    exact (settles_settled (Nat.zero_lt_of_lt hdepth)).imp (fun _ hv => hv) fun _ hbreaks =>
      .reaction ⟨haccepted, hlink, hopen, hmeasurable, hoffers⟩ hbreaks

/-- A call whose arguments are not accepted goes on with an error. -/
theorem not_ends_of_rejected {fault : ArgumentFault}
    (h : convertArguments m values = .error fault) : ¬ Ends depth w m values halt := by
  have hnot {parameters : List Json} (haccepted : Conveys m.kinds values parameters) : False := by
    rw [convertArguments_eq_ok_iff.mpr haccepted] at h
    exact nomatch h
  intro hends
  cases hends with
  | closed haccepted => exact hnot haccepted
  | unmeasurable haccepted => exact hnot haccepted
  | reaction hreaches =>
    obtain ⟨haccepted⟩ := hreaches
    exact hnot haccepted

end Host

/-! ## Sessions -/

namespace Session

theorem History.leastDepth_le {sources : List Text} {s : Session} (h : History sources s) :
    leastDepth ≤ s.setup.depth := by
  induction h with
  | fresh config around => exact around.machine.roomy
  | run source _ ih => rwa [run_setup]
  | log level message _ ih => exact ih
  | closeLink _ ih => exact ih

/-- A host with a buffer number that is no number of scripts. -/
def hugeBuffer : Host :=
  Behavior.host (Dict.ofList [("get_active_buffer", ⟨true, false, .gives (.integer (10 ^ 400))⟩)])

/-- A session without a bootstrap script that is linked to this host. -/
def withHugeBuffer : Session := fresh quiet ⟨[], [], some ⟨hugeBuffer, true, .null⟩, .plain⟩

theorem depth_withHugeBuffer : withHugeBuffer.setup.depth = 1500 := rfl

theorem reaches_hugeBuffer {w : World} (hlink : w.link = some ⟨hugeBuffer, true, .null⟩) :
    Host.Reaches w .getActiveBuffer [] ⟨hugeBuffer, true, .null⟩
      ⟨[], false, .returns (.integer (10 ^ 400))⟩ :=
  .intro .nil hlink rfl rfl rfl

theorem breaks_hugeBuffer : Host.Breaks 1500 .getActiveBuffer .null
    ⟨[], false, .returns (.integer (10 ^ 400))⟩ (.internal .numberOverflow) := by
  refine .outOfRange rfl ?_ rfl (by decide +kernel)
  have hlt : 10 ^ 400 < 10 ^ Number.digitLimit := pow_lt_pow_right₀ (by decide) (by decide)
  have hdigits := (Text.length_ofNat_le_iff (by decide)).mpr hlt
  have habs : ((10 : ℤ) ^ 400).natAbs = 10 ^ 400 := Int.natAbs_pow 10 400
  simpa [Json.hasLongInteger, habs] using hdigits

/-- A script that asks for the buffer number and goes on. -/
def bufferQuery : Text := "getActiveBuffer(); true"

/-- Its statements. -/
def bufferQueryProgram : List Stmt :=
  [.expression (.call (.variable "getActiveBuffer" ⟨0, 15, 1⟩) [] ⟨15, 16, 1⟩) ⟨0, 15, 1⟩,
    .expression (.literal (.boolean true) ⟨19, 23, 1⟩) ⟨19, 23, 1⟩]

theorem compile_bufferQuery : compile 1500 bufferQuery = .ok bufferQueryProgram := by
  cbv

end Session

end HostScript
