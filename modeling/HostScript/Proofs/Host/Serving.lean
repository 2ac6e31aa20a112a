import HostScript.Host.Client
import HostScript.Proofs.Json.Wire
import HostScript.Proofs.Number.Integers
import HostScript.Proofs.Run.Ensures

/-!
# Requests and answers

What becomes of a call on its way to the host and back. Accepted arguments are numbers, strings and
names (`Conveys`), which arrive at the handler as they were sent, but for pairs of surrogates
(`serve_requestText`). An answer that was sent is read as an error or as a result
(`readAnswer_refusal`, `readAnswer_success`).
-/

namespace HostScript

/-! ## Methods -/

theorem Text.ofString_inj {s t : String} : ofString s = ofString t ↔ s = t := by
  have hscalar : Function.Injective CodePoint.scalar := fun _ _ h => CodePoint.scalar.inj h
  rw [ofString, ofString, (List.map_injective_iff.mpr hscalar).eq_iff, String.toList_inj]

theorem HostMethod.ofName?_name (m : HostMethod) : HostMethod.ofName? m.name = some m := by
  have hname (m m' : HostMethod) :
      (m.name = m'.name) = (m.signature.name = m'.signature.name) :=
    propext Text.ofString_inj
  simp only [ofName?, hname]
  cases m <;> simp [all, signature]

theorem HostMethod.paired_name (m : HostMethod) : m.name.paired = m.name :=
  Text.paired_ofString m.signature.name

namespace Host

variable {kind : ParameterKind} {kinds : List ParameterKind} {v : Value} {values : List Value}
  {document : Json} {parameters : List Json} {depth : ℕ}

theorem handles_name (host : Host) (m : HostMethod) :
    host.handles m.name = host.offers m.name := by
  rw [handles, m.ofName?_name, Option.isSome_some, Bool.and_true]

/-! ## Arguments -/

/-- What a host is sent for an argument: a buffer number as the integer that it is, a function by
its name, and a string as it is. -/
inductive ConveysOne : ParameterKind → Value → Json → Prop
  | buffer {x : Float} {n : ℕ} (hwhole : Number.isInteger x = true)
    (hvalue : Number.truncate? x = some (n : ℤ)) : ConveysOne .buffer (.number x) (.integer n)
  | title (t : Text) : ConveysOne .function (.string t) (.string t)
  | named {f : Function} {t : Text} (hname : f.name? = some t) :
    ConveysOne .function (.function f) (.string t)
  | text (t : Text) : ConveysOne .text (.string t) (.string t)

/-- What a host is sent for the arguments of parameters of the given kinds, one document each. -/
inductive Conveys : List ParameterKind → List Value → List Json → Prop
  | nil : Conveys [] [] []
  | cons {kind : ParameterKind} {kinds : List ParameterKind} {v : Value} {values : List Value}
    {document : Json} {documents : List Json} (h : ConveysOne kind v document)
    (hrest : Conveys kinds values documents) :
    Conveys (kind :: kinds) (v :: values) (document :: documents)

theorem convertArgument_buffer {position : ℕ} {x : Float} :
    convertArgument .buffer position (.number x) = .ok document ↔
      ConveysOne .buffer (.number x) document := by
  unfold convertArgument
  dsimp only
  split
  · next n hn =>
    constructor
    · intro h
      split at h
      · exact nomatch h
      · next hvalid =>
        simp only [not_or, Bool.not_eq_eq_eq_not, Bool.not_true, Bool.not_eq_false] at hvalid
        obtain ⟨hsign, hwhole⟩ := hvalid
        rw [Number.lt_zero_iff_of_isInteger hwhole hn, not_lt] at hsign
        obtain ⟨k, rfl⟩ := Int.eq_ofNat_of_zero_le hsign
        obtain rfl := Except.ok.inj h
        exact .buffer hwhole hn
    · intro h
      cases h with
      | @buffer _ k hwhole hvalue =>
        obtain rfl : n = k := Option.some.inj (hn.symm.trans hvalue)
        have hsign : ¬ x < 0 := by
          rw [Number.lt_zero_iff_of_isInteger hwhole hn]
          omega
        rw [if_neg]
        simp [hsign, hwhole]
  · next hn =>
    refine iff_of_false nofun fun h => ?_
    cases h with
    | buffer hwhole hvalue => rw [hn] at hvalue; exact nomatch hvalue

/-- An argument is accepted if it can be sent, and then it is what is sent. -/
theorem convertArgument_eq_ok_iff (position : ℕ) :
    convertArgument kind position v = .ok document ↔ ConveysOne kind v document := by
  cases kind with
  | buffer =>
    cases v with
    | number x => exact convertArgument_buffer
    | _ => exact iff_of_false nofun nofun
  | text =>
    cases v with
    | string t =>
      constructor
      · intro h
        obtain rfl := Except.ok.inj h
        exact .text t
      · rintro ⟨⟩
        rfl
    | _ => exact iff_of_false nofun nofun
  | function =>
    cases v with
    | string t =>
      constructor
      · intro h
        obtain rfl := Except.ok.inj h
        exact .title t
      · rintro ⟨⟩
        rfl
    | function f =>
      unfold convertArgument
      dsimp only
      split
      · next t ht =>
        constructor
        · intro h
          obtain rfl := Except.ok.inj h
          exact .named ht
        · intro h
          cases h with
          | named hname => rw [Option.some.inj (ht.symm.trans hname)]
      · next ht =>
        refine iff_of_false nofun fun h => ?_
        cases h with
        | named hname => rw [ht] at hname; exact nomatch hname
    | _ => exact iff_of_false nofun nofun

theorem convertFrom_cons {position : ℕ} :
    convertFrom position (kind :: kinds) (v :: values) = .ok parameters ↔
      ∃ document documents, convertArgument kind position v = .ok document ∧
        convertFrom (position + 1) kinds values = .ok documents ∧
        document :: documents = parameters := by
  simp only [convertFrom]
  cases convertArgument kind position v with
  | error fault => exact iff_of_false nofun (by rintro ⟨_, _, ⟨⟩, _⟩)
  | ok document =>
    cases convertFrom (position + 1) kinds values with
    | error fault => exact iff_of_false nofun (by rintro ⟨_, _, _, ⟨⟩, _⟩)
    | ok documents =>
      constructor
      · intro h
        exact ⟨document, documents, rfl, rfl, Except.ok.inj h⟩
      · rintro ⟨_, _, ⟨⟩, ⟨⟩, rfl⟩
        rfl

theorem convertFrom_eq_ok_iff (position : ℕ) (hlength : kinds.length = values.length) :
    convertFrom position kinds values = .ok parameters ↔ Conveys kinds values parameters := by
  induction kinds generalizing values parameters position with
  | nil =>
    obtain rfl := List.length_eq_zero_iff.mp hlength.symm
    constructor
    · intro h
      obtain rfl := Except.ok.inj h
      exact .nil
    · rintro ⟨⟩
      rfl
  | cons kind kinds ih =>
    cases values with
    | nil => exact nomatch hlength
    | cons v values =>
      rw [convertFrom_cons]
      simp only [convertArgument_eq_ok_iff, ih _ (Nat.succ.inj hlength)]
      constructor
      · rintro ⟨document, documents, hone, hrest, rfl⟩
        exact .cons hone hrest
      · rintro ⟨⟩
        exact ⟨_, _, ‹_›, ‹_›, rfl⟩

theorem Conveys.length_eq (h : Conveys kinds values parameters) :
    kinds.length = values.length := by
  induction h with
  | nil => rfl
  | cons h hrest ih => rw [List.length_cons, List.length_cons, ih]

/-- The arguments of a method are accepted if there is one for each parameter that can be sent. -/
theorem convertArguments_eq_ok_iff {m : HostMethod} :
    convertArguments m values = .ok parameters ↔ Conveys m.kinds values parameters := by
  unfold convertArguments countFault?
  by_cases hlength : m.kinds.length = values.length
  · rw [if_neg (by omega), if_neg (by omega)]
    exact convertFrom_eq_ok_iff 1 hlength
  · refine iff_of_false ?_ fun h => hlength h.length_eq
    split_ifs
    · exact nofun
    · exact nofun
    · omega

/-! ## Requests -/

theorem ConveysOne.nesting_eq (h : ConveysOne kind v document) : document.nesting = 0 := by
  cases h <;> rfl

/-- What is in the range of numbers has fewer digits than the longest integer that is written. -/
theorem hasLongInteger_eq_of_lt {n : ℕ} (hn : n < 2 ^ 1024) :
    (Json.integer n).hasLongInteger = false := by
  have hpow : 2 ^ 1024 ≤ 10 ^ Number.digitLimit := by
    calc 2 ^ 1024 ≤ 10 ^ 1024 := pow_le_pow_left₀ (by decide) (by decide) 1024
      _ ≤ 10 ^ Number.digitLimit := pow_le_pow_right₀ (by decide) (by decide)
  have hshort : (Text.ofNat n).length ≤ Number.digitLimit :=
    (Text.length_ofNat_le_iff (by decide)).mpr (lt_of_lt_of_le hn hpow)
  simpa [Json.hasLongInteger] using hshort

theorem ConveysOne.hasLongInteger_eq (h : ConveysOne kind v document) :
    document.hasLongInteger = false := by
  cases h with
  | buffer hwhole hvalue =>
    have hlt := Number.natAbs_lt_of_truncate? hvalue
    rw [Int.natAbs_natCast] at hlt
    exact hasLongInteger_eq_of_lt hlt
  | _ => rfl

theorem Conveys.nestingOfItems_eq (h : Conveys kinds values parameters) :
    Json.nestingOfItems parameters = 0 := by
  induction h with
  | nil => rfl
  | cons h hrest ih => rw [Json.nestingOfItems, h.nesting_eq, ih, Nat.max_self]

theorem Conveys.hasLongIntegers_eq (h : Conveys kinds values parameters) :
    Json.hasLongIntegers parameters = false := by
  induction h with
  | nil => rfl
  | cons h hrest ih => rw [Json.hasLongIntegers, h.hasLongInteger_eq, ih, Bool.or_false]

/-- The document of a request. -/
abbrev requestDocument (m : HostMethod) (parameters : List Json) : Json :=
  .object [("method", .string m.name), ("params", .array parameters)]

/-- A request is read as its document, with the parameters as they are received. -/
theorem read_requestText {m : HostMethod} (h : Conveys m.kinds values parameters)
    (hdepth : 2 ≤ depth) :
    Json.read .wire depth (requestText m parameters) =
      .ok (requestDocument m (Json.receivedItems parameters)) := by
  have hshort : (requestDocument m parameters).hasLongInteger = false := by
    simp [Json.hasLongInteger, Json.hasLongMembers, h.hasLongIntegers_eq]
  have hnesting : (requestDocument m parameters).nesting = 2 := by
    simp [Json.nesting, Json.nestingOfMembers, h.nestingOfItems_eq]
  have hreceived : (requestDocument m parameters).received =
      requestDocument m (Json.receivedItems parameters) := by
    simp only [requestDocument, Json.received, Json.receivedMembers, m.paired_name]
    rfl
  rw [requestText, wire, Json.read_wire hshort, Json.receive, hnesting, if_pos hdepth, hreceived]

/-- A request arrives with the parameters as they are received. -/
theorem serve_requestText {m : HostMethod} (h : Conveys m.kinds values parameters)
    (hdepth : 2 ≤ depth) (host : Host) (earlier : List HostCall) :
    host.serve depth earlier (requestText m parameters) =
      if host.offers m.name then
        host.invoke earlier m.name (.array (Json.receivedItems parameters))
      else ⟨[], false, refusal ("host does not implement " ++ m.name)⟩ := by
  rw [serve, read_requestText h hdepth, ← handles_name]
  rfl

/-! ## Answers -/

/-- A refusal is read as an error. -/
theorem readAnswer_refusal (message : Text) (hdepth : 1 ≤ depth) :
    readAnswer depth (wire (.object [("error", .string message)])) =
      .ok (.error message.paired) := by
  have hread : Json.read .wire depth (wire (.object [("error", .string message)])) =
      .ok (.object [("error", .string message.paired)]) := by
    rw [wire, Json.read_wire rfl]
    exact if_pos hdepth
  rw [readAnswer, hread]
  rfl

/-- A result is read as what is received of it, unless it is nested too deeply. -/
theorem readAnswer_success {result : Json} (hshort : result.hasLongInteger = false) :
    readAnswer depth (wire (.object [("result", result)])) =
      if result.nesting < depth then .ok (.ok result.received) else .error .tooDeep := by
  have hlong : (Json.object [("result", result)]).hasLongInteger = false := by
    simp [Json.hasLongInteger, Json.hasLongMembers, hshort]
  have hnesting : (Json.object [("result", result)]).nesting = result.nesting + 1 := by
    simp [Json.nesting, Json.nestingOfMembers]
  rw [readAnswer, wire, Json.read_wire hlong, Json.receive, hnesting]
  by_cases h : result.nesting < depth
  · rw [if_pos h, if_pos (Nat.succ_le_of_lt h)]
    rfl
  · rw [if_neg h, if_neg fun hle => h (Nat.lt_of_succ_le hle)]

/-! ## Calls -/

variable {setup : Setup} {m : HostMethod} {w : World} {link : Link}

/-- What a result is worth, or why the run ends with it. -/
def converted (m : HostMethod) (result : Json) : Except Halt Value :=
  match m.signature.result, result with
  | none, _ => .ok .null
  | some .buffer, .integer n =>
    match Number.ofInt? n with
    | some x => .ok (.number x)
    | none => .error (.internal .numberOverflow)
  | some .buffer, .number x => .ok (.number x)
  | some .text, .string t => .ok (.string t)
  | some kind, result => .ok (unexpectedResult m kind result)

theorem run_convertResult (m : HostMethod) (result : Json) (w : World) :
    (convertResult m result).run w = (converted m result, w) := by
  unfold convertResult converted
  generalize m.signature.result = kind
  cases kind with
  | none => rfl
  | some kind =>
    cases kind with
    | text => cases result <;> rfl
    | buffer =>
      cases result with
      | integer n =>
        dsimp only
        cases Number.ofInt? n <;> rfl
      | _ => rfl

/-- What a call is worth whose answer is an error. -/
def refused (m : HostMethod) (message : Text) : Except Halt Value :=
  .ok (.error (m.name ++ ": " ++ message.paired))

/-- What a call is worth after the handler has reacted, or why the run ends with it. -/
def settled (depth : ℕ) (m : HostMethod) (timeout : Setting) (reaction : Reaction) :
    Except Halt Value :=
  match reaction.outcome with
  | .returns result =>
    if result.hasLongInteger then
      refused m ("unserializable result from " ++ m.name ++ ": " ++ longInteger)
    else if result.nesting < depth then converted m result.received
    else .error .tooDeep
  | .unserializable reason => refused m ("unserializable result from " ++ m.name ++ ": " ++ reason)
  | .raises kind message => refused m (kind ++ ": " ++ message)
  | .cancelled => .error (.transport (.cancelled m.name))
  | .silent =>
    if reaction.closes then .error (.transport (.lost m.name))
    else if expires timeout then .ok (timedOut m timeout)
    else .error .endless
  | .stopsLoop => .error (.transport (.lost m.name))

theorem run_conclusion_refusal (hdepth : 1 ≤ setup.depth) (message : Text) :
    (conclusion setup m link (refusal message)).run w = (refused m message, w) := by
  rw [refusal, conclusion, readAnswer_refusal message hdepth]
  rfl

theorem run_conclusion_success {result : Json} (hshort : result.hasLongInteger = false) :
    (conclusion setup m link (success result)).run w =
      (if result.nesting < setup.depth then converted m result.received else .error .tooDeep,
        w) := by
  rw [success, conclusion, readAnswer_success hshort]
  by_cases h : result.nesting < setup.depth
  · rw [if_pos h, if_pos h]
    exact run_convertResult m _ w
  · rw [if_neg h, if_neg h]
    rfl

/-- The answer to a call that reached its handler. -/
theorem run_conclusion_conclude (hdepth : 1 ≤ setup.depth) (hopen : link.isOpen = true)
    (reaction : Reaction) (served : Served) (hcloses : served.closes = reaction.closes)
    (hanswer : served.answer = (conclude m.name reaction.outcome).2) :
    (conclusion setup m (after link served) served.answer).run w =
      (settled setup.depth m link.timeout reaction, w) := by
  rw [after, hanswer, hcloses, hopen, settled]
  cases reaction.outcome with
  | returns result =>
    rw [conclude]
    dsimp only
    by_cases hlong : result.hasLongInteger = true
    · rw [if_pos hlong, if_pos hlong]
      exact run_conclusion_refusal hdepth _
    · rw [if_neg hlong, if_neg hlong]
      exact run_conclusion_success (Bool.eq_false_iff.mpr hlong)
  | unserializable reason => exact run_conclusion_refusal hdepth _
  | raises kind message => exact run_conclusion_refusal hdepth _
  | cancelled => rfl
  | stopsLoop => rfl
  | silent =>
    simp only [conclude, conclusion, Bool.true_and, Bool.not_not]
    split
    · rfl
    · split <;> rfl

/-- A call with arguments that are not accepted is an error and nothing else. -/
theorem run_call_of_rejected {fault : ArgumentFault}
    (h : convertArguments m values = .error fault) :
    (call setup m values).run w = (.ok (.error (m.scriptName ++ ": " ++ fault.message)), w) := by
  rw [call, h]
  rfl

/-- A call over a closed link, or over none, ends the run and has changed nothing. -/
theorem run_call_of_closed (h : Conveys m.kinds values parameters)
    (hclosed : ∀ link, w.link = some link → link.isOpen = false) :
    (call setup m values).run w = (.error (.transport (.closed m.name)), w) := by
  rw [call, convertArguments_eq_ok_iff.mpr h]
  dsimp only
  rw [Run.run_bind, Run.run_get]
  dsimp only
  cases hlink : w.link with
  | none => rfl
  | some link =>
    dsimp only
    rw [hclosed link hlink]
    rfl

/-- The world after a request was served. -/
def delivered (w : World) (link : Link) (served : Served) : World :=
  { w with events := w.events ++ served.events.toArray, link := some (after link served) }

theorem timeout_after (link : Link) (served : Served) :
    (after link served).timeout = link.timeout := by
  unfold after
  split <;> rfl

/-- What a call over an open link comes to: the host serves the request, and the answer is what
the call is worth, if the end of the wait can be computed. -/
theorem run_call_of_open (h : Conveys m.kinds values parameters) (hlink : w.link = some link)
    (hopen : link.isOpen = true) {served : Served}
    (hserve : link.host.serve setup.depth (World.hostCalls w.events.toList)
      (requestText m parameters) = served) :
    (call setup m values).run w =
      (if isMeasurable link.timeout then conclusion setup m (after link served) served.answer
        else Run.halt (unmeasured served.answer)).run (delivered w link served) := by
  have hexchange : (call setup m values).run w = (exchange setup m link parameters).run w := by
    rw [call, convertArguments_eq_ok_iff.mpr h]
    dsimp only
    rw [Run.run_bind, Run.run_get]
    dsimp only
    rw [hlink]
    dsimp only
    rw [if_pos hopen]
  subst hserve
  rw [hexchange, ← timeout_after link]
  rfl

/-- A call of a method without a handler is an error and nothing else. -/
theorem run_call_of_unhandled (h : Conveys m.kinds values parameters) (hdepth : 2 ≤ setup.depth)
    (hlink : w.link = some link) (hopen : link.isOpen = true)
    (hmeasurable : isMeasurable link.timeout = true) (hoffers : link.host.offers m.name = false) :
    (call setup m values).run w = (refused m ("host does not implement " ++ m.name), w) := by
  have hserve := serve_requestText h hdepth link.host (World.hostCalls w.events.toList)
  rw [hoffers] at hserve
  have hafter : after link ⟨[], false, refusal ("host does not implement " ++ m.name)⟩ = link := by
    change { link with isOpen := link.isOpen && true } = link
    rw [Bool.and_true]
  have hdelivered : delivered w link ⟨[], false, refusal ("host does not implement " ++ m.name)⟩ =
      w := by
    rw [delivered, hafter, ← hlink]
    exact congrArg (fun events => { w with events := events }) Array.append_empty
  rw [run_call_of_open h hlink hopen hserve, if_pos hmeasurable]
  simp only [Bool.false_eq_true, if_false]
  rw [run_conclusion_refusal (Nat.le_of_succ_le hdepth), hdelivered]

/-- A call of a method with a handler invokes the handler once, and is worth what follows from how
the handler has reacted. -/
theorem run_call_of_handled (h : Conveys m.kinds values parameters) (hdepth : 2 ≤ setup.depth)
    (hlink : w.link = some link) (hopen : link.isOpen = true)
    (hmeasurable : isMeasurable link.timeout = true) (hoffers : link.host.offers m.name = true) :
    (call setup m values).run w =
      (settled setup.depth m link.timeout (link.host.respond (World.hostCalls w.events.toList)
          ⟨m.name, Json.receivedItems parameters⟩),
        delivered w link (link.host.invoke (World.hostCalls w.events.toList) m.name
          (.array (Json.receivedItems parameters)))) := by
  have hserve := serve_requestText h hdepth link.host (World.hostCalls w.events.toList)
  rw [if_pos hoffers] at hserve
  rw [run_call_of_open h hlink hopen hserve, if_pos hmeasurable]
  exact run_conclusion_conclude (Nat.le_of_succ_le hdepth) hopen _ _ rfl rfl

/-- A call ends the run if the end of its wait cannot be computed, whatever the host does. -/
theorem run_call_of_unmeasurable (h : Conveys m.kinds values parameters)
    (hdepth : 2 ≤ setup.depth) (hlink : w.link = some link) (hopen : link.isOpen = true)
    (hmeasurable : isMeasurable link.timeout = false) :
    ((call setup m values).run w).1 = .error (.internal .numberOverflow) := by
  have hserve := serve_requestText h hdepth link.host (World.hostCalls w.events.toList)
  have hanswer (outcome : Outcome) :
      unmeasured (conclude m.name outcome).2 = .internal .numberOverflow := by
    cases outcome with
    | returns result =>
      rw [conclude]
      dsimp only
      split <;> rfl
    | _ => rfl
  rw [run_call_of_open h hlink hopen hserve, hmeasurable]
  change (.error (unmeasured _) : Except Halt Value) = _
  refine congrArg Except.error ?_
  split
  · exact hanswer _
  · rfl

theorem hostCalls_append (events events' : List Event) :
    World.hostCalls (events ++ events') = World.hostCalls events ++ World.hostCalls events' :=
  List.filterMap_append

theorem hostCalls_logged (records : List LogRecord) :
    World.hostCalls (records.map .logged) = [] :=
  List.filterMap_eq_nil_iff.mpr (by simp)

theorem hostCalls_conclude (name : Text) (outcome : Outcome) :
    World.hostCalls (conclude name outcome).1 = [] := by
  cases outcome <;> rfl

/-- Serving a call with parameters that can be listed notes one call of the handler. -/
theorem hostCalls_invoke_of_spread {parameters : Json} {values : List Json}
    (h : spread parameters = some values) (host : Host) (earlier : List HostCall) (name : Text) :
    World.hostCalls (host.invoke earlier name parameters).events = [⟨name, values⟩] := by
  let reaction := host.respond earlier ⟨name, values⟩
  unfold invoke
  rw [h]
  change World.hostCalls ([_, .called ⟨name, values⟩] ++
    (reaction.records.map .logged ++ (conclude name reaction.outcome).1)) = _
  rw [hostCalls_append, hostCalls_append, hostCalls_logged, hostCalls_conclude]
  rfl

/-- Serving a call that reaches its handler notes one call of the handler. -/
theorem hostCalls_invoke (host : Host) (earlier : List HostCall) (name : Text)
    (parameters : List Json) :
    World.hostCalls (host.invoke earlier name (.array parameters)).events =
      [⟨name, parameters⟩] :=
  hostCalls_invoke_of_spread rfl host earlier name

end Host

end HostScript
