import HostScript.Proofs.Host.Serving
import HostScript.Proofs.Json.Remainders

/-!
# How requests are answered

Any text may be sent to a host. A request that asks for a method by a name which the host offers
invokes the handler (`Invokes`); all others invoke nothing. The answer is an object with a result or
an error. There is none only if the method is an array or an object, by which nothing can be looked
up, or if the handler does not end on its own (`Unanswered`, `serve_answers`).
-/

namespace HostScript

/-- The documents that contain others. -/
def Json.isContainer : Json → Bool
  | array _ | object _ => true
  | _ => false

/-- A handler ended on its own: it returned or raised something. -/
def Outcome.isOwn : Outcome → Bool
  | returns _ | unserializable _ | raises _ _ => true
  | cancelled | silent | stopsLoop => false

/-- An answer is the text of an object with one member, which has the given name. -/
def Host.Answer.Gives (key : Text) (answer : Host.Answer) : Prop :=
  ∃ t value, answer = .text t ∧ Json.IsReadFrom t (.object [(key, value)])

namespace Host

variable {host : Host} {depth : ℕ} {earlier : List HostCall} {request : Text}
  {method method' parameters parameters' : Json} {call call' : HostCall} {served : Served}

/-! ## Requests -/

/-- A request asks for a method with parameters: it is an object with these members. Parameters that
are not given are none. -/
def Asks (request : Text) (method parameters : Json) : Prop :=
  ∃ members, Json.IsReadFrom request (.object members) ∧
    (Json.object members).member? "method" = some method ∧
      ((Json.object members).member? "params").getD (.array []) = parameters

/-- A request that asks for no method by name. -/
inductive Malformed (request : Text) : Prop
  | noDocument (h : ∀ document, ¬ Json.IsReadFrom request document)
  | noObject {document : Json} (h : Json.IsReadFrom request document)
    (hkind : ∀ members, document ≠ .object members)
  | noMethod {members : List (Text × Json)} (h : Json.IsReadFrom request (.object members))
    (hmethod : (Json.object members).member? "method" = none)
  | noName {method parameters : Json} (h : Asks request method parameters)
    (hkind : ∀ name, method ≠ .string name)

/-- A request that asks for a method by an array or an object. -/
def Unhashable (request : Text) : Prop :=
  ∃ method parameters, Asks request method parameters ∧ method.isContainer = true

/-- A request invokes a handler: it asks for a method by name, the host offers a handler for it, and
the parameters can be listed. -/
inductive Invokes (host : Host) (request : Text) : HostCall → Prop
  | intro {m : HostMethod} {parameters : Json} {values : List Json}
    (hasks : Asks request (.string m.name) parameters) (hoffers : host.offers m.name = true)
    (hvalues : spread parameters = some values) : Invokes host request ⟨m.name, values⟩

/-- Why a request stays without an answer. -/
inductive Unanswered (host : Host) (earlier : List HostCall) (request : Text) : Prop
  | unhashable (h : Unhashable request)
  | unended {call : HostCall} (h : Invokes host request call)
    (houtcome : (host.respond earlier call).outcome.isOwn = false)

theorem Asks.unique (h : Asks request method parameters) (h' : Asks request method' parameters') :
    method = method' ∧ parameters = parameters' := by
  obtain ⟨members, hread, hmethod, rfl⟩ := h
  obtain ⟨members', hread', hmethod', rfl⟩ := h'
  obtain rfl := Json.object.inj (hread.unique hread')
  exact ⟨Option.some.inj (hmethod.symm.trans hmethod'), rfl⟩

theorem Invokes.unique (h : Invokes host request call) (h' : Invokes host request call') :
    call = call' := by
  obtain ⟨hasks, -, hvalues⟩ := h
  obtain ⟨hasks', -, hvalues'⟩ := h'
  obtain ⟨hname, rfl⟩ := hasks.unique hasks'
  obtain rfl := Option.some.inj (hvalues.symm.trans hvalues')
  rw [Json.string.inj hname]

theorem Asks.hashable (h : Asks request method parameters) (hkind : method.isContainer = false) :
    ¬ Unhashable request := by
  rintro ⟨method', parameters', hasks, hcontainer⟩
  rw [(h.unique hasks).1, hcontainer] at hkind
  contradiction

theorem Invokes.not_unhashable (h : Invokes host request call) : ¬ Unhashable request := by
  obtain ⟨hasks, -, -⟩ := h
  exact hasks.hashable rfl

/-- A handler is invoked by its name. -/
theorem Asks.exists_of_invokes (h : Asks request method parameters)
    (hcall : Invokes host request call) :
    ∃ m : HostMethod, method = .string m.name ∧ host.offers m.name = true ∧
      spread parameters = some call.parameters := by
  obtain @⟨m, parameters', values, hasks, hoffers, hvalues⟩ := hcall
  obtain ⟨rfl, rfl⟩ := h.unique hasks
  exact ⟨m, rfl, hoffers, hvalues⟩

/-- A request that asks for something is not malformed if it asks by name. -/
theorem Asks.not_malformed {name : Text} (h : Asks request (.string name) parameters) :
    ¬ Malformed request := by
  obtain ⟨members, hread, hmethod, hparameters⟩ := id h
  rintro (hnone | ⟨hread', hkind⟩ | ⟨hread', hmethod'⟩ | ⟨hasks, hkind⟩)
  · exact hnone _ hread
  · exact hkind members (hread'.unique hread)
  · obtain rfl := Json.object.inj (hread'.unique hread)
    exact nomatch hmethod'.symm.trans hmethod
  · exact hkind name (hasks.unique h).1

theorem Invokes.not_malformed (h : Invokes host request call) : ¬ Malformed request := by
  obtain ⟨hasks, -, -⟩ := h
  exact hasks.not_malformed

theorem handles_eq_true_iff {name : Text} :
    host.handles name = true ↔ ∃ m : HostMethod, m.name = name ∧ host.offers m.name = true := by
  constructor
  · intro h
    rw [handles, Bool.and_eq_true, Option.isSome_iff_exists] at h
    obtain ⟨hoffers, m, hm⟩ := h
    obtain rfl : m.name = name := by simpa using List.find?_some hm
    exact ⟨m, rfl, hoffers⟩
  · rintro ⟨m, rfl, hoffers⟩
    rw [handles_name, hoffers]

/-! ## Serving -/

/-- A request that asks for a method is dispatched. -/
theorem serve_of_asks (hread : Json.read .wire depth request ≠ .error .tooDeep)
    (h : Asks request method parameters) (host : Host) (earlier : List HostCall) :
    host.serve depth earlier request = host.dispatch earlier method parameters := by
  obtain ⟨members, hmembers, hmethod, rfl⟩ := h
  unfold serve
  rw [hmembers.read_eq hread]
  simp only [readRequest, hmethod]

/-- A request asks for a method, or it is refused. -/
theorem serve_cases (hread : Json.read .wire depth request ≠ .error .tooDeep) (host : Host)
    (earlier : List HostCall) :
    (∃ method parameters, Asks request method parameters) ∨
      (∀ method parameters, ¬ Asks request method parameters) ∧
        ∃ message, host.serve depth earlier request = ⟨[], false, refusal message⟩ := by
  unfold serve
  cases hdocument : Json.read .wire depth request with
  | error halt =>
    cases halt with
    | tooDeep => exact absurd hdocument hread
    | fault cause =>
      refine .inr ⟨?_, _, rfl⟩
      rintro method parameters ⟨members, hmembers, -⟩
      exact nomatch hdocument.symm.trans (hmembers.read_eq hread)
  | ok document =>
    have hdocument' : Json.IsReadFrom request document := ⟨depth, hdocument⟩
    cases document with
    | object members =>
      cases hmethod : (Json.object members).member? "method" with
      | some method => exact .inl ⟨method, _, members, hdocument', hmethod, rfl⟩
      | none =>
        refine .inr ⟨?_, "malformed request: " ++ RequestFault.noMethod.message, ?_⟩
        · rintro method parameters ⟨members', hmembers', hmethod', -⟩
          obtain rfl := Json.object.inj (hmembers'.unique hdocument')
          exact nomatch hmethod.symm.trans hmethod'
        · simp only [readRequest, hmethod]
    | _ =>
      refine .inr ⟨?_, _, rfl⟩
      rintro method parameters ⟨members, hmembers, -⟩
      exact nomatch hmembers.unique hdocument'

/-- What serving a request comes to: it is refused, it has no answer because its method cannot be
looked up, or it invokes a handler. -/
inductive Course (host : Host) (earlier : List HostCall) (request : Text) (served : Served) : Prop
  | refused {message : Text} (hnone : ∀ call, ¬ Invokes host request call)
    (hhashable : ¬ Unhashable request) (hcalls : World.hostCalls served.events = [])
    (hanswer : served.answer = refusal message)
  | unhashable {kind : String} (h : Unhashable request)
    (hcalls : World.hostCalls served.events = []) (hanswer : served.answer = .unhashable kind)
  | invoked {call : HostCall} (h : Invokes host request call)
    (hcalls : World.hostCalls served.events = [call])
    (hanswer : served.answer = (conclude call.name (host.respond earlier call).outcome).2)

/-- Parameters that cannot be listed are refused before a handler is invoked. -/
theorem invoke_of_unlisted (h : spread parameters = none) (host : Host) (earlier : List HostCall)
    (name : Text) :
    ∃ message, World.hostCalls (host.invoke earlier name parameters).events = [] ∧
      (host.invoke earlier name parameters).answer = refusal message := by
  unfold invoke
  rw [h]
  exact ⟨_, rfl, rfl⟩

theorem course_of_asks (h : Asks request method parameters) :
    Course host earlier request (host.dispatch earlier method parameters) := by
  cases method with
  | array items => exact .unhashable ⟨_, _, h, rfl⟩ rfl rfl
  | object members => exact .unhashable ⟨_, _, h, rfl⟩ rfl rfl
  | string name =>
    rw [dispatch]
    by_cases hhandles : host.handles name = true
    · rw [if_pos hhandles]
      obtain ⟨m, rfl, hoffers⟩ := handles_eq_true_iff.mp hhandles
      cases hvalues : spread parameters with
      | some values =>
        refine .invoked (.intro h hoffers hvalues) (hostCalls_invoke_of_spread hvalues _ _ _) ?_
        simp only [invoke, hvalues]
      | none =>
        -- the handler exists, but there is nothing that it could be called with
        obtain ⟨message, hcalls, hanswer⟩ := invoke_of_unlisted hvalues host earlier m.name
        refine .refused ?_ (h.hashable rfl) hcalls hanswer
        intro call hcall
        obtain ⟨-, -, -, hvalues'⟩ := h.exists_of_invokes hcall
        exact nomatch hvalues.symm.trans hvalues'
    · rw [if_neg hhandles]
      refine .refused ?_ (h.hashable rfl) rfl rfl
      intro call hcall
      obtain ⟨m, hname, hoffers, -⟩ := h.exists_of_invokes hcall
      obtain rfl := Json.string.inj hname
      exact hhandles (handles_eq_true_iff.mpr ⟨m, rfl, hoffers⟩)
  | _ =>
    refine .refused ?_ (h.hashable rfl) rfl rfl
    intro call hcall
    obtain ⟨m, hname, -⟩ := h.exists_of_invokes hcall
    exact nomatch hname

theorem course_serve (hread : Json.read .wire depth request ≠ .error .tooDeep) (host : Host)
    (earlier : List HostCall) : Course host earlier request (host.serve depth earlier request) := by
  rcases serve_cases hread host earlier with ⟨method, parameters, hasks⟩ | ⟨hnone, message, hserve⟩
  · rw [serve_of_asks hread hasks]
    exact course_of_asks hasks
  · rw [hserve]
    refine .refused ?_ ?_ rfl rfl
    · rintro call ⟨hasks, -, -⟩
      exact hnone _ _ hasks
    · rintro ⟨method, parameters, hasks, -⟩
      exact hnone _ _ hasks

/-! ## Answers -/

theorem gives_refusal (message : Text) : (refusal message).Gives "error" :=
  ⟨_, _, rfl, Json.isReadFrom_write rfl⟩

theorem gives_success {result : Json} (h : result.hasLongInteger = false) :
    (success result).Gives "result" := by
  have hshort : (Json.object [("result", result)]).hasLongInteger = false := by
    simp [Json.hasLongInteger, Json.hasLongMembers, h]
  exact ⟨_, _, rfl, Json.isReadFrom_write hshort⟩

/-- An answer has no two names. -/
theorem Answer.Gives.unique {key key' : Text} {answer : Answer} (h : answer.Gives key)
    (h' : answer.Gives key') : key = key' := by
  obtain ⟨t, value, rfl, hread⟩ := h
  obtain ⟨t', value', ht', hread'⟩ := h'
  obtain rfl := Answer.text.inj ht'
  have hmembers := Json.object.inj (hread.unique hread')
  simp only [List.cons.injEq, Prod.mk.injEq] at hmembers
  exact hmembers.1.1

/-- The outcomes of a handler that ended on its own are the ones that are answered. -/
theorem conclude_gives (name : Text) {outcome : Outcome} (h : outcome.isOwn = true) :
    (conclude name outcome).2.Gives "result" ∨ (conclude name outcome).2.Gives "error" := by
  cases outcome with
  | returns result =>
    rw [conclude]
    dsimp only
    split
    · exact .inr (gives_refusal _)
    · next hshort => exact .inl (gives_success (Bool.eq_false_iff.mpr hshort))
  | unserializable reason => exact .inr (gives_refusal _)
  | raises kind message => exact .inr (gives_refusal _)
  | _ => exact absurd h Bool.false_ne_true

theorem not_gives_unhashable {kind : String} {key : Text} :
    ¬ (Answer.unhashable kind).Gives key := by
  rintro ⟨t, value, ht, -⟩
  contradiction

theorem not_gives_result_refusal (message : Text) : ¬ (refusal message).Gives "result" := by
  intro h
  exact absurd (h.unique (gives_refusal message)) (by decide)

/-- A result is answered if the handler returned it and it can be written. -/
theorem conclude_gives_result_iff (name : Text) (outcome : Outcome) :
    (conclude name outcome).2.Gives "result" ↔
      ∃ result, outcome = .returns result ∧ result.hasLongInteger = false := by
  cases outcome with
  | returns result =>
    rw [conclude]
    dsimp only
    split
    · next hlong =>
      refine iff_of_false (not_gives_result_refusal _) ?_
      rintro ⟨result, ⟨⟩, hshort⟩
      exact absurd hlong (Bool.eq_false_iff.mp hshort)
    · next hshort =>
      have hshort := Bool.eq_false_iff.mpr hshort
      exact iff_of_true (gives_success hshort) ⟨result, rfl, hshort⟩
  | unserializable reason => exact iff_of_false (not_gives_result_refusal _) (by simp)
  | raises kind message => exact iff_of_false (not_gives_result_refusal _) (by simp)
  | _ =>
    refine iff_of_false ?_ (by simp)
    rintro ⟨t, value, ht, -⟩
    contradiction

theorem Answer.Gives.exists_text {key : Text} {answer : Answer} (h : answer.Gives key) :
    ∃ t, answer = .text t := by
  obtain ⟨t, value, ht, -⟩ := h
  exact ⟨t, ht⟩

theorem conclude_ne_text (name : Text) {outcome : Outcome} (h : outcome.isOwn = false) (t : Text) :
    (conclude name outcome).2 ≠ .text t := by
  cases outcome with
  | cancelled => exact nofun
  | silent => exact nofun
  | stopsLoop => exact nofun
  | _ => exact nomatch h

namespace Course

variable (h : Course host earlier request served)

include h

theorem exists_text_iff : (∃ t, served.answer = .text t) ↔ ¬ Unanswered host earlier request := by
  cases h with
  | refused hnone hhashable hcalls hanswer =>
    refine iff_of_true ⟨_, hanswer⟩ ?_
    rintro (hunhashable | ⟨hinvokes, -⟩)
    · exact hhashable hunhashable
    · exact hnone _ hinvokes
  | unhashable hunhashable hcalls hanswer =>
    rw [hanswer]
    exact iff_of_false nofun (not_not_intro (.unhashable hunhashable))
  | @invoked call hinvokes hcalls hanswer =>
    rw [hanswer]
    by_cases hown : (host.respond earlier call).outcome.isOwn = true
    · refine iff_of_true ?_ ?_
      · exact (conclude_gives call.name hown).elim (·.exists_text) (·.exists_text)
      · rintro (hunhashable | ⟨hinvokes', houtcome⟩)
        · exact hinvokes.not_unhashable hunhashable
        · obtain rfl := hinvokes.unique hinvokes'
          exact nomatch hown.symm.trans houtcome
    · rw [Bool.not_eq_true] at hown
      refine iff_of_false ?_ (not_not_intro (.unended hinvokes hown))
      rintro ⟨t, ht⟩
      exact conclude_ne_text call.name hown t ht

theorem gives {t : Text} (ht : served.answer = .text t) :
    Xor (served.answer.Gives "result") (served.answer.Gives "error") := by
  have hone : served.answer.Gives "result" ∨ served.answer.Gives "error" := by
    cases h with
    | refused hnone hhashable hcalls hanswer => exact .inr (hanswer ▸ gives_refusal _)
    | unhashable hunhashable hcalls hanswer => exact nomatch hanswer.symm.trans ht
    | @invoked call hinvokes hcalls hanswer =>
      rw [hanswer] at ht ⊢
      by_cases hown : (host.respond earlier call).outcome.isOwn = true
      · exact conclude_gives call.name hown
      · exact absurd ht (conclude_ne_text call.name (Bool.eq_false_iff.mpr hown) t)
  have hdifferent : ¬ (served.answer.Gives "result" ∧ served.answer.Gives "error") := by
    rintro ⟨hresult, herror⟩
    exact absurd (hresult.unique herror) (by decide)
  exact (xor_iff_or_and_not_and _ _).mpr ⟨hone, hdifferent⟩

theorem gives_result_iff : served.answer.Gives "result" ↔ ∃ call result,
    Invokes host request call ∧ (host.respond earlier call).outcome = .returns result ∧
      result.hasLongInteger = false := by
  cases h with
  | refused hnone hhashable hcalls hanswer =>
    rw [hanswer]
    refine iff_of_false (not_gives_result_refusal _) ?_
    rintro ⟨call, result, hinvokes, -⟩
    exact hnone call hinvokes
  | unhashable hunhashable hcalls hanswer =>
    rw [hanswer]
    refine iff_of_false not_gives_unhashable ?_
    rintro ⟨call, result, hinvokes, -⟩
    exact hinvokes.not_unhashable hunhashable
  | @invoked call hinvokes hcalls hanswer =>
    rw [hanswer, conclude_gives_result_iff]
    constructor
    · rintro ⟨result, houtcome, hshort⟩
      exact ⟨call, result, hinvokes, houtcome, hshort⟩
    · rintro ⟨call', result, hinvokes', houtcome, hshort⟩
      obtain rfl := hinvokes.unique hinvokes'
      exact ⟨result, houtcome, hshort⟩

theorem length_hostCalls_le : (World.hostCalls served.events).length ≤ 1 := by
  cases h with
  | refused hnone hhashable hcalls hanswer => simp [hcalls]
  | unhashable hunhashable hcalls hanswer => simp [hcalls]
  | invoked hinvokes hcalls hanswer => simp [hcalls]

theorem mem_hostCalls_iff : call ∈ World.hostCalls served.events ↔ Invokes host request call := by
  cases h with
  | refused hnone hhashable hcalls hanswer =>
    rw [hcalls]
    exact iff_of_false List.not_mem_nil (hnone call)
  | unhashable hunhashable hcalls hanswer =>
    rw [hcalls]
    exact iff_of_false List.not_mem_nil fun hinvokes => hinvokes.not_unhashable hunhashable
  | invoked hinvokes hcalls hanswer =>
    rw [hcalls, List.mem_singleton]
    constructor
    · rintro rfl
      exact hinvokes
    · intro hinvokes'
      exact hinvokes'.unique hinvokes

theorem gives_error_iff (hmalformed : Malformed request) :
    served.answer.Gives "error" ↔ ¬ Unhashable request := by
  cases h with
  | refused hnone hhashable hcalls hanswer =>
    exact iff_of_true (hanswer ▸ gives_refusal _) hhashable
  | unhashable hunhashable hcalls hanswer =>
    rw [hanswer]
    exact iff_of_false not_gives_unhashable (not_not_intro hunhashable)
  | invoked hinvokes hcalls hanswer => exact absurd hmalformed hinvokes.not_malformed

end Course

/-- A request that asks for no method, though it has the member. -/
def nullRequest : Text := "\x7b\"method\": null\x7d"

theorem asks_nullRequest : Asks nullRequest .null (.array []) := by
  refine ⟨[("method", .null)], ⟨1, ?_⟩, rfl, rfl⟩
  cbv

/-- A request that asks for a method by an array. -/
def arrayRequest : Text := "\x7b\"method\": []\x7d"

theorem asks_arrayRequest : Asks arrayRequest (.array []) (.array []) := by
  refine ⟨[("method", .array [])], ⟨2, ?_⟩, rfl, rfl⟩
  cbv

end Host

end HostScript
