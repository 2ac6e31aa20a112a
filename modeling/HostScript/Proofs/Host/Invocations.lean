import HostScript.Proofs.Host.Outcomes
import HostScript.Proofs.Run.Accounts

/-!
# What a host sees of a script's calls

A handler is invoked by the calls whose arguments are accepted, if the link is open and the host
offers the method: once each, in the order of the calls, and with what was sent
(`ScriptCall.invocation?`). All other calls give an error value, or end the run when the link is
closed (`ScriptCall.Ends`). `Linked` says this of all calls on the way from one world to another.
-/

namespace HostScript

/-! ## Single calls -/

namespace ScriptCall

/-- The invocation of a handler that a call leads to, if it leads to one. -/
def invocation? (host : Host) (call : ScriptCall) : Option HostCall :=
  match Host.convertArguments call.method call.arguments with
  | .ok parameters =>
    if call.isOpen && host.offers call.method.name then some ⟨call.method.name, parameters⟩
    else none
  | .error _ => none

/-- How a call ends, but for what an invoked handler makes of it: arguments that are not accepted
give an error value, a closed link ends the run, and a method without a handler gives an error
value. -/
inductive Ends (host : Host) : ScriptCall → Prop
  | rejected {m : HostMethod} {values : List Value} {isOpen : Bool} {fault : ArgumentFault}
    {message : Text} (h : Host.convertArguments m values = .error fault) :
    Ends host ⟨m, values, isOpen, .ok (.error message)⟩
  | closed {m : HostMethod} {values : List Value} {parameters : List Json}
    (h : Host.Conveys m.kinds values parameters) :
    Ends host ⟨m, values, false, .error (.transport (.closed m.name))⟩
  | unoffered {m : HostMethod} {values : List Value} {parameters : List Json} {message : Text}
    (h : Host.Conveys m.kinds values parameters) (hoffers : host.offers m.name = false) :
    Ends host ⟨m, values, true, .ok (.error message)⟩
  | invoked {m : HostMethod} {values : List Value} {parameters : List Json}
    {result : Except Halt Value} (h : Host.Conveys m.kinds values parameters)
    (hoffers : host.offers m.name = true) : Ends host ⟨m, values, true, result⟩

/-- All strings among the arguments consist of scalar values. -/
def IsScalar (call : ScriptCall) : Prop := ∀ t, .string t ∈ call.arguments → t.IsScalar

variable {host : Host} {m : HostMethod} {values : List Value} {isOpen : Bool}
  {result : Except Halt Value} {parameters : List Json}

theorem invocation?_of_rejected {fault : ArgumentFault}
    (h : Host.convertArguments m values = .error fault) :
    invocation? host ⟨m, values, isOpen, result⟩ = none := by
  simp only [invocation?, h]

theorem invocation?_of_accepted (h : Host.Conveys m.kinds values parameters) :
    invocation? host ⟨m, values, isOpen, result⟩ =
      if isOpen && host.offers m.name then some ⟨m.name, parameters⟩ else none := by
  simp only [invocation?, Host.convertArguments_eq_ok_iff.mpr h]

/-- A handler is invoked with one value for each parameter. -/
theorem conveys_of_invocation? {call : ScriptCall} {invocation : HostCall}
    (h : call.invocation? host = some invocation) : invocation.name = call.method.name ∧
      Host.Conveys call.method.kinds call.arguments invocation.parameters := by
  unfold invocation? at h
  split at h
  · next parameters haccepted =>
    split at h
    · obtain rfl := Option.some.inj h
      exact ⟨rfl, Host.convertArguments_eq_ok_iff.mp haccepted⟩
    · contradiction
  · contradiction

end ScriptCall

namespace Host

variable {kind : ParameterKind} {kinds : List ParameterKind} {v : Value} {values : List Value}
  {document : Json} {parameters : List Json}

/-! ## What arrives -/

/-- Texts without surrogates, and names, arrive as they were sent. -/
theorem ConveysOne.received_eq (h : ConveysOne kind v document) (hname : v.Within .ofNames)
    (hscalar : ∀ t, v = .string t → t.IsScalar) : document.received = document := by
  cases h with
  | buffer => rfl
  | title t => exact congrArg Json.string (Text.paired_of_plain (hscalar t rfl))
  | named hf => exact congrArg Json.string (Text.paired_of_plain (Function.isScalar_of_name? hname hf))
  | text t => exact congrArg Json.string (Text.paired_of_plain (hscalar t rfl))

theorem Conveys.receivedItems_eq (h : Conveys kinds values parameters)
    (hname : ∀ v ∈ values, v.Within .ofNames) (hscalar : ∀ t, .string t ∈ values → t.IsScalar) :
    Json.receivedItems parameters = parameters := by
  induction h with
  | nil => rfl
  | cons h hrest ih =>
    obtain ⟨hfirst, hname⟩ := List.forall_mem_cons.mp hname
    have hhead := h.received_eq hfirst fun t ht => hscalar t (ht ▸ List.mem_cons_self)
    have htail := ih hname fun t ht => hscalar t (List.mem_cons_of_mem _ ht)
    rw [Json.receivedItems, hhead, htail]

theorem host_after (link : Link) (served : Served) : (after link served).host = link.host := by
  unfold after
  split <;> rfl

theorem isOpen_of_after {link : Link} {served : Served} (h : (after link served).isOpen = true) :
    link.isOpen = true := by
  unfold after at h
  split at h
  · contradiction
  · exact (Bool.and_eq_true_iff.mp h).1

end Host

/-! ## Sequences of calls -/

/-- The way from one world to another with the calls of functions of the host on it, which began
with one link and ended with another. The handlers of the host were invoked by the calls, and once
the link was closed it stayed closed. -/
structure Linked (link : Link) (w : World) (calls : List ScriptCall) (w' : World)
    (link' : Link) : Prop where
  linked : w'.link = some link'
  host : link'.host = link.host
  timeout : link'.timeout = link.timeout
  invocations : World.hostCalls w'.events.toList =
    World.hostCalls w.events.toList ++ calls.filterMap (·.invocation? link.host)
  ends : ∀ call ∈ calls, call.Ends link.host
  opened : ∀ call ∈ calls, call.isOpen = true → link.isOpen = true
  stayed : link'.isOpen = true → link.isOpen = true ∧ ∀ call ∈ calls, call.isOpen = true
  ordered : calls.Pairwise fun call later => later.isOpen = true → call.isOpen = true

namespace Linked

variable {link link' link'' : Link} {w w' w'' : World} {calls calls' : List ScriptCall}

theorem quiet (hlink : w.link = some link) (hkept : w'.link = w.link)
    (hcalls : World.hostCalls w'.events.toList = World.hostCalls w.events.toList) :
    Linked link w [] w' link where
  linked := hkept.trans hlink
  host := rfl
  timeout := rfl
  invocations := by simpa using hcalls
  ends _ h := absurd h List.not_mem_nil
  opened _ h := absurd h List.not_mem_nil
  stayed h := ⟨h, fun _ hcall => absurd hcall List.not_mem_nil⟩
  ordered := .nil

theorem append (h : Linked link w calls w' link') (h' : Linked link' w' calls' w'' link'') :
    Linked link w (calls ++ calls') w'' link'' where
  linked := h'.linked
  host := h'.host.trans h.host
  timeout := h'.timeout.trans h.timeout
  invocations := by
    rw [h'.invocations, h.invocations, List.filterMap_append, List.append_assoc, h.host]
  ends call hcall := by
    rcases List.mem_append.mp hcall with hcall | hcall
    · exact h.ends call hcall
    · exact h.host ▸ h'.ends call hcall
  opened call hcall hopen := by
    rcases List.mem_append.mp hcall with hcall | hcall
    · exact h.opened call hcall hopen
    · exact (h.stayed (h'.opened call hcall hopen)).1
  stayed hopen := by
    obtain ⟨hmiddle, hlater⟩ := h'.stayed hopen
    obtain ⟨hfirst, hearlier⟩ := h.stayed hmiddle
    exact ⟨hfirst, List.forall_mem_append.mpr ⟨hearlier, hlater⟩⟩
  ordered := by
    refine List.pairwise_append.mpr ⟨h.ordered, h'.ordered, ?_⟩
    intro call hcall later hlater hopen
    exact (h.stayed (h'.opened later hlater hopen)).2 call hcall

theorem single {call : ScriptCall} (hlinked : w'.link = some link') (hhost : link'.host = link.host)
    (htimeout : link'.timeout = link.timeout)
    (hinvocation : World.hostCalls w'.events.toList =
      World.hostCalls w.events.toList ++ (call.invocation? link.host).toList)
    (hends : call.Ends link.host) (hopen : call.isOpen = link.isOpen)
    (hstayed : link'.isOpen = true → link.isOpen = true) : Linked link w [call] w' link' where
  linked := hlinked
  host := hhost
  timeout := htimeout
  invocations := by
    rw [hinvocation]
    cases hinv : call.invocation? link.host <;> simp [hinv]
  ends _ hcall := List.mem_singleton.mp hcall ▸ hends
  opened _ hcall h := by rwa [List.mem_singleton.mp hcall, hopen] at h
  stayed h := ⟨hstayed h, fun _ hcall => by rw [List.mem_singleton.mp hcall, hopen, hstayed h]⟩
  ordered := List.pairwise_singleton _ _

/-- A call that leaves the world as it is. -/
theorem unchanged {call : ScriptCall} (hlink : w.link = some link)
    (hnone : call.invocation? link.host = none) (hends : call.Ends link.host)
    (hopen : call.isOpen = link.isOpen) : Linked link w [call] w link := by
  refine single hlink rfl rfl ?_ hends hopen id
  rw [hnone, Option.toList_none, List.append_nil]

open Host in
/-- Every call of a function of the host. -/
theorem call {setup : Setup} {m : HostMethod} {values : List Value} {result : Except Halt Value}
    (hdepth : 2 ≤ setup.depth) (hlink : w.link = some link)
    (hmeasurable : isMeasurable link.timeout = true)
    (hname : ∀ v ∈ values, v.Within .ofNames) (hscalar : ∀ t, .string t ∈ values → t.IsScalar)
    (hcall : (Host.call setup m values).run w = (result, w')) :
    ∃ link', Linked link w [⟨m, values, link.isOpen, result⟩] w' link' := by
  cases haccepted : convertArguments m values with
  | error fault =>
    rw [run_call_of_rejected haccepted] at hcall
    obtain ⟨rfl, rfl⟩ := Prod.mk.inj hcall
    exact ⟨link, unchanged hlink (ScriptCall.invocation?_of_rejected haccepted)
      (.rejected haccepted) rfl⟩
  | ok parameters =>
    have h := convertArguments_eq_ok_iff.mp haccepted
    have hinvocation : ScriptCall.invocation? link.host ⟨m, values, link.isOpen, result⟩ = _ :=
      ScriptCall.invocation?_of_accepted h
    cases hopen : link.isOpen with
    | false =>
      rw [hopen, Bool.false_and, if_neg Bool.false_ne_true] at hinvocation
      have hclosed (other : Link) (ho : w.link = some other) : other.isOpen = false := by
        obtain rfl := Option.some.inj (hlink.symm.trans ho)
        exact hopen
      rw [run_call_of_closed h hclosed] at hcall
      obtain ⟨rfl, rfl⟩ := Prod.mk.inj hcall
      exact ⟨link, unchanged hlink hinvocation (.closed h) hopen.symm⟩
    | true =>
      rw [hopen, Bool.true_and] at hinvocation
      cases hoffers : link.host.offers m.name with
      | false =>
        rw [hoffers, if_neg Bool.false_ne_true] at hinvocation
        rw [run_call_of_unhandled h hdepth hlink hopen hmeasurable hoffers] at hcall
        obtain ⟨rfl, rfl⟩ := Prod.mk.inj hcall
        exact ⟨link, unchanged hlink hinvocation (.unoffered h hoffers) hopen.symm⟩
      | true =>
        rw [hoffers, if_pos rfl] at hinvocation
        rw [run_call_of_handled h hdepth hlink hopen hmeasurable hoffers,
          h.receivedItems_eq hname hscalar] at hcall
        obtain ⟨-, rfl⟩ := Prod.mk.inj hcall
        refine ⟨_, single rfl (host_after link _) (timeout_after link _) ?_ (.invoked h hoffers)
          hopen.symm isOpen_of_after⟩
        rw [hinvocation, delivered, Array.toList_append, hostCalls_append, List.toList_toArray,
          hostCalls_invoke]
        rfl

end Linked

/-- What is accounted for is a way over the link. -/
theorem Account.linked {setup : Setup} {w w' : World} {calls : List ScriptCall}
    (h : Account setup w calls w') (hdepth : 2 ≤ setup.depth) {link : Link}
    (hlink : w.link = some link) (hmeasurable : Host.isMeasurable link.timeout = true)
    (hscalar : ∀ call ∈ calls, call.IsScalar) : ∃ link', Linked link w calls w' link' := by
  induction h generalizing link with
  | quiet hkept hcalls => exact ⟨link, .quiet hlink hkept hcalls⟩
  | @call w w' m values result hvalues hcall =>
    have hopen : w.isLinked = link.isOpen := by rw [World.isLinked, hlink, Option.any_some]
    rw [hopen] at hscalar ⊢
    exact Linked.call hdepth hlink hmeasurable hvalues (hscalar _ List.mem_cons_self) hcall
  | append _ _ ih ih' =>
    obtain ⟨hfirst, hsecond⟩ := List.forall_mem_append.mp hscalar
    obtain ⟨link', h⟩ := ih hlink hmeasurable hfirst
    obtain ⟨link'', h'⟩ := ih' h.linked (h.timeout ▸ hmeasurable) hsecond
    exact ⟨link'', h.append h'⟩

end HostScript
