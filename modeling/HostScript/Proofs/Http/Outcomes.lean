import HostScript.Proofs.Http.Exchanges
import HostScript.Proofs.Session.Blame
import HostScript.Proofs.Value.Arguments

/-!
# How HTTP calls end

A call that makes an HTTP request gives a string or an error, or it ends the run. `Ends` lists the
ways in which it ends the run: the body cannot be encoded, no client is made, the count of retries is
no integer, a reply breaks what reads it, or a pause cannot be made. There are no others
(`call_ends_iff`), whatever the client, the codecs and the clock do.
-/

namespace HostScript

/-- The kinds of values that HTTP calls give. -/
def Value.isTextOrError : Value → Bool
  | .string _ | .error _ => true
  | _ => false

namespace Http

open Run

variable {platform : Platform} {backoff : Float} {request : HttpRequest} {retries : ℕ} {w : World}
  {replies : List HttpReply} {halt : Halt} {method : Text} {settings : HttpSettings}
  {f : HttpFunction} {values : List Value} {data : Option Text}

/-! ## Exchanges -/

/-- How an exchange ends the run: it comes to a reply that breaks what reads it, or to a request that
may be sent again and has no pause behind it. -/
inductive ExchangeEnds (platform : Platform) (backoff : Float) (method : Text) (retries : ℕ)
    (replies : List HttpReply) : Halt → Prop
  | broken {k : ℕ} {cause : InternalFault} (hk : k ≤ retries)
    (hreaches : Reaches platform backoff method replies k)
    (hreply : (replyAt replies k).Breaks platform cause) :
    ExchangeEnds platform backoff method retries replies (.internal cause)
  | unpaused {k : ℕ} {cause : InternalFault} (hk : k < retries)
    (hreaches : Reaches platform backoff method replies k)
    (hrepeats : Repeats method (replyAt replies k))
    (hfails : PauseFails platform backoff k cause) :
    ExchangeEnds platform backoff method retries replies (.internal cause)

/-- An exchange ends the run as described. -/
theorem run_exchange_of_ends
    (hends : ExchangeEnds platform backoff request.method retries w.replies halt) :
    ((exchange platform backoff request retries 0).run w).1 = .error halt := by
  cases hends with
  | broken hk hreaches hreply =>
    have hlast : IsLast request.method retries w.replies _ :=
      ⟨hk, hreaches.repeats, .inr (not_repeats_of_breaks hreply)⟩
    rw [run_exchange_of_isLast hlast hreaches.pauses]
    exact outcome_of_breaks hreply request
  | unpaused hk hreaches hrepeats hfails =>
    rw [run_exchange_of_pauseFails hk hreaches hrepeats hfails]

/-- Every exchange gives a string or an error, or ends the run as `ExchangeEnds` describes it. -/
theorem exchange_gives (platform : Platform) (backoff : Float) (request : HttpRequest)
    (retries : ℕ) (w : World) :
    Settles (·.isTextOrError = true)
      (ExchangeEnds platform backoff request.method retries w.replies)
      ((exchange platform backoff request retries 0).run w).1 := by
  rcases exists_course platform backoff request.method retries w.replies with
    ⟨k, hlast, hpauses⟩ | ⟨k, hk, hreaches, hrepeats, cause, hfails⟩
  · rw [run_exchange_of_isLast hlast hpauses]
    rcases outcome_cases platform request (replyAt w.replies k) with
      ⟨t, -, hvalue⟩ | ⟨cause, hbreaks, hvalue⟩ | ⟨-, -, message, hvalue⟩
    · rw [hvalue]
      rfl
    · rw [hvalue]
      exact ExchangeEnds.broken hlast.le ⟨hlast.before, hpauses⟩ hbreaks
    · rw [hvalue]
      rfl
  · rw [run_exchange_of_pauseFails hk hreaches hrepeats hfails]
    exact ExchangeEnds.unpaused hk hreaches hrepeats hfails

/-! ## Calls -/

/-- The method and the body that a function asks for with its arguments. -/
inductive Asks : HttpFunction → List Value → (method : Text) → (data : Option Text) → Prop
  | get (url : Text) : Asks .get [.string url] "GET" none
  | post (url data : Text) : Asks .post [.string url, .string data] "POST" (some data)
  | postWithToken (url data token : Text) :
    Asks .postWithToken [.string url, .string data, .string token] "POST" (some data)

/-- A body can be sent: there is none, or it can be encoded. -/
def Sendable (data : Option Text) : Prop := ∀ t ∈ data, ∃ bytes, Utf8.encode t = .ok bytes

theorem sendable_or (data : Option Text) :
    Sendable data ∨ ∃ body fault, data = some body ∧ Utf8.encode body = .error fault := by
  cases data with
  | none => exact .inl nofun
  | some body =>
    cases hbody : Utf8.encode body with
    | ok bytes =>
      left
      rintro _ ⟨⟩
      exact ⟨bytes, hbody⟩
    | error fault => exact .inr ⟨body, fault, rfl, hbody⟩

/-- No client is made under some settings, and why. -/
def Unopened (platform : Platform) (settings : HttpSettings) (message : Text) : Prop :=
  platform.clientFault? settings.timeout settings.followRedirects = some message

/-- A client is made under some settings. -/
def Opened (platform : Platform) (settings : HttpSettings) : Prop :=
  platform.clientFault? settings.timeout settings.followRedirects = none

/-- How a call ends the run. -/
inductive Ends (platform : Platform) (settings : HttpSettings) (replies : List HttpReply)
    (f : HttpFunction) (values : List Value) : Halt → Prop
  | unencodable {method body : Text} {fault : Utf8.EncodeFault}
    (hasks : Asks f values method (some body)) (hfault : Utf8.encode body = .error fault) :
    Ends platform settings replies f values (.internal (.unencodable fault))
  | unopened {method message : Text} {data : Option Text} (hasks : Asks f values method data)
    (hsendable : Sendable data) (hclient : Unopened platform settings message) :
    Ends platform settings replies f values (.internal (.clientBroken message))
  | uncounted {method : Text} {data : Option Text} {cause : InternalFault}
    (hasks : Asks f values method data) (hsendable : Sendable data)
    (hclient : Opened platform settings)
    (hretries : retryCount settings.retries = .error cause) :
    Ends platform settings replies f values (.internal cause)
  | exchange {method : Text} {data : Option Text} {retries : ℕ} {halt : Halt}
    (hasks : Asks f values method data) (hsendable : Sendable data)
    (hclient : Opened platform settings) (hretries : retryCount settings.retries = .ok retries)
    (hends : ExchangeEnds platform settings.backoff method retries replies halt) :
    Ends platform settings replies f values halt

theorem run_request_of_unencodable {method url body : Text} {headers : Dict Text}
    {fault : Utf8.EncodeFault} (h : Utf8.encode body = .error fault) :
    ((Http.request platform settings method url (some body) headers).run w).1 =
      .error (.internal (.unencodable fault)) := by
  rw [Http.request, Option.map_some, h]
  rfl

/-- A request that can be sent is dispatched. -/
theorem request_of_sendable (h : Sendable data) (platform : Platform) (settings : HttpSettings)
    (method url : Text) (headers : Dict Text) :
    ∃ headers' body, Http.request platform settings method url data headers =
      dispatch platform settings method url headers' body := by
  cases data with
  | none => exact ⟨_, none, rfl⟩
  | some t =>
    obtain ⟨bytes, hbytes⟩ := h t rfl
    exact ⟨_, some bytes, by rw [Http.request, Option.map_some, hbytes]⟩

variable {headers : Dict Text} {body : Option Bytes} {url : Text}

theorem run_dispatch_of_unopened {message : Text} (h : Unopened platform settings message) :
    (dispatch platform settings method url headers body).run w =
      (.error (.internal (.clientBroken message)), w.passed
        [.logged ⟨.debug, LogRecord.httpLogger, method ++ " " ++ url⟩] 0) := by
  rw [Unopened] at h
  rw [dispatch, Run.log, run_bind, run_note, h]
  rfl

/-- What happens before a request is sent for the first time. -/
def preface (settings : HttpSettings) (method url : Text) : List Event :=
  [.logged ⟨.debug, LogRecord.httpLogger, method ++ " " ++ url⟩,
    .connected settings.timeout settings.followRedirects]

/-- With a client a request is exchanged, if the count of retries is an integer. -/
theorem run_dispatch_of_opened (h : Opened platform settings) :
    (dispatch platform settings method url headers body).run w =
      (match retryCount settings.retries with
        | .error cause => Run.halt (.internal cause)
        | .ok retries => Http.exchange platform settings.backoff ⟨method, url, headers, body⟩
          retries 0).run (w.passed (preface settings method url) 0) := by
  rw [Opened] at h
  rw [dispatch, Run.log, run_bind, run_note, h]
  dsimp only
  rw [run_bind, run_note, World.passed_passed]
  rfl

/-- A call asks for a request, or its arguments do not fit. -/
theorem call_cases (setup : Setup) (f : HttpFunction) (values : List Value) :
    (∃ message, call setup f values = pure (.error message)) ∨
      ∃ method data url headers, Asks f values method data ∧
        call setup f values =
          Http.request setup.platform setup.http method url data headers := by
  cases f with
  | get =>
    cases harguments : readArguments [.string] values with
    | error fault =>
      left
      rw [call, withArguments, harguments]
      exact ⟨_, rfl⟩
    | ok arguments =>
      obtain rfl := readArguments_eq_ok_iff.mp harguments
      exact .inr ⟨_, _, _, _, .get arguments.1, rfl⟩
  | post =>
    cases harguments : readArguments [.string, .string] values with
    | error fault =>
      left
      rw [call, withArguments, harguments]
      exact ⟨_, rfl⟩
    | ok arguments =>
      obtain rfl := readArguments_eq_ok_iff.mp harguments
      exact .inr ⟨_, _, _, _, .post arguments.1 arguments.2.1, rfl⟩
  | postWithToken =>
    cases harguments : readArguments [.string, .string, .string] values with
    | error fault =>
      left
      rw [call, withArguments, harguments]
      exact ⟨_, rfl⟩
    | ok arguments =>
      obtain rfl := readArguments_eq_ok_iff.mp harguments
      exact .inr ⟨_, _, _, _, .postWithToken arguments.1 arguments.2.1 arguments.2.2.1, rfl⟩

theorem Asks.call_eq (h : Asks f values method data) (setup : Setup) :
    ∃ url headers, call setup f values =
      Http.request setup.platform setup.http method url data headers := by
  cases h with
  | get url => exact ⟨url, _, rfl⟩
  | post url data => exact ⟨url, _, rfl⟩
  | postWithToken url data token => exact ⟨url, _, rfl⟩

/-- A request gives a string or an error, or ends the run as `Ends` describes it. -/
theorem request_gives (hasks : Asks f values method data) :
    Settles (·.isTextOrError = true) (Ends platform settings w.replies f values)
      ((Http.request platform settings method url data headers).run w).1 := by
  rcases sendable_or data with hsendable | ⟨body, fault, rfl, hfault⟩
  · obtain ⟨headers', body, hdispatch⟩ :=
      request_of_sendable hsendable platform settings method url headers
    rw [hdispatch]
    cases hclient : platform.clientFault? settings.timeout settings.followRedirects with
    | some message =>
      rw [run_dispatch_of_unopened hclient]
      exact Ends.unopened hasks hsendable hclient
    | none =>
      rw [run_dispatch_of_opened hclient]
      cases hretries : retryCount settings.retries with
      | error cause => exact Ends.uncounted hasks hsendable hclient hretries
      | ok retries =>
        have hgives := exchange_gives platform settings.backoff ⟨method, url, headers', body⟩
          retries (w.passed (preface settings method url) 0)
        exact hgives.imp (fun _ hv => hv)
          fun _ hends => .exchange hasks hsendable hclient hretries hends
  · rw [run_request_of_unencodable hfault]
    exact Ends.unencodable hasks hfault

theorem run_call_of_ends (setup : Setup)
    (h : Ends setup.platform setup.http w.replies f values halt) :
    ((call setup f values).run w).1 = .error halt := by
  cases h with
  | unencodable hasks hfault =>
    obtain ⟨url, headers, hcall⟩ := hasks.call_eq setup
    rw [hcall, run_request_of_unencodable hfault]
  | unopened hasks hsendable hclient =>
    obtain ⟨url, headers, hcall⟩ := hasks.call_eq setup
    obtain ⟨headers', body, hdispatch⟩ :=
      request_of_sendable hsendable setup.platform setup.http _ url headers
    rw [hcall, hdispatch, run_dispatch_of_unopened hclient]
  | uncounted hasks hsendable hclient hretries =>
    obtain ⟨url, headers, hcall⟩ := hasks.call_eq setup
    obtain ⟨headers', body, hdispatch⟩ :=
      request_of_sendable hsendable setup.platform setup.http _ url headers
    rw [hcall, hdispatch, run_dispatch_of_opened hclient, hretries]
    rfl
  | exchange hasks hsendable hclient hretries hends =>
    obtain ⟨url, headers, hcall⟩ := hasks.call_eq setup
    obtain ⟨headers', body, hdispatch⟩ :=
      request_of_sendable hsendable setup.platform setup.http _ url headers
    rw [hcall, hdispatch, run_dispatch_of_opened hclient, hretries]
    exact run_exchange_of_ends (w := w.passed _ 0) hends

/-- A call gives a string or an error, on all platforms, under all settings, with all arguments and
whatever the replies are, unless it ends the run in one of the ways that `Ends` lists. -/
theorem call_ends_iff (setup : Setup) (f : HttpFunction) (values : List Value) (w : World) :
    (∀ v, ((call setup f values).run w).1 = .ok v → v.isTextOrError = true) ∧
      ∀ halt, ((call setup f values).run w).1 = .error halt ↔
        Ends setup.platform setup.http w.replies f values halt := by
  have hgives : Settles (·.isTextOrError = true)
      (Ends setup.platform setup.http w.replies f values) ((call setup f values).run w).1 := by
    rcases call_cases setup f values with ⟨message, hcall⟩ | ⟨_, _, url, headers, hasks, hcall⟩
    · rw [hcall]
      rfl
    · rw [hcall]
      exact request_gives hasks
  exact ⟨fun v => hgives.of_ok, fun halt => ⟨hgives.of_error, run_call_of_ends setup⟩⟩

end Http

/-! ## A body that cannot be encoded -/

namespace Session

/-- The arguments of a request whose body is a surrogate. -/
def surrogateBody : List Value := [.string "u", .string [.surrogate 0]]

theorem ends_surrogateBody (platform : Platform) (settings : HttpSettings)
    (replies : List HttpReply) :
    Http.Ends platform settings replies .post surrogateBody (.internal (.unencodable ⟨0, 0, 0⟩)) :=
  .unencodable (.post "u" [.surrogate 0]) rfl

theorem call_ends_iff_surrogateBody :
    ((Http.call withoutBootstrap.setup .post surrogateBody).run withoutBootstrap.world).1 =
        .error (.internal (.unencodable ⟨0, 0, 0⟩)) ∧
      ¬ ∃ halt, ((Http.call withoutBootstrap.setup .get surrogateBody).run
        withoutBootstrap.world).1 = .error halt := by
  constructor
  · rw [(Http.call_ends_iff _ .post surrogateBody _).2]
    exact ends_surrogateBody _ _ _
  · rintro ⟨halt, hhalt⟩
    rw [(Http.call_ends_iff _ .get surrogateBody _).2] at hhalt
    -- a request without a body takes one argument
    have hasks (method : Text) (data : Option Text) : ¬ Http.Asks .get surrogateBody method data :=
      nofun
    cases hhalt with
    | unencodable h => exact hasks _ _ h
    | unopened h => exact hasks _ _ h
    | uncounted h => exact hasks _ _ h
    | exchange h => exact hasks _ _ h

/-- A script that sends a surrogate and goes on. -/
def unsendable : Text := "postRequest(\"u\", \"\\u\x7bd800\x7d\"); true"

/-- Its statements. -/
def unsendableProgram : List Stmt :=
  [.expression (.call (.variable "postRequest" ⟨0, 11, 1⟩)
      [.literal (.string "u") ⟨12, 15, 1⟩, .literal (.string [.surrogate 0]) ⟨17, 27, 1⟩]
      ⟨11, 12, 1⟩) ⟨0, 11, 1⟩,
    .expression (.literal (.boolean true) ⟨30, 34, 1⟩) ⟨30, 34, 1⟩]

theorem compile_unsendable : compile 1500 unsendable = .ok unsendableProgram := by
  cbv

/-- The script ends at its first statement, with an internal failure. -/
theorem unsendable_ends :
    History [] withoutBootstrap ∧
      (withoutBootstrap.run unsendable).1 = .failure (.internal (.unencodable ⟨0, 0, 0⟩)) := by
  refine ⟨History.fresh quiet .bare, ?_⟩
  have hcompile : compile withoutBootstrap.setup.depth unsendable = .ok unsendableProgram := by
    rw [depth_withoutBootstrap, compile_unsendable]
  have hmem : Native.http .post ∈ Native.library :=
    List.mem_append_right _ (List.mem_map.mpr ⟨.post, by decide, rfl⟩)
  have hbound : withoutBootstrap.world.scopes.get? withoutBootstrap.root "postRequest" =
      some (.function (.native (.http .post))) :=
    Scopes.get?_of_bindings (get?_fresh_library (f := .http .post) quiet rfl hmem)
  have hcall : ((Run.callNative withoutBootstrap.setup 1498 (.http .post) surrogateBody).run
      (withoutBootstrap.announced unsendable).world).1 =
        .error (.internal (.unencodable ⟨0, 0, 0⟩)) :=
    Http.run_call_of_ends _ (ends_surrogateBody _ _ _)
  exact run_of_native_ends depth_withoutBootstrap hcompile hbound rfl hcall

end Session

end HostScript
