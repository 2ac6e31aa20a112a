import HostScript.Library.Call
import HostScript.Run.World

/-!
# Making requests

A request is sent, and sent again after some failures, until there is a response or a failure that
counts. A request that may have reached the server is only sent again if doing so is harmless.
Failures are error values; a run ends only where the client, a codec or the clock breaks, or where a
pause is no number.
-/

namespace HostScript.Http

-- powers of natural numbers mean the same whatever else is imported
attribute [local instance (2000)] instPowNat

/-- The methods for which sending a request again does no harm. -/
def repeatable : List Text := ["GET", "HEAD", "OPTIONS", "PUT", "DELETE"]

/-- Whether a request may be sent again after a failure. -/
def mayRepeat (method : Text) : HttpFailure → Bool
  | .noConnection => true
  | .brokenConnection => repeatable.contains method
  | _ => false

/-- How often a request may be sent again. The setting may be a truth value. Under a negative count
the request is not even sent once, and there is nothing to read. -/
def retryCount : Setting → Except InternalFault Nat
  | .integer n => if 0 ≤ n then .ok n.toNat else .error .neverSent
  | .boolean b => .ok b.toNat
  | setting => .error (.retriesNotInteger setting.kindName)

@[simp] theorem retryCount_ofNat (n : Nat) : retryCount (.integer n) = .ok n := rfl

/-- Sends a request and takes what comes back. -/
def send (request : HttpRequest) : Run HttpReply := do
  Run.note (.requested request)
  modifyGet fun w =>
    match w.replies with
    | reply :: rest => (reply, { w with replies := rest })
    | [] => (.exhausted, w)

/-- The error value of a request that failed. -/
def failed (request : HttpRequest) (message : Text) : Value :=
  .error (request.method ++ " " ++ request.url ++ " failed: " ++ message)

/-- The value that a response gives: its content as a text if the status is a success. -/
def valueOfResponse (platform : Platform) (request : HttpRequest) (r : HttpResponse) :
    Except InternalFault Value :=
  if 200 ≤ r.status ∧ r.status < 300 then
    match platform.decode r.charset r.content with
    | .ok t => .ok (.string t)
    | .error (.malformed reason) =>
      .ok (.error ("unreadable response body from " ++ request.url ++ ": " ++ reason))
    | .error (.codecBroken message) => .error (.codecBroken message)
  else
    match r.text with
    | .ok t =>
      .ok (.error ("HTTP " ++ Text.ofInt r.status ++ " for " ++ request.url ++ ": " ++ t.take 200))
    | .error message => .error (.clientBroken message)

/-- The pause before a request is sent again after `attempt` others. It doubles each time, until the
factor is beyond all numbers or the clock refuses. -/
def pause (platform : Platform) (backoff : Float) (attempt : Nat) : Except InternalFault Float :=
  match Number.ofInt? (2 ^ attempt) with
  | none => .error .numberOverflow
  | some factor =>
    match platform.sleepFault? (backoff * factor) with
    | some message => .error (.sleepRefused message)
    | none => .ok (backoff * factor)

/-- Sends a request for the time after `attempt` others, and again up to `retries` times, with a
pause before each. -/
def exchange (platform : Platform) (backoff : Float) (request : HttpRequest) :
    (retries attempt : Nat) → Run Value
  | retries, attempt => do
    match ← send request with
    | .response r => conclude (valueOfResponse platform request r)
    | .failure kind message =>
      match retries with
      | 0 => giveUp request kind message
      | retries + 1 =>
        if mayRepeat request.method kind then
          match pause platform backoff attempt with
          | .error cause => Run.halt (.internal cause)
          | .ok seconds =>
            Run.note (.slept seconds)
            exchange platform backoff request retries (attempt + 1)
        else giveUp request kind message
where
  /-- Ends an exchange with a response. -/
  conclude : Except InternalFault Value → Run Value
    | .ok v => return v
    | .error cause => Run.halt (.internal cause)
  /-- Ends an exchange with a failure. -/
  giveUp (request : HttpRequest) (kind : HttpFailure) (message : Text) : Run Value :=
    match kind with
    | .clientBroken => Run.halt (.internal (.clientBroken message))
    | .rejected => return failed request message
    | _ => do
      Run.log .debug LogRecord.httpLogger
        (request.method ++ " " ++ request.url ++ " failed: " ++ message)
      return failed request message

/-- The type of a body that does not state another. -/
def plainText : Text := "text/plain; charset=utf-8"

/-- Makes a client and exchanges a request whose body is encoded. -/
def dispatch (platform : Platform) (settings : HttpSettings) (method url : Text)
    (headers : Dict Text) (body : Option Bytes) : Run Value := do
  Run.log .debug LogRecord.httpLogger (method ++ " " ++ url)
  match platform.clientFault? settings.timeout settings.followRedirects with
  | some message => Run.halt (.internal (.clientBroken message))
  | none =>
    Run.note (.connected settings.timeout settings.followRedirects)
    match retryCount settings.retries with
    | .error cause => Run.halt (.internal cause)
    | .ok retries =>
      exchange platform settings.backoff ⟨method, url, headers, body⟩ retries 0

/-- Makes a request and returns its value. -/
def request (platform : Platform) (settings : HttpSettings) (method url : Text)
    (data : Option Text) (headers : Dict Text) : Run Value :=
  match data.map Utf8.encode with
  | some (.error fault) => Run.halt (.internal (.unencodable fault))
  | some (.ok bytes) =>
    dispatch platform settings method url (headers.putAbsent "Content-Type" plainText) (some bytes)
  | none => dispatch platform settings method url headers none

/-- A request is dispatched unless its body cannot be encoded. -/
theorem request_cases (platform : Platform) (settings : HttpSettings) (method url : Text)
    (data : Option Text) (headers : Dict Text) :
    (∃ fault, request platform settings method url data headers =
      Run.halt (.internal (.unencodable fault))) ∨
    ∃ headers' body, request platform settings method url data headers =
      dispatch platform settings method url headers' body := by
  cases data with
  | none => exact .inr ⟨_, none, rfl⟩
  | some t =>
    cases ht : Utf8.encode t with
    | error fault => exact .inl ⟨fault, by rw [request, Option.map_some, ht]⟩
    | ok bytes => exact .inr ⟨_, some bytes, by rw [request, Option.map_some, ht]⟩

/-- A response gives a string or an error, unless it ends the run. -/
theorem valueOfResponse_cases {platform : Platform} {request : HttpRequest} {r : HttpResponse}
    {v : Value} (h : valueOfResponse platform request r = .ok v) :
    (∃ t, v = .string t) ∨ ∃ message, v = .error message := by
  unfold valueOfResponse at h
  split at h
  · split at h
    · exact .inl ⟨_, (Except.ok.inj h).symm⟩
    · exact .inr ⟨_, (Except.ok.inj h).symm⟩
    · exact nomatch h
  · split at h
    · exact .inr ⟨_, (Except.ok.inj h).symm⟩
    · exact nomatch h

/-- Calls a function that makes a request. -/
def call (setup : Setup) (f : HttpFunction) (values : List Value) : Run Value :=
  match f with
  | .get =>
    withArguments f.name [.string] values fun (url, _) =>
      request setup.platform setup.http "GET" url none .empty
  | .post =>
    withArguments f.name [.string, .string] values fun (url, data, _) =>
      request setup.platform setup.http "POST" url (some data) .empty
  | .postWithToken =>
    withArguments f.name [.string, .string, .string] values fun (url, data, token, _) =>
      request setup.platform setup.http "POST" url (some data)
        (.ofList [("Authorization", "Bearer " ++ token)])

end HostScript.Http
