import HostScript.Dict
import HostScript.Setting

/-!
# HTTP requests and replies

A request as it is sent, and the replies that a transport may give: a response, or a failure of one
of five kinds, which differ in whether the request may be sent again. What else requests need, a
client, the codecs and the clock, comes with the platform (`Platform`).
-/

namespace HostScript

/-- A request. -/
structure HttpRequest where
  method : Text
  url : Text
  headers : Dict Text
  body : Option Bytes

/-- How a request fails without a response: no connection was made; the connection broke; the
exchange went wrong otherwise; the address was rejected before anything was sent; or the client
itself broke. -/
inductive HttpFailure
  | noConnection
  | brokenConnection
  | badExchange
  | rejected
  | clientBroken
deriving DecidableEq

/-- A response. The library for requests says which encoding its content is in, if any, and reads
the content as a text of its own, or breaks over it with some wording. -/
structure HttpResponse where
  status : Int
  encoding : Option Text
  content : Bytes
  text : Except Text Text

/-- The name of the encoding in which the content of a response is read. -/
def HttpResponse.charset (r : HttpResponse) : Text :=
  match r.encoding with
  | none => "utf-8"
  | some name => if name.isEmpty then "utf-8" else name

/-- What comes back for a request. -/
inductive HttpReply
  | response (r : HttpResponse)
  | failure (kind : HttpFailure) (message : Text)

/-- What becomes of a request once the scripted replies have run out. -/
def HttpReply.exhausted : HttpReply := .failure .noConnection "exhausted"

/-- Why bytes give no text: they are none in their encoding, or there is no such encoding; or the
codec itself breaks. -/
inductive DecodeFault
  | malformed (message : Text)
  | codecBroken (message : Text)

/-- What making requests needs of the platform: a client of the library for requests, the codecs and
the clock. All of them may fail, with some wording. -/
structure Platform where
  /-- Why no client is made with some settings, if none is. -/
  clientFault? : (timeout followRedirects : Setting) → Option Text
  /-- The text of bytes in the encoding of a name. -/
  decode : (charset : Text) → Bytes → Except DecodeFault Text
  /-- Why the clock does not wait for some seconds, if it does not. -/
  sleepFault? : (seconds : Float) → Option Text

/-- How requests are made. The settings come from configuration files, which do not fix the kinds
of their values. -/
structure HttpSettings where
  timeout : Setting
  retries : Setting
  backoff : Float
  followRedirects : Setting

/-- The settings without a configuration. -/
def HttpSettings.default : HttpSettings := ⟨.number 5, .integer 0, 0.2, .boolean true⟩

end HostScript
