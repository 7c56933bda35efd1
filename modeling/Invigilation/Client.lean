import Invigilation.Action
import Invigilation.Attempt.Reader
import Invigilation.Http.Exchange
import Invigilation.Http.Status
import Invigilation.Http.Url
import Invigilation.Json.Printer

/-!
# The client of the attempt service

A client is built from a base URL, a request timeout and a CSRF token. It resolves the URLs it is
given, reports an action with a PUT request and fetches the current attempt with a GET request.

- `Client.build?`: checks and cleans the configuration.
- `Client.resolve`: the URL on the wire.
- `Client.update`, `Client.fetch`: the two operations, with the requests that were sent.
- `ClientError`: every way in which they fail.
-/

namespace Invigilation

open Text (Bytes)

/-- Why a request has no answer. -/
inductive RequestFailure where
  /-- It could not be put together, and was not sent. -/
  | malformed
  /-- It could not hold its URL, and was not sent. -/
  | refused (url : String)
  /-- It was sent, or a connection was tried, and no answer came. -/
  | unanswered (url : String)
  deriving DecidableEq, Repr

/-- The failures of the client. -/
inductive ClientError where
  | invalidUrl (url : String)
  | request (failure : RequestFailure)
  | read
  | http (status : Nat) (body : String)
  | decode (message : String)
  deriving DecidableEq, Repr

/-- The wording of a failed request. It does not name the user of a URL. -/
def RequestFailure.message : RequestFailure → String
  | .malformed => "builder error"
  | .refused url => s!"builder error for url ({Http.Url.anonymous url})"
  | .unanswered url => s!"error sending request for url ({Http.Url.anonymous url})"

/-- The wording of a client error. -/
def ClientError.message : ClientError → String
  | .invalidUrl url => s!"attempt_client_invalid_url:{url}"
  | .request failure => s!"attempt_request_failed:{failure.message}"
  | .read => "attempt_read_failed:error decoding response body"
  | .http status body => s!"attempt_http_{Http.statusText status}:{body}"
  | .decode message => s!"attempt_json_decode_failed:{message}"

/-- The shown body of an answer that reports no success: its text, trimmed, or a mark when it is
blank. -/
def errorBody (body : Bytes) : String :=
  (Text.content? (Text.ofBytesLossy body)).getD "<empty>"

/-- The error of an answer that reports no success. -/
def ClientError.ofAnswer (status : Nat) (body : Bytes) : ClientError :=
  .http status (errorBody body)

/-- The request timeout when none is configured, in milliseconds. -/
def defaultTimeout : Nat := 30000

/-- The least request timeout, in milliseconds. -/
def minTimeout : Nat := 250

/-- What a client is built from. -/
structure ClientSettings where
  baseUrl : Option String := none
  timeout : Nat := defaultTimeout
  csrfToken : Option String := none
  deriving DecidableEq, Repr

/-- A client of the attempt service. -/
structure Client where
  baseUrl : Option String
  timeout : Nat
  csrfToken : Option String
  deriving DecidableEq, Repr

/-- How an absolute URL starts. -/
def urlSchemes : List String := ["http://", "https://"]

/-- Whether a text starts like an absolute URL. -/
def isAbsoluteUrl (url : String) : Bool :=
  urlSchemes.any fun scheme => scheme.toList.isPrefixOf url.toList

/-- The stored form of a base URL: trimmed, without slashes at its end, and absolute. -/
def normalizeBaseUrl (url : String) : Except ClientError String :=
  let stored := String.ofList (Text.dropTrailing (· == '/') (Text.trimChars url.toList))
  if isAbsoluteUrl stored then .ok stored else .error (.invalidUrl url)

namespace Client

/-- Builds a client. A blank base URL or token counts as none, and a short timeout is lengthened. -/
def build? (s : ClientSettings) : Except ClientError Client := do
  let baseUrl ← match s.baseUrl.bind Text.content? with
    | none => pure none
    | some url => some <$> normalizeBaseUrl url
  return ⟨baseUrl, max s.timeout minTimeout, s.csrfToken.bind Text.content?⟩

/-- The URL on the wire. An absolute URL is taken as it is, and a path is put behind the base URL;
the error carries the URL as it was given. -/
def resolve (c : Client) (url : String) : Except ClientError String :=
  let trimmed := Text.trim url
  if isAbsoluteUrl trimmed then .ok trimmed
  else
    match c.baseUrl, trimmed.toList with
    | some base, '/' :: path => .ok (base ++ String.ofList ('/' :: path))
    | _, _ => .error (.invalidUrl url)

/-- Whether a token may stand in a header: no control byte other than tab. -/
def isHeaderValue (token : String) : Bool :=
  (Text.toBytes token).all fun b => (0x20 ≤ b || b == 0x09) && b != 0x7F

/-- Puts a request together, or says why it cannot be sent. -/
def request (c : Client) (method : Http.Method) (url : String) (body : Option String) :
    Except ClientError Http.Request := do
  let resolved ← c.resolve url
  if ¬ Http.Url.isWellFormed resolved ∨ ¬ c.csrfToken.all isHeaderValue then
    .error (.request .malformed)
  else if ¬ Http.Url.isSendable resolved then .error (.request (.refused resolved))
  else return ⟨method, resolved, c.csrfToken, body⟩

/-- The request that reports an action. -/
def updateRequest (c : Client) (url : String) (a : Action) : Except ClientError Http.Request :=
  c.request .put url (some a.updateBody.render)

/-- The request for the current attempt. -/
def fetchRequest (c : Client) (url : String) : Except ClientError Http.Request :=
  c.request .get url none

/-- The body of a successful answer; every other reply is an error. The body is read before the
status is looked at, so that one that broke off is an error of its own, whatever the status. -/
def successBody (url : String) : Http.Reply → Except ClientError Bytes
  | .silence => .error (.request (.unanswered url))
  | .brokenOff _ => .error .read
  | .answer status body =>
    if Http.isSuccess status then .ok body else .error (.ofAnswer status body)

/-- What the reply to a status update means; the body does not matter. -/
def concludeUpdate (url : String) (reply : Http.Reply) : Except ClientError Unit :=
  (successBody url reply).map fun _ => ()

/-- What the reply to a request for the current attempt means. -/
def concludeFetch (url : String) (reply : Http.Reply) : Except ClientError Attempt :=
  match successBody url reply with
  | .error e => .error e
  | .ok body =>
    match Attempt.parse body with
    | .ok a => .ok a
    | .error fault => .error (.decode (fault.message body))

/-- The requests that arrive when one is sent. -/
def arriving (server : Http.Server) (r : Http.Request) : List Http.Request :=
  if server.isReached then [r] else []

/-- Reports an action to a server: the requests that arrived there, and the result. -/
def update (c : Client) (server : Http.Server) (url : String) (a : Action) :
    List Http.Request × Except ClientError Unit :=
  match c.updateRequest url a with
  | .error e => ([], .error e)
  | .ok r => (arriving server r, concludeUpdate r.url server.reply)

/-- Fetches the current attempt from a server: the requests that arrived there, and the result. -/
def fetch (c : Client) (server : Http.Server) (url : String) :
    List Http.Request × Except ClientError Attempt :=
  match c.fetchRequest url with
  | .error e => ([], .error e)
  | .ok r => (arriving server r, concludeFetch r.url server.reply)

end Client

end Invigilation
