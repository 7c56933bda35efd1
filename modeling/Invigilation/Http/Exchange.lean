import Invigilation.Text.Utf8

/-!
# Requests and what comes of them

- `Request`: what is put on the wire.
- `Reply`: what the client is left with once a request was sent.
- `Server`: how the far end treats requests. Every server but an unreachable one sees each request
  that is sent.
-/

namespace Invigilation.Http

open Text (Bytes)

/-- The methods the client uses. -/
inductive Method where
  | get
  | put
  deriving DecidableEq, Repr

/-- The name of a method. -/
def Method.name : Method → String
  | get => "GET"
  | put => "PUT"

/-- A request. One with a body declares it as JSON. -/
structure Request where
  method : Method
  url : String
  csrfToken : Option String
  body : Option String
  deriving DecidableEq, Repr

/-- The content type that a request declares. -/
def Request.contentType (r : Request) : Option String :=
  r.body.map fun _ => "application/json"

/-- What comes of a request. -/
inductive Reply where
  /-- No answer arrived, for want of a connection or of time. -/
  | silence
  /-- The head of an answer arrived, and its body broke off. -/
  | brokenOff (status : Nat)
  /-- An answer arrived whole. -/
  | answer (status : Nat) (body : Bytes)
  deriving DecidableEq, Repr

/-- How the far end treats a request. -/
inductive Server where
  /-- No connection can be made. -/
  | unreachable
  /-- The connection is closed before an answer. -/
  | dropping
  /-- The request is never answered, and the client gives up. -/
  | hanging
  /-- The answer breaks off inside its body. -/
  | truncating (status : Nat)
  | answering (status : Nat) (body : Bytes)
  deriving DecidableEq, Repr

namespace Server

/-- Whether a request arrives. -/
def isReached : Server → Bool
  | unreachable => false
  | _ => true

/-- What a request is met with. Answers of status 204 and 304 have no body. -/
def reply : Server → Reply
  | unreachable | dropping | hanging => .silence
  | truncating status => .brokenOff status
  | answering status body => .answer status (if status = 204 ∨ status = 304 then [] else body)

end Server

end Invigilation.Http
