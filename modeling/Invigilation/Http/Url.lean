import Invigilation.Http.Host

/-!
# Absolute URLs that can be requested

Behind its scheme an HTTP URL has slashes and an authority: perhaps a user, a host, perhaps a port.
A request needs the host to be well formed and the port to be one; path and query can be anything.
Some well-formed URLs still cannot be written into a request.

- `authority`: the part of a URL between the slashes and the path.
- `isWellFormed`: whether a text that starts like an absolute URL is one.
- `isSendable`: whether a request can hold a URL.
- `anonymous`: the URL as failures name it, without its user.
-/

namespace Invigilation.Http.Url

/-- The characters that end an authority. Backslashes count as slashes. -/
def endsAuthority (c : Char) : Bool :=
  c == '/' || c == '\\' || c == '?' || c == '#'

/-- The characters that are skipped wherever they stand in a URL. -/
def isSkipped (c : Char) : Bool :=
  c == '\t' || c == '\n' || c == '\r'

/-- Whether a character is a control character or a space, which are cut off behind a URL. -/
def isPadding (c : Char) : Bool :=
  c.toNat ≤ 0x20

/-- The authority of an absolute URL. -/
def authority (url : String) : List Char :=
  let cs := (url.toList.reverse.dropWhile isPadding).reverse.filter (!isSkipped ·)
  let behindScheme := (cs.dropWhile (· ≠ ':')).drop 1
  (behindScheme.dropWhile fun c => c == '/' || c == '\\').takeWhile (!endsAuthority ·)

/-- An authority without its user, who is set off by the last at sign. -/
def withoutUser (authority : List Char) : List Char :=
  (authority.reverse.takeWhile (· ≠ '@')).reverse

/-- The host and what follows it; inside brackets colons belong to the host. -/
def splitHost (bracketed : Bool) : List Char → List Char × List Char
  | [] => ([], [])
  | c :: rest =>
    if c = ':' ∧ !bracketed then ([], c :: rest)
    else
      let (host, port) := splitHost (c = '[' || (bracketed && c ≠ ']')) rest
      (c :: host, port)

/-- Whether a text is what may follow a host: nothing, or a colon and a port below 2^16, of which
the digits may be missing. -/
def isPort : List Char → Bool
  | [] => true
  | ':' :: digits => (numberOf? 10 digits).any (· < 65536)
  | _ => false

/-- The host of an absolute URL and what follows it in the authority. -/
def hostAndPort (url : String) : List Char × List Char :=
  splitHost false (withoutUser (authority url))

/-- Whether a text that starts like an absolute URL is one. -/
def isWellFormed (url : String) : Bool :=
  isHost (hostAndPort url).1 && isPort (hostAndPort url).2

/-- Whether `%` and two digits in a text stand for the bytes of a text. -/
def isReadable (cs : List Char) : Bool :=
  (Text.Utf8.decode? (percentDecode cs)).isSome

/-- Whether the part of an authority in front of its last at sign is a user whose name, or whose
password when the name is empty, can be read. -/
def isUser (user : List Char) : Bool :=
  let name := user.takeWhile (· ≠ ':')
  isReadable name && (!name.isEmpty || isReadable (user.drop 1))

/-- An absolute URL without its user, who is named in a header of the request instead; a user that
cannot be read stays. -/
def anonymous (url : String) : String :=
  let cs := url.toList
  let behind := ((cs.dropWhile (· ≠ ':')).drop 1).dropWhile fun c => c == '/' || c == '\\'
  let whole := behind.takeWhile (!endsAuthority ·)
  let host := withoutUser whole
  let user := whole.take (whole.length - host.length - 1)
  if host.length < whole.length ∧ isUser user then
    String.ofList
      (cs.take (cs.length - behind.length) ++ host ++ behind.dropWhile (!endsAuthority ·))
  else url

/-- The greatest number of bytes of a URL in a request. -/
def maxBytes : Nat := 65534

/-- Whether a request can hold a well-formed URL. -/
def isSendable (url : String) : Bool :=
  Http.isSendable (hostAndPort url).1 && (anonymous url).utf8ByteSize ≤ maxBytes

end Invigilation.Http.Url
