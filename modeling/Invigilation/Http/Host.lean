import Invigilation.Http.Domain
import Invigilation.Text.Utf8

/-!
# Hosts in URLs

A host is an IPv6 address in brackets, an IPv4 address, or a domain. A domain whose last label looks
like a number has to be an IPv4 address; the numbers of an address may be written in decimal, octal
or hexadecimal, and its last number stands for all the octets that are left.

- `isIpv4`, `isIpv6`: the texts that are addresses.
- `isHost`: the texts that are hosts.
- `isSendable`: the hosts that a request can name.
-/

namespace Invigilation.Http

open Text (Bytes)

/-- The value of a digit of a number system with at most sixteen digits. -/
def digitOf? (radix : Nat) (c : Char) : Option Nat :=
  let value :=
    if '0' ≤ c ∧ c ≤ '9' then some (c.toNat - '0'.toNat)
    else if 'a' ≤ c ∧ c ≤ 'f' then some (c.toNat - 'a'.toNat + 10)
    else if 'A' ≤ c ∧ c ≤ 'F' then some (c.toNat - 'A'.toNat + 10)
    else none
  value.filter (· < radix)

/-- The number that digits denote. -/
def numberOf? (radix : Nat) (digits : List Char) : Option Nat :=
  (digits.mapM (digitOf? radix)).map fun values => values.foldl (fun n d => n * radix + d) 0

/-- Whether a text is a nonempty run of decimal digits. -/
def isDecimal (cs : List Char) : Bool :=
  !cs.isEmpty && (numberOf? 10 cs).isSome

/-! ## IPv4 -/

/-- The number of a part of an IPv4 address: hexadecimal after `0x`, octal after another zero,
decimal otherwise. -/
def ipv4Number? : List Char → Option Nat
  | [] => none
  | ['0'] => some 0
  | '0' :: 'x' :: digits | '0' :: 'X' :: digits => numberOf? 16 digits
  | '0' :: digits => numberOf? 8 digits
  | digits => numberOf? 10 digits

/-- The labels of a domain; a dot at its end opens no label. -/
def labels (domain : List Char) : List (List Char) :=
  let all := splitAtChar '.' domain
  if 1 < all.length ∧ all.getLast? = some [] then all.dropLast else all

/-- Whether a domain has to be read as an IPv4 address. -/
def endsInNumber (domain : List Char) : Bool :=
  match (labels domain).getLast? with
  | some last => isDecimal last || (ipv4Number? last).isSome
  | none => false

/-- Whether a text is an IPv4 address. -/
def isIpv4 (domain : List Char) : Bool :=
  match (labels domain).mapM ipv4Number? with
  | none => false
  | some numbers =>
    match numbers.getLast? with
    | none => false
    | some last =>
      numbers.length ≤ 4 && numbers.dropLast.all (· ≤ 255) &&
        last < Nat.pow 256 (5 - numbers.length)

/-! ## IPv6 -/

/-- Whether a text is one of the eight groups of an IPv6 address. -/
def isGroup (cs : List Char) : Bool :=
  !cs.isEmpty && cs.length ≤ 4 && (numberOf? 16 cs).isSome

/-- Whether a text is an octet in decimal, without leading zeros. -/
def isOctet (cs : List Char) : Bool :=
  isDecimal cs && (cs.length = 1 || cs.head? ≠ some '0') && (numberOf? 10 cs).any (· ≤ 255)

/-- Whether a text is four octets, which may stand for the last two groups. -/
def isOctets (cs : List Char) : Bool :=
  let parts := splitAtChar '.' cs
  parts.length = 4 && parts.all isOctet

/-- How many groups a part of an IPv6 address spells, if it spells any. `closing` says that it is
the end of the address. -/
def countGroups? (closing : Bool) (cs : List Char) : Option Nat :=
  if cs.isEmpty then some 0
  else
    let parts := splitAtChar ':' cs
    if parts.all isGroup then some parts.length
    else if closing && parts.dropLast.all isGroup && parts.getLast?.any isOctets then
      some (parts.length + 1)
    else none

/-- A text cut at the first double colon, if it has one. -/
def cutDoubleColon : List Char → Option (List Char × List Char)
  | ':' :: ':' :: rest => some ([], rest)
  | c :: rest => (cutDoubleColon rest).map fun (before, after) => (c :: before, after)
  | [] => none

/-- Whether a text is an IPv6 address: eight groups, of which a double colon may leave out some. -/
def isIpv6 (cs : List Char) : Bool :=
  match cutDoubleColon cs with
  | none => countGroups? true cs = some 8
  | some (before, after) =>
    match countGroups? false before, countGroups? true after with
    | some m, some n => m + n ≤ 7
    | _, _ => false

/-! ## Domains -/

/-- Bytes with every `%` and two hexadecimal digits replaced by the byte they denote. -/
def percentDecode : List Char → Bytes
  | '%' :: a :: b :: rest =>
    match digitOf? 16 a, digitOf? 16 b with
    | some high, some low => UInt8.ofNat (high * 16 + low) :: percentDecode rest
    | _, _ => Text.Utf8.encode ['%'] ++ percentDecode (a :: b :: rest)
  | c :: rest => Text.Utf8.encode [c] ++ percentDecode rest
  | [] => []

/-- The domain that a host is the text of; a host may write bytes as `%` and two digits. -/
def domain? (cs : List Char) : Option (List Char) :=
  (Text.Utf8.decode? (percentDecode cs)).bind Domain.ofText?

/-- Whether a text is a domain or an IPv4 address. -/
def isDomain (cs : List Char) : Bool :=
  (domain? cs).any fun domain => !endsInNumber domain || isIpv4 domain

/-- Whether a text is a host. -/
def isHost : List Char → Bool
  | '[' :: rest => rest.getLast? = some ']' && isIpv6 rest.dropLast
  | cs => isDomain cs

/-- The characters that a domain may hold and a request cannot name. -/
def isUnsendable (c : Char) : Bool :=
  ['"', '`', '\x7b', '\x7d'].contains c

/-- Whether a request can name a host. -/
def isSendable (host : List Char) : Bool :=
  (domain? host).all fun domain => !domain.any isUnsendable

end Invigilation.Http
