/-!
# Bounds of 64-bit integers

Durations, identifiers and the integers of JSON have sixty-four bits, with or without a sign.
-/

namespace Invigilation

/-- Unsigned integers lie below 2^64. -/
def unsignedBound : Nat := 18446744073709551616

/-- Signed integers lie below 2^63, and not below its negative. -/
def signedBound : Nat := 9223372036854775808

end Invigilation
