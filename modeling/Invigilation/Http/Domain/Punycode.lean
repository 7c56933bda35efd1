/-!
# Punycode (RFC 3492)

A label outside ASCII is written in ASCII as its ASCII characters, a hyphen, and numbers which say
where the other characters stand and which ones they are. The numbers are differences, in ascending
order of the characters, with digits of a base that adapts to their size.

- `readNumber`: one of the numbers, with the least digit first.
- `decode?`: the label.
-/

namespace Invigilation.Http.Domain.Punycode

/-- The value of a digit: the letters are 0 to 25, the digits 26 to 35. -/
def digit? (c : Char) : Option Nat :=
  if 'a' ≤ c ∧ c ≤ 'z' then some (c.toNat - 'a'.toNat)
  else if '0' ≤ c ∧ c ≤ '9' then some (c.toNat - '0'.toNat + 26)
  else none

/-- How many digits there are. -/
def base : Nat := 36

/-- Numbers and weights stay below this bound. -/
def bound : Nat := 0x100000000

/-- A digit below its threshold is the last one of a number. `k` is the base times its place,
counted from one. -/
def threshold (bias k : Nat) : Nat :=
  if k ≤ bias then 1 else if bias + 26 ≤ k then 26 else k - bias

/-- Adds a number to `sum`, from the digit with this weight on. -/
def readNumber (bias k weight sum : Nat) : List Char → Option (Nat × List Char)
  | [] => none
  | c :: rest =>
    match digit? c with
    | none => none
    | some d =>
      if bound ≤ sum + d * weight then none
      else if d < threshold bias k then some (sum + d * weight, rest)
      else if bound ≤ weight * (base - threshold bias k) then none
      else
        readNumber bias (k + base) (weight * (base - threshold bias k)) (sum + d * weight) rest

/-- A number has at least one digit. -/
theorem length_lt_of_readNumber {bias k weight sum : Nat} {cs : List Char} {r : Nat × List Char}
    (h : readNumber bias k weight sum cs = some r) : r.2.length < cs.length := by
  induction cs generalizing k weight sum with
  | nil => simp [readNumber] at h
  | cons c rest ih =>
    rw [readNumber] at h
    split at h
    · simp at h
    · split at h
      · simp at h
      · split at h
        · obtain rfl := Option.some.inj h
          simp
        · split at h
          · simp at h
          · have := ih h
            simp only [List.length_cons]
            omega

/-- Divides a difference until it is small, and counts the steps as multiples of the base. -/
def settleBias (delta k : Nat) : Nat :=
  if 455 < delta then settleBias (delta / 35) (k + base) else k + base * delta / (delta + 38)
termination_by delta
decreasing_by omega

/-- The bias after a difference, when the label has got `size` characters. -/
def adapt (delta size : Nat) (first : Bool) : Nat :=
  let scaled := if first then delta / 700 else delta / 2
  settleBias (scaled + scaled / size) 0

/-- Where decoding stands. -/
structure State where
  /-- The characters so far. -/
  label : List Char
  /-- The code point of the last character that was put in. -/
  point : Nat := 0x80
  /-- The place after it. -/
  place : Nat := 0
  bias : Nat := 72

/-- The state after a difference: it goes on from the last place, wraps around at the end of the
label, and counts one code point up each time. None if that is no character. -/
def State.insert? (s : State) (target : Nat) : Option State :=
  let size := s.label.length + 1
  let point := s.point + target / size
  if point.isValidChar then
    some {
      label := s.label.insertIdx (target % size) (Char.ofNat point)
      point
      place := target % size + 1
      bias := adapt (target - s.place) size (s.place = 0) }
  else none

/-- Puts in the characters that are left. -/
def decodeFrom (s : State) (digits : List Char) : Option (List Char) :=
  match digits with
  | [] => some s.label
  | d :: ds =>
    match _h : readNumber s.bias base 1 s.place (d :: ds) with
    | none => none
    | some (target, rest) =>
      match s.insert? target with
      | none => none
      | some s => decodeFrom s rest
termination_by digits.length
decreasing_by
  have := length_lt_of_readNumber _h
  simpa using this

/-- What is in front of the last hyphen, and what is behind it. A hyphen that has nothing in front
of it separates nothing. -/
def cutAtHyphen (cs : List Char) : List Char × List Char :=
  let behind := (cs.reverse.takeWhile (· ≠ '-')).reverse
  let before := cs.take (cs.length - behind.length - 1)
  if before.isEmpty then ([], cs) else (before, behind)

/-- The label that an ASCII text without capitals stands for. -/
def decode? (cs : List Char) : Option (List Char) :=
  let (label, digits) := cutAtHyphen cs
  decodeFrom { label } digits

end Invigilation.Http.Domain.Punycode
