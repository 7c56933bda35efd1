import Invigilation.Proofs.Json.Strings
import Invigilation.Json.Reader.Envelope

/-!
# The spellings of JSON

A JSON text is a spelling of a value, with blanks around it. The same value has many spellings:
blanks stand between the tokens, characters of a string are written as they are or escaped, and a
number with or without a fraction and an exponent. A spelling may also have no value. It follows the
grammar, but a surrogate in a string is not paired, or a number is too large.

- `Piece`, `Numeral`, `Spelling`: the grammar of strings, numbers and values.
- `Piece.text`, `Numeral.text`, `Spelling.text`, `Spaced.text`: the bytes of a spelling.
- `chars?`, `Numeral.value?`, `Spelling.value?`: what it stands for.
- `Spelling.depth`, `Spelling.tokens`: the nesting of its containers; its keys, strings and numbers.
- `Spelling.isSome_value?`: **a spelling has a value when its strings and numbers have**.
-/

namespace Invigilation.Json

open Text (Bytes)

/-! ## Strings -/

/-- A code unit, written in hexadecimal digits. -/
structure CodeUnit where
  first : UInt8
  second : UInt8
  third : UInt8
  fourth : UInt8
  areDigits : ∀ b ∈ [first, second, third, fourth], (Byte.hexValue? b).isSome = true

namespace CodeUnit

/-- The digits. -/
def text (u : CodeUnit) : Bytes :=
  [u.first, u.second, u.third, u.fourth]

/-- The number that they denote. -/
def value (u : CodeUnit) : Nat :=
  u.text.foldl (fun n b => n * 16 + (Byte.hexValue? b).getD 0) 0

end CodeUnit

/-- The characters that can be escaped by one letter, and the letters. -/
def shortEscapes : List (UInt8 × Char) :=
  [(Byte.quote, '"'), (Byte.backslash, '\\'), (Byte.slash, '/'), (Byte.lowerB, '\x08'),
    (Byte.lowerF, '\x0C'), (Byte.lowerN, '\n'), (Byte.lowerR, '\r'), (Byte.lowerT, '\t')]

/-- A piece of a string. -/
inductive Piece where
  /-- A character that stands for itself. -/
  | char (c : Char) (h : ¬ IsEscaped c)
  | short (letter : UInt8) (c : Char) (h : (letter, c) ∈ shortEscapes)
  | unit (u : CodeUnit)

/-- The bytes of a piece. -/
def Piece.text : Piece → Bytes
  | .char c _ => String.utf8EncodeChar c
  | .short letter _ _ => [Byte.backslash, letter]
  | .unit u => Byte.backslash :: Byte.lowerU :: u.text

/-- The character of two code units that are a surrogate pair. -/
def pairedChar (high low : Nat) : Char :=
  .ofNat (0x10000 + (high - 0xD800) * 0x400 + (low - 0xDC00))

/-- The characters of a string, if every surrogate in it is one of a pair. -/
def chars? : List Piece → Option (List Char)
  | [] => some []
  | .char c _ :: rest | .short _ c _ :: rest => (chars? rest).map (c :: ·)
  | .unit u :: rest =>
    if isLowSurrogate u.value then none
    else if isHighSurrogate u.value then
      match rest with
      | .unit low :: rest =>
        if isLowSurrogate low.value then (chars? rest).map (pairedChar u.value low.value :: ·)
        else none
      | _ => none
    else (chars? rest).map (.ofNat u.value :: ·)

/-- The text of a string that consists of some pieces, if it has one. -/
def string? (s : List Piece) : Option String :=
  (chars? s).map String.ofList

/-- The bytes of a string, with its quotes. -/
def quoted (s : List Piece) : Bytes :=
  Byte.quote :: (s.flatMap Piece.text ++ [Byte.quote])

/-! ## Numbers -/

/-- One or more digits. -/
abbrev Digits := { bs : Bytes // bs ≠ [] ∧ ∀ b ∈ bs, Byte.isDigit b = true }

/-- The sign of an exponent. -/
inductive Sign where
  | plus
  | minus
  deriving DecidableEq

/-- The byte of a sign. -/
def Sign.byte : Sign → UInt8
  | .plus => Byte.plus
  | .minus => Byte.minus

/-- An exponent with its letter. -/
structure Exponent where
  letter : UInt8
  isLetter : isExponentLetter letter = true
  sign : Option Sign
  digits : Digits

/-- The bytes of an exponent. -/
def Exponent.text (e : Exponent) : Bytes :=
  e.letter :: (e.sign.toList.map Sign.byte ++ e.digits.1)

/-- A number as it is written. -/
structure Numeral where
  negative : Bool
  integer : Digits
  /-- No other digit follows a zero in front. -/
  unpadded : integer.1.head? = some Byte.zero → integer.1 = [Byte.zero]
  fraction : Option Digits
  exponent : Option Exponent

namespace Numeral

/-- The bytes behind the integer digits. -/
def tail (n : Numeral) : Bytes :=
  (n.fraction.elim [] fun f => Byte.point :: f.1) ++ n.exponent.elim [] Exponent.text

/-- The bytes of a number behind its minus sign. -/
def unsigned (n : Numeral) : Bytes :=
  n.integer.1 ++ n.tail

/-- The bytes of a number. -/
def text (n : Numeral) : Bytes :=
  if n.negative then Byte.minus :: n.unsigned else n.unsigned

/-- The double of a significand and a power of ten, unless it is too large. -/
def double? (negative : Bool) (significand : Nat) (power : Int) : Option Json :=
  (Binary64.scaleTen? significand power).map fun x => .float (.ofMagnitude negative x)

/-- The double of a significand and a power of ten, to which an exponent is added. An exponent that
is out of bounds makes the number zero or too large. -/
def raised? (negative : Bool) (significand : Nat) (power : Int) (e : Exponent) : Option Json :=
  match (readExponentDigits 0 e.digits.1).1 with
  | some n => double? negative significand (if e.sign = some .minus then power - n else power + n)
  | none =>
    if significand ≠ 0 ∧ e.sign ≠ some .minus then none
    else some (.float (.ofMagnitude negative .zero))

/-- The double of a significand and a power of ten, with the exponent that may stand behind them. -/
def scaled? (negative : Bool) (significand : Nat) (power : Int) : Option Exponent → Option Json
  | none => double? negative significand power
  | some e => raised? negative significand power e

/-- The value of a number that has neither fraction nor exponent: an integer, unless it does not fit
in 64 bits or is the negative zero. -/
def whole? (negative : Bool) (significand dropped : Nat) : Option Json :=
  if dropped ≠ 0 then double? negative significand dropped
  else if ¬ negative then some (.int significand)
  else if significand ≠ 0 ∧ significand ≤ signedBound then some (.int (-significand))
  else double? true significand 0

/-- The value of a number, unless it is too large. -/
def value? (n : Numeral) : Option Json :=
  let whole := readDigitRun 0 n.integer.1
  match n.fraction, n.exponent with
  | none, none => whole? n.negative whole.significand whole.dropped
  | none, some e => raised? n.negative whole.significand whole.dropped e
  | some f, e =>
    let run := readDigitRun whole.significand f.1
    scaled? n.negative run.significand (whole.dropped - run.kept) e

end Numeral

/-! ## Values -/

/-- Bytes that separate tokens. -/
abbrev Blanks := { bs : Bytes // ∀ b ∈ bs, Byte.isSpace b = true }

/-- No blanks. -/
def noBlanks : Blanks :=
  ⟨[], List.forall_mem_nil _⟩

/-- A part of a text with the blanks around it. -/
structure Spaced (α : Type) where
  before : Blanks
  inner : α
  after : Blanks

/-- A value as it is written. -/
inductive Spelling where
  | null
  | bool (b : Bool)
  | number (n : Numeral)
  | str (s : List Piece)
  /-- The blanks stand behind the bracket. -/
  | arr (blanks : Blanks) (items : List (Spaced Spelling))
  | obj (blanks : Blanks) (members : List (Spaced (List Piece) × Spaced Spelling))

/-- The items of a list as they are written. -/
abbrev Items := List (Spaced Spelling)

/-- The members of an object as they are written, each with its key. -/
abbrev Members := List (Spaced (List Piece) × Spaced Spelling)

namespace Spelling

mutual

/-- The bytes of a value. -/
def text : Spelling → Bytes
  | .null => Byte.lowerN :: nullTail
  | .bool true => Byte.lowerT :: trueTail
  | .bool false => Byte.lowerF :: falseTail
  | .number n => n.text
  | .str s => quoted s
  | .arr blanks items => Byte.openBracket :: (blanks.1 ++ itemsText true items)
  | .obj blanks members => Byte.openBrace :: (blanks.1 ++ membersText true members)

/-- The bytes of the items of a list and of its end. -/
def itemsText (first : Bool) : Items → Bytes
  | [] => [Byte.closeBracket]
  | ⟨before, v, after⟩ :: rest =>
    (if first then [] else [Byte.comma]) ++ before.1 ++ text v ++ after.1 ++ itemsText false rest

/-- The bytes of the members of an object and of its end. -/
def membersText (first : Bool) : Members → Bytes
  | [] => [Byte.closeBrace]
  | (key, ⟨before, v, after⟩) :: rest =>
    (if first then [] else [Byte.comma]) ++ key.before.1 ++ quoted key.inner ++ key.after.1 ++
      [Byte.colon] ++ before.1 ++ text v ++ after.1 ++ membersText false rest

end

mutual

/-- The number of containers on the longest path into the value. -/
def depth : Spelling → Nat
  | .arr _ items => depthItems items + 1
  | .obj _ members => depthMembers members + 1
  | .null | .bool _ | .number _ | .str _ => 0

def depthItems : Items → Nat
  | [] => 0
  | ⟨_, v, _⟩ :: rest => max (depth v) (depthItems rest)

def depthMembers : Members → Nat
  | [] => 0
  | (_, ⟨_, v, _⟩) :: rest => max (depth v) (depthMembers rest)

end

mutual

/-- What a spelling stands for. -/
def value? : Spelling → Option Json
  | .null => some .null
  | .bool b => some (.bool b)
  | .number n => n.value?
  | .str s => (string? s).map .str
  | .arr _ items => (valueItems? items).map .arr
  | .obj _ members => (valueMembers? members).map .obj

def valueItems? : Items → Option (List Json)
  | [] => some []
  | ⟨_, v, _⟩ :: rest => do
    let v ← value? v
    let rest ← valueItems? rest
    return v :: rest

def valueMembers? : Members → Option (List (String × Json))
  | [] => some []
  | (key, ⟨_, v, _⟩) :: rest => do
    let key ← string? key.inner
    let v ← value? v
    let rest ← valueMembers? rest
    return (key, v) :: rest

end

/-- A part of a text that may have no value. -/
inductive Token where
  | number (n : Numeral)
  | str (s : List Piece)
  | key (s : List Piece)

/-- Whether it has one. -/
def Token.IsSound : Token → Prop
  | .number n => n.value?.isSome = true
  | .str s | .key s => (string? s).isSome = true

mutual

/-- The numbers, strings and keys of a text. -/
def tokens : Spelling → List Token
  | .null | .bool _ => []
  | .number n => [.number n]
  | .str s => [.str s]
  | .arr _ items => tokensItems items
  | .obj _ members => tokensMembers members

def tokensItems : Items → List Token
  | [] => []
  | ⟨_, v, _⟩ :: rest => tokens v ++ tokensItems rest

def tokensMembers : Members → List Token
  | [] => []
  | (key, ⟨_, v, _⟩) :: rest => .key key.inner :: tokens v ++ tokensMembers rest

end

end Spelling

/-- The bytes of a value with the blanks around it. These are the texts of JSON. -/
def Spaced.text (t : Spaced Spelling) : Bytes :=
  t.before.1 ++ (t.inner.text ++ t.after.1)

namespace Spelling

/-- Induction over a spelling and the spellings in it. -/
@[elab_as_elim]
theorem induction {motive : Spelling → Prop} (null : motive .null) (bool : ∀ b, motive (.bool b))
    (number : ∀ n, motive (.number n)) (str : ∀ s, motive (.str s))
    (arr : ∀ blanks items, (∀ i ∈ items, motive i.inner) → motive (.arr blanks items))
    (obj : ∀ blanks members, (∀ m ∈ members, motive m.2.inner) → motive (.obj blanks members))
    (v : Spelling) : motive v :=
  @Spelling.rec motive (fun items => ∀ i ∈ items, motive i.inner)
    (fun members => ∀ m ∈ members, motive m.2.inner) (fun i => motive i.inner)
    (fun m => motive m.2.inner) null bool number str arr obj
    (fun _ h => absurd h List.not_mem_nil)
    (fun _ _ head tail i h => by
      rcases List.mem_cons.mp h with rfl | h
      · exact head
      · exact tail i h)
    (fun _ h => absurd h List.not_mem_nil)
    (fun _ _ head tail m h => by
      rcases List.mem_cons.mp h with rfl | h
      · exact head
      · exact tail m h)
    (fun _ _ _ h => h) (fun _ _ h => h) v

/-! ## Spellings that have a value -/

theorem isSome_valueItems? {items : Items}
    (h : ∀ i ∈ items, (i.inner.value?.isSome = true ↔ ∀ t ∈ i.inner.tokens, t.IsSound)) :
    (valueItems? items).isSome = true ↔ ∀ t ∈ tokensItems items, t.IsSound := by
  induction items with
  | nil => simp [valueItems?, tokensItems]
  | cons i rest ih =>
    obtain ⟨before, v, after⟩ := i
    have hv := h ⟨before, v, after⟩ List.mem_cons_self
    have hrest := ih fun i hi => h i (List.mem_cons_of_mem _ hi)
    rw [tokensItems, List.forall_mem_append, ← hv, ← hrest, valueItems?]
    cases v.value? <;> cases valueItems? rest <;> simp

theorem isSome_valueMembers? {members : Members}
    (h : ∀ m ∈ members, (m.2.inner.value?.isSome = true ↔ ∀ t ∈ m.2.inner.tokens, t.IsSound)) :
    (valueMembers? members).isSome = true ↔ ∀ t ∈ tokensMembers members, t.IsSound := by
  induction members with
  | nil => simp [valueMembers?, tokensMembers]
  | cons m rest ih =>
    obtain ⟨key, before, v, after⟩ := m
    have hv := h (key, ⟨before, v, after⟩) List.mem_cons_self
    have hrest := ih fun m hm => h m (List.mem_cons_of_mem _ hm)
    rw [tokensMembers, List.cons_append, List.forall_mem_cons, List.forall_mem_append, ← hv,
      ← hrest, Token.IsSound, valueMembers?]
    cases string? key.inner <;> cases v.value? <;> cases valueMembers? rest <;> simp

/-- **A spelling has a value when its numbers, strings and keys have.** -/
theorem isSome_value? (v : Spelling) :
    v.value?.isSome = true ↔ ∀ t ∈ v.tokens, t.IsSound := by
  induction v using Spelling.induction with
  | null => simp [value?, tokens]
  | bool b => simp [value?, tokens]
  | number n => simp [value?, tokens, Token.IsSound]
  | str s => simp [value?, tokens, Token.IsSound]
  | arr blanks items ih => rw [value?, Option.isSome_map, tokens, isSome_valueItems? ih]
  | obj blanks members ih => rw [value?, Option.isSome_map, tokens, isSome_valueMembers? ih]

end Spelling

end Invigilation.Json
