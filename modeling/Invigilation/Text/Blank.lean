/-!
# White space around text

Settings, URLs, entry points and message lines are read with the white space at both ends removed.
White space is the Unicode property White_Space, twenty-five characters; the controls U+001C to
U+001F, the zero width space and the byte order mark do not have it.

- `isBlank`: membership in the property.
- `trim`: a text without the blanks at its two ends.
- `content?`: the trimmed text, if anything is left of it.
-/

namespace Invigilation.Text

/-- The characters that have the Unicode property White_Space. -/
def isBlank (c : Char) : Bool :=
  let n := c.toNat
  (0x09 ≤ n && n ≤ 0x0D) || n == 0x20 || n == 0x85 || n == 0xA0 || n == 0x1680 ||
  (0x2000 ≤ n && n ≤ 0x200A) || n == 0x2028 || n == 0x2029 || n == 0x202F || n == 0x205F ||
  n == 0x3000

/-- A list of characters without its trailing elements that satisfy `p`. -/
def dropTrailing (p : Char → Bool) (cs : List Char) : List Char :=
  (cs.reverse.dropWhile p).reverse

/-- A list of characters without the blanks at its two ends. -/
def trimChars (cs : List Char) : List Char :=
  dropTrailing isBlank (cs.dropWhile isBlank)

/-- A text without the blanks at its two ends; blanks inside stay. -/
def trim (s : String) : String :=
  String.ofList (trimChars s.toList)

/-- The trimmed text, or nothing when the text is blank. -/
def content? (s : String) : Option String :=
  let t := trim s
  if t.isEmpty then none else some t

/-- The text in lower case, for the letters A to Z only. -/
def lowerAscii (s : String) : String :=
  String.ofList (s.toList.map Char.toLower)

end Invigilation.Text
