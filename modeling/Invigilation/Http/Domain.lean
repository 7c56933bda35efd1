import Invigilation.Http.Domain.Label

/-!
# Domains

A domain is a text of labels between dots. Its characters are replaced by their usual forms, the
rest is composed, and then each label has to be well formed.

- `Domain.ofText?`: the domain that a text stands for.
-/

namespace Invigilation.Http

/-- A list cut at each place where `c` stands. -/
def splitAtChar (c : Char) : List Char → List (List Char)
  | [] => [[]]
  | d :: rest =>
    if d = c then [] :: splitAtChar c rest
    else
      match splitAtChar c rest with
      | [] => [[d]]
      | first :: others => (d :: first) :: others

namespace Domain

/-- The characters of ASCII that no domain holds: controls, blanks and those with a meaning of their
own in URLs. -/
def isForbidden (c : Char) : Bool :=
  c.toNat ≤ 0x20 || c.toNat = 0x7F ||
    ['#', '/', ':', '<', '>', '?', '@', '[', '\\', ']', '^', '|', '%'].contains c

/-- Whether the labels of a domain are well formed, by themselves and beside each other. -/
def hasLabels (domain : List Char) : Bool :=
  match (splitAtChar '.' domain).mapM shown? with
  | none => false
  | some labels => !labels.any (·.any isRightToLeft) || labels.all isOneWay

/-- The domain that a text stands for, if it is well formed. Encoded labels stay as they are, and
labels outside ASCII are not encoded. -/
def ofText? (text : List Char) : Option (List Char) :=
  match mapped? text with
  | none => none
  | some cs =>
    let domain := if cs.any isForeign then Text.compose cs else cs
    if !domain.isEmpty && !domain.any isForbidden && hasLabels domain then some domain else none

end Domain

end Invigilation.Http
