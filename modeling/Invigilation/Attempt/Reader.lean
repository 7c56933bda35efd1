import Invigilation.Attempt.Basic
import Invigilation.Json.Reader.Skip
import Invigilation.Json.Reader.Typed

/-!
# Reading an attempt

An attempt is read from an object, whose members may stand in any order and may be missing; the
values of unknown members are skipped, and a known member may not occur twice. It is also read from
a list of the field values in the order of `Field.all`, of which a tail may be missing.
-/

namespace Invigilation.Attempt

open Text (Bytes)
open Json (Fault Reader Cause)

/-- The fields of an attempt. -/
inductive Field where
  | id
  | status
  | inTimedExam
  | takingAsProctored
  | secondsRemaining
  | displayName
  | urlPath
  | accessibilityText
  deriving DecidableEq, Repr

namespace Field

/-- The fields in the order of the list form. -/
def all : List Field :=
  [id, status, inTimedExam, takingAsProctored, secondsRemaining, displayName, urlPath,
    accessibilityText]

/-- The key of a field in the object form. -/
def key : Field → String
  | id => "attempt_id"
  | status => "attempt_status"
  | inTimedExam => "in_timed_exam"
  | takingAsProctored => "taking_as_proctored"
  | secondsRemaining => "time_remaining_seconds"
  | displayName => "exam_display_name"
  | urlPath => "exam_url_path"
  | accessibilityText => "accessibility_time_string"

/-- The field with a key. -/
def ofKey? (key : String) : Option Field :=
  all.find? (·.key = key)

/-- Reads the value of a field into an attempt. -/
def read (a : Attempt) : Field → Reader Attempt
  | id, bs => (Json.readOptional Json.readUnsigned bs).map fun r => ({ a with id := r.1 }, r.2)
  | status, bs => (Json.readOptional Json.readText bs).map fun r => ({ a with status := r.1 }, r.2)
  | inTimedExam, bs => (Json.readBool bs).map fun r => ({ a with inTimedExam := r.1 }, r.2)
  | takingAsProctored, bs =>
    (Json.readBool bs).map fun r => ({ a with takingAsProctored := r.1 }, r.2)
  | secondsRemaining, bs =>
    (Json.readSigned bs).map fun r => ({ a with secondsRemaining := r.1 }, r.2)
  | displayName, bs =>
    (Json.readOptional Json.readText bs).map fun r => ({ a with displayName := r.1 }, r.2)
  | urlPath, bs =>
    (Json.readOptional Json.readText bs).map fun r => ({ a with urlPath := r.1 }, r.2)
  | accessibilityText, bs =>
    (Json.readOptional Json.readText bs).map fun r => ({ a with accessibilityText := r.1 }, r.2)

end Field

/-- The fault of a key that occurs twice, read up to `rest`: blanks after it, and the end of the
object if it follows at once, are read before the fault is reported. -/
def repeatedKey (f : Field) (rest : Bytes) : Fault :=
  let rest := match Json.skipSpaces rest with
    | Json.Byte.closeBrace :: more => more
    | more => more
  .before (.repeatedField f.key) rest

/-- Reads the members of the object form into an attempt, in at most `fuel` steps; `seen` holds the
fields that were read before. -/
def readMembers (seen : List Field) (a : Attempt) (first : Bool) : Nat → Reader Attempt
  | 0, _ => .error (.before .endInObject [])
  | fuel + 1, bs => do
    match ← Json.nextMember first bs with
    | .finished rest => return (a, rest)
    | .item bytes =>
      let (key, rest) ← Json.readString bytes
      match Field.ofKey? key with
      | none =>
        let (_, rest) ← Json.readColon rest
        let rest ← Json.skipValue rest
        readMembers seen a false fuel rest
      | some f =>
        if f ∈ seen then .error (repeatedKey f rest)
        else
          let (_, rest) ← Json.readColon rest
          let (a, rest) ← f.read a rest
          readMembers (f :: seen) a false fuel rest

/-- Reads the end of the list form, after its last field. -/
def readListEnd (bs : Bytes) : Except Fault Bytes :=
  match Json.skipSpaces bs with
  | [] => .error (.peek .endInList [])
  | b :: rest =>
    if b = Json.Byte.closeBracket then .ok rest
    else if b = Json.Byte.comma then
      match Json.skipSpaces rest with
      | Json.Byte.closeBracket :: more =>
        .error (.peek .trailingComma (Json.Byte.closeBracket :: more))
      | more => .error (.peek .trailingCharacters more)
    else .error (.peek .trailingCharacters (b :: rest))

/-- Reads the values of the list form into an attempt, one for each of `fields`. -/
def readElements (a : Attempt) (first : Bool) : List Field → Reader Attempt
  | [], bs => (readListEnd bs).map fun rest => (a, rest)
  | f :: fields, bs => do
    match ← Json.nextItem first bs with
    | .finished rest => return (a, rest)
    | .item bytes =>
      let (a, rest) ← f.read a bytes
      readElements a false fields rest

/-- The name of the record in faults. -/
def recordName : String := "ActiveExamAttempt"

/-- Reads an attempt in either form. -/
def read : Reader Attempt := fun bs =>
  match Json.skipSpaces bs with
  | [] => .error (.peek .endInValue [])
  | b :: rest =>
    if b = Json.Byte.openBracket then readElements {} true Field.all rest
    else if b = Json.Byte.openBrace then readMembers [] {} true (rest.length + 1) rest
    else .error (Json.wrongType (.record recordName) (b :: rest))

/-- The attempt in a text. -/
def parse (text : Bytes) : Except Fault Attempt := do
  let (a, rest) ← read text
  Json.readEnd rest
  return a

end Invigilation.Attempt
