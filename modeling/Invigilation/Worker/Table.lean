import Invigilation.Json.Basic
import Invigilation.Worker.Handler

/-!
# Backends described in JSON

The hooks of such a backend are described by the members `start`, `end` and `ping` of an object. A
handler takes each description from its options if they have the member, else from the backend's own
table. A description is `"ok"` or `"fail"` for a hook that completes at once, a number for one that
takes that many milliseconds, or an object with the member `fail_after` for one that fails after so
many; all else describes no hook.
-/

namespace Invigilation

namespace Hook

/-- The hook of a description. -/
def ofDescription? (description : Json) : Option Hook :=
  match description with
  | .str "ok" => some {}
  | .str "fail" => some { succeeds := false }
  | .obj _ =>
    ((description.get? "fail_after").bind Json.toUnsigned?).map fun delay =>
      { delay, succeeds := false }
  | _ => description.toUnsigned?.map fun delay => { delay }

/-- The member that describes the hook of a prompt. -/
def key : Prompt → String
  | .start => "start"
  | .finish => "end"
  | .ping => "ping"

/-- The factory of a backend with a table. -/
def factory (table : Json) : Factory Hook := fun options p =>
  match options.get? (key p), table.get? (key p) with
  | some description, _ | none, some description => ofDescription? description
  | none, none => none

end Hook

end Invigilation
