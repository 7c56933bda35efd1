import Invigilation.Message.Lines
import Invigilation.Proofs.Json.Printable
import Invigilation.Proofs.Text.Blank

/-!
# Messages there and back

A message that is written is read as itself, from the line that it makes. A configuration must have
plain options for that, and they must not be nested too deep: the message is one container around
them, so that the deepest options which are readable on their own are not readable in a message.

- `HostMessage.IsPlain`, `HostMessage.Portable`: the messages that are printed faithfully, and those
  that can also be read.
- `Json.trim_render`: the text of an object has no blanks at its ends.
- `HostMessage.message?_wire`, `WorkerMessage.message?_wire`: **reading undoes writing**.
-/

namespace Invigilation

open Text (Bytes)

/-- The text of an object starts and ends with a brace. -/
theorem Json.trim_render (members : List (String × Json)) :
    Text.trim (Json.obj members).render = (Json.obj members).render := by
  refine Text.trim_eq ?_ ?_ <;> rw [render, String.toList_ofList, renderChars]
  · rintro c hc
    obtain rfl : '\x7b' = c := Option.some_inj.mp hc
    decide
  · rw [List.getLast?_append]
    rintro c hc
    obtain rfl : '\x7d' = c := Option.some_inj.mp hc
    decide

/-- A message is what its text stands for, unless its containers are nested too deep. -/
theorem Lines.message?_plain {α : Type} {decode : Bytes → Option α} {ofJson? : Json → Option α}
    (hdecode : ∀ text, decode text = (Json.parse text).toOption.bind ofJson?)
    {members : List (String × Json)} (h : (Json.obj members).Plain) :
    Lines.message? decode (Json.obj members).render =
      if (Json.obj members).depth ≤ Json.maxDepth then ofJson? (.obj members) else none := by
  rw [message?, Json.trim_render, hdecode, Json.toOption_parse h]
  split <;> rfl

/-! ## Messages of the host -/

namespace HostMessage

/-- The options, if there are any, are plain. -/
def IsPlain : HostMessage → Prop
  | .config options => options.Plain
  | .prompt _ | .unknown => True

/-- How many containers are nested in the options. -/
def optionsDepth : HostMessage → Nat
  | .config options => options.depth
  | .prompt _ | .unknown => 0

/-- A message that can be read once it is written: its options are plain, and at most 126 containers
are nested in them. -/
def Portable (m : HostMessage) : Prop :=
  m.IsPlain ∧ m.optionsDepth ≤ 126

theorem decode?_eq (text : Bytes) : decode? text = (Json.parse text).toOption.bind ofJson? := by
  unfold decode?
  cases Json.parse text <;> rfl

theorem plain_toJson {m : HostMessage} (h : m.IsPlain) : m.toJson.Plain := by
  cases m with
  | config options =>
    exact ⟨⟨trivial, rfl, by simp [Json.Distinct]⟩, ⟨trivial, trivial, trivial⟩, h, trivial⟩
  | prompt | unknown =>
    exact ⟨⟨trivial, rfl, List.nodup_singleton _⟩, ⟨trivial, trivial, trivial⟩, trivial⟩

theorem depth_toJson (m : HostMessage) : m.toJson.depth = m.optionsDepth + 1 := by
  cases m <;> simp [toJson, Json.depth, Json.depthMembers, optionsDepth]

theorem ofJson?_toJson {m : HostMessage} (h : m.IsPlain) : ofJson? m.toJson = some m := by
  cases m with
  | config options =>
    have hplain : options.Plain := h
    have hread : ofJson? (toJson (.config options)) = configured? options := rfl
    rw [hread, configured?, hplain.opened?, Option.map_some, hplain.settled]
  | prompt p => cases p <;> rfl
  | unknown => rfl

/-- **Reading undoes writing** for every message whose options are not nested too deep, and a
message whose options are is not read at all. -/
theorem message?_wire {m : HostMessage} (h : m.IsPlain) :
    Lines.message? decode? m.wire = if m.optionsDepth ≤ 126 then some m else none := by
  have hread : Lines.message? decode? m.wire =
      if m.toJson.depth ≤ Json.maxDepth then ofJson? m.toJson else none := by
    have hplain := plain_toJson h
    cases m <;> exact Lines.message?_plain decode?_eq hplain
  have hdepth : m.toJson.depth ≤ Json.maxDepth ↔ m.optionsDepth ≤ 126 := by
    rw [depth_toJson]
    exact Nat.succ_le_succ_iff
  rw [hread, ofJson?_toJson h]
  simp only [hdepth]

end HostMessage

/-! ## Messages of a worker -/

namespace WorkerMessage

theorem decode?_eq (text : Bytes) : decode? text = (Json.parse text).toOption.bind ofJson? := by
  unfold decode?
  cases Json.parse text <;> rfl

theorem plain_toJson (m : WorkerMessage) : m.toJson.Plain :=
  ⟨⟨trivial, rfl, List.nodup_singleton _⟩, ⟨trivial, trivial, trivial⟩, trivial⟩

theorem ofJson?_toJson (m : WorkerMessage) : ofJson? m.toJson = some m := by
  cases m with
  | response p => cases p <;> rfl
  | unknown => rfl

/-- **Reading undoes writing.** -/
theorem message?_wire (m : WorkerMessage) : Lines.message? decode? m.wire = some m := by
  have hdepth : m.toJson.depth ≤ Json.maxDepth := show 1 ≤ 127 by decide
  exact (Lines.message?_plain decode?_eq (plain_toJson m)).trans
    ((if_pos hdepth).trans (ofJson?_toJson m))

end WorkerMessage

/-! ## Lines -/

/-- The line of a printed value has its end for its only line end. -/
theorem Lines.newline_notMem_render (v : Json) :
    Lines.newline ∉ Text.toBytes v.render := by
  intro h
  rw [Text.toBytes, Json.render, String.toList_ofList] at h
  exact absurd ((Json.printable_renderChars v).bytes _ h) (by decide)

end Invigilation
