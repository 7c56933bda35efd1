import Mathlib.Data.List.TakeWhile
import Invigilation.Message.Lines
import Invigilation.Proofs.Text.Utf8

/-!
# Lines of a byte stream

A stream is cut at its line ends, wherever the reads of it end. Of its lines those count that spell
a message, up to the first that is not UTF-8.

- `split_spec`, `split_unique`: the lines of a byte sequence and what follows them.
- `split_append`: **lines do not depend on how the bytes are cut**.
- `decoding`, `heard`: what a line means, and what is heard from lines.
- `read_eq`: what is read from lines is what is heard from them.
- `split_write`: the lines of messages.
- `spelled`, `heard_linesOf`: from a text, what its lines spell is heard.
-/

namespace Invigilation.Lines

open Text (Bytes)

/-! ## Cutting bytes into lines -/

theorem split_cons (b : UInt8) (rest : Bytes) :
    split (b :: rest) =
      if b = newline then ([] :: (split rest).1, (split rest).2)
      else
        match (split rest).1 with
        | [] => ([], b :: (split rest).2)
        | l :: more => ((b :: l) :: more, (split rest).2) := rfl

/-- Bytes without a line end are all of an unfinished line. -/
theorem split_of_notMem {l : Bytes} (h : newline ∉ l) : split l = ([], l) := by
  induction l with
  | nil => rfl
  | cons b rest ih =>
    rw [List.mem_cons, not_or] at h
    rw [split_cons, ih h.2, if_neg (Ne.symm h.1)]

/-- A line and its end come first. -/
theorem split_line {l : Bytes} (h : newline ∉ l) (rest : Bytes) :
    split (l ++ newline :: rest) = (l :: (split rest).1, (split rest).2) := by
  induction l with
  | nil =>
    rw [List.nil_append, split_cons, if_pos rfl]
  | cons b l ih =>
    rw [List.mem_cons, not_or] at h
    rw [List.cons_append, split_cons, ih h.2, if_neg (Ne.symm h.1)]

/-- The lines of a byte sequence with their ends, and what follows them, are the sequence, and no
other line end is in them. -/
theorem split_spec (bytes : Bytes) :
    (split bytes).1.flatMap (· ++ [newline]) ++ (split bytes).2 = bytes ∧
      (∀ l ∈ (split bytes).1, newline ∉ l) ∧ newline ∉ (split bytes).2 := by
  induction bytes with
  | nil => exact ⟨rfl, nofun, nofun⟩
  | cons b rest ih =>
    obtain ⟨hbytes, hlines, htail⟩ := ih
    rw [split_cons]
    by_cases hb : b = newline
    · rw [if_pos hb]
      refine ⟨?_, List.forall_mem_cons.mpr ⟨nofun, hlines⟩, htail⟩
      rw [List.flatMap_cons, List.append_assoc, hbytes, hb]
      rfl
    · rw [if_neg hb]
      cases hsplit : (split rest).1 with
      | nil =>
        rw [hsplit] at hbytes
        refine ⟨congrArg (List.cons b) hbytes, nofun, ?_⟩
        rw [List.mem_cons, not_or]
        exact ⟨Ne.symm hb, htail⟩
      | cons l more =>
        rw [hsplit] at hbytes hlines
        refine ⟨congrArg (List.cons b) hbytes, ?_, htail⟩
        obtain ⟨hl, hmore⟩ := List.forall_mem_cons.mp hlines
        refine List.forall_mem_cons.mpr ⟨?_, hmore⟩
        rw [List.mem_cons, not_or]
        exact ⟨Ne.symm hb, hl⟩

/-- No other lines make up the sequence. -/
theorem split_unique {lines : List Bytes} {tail : Bytes} (hlines : ∀ l ∈ lines, newline ∉ l)
    (htail : newline ∉ tail) : split (lines.flatMap (· ++ [newline]) ++ tail) = (lines, tail) := by
  induction lines with
  | nil => exact split_of_notMem htail
  | cons l rest ih =>
    obtain ⟨hl, hrest⟩ := List.forall_mem_cons.mp hlines
    rw [List.flatMap_cons, List.append_assoc, List.append_assoc, List.singleton_append,
      split_line hl, ih hrest]

/-- **Lines do not depend on how the bytes are cut**: what the first bytes leave unfinished is
continued by the others. -/
theorem split_append (bytes more : Bytes) :
    split (bytes ++ more) =
      ((split bytes).1 ++ (split ((split bytes).2 ++ more)).1,
        (split ((split bytes).2 ++ more)).2) := by
  -- both sides make up the same bytes, which only one list of lines does
  obtain ⟨hbytes, hlines, -⟩ := split_spec bytes
  obtain ⟨hmore, hlater, htail⟩ := split_spec ((split bytes).2 ++ more)
  have hall : bytes ++ more = ((split bytes).1 ++ (split ((split bytes).2 ++ more)).1).flatMap
      (· ++ [newline]) ++ (split ((split bytes).2 ++ more)).2 := by
    rw [List.flatMap_append, List.append_assoc, hmore, ← List.append_assoc, hbytes]
  conv_lhs => rw [hall]
  exact split_unique (List.forall_mem_append.mpr ⟨hlines, hlater⟩) htail

/-- The lines of an input; its last line counts without an end once the input is over, unless it is
empty. -/
def linesOf (input : Bytes) (ended : Bool) : List Bytes :=
  (split input).1 ++ if ended && !(split input).2.isEmpty then [(split input).2] else []

theorem linesOf_false (input : Bytes) : linesOf input false = (split input).1 :=
  List.append_nil _

theorem linesOf_true (input : Bytes) :
    linesOf input true =
      linesOf input false ++ if (split input).2.isEmpty then [] else [(split input).2] := by
  rw [linesOf_false, linesOf]
  cases (split input).2.isEmpty <;> rfl

theorem linesOf_append (input bytes : Bytes) :
    linesOf (input ++ bytes) false =
      linesOf input false ++ (split ((split input).2 ++ bytes)).1 := by
  rw [linesOf_false, linesOf_false, split_append]

/-! ## What lines say -/

variable {α : Type} {decode : Bytes → Option α}

/-- Whether a line is UTF-8. -/
def isText (l : Bytes) : Bool :=
  (Text.ofBytes? l).isSome

/-- The message that a line spells, if it is UTF-8 and spells one without the blanks at its ends. -/
def decoding (decode : Bytes → Option α) (l : Bytes) : Option α :=
  (Text.ofBytes? l).bind (message? decode)

/-- What is heard from lines: the messages of those before the first that is not UTF-8. -/
def heard (decode : Bytes → Option α) (lines : List Bytes) : List α :=
  (lines.takeWhile isText).filterMap (decoding decode)

/-- What is read from lines is what is heard from them. -/
theorem read_eq (decode : Bytes → Option α) (lines : List Bytes) :
    read decode lines = (heard decode lines, !lines.all isText) := by
  induction lines with
  | nil => rfl
  | cons l rest ih =>
    rw [read]
    cases htext : Text.ofBytes? l with
    | none =>
      have hl : isText l = false := by simp [isText, htext]
      simp [heard, hl]
    | some text =>
      have hl : isText l = true := by simp [isText, htext]
      have hmessage : decoding decode l = message? decode text := by simp [decoding, htext]
      rw [ih]
      cases hdecode : message? decode text <;>
        simp [heard, hl, hmessage, hdecode]

/-- From lines that are all UTF-8 every message is heard. -/
theorem heard_of_all {lines : List Bytes} (h : lines.all isText = true) :
    heard decode lines = lines.filterMap (decoding decode) := by
  rw [heard, List.takeWhile_eq_self_iff.mpr (List.all_eq_true.mp h)]

/-- Further lines are heard after the first, if these are UTF-8. -/
theorem heard_append {lines : List Bytes} (h : lines.all isText = true) (more : List Bytes) :
    heard decode (lines ++ more) = heard decode lines ++ heard decode more := by
  rw [heard, List.takeWhile_append_of_pos (List.all_eq_true.mp h), List.filterMap_append,
    ← heard_of_all h]
  rfl

/-- Nothing is heard after a line that is not UTF-8. -/
theorem heard_append_of_not {lines : List Bytes} (h : lines.all isText = false)
    (more : List Bytes) : heard decode (lines ++ more) = heard decode lines := by
  have hshort : (lines.takeWhile isText).length ≠ lines.length := by
    intro hlength
    have hself := (List.takeWhile_prefix isText).eq_of_length hlength
    rw [List.takeWhile_eq_self_iff] at hself
    rw [List.all_eq_true.mpr hself] at h
    cases h
  rw [heard, List.takeWhile_append, if_neg hshort, heard]

/-- What was heard stays heard. -/
theorem heard_mono (decode : Bytes → Option α) (lines more : List Bytes) :
    heard decode lines <+: heard decode (lines ++ more) := by
  cases h : lines.all isText with
  | true =>
    rw [heard_append h]
    exact List.prefix_append _ _
  | false => rw [heard_append_of_not h]

/-! ## Lines of messages -/

variable {wire : α → String}

/-- The lines of messages are their texts, if these have no line ends. -/
theorem split_write (hwire : ∀ m, newline ∉ Text.toBytes (wire m)) (messages : List α) :
    split (write wire messages) = (messages.map fun m => Text.toBytes (wire m), []) := by
  have hwrite : write wire messages =
      (messages.map fun m => Text.toBytes (wire m)).flatMap (· ++ [newline]) ++ [] := by
    rw [List.append_nil, List.flatMap_map]
    rfl
  rw [hwrite]
  refine split_unique ?_ nofun
  simpa using fun m _ => hwire m

/-- The line of a text spells what the text does. -/
theorem decoding_toBytes (text : String) :
    decoding decode (Text.toBytes text) = message? decode text := by
  rw [decoding, Text.ofBytes?_toBytes, Option.bind_some]

theorem isText_toBytes (text : String) : isText (Text.toBytes text) = true := by
  rw [isText, Text.ofBytes?_toBytes]
  rfl

/-! ## Lines of a text -/

/-- The pieces between the line ends of a byte sequence are its lines and what follows them. -/
theorem splitOn_newline (bytes : Bytes) :
    bytes.splitOn newline = (split bytes).1 ++ [(split bytes).2] := by
  induction bytes with
  | nil => rfl
  | cons b rest ih =>
    rw [List.splitOn_cons_eq_if_modifyHead, ih, split_cons]
    by_cases hb : b = newline
    · rw [if_pos (by simpa using hb), if_pos hb]
      rfl
    · rw [if_neg (by simpa using hb), if_neg hb]
      cases (split rest).1 <;> rfl

/-- Bytes without a line end come before all of the first piece. -/
theorem splitOn_append {l : Bytes} (h : newline ∉ l) (rest : Bytes) :
    (l ++ rest).splitOn newline = (rest.splitOn newline).modifyHead (l ++ ·) := by
  induction l with
  | nil => exact (congrFun List.modifyHead_id _).symm
  | cons b l ih =>
    rw [List.mem_cons, not_or] at h
    rw [List.cons_append, List.splitOn_cons_eq_if_modifyHead, if_neg (by simpa using Ne.symm h.1),
      ih h.2]
    cases rest.splitOn newline <;> rfl

/-- No character but the line end has its byte. -/
theorem newline_notMem_encodeChar {c : Char} (h : c ≠ '\n') :
    newline ∉ String.utf8EncodeChar c := by
  intro hmem
  by_cases hc : c.toNat < 0x80
  · rw [Text.Utf8.encodeChar_of_lt hc, List.mem_singleton] at hmem
    have hcode : newline.toNat = c.toNat := by
      rw [hmem, Text.Utf8.toNat_byte (by omega)]
    exact h (Char.toNat_inj.mp hcode.symm)
  · have hle : 0x80 ≤ newline.toNat := Text.Utf8.le_of_mem_encodeChar (by omega) hmem
    exact absurd hle (by decide)

/-- The lines of a text are those of its bytes. -/
theorem splitOn_encode (cs : List Char) :
    (Text.Utf8.encode cs).splitOn newline = (cs.splitOn '\n').map Text.Utf8.encode := by
  induction cs with
  | nil => rfl
  | cons c rest ih =>
    show (String.utf8EncodeChar c ++ Text.Utf8.encode rest).splitOn newline = _
    rw [List.splitOn_cons_eq_if_modifyHead]
    by_cases hc : c = '\n'
    · rw [if_pos (by simpa using hc), List.map_cons, ← ih, hc]
      exact List.splitOn_cons_eq_if_modifyHead ..
    · rw [if_neg (by simpa using hc), splitOn_append (newline_notMem_encodeChar hc), ih]
      cases rest.splitOn '\n' <;> rfl

/-- The messages that the lines of a text spell, without the lines that spell none. -/
def spelled (decode : Bytes → Option α) (text : String) : List α :=
  (text.toList.splitOn '\n').filterMap fun l => message? decode (String.ofList l)

/-- The last piece is a line of an input that is over, unless it is empty. -/
theorem splitOn_eq_linesOf (input : Bytes) :
    input.splitOn newline =
      linesOf input true ++ if (split input).2.isEmpty then [[]] else [] := by
  rw [splitOn_newline, linesOf_true, linesOf_false]
  cases (split input).2 <;> simp

/-- The lines of a text are texts. -/
theorem isText_linesOf (text : String) :
    (linesOf (Text.toBytes text) true).all isText = true := by
  rw [List.all_eq_true]
  intro l hl
  have hpiece : l ∈ (Text.toBytes text).splitOn newline := by
    rw [splitOn_eq_linesOf]
    exact List.mem_append_left _ hl
  rw [Text.toBytes, splitOn_encode] at hpiece
  obtain ⟨cs, -, rfl⟩ := List.mem_map.mp hpiece
  have hbytes : Text.toBytes (String.ofList cs) = Text.Utf8.encode cs := by
    rw [Text.toBytes, String.toList_ofList]
  rw [← hbytes]
  exact isText_toBytes _

/-- So are the lines that are complete in its first bytes. -/
theorem isText_linesOf_of_append {input rest : Bytes} {text : String}
    (h : input ++ rest = Text.toBytes text) : (linesOf input false).all isText = true := by
  have hall := isText_linesOf text
  rw [linesOf_true, ← h, linesOf_append, List.all_append, List.all_append, Bool.and_eq_true,
    Bool.and_eq_true] at hall
  exact hall.1.1

/-- What is heard from a text is what its lines spell, if an empty line spells nothing. -/
theorem heard_linesOf (hempty : decoding decode [] = none) (text : String) :
    heard decode (linesOf (Text.toBytes text) true) = spelled decode text := by
  have hspelled : spelled decode text =
      ((Text.toBytes text).splitOn newline).filterMap (decoding decode) := by
    rw [Text.toBytes, splitOn_encode, List.filterMap_map]
    refine congrFun (congrArg List.filterMap (funext fun cs => ?_)) _
    rw [Function.comp, ← decoding_toBytes, Text.toBytes, String.toList_ofList]
  rw [hspelled, splitOn_eq_linesOf, List.filterMap_append, heard_of_all (isText_linesOf text)]
  split
  · rw [List.filterMap_cons_none hempty]
    exact (List.append_nil _).symm
  · exact (List.append_nil _).symm

end Invigilation.Lines
