import Mathlib.Data.List.TakeWhile
import Invigilation.Text.Blank
import Invigilation.Proofs.Text.Utf8.Decoding

/-!
# Texts in blanks

Blanks around a text are what trimming takes away, so a text in blanks is trimmed to what the text
itself is trimmed to. A text that consists of blanks has no content.

- `exists_dropTrailing`, `dropTrailing_eq_self`, `dropTrailing_append_of_ne_nil`: what is dropped at
  the end of a text, and when nothing is.
- `IsBlank`: a text that consists of blanks.
- `content?_of_isBlank`, `content?_of_not_isBlank`: the content of a text.
- `trim_eq`, `trim_trim`: texts that are trimmed already.
- `pad`: a text in others; `ofBytes?_pad`: the same for bytes.
- `exists_pad_trim`: every text is its trimmed form in blanks.
- `trim_pad`: **blanks around a text do not show once it is trimmed**.
-/

namespace Invigilation.Text

/-! ## Ends that are dropped -/

section

variable {p : Char → Bool} {cs : List Char}

theorem dropTrailing_eq_nil_iff : dropTrailing p cs = [] ↔ ∀ c ∈ cs, p c = true := by
  rw [dropTrailing, List.reverse_eq_nil_iff, List.dropWhile_eq_nil_iff]
  exact forall_congr' fun c => by rw [List.mem_reverse]

/-- What is dropped stands at the end and consists of what may be dropped. -/
theorem exists_dropTrailing (p : Char → Bool) (cs : List Char) :
    ∃ dropped, cs = dropTrailing p cs ++ dropped ∧ ∀ c ∈ dropped, p c = true := by
  refine ⟨(cs.reverse.takeWhile p).reverse, ?_, fun c hc => ?_⟩
  · rw [dropTrailing, ← List.reverse_append, List.takeWhile_append_dropWhile, List.reverse_reverse]
  · exact List.mem_takeWhile_imp (List.mem_reverse.mp hc)

/-- What is left without the blanks at the end is the beginning. -/
theorem dropTrailing_isPrefix (p : Char → Bool) (cs : List Char) : dropTrailing p cs <+: cs := by
  obtain ⟨dropped, heq, -⟩ := exists_dropTrailing p cs
  exact ⟨dropped, heq.symm⟩

theorem head?_dropWhile (p : Char → Bool) (cs : List Char) :
    ∀ c ∈ (cs.dropWhile p).head?, p c = false := by
  intro c hc
  have hhead := List.head?_dropWhile_not p cs
  rw [Option.mem_def.mp hc] at hhead
  exact hhead

theorem getLast?_dropTrailing (p : Char → Bool) (cs : List Char) :
    ∀ c ∈ (dropTrailing p cs).getLast?, p c = false := by
  rw [dropTrailing, List.getLast?_reverse]
  exact head?_dropWhile p cs.reverse

theorem dropWhile_eq_self (h : ∀ c ∈ cs.head?, p c = false) : cs.dropWhile p = cs := by
  cases cs with
  | nil => rfl
  | cons c rest => exact List.dropWhile_cons_of_neg (by simp [h c rfl])

theorem dropTrailing_eq_self (h : ∀ c ∈ cs.getLast?, p c = false) : dropTrailing p cs = cs := by
  rw [dropTrailing, dropWhile_eq_self (by rwa [List.head?_reverse]), List.reverse_reverse]

/-- What may be dropped at the end does not show once the end is dropped. -/
theorem dropTrailing_append {more : List Char} (h : ∀ c ∈ more, p c = true) (cs : List Char) :
    dropTrailing p (cs ++ more) = dropTrailing p cs := by
  rw [dropTrailing, List.reverse_append, List.dropWhile_append_of_pos, dropTrailing]
  exact fun c hc => h c (List.mem_reverse.mp hc)

/-- Nothing is dropped in front of what may not be dropped. -/
theorem dropTrailing_append_of_ne_nil {more : List Char} (h : dropTrailing p more ≠ [])
    (cs : List Char) : dropTrailing p (cs ++ more) = cs ++ dropTrailing p more := by
  have hleft : ¬ (more.reverse.dropWhile p).isEmpty = true := by
    rw [List.isEmpty_iff]
    exact fun hnil => h (by rw [dropTrailing, hnil, List.reverse_nil])
  rw [dropTrailing, List.reverse_append, List.dropWhile_append, if_neg hleft, List.reverse_append,
    List.reverse_reverse, dropTrailing]

end

/-! ## Blank texts -/

/-- Every character of a text is a blank. -/
def IsBlank (s : String) : Prop :=
  ∀ c ∈ s.toList, isBlank c = true

instance (s : String) : Decidable (IsBlank s) :=
  List.decidableBAll (fun c => isBlank c = true) s.toList

theorem trimChars_eq_nil_iff {cs : List Char} :
    trimChars cs = [] ↔ ∀ c ∈ cs, isBlank c = true := by
  rw [trimChars, dropTrailing_eq_nil_iff]
  constructor
  · intro h c hc
    rw [← List.takeWhile_append_dropWhile (p := isBlank) (l := cs), List.mem_append] at hc
    rcases hc with hc | hc
    · exact List.mem_takeWhile_imp hc
    · exact h c hc
  · exact fun h c hc => h c ((List.dropWhile_suffix isBlank).subset hc)

theorem isEmpty_trim_iff {s : String} : (trim s).isEmpty = true ↔ IsBlank s := by
  rw [trim, String.isEmpty_iff, String.ofList_eq_empty_iff, trimChars_eq_nil_iff, IsBlank]

theorem content?_of_isBlank {s : String} (h : IsBlank s) : content? s = none :=
  if_pos (isEmpty_trim_iff.mpr h)

theorem content?_of_not_isBlank {s : String} (h : ¬ IsBlank s) : content? s = some (trim s) :=
  if_neg (mt isEmpty_trim_iff.mp h)

theorem content?_of_trim {s s' : String} (h : trim s' = trim s) : content? s' = content? s := by
  rw [content?, h, content?]

/-! ## Texts that are trimmed already -/

theorem getLast?_trimChars (cs : List Char) :
    ∀ c ∈ (trimChars cs).getLast?, isBlank c = false :=
  getLast?_dropTrailing isBlank _

theorem head?_trimChars (cs : List Char) : ∀ c ∈ (trimChars cs).head?, isBlank c = false := by
  intro c hc
  obtain ⟨ending, heq⟩ := dropTrailing_isPrefix isBlank (cs.dropWhile isBlank)
  refine head?_dropWhile isBlank cs c ?_
  rw [← heq]
  exact List.mem_head?_append_of_mem_head? hc

/-- A text that neither starts nor ends with a blank is trimmed already. -/
theorem trimChars_eq {cs : List Char} (hfirst : ∀ c ∈ cs.head?, isBlank c = false)
    (hlast : ∀ c ∈ cs.getLast?, isBlank c = false) : trimChars cs = cs := by
  rw [trimChars, dropWhile_eq_self hfirst, dropTrailing_eq_self hlast]

theorem trim_eq {s : String} (hfirst : ∀ c ∈ s.toList.head?, isBlank c = false)
    (hlast : ∀ c ∈ s.toList.getLast?, isBlank c = false) : trim s = s := by
  rw [trim, trimChars_eq hfirst hlast, String.ofList_toList]

theorem trimChars_trimChars (cs : List Char) : trimChars (trimChars cs) = trimChars cs :=
  trimChars_eq (head?_trimChars cs) (getLast?_trimChars cs)

/-- A trimmed text is trimmed already. -/
theorem trim_trim (s : String) : trim (trim s) = trim s := by
  rw [trim, trim, String.toList_ofList, trimChars_trimChars]

theorem content?_bind (s : String) : (content? s).bind content? = content? s := by
  unfold content?
  dsimp only
  by_cases h : (trim s).isEmpty = true
  · rw [if_pos h]
    rfl
  · rw [if_neg h, Option.bind_some, trim_trim, if_neg h]

/-! ## Texts in others -/

/-- A text with others before and after it. -/
def pad (before after s : String) : String :=
  before ++ s ++ after

theorem toList_pad (before after s : String) :
    (pad before after s).toList = before.toList ++ (s.toList ++ after.toList) := by
  rw [pad, String.toList_append, String.toList_append, List.append_assoc]

theorem toBytes_pad (before after s : String) :
    toBytes (pad before after s) = toBytes before ++ (toBytes s ++ toBytes after) := by
  rw [toBytes, toList_pad, Utf8.encode, List.flatMap_append, List.flatMap_append]
  rfl

/-- Texts around bytes that are no text make no text either. -/
theorem ofBytes?_pad (before after : String) (bs : Bytes) :
    ofBytes? (toBytes before ++ (bs ++ toBytes after)) = (ofBytes? bs).map (pad before after) := by
  rw [ofBytes?, toBytes, toBytes, Utf8.decode?_encode_append, Utf8.decode?_append_encode, ofBytes?]
  cases Utf8.decode? bs with
  | none => rfl
  | some cs =>
    refine congrArg some ?_
    rw [← String.toList_inj, toList_pad]
    simp only [String.toList_ofList]

/-! ## Blanks around texts -/

/-- What trimming takes away are blanks around the text that is left. -/
theorem exists_pad_trim (s : String) :
    ∃ before after, IsBlank before ∧ IsBlank after ∧ s = pad before after (trim s) := by
  obtain ⟨back, hback, hblank⟩ := exists_dropTrailing isBlank (s.toList.dropWhile isBlank)
  refine ⟨String.ofList (s.toList.takeWhile isBlank), String.ofList back, ?_, ?_, ?_⟩
  · intro c hc
    rw [String.toList_ofList] at hc
    exact List.mem_takeWhile_imp hc
  · intro c hc
    rw [String.toList_ofList] at hc
    exact hblank c hc
  · rw [← String.toList_inj, toList_pad, trim, String.toList_ofList, String.toList_ofList,
      String.toList_ofList, trimChars, ← hback, List.takeWhile_append_dropWhile]

theorem trimChars_append {front back : List Char} (hfront : ∀ c ∈ front, isBlank c = true)
    (hback : ∀ c ∈ back, isBlank c = true) (cs : List Char) :
    trimChars (front ++ (cs ++ back)) = trimChars cs := by
  rw [trimChars, List.dropWhile_append_of_pos hfront, trimChars]
  by_cases hcs : cs.dropWhile isBlank = []
  · -- then nothing is left of either
    have hblank := List.dropWhile_eq_nil_iff.mp hcs
    rw [List.dropWhile_append_of_pos hblank, List.dropWhile_eq_nil_iff.mpr hback, hcs]
  · rw [List.dropWhile_append, if_neg (by simpa using hcs), dropTrailing_append hback]

variable {before after : String} (hbefore : IsBlank before) (hafter : IsBlank after)
include hbefore hafter

/-- **Blanks around a text do not show once it is trimmed.** -/
theorem trim_pad (s : String) : trim (pad before after s) = trim s := by
  rw [trim, toList_pad, trimChars_append hbefore hafter, trim]

theorem isBlank_pad_iff {s : String} : IsBlank (pad before after s) ↔ IsBlank s := by
  rw [← isEmpty_trim_iff, trim_pad hbefore hafter, isEmpty_trim_iff]

end Invigilation.Text
