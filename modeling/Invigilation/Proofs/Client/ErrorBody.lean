import Invigilation.Client
import Invigilation.Proofs.Text.Blank
import Invigilation.Proofs.Text.Utf8.Pieces

/-!
# The body of an error

An answer that reports no success is shown with its body. Bytes that are no text show as replacement
characters, one for each ill-formed part; blanks around the whole do not show, and of a blank body
only a mark is shown. What is shown once is shown again as it is.

- `Shows`: how a text is shown.
- `Text.ofBytesLossy_eq`, `Text.ofBytesLossy_toBytes`: the text that bytes are read as.
- `shows_errorBody`, `errorBody_toBytes_errorBody`: what is shown of bytes, and what of that again.
- `ClientError.Canonical`, `ClientError.ofAnswer_canonical`: **every answer is shown in a canonical
  form**.
-/

namespace Invigilation

open Text (Bytes IsBlank isBlank)
open Text.Utf8 (Piece Pieces)

/-! ## Bytes as text -/

namespace Text

variable {bs : Bytes} {ps : List Piece}

/-- The text that bytes are read as shows their pieces in order. -/
theorem ofBytesLossy_eq (h : Pieces bs ps) :
    ofBytesLossy bs = String.ofList (ps.map Piece.shown) := by
  rw [ofBytesLossy, Utf8.decodeLossy_of_pieces h]

/-- The bytes of a text are read as that text. -/
theorem ofBytesLossy_toBytes (t : String) : ofBytesLossy (toBytes t) = t := by
  have hshown : (t.toList.map Piece.char).map Piece.shown = t.toList := by
    rw [List.map_map]
    exact List.map_id t.toList
  rw [toBytes, ofBytesLossy_eq (Utf8.pieces_encode t.toList), hshown, String.ofList_toList]

theorem exists_broken_iff (h : Pieces bs ps) :
    (∃ part, .broken part ∈ ps) ↔ ∀ t, bs ≠ toBytes t := by
  rw [h.exists_broken_iff]
  constructor
  · exact fun hbs t => hbs t.toList
  · intro hbs cs hcs
    refine hbs (String.ofList cs) ?_
    rw [hcs, toBytes, String.toList_ofList]

end Text

/-! ## What is shown of a text -/

/-- How a text is shown: without the blanks around it, and as a mark if it is blank. -/
def Shows (t body : String) : Prop :=
  (IsBlank t ∧ body = "<empty>") ∨
    (¬ IsBlank t ∧ body = Text.trim t ∧
      ∃ before after, IsBlank before ∧ IsBlank after ∧ t = Text.pad before after body)

theorem shows_content (t : String) : Shows t ((Text.content? t).getD "<empty>") := by
  by_cases hblank : IsBlank t
  · rw [Text.content?_of_isBlank hblank]
    exact .inl ⟨hblank, rfl⟩
  · rw [Text.content?_of_not_isBlank hblank]
    exact .inr ⟨hblank, rfl, Text.exists_pad_trim t⟩

theorem shows_errorBody (bs : Bytes) : Shows (Text.ofBytesLossy bs) (errorBody bs) :=
  shows_content (Text.ofBytesLossy bs)

variable {t body : String}

theorem Shows.ne_empty (h : Shows t body) : body ≠ "" := by
  obtain ⟨-, rfl⟩ | ⟨hblank, rfl, -⟩ := h
  · decide
  · intro hempty
    exact hblank (Text.isEmpty_trim_iff.mp (String.isEmpty_iff.mpr hempty))

theorem Shows.trim_eq (h : Shows t body) : Text.trim body = body := by
  obtain ⟨-, rfl⟩ | ⟨-, rfl, -⟩ := h
  · decide
  · exact Text.trim_trim t

/-- No blank stands at either end of what is shown. -/
theorem Shows.bare (h : Shows t body) : (∀ c ∈ body.toList.head?, isBlank c = false) ∧
    ∀ c ∈ body.toList.getLast?, isBlank c = false := by
  rw [← h.trim_eq, Text.trim, String.toList_ofList]
  exact ⟨Text.head?_trimChars body.toList, Text.getLast?_trimChars body.toList⟩

/-- What is shown of a text is shown again as it is. -/
theorem Shows.content? (h : Shows t body) : Text.content? body = some body := by
  have hblank : ¬ IsBlank body := by
    rw [← Text.isEmpty_trim_iff, h.trim_eq, String.isEmpty_iff]
    exact h.ne_empty
  rw [Text.content?_of_not_isBlank hblank, h.trim_eq]

theorem errorBody_toBytes (t : String) :
    errorBody (Text.toBytes t) = (Text.content? t).getD "<empty>" := by
  rw [errorBody, Text.ofBytesLossy_toBytes]

theorem errorBody_toBytes_errorBody (bs : Bytes) :
    errorBody (Text.toBytes (errorBody bs)) = errorBody bs := by
  rw [errorBody_toBytes, (shows_errorBody bs).content?, Option.getD_some]

/-! ## Errors -/

namespace ClientError

/-- How the body of an answer that reports no success is shown.
1. There is something to be seen.
2. No blank stands at either end of it.
3. Its own bytes make the same error.
4. The bytes of a text show that text.
5. Any bytes are cut in exactly one way into characters and maximal ill-formed parts, of which there
   are some exactly if the bytes are those of no text. Together the pieces are the bytes. What shows
   is the text of the pieces in order, with one replacement character for each ill-formed part. -/
structure Canonical (status : Nat) (bs : Bytes) (body : String) : Prop where
  nonempty : body ≠ ""
  bare : (∀ c ∈ body.toList.head?, isBlank c = false) ∧
    ∀ c ∈ body.toList.getLast?, isBlank c = false
  fixed : ofAnswer status (Text.toBytes body) = ofAnswer status bs
  text : ∀ t, bs = Text.toBytes t → Shows t body
  pieces : ∃ ps, Pieces bs ps ∧ (∀ qs, Pieces bs qs → qs = ps) ∧
    ps.flatMap Piece.bytes = bs ∧
    ((∃ part, .broken part ∈ ps) ↔ ∀ t, bs ≠ Text.toBytes t) ∧
    Shows (String.ofList (ps.map Piece.shown)) body

/-- **Every answer that reports no success is shown in a canonical form.** -/
theorem ofAnswer_canonical (status : Nat) (bs : Bytes) :
    ∃ body, ofAnswer status bs = .http status body ∧ Canonical status bs body := by
  have hshows := shows_errorBody bs
  refine ⟨errorBody bs, rfl, hshows.ne_empty, hshows.bare, ?_, ?_, ?_⟩
  · rw [ofAnswer, errorBody_toBytes_errorBody, ofAnswer]
  · rintro t rfl
    rwa [Text.ofBytesLossy_toBytes] at hshows
  · obtain ⟨ps, hps, -⟩ := Text.Utf8.exists_pieces bs
    refine ⟨ps, hps, fun qs hqs => hqs.unique hps, hps.flatMap_bytes, Text.exists_broken_iff hps,
      ?_⟩
    rwa [Text.ofBytesLossy_eq hps] at hshows

end ClientError

/-- A character that breaks off shows as one replacement character, and so does each byte that can
start none. -/
example : errorBody [0x20, 0x61, 0xE2, 0x82, 0x62, 0xFF, 0xC0, 0x0A] = "a\uFFFDb\uFFFD\uFFFD" := by
  decide +kernel

end Invigilation
