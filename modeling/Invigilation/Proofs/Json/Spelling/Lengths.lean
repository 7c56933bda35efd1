import Invigilation.Proofs.Json.Spelling.Limits
import Invigilation.Proofs.Json.Spelling.Soundness

/-!
# Strings are shorter than their texts

No way of writing a character takes fewer bytes than the character itself, and a string stands
between quotes. So a text that is written in a string of another text is shorter than that one.

- `length_encode_le`: the characters of a string.
- `Short`: the strings in a value are shorter than a bound.
- `short_value?`, `short_of_parse`: **the strings in a value are shorter than its text**.
-/

namespace Invigilation.Json

open Text (Bytes)

/-! ## Strings -/

theorem length_encodeChar_short :
    ∀ e ∈ shortEscapes, (String.utf8EncodeChar e.2).length ≤ 2 := by
  decide

/-- The bytes of a text that a string stands for are no more than those of its pieces. -/
theorem length_encode_le {s : List Piece} {cs : List Char} (h : chars? s = some cs) :
    (Text.Utf8.encode cs).length ≤ (s.flatMap Piece.text).length := by
  have hfour : ∀ c : Char, (String.utf8EncodeChar c).length ≤ 4 := by
    intro c
    rw [String.length_utf8EncodeChar]
    exact c.utf8Size_le_four
  induction s using chars?.induct generalizing cs with
  | case1 =>
    cases h
    exact Nat.le_refl _
  | case2 c hc later ih =>
    obtain ⟨ds, hds, rfl⟩ := Option.map_eq_some_iff.mp h
    rw [encode_cons, List.flatMap_cons, Piece.text, List.length_append, List.length_append]
    exact Nat.add_le_add_left (ih hds) _
  | case3 letter c hc later ih =>
    obtain ⟨ds, hds, rfl⟩ := Option.map_eq_some_iff.mp h
    rw [encode_cons, List.flatMap_cons, Piece.text, List.length_append, List.length_append]
    exact Nat.add_le_add (length_encodeChar_short _ hc) (ih hds)
  | case4 u later hlow =>
    rw [chars?.eq_def] at h
    dsimp only at h
    rw [if_pos hlow] at h
    cases h
  | case5 u hlow hhigh low later hlow' ih =>
    rw [chars?, if_neg hlow, if_pos hhigh, if_pos hlow'] at h
    obtain ⟨ds, hds, rfl⟩ := Option.map_eq_some_iff.mp h
    have hchar := hfour (pairedChar u.value low.value)
    have hlater := ih hds
    simp only [encode_cons, List.flatMap_cons, Piece.text, CodeUnit.text, List.length_append,
      List.length_cons, List.length_nil]
    omega
  | case6 u hlow hhigh low later hlow' =>
    rw [chars?, if_neg hlow, if_pos hhigh, if_neg hlow'] at h
    cases h
  | case7 u later hlow hhigh hother =>
    rw [chars?.eq_def] at h
    dsimp only at h
    rw [if_neg hlow, if_pos hhigh] at h
    split at h
    · next low rest => exact absurd rfl (hother low rest)
    · cases h
  | case8 u later hlow hhigh ih =>
    rw [chars?.eq_def] at h
    dsimp only at h
    rw [if_neg hlow, if_neg hhigh] at h
    obtain ⟨ds, hds, rfl⟩ := Option.map_eq_some_iff.mp h
    have hchar := hfour (.ofNat u.value)
    have hlater := ih hds
    simp only [encode_cons, List.flatMap_cons, Piece.text, CodeUnit.text, List.length_append,
      List.length_cons, List.length_nil]
    omega

/-! ## Values -/

/-- The strings in a value are shorter than a bound. -/
def Short (n : Nat) (w : Json) : Prop :=
  ∀ text, w = .str text → (Text.toBytes text).length < n

theorem Short.mono {m n : Nat} (h : m ≤ n) {w : Json} (hw : Short m w) : Short n w :=
  fun text htext => Nat.lt_of_lt_of_le (hw text htext) h

theorem length_le_of_mem_items {items : Items} {i : Spaced Spelling} (h : i ∈ items)
    (first : Bool) :
    i.inner.text.length ≤ (Spelling.itemsText first items).length := by
  induction items generalizing first with
  | nil => exact absurd h List.not_mem_nil
  | cons j items ih =>
    have hsplit := congrArg List.length (itemsText_cons first j items [])
    simp only [List.length_append, List.append_nil] at hsplit
    rcases List.mem_cons.mp h with rfl | h
    · omega
    · have hlater := ih h false
      omega

theorem length_le_of_mem_members {members : Members} {m : Spaced (List Piece) × Spaced Spelling}
    (h : m ∈ members) (first : Bool) :
    m.2.inner.text.length ≤ (Spelling.membersText first members).length := by
  induction members generalizing first with
  | nil => exact absurd h List.not_mem_nil
  | cons k members ih =>
    have hsplit := congrArg List.length (membersText_cons first k members [])
    simp only [List.length_append, List.length_cons, List.append_nil] at hsplit
    rcases List.mem_cons.mp h with rfl | h
    · omega
    · have hlater := ih h false
      omega

/-- The strings in a value are shorter than its text. -/
theorem short_value? {v : Spelling} {w : Json} (h : v.value? = some w) :
    w.Every (Short v.text.length) := by
  induction v using Spelling.induction generalizing w with
  | null | bool =>
    cases h
    exact fun text htext => by cases htext
  | number n =>
    have hnumber := Spelling.isNumber_value? h
    cases w with
    | int | float => exact fun text htext => by cases htext
    | null | bool | str | arr | obj => exact absurd hnumber id
  | str s =>
    obtain ⟨text, htext, rfl⟩ := Option.map_eq_some_iff.mp h
    obtain ⟨cs, hcs, rfl⟩ := Option.map_eq_some_iff.mp htext
    rintro _ ⟨⟩
    have hlength := length_encode_le hcs
    rw [Text.toBytes, String.toList_ofList]
    simp only [Spelling.text, quoted, List.length_cons, List.length_append]
    omega
  | arr blanks items ih =>
    obtain ⟨ws, hws, rfl⟩ := Option.map_eq_some_iff.mp h
    refine every_arr.mpr ⟨fun text htext => (by cases htext), fun w hw => ?_⟩
    obtain ⟨i, hi, hvalue⟩ := Spelling.exists_item hws hw
    have hlength := length_le_of_mem_items hi true
    refine (ih i hi hvalue).imp fun u hu => hu.mono ?_
    simp only [Spelling.text, List.length_cons, List.length_append]
    omega
  | obj blanks members ih =>
    obtain ⟨ws, hws, rfl⟩ := Option.map_eq_some_iff.mp h
    refine every_obj.mpr ⟨fun text htext => (by cases htext), fun w hw => ?_⟩
    obtain ⟨m, hm, -, hvalue⟩ := Spelling.exists_member hws hw
    have hlength := length_le_of_mem_members hm true
    refine (ih m hm hvalue).imp fun u hu => hu.mono ?_
    simp only [Spelling.text, List.length_cons, List.length_append]
    omega

theorem short_of_parse {bs : Bytes} {v : Json} (h : parse bs = .ok v) :
    v.Every (Short bs.length) := by
  obtain ⟨t, rfl, hvalue⟩ := parse_eq_ok_iff.mp h
  refine (short_value? (Spelling.value?_of_limited? hvalue)).imp fun u hu => hu.mono ?_
  simp only [Spaced.text, List.length_append]
  omega

end Invigilation.Json
