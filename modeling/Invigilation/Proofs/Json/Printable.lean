import Invigilation.Proofs.Json.Values

/-!
# Printed text fits on a line

No value has a control character in its compact text: strings escape theirs, and the rest of the
text is letters, digits and punctuation. So the text of a value holds no line end.

- `Printable`: texts without control characters.
- `printable_renderChars`: **the text of every value is printable**.
- `Printable.bytes`: in bytes, there is nothing below U+0020.
-/

namespace Invigilation.Json

open Text (Bytes)
open Text.Utf8 (encode)

/-- No character of the text is a control below U+0020. -/
def Printable (cs : List Char) : Prop :=
  ∀ c ∈ cs, 0x20 ≤ c.toNat

instance (cs : List Char) : Decidable (Printable cs) :=
  decidable_of_iff (cs.all fun c => 0x20 ≤ c.toNat) (by simp [Printable])

variable {cs ds : List Char}

theorem Printable.append (hcs : Printable cs) (hds : Printable ds) : Printable (cs ++ ds) :=
  List.forall_mem_append.mpr ⟨hcs, hds⟩

theorem Printable.cons {c : Char} (hc : 0x20 ≤ c.toNat) (hcs : Printable cs) :
    Printable (c :: cs) :=
  List.forall_mem_cons.mpr ⟨hc, hcs⟩

theorem Printable.of_subset (hds : Printable ds) (h : cs ⊆ ds) : Printable cs :=
  fun c hc => hds c (h hc)

theorem printable_replicate (n : Nat) {c : Char} (hc : 0x20 ≤ c.toNat) :
    Printable (List.replicate n c) := by
  intro d hd
  rw [List.eq_of_mem_replicate hd]
  exact hc

theorem printable_toDigits (n : Nat) : Printable (Nat.toDigits 10 n) := by
  intro c hc
  have hdigit := Nat.isDigit_of_mem_toDigits (by decide) (by decide) hc
  have hrange : 0x30 ≤ c.toNat ∧ c.toNat ≤ 0x39 := by
    simpa [Char.isDigit, UInt32.le_iff_toNat_le] using hdigit
  omega

theorem printable_joinWith {separator : List Char} (hseparator : Printable separator)
    {texts : List (List Char)} (htexts : ∀ t ∈ texts, Printable t) :
    Printable (joinWith separator texts) := by
  induction texts with
  | nil => exact nofun
  | cons t rest ih =>
    obtain ⟨ht, hrest⟩ := List.forall_mem_cons.mp htexts
    cases rest with
    | nil => exact ht
    | cons u rest => exact (ht.append hseparator).append (ih hrest)

/-! ## Scalars -/

/-- A control is escaped, and its escape is printable. -/
theorem printable_escapeChar (c : Char) : Printable (escapeChar c) := by
  have hhex : ∀ d < 16, 0x20 ≤ (Nat.digitChar d).toNat := by decide
  unfold escapeChar
  split
  · decide
  split
  · decide
  split
  · next h => exact Printable.cons h nofun
  next hcontrol =>
  split
  · decide
  split
  · decide
  split
  · decide
  split
  · decide
  split
  · decide
  -- any other control is spelt by its code
  · rw [escapeCode_eq (by omega)]
    have hdigits : Printable [Nat.digitChar (c.toNat / 16), Nat.digitChar (c.toNat % 16)] :=
      .cons (hhex _ (by omega)) (.cons (hhex _ (by omega)) nofun)
    exact (show Printable ['\\', 'u', '0', '0'] by decide).append hdigits

theorem printable_renderString (s : String) : Printable (renderString s) := by
  refine .cons (by decide) (.append ?_ (by decide))
  intro d hd
  obtain ⟨c, -, hd⟩ := List.mem_flatMap.mp hd
  exact printable_escapeChar c d hd

theorem printable_renderInt (n : Int) : Printable (renderInt n) := by
  cases n with
  | ofNat n => exact printable_toDigits n
  | negSucc n => exact .cons (by decide) (printable_toDigits _)

theorem printable_layoutDecimal {digits : List Char} (h : Printable digits) (exponent : Int) :
    Printable (layoutDecimal digits exponent) := by
  unfold layoutDecimal
  dsimp only
  split
  · split
    · exact (h.append (printable_replicate _ (by decide))).append (by decide)
    split
    · exact (h.of_subset (List.take_subset _ _)).append
        (.cons (by decide) (h.of_subset (List.drop_subset _ _)))
    · exact (Printable.append (by decide) (printable_replicate _ (by decide))).append h
  · have hpower (sign : Char) (hsign : 0x20 ≤ sign.toNat) (n : Nat) :
        Printable ('e' :: sign :: Nat.toDigits 10 n) :=
      .cons (by decide) (.cons hsign (printable_toDigits n))
    have hsign (negative : Prop) [Decidable negative] :
        0x20 ≤ (if negative then '-' else '+').toNat := by
      split <;> decide
    split
    · exact .cons (h _ List.mem_cons_self) (hpower _ (hsign _) _)
    · exact .append (.cons (h _ List.mem_cons_self)
        (.cons (by decide) (h.of_subset (List.subset_cons_self _ _)))) (hpower _ (hsign _) _)
    · exact nofun

theorem printable_renderFloat (x : Binary64) : Printable (renderFloat x) := by
  have hsign : Printable (if x.isNegative then ['-'] else []) := by
    split <;> decide
  unfold renderFloat
  dsimp only
  split
  · exact hsign.append (by decide)
  · exact hsign.append (printable_layoutDecimal (printable_toDigits _) _)

/-! ## Values -/

/-- **The text of every value is printable.** -/
theorem printable_renderChars (v : Json) : Printable (renderChars v) := by
  induction v using Json.induction with
  | null => decide
  | bool b => cases b <;> decide
  | int n => exact printable_renderInt n
  | float x => exact printable_renderFloat x
  | str s => exact printable_renderString s
  | arr items ih =>
    rw [renderChars, renderItems_eq_map]
    have htexts : ∀ t ∈ items.map renderChars, Printable t := List.forall_mem_map.mpr ih
    exact .cons (by decide) ((printable_joinWith (by decide) htexts).append (by decide))
  | obj members ih =>
    rw [renderChars, renderMembers_eq_map]
    have htexts : ∀ t ∈ members.map memberChars, Printable t :=
      List.forall_mem_map.mpr fun m hm =>
        (printable_renderString m.1).append (.cons (by decide) (ih m hm))
    exact .cons (by decide) ((printable_joinWith (by decide) htexts).append (by decide))

/-- A printable text has no byte below U+0020. -/
theorem Printable.bytes (h : Printable cs) : ∀ b ∈ encode cs, 0x20 ≤ b.toNat := by
  intro b hb
  obtain ⟨c, hc, hb⟩ := List.mem_flatMap.mp hb
  by_cases hascii : c.toNat < 0x80
  · rw [Text.Utf8.encodeChar_of_lt hascii, List.mem_singleton] at hb
    rw [hb, Text.Utf8.toNat_byte (by omega)]
    exact h c hc
  · have := Text.Utf8.le_of_mem_encodeChar (by omega) hb
    omega

end Invigilation.Json
