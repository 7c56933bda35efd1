import Mathlib.Data.UInt
import Invigilation.Text.Utf8

/-!
# UTF-8 there and back

What is encoded can be decoded: the machine reads the bytes of a character to their end, emits the
character and is at rest again. So any sequence of bytes may follow.

- `Utf8.scan_encodeChar`, `Utf8.decode?_encode`: **decoding undoes encoding**.
- `Utf8.encodeChar_of_lt`, `Utf8.le_of_mem_encodeChar`: a character below U+0080 is its own byte,
  and the bytes of any other lie above.
- `ofBytes?_toBytes`: the same for texts.
-/

namespace Invigilation.Text

namespace Utf8

/-! ## One byte of the machine -/

/-- A number below 2^8 is the value of its byte. -/
theorem toNat_byte {n : Nat} (h : n < 256) : (UInt8.ofNat n).toNat = n :=
  UInt8.toNat_ofNat_of_lt' h

/-- The first byte of a character that has no other. -/
theorem start_one : ∀ n < 128, start (UInt8.ofNat n) = ([some (Char.ofNat n)], .rest) := by
  decide

/-- The first of two bytes. The least two would spell what one byte can. -/
theorem start_two : ∀ n < 32, 2 ≤ n →
    start (UInt8.ofNat (n + 192)) = ([], .inside 0 0x80 0xBF n) := by
  decide

/-- The first of three bytes. -/
theorem start_three : ∀ n < 16, start (UInt8.ofNat (n + 224)) =
    ([], .inside 1 (if n = 0 then 0xA0 else 0x80) (if n = 13 then 0x9F else 0xBF) n) := by
  decide

/-- The first of four bytes. -/
theorem start_four : ∀ n < 5, start (UInt8.ofNat (n + 240)) =
    ([], .inside 2 (if n = 0 then 0x90 else 0x80) (if n = 4 then 0x8F else 0xBF) n) := by
  decide

/-- A continuation byte in its range, by its value. -/
theorem step_inside {owed bits : Nat} {low high b : UInt8} (hlow : low.toNat ≤ b.toNat)
    (hhigh : b.toNat ≤ high.toNat) :
    step (.inside owed low high bits) b =
      match owed with
      | 0 => ([some (Char.ofNat (bits * 64 + (b.toNat - 0x80)))], .rest)
      | more + 1 => ([], .inside more 0x80 0xBF (bits * 64 + (b.toNat - 0x80))) :=
  if_pos ⟨UInt8.le_iff_toNat_le.mpr hlow, UInt8.le_iff_toNat_le.mpr hhigh⟩

theorem scan_cons (s : State) (b : UInt8) (bs : Bytes) :
    scan s (b :: bs) = (step s b).1 ++ scan (step s b).2 bs := by
  cases s <;> rfl

/-- The first byte of a longer character leaves the others to come. -/
theorem scan_open {b : UInt8} {s : State} (h : start b = ([], s)) (bs : Bytes) :
    scan .rest (b :: bs) = scan s bs := by
  rw [scan_cons]
  show (start b).1 ++ scan (start b).2 bs = _
  rw [h]
  rfl

/-- The last byte of a character completes it. -/
theorem scan_last {bits n : Nat} (h : n < 64) (bs : Bytes) :
    scan (.inside 0 0x80 0xBF bits) (UInt8.ofNat (n + 128) :: bs) =
      some (Char.ofNat (bits * 64 + n)) :: scan .rest bs := by
  have hb : (UInt8.ofNat (n + 128)).toNat = n + 128 := toNat_byte (by omega)
  rw [scan_cons, step_inside (by rw [hb]; show 128 ≤ _; omega) (by rw [hb]; show _ ≤ 191; omega),
    hb, Nat.add_sub_cancel]
  rfl

/-- A byte in the middle of a character adds six bits. -/
theorem scan_middle {more bits n : Nat} {low high : UInt8} (h : n < 64)
    (hlow : low.toNat ≤ n + 128) (hhigh : n + 128 ≤ high.toNat) (bs : Bytes) :
    scan (.inside (more + 1) low high bits) (UInt8.ofNat (n + 128) :: bs) =
      scan (.inside more 0x80 0xBF (bits * 64 + n)) bs := by
  have hb : (UInt8.ofNat (n + 128)).toNat = n + 128 := toNat_byte (by omega)
  rw [scan_cons, step_inside (by rw [hb]; exact hlow) (by rw [hb]; exact hhigh), hb,
    Nat.add_sub_cancel]
  rfl

/-- The code point of a character is not among the surrogates, and not above the greatest. -/
theorem toNat_valid (c : Char) :
    c.toNat < 0xD800 ∨ 0xDFFF < c.toNat ∧ c.toNat < 0x110000 := c.valid

/-! ## Characters and texts -/

/-- The machine reads the bytes of a character as that character. -/
theorem scan_encodeChar (c : Char) (bs : Bytes) :
    scan .rest (String.utf8EncodeChar c ++ bs) = some c :: scan .rest bs := by
  have hvalid := toNat_valid c
  have hchar {n : Nat} (h : n = c.toNat) : Char.ofNat n = c := by rw [h, Char.ofNat_toNat]
  have hval : c.val.toNat = c.toNat := rfl
  rw [String.utf8EncodeChar.eq_1, hval]
  split
  · show scan .rest (UInt8.ofNat c.toNat :: bs) = _
    rw [scan_cons]
    show (start _).1 ++ scan (start _).2 bs = _
    rw [start_one _ (by omega), hchar rfl]
    rfl
  split
  · show scan .rest (UInt8.ofNat _ :: UInt8.ofNat _ :: bs) = _
    rw [scan_open (start_two _ (by omega) (by omega)), scan_last (by omega), hchar (by omega)]
  split
  · show scan .rest (UInt8.ofNat _ :: UInt8.ofNat _ :: UInt8.ofNat _ :: bs) = _
    rw [scan_open (start_three _ (by omega)), scan_middle (by omega) ?_ ?_, scan_last (by omega),
      hchar (by omega)]
    -- E0 excludes what two bytes can spell, ED the surrogates
    · split
      · show 160 ≤ _
        omega
      · show 128 ≤ _
        omega
    · split
      · show _ ≤ 159
        omega
      · show _ ≤ 191
        omega
  · show scan .rest (UInt8.ofNat _ :: UInt8.ofNat _ :: UInt8.ofNat _ :: UInt8.ofNat _ :: bs) = _
    rw [scan_open (start_four _ (by omega)), scan_middle (by omega) ?_ ?_,
      scan_middle (by omega) (by show 128 ≤ _; omega) (by show _ ≤ 191; omega),
      scan_last (by omega), hchar (by omega)]
    -- F0 excludes what three bytes can spell, F4 what lies above the greatest code point
    · split
      · show 144 ≤ _
        omega
      · show 128 ≤ _
        omega
    · split
      · show _ ≤ 143
        omega
      · show _ ≤ 191
        omega

/-- Decoding undoes encoding. -/
theorem decode?_encode (cs : List Char) : decode? (encode cs) = some cs := by
  have hscan : scan .rest (encode cs) = cs.map some := by
    induction cs with
    | nil => rfl
    | cons c rest ih =>
      show scan .rest (String.utf8EncodeChar c ++ encode rest) = _
      rw [scan_encodeChar, ih]
      rfl
  unfold decode?
  rw [hscan, List.mapM_map]
  exact (List.mapM_pure (l := cs) (f := id)).trans (congrArg some cs.map_id)

/-- A character below U+0080 is one byte, its own code. -/
theorem encodeChar_of_lt {c : Char} (h : c.toNat < 0x80) :
    String.utf8EncodeChar c = [UInt8.ofNat c.toNat] := by
  have hval : c.val.toNat = c.toNat := rfl
  rw [String.utf8EncodeChar.eq_1, hval, if_pos (by omega)]

/-- The bytes of any other character lie above those. -/
theorem le_of_mem_encodeChar {c : Char} (hc : 0x80 ≤ c.toNat) {b : UInt8}
    (h : b ∈ String.utf8EncodeChar c) : 0x80 ≤ b.toNat := by
  have hvalid := toNat_valid c
  have hval : c.val.toNat = c.toNat := rfl
  rw [String.utf8EncodeChar.eq_1, hval, if_neg (by omega)] at h
  split at h
  · simp only [List.mem_cons, List.not_mem_nil, or_false] at h
    rcases h with rfl | rfl <;> rw [toNat_byte (by omega)] <;> omega
  · split at h
    · simp only [List.mem_cons, List.not_mem_nil, or_false] at h
      rcases h with rfl | rfl | rfl <;> rw [toNat_byte (by omega)] <;> omega
    · simp only [List.mem_cons, List.not_mem_nil, or_false] at h
      rcases h with rfl | rfl | rfl | rfl <;> rw [toNat_byte (by omega)] <;> omega

end Utf8

/-- The bytes of a text spell it. -/
theorem ofBytes?_toBytes (s : String) : ofBytes? (toBytes s) = some s := by
  rw [ofBytes?, toBytes, Utf8.decode?_encode, Option.map_some, String.ofList_toList]

end Invigilation.Text
