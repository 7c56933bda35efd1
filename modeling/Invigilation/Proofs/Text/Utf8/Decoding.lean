import Invigilation.Proofs.Text.Utf8

/-!
# Only encodings are decoded

What the machine reads without a fault is the encoding of what it emits: every byte that starts a
character is followed by as many continuation bytes as it calls for, and these bytes are the ones
that the character is encoded as.

- `Utf8.exists_encodeChar`: well-formed bytes start with those of a character.
- `Utf8.eq_encode`: **bytes are decoded as characters only if they encode them**.
- `Utf8.cons_of_encode`, `Utf8.isContinuation_of_encodeChar`: where a character ends.
- `Utf8.decode?_encode_append`, `Utf8.decode?_append_encode`: characters before and after bytes are
  decoded apart from them.
-/

namespace Invigilation.Text.Utf8

/-! ## Bytes that are read without a fault -/

/-- The bytes that start a character. -/
theorem start_inv {b : UInt8} (h : none ∉ (start b).1) :
    (∃ n < 128, b = UInt8.ofNat n) ∨ (∃ n < 32, 2 ≤ n ∧ b = UInt8.ofNat (n + 192)) ∨
      (∃ n < 16, b = UInt8.ofNat (n + 224)) ∨ ∃ n < 5, b = UInt8.ofNat (n + 240) := by
  have hb := b.toNat_lt
  have heq : ∀ n, n = b.toNat → b = UInt8.ofNat n := by
    rintro n rfl
    exact UInt8.ofNat_toNat.symm
  unfold start at h
  simp only [UInt8.lt_iff_toNat_lt] at h
  split at h
  · next hone => exact .inl ⟨b.toNat, hone, heq _ rfl⟩
  split at h
  · exact absurd List.mem_cons_self h
  · next hmany hlow =>
    change ¬ b.toNat < 0xC2 at hlow
    split at h
    · next htwo =>
      change b.toNat < 0xE0 at htwo
      exact .inr (.inl ⟨b.toNat - 192, by omega, by omega, heq _ (by omega)⟩)
    · next htwo =>
      change ¬ b.toNat < 0xE0 at htwo
      split at h
      · next hthree =>
        change b.toNat < 0xF0 at hthree
        exact .inr (.inr (.inl ⟨b.toNat - 224, by omega, heq _ (by omega)⟩))
      · next hthree =>
        change ¬ b.toNat < 0xF0 at hthree
        split at h
        · next hfour =>
          change b.toNat < 0xF5 at hfour
          exact .inr (.inr (.inr ⟨b.toNat - 240, by omega, heq _ (by omega)⟩))
        · exact absurd List.mem_cons_self h

/-- Inside a character only a continuation byte of the right range is no fault. -/
theorem scan_inside_inv {owed bits : Nat} {low high : UInt8} {bs : Bytes} (hlow : 128 ≤ low.toNat)
    (hhigh : high.toNat < 192) (h : none ∉ scan (.inside owed low high bits) bs) :
    ∃ n rest, n < 64 ∧ low.toNat ≤ n + 128 ∧ n + 128 ≤ high.toNat ∧
      bs = UInt8.ofNat (n + 128) :: rest := by
  cases bs with
  | nil => exact absurd List.mem_cons_self h
  | cons b rest =>
    rw [scan_cons, step] at h
    split at h
    · next hrange =>
      obtain ⟨hle, hge⟩ := hrange
      rw [UInt8.le_iff_toNat_le] at hle hge
      refine ⟨b.toNat - 128, rest, by omega, by omega, by omega, ?_⟩
      rw [Nat.sub_add_cancel (by omega), UInt8.ofNat_toNat]
    · exact absurd List.mem_cons_self h

/-! ## Characters by their bytes -/

/-- Every number that is no surrogate and not too large is the code point of a character. -/
theorem val_ofNat {n : Nat} (h : n < 0xD800 ∨ 0xDFFF < n ∧ n < 0x110000) :
    (Char.ofNat n).val.toNat = n := by
  have hvalid : n.isValidChar := h
  rw [Char.ofNat, dif_pos hvalid]
  rfl

theorem encodeChar_two {n m : Nat} (hn : 2 ≤ n ∧ n < 32) (hm : m < 64) :
    String.utf8EncodeChar (Char.ofNat (n * 64 + m)) =
      [UInt8.ofNat (n + 192), UInt8.ofNat (m + 128)] := by
  have hfirst : (n * 64 + m) / 64 % 32 = n := by omega
  have hsecond : (n * 64 + m) % 64 = m := by omega
  rw [String.utf8EncodeChar.eq_1, val_ofNat (by omega), if_neg (by omega), if_pos (by omega),
    hfirst, hsecond]

theorem encodeChar_three {n m k : Nat} (hn : n < 16) (hm : m < 64) (hk : k < 64)
    (hlong : n = 0 → 32 ≤ m) (hsurrogate : n = 13 → m < 32) :
    String.utf8EncodeChar (Char.ofNat ((n * 64 + m) * 64 + k)) =
      [UInt8.ofNat (n + 224), UInt8.ofNat (m + 128), UInt8.ofNat (k + 128)] := by
  have hfirst : ((n * 64 + m) * 64 + k) / 4096 % 16 = n := by omega
  have hsecond : ((n * 64 + m) * 64 + k) / 64 % 64 = m := by omega
  have hthird : ((n * 64 + m) * 64 + k) % 64 = k := by omega
  rw [String.utf8EncodeChar.eq_1, val_ofNat (by omega), if_neg (by omega), if_neg (by omega),
    if_pos (by omega), hfirst, hsecond, hthird]

theorem encodeChar_four {n m k l : Nat} (hn : n < 5) (hm : m < 64) (hk : k < 64) (hl : l < 64)
    (hlong : n = 0 → 16 ≤ m) (hlarge : n = 4 → m < 16) :
    String.utf8EncodeChar (Char.ofNat (((n * 64 + m) * 64 + k) * 64 + l)) =
      [UInt8.ofNat (n + 240), UInt8.ofNat (m + 128), UInt8.ofNat (k + 128),
        UInt8.ofNat (l + 128)] := by
  have hfirst : (((n * 64 + m) * 64 + k) * 64 + l) / 262144 % 8 = n := by omega
  have hsecond : (((n * 64 + m) * 64 + k) * 64 + l) / 4096 % 64 = m := by omega
  have hthird : (((n * 64 + m) * 64 + k) * 64 + l) / 64 % 64 = k := by omega
  have hfourth : (((n * 64 + m) * 64 + k) * 64 + l) % 64 = l := by omega
  rw [String.utf8EncodeChar.eq_1, val_ofNat (by omega), if_neg (by omega), if_neg (by omega),
    if_neg (by omega), hfirst, hsecond, hthird, hfourth]

/-! ## Texts -/

/-- Well-formed bytes start with those of a character. -/
theorem exists_encodeChar {b : UInt8} {bs : Bytes} (h : none ∉ scan .rest (b :: bs)) :
    ∃ c rest, b :: bs = String.utf8EncodeChar c ++ rest := by
  have hstart : none ∉ (start b).1 := by
    rw [scan_cons] at h
    exact fun hmem => h (List.mem_append_left _ hmem)
  rcases start_inv hstart with ⟨n, hn, rfl⟩ | ⟨n, hn, hmin, rfl⟩ | ⟨n, hn, rfl⟩ | ⟨n, hn, rfl⟩
  · refine ⟨Char.ofNat n, bs, ?_⟩
    rw [String.utf8EncodeChar.eq_1, val_ofNat (by omega), if_pos (by omega)]
    rfl
  · rw [scan_open (start_two n hn hmin)] at h
    obtain ⟨m, rest, hm, -, -, rfl⟩ := scan_inside_inv (by decide) (by decide) h
    exact ⟨_, rest, by rw [encodeChar_two ⟨hmin, hn⟩ hm]; rfl⟩
  · rw [scan_open (start_three n hn)] at h
    obtain ⟨m, rest, hm, hlow, hhigh, rfl⟩ :=
      scan_inside_inv (by split <;> decide) (by split <;> decide) h
    rw [scan_middle hm hlow hhigh] at h
    obtain ⟨k, rest, hk, -, -, rfl⟩ := scan_inside_inv (by decide) (by decide) h
    have hlong : n = 0 → 32 ≤ m := by
      rintro rfl
      change 160 ≤ _ at hlow
      omega
    have hsurrogate : n = 13 → m < 32 := by
      rintro rfl
      change _ ≤ 159 at hhigh
      omega
    exact ⟨_, rest, by rw [encodeChar_three hn hm hk hlong hsurrogate]; rfl⟩
  · rw [scan_open (start_four n hn)] at h
    obtain ⟨m, rest, hm, hlow, hhigh, rfl⟩ :=
      scan_inside_inv (by split <;> decide) (by split <;> decide) h
    rw [scan_middle hm hlow hhigh] at h
    obtain ⟨k, rest, hk, hlow', hhigh', rfl⟩ := scan_inside_inv (by decide) (by decide) h
    rw [scan_middle hk hlow' hhigh'] at h
    obtain ⟨l, rest, hl, -, -, rfl⟩ := scan_inside_inv (by decide) (by decide) h
    have hlong : n = 0 → 16 ≤ m := by
      rintro rfl
      change 144 ≤ _ at hlow
      omega
    have hlarge : n = 4 → m < 16 := by
      rintro rfl
      change _ ≤ 143 at hhigh
      omega
    exact ⟨_, rest, by rw [encodeChar_four hn hm hk hl hlong hlarge]; rfl⟩

theorem eq_encode_of_scan {bs : Bytes} {cs : List Char} (h : scan .rest bs = cs.map some) :
    bs = encode cs := by
  induction cs generalizing bs with
  | nil =>
    cases bs with
    | nil => rfl
    | cons b bs =>
      obtain ⟨c, rest, heq⟩ := exists_encodeChar (by rw [h]; exact List.not_mem_nil)
      rw [heq, scan_encodeChar] at h
      cases h
  | cons c cs ih =>
    cases bs with
    | nil => cases h
    | cons b bs =>
      have hnone : none ∉ scan .rest (b :: bs) := by
        rw [h]
        simp
      obtain ⟨d, rest, heq⟩ := exists_encodeChar hnone
      rw [heq, scan_encodeChar, List.map_cons] at h
      obtain ⟨hd, hrest⟩ := List.cons_eq_cons.mp h
      rw [heq, Option.some_inj.mp hd, ih hrest]
      rfl

theorem eq_map_some_of_mapM {xs : List (Option Char)} {cs : List Char} (h : xs.mapM id = some cs) :
    xs = cs.map some := by
  induction xs generalizing cs with
  | nil =>
    cases h
    rfl
  | cons x xs ih =>
    rw [List.mapM_cons] at h
    obtain ⟨c, hc, h⟩ := Option.bind_eq_some_iff.mp h
    obtain ⟨cs, hcs, h⟩ := Option.bind_eq_some_iff.mp h
    cases h
    rw [List.map_cons, ← ih hcs]
    exact congrArg (· :: xs) hc

/-- **Bytes are decoded as characters only if they encode them.** -/
theorem eq_encode {bs : Bytes} {cs : List Char} (h : decode? bs = some cs) : bs = encode cs :=
  eq_encode_of_scan (eq_map_some_of_mapM h)

theorem scan_encode (cs : List Char) : scan .rest (encode cs) = cs.map some :=
  eq_map_some_of_mapM (decode?_encode cs)

/-- An encoding that starts with the bytes of a character is that of this one and of others. -/
theorem cons_of_encode {c : Char} {cs : List Char} {bs : Bytes}
    (h : encode cs = String.utf8EncodeChar c ++ bs) :
    ∃ rest, cs = c :: rest ∧ bs = encode rest := by
  have hscan := scan_encode cs
  rw [h, scan_encodeChar] at hscan
  cases cs with
  | nil => cases hscan
  | cons d rest =>
    obtain ⟨hd, hrest⟩ := List.cons_eq_cons.mp hscan
    obtain rfl := Option.some_inj.mp hd
    exact ⟨rest, rfl, eq_encode_of_scan hrest⟩

/-! ## The bytes of one character -/

/-- A byte that continues a character. -/
def IsContinuation (b : UInt8) : Prop :=
  128 ≤ b.toNat ∧ b.toNat < 192

/-- All bytes of a character but the first continue it. -/
theorem isContinuation_of_encodeChar {c : Char} {b : UInt8} {bs : Bytes}
    (h : String.utf8EncodeChar c = b :: bs) :
    ¬ IsContinuation b ∧ ∀ b' ∈ bs, IsContinuation b' := by
  have hvalid := toNat_valid c
  have hval : c.val.toNat = c.toNat := rfl
  have hlater : ∀ n, IsContinuation (UInt8.ofNat (n % 64 + 128)) := by
    intro n
    rw [IsContinuation, toNat_byte (by omega)]
    omega
  rw [String.utf8EncodeChar.eq_1, hval] at h
  split at h
  · obtain ⟨rfl, rfl⟩ := List.cons_eq_cons.mp h
    rw [IsContinuation, toNat_byte (by omega)]
    exact ⟨by omega, List.forall_mem_nil _⟩
  split at h
  · obtain ⟨rfl, rfl⟩ := List.cons_eq_cons.mp h
    rw [IsContinuation, toNat_byte (by omega)]
    exact ⟨by omega, List.forall_mem_singleton.mpr (hlater _)⟩
  split at h
  · obtain ⟨rfl, rfl⟩ := List.cons_eq_cons.mp h
    rw [IsContinuation, toNat_byte (by omega)]
    exact ⟨by omega, List.forall_mem_cons.mpr ⟨hlater _, List.forall_mem_singleton.mpr (hlater _)⟩⟩
  · obtain ⟨rfl, rfl⟩ := List.cons_eq_cons.mp h
    rw [IsContinuation, toNat_byte (by omega)]
    exact ⟨by omega, List.forall_mem_cons.mpr ⟨hlater _, List.forall_mem_cons.mpr
      ⟨hlater _, List.forall_mem_singleton.mpr (hlater _)⟩⟩⟩

theorem exists_start (c : Char) :
    ∃ b bs, String.utf8EncodeChar c = b :: bs ∧ ¬ IsContinuation b := by
  cases h : String.utf8EncodeChar c with
  | nil => exact absurd h String.utf8EncodeChar_ne_nil
  | cons b bs => exact ⟨b, bs, rfl, (isContinuation_of_encodeChar h).1⟩

/-! ## Bytes with characters around them -/

/-- The bytes that an open character waits for continue characters. -/
def State.Waits : State → Prop
  | .rest => True
  | .inside _ low high _ => 128 ≤ low.toNat ∧ high.toNat < 192

theorem waits_start (b : UInt8) : (start b).2.Waits := by
  unfold start
  split
  · trivial
  split
  · trivial
  split
  · exact ⟨by decide, by decide⟩
  split
  · exact ⟨by split <;> decide, by split <;> decide⟩
  split
  · exact ⟨by split <;> decide, by split <;> decide⟩
  · trivial

theorem State.Waits.step {s : State} (hs : s.Waits) (b : UInt8) : (step s b).2.Waits := by
  cases s with
  | rest => exact waits_start b
  | inside owed low high bits =>
    by_cases hin : low ≤ b ∧ b ≤ high
    · rw [Utf8.step, if_pos hin]
      cases owed with
      | zero => trivial
      | succ more => exact ⟨by decide, by decide⟩
    · rw [Utf8.step, if_neg hin]
      exact waits_start b

/-- A byte that starts a character ends the one before it. -/
theorem scan_append {s : State} (hs : s.Waits) (bs : Bytes) {b : UInt8} (hb : ¬ IsContinuation b)
    (rest : Bytes) : scan s (bs ++ b :: rest) = scan s bs ++ scan .rest (b :: rest) := by
  induction bs generalizing s with
  | nil =>
    cases s with
    | rest => rfl
    | inside owed low high bits =>
      have hout : ¬ (low ≤ b ∧ b ≤ high) := by
        rw [UInt8.le_iff_toNat_le, UInt8.le_iff_toNat_le]
        intro hin
        obtain ⟨hlow, hhigh⟩ := hs
        exact hb ⟨by omega, by omega⟩
      have hstep : step (.inside owed low high bits) b = (none :: (start b).1, (start b).2) := by
        rw [step, if_neg hout]
      rw [List.nil_append, scan_cons, hstep]
      rfl
  | cons b' bs ih =>
    rw [List.cons_append, scan_cons, ih (hs.step b'), scan_cons s, List.append_assoc]

theorem decode?_encode_append (cs : List Char) (bs : Bytes) :
    decode? (encode cs ++ bs) = (decode? bs).map (cs ++ ·) := by
  induction cs with
  | nil => simp [encode]
  | cons c cs ih =>
    have hscan : scan .rest (encode (c :: cs) ++ bs) = some c :: scan .rest (encode cs ++ bs) := by
      rw [encode, List.flatMap_cons, List.append_assoc, scan_encodeChar, encode]
    rw [decode?, hscan, List.mapM_cons]
    change (decode? (encode cs ++ bs)).bind _ = _
    rw [ih]
    cases decode? bs <;> rfl

theorem mapM_id_append (xs : List (Option Char)) (cs : List Char) :
    (xs ++ cs.map some).mapM id = (xs.mapM id).map (· ++ cs) := by
  have hsome : (cs.map some).mapM id = some cs := by
    induction cs with
    | nil => rfl
    | cons c cs ih =>
      rw [List.map_cons, List.mapM_cons, ih]
      rfl
  rw [List.mapM_append, hsome]
  cases xs.mapM id <;> rfl

theorem decode?_append_encode (bs : Bytes) (cs : List Char) :
    decode? (bs ++ encode cs) = (decode? bs).map (· ++ cs) := by
  cases cs with
  | nil => simp [encode]
  | cons c cs =>
    obtain ⟨b, rest, hc, hb⟩ := exists_start c
    have hcons : encode (c :: cs) = b :: (rest ++ encode cs) := by
      rw [encode, List.flatMap_cons, hc, encode, List.cons_append]
    rw [decode?, hcons, scan_append (s := .rest) trivial bs hb, ← hcons, scan_encode,
      mapM_id_append, decode?]

end Invigilation.Text.Utf8
