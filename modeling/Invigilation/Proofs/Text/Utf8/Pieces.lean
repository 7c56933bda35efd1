import Invigilation.Proofs.Text.Utf8.Decoding

/-!
# The pieces of any bytes

Any byte sequence is cut into characters and maximal ill-formed parts, in one way only. Where no
character starts, the part is the longest stretch of bytes with which the bytes of some character
begin, and a single byte if there is none. Nothing of this mentions the machine; what it emits are
these pieces, one after the other.

- `IsOpening`, `StartsCharacter`, `IsBroken`: the parts that are ill-formed, and how far they go.
- `Piece`, `Pieces`: the pieces of a byte sequence.
- `Silent`: bytes that the machine reads inside one character; `Silent.isOpening`: they can be
  completed.
- `exists_pieces`, `Pieces.unique`: **there is exactly one way to cut**.
- `scan_of_pieces`: **the machine emits the pieces in their order**, and each ill-formed part once.
-/

namespace Invigilation.Text.Utf8

/-! ## Pieces -/

/-- Bytes with which those of a character begin. -/
def IsOpening (bs : Bytes) : Prop :=
  ∃ c, bs <+: String.utf8EncodeChar c

/-- Bytes that begin with those of a character. -/
def StartsCharacter (bs : Bytes) : Prop :=
  ∃ c, String.utf8EncodeChar c <+: bs

/-- A maximal ill-formed part, in front of the bytes that follow it.
1. No character starts where it does.
2. It is the opening of a character, or a single byte.
3. No longer stretch of the bytes is the opening of a character. -/
structure IsBroken (part rest : Bytes) : Prop where
  unreadable : ¬ StartsCharacter (part ++ rest)
  stretch : (part ≠ [] ∧ IsOpening part) ∨ part.length = 1
  longest : ∀ longer, longer <+: part ++ rest → IsOpening longer → longer.length ≤ part.length

/-- A piece of a byte sequence. -/
inductive Piece where
  | char (c : Char)
  | broken (part : Bytes)
  deriving DecidableEq, Repr

namespace Piece

/-- The bytes of a piece. -/
def bytes : Piece → Bytes
  | char c => String.utf8EncodeChar c
  | broken part => part

/-- The character of a piece, if it is one. -/
def char? : Piece → Option Char
  | char c => some c
  | broken _ => none

/-- How a piece is shown: as itself, or as one replacement character. -/
def shown : Piece → Char
  | char c => c
  | broken _ => '\uFFFD'

end Piece

/-- The bytes are made of the pieces: of characters, and where none starts of maximal ill-formed
parts. -/
inductive Pieces : Bytes → List Piece → Prop where
  | nil : Pieces [] []
  | char (c : Char) {rest : Bytes} {ps : List Piece} (later : Pieces rest ps) :
      Pieces (String.utf8EncodeChar c ++ rest) (.char c :: ps)
  | broken {part rest : Bytes} {ps : List Piece} (h : IsBroken part rest) (later : Pieces rest ps) :
      Pieces (part ++ rest) (.broken part :: ps)

variable {bs part rest : Bytes} {ps : List Piece}

/-- Nothing of the bytes is lost, and nothing changes its place. -/
theorem Pieces.flatMap_bytes (h : Pieces bs ps) : ps.flatMap Piece.bytes = bs := by
  induction h with
  | nil => rfl
  | char c later ih => rw [List.flatMap_cons, ih, Piece.bytes]
  | broken h later ih => rw [List.flatMap_cons, ih, Piece.bytes]

theorem IsOpening.of_isPrefix {longer : Bytes} (hlonger : IsOpening longer) (h : bs <+: longer) :
    IsOpening bs := by
  obtain ⟨c, hc⟩ := hlonger
  exact ⟨c, h.trans hc⟩

theorem IsBroken.ne_nil (h : IsBroken part rest) : part ≠ [] := by
  rintro rfl
  obtain ⟨hne, -⟩ | hlength := h.stretch
  · exact hne rfl
  · cases hlength

/-! ## One way only -/

/-- Bytes start with at most one character. -/
theorem encodeChar_append_inj {c d : Char} {rest' : Bytes}
    (h : String.utf8EncodeChar c ++ rest = String.utf8EncodeChar d ++ rest') :
    c = d ∧ rest = rest' := by
  have hscan := congrArg (scan .rest) h
  rw [scan_encodeChar, scan_encodeChar] at hscan
  obtain rfl := Option.some_inj.mp (List.cons_eq_cons.mp hscan).1
  exact ⟨rfl, List.append_cancel_left h⟩

/-- Of two maximal ill-formed parts at one place neither is longer. -/
theorem IsBroken.length_le {part' rest' : Bytes} (h : IsBroken part rest)
    (h' : IsBroken part' rest') (heq : part ++ rest = part' ++ rest') :
    part.length ≤ part'.length := by
  obtain ⟨-, hopening⟩ | hlength := h.stretch
  · exact h'.longest part (heq ▸ List.prefix_append part rest) hopening
  · rw [hlength]
    exact List.length_pos_iff.mpr h'.ne_nil

theorem IsBroken.unique {part' rest' : Bytes} (h : IsBroken part rest)
    (h' : IsBroken part' rest') (heq : part ++ rest = part' ++ rest') :
    part = part' ∧ rest = rest' :=
  List.append_inj heq (Nat.le_antisymm (h.length_le h' heq) (h'.length_le h heq.symm))

/-- Bytes are cut in one way at most. -/
theorem Pieces.unique (h : Pieces bs ps) {qs : List Piece} (h' : Pieces bs qs) : ps = qs := by
  induction h generalizing qs with
  | nil =>
    generalize hbs : ([] : Bytes) = bs at h'
    cases h' with
    | nil => rfl
    | char c later =>
      exact absurd (List.append_eq_nil_iff.mp hbs.symm).1 String.utf8EncodeChar_ne_nil
    | broken h later => exact absurd (List.append_eq_nil_iff.mp hbs.symm).1 h.ne_nil
  | @char c rest ps later ih =>
    generalize hbs : String.utf8EncodeChar c ++ rest = bs at h'
    cases h' with
    | nil => exact absurd (List.append_eq_nil_iff.mp hbs).1 String.utf8EncodeChar_ne_nil
    | char d later' =>
      obtain ⟨rfl, rfl⟩ := encodeChar_append_inj hbs
      rw [ih later']
    | broken h' later' =>
      exact absurd ⟨c, hbs ▸ List.prefix_append _ rest⟩ h'.unreadable
  | @broken part rest ps h later ih =>
    generalize hbs : part ++ rest = bs at h'
    cases h' with
    | nil => exact absurd (List.append_eq_nil_iff.mp hbs).1 h.ne_nil
    | @char d rest' _ later' =>
      exact absurd ⟨d, hbs ▸ List.prefix_append _ rest'⟩ h.unreadable
    | broken h' later' =>
      obtain ⟨rfl, rfl⟩ := h.unique h' hbs
      rw [ih later']

/-! ## Inside a character -/

/-- The machine can go on: some byte is in the range that it waits for. -/
def State.Open : State → Prop
  | .rest => True
  | .inside _ low high _ => low ≤ high

/-- What is read afresh when a byte cannot continue what came before it: the byte itself, unless
nothing came before it. -/
def State.afresh (b : UInt8) (bs : Bytes) : State → Bytes
  | .rest => bs
  | .inside .. => b :: bs

/-- What a byte does between two characters. -/
theorem start_cases (b : UInt8) :
    (∃ s, start b = ([], s) ∧ s ≠ .rest ∧ s.Open) ∨ (∃ c, start b = ([some c], .rest)) ∨
      start b = ([none], .rest) := by
  unfold start
  split
  · exact .inr (.inl ⟨_, rfl⟩)
  split
  · exact .inr (.inr rfl)
  split
  · refine .inl ⟨_, rfl, State.noConfusion, ?_⟩
    show (0x80 : UInt8) ≤ 0xBF
    decide
  split
  · refine .inl ⟨_, rfl, State.noConfusion, ?_⟩
    show (if b = 0xE0 then 0xA0 else 0x80) ≤ if b = 0xED then (0x9F : UInt8) else 0xBF
    by_cases hb : b = 0xE0
    · rw [hb]
      decide
    · rw [if_neg hb]
      split <;> decide
  split
  · refine .inl ⟨_, rfl, State.noConfusion, ?_⟩
    show (if b = 0xF0 then 0x90 else 0x80) ≤ if b = 0xF4 then (0x8F : UInt8) else 0xBF
    by_cases hb : b = 0xF0
    · rw [hb]
      decide
    · rw [if_neg hb]
      split <;> decide
  · exact .inr (.inr rfl)

/-- What a byte does: it leaves the machine inside a character, or completes one, or shows that what
came before it cannot be completed. -/
theorem step_cases (s : State) (b : UInt8) :
    (∃ s', step s b = ([], s') ∧ s' ≠ .rest ∧ s'.Open) ∨ (∃ c, step s b = ([some c], .rest)) ∨
      ((step s b).1 ≠ [] ∧ ∀ bs, scan s (b :: bs) = none :: scan .rest (s.afresh b bs)) := by
  cases s with
  | rest =>
    obtain h | h | h := start_cases b
    · exact .inl h
    · exact .inr (.inl h)
    · have hstep : step .rest b = ([none], .rest) := h
      refine .inr (.inr ⟨by rw [hstep]; exact List.cons_ne_nil _ _, fun bs => ?_⟩)
      rw [scan_cons, hstep]
      rfl
  | inside owed low high bits =>
    by_cases hin : low ≤ b ∧ b ≤ high
    · rw [step, if_pos hin]
      cases owed with
      | zero => exact .inr (.inl ⟨_, rfl⟩)
      | succ more =>
        refine .inl ⟨_, rfl, State.noConfusion, ?_⟩
        show (0x80 : UInt8) ≤ 0xBF
        decide
    · have hstep : step (.inside owed low high bits) b = (none :: (start b).1, (start b).2) := by
        rw [step, if_neg hin]
      refine .inr (.inr ⟨by rw [hstep]; exact List.cons_ne_nil _ _, fun bs => ?_⟩)
      rw [scan_cons, hstep]
      rfl

/-- A byte of which nothing is emitted leaves the machine inside a character. -/
theorem open_of_step {s s' : State} {b : UInt8} (h : step s b = ([], s')) :
    s' ≠ .rest ∧ s'.Open := by
  obtain ⟨t, ht, hinside, hopen⟩ | ⟨c, hc⟩ | ⟨hne, -⟩ := step_cases s b
  · obtain rfl : t = s' := congrArg Prod.snd (ht.symm.trans h)
    exact ⟨hinside, hopen⟩
  · cases hc.symm.trans h
  · exact absurd (congrArg Prod.fst h) hne

/-- The machine comes to a state by bytes of which it emits nothing. -/
inductive Silent : Bytes → State → Prop where
  | nil : Silent [] .rest
  | snoc {bs : Bytes} {b : UInt8} {s s' : State} (h : Silent bs s) (hstep : step s b = ([], s')) :
      Silent (bs ++ [b]) s'

variable {s : State}

theorem Silent.scan_append (h : Silent bs s) (rest : Bytes) :
    scan .rest (bs ++ rest) = scan s rest := by
  induction h generalizing rest with
  | nil => rfl
  | snoc h hstep ih =>
    rw [List.append_assoc, ih, List.singleton_append, scan_cons, hstep]
    rfl

theorem Silent.isOpen (h : Silent bs s) : s.Open := by
  cases h with
  | nil => trivial
  | snoc h hstep => exact (open_of_step hstep).2

/-- Only before the first byte the machine is between two characters. -/
theorem Silent.eq_nil_iff (h : Silent bs s) : bs = [] ↔ s = .rest := by
  cases h with
  | nil => exact iff_of_true rfl rfl
  | snoc h hstep =>
    exact iff_of_false (List.append_ne_nil_of_right_ne_nil _ (List.cons_ne_nil _ _))
      (open_of_step hstep).1

/-- An open character can be completed, by the least byte of the range and any others. -/
theorem exists_completion (owed : Nat) {low high : UInt8} (h : low ≤ high) (bits : Nat) :
    ∃ more c, scan (.inside owed low high bits) more = [some c] := by
  have hlow : low ≤ low ∧ low ≤ high := ⟨UInt8.le_refl low, h⟩
  induction owed generalizing low high bits with
  | zero =>
    refine ⟨[low], Char.ofNat (bits * 64 + (low.toNat - 0x80)), ?_⟩
    rw [scan_cons, step, if_pos hlow]
    rfl
  | succ owed ih =>
    have hwide : (0x80 : UInt8) ≤ 0xBF := by decide
    obtain ⟨more, c, hmore⟩ := ih hwide (bits * 64 + (low.toNat - 0x80))
      ⟨UInt8.le_refl 0x80, hwide⟩
    refine ⟨low :: more, c, ?_⟩
    rw [scan_cons, step, if_pos hlow]
    exact hmore

/-- Bytes that are read as one character are those of the character. -/
theorem eq_encodeChar {c : Char} (h : scan .rest bs = [some c]) : bs = String.utf8EncodeChar c := by
  have hone : scan .rest bs = [c].map some := h
  rw [eq_encode_of_scan hone, encode, List.flatMap_cons, List.flatMap_nil, List.append_nil]

/-- What is read inside a character is the opening of one. -/
theorem Silent.isOpening (h : Silent bs s) : IsOpening bs := by
  cases hs : s with
  | rest =>
    rw [h.eq_nil_iff.mpr hs]
    exact ⟨'a', List.nil_prefix⟩
  | inside owed low high bits =>
    subst hs
    obtain ⟨more, c, hmore⟩ := exists_completion owed h.isOpen bits
    refine ⟨c, more, eq_encodeChar ?_⟩
    rw [h.scan_append, hmore]

/-- With a byte that cannot continue it, it is not. -/
theorem Silent.not_isOpening {b : UInt8} {after : Bytes → Bytes} (h : Silent bs s)
    (hnone : ∀ rest, scan s (b :: rest) = none :: scan .rest (after rest)) :
    ¬ IsOpening (bs ++ [b]) := by
  rintro ⟨c, more, hmore⟩
  have hscan := scan_encodeChar c []
  rw [List.append_nil, ← hmore, List.append_assoc, h.scan_append, List.singleton_append,
    hnone] at hscan
  cases hscan

/-! ## Every byte sequence is cut -/

/-- A stretch of the bytes that is longer than what comes first holds the byte behind it as well. -/
theorem snoc_isPrefix {longer : Bytes} {b : UInt8} (h : longer <+: bs ++ b :: rest)
    (hlength : bs.length < longer.length) : bs ++ [b] <+: longer := by
  have hfront : bs ++ [b] <+: bs ++ b :: rest :=
    ⟨rest, by rw [List.append_assoc, List.singleton_append]⟩
  refine List.prefix_of_prefix_length_le hfront h ?_
  rw [List.length_append, List.length_singleton]
  exact hlength

/-- Where a byte cannot continue what has been read of an open character, no longer stretch of the
bytes is the opening of one. -/
theorem Silent.length_le {longer : Bytes} {b : UInt8} {after : Bytes → Bytes} (h : Silent bs s)
    (hnone : ∀ rest, scan s (b :: rest) = none :: scan .rest (after rest))
    (hlonger : longer <+: bs ++ b :: rest) (hopening : IsOpening longer) :
    longer.length ≤ bs.length := by
  by_contra hlength
  exact h.not_isOpening hnone
    (hopening.of_isPrefix (snoc_isPrefix hlonger (Nat.lt_of_not_le hlength)))

/-- Where no character starts, the machine emits one fault for a maximal ill-formed part and then
reads on behind it. What it has read so far of an open character is `bs`. -/
theorem Silent.exists_broken (h : Silent bs s) (hne : bs ++ rest ≠ [])
    (hunreadable : ¬ StartsCharacter (bs ++ rest)) :
    ∃ part behind, bs ++ rest = part ++ behind ∧ IsBroken part behind ∧
      scan .rest (bs ++ rest) = none :: scan .rest behind := by
  induction rest generalizing bs s with
  | nil =>
    rw [List.append_nil] at hne hunreadable
    refine ⟨bs, [], rfl, ⟨?_, .inl ⟨hne, h.isOpening⟩, fun longer hlonger _ => ?_⟩, ?_⟩
    · rwa [List.append_nil]
    · rw [List.append_nil] at hlonger
      exact hlonger.length_le
    · rw [h.scan_append]
      cases s with
      | rest => exact absurd (h.eq_nil_iff.mpr rfl) hne
      | inside owed low high bits => rfl
  | cons b rest ih =>
    have hsnoc : bs ++ b :: rest = bs ++ [b] ++ rest := by
      rw [List.append_assoc, List.singleton_append]
    obtain ⟨s', hs', -⟩ | ⟨c, hc⟩ | ⟨-, hnone⟩ := step_cases s b
    · -- the byte goes on with the open character
      rw [hsnoc] at hne hunreadable ⊢
      exact ih (h.snoc hs') hne hunreadable
    · -- it completes a character, which starts where no character does
      have hwhole : bs ++ [b] = String.utf8EncodeChar c := by
        refine eq_encodeChar ?_
        rw [h.scan_append, scan_cons, hc]
        rfl
      exact absurd ⟨c, hwhole ▸ ⟨rest, hsnoc.symm⟩⟩ hunreadable
    · -- it ends the part, or is one by itself
      have hscan := h.scan_append (b :: rest)
      rw [hnone] at hscan
      by_cases hfirst : s = .rest
      · obtain rfl := h.eq_nil_iff.mpr hfirst
        subst hfirst
        refine ⟨[b], rest, rfl, ⟨hunreadable, .inr rfl, fun longer hlonger hopening => ?_⟩, hscan⟩
        exact (h.length_le hnone hlonger hopening).trans (Nat.zero_le _)
      · have hbs : bs ≠ [] := mt h.eq_nil_iff.mp hfirst
        have hbroken : IsBroken bs (b :: rest) :=
          ⟨hunreadable, .inl ⟨hbs, h.isOpening⟩, fun _ => h.length_le hnone⟩
        refine ⟨bs, b :: rest, rfl, hbroken, ?_⟩
        rw [hscan]
        cases s with
        | rest => exact absurd rfl hfirst
        | inside owed low high bits => rfl

/-- **Every byte sequence can be cut**, and the machine emits the pieces. -/
theorem exists_pieces (bs : Bytes) :
    ∃ ps, Pieces bs ps ∧ scan .rest bs = ps.map Piece.char? := by
  induction hlength : bs.length using Nat.strongRecOn generalizing bs with
  | _ n ih =>
    cases bs with
    | nil => exact ⟨[], .nil, rfl⟩
    | cons b bs =>
      by_cases hfirst : StartsCharacter (b :: bs)
      · obtain ⟨c, rest, hrest⟩ := hfirst
        have hshorter : rest.length < n := by
          have hpos := List.length_pos_iff.mpr (String.utf8EncodeChar_ne_nil (c := c))
          rw [← hlength, ← hrest, List.length_append]
          omega
        obtain ⟨ps, hps, hscan⟩ := ih _ hshorter rest rfl
        rw [← hrest]
        exact ⟨.char c :: ps, .char c hps, by rw [scan_encodeChar, hscan]; rfl⟩
      · obtain ⟨part, rest, heq, hbroken, hscan⟩ :=
          Silent.nil.exists_broken (List.cons_ne_nil b bs) hfirst
        have hshorter : rest.length < n := by
          have hpos := List.length_pos_iff.mpr hbroken.ne_nil
          rw [← hlength, ← List.nil_append (b :: bs), heq, List.length_append]
          omega
        obtain ⟨ps, hps, hrest⟩ := ih _ hshorter rest rfl
        rw [List.nil_append] at heq hscan
        rw [hscan, hrest, heq]
        exact ⟨.broken part :: ps, .broken hbroken hps, rfl⟩

/-- The machine emits the pieces of the bytes. -/
theorem scan_of_pieces (h : Pieces bs ps) : scan .rest bs = ps.map Piece.char? := by
  obtain ⟨qs, hqs, hscan⟩ := exists_pieces bs
  rw [h.unique hqs, hscan]

/-- Bytes are shown piece by piece. -/
theorem decodeLossy_of_pieces (h : Pieces bs ps) : decodeLossy bs = ps.map Piece.shown := by
  rw [decodeLossy, scan_of_pieces h, List.map_map]
  refine List.map_congr_left fun p _ => ?_
  cases p <;> rfl

/-! ## Bytes that are a text -/

theorem pieces_encode (cs : List Char) : Pieces (encode cs) (cs.map .char) := by
  induction cs with
  | nil => exact .nil
  | cons c cs ih => exact .char c ih

/-- Pieces none of which is ill-formed are the characters of a text. -/
theorem Pieces.exists_encode (h : Pieces bs ps) (hwhole : ∀ part, .broken part ∉ ps) :
    ∃ cs, bs = encode cs := by
  induction h with
  | nil => exact ⟨[], rfl⟩
  | char c later ih =>
    obtain ⟨cs, rfl⟩ := ih fun part hpart => hwhole part (List.mem_cons_of_mem _ hpart)
    exact ⟨c :: cs, rfl⟩
  | broken h later ih => exact absurd List.mem_cons_self (hwhole _)

/-- Bytes that spell no text have an ill-formed piece, and no others have one. -/
theorem Pieces.exists_broken_iff (h : Pieces bs ps) :
    (∃ part, .broken part ∈ ps) ↔ ∀ cs, bs ≠ encode cs := by
  constructor
  · rintro ⟨part, hpart⟩ cs rfl
    rw [h.unique (pieces_encode cs), List.mem_map] at hpart
    obtain ⟨c, -, hc⟩ := hpart
    cases hc
  · intro hbs
    by_contra hwhole
    obtain ⟨cs, hcs⟩ := h.exists_encode fun part hpart => hwhole ⟨part, hpart⟩
    exact hbs cs hcs

end Invigilation.Text.Utf8
