import Mathlib.Data.List.Nodup
import Invigilation.Proofs.Json.Every

/-!
# What can be read from a text

Whatever a text says, the values that are read from it can be written again: their integers have 64
bits, and no object in them is an envelope, since envelopes are opened while the text is read.
Merging the members under one key keeps that and leaves no key twice.

- `Yields`: a property of all values that a reader gives.
- `ReadsScalar`, `readsScalar_of_readScalar?`: the ways in which a value that is no container is
  read.
- `readable_parseOpened`: **every value of a text is readable**, whatever its envelopes hold.
- `readable_settled`, `distinct_settled`: what merging repeated keys keeps and what it brings about.
-/

namespace Invigilation.Json

open Text (Bytes)

/-- Whatever a reader reads has a property. -/
def Yields (read : Reader Json) (p : Json → Prop) : Prop :=
  ∀ ⦃bs v rest⦄, read bs = .ok (v, rest) → p v

theorem ok_of_bind {ε α β : Type} {x : Except ε α} {f : α → Except ε β} {b : β}
    (h : (x >>= f) = .ok b) : ∃ a, x = .ok a ∧ f a = .ok b := by
  cases x with
  | error e => cases h
  | ok a => exact ⟨a, rfl, h⟩

theorem ok_of_map {ε α β : Type} {x : Except ε α} {f : α → β} {b : β} (h : x.map f = .ok b) :
    ∃ a, x = .ok a ∧ f a = b := by
  cases x with
  | error e => cases h
  | ok a => exact ⟨a, rfl, Except.ok.inj h⟩

theorem bind_eq_ok_iff {ε α β : Type} {x : Except ε α} {f : α → Except ε β} {b : β} :
    (x >>= f) = .ok b ↔ ∃ a, x = .ok a ∧ f a = .ok b := by
  constructor
  · exact ok_of_bind
  · rintro ⟨a, rfl, hb⟩
    exact hb

theorem toOption_eq_some_iff {ε α : Type} {x : Except ε α} {a : α} :
    x.toOption = some a ↔ x = .ok a := by
  cases x with
  | error e => exact iff_of_false (fun h => by cases h) fun h => by cases h
  | ok b => exact ⟨fun h => congrArg Except.ok (Option.some_inj.mp h), fun h => by rw [h]; rfl⟩

/-! ## Numbers -/

/-- An integer of 64 bits, or a double. -/
def IsNumber : Json → Prop
  | .int n => IsWord n
  | .float _ => True
  | .null | .bool _ | .str _ | .arr _ | .obj _ => False

theorem yields_scaled (negative : Bool) (significand : Nat) (exponent : Int) :
    Yields (scaled negative significand exponent) IsNumber := by
  intro bs v rest h
  unfold scaled at h
  split at h <;> cases h
  trivial

theorem yields_readExponentFrom (negative : Bool) (significand : Nat) (start : Int) (down : Bool) :
    Yields (readExponentFrom negative significand start down) IsNumber := by
  intro bs v rest h
  unfold readExponentFrom at h
  split at h
  · cases h
  split at h
  · split at h
    · exact yields_scaled _ _ _ h
    · split at h <;> cases h
      trivial
  · cases h

theorem yields_readExponent (negative : Bool) (significand : Nat) (start : Int) :
    Yields (readExponent negative significand start) IsNumber := by
  intro bs v rest h
  unfold readExponent at h
  split at h
  · cases h
  split at h
  · exact yields_readExponentFrom _ _ _ _ h
  split at h
  · exact yields_readExponentFrom _ _ _ _ h
  · exact yields_readExponentFrom _ _ _ _ h

theorem yields_readFraction (negative : Bool) (significand : Nat) (start : Int) :
    Yields (readFraction negative significand start) IsNumber := by
  intro bs v rest h
  unfold readFraction at h
  dsimp only at h
  split at h
  · split at h <;> cases h
  split at h
  · exact yields_scaled _ _ _ h
  split at h
  · exact yields_readExponent _ _ _ h
  · exact yields_scaled _ _ _ h

/-- Only an integer that has 64 bits is read as one. -/
theorem yields_integerValue (negative : Bool) {significand : Nat} (h : significand < unsignedBound)
    (dropped : Nat) : Yields (integerValue negative significand dropped) IsNumber := by
  intro bs v rest hread
  unfold integerValue at hread
  split at hread
  · exact yields_scaled _ _ _ hread
  split at hread
  · cases hread
    exact ⟨by unfold signedBound; omega, Int.ofNat_lt.mpr h⟩
  split at hread
  · next hbound =>
    cases hread
    have := hbound.2
    exact ⟨by omega, by unfold unsignedBound; omega⟩
  · exact yields_scaled _ _ _ hread

theorem yields_readAfterInteger (negative : Bool) {significand : Nat}
    (h : significand < unsignedBound) (dropped : Nat) :
    Yields (readAfterInteger negative significand dropped) IsNumber := by
  intro bs v rest hread
  unfold readAfterInteger at hread
  split at hread
  · exact yields_integerValue _ h _ hread
  split at hread
  · exact yields_readFraction _ _ _ hread
  split at hread
  · exact yields_readExponent _ _ _ hread
  · exact yields_integerValue _ h _ hread

/-- A run of digits does not take its significand out of bounds. -/
theorem significand_readDigitRun {s : Nat} (h : s < unsignedBound) (bs : Bytes) :
    (readDigitRun s bs).significand < unsignedBound := by
  induction bs generalizing s with
  | nil => exact h
  | cons b bs ih =>
    unfold readDigitRun
    split
    · split
      · next hfits => exact ih hfits
      · exact h
    · exact h

theorem yields_readNumber (negative : Bool) : Yields (readNumber negative) IsNumber := by
  have hzero : 0 < unsignedBound := by decide
  intro bs v rest h
  unfold readNumber at h
  split at h
  · cases h
  split at h
  · split at h
    · exact yields_readAfterInteger _ hzero _ h
    split at h
    · cases h
    · exact yields_readAfterInteger _ hzero _ h
  split at h
  · next b _ _ _ =>
    have hdigit : Byte.digitValue b < unsignedBound :=
      Nat.lt_of_le_of_lt (Nat.sub_le _ _) (Nat.lt_trans b.toNat_lt (by decide))
    exact yields_readAfterInteger _ (significand_readDigitRun hdigit _) _ h
  · cases h

/-! ## Values -/

theorem every_of_isNumber {v : Json} (h : IsNumber v) : v.Every Readable := by
  cases v with
  | int n => exact h
  | float x => trivial
  | null | bool | str | arr | obj => exact absurd h id

/-- The ways in which a value that is no container is read. -/
inductive ReadsScalar (rest : Bytes) : Bytes → Json → Prop
  | null {more : Bytes} (h : readLiteral nullTail more = .ok ((), rest)) :
    ReadsScalar rest (Byte.lowerN :: more) .null
  | true {more : Bytes} (h : readLiteral trueTail more = .ok ((), rest)) :
    ReadsScalar rest (Byte.lowerT :: more) (.bool .true)
  | false {more : Bytes} (h : readLiteral falseTail more = .ok ((), rest)) :
    ReadsScalar rest (Byte.lowerF :: more) (.bool .false)
  | negative {more : Bytes} {v : Json} (h : readNumber .true more = .ok (v, rest)) :
    ReadsScalar rest (Byte.minus :: more) v
  | number {bs : Bytes} {v : Json} (h : readNumber .false bs = .ok (v, rest)) :
    ReadsScalar rest bs v
  | str {more : Bytes} {s : String} (h : readString more = .ok (s, rest)) :
    ReadsScalar rest (Byte.quote :: more) (.str s)

theorem readsScalar_of_readScalar? {bs : Bytes} {v : Json} {rest : Bytes}
    (h : readScalar? bs = some (.ok (v, rest))) : ReadsScalar rest bs v := by
  unfold readScalar? at h
  split at h
  · cases h
  split at h
  · next hb =>
    obtain ⟨⟨_, left⟩, hread, hpair⟩ := ok_of_map (Option.some_inj.mp h)
    cases hpair
    exact hb ▸ .null hread
  split at h
  · next hb =>
    obtain ⟨⟨_, left⟩, hread, hpair⟩ := ok_of_map (Option.some_inj.mp h)
    cases hpair
    exact hb ▸ .true hread
  split at h
  · next hb =>
    obtain ⟨⟨_, left⟩, hread, hpair⟩ := ok_of_map (Option.some_inj.mp h)
    cases hpair
    exact hb ▸ .false hread
  split at h
  · next hb => exact hb ▸ .negative (Option.some_inj.mp h)
  split at h
  · exact .number (Option.some_inj.mp h)
  split at h
  · next hb =>
    obtain ⟨⟨s, left⟩, hread, hpair⟩ := ok_of_map (Option.some_inj.mp h)
    cases hpair
    exact hb ▸ .str hread
  · cases h

theorem readable_readScalar? {bs : Bytes} {v : Json} {rest : Bytes}
    (h : readScalar? bs = some (.ok (v, rest))) : v.Every Readable := by
  cases readsScalar_of_readScalar? h with
  | null | true | false | str => trivial
  | negative hread | number hread => exact every_of_isNumber (yields_readNumber _ hread)

variable {p : Json → Prop} {read : Reader Json}

theorem forall_of_readItems (hread : Yields read p) {first : Bool} {fuel : Nat} {bs rest : Bytes}
    {items : List Json} (h : readItems read first fuel bs = .ok (items, rest)) :
    ∀ v ∈ items, p v := by
  induction fuel generalizing first bs items rest with
  | zero => cases h
  | succ fuel ih =>
    rw [readItems] at h
    obtain ⟨next, -, h⟩ := ok_of_bind h
    cases next with
    | finished =>
      cases h
      exact nofun
    | item bytes =>
      obtain ⟨⟨v, more⟩, hv, h⟩ := ok_of_bind h
      obtain ⟨⟨vs, last⟩, hvs, h⟩ := ok_of_bind h
      cases h
      exact List.forall_mem_cons.mpr ⟨hread hv, ih hvs⟩

theorem forall_of_readMembers (hread : Yields read p) {first : Bool} {fuel : Nat} {bs rest : Bytes}
    {members : List (String × Json)} (h : readMembers read first fuel bs = .ok (members, rest)) :
    ∀ m ∈ members, p m.2 := by
  induction fuel generalizing first bs members rest with
  | zero => cases h
  | succ fuel ih =>
    rw [readMembers] at h
    obtain ⟨next, -, h⟩ := ok_of_bind h
    cases next with
    | finished =>
      cases h
      exact nofun
    | item bytes =>
      obtain ⟨⟨key, afterKey⟩, -, h⟩ := ok_of_bind h
      obtain ⟨⟨_, afterColon⟩, -, h⟩ := ok_of_bind h
      obtain ⟨⟨v, more⟩, hv, h⟩ := ok_of_bind h
      obtain ⟨⟨ms, last⟩, hms, h⟩ := ok_of_bind h
      cases h
      exact List.forall_mem_cons.mpr ⟨hread hv, ih hms⟩

/-- The first key of an object is looked at before its members are read. -/
theorem not_isEnvelope_of_readMembers {fuel : Nat} {bs rest : Bytes}
    {members : List (String × Json)} (hplain : enterEnvelope? bs = none)
    (h : readMembers read true fuel bs = .ok (members, rest)) : isEnvelope members = false := by
  cases fuel with
  | zero => cases h
  | succ fuel =>
    rw [readMembers] at h
    obtain ⟨next, hnext, h⟩ := ok_of_bind h
    cases next with
    | finished =>
      cases h
      rfl
    | item bytes =>
      obtain ⟨⟨key, afterKey⟩, hkey, h⟩ := ok_of_bind h
      obtain ⟨⟨_, afterColon⟩, -, h⟩ := ok_of_bind h
      obtain ⟨⟨v, more⟩, hv, h⟩ := ok_of_bind h
      obtain ⟨⟨ms, last⟩, hms, h⟩ := ok_of_bind h
      cases h
      rw [enterEnvelope?, hnext] at hplain
      dsimp only at hplain
      rw [hkey] at hplain
      simpa [isEnvelope] using hplain

/-- An object is read as its members, or as what its envelope holds. -/
theorem readable_readOpened {parseText : Bytes → Except Fault Json}
    (htext : ∀ {bs v}, parseText bs = .ok v → v.Every Readable)
    (hread : Yields read (·.Every Readable)) :
    Yields (readOpened parseText read) (·.Every Readable) := by
  intro bs v rest h
  unfold readOpened at h
  split at h
  -- what an envelope holds is a text of its own
  · unfold readEnvelope at h
    obtain ⟨⟨_, afterColon⟩, -, h⟩ := ok_of_bind h
    obtain ⟨⟨text, afterText⟩, -, h⟩ := ok_of_bind h
    obtain ⟨w, hw, h⟩ := ok_of_bind h
    obtain ⟨last, -, h⟩ := ok_of_bind h
    cases h
    cases hparse : parseText (Text.toBytes text) with
    | error fault =>
      rw [hparse] at hw
      cases hw
    | ok u =>
      rw [hparse] at hw
      cases hw
      exact htext hparse
  · next hplain =>
    obtain ⟨⟨members, last⟩, hmembers, h⟩ := ok_of_bind h
    cases h
    exact every_obj.mpr ⟨not_isEnvelope_of_readMembers hplain hmembers,
      forall_of_readMembers hread hmembers⟩

/-- If objects are read with all values in them readable, then values are. -/
theorem readable_readValueBy {object : Reader Json → Reader Json}
    (hobject : ∀ {inner}, Yields inner (·.Every Readable) →
      Yields (object inner) (·.Every Readable)) (d : Nat) :
    Yields (readValueBy object d) (·.Every Readable) := by
  have hnode : ∀ inner?, (∀ inner ∈ inner?, Yields inner (·.Every Readable)) →
      Yields (readNode object inner?) (·.Every Readable) := by
    intro inner? hinner bs v rest h
    unfold readNode at h
    split at h
    · cases h
    split at h
    · next hscalar => exact readable_readScalar? (hscalar.trans (congrArg some h))
    split at h
    · split at h
      · cases h
      · obtain ⟨⟨items, last⟩, hitems, h⟩ := ok_of_bind h
        cases h
        exact every_arr.mpr ⟨trivial, forall_of_readItems (hinner _ rfl) hitems⟩
    split at h
    · split at h
      · cases h
      · exact hobject (hinner _ rfl) h
    · cases h
  -- a value is read by the reader of the values that may stand in it
  induction d with
  | zero => exact hnode none nofun
  | succ d ih =>
    refine hnode (some (readValueBy object d)) ?_
    rintro _ ⟨⟩
    exact ih

/-- The texts in envelopes are read with less fuel than the text around them. -/
theorem readable_parseNested (fuel : Nat) {text : Bytes} {v : Json}
    (h : parseNested fuel text = .ok v) : v.Every Readable := by
  induction fuel generalizing text v with
  | zero => cases h
  | succ fuel ih =>
    obtain ⟨⟨w, rest⟩, hw, h⟩ := ok_of_bind h
    obtain ⟨_, -, h⟩ := ok_of_bind h
    cases h
    exact readable_readValueBy (readable_readOpened ih) maxDepth hw

/-- **Every value of a text is readable.** -/
theorem readable_parseOpened {text : Bytes} {v : Json} (h : parseOpened text = .ok v) :
    v.Every Readable :=
  readable_parseNested _ h

/-! ## Merging repeated keys -/

theorem mem_putMember {key : String} {value : Json} {members : List (String × Json)}
    {m : String × Json} (h : m ∈ putMember key value members) :
    m.2 = value ∨ m ∈ members := by
  induction members with
  | nil =>
    obtain rfl := List.mem_singleton.mp h
    exact .inl rfl
  | cons n rest ih =>
    obtain ⟨k, v⟩ := n
    rw [putMember] at h
    split at h
    · rcases List.mem_cons.mp h with rfl | h
      · exact .inl rfl
      · exact .inr (List.mem_cons_of_mem _ h)
    · rcases List.mem_cons.mp h with rfl | h
      · exact .inr List.mem_cons_self
      · exact (ih h).imp_right (List.mem_cons_of_mem _)

/-- A member that is put under a key adds the key at the end, unless it is there. -/
theorem keys_putMember (key : String) (value : Json) (members : List (String × Json)) :
    (putMember key value members).map (·.1) =
      if key ∈ members.map (·.1) then members.map (·.1) else members.map (·.1) ++ [key] := by
  induction members with
  | nil => rfl
  | cons n rest ih =>
    obtain ⟨k, v⟩ := n
    rw [putMember]
    by_cases hk : k = key
    · simp [hk]
    · rw [if_neg hk, List.map_cons, ih]
      by_cases hmem : key ∈ rest.map (·.1)
      · simp [hmem]
      · simp [hmem, Ne.symm hk]

theorem nodup_putMember {key : String} {value : Json} {members : List (String × Json)}
    (h : (members.map (·.1)).Nodup) : ((putMember key value members).map (·.1)).Nodup := by
  rw [keys_putMember]
  split
  · exact h
  · next hkey => exact List.nodup_append.mpr ⟨h, List.nodup_singleton key, by
      rintro a ha b hb rfl
      exact hkey (List.mem_singleton.mp hb ▸ ha)⟩

/-- The first key stays the first, whatever comes later. -/
theorem isEnvelope_putMember (key : String) (value w : Json)
    (members later : List (String × Json)) :
    isEnvelope (putMember key value members ++ later) =
      isEnvelope (members ++ (key, w) :: later) := by
  cases members with
  | nil => rfl
  | cons m rest =>
    obtain ⟨k, v⟩ := m
    rw [putMember]
    split <;> rfl

theorem isEnvelope_settledMembers (done members : List (String × Json)) :
    isEnvelope (settledMembers done members) = isEnvelope (done ++ members) := by
  induction members generalizing done with
  | nil => rw [settledMembers, List.append_nil]
  | cons m rest ih =>
    obtain ⟨k, v⟩ := m
    rw [settledMembers, ih, isEnvelope_putMember k _ v]

theorem every_settledMembers {done members : List (String × Json)}
    (hdone : ∀ m ∈ done, p m.2) (hmembers : ∀ m ∈ members, p m.2.settled) :
    ∀ m ∈ settledMembers done members, p m.2 := by
  induction members generalizing done with
  | nil => rwa [settledMembers]
  | cons m rest ih =>
    obtain ⟨k, v⟩ := m
    obtain ⟨hv, hrest⟩ := List.forall_mem_cons.mp hmembers
    rw [settledMembers]
    refine ih (fun m hm => ?_) hrest
    rcases mem_putMember hm with h | h
    · rw [h]
      exact hv
    · exact hdone m h

theorem nodup_settledMembers {done members : List (String × Json)}
    (h : (done.map (·.1)).Nodup) : ((settledMembers done members).map (·.1)).Nodup := by
  induction members generalizing done with
  | nil => rwa [settledMembers]
  | cons m rest ih =>
    obtain ⟨k, v⟩ := m
    rw [settledMembers]
    exact ih (nodup_putMember h)

theorem settledItems_eq_map (items : List Json) : settledItems items = items.map settled := by
  induction items with
  | nil => rfl
  | cons v rest ih => rw [settledItems, ih, List.map_cons]

/-- Merging repeated keys leaves a value readable. -/
theorem readable_settled {v : Json} (h : v.Every Readable) : v.settled.Every Readable := by
  induction v using Json.induction with
  | null | bool | int | float | str => exact h
  | arr items ih =>
    obtain ⟨-, hitems⟩ := every_arr.mp h
    rw [settled, settledItems_eq_map]
    refine every_arr.mpr ⟨trivial, List.forall_mem_map.mpr ?_⟩
    exact fun v hv => ih v hv (hitems v hv)
  | obj members ih =>
    obtain ⟨hplain, hmembers⟩ := every_obj.mp h
    rw [settled]
    refine every_obj.mpr ⟨(isEnvelope_settledMembers [] members).trans hplain, ?_⟩
    exact every_settledMembers nofun fun m hm => ih m hm (hmembers m hm)

/-- Merging repeated keys leaves no key twice. -/
theorem distinct_settled (v : Json) : v.settled.Every Distinct := by
  induction v using Json.induction with
  | null | bool | int | float | str => trivial
  | arr items ih =>
    rw [settled, settledItems_eq_map]
    exact every_arr.mpr ⟨trivial, List.forall_mem_map.mpr ih⟩
  | obj members ih =>
    rw [settled]
    exact every_obj.mpr ⟨nodup_settledMembers List.nodup_nil, every_settledMembers nofun ih⟩

/-- What is read and merged stands for itself, if there is no fraction in it. -/
theorem plain_of_parseOpened {text : Bytes} {v : Json} (h : parseOpened text = .ok v)
    (hintegral : v.settled.Every Integral) : v.settled.Plain :=
  hintegral.and ((readable_settled (readable_parseOpened h)).and (distinct_settled v))

end Invigilation.Json
