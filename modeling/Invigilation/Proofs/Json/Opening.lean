import Invigilation.Proofs.Json.Spelling.Lengths

/-!
# Envelopes are opened in values

Envelopes are opened while a text is read. The same comes about when the text is read as it stands
and the envelopes are opened in the value: a text in an envelope is shorter than the text around it,
so the bound on how deep they are nested never matters.

- `openedBy?`: a value with its envelopes opened by a given reader of texts.
- `Opens`: a reader opens what another one reads.
- `opens_readOpened`, `opens_readValueBy`: one object, and then every value.
- `parseOpened_eq_ok_iff`: **a text is read with its envelopes opened exactly if it is read and they
  can be opened in its value**.
-/

namespace Invigilation.Json

open Text (Bytes)

/-! ## Opening values -/

section

variable (p : Bytes → Option Json)

/-- What an envelope with these members stands for when the text in it is read by `p`. -/
def contentsBy? : List (String × Json) → Option Json
  | [(_, .str text)] => p (Text.toBytes text)
  | _ => none

mutual

/-- The value with its envelopes opened, when the texts in them are read by `p`. -/
def openedBy? : Json → Option Json
  | .arr items => (openedItemsBy? items).map .arr
  | .obj members =>
    if isEnvelope members then contentsBy? p members else (openedMembersBy? members).map .obj
  | .null => some .null
  | .bool b => some (.bool b)
  | .int n => some (.int n)
  | .float x => some (.float x)
  | .str s => some (.str s)

def openedItemsBy? : List Json → Option (List Json)
  | [] => some []
  | v :: rest => do
    let v ← openedBy? v
    let rest ← openedItemsBy? rest
    return v :: rest

def openedMembersBy? : List (String × Json) → Option (List (String × Json))
  | [] => some []
  | (key, v) :: rest => do
    let v ← openedBy? v
    let rest ← openedMembersBy? rest
    return (key, v) :: rest

end

end

theorem Every.self {p : Json → Prop} {v : Json} (h : v.Every p) : p v := by
  cases v with
  | null | bool | int | float | str => exact h
  | arr items => exact (every_arr.mp h).1
  | obj members => exact (every_obj.mp h).1

/-- The strings of a value are read as texts in the same way. -/
def Alike (p q : Bytes → Option Json) (v : Json) : Prop :=
  ∀ text, v = .str text → p (Text.toBytes text) = q (Text.toBytes text)

theorem contentsBy?_congr {p q : Bytes → Option Json} {members : List (String × Json)}
    (h : ∀ m ∈ members, Alike p q m.2) : contentsBy? p members = contentsBy? q members := by
  unfold contentsBy?
  split
  · exact h _ List.mem_cons_self _ rfl
  · rfl

theorem openedItemsBy?_congr {p q : Bytes → Option Json} {items : List Json}
    (h : ∀ v ∈ items, v.openedBy? p = v.openedBy? q) :
    openedItemsBy? p items = openedItemsBy? q items := by
  induction items with
  | nil => rfl
  | cons v rest ih =>
    obtain ⟨hv, hrest⟩ := List.forall_mem_cons.mp h
    rw [openedItemsBy?, openedItemsBy?, hv, ih hrest]

theorem openedMembersBy?_congr {p q : Bytes → Option Json} {members : List (String × Json)}
    (h : ∀ m ∈ members, m.2.openedBy? p = m.2.openedBy? q) :
    openedMembersBy? p members = openedMembersBy? q members := by
  induction members with
  | nil => rfl
  | cons m rest ih =>
    obtain ⟨hm, hrest⟩ := List.forall_mem_cons.mp h
    rw [openedMembersBy?, openedMembersBy?, hm, ih hrest]

/-- What a value is opened to depends on how its strings are read alone. -/
theorem openedBy?_congr {p q : Bytes → Option Json} {v : Json} (h : v.Every (Alike p q)) :
    v.openedBy? p = v.openedBy? q := by
  induction v using Json.induction with
  | null | bool | int | float | str => rfl
  | arr items ih =>
    obtain ⟨-, hitems⟩ := every_arr.mp h
    rw [openedBy?, openedBy?, openedItemsBy?_congr fun v hv => ih v hv (hitems v hv)]
  | obj members ih =>
    obtain ⟨-, hmembers⟩ := every_obj.mp h
    have halike : ∀ m ∈ members, Alike p q m.2 := fun m hm => (hmembers m hm).self
    rw [openedBy?, openedBy?, contentsBy?_congr halike,
      openedMembersBy?_congr fun m hm => ih m hm (hmembers m hm)]

theorem openedItems?_eq_by {items : List Json}
    (h : ∀ v ∈ items, v.opened? = v.openedBy? fun bs => (parseOpened bs).toOption) :
    openedItems? items = openedItemsBy? (fun bs => (parseOpened bs).toOption) items := by
  induction items with
  | nil => rfl
  | cons v rest ih =>
    obtain ⟨hv, hrest⟩ := List.forall_mem_cons.mp h
    rw [openedItems?, openedItemsBy?, hv, ih hrest]

theorem openedMembers?_eq_by {members : List (String × Json)}
    (h : ∀ m ∈ members, m.2.opened? = m.2.openedBy? fun bs => (parseOpened bs).toOption) :
    openedMembers? members = openedMembersBy? (fun bs => (parseOpened bs).toOption) members := by
  induction members with
  | nil => rfl
  | cons m rest ih =>
    obtain ⟨hm, hrest⟩ := List.forall_mem_cons.mp h
    rw [openedMembers?, openedMembersBy?, hm, ih hrest]

theorem opened?_eq_by (v : Json) :
    v.opened? = v.openedBy? fun bs => (parseOpened bs).toOption := by
  induction v using Json.induction with
  | null | bool | int | float | str => rfl
  | arr items ih => rw [opened?, openedBy?, openedItems?_eq_by ih]
  | obj members ih =>
    rw [opened?, openedBy?, openedMembers?_eq_by ih]
    rfl

/-! ## Readers that open -/

/-- A reader takes what another one takes, and gives what its value is opened to. -/
def Opens (g : Json → Option Json) (read opening : Reader Json) : Prop :=
  ∀ (bs : Bytes) (w : Json) (rest : Bytes),
    opening bs = .ok (w, rest) ↔ ∃ v, read bs = .ok (v, rest) ∧ g v = some w

variable {p : Bytes → Option Json} {read opening : Reader Json}

theorem opens_readItems (h : Opens (openedBy? p) read opening) (first : Bool) (fuel : Nat)
    (bs : Bytes) (ws : List Json) (rest : Bytes) :
    readItems opening first fuel bs = .ok (ws, rest) ↔
      ∃ vs, readItems read first fuel bs = .ok (vs, rest) ∧ openedItemsBy? p vs = some ws := by
  induction fuel generalizing first bs ws with
  | zero => exact iff_of_false (fun h => by cases h) (by rintro ⟨_, h, _⟩; cases h)
  | succ fuel ih =>
    rw [readItems, readItems]
    cases nextItem first bs with
    | error fault => exact iff_of_false (fun h => by cases h) (by rintro ⟨_, h, _⟩; cases h)
    | ok next =>
      cases next with
      | finished left =>
        show Except.ok ([], left) = _ ↔ ∃ vs, Except.ok ([], left) = _ ∧ _
        constructor
        · intro h
          cases h
          exact ⟨[], rfl, rfl⟩
        · rintro ⟨vs, hvs, hws⟩
          cases hvs
          cases hws
          rfl
      | item bytes =>
        show (opening bytes >>= fun r => readItems opening false fuel r.2 >>= fun s =>
            pure (r.1 :: s.1, s.2)) = _ ↔
          ∃ vs, (read bytes >>= fun r => readItems read false fuel r.2 >>= fun s =>
            pure (r.1 :: s.1, s.2)) = _ ∧ _
        constructor
        · intro hread
          obtain ⟨⟨w, left⟩, hw, hread⟩ := ok_of_bind hread
          obtain ⟨⟨more, last⟩, hmore, hread⟩ := ok_of_bind hread
          cases hread
          obtain ⟨v, hv, hvw⟩ := (h _ _ _).mp hw
          obtain ⟨vs, hvs, hvsmore⟩ := (ih _ _ _).mp hmore
          refine ⟨v :: vs, ?_, ?_⟩
          · exact bind_eq_ok_iff.mpr ⟨_, hv, bind_eq_ok_iff.mpr ⟨_, hvs, rfl⟩⟩
          · rw [openedItemsBy?, hvw, hvsmore]
            rfl
        · rintro ⟨vs, hread, hws⟩
          obtain ⟨⟨v, left⟩, hv, hread⟩ := ok_of_bind hread
          obtain ⟨⟨more, last⟩, hmore, hread⟩ := ok_of_bind hread
          cases hread
          rw [openedItemsBy?] at hws
          obtain ⟨w, hw, hws⟩ := Option.bind_eq_some_iff.mp hws
          obtain ⟨ws, hmorews, hws⟩ := Option.bind_eq_some_iff.mp hws
          cases hws
          refine bind_eq_ok_iff.mpr ⟨_, (h _ _ _).mpr ⟨v, hv, hw⟩, ?_⟩
          exact bind_eq_ok_iff.mpr ⟨_, (ih _ _ _).mpr ⟨more, hmore, hmorews⟩, rfl⟩

/-- The step over a member. -/
theorem readMembers_of_item {first : Bool} {bs bytes : Bytes}
    (h : nextMember first bs = .ok (.item bytes)) (fuel : Nat) :
    readMembers read first (fuel + 1) bs =
      readString bytes >>= fun k => readColon k.2 >>= fun c => read c.2 >>= fun r =>
        readMembers read false fuel r.2 >>= fun s => pure ((k.1, r.1) :: s.1, s.2) := by
  rw [readMembers, h]
  rfl

theorem readMembers_of_finished {first : Bool} {bs left : Bytes}
    (h : nextMember first bs = .ok (.finished left)) (fuel : Nat) :
    readMembers read first (fuel + 1) bs = .ok ([], left) := by
  rw [readMembers, h]
  rfl

theorem opens_readMembers (h : Opens (openedBy? p) read opening) (first : Bool) (fuel : Nat)
    (bs : Bytes) (ws : List (String × Json)) (rest : Bytes) :
    readMembers opening first fuel bs = .ok (ws, rest) ↔
      ∃ vs, readMembers read first fuel bs = .ok (vs, rest) ∧ openedMembersBy? p vs = some ws := by
  induction fuel generalizing first bs ws with
  | zero => exact iff_of_false (fun h => by cases h) (by rintro ⟨_, h, _⟩; cases h)
  | succ fuel ih =>
    cases hnext : nextMember first bs with
    | error fault =>
      rw [readMembers, readMembers, hnext]
      exact iff_of_false (fun h => by cases h) (by rintro ⟨_, h, _⟩; cases h)
    | ok next =>
      cases next with
      | finished left =>
        rw [readMembers_of_finished hnext, readMembers_of_finished hnext]
        constructor
        · intro h
          cases h
          exact ⟨[], rfl, rfl⟩
        · rintro ⟨vs, hvs, hws⟩
          cases hvs
          cases hws
          rfl
      | item bytes =>
        rw [readMembers_of_item hnext, readMembers_of_item hnext]
        constructor
        · intro hread
          obtain ⟨⟨key, behindKey⟩, hkey, hread⟩ := ok_of_bind hread
          obtain ⟨⟨u, behindColon⟩, hcolon, hread⟩ := ok_of_bind hread
          obtain ⟨⟨w, left⟩, hw, hread⟩ := ok_of_bind hread
          obtain ⟨⟨more, last⟩, hmore, hread⟩ := ok_of_bind hread
          cases hread
          obtain ⟨v, hv, hvw⟩ := (h _ _ _).mp hw
          obtain ⟨vs, hvs, hvsmore⟩ := (ih _ _ _).mp hmore
          refine ⟨(key, v) :: vs, ?_, ?_⟩
          · refine bind_eq_ok_iff.mpr ⟨_, hkey, bind_eq_ok_iff.mpr ⟨_, hcolon, ?_⟩⟩
            exact bind_eq_ok_iff.mpr ⟨_, hv, bind_eq_ok_iff.mpr ⟨_, hvs, rfl⟩⟩
          · rw [openedMembersBy?, hvw, hvsmore]
            rfl
        · rintro ⟨vs, hread, hws⟩
          obtain ⟨⟨key, behindKey⟩, hkey, hread⟩ := ok_of_bind hread
          obtain ⟨⟨u, behindColon⟩, hcolon, hread⟩ := ok_of_bind hread
          obtain ⟨⟨v, left⟩, hv, hread⟩ := ok_of_bind hread
          obtain ⟨⟨more, last⟩, hmore, hread⟩ := ok_of_bind hread
          cases hread
          rw [openedMembersBy?] at hws
          obtain ⟨w, hw, hws⟩ := Option.bind_eq_some_iff.mp hws
          obtain ⟨ws, hmorews, hws⟩ := Option.bind_eq_some_iff.mp hws
          cases hws
          refine bind_eq_ok_iff.mpr ⟨_, hkey, bind_eq_ok_iff.mpr ⟨_, hcolon, ?_⟩⟩
          refine bind_eq_ok_iff.mpr ⟨_, (h _ _ _).mpr ⟨v, hv, hw⟩, ?_⟩
          exact bind_eq_ok_iff.mpr ⟨_, (ih _ _ _).mpr ⟨more, hmore, hmorews⟩, rfl⟩

/-! ## Envelopes -/

/-- Only behind a quote a string is read. -/
theorem eq_quote_of_readScalar? {b : UInt8} {bs rest : Bytes} {s : String}
    (h : readScalar? (b :: bs) = some (.ok (.str s, rest))) : b = Byte.quote := by
  cases readsScalar_of_readScalar? h with
  | negative hread | number hread => exact absurd (yields_readNumber _ hread) id
  | str hread => rfl

/-- The string in an envelope is read like any other. -/
theorem readEmbedded_eq_ok_iff {inner? : Option (Reader Json)} {bs rest : Bytes} {s : String} :
    readEmbedded bs = .ok (s, rest) ↔ readNode readObject inner? bs = .ok (.str s, rest) := by
  unfold readEmbedded readWanted readNode
  cases skipSpaces bs with
  | nil => exact iff_of_false (fun h => by cases h) fun h => by cases h
  | cons b left =>
    dsimp only
    by_cases hb : b = Byte.quote
    · subst hb
      have hscalar : readScalar? (Byte.quote :: left) =
        some ((readString left).map fun r => (.str r.1, r.2)) := rfl
      rw [if_pos (beq_self_eq_true _), hscalar]
      cases readString left with
      | error fault => exact iff_of_false (fun h => by cases h) fun h => by cases h
      | ok r =>
        obtain ⟨text, more⟩ := r
        show Except.ok (text, more) = .ok (s, rest) ↔ Except.ok (Json.str text, more) = _
        simp
    · rw [if_neg (by simp [hb])]
      refine iff_of_false (fun h => by cases h) fun h => ?_
      split at h
      · next result hscalar => exact hb (eq_quote_of_readScalar? (hscalar.trans (congrArg some h)))
      split at h
      · split at h
        · cases h
        · obtain ⟨_, -, h⟩ := ok_of_bind h
          cases h
      split at h
      · split at h
        · cases h
        · obtain ⟨_, -, h⟩ := ok_of_bind h
          cases h
      · cases h

theorem readEnvelopeEnd_of_nextMember {bs rest : Bytes}
    (h : nextMember false bs = .ok (.finished rest)) : readEnvelopeEnd bs = .ok rest := by
  unfold nextMember at h
  split at h
  · cases h
  next b more hskip =>
  split at h
  · next hb =>
    cases h
    rw [readEnvelopeEnd, hskip]
    exact if_pos hb
  split at h
  · split at h <;> cases h
  split at h
  · split at h
    · cases h
    split at h
    · cases h
    split at h <;> cases h
  · cases h

/-- An envelope ends where an object does that has no other member. -/
theorem readEnvelopeEnd_eq_ok_iff {bs rest : Bytes} {fuel : Nat} :
    readEnvelopeEnd bs = .ok rest ↔ readMembers read false (fuel + 1) bs = .ok ([], rest) := by
  constructor
  · intro h
    refine readMembers_of_finished ?_ fuel
    unfold readEnvelopeEnd at h
    split at h
    · cases h
    · next b more hskip =>
      split at h
      · next hb =>
        cases h
        rw [nextMember, hskip]
        exact if_pos hb
      split at h <;> cases h
  · intro h
    cases hnext : nextMember false bs with
    | error fault =>
      rw [readMembers, hnext] at h
      cases h
    | ok next =>
      cases next with
      | item bytes =>
        rw [readMembers_of_item hnext] at h
        obtain ⟨_, -, h⟩ := ok_of_bind h
        obtain ⟨_, -, h⟩ := ok_of_bind h
        obtain ⟨_, -, h⟩ := ok_of_bind h
        obtain ⟨_, -, h⟩ := ok_of_bind h
        cases h
      | finished left =>
        rw [readMembers_of_finished hnext] at h
        cases h
        exact readEnvelopeEnd_of_nextMember hnext

/-- What makes an object an envelope is its first key. -/
theorem enterEnvelope?_eq_some {bs rest : Bytes} (h : enterEnvelope? bs = some rest) :
    ∃ bytes, nextMember true bs = .ok (.item bytes) ∧
      readString bytes = .ok (envelopeKey, rest) := by
  unfold enterEnvelope? at h
  split at h
  · next bytes hnext =>
    split at h
    · next key left hkey =>
      split at h
      · next heq =>
        cases h
        exact ⟨bytes, hnext, heq ▸ hkey⟩
      · cases h
    · cases h
  · cases h

/-- An envelope is read as an object, and opened if it has one member with a string in it. -/
theorem opens_readEnvelope {parseText : Bytes → Except Fault Json} {inner? : Option (Reader Json)}
    {bs left : Bytes} (henter : enterEnvelope? bs = some left) (w : Json) (rest : Bytes) :
    readEnvelope parseText left = .ok (w, rest) ↔
      ∃ v, readObject (readNode readObject inner?) bs = .ok (v, rest) ∧
        v.openedBy? (fun bs => (parseText bs).toOption) = some w := by
  obtain ⟨bytes, hnext, hkey⟩ := enterEnvelope?_eq_some henter
  obtain ⟨fuel, hfuel⟩ : ∃ fuel, bs.length = fuel + 1 := by
    cases bs with
    | nil => cases hnext
    | cons b bs => exact ⟨bs.length, rfl⟩
  constructor
  · intro h
    obtain ⟨⟨u, behindColon⟩, hcolon, h⟩ := ok_of_bind h
    obtain ⟨⟨text, behind⟩, htext, h⟩ := ok_of_bind h
    obtain ⟨w', hparse, h⟩ := ok_of_bind h
    obtain ⟨last, hend, h⟩ := ok_of_bind h
    cases h
    refine ⟨.obj [(envelopeKey, .str text)], ?_, ?_⟩
    · have hmembers : readMembers (readNode readObject inner?) true (bs.length + 1) bs =
          .ok ([(envelopeKey, .str text)], rest) := by
        rw [readMembers_of_item hnext]
        refine bind_eq_ok_iff.mpr ⟨_, hkey, bind_eq_ok_iff.mpr ⟨_, hcolon, ?_⟩⟩
        refine bind_eq_ok_iff.mpr ⟨_, readEmbedded_eq_ok_iff.mp htext, ?_⟩
        rw [hfuel]
        exact bind_eq_ok_iff.mpr ⟨_, readEnvelopeEnd_eq_ok_iff.mp hend, rfl⟩
      exact bind_eq_ok_iff.mpr ⟨_, hmembers, rfl⟩
    · show (parseText (Text.toBytes text)).toOption = some w
      cases hresult : parseText (Text.toBytes text) with
      | error fault =>
        rw [hresult] at hparse
        cases hparse
      | ok v =>
        rw [hresult] at hparse
        cases hparse
        rfl
  · rintro ⟨v, h, hopened⟩
    obtain ⟨⟨members, last⟩, hmembers, h⟩ := ok_of_bind h
    cases h
    rw [readMembers_of_item hnext] at hmembers
    obtain ⟨⟨key, behindKey⟩, hkey', hmembers⟩ := ok_of_bind hmembers
    obtain ⟨rfl, rfl⟩ := Prod.mk.inj (Except.ok.inj (hkey.symm.trans hkey'))
    obtain ⟨⟨u, behindColon⟩, hcolon, hmembers⟩ := ok_of_bind hmembers
    obtain ⟨⟨v, behind⟩, hv, hmembers⟩ := ok_of_bind hmembers
    obtain ⟨⟨more, last⟩, hmore, hmembers⟩ := ok_of_bind hmembers
    cases hmembers
    rw [openedBy?, if_pos (by simp [isEnvelope])] at hopened
    unfold contentsBy? at hopened
    split at hopened
    · next text heq =>
      obtain ⟨hfirst, rfl⟩ := List.cons_eq_cons.mp heq
      obtain ⟨-, rfl⟩ := Prod.mk.inj hfirst
      rw [hfuel] at hmore
      refine bind_eq_ok_iff.mpr ⟨_, hcolon, ?_⟩
      refine bind_eq_ok_iff.mpr ⟨_, readEmbedded_eq_ok_iff.mpr hv, ?_⟩
      refine bind_eq_ok_iff.mpr ⟨w, ?_, ?_⟩
      · rw [toOption_eq_some_iff.mp hopened]
        rfl
      · exact bind_eq_ok_iff.mpr ⟨_, readEnvelopeEnd_eq_ok_iff.mpr hmore, rfl⟩
    · cases hopened

/-! ## Values -/

variable {parseText : Bytes → Except Fault Json}

/-- An object is read with its envelope opened if it is one, or else with those in its members. -/
theorem opens_readOpened {inner? : Option (Reader Json)}
    (h : Opens (openedBy? fun bs => (parseText bs).toOption) (readNode readObject inner?) opening) :
    Opens (openedBy? fun bs => (parseText bs).toOption)
      (readObject (readNode readObject inner?)) (readOpened parseText opening) := by
  intro bs w rest
  unfold readOpened
  split
  · next left henter => exact opens_readEnvelope henter w rest
  · next hplain =>
    have hmembers := opens_readMembers h true (bs.length + 1) bs
    constructor
    · intro hread
      obtain ⟨⟨ws, last⟩, hws, hread⟩ := ok_of_bind hread
      cases hread
      obtain ⟨vs, hvs, hopened⟩ := (hmembers ws rest).mp hws
      refine ⟨.obj vs, bind_eq_ok_iff.mpr ⟨_, hvs, rfl⟩, ?_⟩
      rw [openedBy?, if_neg (by simp [not_isEnvelope_of_readMembers hplain hvs]), hopened]
      rfl
    · rintro ⟨v, hread, hopened⟩
      obtain ⟨⟨vs, last⟩, hvs, hread⟩ := ok_of_bind hread
      cases hread
      rw [openedBy?, if_neg (by simp [not_isEnvelope_of_readMembers hplain hvs])] at hopened
      obtain ⟨ws, hws, rfl⟩ := Option.map_eq_some_iff.mp hopened
      exact bind_eq_ok_iff.mpr ⟨_, (hmembers ws rest).mpr ⟨vs, hvs, hws⟩, rfl⟩

/-- A scalar has no envelope in it. -/
theorem openedBy?_of_readScalar? (p : Bytes → Option Json) {bs rest : Bytes} {v : Json}
    (h : readScalar? bs = some (.ok (v, rest))) : v.openedBy? p = some v := by
  cases readsScalar_of_readScalar? h with
  | null | true | false | str => rfl
  | negative hread | number hread =>
    have hv : IsNumber v := yields_readNumber _ hread
    cases v with
    | int | float => rfl
    | null | bool | str | arr | obj => exact absurd hv id

/-- The parts of a value are read by one reader, and opened by another. -/
theorem opens_readNode (pair? : Option (Reader Json × Reader Json))
    (hpair : ∀ pair ∈ pair?, Opens (openedBy? p) pair.1 pair.2 ∧
      Opens (openedBy? p) (readObject pair.1) (readOpened parseText pair.2)) :
    Opens (openedBy? p) (readNode readObject (pair?.map (·.1)))
      (readNode (readOpened parseText) (pair?.map (·.2))) := by
  intro bs w rest
  unfold readNode
  cases skipSpaces bs with
  | nil => exact iff_of_false (fun h => by cases h) (by rintro ⟨_, h, _⟩; cases h)
  | cons b left =>
    dsimp only
    cases hscalar : readScalar? (b :: left) with
    | some result =>
      show result = _ ↔ ∃ v, result = _ ∧ _
      constructor
      · rintro rfl
        exact ⟨w, rfl, openedBy?_of_readScalar? p hscalar⟩
      · rintro ⟨v, rfl, hopened⟩
        rw [openedBy?_of_readScalar? p hscalar] at hopened
        cases hopened
        rfl
    | none =>
      dsimp only
      by_cases hlist : b = Byte.openBracket
      · rw [if_pos hlist, if_pos hlist]
        cases pair? with
        | none => exact iff_of_false (fun h => by cases h) (by rintro ⟨_, h, _⟩; cases h)
        | some pair =>
          have hitems := opens_readItems (hpair pair rfl).1 true (left.length + 1) left
          show (readItems pair.2 true (left.length + 1) left >>= fun r =>
              pure (Json.arr r.1, r.2)) = _ ↔
            ∃ v, (readItems pair.1 true (left.length + 1) left >>= fun r =>
              pure (Json.arr r.1, r.2)) = _ ∧ _
          constructor
          · intro h
            obtain ⟨⟨ws, last⟩, hws, h⟩ := ok_of_bind h
            cases h
            obtain ⟨vs, hvs, hopened⟩ := (hitems ws _).mp hws
            refine ⟨.arr vs, bind_eq_ok_iff.mpr ⟨_, hvs, rfl⟩, ?_⟩
            rw [openedBy?, hopened]
            rfl
          · rintro ⟨v, h, hopened⟩
            obtain ⟨⟨vs, last⟩, hvs, h⟩ := ok_of_bind h
            cases h
            obtain ⟨ws, hws, rfl⟩ := Option.map_eq_some_iff.mp hopened
            exact bind_eq_ok_iff.mpr ⟨_, (hitems ws _).mpr ⟨vs, hvs, hws⟩, rfl⟩
      · rw [if_neg hlist, if_neg hlist]
        by_cases hobject : b = Byte.openBrace
        · rw [if_pos hobject, if_pos hobject]
          cases pair? with
          | none => exact iff_of_false (fun h => by cases h) (by rintro ⟨_, h, _⟩; cases h)
          | some pair => exact (hpair pair rfl).2 left w rest
        · rw [if_neg hobject, if_neg hobject]
          exact iff_of_false (fun h => by cases h) (by rintro ⟨_, h, _⟩; cases h)

theorem exists_readNode (object : Reader Json → Reader Json) (d : Nat) :
    ∃ inner?, readValueBy object d = readNode object inner? := by
  cases d with
  | zero => exact ⟨none, rfl⟩
  | succ d => exact ⟨some (readValueBy object d), rfl⟩

/-- A value is opened while it is read. -/
theorem opens_readValueBy (parseText : Bytes → Except Fault Json) (d : Nat) :
    Opens (openedBy? fun bs => (parseText bs).toOption) (readValueBy readObject d)
      (readValueBy (readOpened parseText) d) := by
  induction d with
  | zero => exact opens_readNode none (by simp)
  | succ d ih =>
    refine opens_readNode
      (some (readValueBy readObject d, readValueBy (readOpened parseText) d)) ?_
    rintro _ ⟨⟩
    refine ⟨ih, ?_⟩
    obtain ⟨inner?, heq⟩ := exists_readNode readObject d
    rw [heq] at ih ⊢
    exact opens_readOpened ih

/-! ## Texts -/

theorem parseNested_eq_ok_iff {fuel : Nat} {bs : Bytes} {w : Json} :
    parseNested (fuel + 1) bs = .ok w ↔
      ∃ v, parse bs = .ok v ∧ v.openedBy? (fun bs => (parseNested fuel bs).toOption) = some w := by
  have hvalue := opens_readValueBy (parseNested fuel) maxDepth bs
  constructor
  · intro h
    obtain ⟨⟨w', rest⟩, hw, h⟩ := ok_of_bind h
    obtain ⟨u, hend, h⟩ := ok_of_bind h
    cases h
    obtain ⟨v, hv, hopened⟩ := (hvalue w rest).mp hw
    exact ⟨v, bind_eq_ok_iff.mpr ⟨_, hv, bind_eq_ok_iff.mpr ⟨u, hend, rfl⟩⟩, hopened⟩
  · rintro ⟨v, h, hopened⟩
    obtain ⟨⟨v', rest⟩, hv, h⟩ := ok_of_bind h
    obtain ⟨u, hend, h⟩ := ok_of_bind h
    cases h
    refine bind_eq_ok_iff.mpr ⟨_, (hvalue w rest).mpr ⟨v, hv, hopened⟩, ?_⟩
    exact bind_eq_ok_iff.mpr ⟨u, hend, rfl⟩

/-! ## Envelopes in envelopes -/

/-- With fuel for every byte of a text, it is read and its envelopes are opened in its value. -/
theorem parseNested_of_length {n : Nat} {bs : Bytes} (hn : bs.length < n) (w : Json) :
    parseNested n bs = .ok w ↔ ∃ v, parse bs = .ok v ∧ v.opened? = some w := by
  induction n using Nat.strong_induction_on generalizing bs w with
  | _ n ih =>
    obtain ⟨fuel, rfl⟩ := Nat.exists_eq_add_one_of_ne_zero (Nat.ne_zero_of_lt hn)
    rw [parseNested_eq_ok_iff]
    refine exists_congr fun v => and_congr_right fun hparse => ?_
    -- a text in an envelope is shorter, so the fuel that is left for it is enough
    have halike : v.Every (Alike (fun bs => (parseNested fuel bs).toOption)
        fun bs => (parseOpened bs).toOption) := by
      refine (short_of_parse hparse).imp fun u hu text htext => ?_
      have hlength := hu text htext
      refine Option.ext fun w' => ?_
      rw [toOption_eq_some_iff, toOption_eq_some_iff, parseOpened, ih fuel (by omega) (by omega),
        ih ((Text.toBytes text).length + 1) (by omega) (by omega)]
    rw [opened?_eq_by, openedBy?_congr halike]

/-- **A text is read with its envelopes opened exactly if it is read and they can be opened in its
value.** -/
theorem parseOpened_eq_ok_iff {bs : Bytes} {w : Json} :
    parseOpened bs = .ok w ↔ ∃ v, parse bs = .ok v ∧ v.opened? = some w :=
  parseNested_of_length (Nat.lt_succ_self _) w

end Invigilation.Json
