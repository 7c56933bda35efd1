import Invigilation.Proofs.Json.Every
import Invigilation.Proofs.Json.Numbers

/-!
# Values of JSON there and back

The compact text of a plain value is read as that value, if its containers are not nested deeper
than the reader allows, and refused otherwise. This holds for every reader that takes an object
which is no envelope as its members, and so both where envelopes are opened and where they are not.

- `laterChars`: the texts of the parts of a container after its first one.
- `Reads`: a reader meets the text of a value.
- `MembersReader`: a reader of objects that passes envelopes by.
- `toOption_readValueBy`: **reading undoes printing** up to the depth that is allowed.
- `toOption_parse`, `toOption_parseOpened`: the same for whole texts.
-/

namespace Invigilation.Json

open Text (Bytes)
open Text.Utf8 (encode)

/-! ## The text of a container -/

/-- The text of a member. -/
def memberChars (m : String × Json) : List Char :=
  renderString m.1 ++ ':' :: renderChars m.2

/-- The texts of parts that come after others, each behind a comma. -/
def laterChars {α : Type} (part : α → List Char) (parts : List α) : List Char :=
  parts.flatMap fun a => ',' :: part a

theorem joinWith_map {α : Type} (part : α → List Char) (a : α) (parts : List α) :
    joinWith [','] ((a :: parts).map part) = part a ++ laterChars part parts := by
  induction parts generalizing a with
  | nil => exact (List.append_nil _).symm
  | cons b rest ih =>
    show part a ++ [','] ++ joinWith [','] ((b :: rest).map part) = _
    rw [ih, List.append_assoc]
    rfl

theorem renderItems_eq_map (items : List Json) : renderItems items = items.map renderChars := by
  induction items with
  | nil => rfl
  | cons v rest ih => rw [renderItems, ih, List.map_cons]

theorem renderMembers_eq_map (members : List (String × Json)) :
    renderMembers members = members.map memberChars := by
  induction members with
  | nil => rfl
  | cons m rest ih => rw [renderMembers, ih, List.map_cons, memberChars]

/-- The bytes of an ASCII character in front of a text. -/
theorem encode_cons_append {c : Char} (h : c.toNat < 0x80) (cs : List Char) (rest : Bytes) :
    encode (c :: cs) ++ rest = UInt8.ofNat c.toNat :: (encode cs ++ rest) := by
  rw [encode_cons_of_lt h, List.cons_append]

theorem encode_append_append (cs ds : List Char) (rest : Bytes) :
    encode (cs ++ ds) ++ rest = encode cs ++ (encode ds ++ rest) := by
  rw [encode_append, List.append_assoc]

/-! ## Steps between the parts -/

/-- Bytes at which a value can start. -/
def StartsValue (bs : Bytes) : Prop :=
  ∃ b rest, bs = b :: rest ∧ Byte.isSpace b = false ∧ b ≠ Byte.closeBracket

theorem skipSpaces_cons {b : UInt8} (h : Byte.isSpace b = false) (bs : Bytes) :
    skipSpaces (b :: bs) = b :: bs :=
  List.dropWhile_cons_of_neg (by simp [h])

theorem nextItem_first {bs : Bytes} (h : StartsValue bs) : nextItem true bs = .ok (.item bs) := by
  obtain ⟨b, rest, rfl, hspace, hclose⟩ := h
  rw [nextItem, skipSpaces_cons hspace]
  exact (if_neg hclose).trans (if_pos rfl)

theorem nextItem_comma {bs : Bytes} (h : StartsValue bs) :
    nextItem false (Byte.comma :: bs) = .ok (.item bs) := by
  obtain ⟨b, rest, rfl, hspace, hclose⟩ := h
  rw [nextItem, skipSpaces_cons rfl]
  dsimp only
  rw [if_neg (by decide), if_neg nofun, if_pos rfl, skipSpaces_cons hspace]
  exact if_neg hclose

/-! ## Parts -/

theorem toOption_bind {ε α β : Type} (x : Except ε α) (f : α → Except ε β) :
    (x >>= f).toOption = x.toOption.bind fun a => (f a).toOption := by
  cases x <;> rfl

theorem toOption_map {ε α β : Type} (x : Except ε α) (f : α → β) :
    (x.map f).toOption = x.toOption.map f := by
  cases x <;> rfl

section Conditions

variable {ε α β : Type} {x : Except ε α} {f : α → Except ε β} {q r : Prop} [Decidable q]
  [Decidable r] {a : α} {b : β}

/-- Two steps, each of which succeeds on a condition, succeed on both. -/
theorem toOption_bind_and (hx : x.toOption = if q then some a else none)
    (hf : (f a).toOption = if r then some b else none) :
    (x >>= f).toOption = if q ∧ r then some b else none := by
  rw [toOption_bind, hx]
  by_cases hq : q
  · rw [if_pos hq, Option.bind_some, hf]
    exact if_congr (and_iff_right hq).symm rfl rfl
  · rw [if_neg hq, if_neg fun h => hq h.1, Option.bind_none]

/-- A step that succeeds on a condition, before one that always does. -/
theorem toOption_bind_ok (hx : x.toOption = if q then some a else none) (hf : f a = .ok b) :
    (x >>= f).toOption = if q then some b else none := by
  have hboth : (x >>= f).toOption = if q ∧ True then some b else none :=
    toOption_bind_and hx (by rw [hf, if_pos trivial, Except.toOption])
  rw [hboth]
  exact if_congr (and_iff_left trivial) rfl rfl

end Conditions

variable {read : Reader Json} {p : Json → Prop} [DecidablePred p]

/-- A reader takes the text of a value that satisfies `p` as that value, and refuses it if the value
does not satisfy `p`, whatever follows. -/
def Reads (read : Reader Json) (p : Json → Prop) [DecidablePred p] (v : Json) : Prop :=
  ∀ rest, EndsNumber rest →
    (read (encode (renderChars v) ++ rest)).toOption = if p v then some (v, rest) else none

theorem endsNumber_cons {b : UInt8}
    (h : Byte.isDigit b = false ∧ b ≠ Byte.point ∧ isExponentLetter b = false) (rest : Bytes) :
    EndsNumber (b :: rest) := by
  intro c hc
  obtain rfl : b = c := Option.some_inj.mp hc
  exact h

theorem endsNumber_later {α : Type} (part : α → List Char) (parts : List α) {rest : Bytes}
    (h : EndsNumber rest) : EndsNumber (encode (laterChars part parts) ++ rest) := by
  cases parts with
  | nil => exact h
  | cons a parts =>
    show EndsNumber (encode (',' :: _) ++ _)
    rw [encode_cons_append (by decide)]
    exact endsNumber_cons (by decide) _

/-- A list is read from an item and the items after it. -/
theorem toOption_readItems_cons {first : Bool} {fuel : Nat} {bs bytes rest more : Bytes} {v : Json}
    {items : List Json} (hnext : nextItem first bs = .ok (.item bytes))
    (hitem : (read bytes).toOption = if p v then some (v, rest) else none)
    (hlater : (readItems read false fuel rest).toOption =
      if ∀ w ∈ items, p w then some (items, more) else none) :
    (readItems read first (fuel + 1) bs).toOption =
      if ∀ w ∈ v :: items, p w then some (v :: items, more) else none := by
  have hread : readItems read first (fuel + 1) bs =
      (read bytes >>= fun r => readItems read false fuel r.2 >>= fun s =>
        pure (r.1 :: s.1, s.2)) := by
    rw [readItems, hnext]
    rfl
  have hboth : (readItems read first (fuel + 1) bs).toOption =
      if p v ∧ ∀ w ∈ items, p w then some (v :: items, more) else none := by
    rw [hread]
    exact toOption_bind_and hitem (toOption_bind_ok hlater rfl)
  rw [hboth]
  exact if_congr List.forall_mem_cons.symm rfl rfl

/-- The items of a list after its first, up to its end. -/
theorem toOption_readItems_later {items : List Json}
    (hstarts : ∀ v ∈ items, ∀ rest, StartsValue (encode (renderChars v) ++ rest))
    (hreads : ∀ v ∈ items, Reads read p v) (rest : Bytes) {fuel : Nat}
    (hfuel : (encode (laterChars renderChars items)).length < fuel) :
    (readItems read false fuel
      (encode (laterChars renderChars items) ++ Byte.closeBracket :: rest)).toOption =
        if ∀ v ∈ items, p v then some (items, rest) else none := by
  induction items generalizing fuel with
  | nil =>
    obtain ⟨fuel, rfl⟩ := Nat.exists_eq_add_one_of_ne_zero (Nat.ne_zero_of_lt hfuel)
    rw [if_pos fun v hv => absurd hv List.not_mem_nil]
    rfl
  | cons v items ih =>
    have htext : laterChars renderChars (v :: items) =
        ',' :: (renderChars v ++ laterChars renderChars items) := rfl
    -- a step takes at least the comma, so the bytes bound the steps
    rw [htext, encode_cons_of_lt (by decide), List.length_cons, encode_append,
      List.length_append] at hfuel
    obtain ⟨fuel, rfl⟩ := Nat.exists_eq_add_one_of_ne_zero (Nat.ne_zero_of_lt hfuel)
    have hlater := ih (fun w hw => hstarts w (List.mem_cons_of_mem v hw))
      (fun w hw => hreads w (List.mem_cons_of_mem v hw)) (show _ < fuel by omega)
    rw [htext, encode_cons_append (by decide), encode_append_append]
    exact toOption_readItems_cons (nextItem_comma (hstarts v List.mem_cons_self _))
      (hreads v List.mem_cons_self _
        (endsNumber_later renderChars items (endsNumber_cons (by decide) rest))) hlater

/-- The items of a list, up to its end. -/
theorem toOption_readItems {items : List Json}
    (hstarts : ∀ v ∈ items, ∀ rest, StartsValue (encode (renderChars v) ++ rest))
    (hreads : ∀ v ∈ items, Reads read p v) (rest : Bytes) {bs : Bytes}
    (hbs : bs = encode (joinWith [','] (renderItems items)) ++ Byte.closeBracket :: rest) :
    (readItems read true (bs.length + 1) bs).toOption =
      if ∀ v ∈ items, p v then some (items, rest) else none := by
  subst hbs
  cases items with
  | nil =>
    rw [if_pos fun v hv => absurd hv List.not_mem_nil]
    rfl
  | cons v items =>
    rw [renderItems_eq_map, joinWith_map, encode_append_append]
    refine toOption_readItems_cons (nextItem_first (hstarts v List.mem_cons_self _))
      (hreads v List.mem_cons_self _
        (endsNumber_later renderChars items (endsNumber_cons (by decide) rest))) ?_
    refine toOption_readItems_later (fun w hw => hstarts w (List.mem_cons_of_mem v hw))
      (fun w hw => hreads w (List.mem_cons_of_mem v hw)) rest ?_
    simp only [List.length_append, List.length_cons]
    omega

/-! ## Members -/

/-- The text of a member, from the opening quote of its key on. -/
theorem encode_memberChars (m : String × Json) (rest : Bytes) :
    encode (memberChars m) ++ rest =
      Byte.quote :: (encode (m.1.toList.flatMap escapeChar) ++
        Byte.quote :: Byte.colon :: (encode (renderChars m.2) ++ rest)) := by
  rw [memberChars, encode_append_append, encode_renderString, encode_cons_append (by decide)]
  rfl

theorem nextMember_first (rest : Bytes) :
    nextMember true (Byte.quote :: rest) = .ok (.item rest) := rfl

theorem nextMember_comma (rest : Bytes) :
    nextMember false (Byte.comma :: Byte.quote :: rest) = .ok (.item rest) := rfl

/-- An object is read from a member and the members after it. -/
theorem toOption_readMembers_cons {first : Bool} {fuel : Nat} {bs bytes rest more : Bytes}
    {m : String × Json} {members : List (String × Json)}
    (hnext : nextMember first bs = .ok (.item (encode (m.1.toList.flatMap escapeChar) ++
      Byte.quote :: Byte.colon :: bytes)))
    (hitem : (read bytes).toOption = if p m.2 then some (m.2, rest) else none)
    (hlater : (readMembers read false fuel rest).toOption =
      if ∀ n ∈ members, p n.2 then some (members, more) else none) :
    (readMembers read first (fuel + 1) bs).toOption =
      if ∀ n ∈ m :: members, p n.2 then some (m :: members, more) else none := by
  have hread : readMembers read first (fuel + 1) bs =
      (read bytes >>= fun r => readMembers read false fuel r.2 >>= fun s =>
        pure ((m.1, r.1) :: s.1, s.2)) := by
    rw [readMembers, hnext]
    show (readString _ >>= _) = _
    rw [readString_escaped]
    rfl
  have hboth : (readMembers read first (fuel + 1) bs).toOption =
      if p m.2 ∧ ∀ n ∈ members, p n.2 then some (m :: members, more) else none := by
    rw [hread]
    exact toOption_bind_and hitem (toOption_bind_ok hlater rfl)
  rw [hboth]
  exact if_congr (List.forall_mem_cons (p := fun n : String × Json => p n.2)).symm rfl rfl

/-- The members of an object after its first, up to its end. -/
theorem toOption_readMembers_later {members : List (String × Json)}
    (hreads : ∀ m ∈ members, Reads read p m.2) (rest : Bytes) {fuel : Nat}
    (hfuel : (encode (laterChars memberChars members)).length < fuel) :
    (readMembers read false fuel
      (encode (laterChars memberChars members) ++ Byte.closeBrace :: rest)).toOption =
        if ∀ m ∈ members, p m.2 then some (members, rest) else none := by
  induction members generalizing fuel with
  | nil =>
    obtain ⟨fuel, rfl⟩ := Nat.exists_eq_add_one_of_ne_zero (Nat.ne_zero_of_lt hfuel)
    rw [if_pos fun m hm => absurd hm List.not_mem_nil]
    rfl
  | cons m members ih =>
    have htext : laterChars memberChars (m :: members) =
        ',' :: (memberChars m ++ laterChars memberChars members) := rfl
    rw [htext, encode_cons_of_lt (by decide), List.length_cons, encode_append,
      List.length_append] at hfuel
    obtain ⟨fuel, rfl⟩ := Nat.exists_eq_add_one_of_ne_zero (Nat.ne_zero_of_lt hfuel)
    have hlater := ih (fun n hn => hreads n (List.mem_cons_of_mem m hn))
      (show _ < fuel by omega)
    rw [htext, encode_cons_append (by decide), encode_append_append, encode_memberChars]
    exact toOption_readMembers_cons (nextMember_comma _)
      (hreads m List.mem_cons_self _
        (endsNumber_later memberChars members (endsNumber_cons (by decide) rest))) hlater

/-- The members of an object, up to its end. -/
theorem toOption_readMembers {members : List (String × Json)}
    (hreads : ∀ m ∈ members, Reads read p m.2) (rest : Bytes) {bs : Bytes}
    (hbs : bs = encode (joinWith [','] (renderMembers members)) ++ Byte.closeBrace :: rest) :
    (readMembers read true (bs.length + 1) bs).toOption =
      if ∀ m ∈ members, p m.2 then some (members, rest) else none := by
  subst hbs
  cases members with
  | nil =>
    rw [if_pos fun m hm => absurd hm List.not_mem_nil]
    rfl
  | cons m members =>
    rw [renderMembers_eq_map, joinWith_map, encode_append_append, encode_memberChars]
    refine toOption_readMembers_cons (nextMember_first _)
      (hreads m List.mem_cons_self _
        (endsNumber_later memberChars members (endsNumber_cons (by decide) rest))) ?_
    refine toOption_readMembers_later (fun n hn => hreads n (List.mem_cons_of_mem m hn)) rest ?_
    simp only [List.length_append, List.length_cons]
    omega

/-! ## Values -/

/-- A digit starts a number. -/
theorem readScalar?_digit {b : UInt8} (h : Byte.isDigit b = true) (rest : Bytes) :
    readScalar? (b :: rest) = some (readNumber false (b :: rest)) := by
  have hne : ∀ c, Byte.isDigit c = false → b ≠ c := by
    rintro c hc rfl
    simp [h] at hc
  rw [readScalar?, if_neg (hne _ rfl), if_neg (hne _ rfl), if_neg (hne _ rfl), if_neg (hne _ rfl),
    if_pos h]

/-- The text of a plain scalar is read as that scalar, from its first byte on. -/
theorem readScalar?_render {v : Json} (hscalar : v.depth = 0) (hv : v.Plain) :
    ∃ b bytes, encode (renderChars v) = b :: bytes ∧ Byte.isSpace b = false ∧
      b ≠ Byte.closeBracket ∧ ∀ rest, EndsNumber rest →
        readScalar? (b :: (bytes ++ rest)) = some (.ok (v, rest)) := by
  cases v with
  | arr | obj => exact absurd hscalar (Nat.succ_ne_zero _)
  | null => exact ⟨_, _, rfl, rfl, by decide, fun _ _ => rfl⟩
  | bool b => cases b <;> exact ⟨_, _, rfl, rfl, by decide, fun _ _ => rfl⟩
  | float x => exact absurd hv.1 id
  | str s =>
    have htext := encode_renderString s []
    rw [List.append_nil] at htext
    refine ⟨_, _, htext, rfl, by decide, fun rest _ => ?_⟩
    show some ((readString (_ ++ rest)).map fun r => (Json.str r.1, r.2)) = _
    rw [List.append_assoc, List.cons_append, List.nil_append, readString_escaped]
    rfl
  | int n =>
    have hword : IsWord n := hv.2.1
    -- the text is the same whatever follows it
    obtain ⟨b, bytes, htext, hfirst⟩ := readNumber_renderInt hword (show EndsNumber [] from nofun)
    have hread : ∀ rest, EndsNumber rest →
        readScalar? (b :: (bytes ++ rest)) = some (.ok (.int n, rest)) := by
      intro rest hrest
      obtain ⟨b', bytes', htext', hread⟩ := readNumber_renderInt hword hrest
      obtain ⟨rfl, rfl⟩ := List.cons_eq_cons.mp (htext.symm.trans htext')
      rcases hread with ⟨rfl, hread⟩ | ⟨hdigit, hread⟩
      · exact congrArg some hread
      · rw [readScalar?_digit hdigit]
        exact congrArg some hread
    have hne : ∀ c, Byte.isDigit c = false → c ≠ Byte.minus → b ≠ c := by
      rintro c hdigit hminus rfl
      rcases hfirst with ⟨rfl, -⟩ | ⟨h, -⟩
      · exact hminus rfl
      · simp [h] at hdigit
    refine ⟨b, bytes, htext, ?_, hne _ rfl (by decide), hread⟩
    simp [Byte.isSpace, hne 0x20 rfl (by decide), hne 0x09 rfl (by decide),
      hne 0x0A rfl (by decide), hne 0x0D rfl (by decide)]

/-- The text of a plain value starts where a value can start. -/
theorem startsValue_render {v : Json} (hv : v.Plain) (rest : Bytes) :
    StartsValue (encode (renderChars v) ++ rest) := by
  cases v with
  | arr items =>
    rw [renderChars, List.cons_append, encode_cons_append (by decide)]
    exact ⟨_, _, rfl, rfl, by decide⟩
  | obj members =>
    rw [renderChars, List.cons_append, encode_cons_append (by decide)]
    exact ⟨_, _, rfl, rfl, by decide⟩
  | null | bool | int | float | str =>
    obtain ⟨b, bytes, htext, hspace, hclose, -⟩ := readScalar?_render rfl hv
    rw [htext]
    exact ⟨b, bytes ++ rest, rfl, hspace, hclose⟩

/-- A reader of objects that takes the members of what is no envelope as they are. -/
def MembersReader (object : Reader Json → Reader Json) : Prop :=
  ∀ inner members rest, isEnvelope members = false →
    object inner (encode (joinWith [','] (renderMembers members)) ++ Byte.closeBrace :: rest) =
      readObject inner (encode (joinWith [','] (renderMembers members)) ++ Byte.closeBrace :: rest)

variable {object : Reader Json → Reader Json}

theorem readValueBy_scalar {v : Json} (hscalar : v.depth = 0) (hv : v.Plain) (d : Nat)
    {rest : Bytes} (hrest : EndsNumber rest) :
    readValueBy object d (encode (renderChars v) ++ rest) = .ok (v, rest) := by
  obtain ⟨b, bytes, htext, hspace, -, hread⟩ := readScalar?_render hscalar hv
  have hnode : ∀ inner?, readNode object inner? (b :: (bytes ++ rest)) = .ok (v, rest) := by
    intro inner?
    rw [readNode, skipSpaces_cons hspace]
    dsimp only
    rw [hread rest hrest]
  rw [htext]
  cases d <;> exact hnode _

theorem encode_arr (items : List Json) (rest : Bytes) :
    encode (renderChars (.arr items)) ++ rest = Byte.openBracket ::
      (encode (joinWith [','] (renderItems items)) ++ Byte.closeBracket :: rest) := by
  rw [renderChars, List.cons_append, encode_cons_append (by decide), encode_append_append]
  rfl

theorem encode_obj (members : List (String × Json)) (rest : Bytes) :
    encode (renderChars (.obj members)) ++ rest = Byte.openBrace ::
      (encode (joinWith [','] (renderMembers members)) ++ Byte.closeBrace :: rest) := by
  rw [renderChars, List.cons_append, encode_cons_append (by decide), encode_append_append]
  rfl

/-- **Reading undoes printing.** The text of a plain value is read as that value when its containers
are nested at most as deep as allowed, and refused when they are nested deeper. -/
theorem toOption_readValueBy (hobject : MembersReader object) {v : Json} (hv : v.Plain) (d : Nat) :
    Reads (readValueBy object d) (·.depth ≤ d) v := by
  induction v using Json.induction generalizing d with
  | null | bool | int | float | str =>
    intro rest hrest
    rw [readValueBy_scalar rfl hv d hrest]
    exact (if_pos (Nat.zero_le d)).symm
  | arr items ih =>
    intro rest hrest
    obtain ⟨-, hitems⟩ := every_arr.mp hv
    rw [encode_arr]
    -- without room for one more container the opening bracket is refused
    cases d with
    | zero => exact (if_neg (Nat.not_succ_le_zero (depthItems items))).symm
    | succ d =>
      have hdepth : (Json.arr items).depth ≤ d + 1 ↔ ∀ v ∈ items, v.depth ≤ d := by
        rw [← depthItems_le_iff]
        exact Nat.succ_le_succ_iff
      have hstarts := fun v hv rest => startsValue_render (hitems v hv) rest
      have hreads := fun v hv => ih v hv (hitems v hv) d
      show (readItems (readValueBy object d) true _ _ >>= _).toOption = _
      have hall := toOption_readItems hstarts hreads rest rfl
      exact Eq.trans (toOption_bind_ok hall rfl) (if_congr hdepth.symm rfl rfl)
  | obj members ih =>
    intro rest hrest
    obtain ⟨hnode, hmembers⟩ := every_obj.mp hv
    rw [encode_obj]
    cases d with
    | zero => exact (if_neg (Nat.not_succ_le_zero (depthMembers members))).symm
    | succ d =>
      have hdepth : (Json.obj members).depth ≤ d + 1 ↔ ∀ m ∈ members, m.2.depth ≤ d := by
        rw [← depthMembers_le_iff]
        exact Nat.succ_le_succ_iff
      have hreads := fun m hm => ih m hm (hmembers m hm) d
      show (object (readValueBy object d) _).toOption = _
      rw [hobject _ members rest hnode.2.1, readObject]
      have hall := toOption_readMembers hreads rest rfl
      exact Eq.trans (toOption_bind_ok hall rfl) (if_congr hdepth.symm rfl rfl)

/-! ## Texts -/

theorem membersReader_readObject : MembersReader readObject := fun _ _ _ _ => rfl

/-- Where envelopes are opened, an object that is none is read as its members. -/
theorem membersReader_readOpened (parseText : Bytes → Except Fault Json) :
    MembersReader (readOpened parseText) := by
  intro inner members rest hplain
  -- an envelope shows by its first key
  have hnone : enterEnvelope? (encode (joinWith [','] (renderMembers members)) ++
      Byte.closeBrace :: rest) = none := by
    cases members with
    | nil => rfl
    | cons m members =>
      have hkey : ¬ m.1 = envelopeKey := by simpa [isEnvelope] using hplain
      rw [renderMembers_eq_map, joinWith_map, encode_append_append, encode_memberChars,
        enterEnvelope?, nextMember_first]
      dsimp only
      rw [readString_escaped]
      exact if_neg hkey
  rw [readOpened, hnone]

/-- The whole text of a plain value. -/
theorem toOption_parseBy (hobject : MembersReader object) {v : Json} (hv : v.Plain) :
    (parseBy object (Text.toBytes v.render)).toOption =
      if v.depth ≤ maxDepth then some v else none := by
  have hread := toOption_readValueBy hobject hv maxDepth [] nofun
  rw [List.append_nil] at hread
  rw [parseBy, Text.toBytes, render, String.toList_ofList]
  exact toOption_bind_ok hread rfl

theorem toOption_parse {v : Json} (hv : v.Plain) :
    (parse (Text.toBytes v.render)).toOption = if v.depth ≤ maxDepth then some v else none :=
  toOption_parseBy membersReader_readObject hv

theorem toOption_parseOpened {v : Json} (hv : v.Plain) :
    (parseOpened (Text.toBytes v.render)).toOption =
      if v.depth ≤ maxDepth then some v else none :=
  toOption_parseBy (membersReader_readOpened _) hv

end Invigilation.Json
