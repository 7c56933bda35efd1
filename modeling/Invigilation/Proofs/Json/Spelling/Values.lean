import Invigilation.Proofs.Json.Spelling.Numbers
import Invigilation.Proofs.Json.Spelling.Strings

/-!
# Reading the spellings of values

A text that follows the grammar is read as what it stands for, unless its containers are nested too
deep. The induction is on the spelling, with the blanks in front of it and any bytes behind it that
cannot be taken for more of a number.

- `ReadsAs`: a reader meets a spelling.
- `toOption_readItems_text`, `toOption_readMembers_text`: containers are read part by part.
- `toOption_readValue_text`: **a value is read as what its spelling stands for**.
- `toOption_parse_text`: the same for whole texts.
-/

namespace Invigilation.Json

open Text (Bytes)

/-! ## Blanks -/

theorem skipSpaces_append (blanks : Blanks) (bs : Bytes) :
    skipSpaces (blanks.1 ++ bs) = skipSpaces bs :=
  List.dropWhile_append_of_pos blanks.2

theorem not_isDigit_space {b : UInt8} (h : Byte.isSpace b = true) :
    Byte.isDigit b = false ∧ b ≠ Byte.point ∧ isExponentLetter b = false := by
  simp only [Byte.isSpace, Bool.or_eq_true, beq_iff_eq] at h
  rcases h with ((rfl | rfl) | rfl) | rfl <;> decide

/-- Blanks do not continue a number. -/
theorem EndsNumber.append {rest : Bytes} (h : EndsNumber rest) (blanks : Blanks) :
    EndsNumber (blanks.1 ++ rest) := by
  obtain ⟨bs, hbs⟩ := blanks
  cases bs with
  | nil => exact h
  | cons b bs =>
    rintro c hc
    obtain rfl : b = c := Option.some_inj.mp hc
    exact not_isDigit_space (hbs b List.mem_cons_self)

/-! ## Where values start -/

theorem not_isSpace_digit {b : UInt8} (h : Byte.isDigit b = true) :
    Byte.isSpace b = false ∧ b ≠ Byte.closeBracket := by
  refine ⟨?_, ne_of_isDigit h rfl⟩
  simp [Byte.isSpace, ne_of_isDigit h (c := 0x20) rfl, ne_of_isDigit h (c := 0x09) rfl,
    ne_of_isDigit h (c := 0x0A) rfl, ne_of_isDigit h (c := 0x0D) rfl]

/-- A number starts with a minus sign, or else with a digit. -/
theorem exists_unsigned (n : Numeral) :
    ∃ b bytes, n.unsigned = b :: bytes ∧ Byte.isDigit b = true := by
  obtain ⟨negative, ⟨bs, hne, hbs⟩, unpadded, fraction, exponent⟩ := n
  cases bs with
  | nil => exact absurd rfl hne
  | cons b bs => exact ⟨b, _, rfl, hbs b List.mem_cons_self⟩

/-- The text of a value starts where a value can start. -/
theorem startsValue_text (v : Spelling) (rest : Bytes) : StartsValue (v.text ++ rest) := by
  cases v with
  | null => exact ⟨_, _, rfl, rfl, by decide⟩
  | bool b => cases b <;> exact ⟨_, _, rfl, rfl, by decide⟩
  | str s => exact ⟨_, _, rfl, rfl, by decide⟩
  | arr blanks items => exact ⟨_, _, rfl, rfl, by decide⟩
  | obj blanks members => exact ⟨_, _, rfl, rfl, by decide⟩
  | number n =>
    obtain ⟨b, bytes, htext, hb⟩ := exists_unsigned n
    obtain ⟨hspace, hclose⟩ := not_isSpace_digit hb
    cases hnegative : n.negative with
    | true =>
      rw [Spelling.text, Numeral.text, if_pos hnegative]
      exact ⟨_, _, rfl, rfl, by decide⟩
    | false =>
      rw [Spelling.text, Numeral.text, if_neg (by simp [hnegative]), htext]
      exact ⟨b, _, rfl, hspace, hclose⟩

/-! ## Parts -/

variable {read : Reader Json} {g : Spelling → Option Json}

/-- A reader takes the text of a spelling, with blanks in front of it, as `g` says, whatever
follows. -/
def ReadsAs (read : Reader Json) (g : Spelling → Option Json) (v : Spelling) : Prop :=
  ∀ (blanks : Blanks) (rest : Bytes), EndsNumber rest →
    (read (blanks.1 ++ (v.text ++ rest))).toOption = (g v).map (·, rest)

theorem nextItem_end (first : Bool) (blanks : Blanks) (rest : Bytes) :
    nextItem first (blanks.1 ++ Byte.closeBracket :: rest) = .ok (.finished rest) := by
  rw [nextItem, skipSpaces_append]
  rfl

/-- The step to an item of a list. -/
theorem nextItem_text (first : Bool) (blanks before : Blanks) {bs : Bytes} (h : StartsValue bs) :
    nextItem first (blanks.1 ++ ((if first then [] else [Byte.comma]) ++ (before.1 ++ bs))) =
      .ok (.item bs) := by
  obtain ⟨b, rest, rfl, hspace, hclose⟩ := h
  rw [nextItem, skipSpaces_append]
  cases first with
  | true =>
    rw [if_pos rfl, List.nil_append, skipSpaces_append, skipSpaces_cons hspace]
    exact (if_neg hclose).trans (if_pos rfl)
  | false =>
    rw [if_neg Bool.false_ne_true, List.singleton_append, skipSpaces_cons rfl]
    dsimp only
    rw [if_neg (by decide), if_neg Bool.false_ne_true, if_pos rfl, skipSpaces_append,
      skipSpaces_cons hspace]
    exact if_neg hclose

theorem endsNumber_itemsText (items : Items) (rest : Bytes) :
    EndsNumber (Spelling.itemsText false items ++ rest) := by
  cases items with
  | nil => exact endsNumber_cons (by decide) _
  | cons i items => exact endsNumber_cons (by decide) _

theorem itemsText_cons (first : Bool) (i : Spaced Spelling) (items : Items) (rest : Bytes) :
    Spelling.itemsText first (i :: items) ++ rest =
      (if first then [] else [Byte.comma]) ++ (i.before.1 ++ (i.inner.text ++
        (i.after.1 ++ (Spelling.itemsText false items ++ rest)))) := by
  simp only [Spelling.itemsText, List.append_assoc]

/-- The items of a list, up to its end. -/
theorem toOption_readItems_text {items : Items} (hreads : ∀ i ∈ items, ReadsAs read g i.inner)
    (first : Bool) (blanks : Blanks) (rest : Bytes) {fuel : Nat} (hfuel : items.length < fuel) :
    (readItems read first fuel (blanks.1 ++ (Spelling.itemsText first items ++ rest))).toOption =
      (items.mapM fun i => g i.inner).map (·, rest) := by
  induction items generalizing first blanks fuel with
  | nil =>
    obtain ⟨fuel, rfl⟩ := Nat.exists_eq_add_one_of_ne_zero (Nat.ne_zero_of_lt hfuel)
    rw [readItems, Spelling.itemsText, List.singleton_append, nextItem_end]
    rfl
  | cons i items ih =>
    obtain ⟨fuel, rfl⟩ := Nat.exists_eq_add_one_of_ne_zero (Nat.ne_zero_of_lt hfuel)
    have hitem := hreads i List.mem_cons_self noBlanks
      (i.after.1 ++ (Spelling.itemsText false items ++ rest))
      ((endsNumber_itemsText items rest).append i.after)
    rw [noBlanks, List.nil_append] at hitem
    have hlater := ih (fun i hi => hreads i (List.mem_cons_of_mem _ hi)) false i.after
      (Nat.lt_of_succ_lt_succ hfuel)
    rw [itemsText_cons, readItems, nextItem_text first blanks i.before (startsValue_text _ _)]
    show (read _ >>= fun r => readItems read false fuel r.2 >>= fun s =>
      pure (r.1 :: s.1, s.2)).toOption = _
    rw [toOption_bind, hitem, List.mapM_cons]
    cases g i.inner with
    | none => rfl
    | some v =>
      show (readItems read false fuel _ >>= _).toOption = _
      rw [toOption_bind, hlater]
      cases items.mapM fun i => g i.inner <;> rfl

/-! ## Members -/

theorem nextMember_end (first : Bool) (blanks : Blanks) (rest : Bytes) :
    nextMember first (blanks.1 ++ Byte.closeBrace :: rest) = .ok (.finished rest) := by
  rw [nextMember, skipSpaces_append]
  rfl

/-- The step to a member of an object. -/
theorem nextMember_text (first : Bool) (blanks before : Blanks) (bs : Bytes) :
    nextMember first (blanks.1 ++ ((if first then [] else [Byte.comma]) ++
      (before.1 ++ Byte.quote :: bs))) = .ok (.item bs) := by
  rw [nextMember, skipSpaces_append]
  cases first with
  | true =>
    rw [if_pos rfl, List.nil_append, skipSpaces_append, skipSpaces_cons rfl]
    rfl
  | false =>
    rw [if_neg Bool.false_ne_true, List.singleton_append, skipSpaces_cons rfl]
    dsimp only
    rw [if_neg (by decide), if_neg Bool.false_ne_true, if_pos rfl, skipSpaces_append,
      skipSpaces_cons rfl]
    rfl

theorem readColon_text (blanks : Blanks) (bs : Bytes) :
    readColon (blanks.1 ++ Byte.colon :: bs) = .ok ((), bs) := by
  rw [readColon, skipSpaces_append]
  rfl

theorem endsNumber_membersText (members : Members) (rest : Bytes) :
    EndsNumber (Spelling.membersText false members ++ rest) := by
  cases members with
  | nil => exact endsNumber_cons (by decide) _
  | cons m members => exact endsNumber_cons (by decide) _

theorem membersText_cons (first : Bool) (m : Spaced (List Piece) × Spaced Spelling)
    (members : Members) (rest : Bytes) :
    Spelling.membersText first (m :: members) ++ rest =
      (if first then [] else [Byte.comma]) ++ (m.1.before.1 ++ Byte.quote ::
        (m.1.inner.flatMap Piece.text ++ Byte.quote :: (m.1.after.1 ++ Byte.colon ::
          (m.2.before.1 ++ (m.2.inner.text ++ (m.2.after.1 ++
            (Spelling.membersText false members ++ rest))))))) := by
  simp only [Spelling.membersText, quoted, List.append_assoc, List.cons_append, List.nil_append]

/-- What a member stands for. -/
def member? (g : Spelling → Option Json) (m : Spaced (List Piece) × Spaced Spelling) :
    Option (String × Json) := do
  let key ← string? m.1.inner
  let v ← g m.2.inner
  return (key, v)

/-- The members of an object, up to its end. -/
theorem toOption_readMembers_text {members : Members}
    (hreads : ∀ m ∈ members, ReadsAs read g m.2.inner) (first : Bool) (blanks : Blanks)
    (rest : Bytes) {fuel : Nat} (hfuel : members.length < fuel) :
    (readMembers read first fuel
      (blanks.1 ++ (Spelling.membersText first members ++ rest))).toOption =
        (members.mapM (member? g)).map (·, rest) := by
  induction members generalizing first blanks fuel with
  | nil =>
    obtain ⟨fuel, rfl⟩ := Nat.exists_eq_add_one_of_ne_zero (Nat.ne_zero_of_lt hfuel)
    rw [readMembers, Spelling.membersText, List.singleton_append, nextMember_end]
    rfl
  | cons m members ih =>
    obtain ⟨fuel, rfl⟩ := Nat.exists_eq_add_one_of_ne_zero (Nat.ne_zero_of_lt hfuel)
    have hitem := hreads m List.mem_cons_self m.2.before
      (m.2.after.1 ++ (Spelling.membersText false members ++ rest))
      ((endsNumber_membersText members rest).append m.2.after)
    have hlater := ih (fun m hm => hreads m (List.mem_cons_of_mem _ hm)) false m.2.after
      (Nat.lt_of_succ_lt_succ hfuel)
    rw [membersText_cons, readMembers, nextMember_text]
    show (readString _ >>= fun k => readColon k.2 >>= fun c => read c.2 >>= fun r =>
      readMembers read false fuel r.2 >>= fun s => pure ((k.1, r.1) :: s.1, s.2)).toOption = _
    rw [toOption_bind, toOption_readString, List.mapM_cons, member?]
    cases string? m.1.inner with
    | none => rfl
    | some key =>
      show (readColon _ >>= _).toOption = _
      rw [readColon_text]
      show (read _ >>= _).toOption = _
      rw [toOption_bind, hitem]
      cases g m.2.inner with
      | none => rfl
      | some v =>
        show (readMembers read false fuel _ >>= _).toOption = _
        rw [toOption_bind, hlater]
        cases members.mapM (member? g) <;> rfl

/-! ## Values -/

/-- What a spelling stands for, if at most `d` containers are nested in it. -/
def limited? (d : Nat) (v : Spelling) : Option Json :=
  if v.depth ≤ d then v.value? else none

theorem mapM_limited? (d : Nat) (items : Items) :
    (items.mapM fun i => limited? d i.inner) =
      if Spelling.depthItems items ≤ d then Spelling.valueItems? items else none := by
  induction items with
  | nil => simp [Spelling.depthItems, Spelling.valueItems?]
  | cons i items ih =>
    obtain ⟨before, v, after⟩ := i
    rw [List.mapM_cons, ih, Spelling.depthItems, Spelling.valueItems?, limited?]
    by_cases hv : v.depth ≤ d
    · by_cases hitems : Spelling.depthItems items ≤ d <;> cases v.value? <;> simp [hv, hitems]
    · simp [hv]

theorem mapM_member?_limited? (d : Nat) (members : Members) :
    members.mapM (member? (limited? d)) =
      if Spelling.depthMembers members ≤ d then Spelling.valueMembers? members else none := by
  induction members with
  | nil => simp [Spelling.depthMembers, Spelling.valueMembers?]
  | cons m members ih =>
    obtain ⟨key, before, v, after⟩ := m
    rw [List.mapM_cons, ih, Spelling.depthMembers, Spelling.valueMembers?, member?, limited?]
    by_cases hv : v.depth ≤ d
    · by_cases hmembers : Spelling.depthMembers members ≤ d <;> cases string? key.inner <;>
        cases v.value? <;> simp [hv, hmembers]
    · cases string? key.inner <;> simp [hv]

/-- One container less may be nested in an item than in its list. -/
theorem limited?_arr (d : Nat) (blanks : Blanks) (items : Items) :
    limited? (d + 1) (.arr blanks items) = (items.mapM fun i => limited? d i.inner).map .arr := by
  rw [mapM_limited?, limited?, Spelling.depth, Spelling.value?]
  by_cases hdepth : Spelling.depthItems items ≤ d
  · rw [if_pos hdepth, if_pos (Nat.succ_le_succ hdepth)]
  · rw [if_neg hdepth, if_neg fun h => hdepth (Nat.le_of_succ_le_succ h)]
    rfl

theorem limited?_obj (d : Nat) (blanks : Blanks) (members : Members) :
    limited? (d + 1) (.obj blanks members) = (members.mapM (member? (limited? d))).map .obj := by
  rw [mapM_member?_limited?, limited?, Spelling.depth, Spelling.value?]
  by_cases hdepth : Spelling.depthMembers members ≤ d
  · rw [if_pos hdepth, if_pos (Nat.succ_le_succ hdepth)]
  · rw [if_neg hdepth, if_neg fun h => hdepth (Nat.le_of_succ_le_succ h)]
    rfl

/-- Every item takes a byte or more. -/
theorem length_le_itemsText (first : Bool) (items : Items) :
    items.length ≤ (Spelling.itemsText first items).length := by
  induction items generalizing first with
  | nil => exact Nat.zero_le _
  | cons i items ih =>
    obtain ⟨b, bytes, htext, -⟩ := startsValue_text i.inner []
    have hitems := ih false
    rw [List.append_nil] at htext
    have hsplit := itemsText_cons first i items []
    rw [List.append_nil, htext] at hsplit
    rw [hsplit]
    simp only [List.length_append, List.length_cons]
    omega

theorem length_le_membersText (first : Bool) (members : Members) :
    members.length ≤ (Spelling.membersText first members).length := by
  induction members generalizing first with
  | nil => exact Nat.zero_le _
  | cons m members ih =>
    have hmembers := ih false
    have hsplit := membersText_cons first m members []
    rw [List.append_nil] at hsplit
    rw [hsplit]
    simp only [List.length_append, List.length_cons]
    omega

/-- The text of a scalar is read from its first byte on. -/
theorem readScalar?_text {v : Spelling} (hscalar : v.depth = 0) {rest : Bytes}
    (hrest : EndsNumber rest) :
    ∃ b bytes result, v.text ++ rest = b :: bytes ∧ Byte.isSpace b = false ∧
      readScalar? (b :: bytes) = some result ∧ result.toOption = v.value?.map (·, rest) := by
  cases v with
  | arr | obj => exact absurd hscalar (Nat.succ_ne_zero _)
  | null => exact ⟨_, _, _, rfl, rfl, rfl, rfl⟩
  | bool b => cases b <;> exact ⟨_, _, _, rfl, rfl, rfl, rfl⟩
  | str s =>
    refine ⟨_, _, _, rfl, rfl, rfl, ?_⟩
    show ((readString (s.flatMap Piece.text ++ [Byte.quote] ++ rest)).map _).toOption = _
    rw [toOption_map, List.append_assoc, List.singleton_append, toOption_readString,
      Spelling.value?, Option.map_map, Option.map_map]
    rfl
  | number n =>
    have hread := toOption_readNumber n hrest
    rw [Spelling.text, Numeral.text, Spelling.value?]
    cases hnegative : n.negative with
    | true =>
      rw [hnegative] at hread
      exact ⟨_, _, _, rfl, rfl, rfl, hread⟩
    | false =>
      obtain ⟨b, bytes, htext, hb⟩ := exists_unsigned n
      rw [hnegative, htext] at hread
      rw [if_neg Bool.false_ne_true, htext]
      exact ⟨b, _, _, rfl, (not_isSpace_digit hb).1, readScalar?_digit hb _, hread⟩

theorem toOption_readValue_scalar {v : Spelling} (hscalar : v.depth = 0) (d : Nat) :
    ReadsAs (readValue d) (limited? d) v := by
  intro blanks rest hrest
  obtain ⟨b, bytes, result, htext, hspace, hread, hresult⟩ := readScalar?_text hscalar hrest
  have hnode : ∀ inner?, readNode readObject inner? (blanks.1 ++ b :: bytes) = result := by
    intro inner?
    rw [readNode, skipSpaces_append, skipSpaces_cons hspace]
    dsimp only
    rw [hread]
  have hvalue : readValue d (blanks.1 ++ b :: bytes) = result := by
    rw [readValue]
    cases d <;> rw [readValueBy, hnode]
  rw [limited?, if_pos (hscalar ▸ Nat.zero_le d), ← hresult, htext, hvalue]

/-- **A value is read as what its spelling stands for**, unless its containers are nested deeper
than allowed. -/
theorem toOption_readValue_text (v : Spelling) (d : Nat) :
    ReadsAs (readValue d) (limited? d) v := by
  induction v using Spelling.induction generalizing d with
  | null | bool | number | str => exact toOption_readValue_scalar rfl d
  | arr before items ih =>
    intro blanks rest hrest
    rw [Spelling.text, List.cons_append, List.append_assoc]
    cases d with
    | zero =>
      -- without room for one more container the opening bracket is refused
      rw [limited?, Spelling.depth, if_neg (Nat.not_succ_le_zero _), readValue, readValueBy,
        readNode, skipSpaces_append]
      rfl
    | succ d =>
      -- a step takes at least a byte, so the bytes bound the steps
      have hfuel : items.length <
          (before.1 ++ (Spelling.itemsText true items ++ rest)).length + 1 := by
        have hlength := length_le_itemsText true items
        simp only [List.length_append]
        omega
      have hitems := toOption_readItems_text (fun i hi => ih i hi d) true before rest hfuel
      rw [limited?_arr, readValue, readValueBy, readNode, skipSpaces_append]
      show (readItems (readValue d) true _ _ >>= _).toOption = _
      rw [toOption_bind, hitems]
      cases items.mapM fun i => limited? d i.inner <;> rfl
  | obj before members ih =>
    intro blanks rest hrest
    rw [Spelling.text, List.cons_append, List.append_assoc]
    cases d with
    | zero =>
      rw [limited?, Spelling.depth, if_neg (Nat.not_succ_le_zero _), readValue, readValueBy,
        readNode, skipSpaces_append]
      rfl
    | succ d =>
      have hfuel : members.length <
          (before.1 ++ (Spelling.membersText true members ++ rest)).length + 1 := by
        have hlength := length_le_membersText true members
        simp only [List.length_append]
        omega
      have hmembers := toOption_readMembers_text (fun m hm => ih m hm d) true before rest hfuel
      rw [limited?_obj, readValue, readValueBy, readNode, skipSpaces_append]
      show (readMembers (readValue d) true _ _ >>= _).toOption = _
      rw [toOption_bind, hmembers]
      cases members.mapM (member? (limited? d)) <;> rfl

/-! ## Texts -/

/-- **A text that follows the grammar is read as what it stands for**, unless its containers are
nested too deep. -/
theorem toOption_parse_text (t : Spaced Spelling) :
    (parse t.text).toOption = limited? maxDepth t.inner := by
  have hafter := endsNumber_nil.append t.after
  rw [List.append_nil] at hafter
  have hread := toOption_readValue_text t.inner maxDepth t.before t.after.1 hafter
  have hend : readEnd t.after.1 = .ok () := by
    have hskip := skipSpaces_append t.after []
    rw [List.append_nil] at hskip
    rw [readEnd, hskip]
    rfl
  show (readValue maxDepth _ >>= fun r => readEnd r.2 >>= fun _ => pure r.1).toOption = _
  rw [toOption_bind, Spaced.text, hread]
  cases limited? maxDepth t.inner with
  | none => rfl
  | some w =>
    show (readEnd t.after.1 >>= _).toOption = _
    rw [hend]
    rfl

end Invigilation.Json
