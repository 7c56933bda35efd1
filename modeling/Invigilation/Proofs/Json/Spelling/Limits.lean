import Mathlib.Data.List.Perm.Basic
import Invigilation.Proofs.Json.Origin
import Invigilation.Proofs.Json.Spelling.Values

/-!
# Texts within the limits

A text that follows the grammar is still refused if its containers are nested too deep, a number in
it is too large, or a surrogate in it is not one of a pair. This says nothing about the order of the
members of an object.

- `WithinLimits`, `Paired`: what a spelling must be to be read.
- `limited?_eq_some_iff`: **a text within the limits has a value when its surrogates are paired**.
- `Unenveloped`, `readable_value?`: no object of a text is an envelope if the key of envelopes does
  not occur.
- `WithinLimits.perm`, `Paired.perm`, `Unenveloped.perm`: the members of an object in another order.
-/

namespace Invigilation.Json.Spelling

/-- No container is nested too deep, and no number is too large. -/
structure WithinLimits (v : Spelling) : Prop where
  nesting : v.depth ≤ maxDepth
  numbers : ∀ n, .number n ∈ v.tokens → n.value?.isSome = true

/-- Every surrogate in a string or a key is one of a pair. -/
def Paired (v : Spelling) : Prop :=
  ∀ s, .str s ∈ v.tokens ∨ .key s ∈ v.tokens → (string? s).isSome = true

/-- The key of envelopes does not occur. -/
def Unenveloped (v : Spelling) : Prop :=
  ∀ s, .key s ∈ v.tokens → string? s ≠ some envelopeKey

theorem forall_isSound {v : Spelling} :
    (∀ t ∈ v.tokens, t.IsSound) ↔
      (∀ n, .number n ∈ v.tokens → n.value?.isSome = true) ∧ v.Paired := by
  constructor
  · intro h
    refine ⟨fun n => h (.number n), fun s hs => ?_⟩
    rcases hs with hs | hs
    · exact h (.str s) hs
    · exact h (.key s) hs
  · rintro ⟨hnumbers, hpaired⟩ t ht
    cases t with
    | number n => exact hnumbers n ht
    | str s => exact hpaired s (.inl ht)
    | key s => exact hpaired s (.inr ht)

theorem isSome_limited? (v : Spelling) :
    (limited? maxDepth v).isSome = true ↔ v.WithinLimits ∧ v.Paired := by
  rw [limited?]
  split
  · next hdepth =>
    rw [isSome_value?, forall_isSound]
    constructor
    · rintro ⟨hnumbers, hpaired⟩
      exact ⟨⟨hdepth, hnumbers⟩, hpaired⟩
    · rintro ⟨hlimits, hpaired⟩
      exact ⟨hlimits.numbers, hpaired⟩
  · next hdepth => exact iff_of_false Bool.false_ne_true fun h => hdepth h.1.nesting

theorem value?_of_limited? {v : Spelling} {n : Nat} {w : Json} (h : limited? n v = some w) :
    v.value? = some w := by
  rw [limited?] at h
  split at h
  · exact h
  · cases h

theorem limited?_eq_some_iff {v : Spelling} {w : Json} :
    limited? maxDepth v = some w ↔ v.WithinLimits ∧ v.Paired ∧ v.value? = some w := by
  constructor
  · intro h
    obtain ⟨hlimits, hpaired⟩ := (isSome_limited? v).mp (by rw [h]; rfl)
    exact ⟨hlimits, hpaired, value?_of_limited? h⟩
  · rintro ⟨hlimits, -, hvalue⟩
    rw [limited?, if_pos hlimits.nesting, hvalue]

/-! ## The values of parts -/

theorem map_value?_items {items : Items} {ws : List Json} (h : valueItems? items = some ws) :
    (items.map (·.inner)).map value? = ws.map some := by
  induction items generalizing ws with
  | nil =>
    cases h
    rfl
  | cons i items ih =>
    obtain ⟨before, v, after⟩ := i
    obtain ⟨w, hw, h⟩ := Option.bind_eq_some_iff.mp h
    obtain ⟨ws, hws, h⟩ := Option.bind_eq_some_iff.mp h
    cases h
    rw [List.map_cons, List.map_cons, List.map_cons, ih hws, hw]

/-- The values of members stand under what their keys stand for. -/
theorem map_value?_members {members : Members} {ws : List (String × Json)}
    (h : valueMembers? members = some ws) :
    members.map (fun m => (string? m.1.inner, m.2.inner.value?)) =
      ws.map fun w => (some w.1, some w.2) := by
  induction members generalizing ws with
  | nil =>
    cases h
    rfl
  | cons m members ih =>
    obtain ⟨key, before, v, after⟩ := m
    obtain ⟨k, hk, h⟩ := Option.bind_eq_some_iff.mp h
    obtain ⟨w, hw, h⟩ := Option.bind_eq_some_iff.mp h
    obtain ⟨ws, hws, h⟩ := Option.bind_eq_some_iff.mp h
    cases h
    rw [List.map_cons, List.map_cons, ih hws, hk, hw]

theorem exists_item {items : Items} {ws : List Json} (h : valueItems? items = some ws) {w : Json}
    (hw : w ∈ ws) : ∃ i ∈ items, i.inner.value? = some w := by
  have hmem : some w ∈ ws.map some := List.mem_map_of_mem hw
  rw [← map_value?_items h, List.map_map] at hmem
  exact List.mem_map.mp hmem

theorem exists_member {members : Members} {ws : List (String × Json)}
    (h : valueMembers? members = some ws) {w : String × Json} (hw : w ∈ ws) :
    ∃ m ∈ members, string? m.1.inner = some w.1 ∧ m.2.inner.value? = some w.2 := by
  have hmem : (some w.1, some w.2) ∈ ws.map fun w => (some w.1, some w.2) :=
    List.mem_map.mpr ⟨w, hw, rfl⟩
  rw [← map_value?_members h] at hmem
  obtain ⟨m, hm, heq⟩ := List.mem_map.mp hmem
  obtain ⟨hkey, hvalue⟩ := Prod.mk.inj heq
  exact ⟨m, hm, hkey, hvalue⟩

theorem mem_tokensItems {items : Items} {t : Token} :
    t ∈ tokensItems items ↔ ∃ i ∈ items, t ∈ i.inner.tokens := by
  induction items with
  | nil => simp [tokensItems]
  | cons i items ih => simp [tokensItems, ih]

theorem mem_tokensMembers {members : Members} {t : Token} :
    t ∈ tokensMembers members ↔ ∃ m ∈ members, t = .key m.1.inner ∨ t ∈ m.2.inner.tokens := by
  induction members with
  | nil => simp [tokensMembers]
  | cons m members ih => simp [tokensMembers, ih, or_assoc]

theorem depthMembers_le_iff {members : Members} {d : Nat} :
    depthMembers members ≤ d ↔ ∀ m ∈ members, m.2.inner.depth ≤ d := by
  induction members with
  | nil => simp [depthMembers]
  | cons m members ih => rw [depthMembers, Nat.max_le, ih, List.forall_mem_cons]

/-! ## Envelopes -/

theorem isNumber_value? {n : Numeral} {w : Json} (h : n.value? = some w) : IsNumber w := by
  have hread := toOption_readNumber n endsNumber_nil
  rw [h, Option.map_some] at hread
  cases hnumber : readNumber n.negative (n.unsigned ++ []) with
  | error fault =>
    rw [hnumber] at hread
    cases hread
  | ok r =>
    rw [hnumber] at hread
    cases hread
    exact yields_readNumber n.negative hnumber

/-- Where the key of envelopes does not occur, a spelling stands for a readable value. -/
theorem readable_value? {v : Spelling} (hplain : v.Unenveloped) {w : Json} (h : v.value? = some w) :
    w.Every Readable := by
  induction v using Spelling.induction generalizing w with
  | null | bool =>
    cases h
    trivial
  | number n => exact every_of_isNumber (isNumber_value? h)
  | str s =>
    obtain ⟨text, -, rfl⟩ := Option.map_eq_some_iff.mp h
    trivial
  | arr blanks items ih =>
    obtain ⟨ws, hws, rfl⟩ := Option.map_eq_some_iff.mp h
    refine every_arr.mpr ⟨trivial, fun w hw => ?_⟩
    obtain ⟨i, hi, hvalue⟩ := exists_item hws hw
    exact ih i hi (fun s hs => hplain s (mem_tokensItems.mpr ⟨i, hi, hs⟩)) hvalue
  | obj blanks members ih =>
    obtain ⟨ws, hws, rfl⟩ := Option.map_eq_some_iff.mp h
    have hkeys : ∀ w ∈ ws, w.1 ≠ envelopeKey := by
      rintro w hw heq
      obtain ⟨m, hm, hkey, -⟩ := exists_member hws hw
      refine hplain m.1.inner (mem_tokensMembers.mpr ⟨m, hm, .inl rfl⟩) ?_
      rw [hkey, heq]
    refine every_obj.mpr ⟨?_, fun w hw => ?_⟩
    · cases ws with
      | nil => rfl
      | cons w ws => simpa [Readable, isEnvelope] using hkeys w List.mem_cons_self
    · obtain ⟨m, hm, -, hvalue⟩ := exists_member hws hw
      exact ih m hm (fun s hs => hplain s (mem_tokensMembers.mpr ⟨m, hm, .inr hs⟩)) hvalue

/-- A value in which the key of envelopes does not occur. -/
def Unkeyed : Json → Prop
  | .obj members => envelopeKey ∉ members.map (·.1)
  | _ => True

/-- Where the key of envelopes does not occur in a value, it does not occur in its spelling. -/
theorem unenveloped_of_value? {v : Spelling} {w : Json} (h : v.value? = some w)
    (hkeys : w.Every Unkeyed) : v.Unenveloped := by
  induction v using Spelling.induction generalizing w with
  | null | bool | number | str =>
    intro s hs
    simp [tokens] at hs
  | arr blanks items ih =>
    obtain ⟨ws, hws, rfl⟩ := Option.map_eq_some_iff.mp h
    intro s hs
    obtain ⟨i, hi, hs⟩ := mem_tokensItems.mp hs
    have hmem : i.inner.value? ∈ (items.map (·.inner)).map value? :=
      List.mem_map_of_mem (List.mem_map_of_mem hi)
    rw [map_value?_items hws] at hmem
    obtain ⟨w, hw, hvalue⟩ := List.mem_map.mp hmem
    exact ih i hi hvalue.symm ((every_arr.mp hkeys).2 w hw) s hs
  | obj blanks members ih =>
    obtain ⟨ws, hws, rfl⟩ := Option.map_eq_some_iff.mp h
    obtain ⟨hnone, hvalues⟩ := every_obj.mp hkeys
    intro s hs
    obtain ⟨m, hm, hs⟩ := mem_tokensMembers.mp hs
    have hmem : (string? m.1.inner, m.2.inner.value?) ∈
        members.map fun m => (string? m.1.inner, m.2.inner.value?) := List.mem_map.mpr ⟨m, hm, rfl⟩
    rw [map_value?_members hws] at hmem
    obtain ⟨w, hw, heq⟩ := List.mem_map.mp hmem
    obtain ⟨hkey, hvalue⟩ := Prod.mk.inj heq
    rcases hs with hs | hs
    · obtain rfl : s = m.1.inner := Token.key.inj hs
      rw [← hkey]
      intro henvelope
      exact hnone (List.mem_map.mpr ⟨w, hw, Option.some_inj.mp henvelope⟩)
    · exact ih m hm hvalue.symm (hvalues w hw) s hs

/-! ## The order of members -/

section Order

variable {blanks blanks' : Blanks} {members members' : Members}

theorem mem_tokens_of_perm (h : members.Perm members') {t : Token}
    (ht : t ∈ (Spelling.obj blanks' members').tokens) :
    t ∈ (Spelling.obj blanks members).tokens := by
  rw [tokens, mem_tokensMembers] at ht ⊢
  obtain ⟨m, hm, ht⟩ := ht
  exact ⟨m, h.mem_iff.mpr hm, ht⟩

theorem WithinLimits.perm (h : members.Perm members')
    (hlimits : (Spelling.obj blanks members).WithinLimits) :
    (Spelling.obj blanks' members').WithinLimits := by
  constructor
  · have hdepth := depthMembers_le_iff.mp (Nat.le_of_succ_le_succ hlimits.nesting)
    refine Nat.succ_le_succ (depthMembers_le_iff.mpr fun m hm => ?_)
    exact hdepth m (h.mem_iff.mpr hm)
  · intro n hn
    exact hlimits.numbers n (mem_tokens_of_perm h hn)

theorem Paired.perm (h : members.Perm members') (hpaired : (Spelling.obj blanks members).Paired) :
    (Spelling.obj blanks' members').Paired := by
  intro s hs
  exact hpaired s (hs.imp (mem_tokens_of_perm h) (mem_tokens_of_perm h))

theorem Unenveloped.perm (h : members.Perm members')
    (hplain : (Spelling.obj blanks members).Unenveloped) :
    (Spelling.obj blanks' members').Unenveloped := by
  intro s hs
  exact hplain s (mem_tokens_of_perm h hs)

end Order

end Invigilation.Json.Spelling
