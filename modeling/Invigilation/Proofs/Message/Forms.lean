import Invigilation.Proofs.Json.Spelling.Limits
import Invigilation.Proofs.Message.Wire

/-!
# The two forms of a message

A message is an object with one member `type`, or a list that starts with the type. Some types carry
options, in a second member or item.

- `HasForm`: a text that has one of the two forms, with its type and its options.
- `SameMembers`: objects that agree in the members that count.
- `Json.form?`: the type and the options of a value.
- `HasForm.form?_value`, `exists_hasForm`: **a text has the form that its value has**.
- `HasForm.of_sameMembers`: members that do not count change no form.
-/

namespace Invigilation

open Json (Spelling Members Blanks string?)

/-! ## Forms -/

/-- The values of the members whose key stands for a text. -/
def Json.Spelling.valuesUnder (key : String) (members : Members) : List Spelling :=
  (members.filter fun m => string? m.1.inner = some key).map (·.2.inner)

open Json.Spelling (valuesUnder)

/-- A spelling has the form of a message with a type and maybe options, where only messages of the
types `carriers` have options. -/
inductive HasForm (carriers : List String) : Spelling → String → Option Spelling → Prop where
  /-- An object with one type. In a message without options the members under that key are like any
  others. -/
  | object {blanks members s name options} (htype : valuesUnder "type" members = [.str s])
      (hname : string? s = some name)
      (hcarrier : name ∈ carriers → valuesUnder "options" members = options.toList)
      (hbare : name ∉ carriers → options = none) :
      HasForm carriers (.obj blanks members) name options
  /-- A list of the type and the options. -/
  | list {blanks items s name options}
      (hitems : items.map (·.inner) = .str s :: Option.toList options)
      (hname : string? s = some name) (hbare : name ∉ carriers → options = none) :
      HasForm carriers (.arr blanks items) name options

/-- Members that are the same under the keys that count, whatever their order. The options count
where the type carries them. -/
def SameMembers (carriers : List String) (members members' : Members) : Prop :=
  (valuesUnder "type" members).Perm (valuesUnder "type" members') ∧
    ∀ s name, .str s ∈ valuesUnder "type" members → string? s = some name → name ∈ carriers →
      (valuesUnder "options" members).Perm (valuesUnder "options" members')

variable {carriers : List String}

/-! ## Forms of values -/

/-- The type name and the options of a JSON value that has the form of a message. -/
def Json.form? (carriers : List String) : Json → Option (String × Option Json)
  | .obj members =>
    match Json.valuesOf "type" members with
    | [.str name] =>
      if name ∈ carriers then
        match Json.valuesOf "options" members with
        | [] => some (name, none)
        | [options] => some (name, some options)
        | _ => none
      else some (name, none)
    | _ => none
  | .arr [.str name] => some (name, none)
  | .arr [.str name, options] => if name ∈ carriers then some (name, some options) else none
  | _ => none

/-- An object has the form of a message by its members under two keys. -/
theorem form?_obj_iff {ws : List (String × Json)} {name : String} {options : Option Json} :
    (Json.obj ws).form? carriers = some (name, options) ↔
      Json.valuesOf "type" ws = [.str name] ∧
        (name ∈ carriers → Json.valuesOf "options" ws = options.toList) ∧
          (name ∉ carriers → options = none) := by
  constructor
  · intro h
    rw [Json.form?] at h
    split at h
    · next htype =>
      split at h
      · next hmem =>
        split at h
        · next hoptions =>
          cases h
          exact ⟨htype, fun _ => hoptions, fun _ => rfl⟩
        · next hoptions =>
          cases h
          exact ⟨htype, fun _ => hoptions, fun hbare => absurd hmem hbare⟩
        · cases h
      · next hmem =>
        cases h
        exact ⟨htype, fun hcarrier => absurd hcarrier hmem, fun _ => rfl⟩
    · cases h
  · rintro ⟨htype, hcarrier, hbare⟩
    rw [Json.form?, htype]
    dsimp only
    by_cases hmem : name ∈ carriers
    · rw [if_pos hmem, hcarrier hmem]
      cases options <;> rfl
    · rw [if_neg hmem, hbare hmem]

theorem form?_arr_iff {ws : List Json} {name : String} {options : Option Json} :
    (Json.arr ws).form? carriers = some (name, options) ↔
      ws = .str name :: options.toList ∧ (name ∉ carriers → options = none) := by
  constructor
  · intro h
    unfold Json.form? at h
    split at h
    · next heq => cases heq
    · next heq =>
      cases heq
      cases h
      exact ⟨rfl, fun _ => rfl⟩
    · next heq =>
      cases heq
      split at h
      · next hmem =>
        cases h
        exact ⟨rfl, fun hbare => absurd hmem hbare⟩
      · cases h
    · cases h
  · rintro ⟨rfl, hbare⟩
    cases options with
    | none => rfl
    | some o =>
      have hmem : name ∈ carriers := not_not.mp fun h => nomatch hbare h
      exact if_pos hmem

/-- The options of a message are a part of it. -/
theorem readable_form? {w : Json} (hw : w.Every Json.Readable) {name : String} {o : Json}
    (h : w.form? carriers = some (name, some o)) : o.Every Json.Readable := by
  cases w with
  | null | bool | int | float | str => cases h
  | arr items =>
    obtain ⟨rfl, -⟩ := form?_arr_iff.mp h
    exact (Json.every_arr.mp hw).2 o (by simp)
  | obj members =>
    obtain ⟨-, hcarrier, hbare⟩ := form?_obj_iff.mp h
    by_cases hmem : name ∈ carriers
    · have ho : o ∈ Json.valuesOf "options" members := by
        rw [hcarrier hmem]
        exact List.mem_singleton_self o
      obtain ⟨m, hm, rfl⟩ := List.mem_map.mp ho
      exact (Json.every_obj.mp hw).2 m (List.mem_of_mem_filter hm)
    · cases hbare hmem

/-! ## Forms of texts -/

/-- The values under a key are those of the members that spell it. -/
theorem map_value?_valuesUnder {members : Members} {ws : List (String × Json)}
    (h : Spelling.valueMembers? members = some ws) (key : String) :
    (valuesUnder key members).map Spelling.value? = (Json.valuesOf key ws).map some := by
  have hpairs := congrArg (fun pairs => (pairs.filter (·.1 = some key)).map (·.2))
    (Spelling.map_value?_members h)
  simpa [List.filter_map, Function.comp_def, valuesUnder, Json.valuesOf] using hpairs

theorem exists_str {v : Spelling} {name : String} (h : v.value? = some (.str name)) :
    ∃ s, v = .str s ∧ string? s = some name := by
  cases v with
  | null | bool => cases h
  | number n => exact absurd (Spelling.isNumber_value? h) id
  | str s =>
    obtain ⟨text, hs, heq⟩ := Option.map_eq_some_iff.mp h
    cases heq
    exact ⟨s, rfl, hs⟩
  | arr | obj =>
    obtain ⟨ws, -, heq⟩ := Option.map_eq_some_iff.mp h
    cases heq

/-- Values that are there or not, and what they are spelt as. -/
theorem map_toList {vs : List Spelling} {options : Option Spelling} {ws : List Json}
    (h : vs.map Spelling.value? = ws.map some) (hvs : vs = options.toList) :
    ws = (options.bind Spelling.value?).toList := by
  subst hvs
  cases options with
  | none => exact List.map_eq_nil_iff.mp h.symm
  | some o =>
    obtain ⟨w, rfl, hw⟩ := List.map_eq_singleton_iff.mp h.symm
    rw [Option.bind_some, ← hw]
    rfl

theorem exists_toList {vs : List Spelling} {options : Option Json}
    (h : vs.map Spelling.value? = options.toList.map some) :
    ∃ spelt : Option Spelling, vs = spelt.toList ∧ (options = none → spelt = none) := by
  cases options with
  | none => exact ⟨none, List.map_eq_nil_iff.mp h, fun _ => rfl⟩
  | some o =>
    obtain ⟨v, rfl, -⟩ := List.map_eq_singleton_iff.mp h
    exact ⟨some v, rfl, nofun⟩

/-- The value of a text has the form of the text. -/
theorem HasForm.form?_value {v : Spelling} {w : Json} {name : String} {options : Option Spelling}
    (h : HasForm carriers v name options) (hv : v.value? = some w) :
    w.form? carriers = some (name, options.bind Spelling.value?) := by
  cases h with
  | object htype hname hcarrier hbare =>
    obtain ⟨ws, hws, rfl⟩ := Option.map_eq_some_iff.mp hv
    have htypes := map_value?_valuesUnder hws "type"
    rw [htype, List.map_singleton, Spelling.value?, hname] at htypes
    obtain ⟨_, htypes, heq⟩ := List.map_eq_singleton_iff.mp htypes.symm
    cases heq
    -- the members under the key of the options count where the type carries them
    refine form?_obj_iff.mpr ⟨htypes, fun hmem => ?_, fun hmem => ?_⟩
    · exact map_toList (map_value?_valuesUnder hws "options") (hcarrier hmem)
    · rw [hbare hmem, Option.bind_none]
  | list hitems hname hbare =>
    obtain ⟨ws, hws, rfl⟩ := Option.map_eq_some_iff.mp hv
    have hvalues := Spelling.map_value?_items hws
    rw [hitems, List.map_cons, Spelling.value?, hname] at hvalues
    obtain ⟨_, rest, rfl, heq, hrest⟩ := List.map_eq_cons_iff.mp hvalues.symm
    cases heq
    refine form?_arr_iff.mpr ⟨?_, fun hmem => ?_⟩
    · rw [map_toList hrest.symm rfl]
    · rw [hbare hmem, Option.bind_none]

/-- A text has the form that its value has. -/
theorem exists_hasForm {v : Spelling} {w : Json} {name : String} {options : Option Json}
    (hv : v.value? = some w) (h : w.form? carriers = some (name, options)) :
    ∃ spelt, HasForm carriers v name spelt := by
  -- no scalar has a form
  cases v with
  | null | bool =>
    cases hv
    cases h
  | number n =>
    have hnumber := Spelling.isNumber_value? hv
    cases w with
    | int | float => cases h
    | null | bool | str | arr | obj => exact absurd hnumber id
  | str s =>
    obtain ⟨text, -, rfl⟩ := Option.map_eq_some_iff.mp hv
    cases h
  | arr blanks items =>
    obtain ⟨ws, hws, rfl⟩ := Option.map_eq_some_iff.mp hv
    obtain ⟨rfl, hbare⟩ := form?_arr_iff.mp h
    obtain ⟨v, vs, hitems, hv, hvs⟩ := List.map_eq_cons_iff.mp (Spelling.map_value?_items hws)
    obtain ⟨s, rfl, hname⟩ := exists_str hv
    obtain ⟨spelt, rfl, hspelt⟩ := exists_toList hvs
    exact ⟨spelt, .list hitems hname fun hmem => hspelt (hbare hmem)⟩
  | obj blanks members =>
    obtain ⟨ws, hws, rfl⟩ := Option.map_eq_some_iff.mp hv
    obtain ⟨htype, hcarrier, hbare⟩ := form?_obj_iff.mp h
    have htypes := map_value?_valuesUnder hws "type"
    rw [htype] at htypes
    obtain ⟨v, htypes, hv⟩ := List.map_eq_singleton_iff.mp htypes
    obtain ⟨s, rfl, hname⟩ := exists_str hv
    by_cases hmem : name ∈ carriers
    · have hoptions := map_value?_valuesUnder hws "options"
      rw [hcarrier hmem] at hoptions
      obtain ⟨spelt, hspelt, -⟩ := exists_toList hoptions
      exact ⟨spelt, .object htypes hname (fun _ => hspelt) fun hnot => absurd hmem hnot⟩
    · exact ⟨none, .object htypes hname (fun h => absurd h hmem) fun _ => rfl⟩

/-! ## Members that do not count -/

theorem toList_of_perm {α : Type} {options : Option α} {as : List α}
    (h : options.toList.Perm as) : as = options.toList := by
  cases options with
  | none => exact List.nil_perm.mp h
  | some o => exact (List.singleton_perm.mp h).symm

theorem perm_valuesUnder {members members' : Members} (h : members.Perm members') (key : String) :
    (valuesUnder key members).Perm (valuesUnder key members') :=
  (h.filter _).map _

theorem SameMembers.symm {members members' : Members} (h : SameMembers carriers members members') :
    SameMembers carriers members' members := by
  refine ⟨h.1.symm, fun s name hs hname hmem => ?_⟩
  exact (h.2 s name (h.1.mem_iff.mpr hs) hname hmem).symm

theorem HasForm.of_sameMembers {blanks blanks' : Blanks} {members members' : Members}
    {name : String} {options : Option Spelling} (hsame : SameMembers carriers members members')
    (h : HasForm carriers (.obj blanks members) name options) :
    HasForm carriers (.obj blanks' members') name options := by
  cases h with
  | @object _ _ s _ _ htype hname hcarrier hbare =>
    obtain ⟨htypes, hoptions⟩ := hsame
    have hmem : Spelling.str s ∈ valuesUnder "type" members := htype ▸ List.mem_singleton_self _
    rw [htype] at htypes
    refine .object (List.singleton_perm.mp htypes).symm hname (fun hcarries => ?_) hbare
    have hperm := hoptions s name hmem hname hcarries
    rw [hcarrier hcarries] at hperm
    exact toList_of_perm hperm

end Invigilation
