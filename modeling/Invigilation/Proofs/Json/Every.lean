import Invigilation.Json.Reader.Envelope

/-!
# Values all the way down

Most properties of a JSON value are properties of each value in it. This module has the induction
over values and their parts, and the values that travel unharmed.

- `Json.induction`: what holds of a container when it holds of its parts holds of every value.
- `Json.Every`: a property of a value and of all values in it.
- `Json.Plain`: the values whose text stands for themselves. Their numbers are integers of 64 bits,
  no key occurs twice in an object, and no object looks like an envelope.
- `Json.Plain.settled`, `Json.Plain.opened?`: a plain value has nothing to settle and no envelope to
  open.
-/

namespace Invigilation.Json

/-! ## Induction -/

/-- Induction over a value and the values in it. -/
@[elab_as_elim]
theorem induction {motive : Json → Prop} (null : motive .null) (bool : ∀ b, motive (.bool b))
    (int : ∀ n, motive (.int n)) (float : ∀ x, motive (.float x)) (str : ∀ s, motive (.str s))
    (arr : ∀ items, (∀ v ∈ items, motive v) → motive (.arr items))
    (obj : ∀ members, (∀ m ∈ members, motive m.2) → motive (.obj members)) (v : Json) :
    motive v :=
  @Json.rec motive (fun items => ∀ v ∈ items, motive v) (fun members => ∀ m ∈ members, motive m.2)
    (fun m => motive m.2) null bool int float str arr obj
    (fun _ h => absurd h List.not_mem_nil)
    (fun _ _ head tail v h => by
      rcases List.mem_cons.mp h with rfl | h
      · exact head
      · exact tail v h)
    (fun _ h => absurd h List.not_mem_nil)
    (fun _ _ head tail m h => by
      rcases List.mem_cons.mp h with rfl | h
      · exact head
      · exact tail m h)
    (fun _ _ h => h) v

variable {p q : Json → Prop}

/-! ## Depth -/

theorem depthItems_le_iff {items : List Json} {d : Nat} :
    depthItems items ≤ d ↔ ∀ v ∈ items, v.depth ≤ d := by
  induction items with
  | nil => simp [depthItems]
  | cons v rest ih => rw [depthItems, Nat.max_le, ih, List.forall_mem_cons]

theorem depthMembers_le_iff {members : List (String × Json)} {d : Nat} :
    depthMembers members ≤ d ↔ ∀ m ∈ members, m.2.depth ≤ d := by
  induction members with
  | nil => simp [depthMembers]
  | cons m rest ih => rw [depthMembers, Nat.max_le, ih, List.forall_mem_cons]

/-! ## Properties of all values in a value -/

mutual

/-- A property of a value and of all values in it. -/
def Every (p : Json → Prop) : Json → Prop
  | .arr items => p (.arr items) ∧ EveryItem p items
  | .obj members => p (.obj members) ∧ EveryMember p members
  | .null => p .null
  | .bool b => p (.bool b)
  | .int n => p (.int n)
  | .float x => p (.float x)
  | .str s => p (.str s)

def EveryItem (p : Json → Prop) : List Json → Prop
  | [] => True
  | v :: rest => Every p v ∧ EveryItem p rest

def EveryMember (p : Json → Prop) : List (String × Json) → Prop
  | [] => True
  | (_, v) :: rest => Every p v ∧ EveryMember p rest

end

theorem everyItem_iff {items : List Json} : EveryItem p items ↔ ∀ v ∈ items, v.Every p := by
  induction items with
  | nil => simp [EveryItem]
  | cons v rest ih => simp [EveryItem, ih]

theorem everyMember_iff {members : List (String × Json)} :
    EveryMember p members ↔ ∀ m ∈ members, m.2.Every p := by
  induction members with
  | nil => simp [EveryMember]
  | cons m rest ih => simp [EveryMember, ih]

theorem every_arr {items : List Json} :
    (Json.arr items).Every p ↔ p (.arr items) ∧ ∀ v ∈ items, v.Every p := by
  rw [← everyItem_iff]
  rfl

theorem every_obj {members : List (String × Json)} :
    (Json.obj members).Every p ↔ p (.obj members) ∧ ∀ m ∈ members, m.2.Every p := by
  rw [← everyMember_iff]
  rfl

/-- Two properties of all values in a value. -/
theorem Every.and {v : Json} (hp : v.Every p) (hq : v.Every q) :
    v.Every fun w => p w ∧ q w := by
  induction v using Json.induction with
  | null | bool | int | float | str => exact ⟨hp, hq⟩
  | arr items ih =>
    obtain ⟨hp, hps⟩ := every_arr.mp hp
    obtain ⟨hq, hqs⟩ := every_arr.mp hq
    exact every_arr.mpr ⟨⟨hp, hq⟩, fun v hv => ih v hv (hps v hv) (hqs v hv)⟩
  | obj members ih =>
    obtain ⟨hp, hps⟩ := every_obj.mp hp
    obtain ⟨hq, hqs⟩ := every_obj.mp hq
    exact every_obj.mpr ⟨⟨hp, hq⟩, fun m hm => ih m hm (hps m hm) (hqs m hm)⟩

theorem Every.imp {v : Json} (h : ∀ w, p w → q w) (hp : v.Every p) : v.Every q := by
  induction v using Json.induction with
  | null | bool | int | float | str => exact h _ hp
  | arr items ih =>
    obtain ⟨hp, hps⟩ := every_arr.mp hp
    exact every_arr.mpr ⟨h _ hp, fun v hv => ih v hv (hps v hv)⟩
  | obj members ih =>
    obtain ⟨hp, hps⟩ := every_obj.mp hp
    exact every_obj.mpr ⟨h _ hp, fun m hm => ih m hm (hps m hm)⟩

/-! ## Plain values -/

/-- The numbers that JSON text has as integers: those of 64 bits, with or without a sign. -/
def IsWord (n : Int) : Prop :=
  -(signedBound : Int) ≤ n ∧ n < unsignedBound

/-- A value that is no fraction. -/
def Integral : Json → Prop
  | .float _ => False
  | _ => True

/-- A value that could have been read: its integers have 64 bits, and it is no envelope. -/
def Readable : Json → Prop
  | .int n => IsWord n
  | .obj members => isEnvelope members = false
  | _ => True

/-- A value in which each key occurs once. -/
def Distinct : Json → Prop
  | .obj members => (members.map (·.1)).Nodup
  | _ => True

/-- A value whose text stands for itself. -/
def Plain (v : Json) : Prop :=
  v.Every fun w => Integral w ∧ Readable w ∧ Distinct w

theorem putMember_of_notMem {key : String} {value : Json} {members : List (String × Json)}
    (h : key ∉ members.map (·.1)) : putMember key value members = members ++ [(key, value)] := by
  induction members with
  | nil => rfl
  | cons m rest ih =>
    obtain ⟨k, v⟩ := m
    simp only [List.map_cons, List.mem_cons, not_or] at h
    rw [putMember, if_neg (Ne.symm h.1), ih h.2]
    rfl

/-- Members with keys of their own are merged one after the other. -/
theorem settledMembers_of_nodup {done members : List (String × Json)}
    (hkeys : ((done ++ members).map (·.1)).Nodup) (hsettled : ∀ m ∈ members, m.2.settled = m.2) :
    settledMembers done members = done ++ members := by
  induction members generalizing done with
  | nil => rw [settledMembers, List.append_nil]
  | cons m rest ih =>
    obtain ⟨k, v⟩ := m
    have hnew : k ∉ done.map (·.1) := by
      rw [List.map_append, List.nodup_append] at hkeys
      intro hk
      exact hkeys.2.2 k hk k (by simp) rfl
    have hv : v.settled = v := hsettled (k, v) List.mem_cons_self
    rw [settledMembers, hv, putMember_of_notMem hnew, ih]
    · rw [List.append_assoc, List.singleton_append]
    · rwa [List.append_assoc, List.singleton_append]
    · exact fun m hm => hsettled m (List.mem_cons_of_mem _ hm)

theorem settledItems_eq {items : List Json} (h : ∀ v ∈ items, v.settled = v) :
    settledItems items = items := by
  induction items with
  | nil => rfl
  | cons v rest ih =>
    rw [settledItems, h v List.mem_cons_self, ih fun w hw => h w (List.mem_cons_of_mem v hw)]

/-- A value in which no key occurs twice has nothing to settle. -/
theorem settled_of_distinct {v : Json} (h : v.Every Distinct) : v.settled = v := by
  induction v using Json.induction with
  | null | bool | int | float | str => rfl
  | arr items ih =>
    obtain ⟨-, hitems⟩ := every_arr.mp h
    exact congrArg Json.arr (settledItems_eq fun v hv => ih v hv (hitems v hv))
  | obj members ih =>
    obtain ⟨hkeys, hmembers⟩ := every_obj.mp h
    refine congrArg Json.obj (settledMembers_of_nodup hkeys ?_)
    exact fun m hm => ih m hm (hmembers m hm)

theorem openedItems?_eq {items : List Json} (h : ∀ v ∈ items, v.opened? = some v) :
    openedItems? items = some items := by
  induction items with
  | nil => rfl
  | cons v rest ih =>
    rw [openedItems?, h v List.mem_cons_self, ih fun w hw => h w (List.mem_cons_of_mem v hw)]
    rfl

theorem openedMembers?_eq {members : List (String × Json)}
    (h : ∀ m ∈ members, m.2.opened? = some m.2) : openedMembers? members = some members := by
  induction members with
  | nil => rfl
  | cons m rest ih =>
    obtain ⟨k, v⟩ := m
    have hv : v.opened? = some v := h (k, v) List.mem_cons_self
    rw [openedMembers?, hv, ih fun w hw => h w (List.mem_cons_of_mem _ hw)]
    rfl

/-- A value in which nothing looks like an envelope has none to open. -/
theorem opened?_of_readable {v : Json} (h : v.Every Readable) : v.opened? = some v := by
  induction v using Json.induction with
  | null | bool | int | float | str => rfl
  | arr items ih =>
    obtain ⟨-, hitems⟩ := every_arr.mp h
    rw [Json.opened?, openedItems?_eq fun v hv => ih v hv (hitems v hv)]
    rfl
  | obj members ih =>
    obtain ⟨hplain, hmembers⟩ := every_obj.mp h
    rw [Json.opened?, openedMembers?_eq fun m hm => ih m hm (hmembers m hm)]
    exact if_neg (by simpa [Readable] using hplain)

theorem Plain.settled {v : Json} (h : v.Plain) : v.settled = v :=
  settled_of_distinct (Every.imp (fun _ hw => hw.2.2) h)

theorem Plain.opened? {v : Json} (h : v.Plain) : v.opened? = some v :=
  opened?_of_readable (Every.imp (fun _ hw => hw.2.1) h)

end Invigilation.Json
