import Invigilation.Proofs.Message.Forms

/-!
# The grammar of messages

A text of JSON is a message if it has one of the two forms and can be read at all. Its type and its
options decide which message it is, and nothing else in it does.

- `Dialect`: the messages of one direction, their texts and their types.
- `Grammatical`: what a dialect owes to the texts of JSON.
- `Dialect.ReadsForms`: a dialect that goes by the forms of texts.
- `dialects_grammatical`: **both directions read exactly the two forms**.
- `lone_surrogate_wide_integer`: a text may be refused for more than its form, and an integer may be
  too wide to be written as it was read.
-/

namespace Invigilation

open Text (Bytes)
open Json (IsEscaped Piece Spelling Spaced Members Blanks noBlanks string? limited?)
open Json.Spelling (valuesUnder)

/-! ## Dialects -/

/-- The messages of one direction. -/
structure Dialect (M : Type) where
  decode? : Bytes → Option M
  wire : M → String
  toJson : M → Json
  /-- The names of the types whose messages have options. -/
  carriers : List String
  /-- The types that have a message of their own. -/
  known : List MessageType
  /-- The message for all other types. -/
  unknown : M
  /-- The message of the type with a name, with the value of its options. -/
  message : String → Json → M

/-- The message of a type with a name. The keys that are repeated in options are merged. -/
def HostMessage.ofType (name : String) (options : Json) : HostMessage :=
  if name = "config" then .config options.settled
  else if name = "startExamAttempt" then .prompt .start
  else if name = "endExamAttempt" then .prompt .finish
  else if name = "ping" then .prompt .ping
  else .unknown

/-- The messages to a worker. -/
def HostMessage.dialect : Dialect HostMessage where
  decode? := HostMessage.decode?
  wire := HostMessage.wire
  toJson := HostMessage.toJson
  carriers := ["config"]
  known := [.config, .startExamAttempt, .endExamAttempt, .ping]
  unknown := .unknown
  message := HostMessage.ofType

/-- The message of a type with a name. -/
def WorkerMessage.ofType (name : String) : WorkerMessage :=
  if name = "examAttemptStarted" then .response .start
  else if name = "examAttemptEnded" then .response .finish
  else if name = "echo" then .response .ping
  else .unknown

/-- The messages of a worker. -/
def WorkerMessage.dialect : Dialect WorkerMessage where
  decode? := WorkerMessage.decode?
  wire := WorkerMessage.wire
  toJson := WorkerMessage.toJson
  carriers := []
  known := [.examAttemptStarted, .examAttemptEnded, .echo]
  unknown := .unknown
  message name _ := WorkerMessage.ofType name

variable {M : Type} {d : Dialect M}

/-- What a dialect owes to the texts of JSON in which the key of envelopes does not occur. -/
structure Grammatical (d : Dialect M) : Prop where
  /-- The texts that are messages. -/
  accepted (t : Spaced Spelling) : t.inner.Unenveloped →
    ((d.decode? t.text).isSome = true ↔
      t.inner.WithinLimits ∧ t.inner.Paired ∧
        ∃ name options, HasForm d.carriers t.inner name options)
  /-- The message of a text goes by its type and its options, and missing options are null. -/
  decoded (t : Spaced Spelling) (name : String) (options : Option Spelling) :
    t.inner.Unenveloped → t.inner.WithinLimits → t.inner.Paired →
      HasForm d.carriers t.inner name options →
        d.decode? t.text = some (d.message name ((options.bind Spelling.value?).getD .null))
  /-- Every type that is not known gives one and the same message. -/
  unknown (name : String) (options : Json) : name ∉ d.known.map MessageType.name →
    d.message name options = d.unknown
  /-- The order of the members does not count. -/
  reordered (before after before' after' blanks blanks' : Blanks) (members members' : Members) :
    (Spelling.obj blanks members).Unenveloped → members.Perm members' →
      d.decode? (Spaced.text ⟨before, .obj blanks members, after⟩) =
        d.decode? (Spaced.text ⟨before', .obj blanks' members', after'⟩)
  /-- Members under other keys do not count, as long as they can be read, nor do the options of a
  type that carries none. -/
  indifferent (before after before' after' blanks blanks' : Blanks) (members members' : Members) :
    (∀ v ∈ [Spelling.obj blanks members, .obj blanks' members'],
      v.Unenveloped ∧ v.WithinLimits ∧ v.Paired) → SameMembers d.carriers members members' →
        d.decode? (Spaced.text ⟨before, .obj blanks members, after⟩) =
          d.decode? (Spaced.text ⟨before', .obj blanks' members', after'⟩)
  /-- A message that was read is written so that it can be read again. -/
  reencoded (t : Spaced Spelling) (m : M) : t.inner.Unenveloped → d.decode? t.text = some m →
    (d.toJson m).Every Json.Integral → (d.toJson m).depth ≤ Json.maxDepth →
      d.decode? (Text.toBytes (d.wire m)) = some m

/-! ## Reading by forms -/

/-- A dialect reads a text by the form of what it stands for. -/
def Dialect.ReadsForms (d : Dialect M) : Prop :=
  ∀ t : Spaced Spelling, t.inner.Unenveloped →
    d.decode? t.text = (limited? Json.maxDepth t.inner).bind fun w =>
      (w.form? d.carriers).map fun f => d.message f.1 (f.2.getD .null)

namespace Dialect.ReadsForms

theorem decoded (hd : d.ReadsForms) {t : Spaced Spelling} {name : String}
    {options : Option Spelling} (hplain : t.inner.Unenveloped) (hlimits : t.inner.WithinLimits)
    (hpaired : t.inner.Paired) (hform : HasForm d.carriers t.inner name options) :
    d.decode? t.text = some (d.message name ((options.bind Spelling.value?).getD .null)) := by
  obtain ⟨w, hw⟩ := Option.isSome_iff_exists.mp
    ((Spelling.isSome_limited? t.inner).mpr ⟨hlimits, hpaired⟩)
  rw [hd t hplain, hw, Option.bind_some, hform.form?_value (Spelling.value?_of_limited? hw)]
  rfl

theorem accepted (hd : d.ReadsForms) (t : Spaced Spelling) (hplain : t.inner.Unenveloped) :
    (d.decode? t.text).isSome = true ↔ t.inner.WithinLimits ∧ t.inner.Paired ∧
      ∃ name options, HasForm d.carriers t.inner name options := by
  constructor
  · intro h
    rw [hd t hplain] at h
    cases hlimited : limited? Json.maxDepth t.inner with
    | none =>
      rw [hlimited] at h
      cases h
    | some w =>
      obtain ⟨hlimits, hpaired⟩ := (Spelling.isSome_limited? t.inner).mp (hlimited ▸ rfl)
      rw [hlimited, Option.bind_some, Option.isSome_map] at h
      obtain ⟨⟨name, options⟩, hform⟩ := Option.isSome_iff_exists.mp h
      obtain ⟨spelt, hspelt⟩ := exists_hasForm (Spelling.value?_of_limited? hlimited) hform
      exact ⟨hlimits, hpaired, name, spelt, hspelt⟩
  · rintro ⟨hlimits, hpaired, name, options, hform⟩
    rw [decoded hd hplain hlimits hpaired hform]
    rfl

/-- Two texts that are sound under the same conditions and have the same forms. -/
theorem decode?_congr (hd : d.ReadsForms) {t u : Spaced Spelling} (ht : t.inner.Unenveloped)
    (hu : u.inner.Unenveloped) (hlimits : t.inner.WithinLimits ↔ u.inner.WithinLimits)
    (hpaired : t.inner.Paired ↔ u.inner.Paired)
    (hforms : ∀ name options, HasForm d.carriers t.inner name options ↔
      HasForm d.carriers u.inner name options) : d.decode? t.text = d.decode? u.text := by
  by_cases hread : (d.decode? t.text).isSome = true
  · obtain ⟨hl, hp, name, options, hform⟩ := (accepted hd t ht).mp hread
    rw [decoded hd ht hl hp hform,
      decoded hd hu (hlimits.mp hl) (hpaired.mp hp) ((hforms name options).mp hform)]
  · have hread' : ¬ (d.decode? u.text).isSome = true := by
      rw [accepted hd t ht] at hread
      rw [accepted hd u hu]
      simpa only [hlimits, hpaired, hforms] using hread
    rw [Option.not_isSome_iff_eq_none.mp hread, Option.not_isSome_iff_eq_none.mp hread']

variable {before after before' after' blanks blanks' : Blanks} {members members' : Members}

theorem reordered (hd : d.ReadsForms) (hplain : (Spelling.obj blanks members).Unenveloped)
    (h : members.Perm members') :
    d.decode? (Spaced.text ⟨before, .obj blanks members, after⟩) =
      d.decode? (Spaced.text ⟨before', .obj blanks' members', after'⟩) := by
  have hsame : SameMembers d.carriers members members' :=
    ⟨perm_valuesUnder h "type", fun _ _ _ _ _ => perm_valuesUnder h "options"⟩
  refine decode?_congr hd hplain (hplain.perm h) ?_ ?_ ?_
  · exact ⟨.perm h, .perm h.symm⟩
  · exact ⟨.perm h, .perm h.symm⟩
  · exact fun _ _ => ⟨.of_sameMembers hsame, .of_sameMembers hsame.symm⟩

theorem indifferent (hd : d.ReadsForms)
    (hsound : ∀ v ∈ [Spelling.obj blanks members, .obj blanks' members'],
      v.Unenveloped ∧ v.WithinLimits ∧ v.Paired) (hsame : SameMembers d.carriers members members') :
    d.decode? (Spaced.text ⟨before, .obj blanks members, after⟩) =
      d.decode? (Spaced.text ⟨before', .obj blanks' members', after'⟩) := by
  obtain ⟨hplain, hlimits, hpaired⟩ := hsound _ List.mem_cons_self
  obtain ⟨hplain', hlimits', hpaired'⟩ := hsound _ (List.mem_cons_of_mem _ List.mem_cons_self)
  refine decode?_congr hd hplain hplain' ?_ ?_ ?_
  · exact iff_of_true hlimits hlimits'
  · exact iff_of_true hpaired hpaired'
  · exact fun _ _ => ⟨.of_sameMembers hsame, .of_sameMembers hsame.symm⟩

/-- All of the grammar, for a dialect that writes what it can read again. -/
theorem grammatical (hd : d.ReadsForms)
    (hunknown : ∀ name, name ∉ d.known.map MessageType.name → ∀ options,
      d.message name options = d.unknown)
    (hreencoded : ∀ (t : Spaced Spelling) m, t.inner.Unenveloped → d.decode? t.text = some m →
      (d.toJson m).Every Json.Integral → (d.toJson m).depth ≤ Json.maxDepth →
        d.decode? (Text.toBytes (d.wire m)) = some m) : Grammatical d where
  accepted := accepted hd
  decoded _ _ _ := decoded hd
  unknown name options h := hunknown name h options
  reordered _ _ _ _ _ _ _ _ := reordered hd
  indifferent _ _ _ _ _ _ _ _ := indifferent hd
  reencoded := hreencoded

end Dialect.ReadsForms

/-! ## The two directions -/

/-- A dialect that takes values by their forms takes texts by theirs. -/
theorem Dialect.readsForms {ofJson? : Json → Option M}
    (hdecode : ∀ text, d.decode? text = (Json.parse text).toOption.bind ofJson?)
    (hvalue : ∀ w, w.Every Json.Readable →
      ofJson? w = (w.form? d.carriers).map fun f => d.message f.1 (f.2.getD .null)) :
    d.ReadsForms := by
  intro t hplain
  rw [hdecode, Json.toOption_parse_text]
  cases hlimited : limited? Json.maxDepth t.inner with
  | none => rfl
  | some w =>
    have hreadable := Spelling.readable_value? hplain (Spelling.value?_of_limited? hlimited)
    rw [Option.bind_some, Option.bind_some, hvalue w hreadable]

namespace HostMessage

theorem named_eq (name : String) : named name = ofType name .null := by
  rw [named]
  cases h : MessageType.ofName? name with
  | some t =>
    obtain rfl : t.name = name := by simpa using List.find?_some h
    cases t <;> rfl
  | none =>
    have hne : ∀ t ∈ MessageType.all, name ≠ t.name := by
      simpa [eq_comm] using List.find?_eq_none.mp h
    have hconfig := hne .config (by decide)
    have hstart := hne .startExamAttempt (by decide)
    have hend := hne .endExamAttempt (by decide)
    have hping := hne .ping (by decide)
    exact ((if_neg hconfig).trans ((if_neg hstart).trans ((if_neg hend).trans (if_neg hping)))).symm

theorem configured?_eq {o : Json} (h : o.Every Json.Readable) :
    configured? o = some (ofType MessageType.config.name o) := by
  rw [configured?, Json.opened?_of_readable h, Option.map_some]
  rfl

/-- A list is read by its form. -/
theorem ofJson?_arr {items : List Json} (hitems : ∀ v ∈ items, v.Every Json.Readable) :
    ofJson? (.arr items) = ((Json.arr items).form? [MessageType.config.name]).map fun f =>
      ofType f.1 (f.2.getD .null) := by
  -- one item is the type, a second one the options
  rcases items with _ | ⟨v, _ | ⟨o, _ | ⟨o', rest⟩⟩⟩
  · rfl
  · cases v with
    | str name => exact congrArg some (named_eq name)
    | null | bool | int | float | arr | obj => rfl
  · cases v with
    | null | bool | int | float | arr | obj => rfl
    | str name =>
      rw [ofJson?, Json.form?]
      by_cases hname : name = MessageType.config.name
      · subst hname
        rw [if_pos rfl, configured?_eq (hitems o (by simp)), if_pos List.mem_cons_self]
        rfl
      · rw [if_neg hname, if_neg (by simpa using hname)]
        rfl
  · cases v <;> rfl

/-- An object is read by its form. -/
theorem ofJson?_obj {members : List (String × Json)}
    (hmembers : ∀ m ∈ members, m.2.Every Json.Readable) :
    ofJson? (.obj members) = ((Json.obj members).form? [MessageType.config.name]).map fun f =>
      ofType f.1 (f.2.getD .null) := by
  rw [ofJson?, Json.form?]
  rcases htypes : Json.valuesOf "type" members with _ | ⟨v, _ | ⟨v', rest⟩⟩
  · rfl
  · cases v with
    | null | bool | int | float | arr | obj => rfl
    | str name =>
      dsimp only
      by_cases hname : name = MessageType.config.name
      · rw [if_pos hname, if_pos (by simpa using hname)]
        rcases hoptions : Json.valuesOf "options" members with _ | ⟨o, _ | ⟨o', rest⟩⟩
        · exact congrArg some (named_eq name)
        · have hmem : o ∈ Json.valuesOf "options" members := hoptions ▸ List.mem_cons_self
          obtain ⟨m, hm, rfl⟩ := List.mem_map.mp hmem
          dsimp only
          rw [configured?_eq (hmembers m (List.mem_of_mem_filter hm)), hname]
          rfl
        · rfl
      -- whatever else the members are, only the type counts
      · rw [if_neg hname, if_neg (by simpa using hname), named_eq]
        rfl
  · cases v <;> rfl

theorem ofJson?_eq_form? {w : Json} (hw : w.Every Json.Readable) :
    ofJson? w =
      (w.form? [MessageType.config.name]).map fun f => ofType f.1 (f.2.getD .null) := by
  cases w with
  | null | bool | int | float | str => rfl
  | arr items => exact ofJson?_arr (Json.every_arr.mp hw).2
  | obj members => exact ofJson?_obj (Json.every_obj.mp hw).2

theorem readsForms : dialect.ReadsForms :=
  Dialect.readsForms decode?_eq fun _ => ofJson?_eq_form?

theorem ofType_eq_unknown {name : String} (h : name ∉ dialect.known.map MessageType.name)
    (options : Json) : ofType name options = .unknown := by
  simp only [dialect, List.map_cons, List.map_nil, List.mem_cons, List.not_mem_nil, not_or] at h
  obtain ⟨hconfig, hstart, hend, hping, -⟩ := h
  exact (if_neg hconfig).trans ((if_neg hstart).trans ((if_neg hend).trans (if_neg hping)))

/-- Only a configuration has options, and they are settled. -/
theorem settled_of_ofType {name : String} {v options : Json} (h : ofType name v = .config options) :
    options = v.settled := by
  unfold ofType at h
  split at h
  · cases h
    rfl
  -- no other type gives a configuration
  split at h
  · cases h
  split at h
  · cases h
  split at h
  · cases h
  · cases h

/-- A message that was read is plain when its numbers are integers. -/
theorem isPlain_of_decode? {t : Spaced Spelling} (hplain : t.inner.Unenveloped) {m : HostMessage}
    (h : decode? t.text = some m) (hintegral : m.toJson.Every Json.Integral) : m.IsPlain := by
  cases m with
  | prompt | unknown => trivial
  | config options =>
    have hread := (readsForms t hplain).symm.trans h
    obtain ⟨w, hw, hread⟩ := Option.bind_eq_some_iff.mp hread
    obtain ⟨⟨name, o⟩, hform, hmessage⟩ := Option.map_eq_some_iff.mp hread
    obtain rfl := settled_of_ofType hmessage
    have hvalue := Spelling.readable_value? hplain (Spelling.value?_of_limited? hw)
    have hreadable : (o.getD .null).Every Json.Readable := by
      cases o with
      | none => trivial
      | some o => exact readable_form? hvalue hform
    have hsettled : ((o.getD .null).settled).Every Json.Integral :=
      (Json.every_obj.mp hintegral).2 ("options", _) (by simp)
    exact hsettled.and ((Json.readable_settled hreadable).and (Json.distinct_settled _))

/-- A message is read again unless it is nested too deep. -/
theorem decode?_wire {m : HostMessage} (h : m.IsPlain) (hdepth : m.toJson.depth ≤ Json.maxDepth) :
    decode? (Text.toBytes m.wire) = some m := by
  rw [decode?_eq, wire, Json.toOption_parse (plain_toJson h), if_pos hdepth, Option.bind_some,
    ofJson?_toJson h]

theorem grammatical : Grammatical dialect := by
  refine Dialect.ReadsForms.grammatical readsForms ?_ ?_
  · exact fun _ => ofType_eq_unknown
  · intro t m hplain h hintegral hdepth
    dsimp only [dialect] at h hintegral hdepth ⊢
    exact decode?_wire (isPlain_of_decode? hplain h hintegral) hdepth

end HostMessage

namespace WorkerMessage

theorem named_eq (name : String) : named name = ofType name := by
  rw [named]
  cases h : Prompt.all.find? (·.responseType.name = name) with
  | some p =>
    obtain rfl : p.responseType.name = name := by simpa using List.find?_some h
    cases p <;> rfl
  | none =>
    have hne : ∀ p ∈ Prompt.all, name ≠ p.responseType.name := by
      simpa [eq_comm] using List.find?_eq_none.mp h
    have hstarted := hne .start (by decide)
    have hended := hne .finish (by decide)
    have hecho := hne .ping (by decide)
    exact ((if_neg hstarted).trans ((if_neg hended).trans (if_neg hecho))).symm

theorem ofJson?_eq_form? (w : Json) : ofJson? w = (w.form? []).map fun f => ofType f.1 := by
  cases w with
  | null | bool | int | float | str => rfl
  | arr items =>
    rcases items with _ | ⟨v, _ | ⟨o, _ | ⟨o', rest⟩⟩⟩
    · rfl
    · cases v with
      | str name => exact congrArg some (named_eq name)
      | null | bool | int | float | arr | obj => rfl
    · cases v <;> rfl
    · cases v <;> rfl
  | obj members =>
    rw [ofJson?, Json.form?]
    rcases htypes : Json.valuesOf "type" members with _ | ⟨v, _ | ⟨v', rest⟩⟩
    · rfl
    · cases v with
      | str name => exact congrArg some (named_eq name)
      | null | bool | int | float | arr | obj => rfl
    · cases v <;> rfl

theorem readsForms : dialect.ReadsForms :=
  Dialect.readsForms decode?_eq fun w _ => ofJson?_eq_form? w

theorem ofType_eq_unknown {name : String} (h : name ∉ dialect.known.map MessageType.name) :
    ofType name = .unknown := by
  simp only [dialect, List.map_cons, List.map_nil, List.mem_cons, List.not_mem_nil, not_or] at h
  obtain ⟨hstarted, hended, hecho, -⟩ := h
  exact (if_neg hstarted).trans ((if_neg hended).trans (if_neg hecho))

/-- Every message is read again. -/
theorem decode?_wire (m : WorkerMessage) : decode? (Text.toBytes m.wire) = some m := by
  have hdepth : m.toJson.depth ≤ Json.maxDepth := show 1 ≤ 127 by decide
  rw [decode?_eq, wire, Json.toOption_parse (plain_toJson m), if_pos hdepth, Option.bind_some,
    ofJson?_toJson]

theorem grammatical : Grammatical dialect := by
  refine Dialect.ReadsForms.grammatical readsForms ?_ ?_
  · exact fun _ h _ => ofType_eq_unknown h
  · intro t m _ _ _ _
    dsimp only [dialect]
    exact decode?_wire m

end WorkerMessage

/-- **Both directions read exactly the two forms**, of all texts within the limits whose surrogates
are paired. What is read of them goes by the type and the options. -/
theorem dialects_grammatical :
    Grammatical HostMessage.dialect ∧ Grammatical WorkerMessage.dialect :=
  ⟨HostMessage.grammatical, WorkerMessage.grammatical⟩

/-! ## A lone surrogate and a wide integer -/

/-- A string of characters that need no escape. -/
def unescaped (s : String) : List Piece :=
  s.toList.filterMap fun c => if h : IsEscaped c then none else some (.char c h)

/-- Without blanks around it. -/
def tight {α : Type} (a : α) : Spaced α :=
  ⟨noBlanks, a, noBlanks⟩

/-- An object with a type and one more member. -/
def typed (name key : String) (v : Spelling) : Spaced Spelling :=
  tight (.obj noBlanks [(tight (unescaped "type"), tight (.str (unescaped name))),
    (tight (unescaped key), tight v)])

/-- A ping with a surrogate that is not paired, in a member that does not count. -/
def loneSurrogate : Spaced Spelling :=
  typed "ping" "x" (.str [.unit ⟨0x64, 0x38, 0x30, 0x30, by decide +kernel⟩])

/-- A configuration with an integer of more than 64 bits. -/
def wideInteger : Spaced Spelling :=
  typed "config" "options"
    (.number ⟨false, ⟨Text.toBytes "96236731438341294397", by decide +kernel⟩, by decide +kernel,
      none, none⟩)

/-- What is read of it: a double. -/
def wideMessage : HostMessage :=
  .config (.float ⟨4905790218519428097⟩)

theorem mem_tokens_typed {name key : String} {v : Spelling} {t : Spelling.Token} :
    t ∈ (typed name key v).inner.tokens ↔ t = .key (unescaped "type") ∨
      t = .str (unescaped name) ∨ t = .key (unescaped key) ∨ t ∈ v.tokens := by
  have htokens : (typed name key v).inner.tokens = .key (unescaped "type") ::
      .str (unescaped name) :: .key (unescaped key) :: (v.tokens ++ []) := rfl
  rw [htokens, List.append_nil, List.mem_cons, List.mem_cons, List.mem_cons]

theorem unenveloped_typed {name key : String} {v : Spelling}
    (hkey : string? (unescaped key) ≠ some Json.envelopeKey) (hv : ∀ s, .key s ∉ v.tokens) :
    (typed name key v).inner.Unenveloped := by
  intro s hs
  simp only [mem_tokens_typed, Spelling.Token.key.injEq, reduceCtorEq, false_or] at hs
  rcases hs with rfl | rfl | hs
  · decide +kernel
  · exact hkey
  · exact absurd hs (hv s)

/-- A text within the limits that has the form of a message is refused for a lone surrogate. An
integer of more than 64 bits is read as a double, whose text is read as another one. -/
theorem lone_surrogate_wide_integer :
    (loneSurrogate.text = Text.toBytes "\x7b\"type\":\"ping\",\"x\":\"\\ud800\"\x7d" ∧
      loneSurrogate.inner.Unenveloped ∧ loneSurrogate.inner.WithinLimits ∧
      HasForm HostMessage.dialect.carriers loneSurrogate.inner "ping" none ∧
      HostMessage.decode? loneSurrogate.text = none) ∧
    wideInteger.text =
        Text.toBytes "\x7b\"type\":\"config\",\"options\":96236731438341294397\x7d" ∧
      wideInteger.inner.Unenveloped ∧
      (∀ n, .number n ∈ wideInteger.inner.tokens → n.fraction = none ∧ n.exponent = none) ∧
      HostMessage.decode? wideInteger.text = some wideMessage ∧
      wideMessage.toJson.depth ≤ Json.maxDepth ∧
      HostMessage.decode? (Text.toBytes wideMessage.wire) ≠ some wideMessage := by
  constructor
  · refine ⟨by decide +kernel, unenveloped_typed (by decide +kernel) (by simp [Spelling.tokens]),
      ⟨by decide, ?_⟩,
      .object rfl (by decide +kernel) (fun h => absurd h (by decide)) fun _ => rfl,
      by decide +kernel⟩
    intro n hn
    simp [loneSurrogate, mem_tokens_typed, Spelling.tokens] at hn
  · refine ⟨by decide +kernel, unenveloped_typed (by decide +kernel) (by simp [Spelling.tokens]),
      ?_, by decide +kernel, by decide, by decide +kernel⟩
    intro n hn
    simp only [wideInteger, mem_tokens_typed, Spelling.tokens, reduceCtorEq, false_or,
      List.mem_singleton, Spelling.Token.number.injEq] at hn
    rw [hn]
    exact ⟨rfl, rfl⟩

end Invigilation
