import Invigilation.Proofs.Cli.Override
import Invigilation.Proofs.Json.Opening
import Invigilation.Proofs.Text.Blank
import Invigilation.Proofs.Text.Numeral

/-!
# Settings field by field

Each setting is read from a variable of its own. Four variables can be faulty, and of several faults
the first one in a fixed order is reported, as if its variable stood alone.

- `IsMilliseconds`, `IsObject`, `OfContent`: the texts that are accepted, and what they stand for.
- `Holds`, `Describes`: the settings that an environment describes.
- `Faulty`, `FirstFaulty`: the variables that are refused.
- `ofEnvironment_eq_ok_iff`, `ofEnvironment_eq_error_iff`: the settings and the errors.
- `ofEnvironment_of_trimmed`: what the settings depend on.
- `field_by_field`: **which environments are accepted, as which settings, and with which error the
  others are refused**.
-/

namespace Invigilation

open Text (IsBlank)

/-! ## The texts of settings -/

namespace Settings

/-- A text is a numeral of an unsigned number of 64 bits, blanks around it aside. -/
def IsMilliseconds (text : String) (n : Nat) : Prop :=
  Text.IsNumeral (Text.trim text) n ∧ n < 2 ^ 64

/-- A text is that of one JSON object, which has this value once repeated keys are merged. -/
def IsObject (text : String) (v : Json) : Prop :=
  ∃ t : Json.Spaced Json.Spelling, Text.toBytes text = t.text ∧ t.inner.WithinLimits ∧
    t.inner.Paired ∧
    ∃ members, t.inner.value? = some (.obj members) ∧ v = (Json.obj members).settled

/-- A setting that has one value when its text is blank, and otherwise what the text stands for. -/
def OfContent {α : Type} (blank : α) (stands : String → α → Prop) (text : String) (x : α) : Prop :=
  (IsBlank text ∧ x = blank) ∨ (¬ IsBlank text ∧ stands text x)

/-- A text without the blanks around it. -/
def IsTrimmed (text t : String) : Prop :=
  t = Text.trim text

/-- What a text stands for, as a setting that can be absent. -/
def Present {α : Type} (stands : String → α → Prop) (text : String) (x : Option α) : Prop :=
  ∃ y, x = some y ∧ stands text y

/-- A setting has its default when the variable is unset, and otherwise what the text stands for. -/
def Holds {α : Type} (env : Environment) (v : Variable) (unset : α) (stands : String → α → Prop)
    (x : α) : Prop :=
  match env.get? v.name with
  | none => x = unset
  | some text => stands text x

/-- The settings that an environment describes. -/
structure Describes (env : Environment) (s : Settings) : Prop where
  baseUrl : Holds env .baseUrl none (OfContent none (Present IsTrimmed)) s.baseUrl
  httpTimeout : Holds env .httpTimeout defaultTimeout IsMilliseconds s.httpTimeout
  csrfToken : Holds env .csrfToken none (OfContent none (Present IsTrimmed)) s.csrfToken
  entryPoint : Holds env .entryPoint none (OfContent none (Present IsTrimmed)) s.entryPoint
  responseTimeout :
    Holds env .responseTimeout none (OfContent none (Present IsMilliseconds)) s.responseTimeout
  pingTimeout : Holds env .pingTimeout defaultPingTimeout IsMilliseconds s.pingTimeout
  workerOptions : Holds env .workerOptions none (OfContent none (Present IsObject)) s.workerOptions
  unloadWarning :
    Holds env .unloadWarning defaultWarning (OfContent defaultWarning IsTrimmed) s.unloadWarning

/-- A variable is set to a text that is refused. -/
def Faulty (env : Environment) (v : Variable) : Prop :=
  ∃ text, env.get? v.name = some text ∧
    match v with
    | .httpTimeout | .pingTimeout => ∀ n, ¬ IsMilliseconds text n
    | .responseTimeout => ¬ IsBlank text ∧ ∀ n, ¬ IsMilliseconds text n
    | .workerOptions => ¬ IsBlank text ∧ ∀ w, ¬ IsObject text w
    | .baseUrl | .csrfToken | .entryPoint | .unloadWarning => False

/-- The variables that can be faulty, in the order in which they are looked at. -/
def checked : List Variable :=
  [.httpTimeout, .responseTimeout, .pingTimeout, .workerOptions]

/-- The first of the faulty variables. -/
def FirstFaulty (env : Environment) (v : Variable) : Prop :=
  ∃ before after, checked = before ++ v :: after ∧ Faulty env v ∧ ∀ u ∈ before, ¬ Faulty env u

/-- The key of envelopes does not occur in the options. -/
def Unenveloped (env : Environment) : Prop :=
  ∀ text, env.get? Variable.workerOptions.name = some text → ∀ t : Json.Spaced Json.Spelling,
    Text.toBytes text = t.text → t.inner.Unenveloped

end Settings

/-- An environment in which no other variable is set. -/
def Environment.only (env : Environment) (v : Variable) : Environment :=
  env.filter fun entry => entry.1 == v.name

namespace Environment

theorem get?_only_self (env : Environment) (v : Variable) :
    (env.only v).get? v.name = env.get? v.name := by
  refine congrArg (Option.bind · Text.ofBytes?) ?_
  induction env with
  | nil => rfl
  | cons entry env ih =>
    obtain ⟨name, bytes⟩ := entry
    by_cases hname : name = v.name
    · subst hname
      rw [only, List.filter_cons_of_pos (by simp), List.lookup_cons_self, List.lookup_cons_self]
    · have hother : (v.name == name) = false := beq_false_of_ne (Ne.symm hname)
      rw [only, List.filter_cons_of_neg (by simp [hname]), List.lookup_cons, hother]
      exact ih

theorem get?_only_of_ne (env : Environment) {v u : Variable} (h : u ≠ v) :
    (env.only v).get? u.name = none := by
  have hlookup : (env.only v).lookup u.name = none := by
    rw [List.lookup_eq_none_iff]
    intro entry hentry
    have hname : entry.1 = v.name := eq_of_beq (List.mem_filter.mp hentry).2
    rw [hname, bne_iff_ne]
    exact fun heq => h (Variable.eq_of_name heq)
  rw [get?, hlookup, Option.bind_none]

end Environment

namespace Settings

variable {env : Environment}

/-! ## Reading a text -/

section Content

variable {α : Type} {blank x : α} {stands : String → α → Prop} {text : String}

theorem ofContent_iff_of_isBlank (h : IsBlank text) :
    OfContent blank stands text x ↔ x = blank := by
  constructor
  · rintro (⟨-, hx⟩ | ⟨hcontent, -⟩)
    · exact hx
    · exact absurd h hcontent
  · exact fun hx => .inl ⟨h, hx⟩

theorem ofContent_iff_of_not_isBlank (h : ¬ IsBlank text) :
    OfContent blank stands text x ↔ stands text x := by
  constructor
  · rintro (⟨hblank, -⟩ | ⟨-, hx⟩)
    · exact absurd hblank h
    · exact hx
  · exact fun hx => .inr ⟨h, hx⟩

theorem forall_not_ofContent_iff :
    (∀ x, ¬ OfContent blank stands text x) ↔ ¬ IsBlank text ∧ ∀ x, ¬ stands text x := by
  by_cases hblank : IsBlank text
  · refine iff_of_false (fun h => ?_) fun h => h.1 hblank
    exact h blank ((ofContent_iff_of_isBlank hblank).mpr rfl)
  · simp only [ofContent_iff_of_not_isBlank hblank, hblank, not_false_eq_true, true_and]

end Content

theorem forall_not_present_iff {α : Type} {stands : String → α → Prop} {text : String} :
    (∀ x, ¬ Present stands text x) ↔ ∀ y, ¬ stands text y := by
  constructor
  · exact fun h y hy => h (some y) ⟨y, rfl, hy⟩
  · rintro h x ⟨y, -, hy⟩
    exact h y hy

/-- A reader that is used for texts with content. -/
theorem unlessBlank_eq_ok_iff {ε α : Type} {text : String} {read : Except ε (Option α)}
    {stands : String → α → Prop} (h : ∀ x, read = .ok x ↔ Present stands text x) (x : Option α) :
    (if (Text.content? text).isNone then .ok none else read) = .ok x ↔
      OfContent none (Present stands) text x := by
  by_cases hblank : IsBlank text
  · rw [Text.content?_of_isBlank hblank, if_pos Option.isNone_none, Except.ok.injEq,
      ofContent_iff_of_isBlank hblank, eq_comm]
  · rw [Text.content?_of_not_isBlank hblank, if_neg (by simp), h,
      ofContent_iff_of_not_isBlank hblank]

theorem readMilliseconds_eq_ok_iff (text : String) (n : Nat) :
    readMilliseconds text = .ok n ↔ IsMilliseconds text n :=
  Text.readUnsigned_eq_ok_iff

theorem readOptionalMilliseconds_eq_ok_iff (text : String) (x : Option Nat) :
    readOptionalMilliseconds text = .ok x ↔ OfContent none (Present IsMilliseconds) text x := by
  refine unlessBlank_eq_ok_iff (fun x => ?_) x
  constructor
  · intro h
    obtain ⟨n, hn, rfl⟩ := Json.ok_of_map h
    exact ⟨n, rfl, (readMilliseconds_eq_ok_iff text n).mp hn⟩
  · rintro ⟨n, rfl, hn⟩
    rw [(readMilliseconds_eq_ok_iff text n).mpr hn]
    rfl

/-- A text is that of an object with this value once its envelopes are opened. -/
def OpensTo (text : String) (v : Json) : Prop :=
  ∃ members, Json.parseOpened (Text.toBytes text) = .ok (.obj members) ∧
    v = (Json.obj members).settled

theorem readOptions_eq_ok_iff (text : String) (x : Option Json) :
    readOptions text = .ok x ↔ OfContent none (Present OpensTo) text x := by
  refine unlessBlank_eq_ok_iff (fun x => ?_) x
  simp only [Present, OpensTo]
  cases hread : Json.parseOpened (Text.toBytes text) with
  | error fault => simp
  | ok w =>
    cases w with
    | obj members =>
      simp only [Except.ok.injEq, Json.obj.injEq, exists_eq_left']
      constructor
      · intro heq
        exact ⟨_, heq.symm, rfl⟩
      · rintro ⟨v, heq, hv⟩
        rw [heq, hv]
    | null | bool | int | float | str | arr => simp

/-- The text of an object opens to it if nothing in it can be an envelope. -/
theorem opensTo_iff {text : String} (hplain : ∀ t : Json.Spaced Json.Spelling,
      Text.toBytes text = t.text → t.inner.Unenveloped) {v : Json} :
    OpensTo text v ↔ IsObject text v := by
  constructor
  · rintro ⟨members, hread, rfl⟩
    obtain ⟨w, hparse, hopened⟩ := Json.parseOpened_eq_ok_iff.mp hread
    obtain ⟨t, htext, hlimited⟩ := Json.parse_eq_ok_iff.mp hparse
    obtain ⟨hlimits, hpaired, hvalue⟩ := Json.Spelling.limited?_eq_some_iff.mp hlimited
    rw [Json.opened?_of_readable (Json.Spelling.readable_value? (hplain t htext) hvalue)] at hopened
    obtain rfl := Option.some_inj.mp hopened
    exact ⟨t, htext, hlimits, hpaired, members, hvalue, rfl⟩
  · rintro ⟨t, htext, hlimits, hpaired, members, hvalue, rfl⟩
    refine ⟨members, Json.parseOpened_eq_ok_iff.mpr ⟨.obj members, ?_, ?_⟩, rfl⟩
    · exact Json.parse_eq_ok_iff.mpr
        ⟨t, htext, Json.Spelling.limited?_eq_some_iff.mpr ⟨hlimits, hpaired, hvalue⟩⟩
    · exact Json.opened?_of_readable (Json.Spelling.readable_value? (hplain t htext) hvalue)

theorem readOptions_eq_ok_iff_of_unenveloped (h : Unenveloped env) {text : String}
    (htext : env.get? Variable.workerOptions.name = some text) (x : Option Json) :
    readOptions text = .ok x ↔ OfContent none (Present IsObject) text x := by
  rw [readOptions_eq_ok_iff]
  simp only [OfContent, Present, opensTo_iff (h text htext)]

/-! ## Looking a variable up -/

theorem holds_iff_of_unset {α : Type} {v : Variable} {unset x : α} {stands : String → α → Prop}
    (h : env.get? v.name = none) : Holds env v unset stands x ↔ x = unset := by
  rw [Holds, h]

theorem holds_iff_of_set {α : Type} {v : Variable} {unset x : α} {stands : String → α → Prop}
    {text : String} (h : env.get? v.name = some text) :
    Holds env v unset stands x ↔ stands text x := by
  rw [Holds, h]

section Lookup

variable {α ε : Type} {v : Variable} {unset : α} {read : String → Except ε α}
  {wrap : ε → SettingsError} {stands : String → α → Prop}
  (h : ∀ text, env.get? v.name = some text → ∀ x, read text = .ok x ↔ stands text x)
include h

theorem lookup_eq_ok_iff {x : α} :
    lookup env v unset read wrap = .ok x ↔ Holds env v unset stands x := by
  unfold lookup
  split
  · next hunset => rw [holds_iff_of_unset hunset, Except.ok.injEq, eq_comm]
  · next text htext =>
    rw [holds_iff_of_set htext, ← h text htext]
    cases read text with
    | error e => exact iff_of_false (fun heq => by cases heq) fun heq => by cases heq
    | ok y => rw [Except.mapError, Except.ok.injEq, Except.ok.injEq]

theorem exists_lookup_eq_error_iff :
    (∃ e, lookup env v unset read wrap = .error e) ↔
      ∃ text, env.get? v.name = some text ∧ ∀ x, ¬ stands text x := by
  unfold lookup
  split
  · next hunset => simp [hunset]
  · next text htext =>
    simp only [htext, Option.some.injEq, exists_eq_left', ← h text htext]
    cases read text with
    | error e => exact iff_of_true ⟨wrap e, rfl⟩ fun x heq => by cases heq
    | ok y =>
      refine iff_of_false ?_ fun hnone => hnone y rfl
      rintro ⟨e, heq⟩
      cases heq

end Lookup

theorem lookupText_eq_iff {v : Variable} {x : Option String} :
    lookupText env v = x ↔ Holds env v none (OfContent none (Present IsTrimmed)) x := by
  cases htext : env.get? v.name with
  | none => rw [lookupText, htext, Option.bind_none, holds_iff_of_unset htext, eq_comm]
  | some text =>
    rw [lookupText, htext, Option.bind_some, holds_iff_of_set htext]
    by_cases hblank : IsBlank text
    · rw [Text.content?_of_isBlank hblank, ofContent_iff_of_isBlank hblank, eq_comm]
    · rw [Text.content?_of_not_isBlank hblank, ofContent_iff_of_not_isBlank hblank]
      simp [Present, IsTrimmed, eq_comm]

theorem lookupText_getD_eq_iff {v : Variable} {unset x : String} :
    (lookupText env v).getD unset = x ↔ Holds env v unset (OfContent unset IsTrimmed) x := by
  cases htext : env.get? v.name with
  | none =>
    rw [lookupText, htext, Option.bind_none, Option.getD_none, holds_iff_of_unset htext, eq_comm]
  | some text =>
    rw [lookupText, htext, Option.bind_some, holds_iff_of_set htext]
    by_cases hblank : IsBlank text
    · rw [Text.content?_of_isBlank hblank, Option.getD_none, ofContent_iff_of_isBlank hblank,
        eq_comm]
    · rw [Text.content?_of_not_isBlank hblank, Option.getD_some,
        ofContent_iff_of_not_isBlank hblank, IsTrimmed, eq_comm]

/-! ## The settings -/

theorem ofEnvironment_eq_ok_iff (h : Unenveloped env) {s : Settings} :
    ofEnvironment env = .ok s ↔ Describes env s := by
  constructor
  · intro hs
    obtain ⟨httpTimeout, hhttp, hs⟩ := Json.ok_of_bind hs
    obtain ⟨responseTimeout, hresponse, hs⟩ := Json.ok_of_bind hs
    obtain ⟨pingTimeout, hping, hs⟩ := Json.ok_of_bind hs
    obtain ⟨workerOptions, hoptions, hs⟩ := Json.ok_of_bind hs
    cases hs
    exact {
      baseUrl := lookupText_eq_iff.mp rfl
      httpTimeout := (lookup_eq_ok_iff fun text _ => readMilliseconds_eq_ok_iff text).mp hhttp
      csrfToken := lookupText_eq_iff.mp rfl
      entryPoint := lookupText_eq_iff.mp rfl
      responseTimeout :=
        (lookup_eq_ok_iff fun text _ => readOptionalMilliseconds_eq_ok_iff text).mp hresponse
      pingTimeout := (lookup_eq_ok_iff fun text _ => readMilliseconds_eq_ok_iff text).mp hping
      workerOptions :=
        (lookup_eq_ok_iff fun _ htext => readOptions_eq_ok_iff_of_unenveloped h htext).mp hoptions
      unloadWarning := lookupText_getD_eq_iff.mp rfl }
  · intro hs
    unfold ofEnvironment
    rw [(lookup_eq_ok_iff fun text _ => readMilliseconds_eq_ok_iff text).mpr hs.httpTimeout,
      (lookup_eq_ok_iff fun text _ => readOptionalMilliseconds_eq_ok_iff text).mpr
        hs.responseTimeout,
      (lookup_eq_ok_iff fun text _ => readMilliseconds_eq_ok_iff text).mpr hs.pingTimeout,
      (lookup_eq_ok_iff fun _ htext => readOptions_eq_ok_iff_of_unenveloped h htext).mpr
        hs.workerOptions]
    show Except.ok _ = Except.ok s
    rw [lookupText_eq_iff.mpr hs.baseUrl, lookupText_eq_iff.mpr hs.csrfToken,
      lookupText_eq_iff.mpr hs.entryPoint, lookupText_getD_eq_iff.mpr hs.unloadWarning]

/-! ## The errors -/

/-- The error of a result. -/
def errorOf? {ε α : Type} : Except ε α → Option ε
  | .ok _ => none
  | .error e => some e

theorem errorOf?_eq_some_iff {ε α : Type} {x : Except ε α} {e : ε} :
    errorOf? x = some e ↔ x = .error e := by
  cases x with
  | ok a => exact iff_of_false (fun h => by cases h) fun h => by cases h
  | error e' => rw [errorOf?, Option.some_inj, Except.error.injEq]

/-- What is wrong with a variable by itself. -/
def fault? (env : Environment) : Variable → Option SettingsError
  | .httpTimeout =>
    errorOf? (lookup env .httpTimeout defaultTimeout readMilliseconds .httpTimeout)
  | .responseTimeout =>
    errorOf? (lookup env .responseTimeout none readOptionalMilliseconds .responseTimeout)
  | .pingTimeout =>
    errorOf? (lookup env .pingTimeout defaultPingTimeout readMilliseconds .pingTimeout)
  | .workerOptions => errorOf? (lookup env .workerOptions none readOptions .workerOptions)
  | .baseUrl | .csrfToken | .entryPoint | .unloadWarning => none

/-- The first fault is reported. -/
theorem errorOf?_ofEnvironment (env : Environment) :
    errorOf? (ofEnvironment env) = checked.findSome? (fault? env) := by
  unfold ofEnvironment checked
  simp only [List.findSome?_cons, fault?]
  cases lookup env .httpTimeout defaultTimeout readMilliseconds .httpTimeout with
  | error e => rfl
  | ok httpTimeout =>
  cases lookup env .responseTimeout none readOptionalMilliseconds .responseTimeout with
  | error e => rfl
  | ok responseTimeout =>
  cases lookup env .pingTimeout defaultPingTimeout readMilliseconds .pingTimeout with
  | error e => rfl
  | ok pingTimeout =>
  cases lookup env .workerOptions none readOptions .workerOptions with
  | error e => rfl
  | ok workerOptions => rfl

theorem ofEnvironment_eq_error_iff {e : SettingsError} :
    ofEnvironment env = .error e ↔ checked.findSome? (fault? env) = some e := by
  rw [← errorOf?_ofEnvironment, errorOf?_eq_some_iff]

/-- Nothing is wrong with the variables of an environment that is accepted. -/
theorem fault?_of_ofEnvironment {s : Settings} (h : ofEnvironment env = .ok s) {v : Variable}
    (hv : v ∈ checked) : fault? env v = none := by
  have hnone := errorOf?_ofEnvironment env
  rw [h, errorOf?, eq_comm, List.findSome?_eq_none_iff] at hnone
  exact hnone v hv

/-- A variable by itself is at fault exactly if it is set to a text that is refused. -/
theorem exists_fault?_iff (h : Unenveloped env) (v : Variable) :
    (∃ e, fault? env v = some e) ↔ Faulty env v := by
  cases v with
  | httpTimeout | pingTimeout =>
    simp only [fault?, errorOf?_eq_some_iff]
    exact exists_lookup_eq_error_iff fun text _ => readMilliseconds_eq_ok_iff text
  | responseTimeout =>
    simp only [fault?, errorOf?_eq_some_iff]
    rw [exists_lookup_eq_error_iff fun text _ => readOptionalMilliseconds_eq_ok_iff text]
    simp only [forall_not_ofContent_iff, forall_not_present_iff]
    rfl
  | workerOptions =>
    simp only [fault?, errorOf?_eq_some_iff]
    rw [exists_lookup_eq_error_iff fun _ htext => readOptions_eq_ok_iff_of_unenveloped h htext]
    simp only [forall_not_ofContent_iff, forall_not_present_iff]
    rfl
  | baseUrl | csrfToken | entryPoint | unloadWarning => simp [fault?, Faulty]

theorem mem_checked {v : Variable} (h : Faulty env v) : v ∈ checked := by
  obtain ⟨text, -, hrefused⟩ := h
  cases v with
  | httpTimeout | responseTimeout | pingTimeout | workerOptions => decide
  | baseUrl | csrfToken | entryPoint | unloadWarning => exact hrefused.elim

theorem exists_eq_of_lookup_error {α ε : Type} {v : Variable} {unset : α}
    {read : String → Except ε α} {wrap : ε → SettingsError} {e : SettingsError}
    (h : lookup env v unset read wrap = .error e) : ∃ fault, wrap fault = e := by
  unfold lookup at h
  split at h
  · cases h
  · next text _ =>
    cases hread : read text with
    | ok x =>
      rw [hread] at h
      cases h
    | error fault =>
      rw [hread] at h
      exact ⟨fault, Except.error.inj h⟩

/-- An error is about the variable that is at fault. -/
theorem variable_of_fault? {v : Variable} {e : SettingsError} (h : fault? env v = some e) :
    e.variable = v := by
  cases v with
  | httpTimeout | responseTimeout | pingTimeout | workerOptions =>
    obtain ⟨fault, rfl⟩ := exists_eq_of_lookup_error (errorOf?_eq_some_iff.mp h)
    rfl
  | baseUrl | csrfToken | entryPoint | unloadWarning => cases h

theorem fault?_congr {env' : Environment} {v : Variable}
    (h : env'.get? v.name = env.get? v.name) : fault? env' v = fault? env v := by
  cases v <;> simp only [fault?, lookup, h]

theorem fault?_of_unset {v : Variable} (h : env.get? v.name = none) : fault? env v = none := by
  cases v <;> simp only [fault?, lookup, h, errorOf?]

/-- The first fault is reported, as it would be with no other variable set. -/
theorem ofEnvironment_of_first {v : Variable} {before after : List Variable}
    (hchecked : checked = before ++ v :: after) {e : SettingsError} (hv : fault? env v = some e)
    (hbefore : ∀ u ∈ before, fault? env u = none) :
    ofEnvironment env = .error e ∧ ofEnvironment (env.only v) = .error e := by
  have hreport : ∀ {env' : Environment}, fault? env' v = some e →
      (∀ u ∈ before, fault? env' u = none) → ofEnvironment env' = .error e := by
    intro env' hv hbefore
    rw [ofEnvironment_eq_error_iff, List.findSome?_eq_some_iff]
    exact ⟨before, v, after, hchecked, hv, hbefore⟩
  -- alone, nothing is set that could be at fault before it
  refine ⟨hreport hv hbefore, hreport ?_ fun u hu => ?_⟩
  · rw [fault?_congr (env.get?_only_self v), hv]
  · refine fault?_of_unset (env.get?_only_of_ne ?_)
    rintro rfl
    rw [hbefore u hu] at hv
    cases hv

/-! ## What the settings depend on -/

section Trimmed

variable {env' : Environment} {v : Variable}
  (h : (env'.get? v.name).map Text.trim = (env.get? v.name).map Text.trim)
include h

theorem get?_of_trimmed : (env'.get? v.name = none ∧ env.get? v.name = none) ∨
    ∃ text' text, env'.get? v.name = some text' ∧ env.get? v.name = some text ∧
      Text.trim text' = Text.trim text := by
  cases htext : env.get? v.name with
  | none =>
    rw [htext] at h
    exact .inl ⟨Option.map_eq_none_iff.mp h, rfl⟩
  | some text =>
    rw [htext] at h
    obtain ⟨text', htext', htrim⟩ := Option.map_eq_some_iff.mp h
    exact .inr ⟨text', text, htext', rfl, htrim⟩

theorem lookup_of_trimmed {α ε : Type} (unset : α) {read : String → Except ε α}
    (wrap : ε → SettingsError)
    (hread : ∀ text text', Text.trim text' = Text.trim text → read text' = read text) :
    lookup env' v unset read wrap = lookup env v unset read wrap := by
  unfold lookup
  rcases get?_of_trimmed h with ⟨hunset', hunset⟩ | ⟨text', text, htext', htext, htrim⟩
  · rw [hunset', hunset]
  · rw [htext', htext]
    exact congrArg (Except.mapError wrap) (hread text text' htrim)

theorem lookupText_of_trimmed : lookupText env' v = lookupText env v := by
  unfold lookupText
  rcases get?_of_trimmed h with ⟨hunset', hunset⟩ | ⟨text', text, htext', htext, htrim⟩
  · rw [hunset', hunset]
  · rw [htext', htext, Option.bind_some, Option.bind_some, Text.content?_of_trim htrim]

end Trimmed

/-- The settings depend on the eight variables only, and apart from the options on their texts
without the blanks around them. -/
theorem ofEnvironment_of_trimmed {env' : Environment}
    (h : ∀ v : Variable, v ≠ .workerOptions →
      (env'.get? v.name).map Text.trim = (env.get? v.name).map Text.trim)
    (hoptions : lookup env' .workerOptions none readOptions .workerOptions =
      lookup env .workerOptions none readOptions .workerOptions) :
    ofEnvironment env' = ofEnvironment env := by
  have hmilliseconds : ∀ text text', Text.trim text' = Text.trim text →
      readMilliseconds text' = readMilliseconds text := by
    intro text text' htrim
    rw [readMilliseconds, htrim, readMilliseconds]
  have hoptional : ∀ text text', Text.trim text' = Text.trim text →
      readOptionalMilliseconds text' = readOptionalMilliseconds text := by
    intro text text' htrim
    unfold readOptionalMilliseconds
    rw [Text.content?_of_trim htrim, hmilliseconds text text' htrim]
  unfold ofEnvironment
  rw [lookup_of_trimmed (h .httpTimeout (by decide)) _ _ hmilliseconds,
    lookup_of_trimmed (h .responseTimeout (by decide)) _ _ hoptional,
    lookup_of_trimmed (h .pingTimeout (by decide)) _ _ hmilliseconds, hoptions,
    lookupText_of_trimmed (h .baseUrl (by decide)),
    lookupText_of_trimmed (h .csrfToken (by decide)),
    lookupText_of_trimmed (h .entryPoint (by decide)),
    lookupText_of_trimmed (h .unloadWarning (by decide))]

/-! ## Field by field -/

/-- What becomes of an environment:
1. it is accepted as the settings that it describes, and as no others;
2. it is refused exactly if one of its variables is faulty;
3. the error is about the first of these and names it, and is the one of this variable alone;
4. what else is set in the environment does not matter. -/
structure FieldByField (env : Environment) : Prop where
  accepted : ∀ s, ofEnvironment env = .ok s ↔ Describes env s
  refused : (∃ e, ofEnvironment env = .error e) ↔ ∃ v, Faulty env v
  first : ∀ v, FirstFaulty env v → ∃ e, ofEnvironment env = .error e ∧
    ofEnvironment (env.only v) = .error e ∧ e.variable = v ∧
    e.message = "invalid " ++ v.name ++ ": " ++ e.detail
  others : ∀ env' : Environment, (∀ v : Variable, env'.get? v.name = env.get? v.name) →
    ofEnvironment env' = ofEnvironment env

/-- **Which environments are accepted, as which settings, and with which error the others are
refused.** -/
theorem field_by_field (h : Unenveloped env) : FieldByField env where
  accepted _ := ofEnvironment_eq_ok_iff h
  refused := by
    constructor
    · rintro ⟨e, he⟩
      have hfirst := ofEnvironment_eq_error_iff.mp he
      obtain ⟨v, -, hv⟩ := List.exists_of_findSome?_eq_some hfirst
      exact ⟨v, (exists_fault?_iff h v).mp ⟨e, hv⟩⟩
    · rintro ⟨v, hv⟩
      have hsome : (checked.findSome? (fault? env)).isSome = true := by
        rw [List.findSome?_isSome_iff]
        exact ⟨v, mem_checked hv, Option.isSome_iff_exists.mpr ((exists_fault?_iff h v).mpr hv)⟩
      obtain ⟨e, he⟩ := Option.isSome_iff_exists.mp hsome
      exact ⟨e, ofEnvironment_eq_error_iff.mpr he⟩
  first := by
    rintro v ⟨before, after, hchecked, hv, hbefore⟩
    obtain ⟨e, he⟩ := (exists_fault?_iff h v).mpr hv
    have hnone : ∀ u ∈ before, fault? env u = none := by
      intro u hu
      rw [← Option.not_isSome_iff_eq_none, Option.isSome_iff_exists, exists_fault?_iff h]
      exact hbefore u hu
    obtain ⟨hreported, halone⟩ := ofEnvironment_of_first hchecked he hnone
    obtain rfl := variable_of_fault? he
    exact ⟨e, hreported, halone, rfl, rfl⟩
  others := by
    intro env' hsame
    refine ofEnvironment_of_trimmed (fun v _ => by rw [hsame v]) ?_
    rw [lookup, hsame, lookup]

/-- An environment with a text for each variable. -/
def crowded : Environment :=
  [(Variable.baseUrl.name, Text.toBytes " https://lms.example.com/ "),
    (Variable.httpTimeout.name, Text.toBytes "+001500\n"),
    (Variable.csrfToken.name, Text.toBytes "token-1"),
    (Variable.entryPoint.name, Text.toBytes "worker"),
    (Variable.responseTimeout.name, Text.toBytes " "),
    (Variable.pingTimeout.name, Text.toBytes "2000"),
    (Variable.workerOptions.name, Text.toBytes "\x7b\"provider\":\"mock\"\x7d"),
    (Variable.unloadWarning.name, Text.toBytes "Stay on this page.")]

theorem field_by_field_crowded :
    Unenveloped crowded ∧
      Describes crowded
        { baseUrl := some "https://lms.example.com/", httpTimeout := 1500,
          csrfToken := some "token-1", entryPoint := some "worker", pingTimeout := 2000,
          workerOptions := some (.obj [("provider", .str "mock")]),
          unloadWarning := "Stay on this page." } := by
  have hplain : Unenveloped crowded := by
    intro text htext t heq
    have hset : crowded.get? Variable.workerOptions.name =
      some "\x7b\"provider\":\"mock\"\x7d" := by decide +kernel
    obtain rfl := Option.some_inj.mp (hset.symm.trans htext)
    have hvalue : (Json.parse (Text.toBytes "\x7b\"provider\":\"mock\"\x7d")).toOption =
      some (.obj [("provider", .str "mock")]) := by decide +kernel
    rw [heq, Json.toOption_parse_text] at hvalue
    refine Json.Spelling.unenveloped_of_value? (Json.Spelling.value?_of_limited? hvalue) ?_
    refine Json.every_obj.mpr ⟨?_, ?_⟩
    · simp [Json.Spelling.Unkeyed, Json.envelopeKey]
    · exact List.forall_mem_singleton.mpr trivial
  exact ⟨hplain, ((field_by_field hplain).accepted _).mp (by decide +kernel)⟩

end Settings

end Invigilation
