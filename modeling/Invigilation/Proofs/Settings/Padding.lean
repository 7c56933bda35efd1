import Invigilation.Proofs.Settings.Fields

/-!
# Blanks around settings

Blanks around the text of a variable do not show in the settings, with one exception. The options
are read as they stand, so what is not a blank of JSON makes them unreadable, although the blanks
are left aside when it is decided whether there are options at all.

- `Text.IsJsonBlank`: a text that consists of the blanks of JSON.
- `Environment.pad`: an environment with other texts around the one of a variable.
- `Json.parseOpened_padded`, `Json.blanks_of_parseOpened`: what may stand around an object.
- `Settings.Padded`, `Settings.padded`: **blanks around a variable do not matter**, apart from those
  around options that are not blanks of JSON.
- `Settings.options_padded_refused`: options that are refused for the blank before them.
-/

namespace Invigilation

open Text (Bytes IsBlank)

/-! ## The blanks of JSON -/

namespace Text

/-- A text of spaces, tabs, line feeds and carriage returns. -/
def IsJsonBlank (s : String) : Prop :=
  ∀ c ∈ s.toList, c = ' ' ∨ c = '\t' ∨ c = '\n' ∨ c = '\r'

instance (s : String) : Decidable (IsJsonBlank s) :=
  List.decidableBAll (fun c => c = ' ' ∨ c = '\t' ∨ c = '\n' ∨ c = '\r') s.toList

theorem mem_toBytes {s : String} {b : UInt8} :
    b ∈ toBytes s ↔ ∃ c ∈ s.toList, b ∈ String.utf8EncodeChar c :=
  List.mem_flatMap

/-- The bytes that separate tokens, as characters. -/
theorem eq_of_isSpace {c : Char} (h : Json.Byte.isSpace (UInt8.ofNat c.toNat) = true)
    (hc : c.toNat < 0x80) : c = ' ' ∨ c = '\t' ∨ c = '\n' ∨ c = '\r' := by
  have hcode : ∀ n < 128, UInt8.ofNat c.toNat = UInt8.ofNat n → c = Char.ofNat n := by
    intro n hn heq
    have hnat := congrArg UInt8.toNat heq
    rw [Utf8.toNat_byte (by omega), Utf8.toNat_byte (by omega)] at hnat
    rw [← hnat, Char.ofNat_toNat]
  simp only [Json.Byte.isSpace, Bool.or_eq_true, beq_iff_eq, or_assoc] at h
  rcases h with h | h | h | h
  · exact .inl (hcode 32 (by decide) h)
  · exact .inr (.inl (hcode 9 (by decide) h))
  · exact .inr (.inr (.inl (hcode 10 (by decide) h)))
  · exact .inr (.inr (.inr (hcode 13 (by decide) h)))

/-- The blanks of JSON are the texts whose bytes separate tokens. -/
theorem isJsonBlank_iff {s : String} :
    IsJsonBlank s ↔ ∀ b ∈ toBytes s, Json.Byte.isSpace b = true := by
  constructor
  · intro h b hb
    obtain ⟨c, hc, hb⟩ := mem_toBytes.mp hb
    rcases h c hc with rfl | rfl | rfl | rfl
    all_goals
      rw [Utf8.encodeChar_of_lt (by decide), List.mem_singleton] at hb
      rw [hb]
      rfl
  · intro h c hc
    obtain ⟨b, rest, hencode, -⟩ := Utf8.exists_start c
    have hmem : b ∈ String.utf8EncodeChar c := by
      rw [hencode]
      exact List.mem_cons_self
    have hspace := h b (mem_toBytes.mpr ⟨c, hc, hmem⟩)
    by_cases hascii : c.toNat < 0x80
    · rw [Utf8.encodeChar_of_lt hascii, List.mem_singleton] at hmem
      rw [hmem] at hspace
      exact eq_of_isSpace hspace hascii
    · -- the bytes of all other characters lie above those of the blanks
      have hlarge := Utf8.le_of_mem_encodeChar (by omega) hmem
      simp only [Json.Byte.isSpace, Bool.or_eq_true, beq_iff_eq, or_assoc] at hspace
      rcases hspace with rfl | rfl | rfl | rfl <;> exact absurd hlarge (by decide)

/-- The bytes of blanks leave out those of most ASCII characters. -/
theorem toNat_of_mem_toBytes {s : String} (h : IsBlank s) {b : UInt8} (hb : b ∈ toBytes s) :
    b.toNat ≤ 0x20 ∨ 0x80 ≤ b.toNat := by
  obtain ⟨c, hc, hb⟩ := mem_toBytes.mp hb
  by_cases hascii : c.toNat < 0x80
  · rw [Utf8.encodeChar_of_lt hascii, List.mem_singleton] at hb
    have hblank := h c hc
    simp only [isBlank, Bool.or_eq_true, Bool.and_eq_true, decide_eq_true_eq, beq_iff_eq]
      at hblank
    rw [hb, Utf8.toNat_byte (by omega)]
    omega
  · exact .inr (Utf8.le_of_mem_encodeChar (by omega) hb)

/-- No byte of a blank is a brace. -/
theorem brace_notMem_toBytes {s : String} (h : IsBlank s) :
    Json.Byte.openBrace ∉ toBytes s ∧ Json.Byte.closeBrace ∉ toBytes s := by
  constructor
  · intro hmem
    exact absurd (toNat_of_mem_toBytes h hmem) (by decide)
  · intro hmem
    exact absurd (toNat_of_mem_toBytes h hmem) (by decide)

end Text

/-! ## Texts around a variable -/

/-- An environment with other texts around that of a variable. -/
def Environment.pad (env : Environment) (v : Variable) (before after : String) : Environment :=
  env.map fun entry =>
    if entry.1 = v.name then
      (entry.1, Text.toBytes before ++ (entry.2 ++ Text.toBytes after))
    else entry

namespace Environment

theorem get?_pad_self (env : Environment) (v : Variable) (before after : String) :
    (env.pad v before after).get? v.name = (env.get? v.name).map (Text.pad before after) := by
  induction env with
  | nil => rfl
  | cons entry env ih =>
    obtain ⟨name, bytes⟩ := entry
    by_cases hname : name = v.name
    · subst hname
      rw [pad, List.map_cons, if_pos rfl, get?, List.lookup_cons_self, get?, List.lookup_cons_self]
      exact Text.ofBytes?_pad before after bytes
    · have hother : (v.name == name) = false := beq_false_of_ne (Ne.symm hname)
      rw [pad, List.map_cons, if_neg hname, get?, List.lookup_cons, hother, get?, List.lookup_cons,
        hother]
      exact ih

theorem get?_pad_of_ne (env : Environment) {v u : Variable} (h : u ≠ v) (before after : String) :
    (env.pad v before after).get? u.name = env.get? u.name := by
  refine congrArg (Option.bind · Text.ofBytes?) ?_
  induction env with
  | nil => rfl
  | cons entry env ih =>
    obtain ⟨name, bytes⟩ := entry
    rw [pad, List.map_cons, List.lookup_cons, List.lookup_cons]
    by_cases hname : name = v.name
    · have hother : (u.name == name) = false :=
        beq_false_of_ne fun heq => h (Variable.eq_of_name (heq.trans hname))
      rw [if_pos hname, hother]
      exact ih
    · rw [if_neg hname]
      cases u.name == name with
      | true => rfl
      | false => exact ih

end Environment

/-! ## Objects in blanks -/

namespace Json

theorem parseOpened_padded (front back : Blanks) {bs : Bytes} {w : Json}
    (h : parseOpened bs = .ok w) : parseOpened (front.1 ++ (bs ++ back.1)) = .ok w := by
  obtain ⟨v, hparse, hopened⟩ := parseOpened_eq_ok_iff.mp h
  obtain ⟨t, rfl, hvalue⟩ := parse_eq_ok_iff.mp hparse
  refine parseOpened_eq_ok_iff.mpr ⟨v, parse_eq_ok_iff.mpr ?_, hopened⟩
  refine ⟨⟨front.append t.before, t.inner, t.after.append back⟩, ?_, hvalue⟩
  simp only [Spaced.text, Blanks.append, List.append_assoc]

theorem closeBrace_suffix (first : Bool) (members : Members) :
    [Byte.closeBrace] <:+ Spelling.membersText first members := by
  induction members generalizing first with
  | nil => exact List.suffix_refl _
  | cons m members ih =>
    rw [Spelling.membersText]
    exact (ih false).trans (List.suffix_append _ _)

/-- The text of an object starts and ends with a brace. -/
theorem braces_of_parseOpened {bs : Bytes} {members : List (String × Json)}
    (h : parseOpened bs = .ok (.obj members)) : ∃ (front back : Blanks) (inside : Bytes),
      bs = front.1 ++ Byte.openBrace :: (inside ++ Byte.closeBrace :: back.1) := by
  obtain ⟨v, hparse, hopened⟩ := parseOpened_eq_ok_iff.mp h
  obtain ⟨⟨front, spelling, back⟩, rfl, hlimited⟩ := parse_eq_ok_iff.mp hparse
  have hvalue := Spelling.value?_of_limited? hlimited
  cases spelling with
  | obj blanks members =>
    obtain ⟨inside, heq⟩ := closeBrace_suffix true members
    refine ⟨front, back, blanks.1 ++ inside, ?_⟩
    simp only [Spaced.text, Spelling.text, ← heq, List.append_assoc, List.cons_append,
      List.nil_append]
  | null | bool =>
    cases hvalue
    cases hopened
  | number n =>
    have hnumber := Spelling.isNumber_value? hvalue
    cases v <;> first | cases hopened | cases hnumber
  | str s =>
    obtain ⟨text, -, rfl⟩ := Option.map_eq_some_iff.mp hvalue
    cases hopened
  | arr blanks items =>
    obtain ⟨ws, -, rfl⟩ := Option.map_eq_some_iff.mp hvalue
    obtain ⟨ws', -, heq⟩ := Option.map_eq_some_iff.mp hopened
    cases heq

theorem mem_of_append_cons {front rest xs ys : Bytes} {b : UInt8} (hb : b ∉ xs)
    (h : front ++ b :: rest = xs ++ ys) : ∀ x ∈ xs, x ∈ front := by
  rcases List.append_eq_append_iff.mp h with ⟨middle, hxs, hrest⟩ | ⟨middle, hfront, -⟩
  · cases middle with
    | nil =>
      rw [hxs, List.append_nil]
      exact fun x hx => hx
    | cons b' middle =>
      obtain ⟨rfl, -⟩ := List.cons_eq_cons.mp hrest
      rw [hxs] at hb
      exact absurd (List.mem_append_right front List.mem_cons_self) hb
  · rw [hfront]
    exact fun x hx => List.mem_append_left middle hx

theorem mem_of_cons_append {rest back xs ys : Bytes} {b : UInt8} (hb : b ∉ xs)
    (h : rest ++ b :: back = ys ++ xs) : ∀ x ∈ xs, x ∈ back := by
  have hreverse := congrArg List.reverse h
  rw [List.reverse_append, List.reverse_cons, List.append_assoc, List.reverse_append] at hreverse
  intro x hx
  rw [← List.mem_reverse] at hb hx ⊢
  exact mem_of_append_cons hb hreverse x hx

/-- Only blanks of JSON may stand around the braces of an object. -/
theorem blanks_of_parseOpened {before after : String} (hbefore : IsBlank before)
    (hafter : IsBlank after) {bs : Bytes} {members : List (String × Json)}
    (h : parseOpened (Text.toBytes before ++ (bs ++ Text.toBytes after)) = .ok (.obj members)) :
    Text.IsJsonBlank before ∧ Text.IsJsonBlank after := by
  obtain ⟨front, back, inside, heq⟩ := braces_of_parseOpened h
  obtain ⟨hopen, hclose⟩ :=
    And.intro (Text.brace_notMem_toBytes hbefore).1 (Text.brace_notMem_toBytes hafter).2
  rw [Text.isJsonBlank_iff, Text.isJsonBlank_iff]
  constructor
  · exact fun b hb => front.2 b (mem_of_append_cons hopen heq.symm b hb)
  · rw [← List.cons_append, ← List.append_assoc, ← List.append_assoc] at heq
    exact fun b hb => back.2 b (mem_of_cons_append hclose heq.symm b hb)

end Json

/-! ## The settings -/

namespace Settings

variable {env : Environment} {s : Settings} {before after : String}

/-- Blanks around a variable other than the options do not matter, whether the settings are accepted
or not. -/
theorem ofEnvironment_pad_of_ne (hbefore : IsBlank before) (hafter : IsBlank after) {v : Variable}
    (hv : v ≠ .workerOptions) : ofEnvironment (env.pad v before after) = ofEnvironment env := by
  refine ofEnvironment_of_trimmed (fun u _ => ?_) ?_
  · by_cases hu : u = v
    · subst hu
      rw [env.get?_pad_self, Option.map_map]
      exact congrArg (Option.map · _) (funext (Text.trim_pad hbefore hafter))
    · rw [env.get?_pad_of_ne hu]
  · rw [lookup, env.get?_pad_of_ne (Ne.symm hv), lookup]

/-- Texts around the options matter only if the options are read otherwise. -/
theorem ofEnvironment_pad_options
    (h : ∀ text, env.get? Variable.workerOptions.name = some text →
      readOptions (Text.pad before after text) = readOptions text) :
    ofEnvironment (env.pad .workerOptions before after) = ofEnvironment env := by
  refine ofEnvironment_of_trimmed (fun u hu => by rw [env.get?_pad_of_ne hu]) ?_
  unfold lookup
  rw [env.get?_pad_self]
  cases htext : env.get? Variable.workerOptions.name with
  | none => rfl
  | some text => exact congrArg (Except.mapError _) (h text htext)

/-- The options of settings are what their variable stands for. -/
theorem holds_of_ofEnvironment (h : ofEnvironment env = .ok s) :
    Holds env .workerOptions none (OfContent none (Present OpensTo)) s.workerOptions := by
  obtain ⟨httpTimeout, -, h⟩ := Json.ok_of_bind h
  obtain ⟨responseTimeout, -, h⟩ := Json.ok_of_bind h
  obtain ⟨pingTimeout, -, h⟩ := Json.ok_of_bind h
  obtain ⟨workerOptions, hoptions, h⟩ := Json.ok_of_bind h
  cases h
  exact (lookup_eq_ok_iff fun text _ => readOptions_eq_ok_iff text).mp hoptions

variable {text : String} {x : Option Json}

theorem readOptions_pad (hbefore : IsBlank before) (hafter : IsBlank after)
    (hread : readOptions text = .ok x)
    (hblanks : x.isSome = true → Text.IsJsonBlank before ∧ Text.IsJsonBlank after) :
    readOptions (Text.pad before after text) = .ok x := by
  rw [readOptions_eq_ok_iff] at hread ⊢
  rcases hread with ⟨hblank, rfl⟩ | ⟨hcontent, v, rfl, members, hparse, hv⟩
  · exact .inl ⟨(Text.isBlank_pad_iff hbefore hafter).mpr hblank, rfl⟩
  · obtain ⟨hjson, hjson'⟩ := hblanks rfl
    refine .inr ⟨mt (Text.isBlank_pad_iff hbefore hafter).mp hcontent, v, rfl, members, ?_, hv⟩
    rw [Text.toBytes_pad]
    exact Json.parseOpened_padded ⟨_, Text.isJsonBlank_iff.mp hjson⟩
      ⟨_, Text.isJsonBlank_iff.mp hjson'⟩ hparse

theorem blanks_of_readOptions_pad (hbefore : IsBlank before) (hafter : IsBlank after)
    (hcontent : ¬ IsBlank text) (hread : readOptions (Text.pad before after text) = .ok x) :
    Text.IsJsonBlank before ∧ Text.IsJsonBlank after := by
  rw [readOptions_eq_ok_iff] at hread
  rcases hread with ⟨hblank, -⟩ | ⟨-, v, -, members, hparse, -⟩
  · exact absurd ((Text.isBlank_pad_iff hbefore hafter).mp hblank) hcontent
  · rw [Text.toBytes_pad] at hparse
    exact Json.blanks_of_parseOpened hbefore hafter hparse

/-- Settings with blanks around a variable. They are the same but for options that JSON does not
read with these blanks. -/
structure Padded (env : Environment) (s : Settings) : Prop where
  others : ∀ v : Variable, v ≠ .workerOptions → ∀ before after : String, IsBlank before →
    IsBlank after → ofEnvironment (env.pad v before after) = .ok s
  options : ∀ before after : String, IsBlank before → IsBlank after →
    (s.workerOptions.isSome = true → Text.IsJsonBlank before ∧ Text.IsJsonBlank after) →
    ofEnvironment (env.pad .workerOptions before after) = .ok s
  refused : ∀ before after : String, IsBlank before → IsBlank after →
    s.workerOptions.isSome = true → ¬ (Text.IsJsonBlank before ∧ Text.IsJsonBlank after) →
    ∃ e, ofEnvironment (env.pad .workerOptions before after) = .error e ∧
      e.variable = .workerOptions

/-- **Blanks around a variable do not matter**, apart from those around options that are not blanks
of JSON. -/
theorem padded (h : ofEnvironment env = .ok s) : Padded env s where
  others v hv before after hbefore hafter := by
    rw [ofEnvironment_pad_of_ne hbefore hafter hv, h]
  options before after hbefore hafter hblanks := by
    rw [ofEnvironment_pad_options ?_, h]
    intro text htext
    have hread : readOptions text = .ok s.workerOptions :=
      (readOptions_eq_ok_iff text s.workerOptions).mpr
        ((holds_iff_of_set htext).mp (holds_of_ofEnvironment h))
    rw [hread, readOptions_pad hbefore hafter hread hblanks]
  refused before after hbefore hafter hsome hblanks := by
    -- the options are set to a text with content
    have hholds := holds_of_ofEnvironment h
    obtain ⟨text, htext⟩ : ∃ text, env.get? Variable.workerOptions.name = some text := by
      cases hunset : env.get? Variable.workerOptions.name with
      | some text => exact ⟨text, rfl⟩
      | none =>
        rw [(holds_iff_of_unset hunset).mp hholds] at hsome
        cases hsome
    have hcontent : ¬ IsBlank text := by
      intro hblank
      rw [(ofContent_iff_of_isBlank hblank).mp ((holds_iff_of_set htext).mp hholds)] at hsome
      cases hsome
    -- with these blanks it is no longer read, and nothing before it is at fault
    obtain ⟨e, he⟩ : ∃ e, fault? (env.pad .workerOptions before after) .workerOptions = some e := by
      simp only [fault?, errorOf?_eq_some_iff]
      rw [exists_lookup_eq_error_iff fun text _ => readOptions_eq_ok_iff text]
      refine ⟨Text.pad before after text, ?_, fun x hx => ?_⟩
      · rw [env.get?_pad_self, htext, Option.map_some]
      · exact hblanks (blanks_of_readOptions_pad hbefore hafter hcontent
          ((readOptions_eq_ok_iff _ x).mpr hx))
    have hchecked : checked =
      [.httpTimeout, .responseTimeout, .pingTimeout] ++ .workerOptions :: [] := rfl
    refine ⟨e, (ofEnvironment_of_first hchecked he fun u hu => ?_).1, variable_of_fault? he⟩
    have hne : u ≠ .workerOptions := by
      rintro rfl
      exact absurd hu (by decide)
    rw [fault?_congr (env.get?_pad_of_ne hne before after)]
    exact fault?_of_ofEnvironment h (List.mem_append_left [_] hu)

theorem padded_crowded :
    let s : Settings :=
      { baseUrl := some "https://lms.example.com/", httpTimeout := 1500,
        csrfToken := some "token-1", entryPoint := some "worker", pingTimeout := 2000,
        workerOptions := some (.obj [("provider", .str "mock")]),
        unloadWarning := "Stay on this page." }
    ofEnvironment crowded = .ok s ∧ Padded crowded s := by
  intro s
  have haccepted : ofEnvironment crowded = .ok s := by decide +kernel
  exact ⟨haccepted, padded haccepted⟩

/-- Options behind a no-break space are refused. -/
theorem options_padded_refused :
    let env : Environment := [(Variable.workerOptions.name, Text.toBytes "\x7b\"a\":1\x7d")]
    ofEnvironment env = .ok { workerOptions := some (.obj [("a", .int 1)]) } ∧
      IsBlank "\u00a0" ∧ IsBlank "" ∧
      ofEnvironment (env.pad .workerOptions "\u00a0" "") =
        .error (.workerOptions (.unreadable "expected value at line 1 column 1")) := by
  refine ⟨?_, ?_, ?_, ?_⟩ <;> decide +kernel

end Settings

end Invigilation
