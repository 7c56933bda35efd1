import Invigilation.Client
import Invigilation.Proofs.Text.Blank

/-!
# Base URLs

A client stores the text of its base URL without the blanks around it and then without the slashes
at its end. Each is taken off once, so a blank in front of the last slashes stays, at the end of
what is stored; a base URL like that is stored otherwise when it is stored again.

- `IsAbsolute`: a text that starts like an absolute URL.
- `storedBase`: what is stored; `Client.build?_eq_ok_iff`: when it is.
- `exists_storedBase_append`: what a tail leaves in it.
- `IsHarmless`: the tails of slashes and blanks that leave nothing.
- `Client.Rebuilt`, `Client.rebuilt`: **what is stored is stored again as it is** unless it ends in
  a blank, and a tail does not show exactly if it is harmless.
- `Client.blank_before_slash`: a base URL for which neither holds.
-/

namespace Invigilation

open Text (IsBlank isBlank dropTrailing trimChars)

/-! ## Absolute URLs -/

/-- A text that starts like an absolute URL. -/
def IsAbsolute (url : String) : Prop :=
  ∃ rest, url = "http://" ++ rest ∨ url = "https://" ++ rest

theorem isPrefixOf_toList_iff {scheme url : String} :
    scheme.toList.isPrefixOf url.toList = true ↔ ∃ rest, url = scheme ++ rest := by
  rw [List.isPrefixOf_iff_prefix]
  constructor
  · rintro ⟨rest, hrest⟩
    refine ⟨String.ofList rest, ?_⟩
    rw [← String.toList_inj, String.toList_append, String.toList_ofList, hrest]
  · rintro ⟨rest, rfl⟩
    exact ⟨rest.toList, String.toList_append.symm⟩

theorem isAbsoluteUrl_iff {url : String} : isAbsoluteUrl url = true ↔ IsAbsolute url := by
  rw [isAbsoluteUrl, urlSchemes, List.any_cons, List.any_cons, List.any_nil, Bool.or_false,
    Bool.or_eq_true, isPrefixOf_toList_iff, isPrefixOf_toList_iff, ← exists_or]
  rfl

theorem IsAbsolute.append {url : String} (h : IsAbsolute url) (more : String) :
    IsAbsolute (url ++ more) := by
  obtain ⟨rest, rfl | rfl⟩ := h
  · exact ⟨rest ++ more, .inl String.append_assoc⟩
  · exact ⟨rest ++ more, .inr String.append_assoc⟩

/-- An absolute URL starts with a letter. -/
theorem IsAbsolute.head? {url : String} (h : IsAbsolute url) : url.toList.head? = some 'h' := by
  obtain ⟨rest, rfl | rfl⟩ := h <;> rw [String.toList_append] <;> rfl

theorem not_isAbsolute_empty : ¬ IsAbsolute "" := by
  intro h
  cases h.head?

/-! ## What is stored -/

/-- What is stored of the text of a base URL, if it is one. -/
def storedBase (b : String) : String :=
  String.ofList (dropTrailing (· == '/') (trimChars b.toList))

theorem toList_storedBase (b : String) :
    (storedBase b).toList = dropTrailing (· == '/') (trimChars b.toList) :=
  String.toList_ofList

theorem storedBase_of_isBlank {b : String} (h : IsBlank b) : storedBase b = "" := by
  rw [storedBase, Text.trimChars_eq_nil_iff.mpr h]
  rfl

/-- What is stored does not end in a slash. -/
theorem getLast?_storedBase (b : String) : ∀ c ∈ (storedBase b).toList.getLast?, c ≠ '/' := by
  intro c hc
  rw [toList_storedBase] at hc
  simpa using Text.getLast?_dropTrailing (· == '/') _ c hc

/-- The text that a base URL is checked for is trimmed before. -/
theorem normalizeBaseUrl_trim (b : String) :
    normalizeBaseUrl (Text.trim b) =
      if isAbsoluteUrl (storedBase b) then .ok (storedBase b)
      else .error (.invalidUrl (Text.trim b)) := by
  unfold normalizeBaseUrl
  rw [Text.trim, String.toList_ofList, Text.trimChars_trimChars]
  rfl

namespace Client

/-- The client of some settings, but for the base URL that it stores. -/
def storing (s : ClientSettings) (baseUrl : Option String) : Client :=
  ⟨baseUrl, max s.timeout minTimeout, s.csrfToken.bind Text.content?⟩

theorem build?_of_isBlank (s : ClientSettings) {b : String} (h : IsBlank b) :
    build? { s with baseUrl := some b } = .ok (storing s none) := by
  unfold build?
  dsimp only
  rw [Option.bind_some, Text.content?_of_isBlank h]
  rfl

theorem build?_of_not_isBlank (s : ClientSettings) {b : String} (h : ¬ IsBlank b) :
    build? { s with baseUrl := some b } =
      (normalizeBaseUrl (Text.trim b)).map fun stored => storing s (some stored) := by
  unfold build?
  dsimp only
  rw [Option.bind_some, Text.content?_of_not_isBlank h]
  dsimp only
  cases normalizeBaseUrl (Text.trim b) <;> rfl

/-- A client stores a base URL exactly if what is left of its text is absolute. -/
theorem build?_eq_ok_iff {s : ClientSettings} {b stored : String} {c : Client} :
    build? { s with baseUrl := some b } = .ok c ∧ c.baseUrl = some stored ↔
      IsAbsolute stored ∧ storedBase b = stored ∧ c = storing s (some stored) := by
  by_cases hblank : IsBlank b
  · rw [build?_of_isBlank s hblank, storedBase_of_isBlank hblank]
    constructor
    · rintro ⟨hbuild, hstored⟩
      cases hbuild
      cases hstored
    · rintro ⟨habsolute, rfl, -⟩
      exact absurd habsolute not_isAbsolute_empty
  · rw [build?_of_not_isBlank s hblank, normalizeBaseUrl_trim]
    by_cases habsolute : IsAbsolute (storedBase b)
    · rw [if_pos (isAbsoluteUrl_iff.mpr habsolute)]
      constructor
      · rintro ⟨hbuild, hstored⟩
        cases hbuild
        cases hstored
        exact ⟨habsolute, rfl, rfl⟩
      · rintro ⟨-, rfl, rfl⟩
        exact ⟨rfl, rfl⟩
    · rw [if_neg (mt isAbsoluteUrl_iff.mp habsolute)]
      constructor
      · rintro ⟨hbuild, -⟩
        cases hbuild
      · rintro ⟨habsolute', rfl, -⟩
        exact absurd habsolute' habsolute

end Client

/-! ## Tails -/

/-- A text whose last character is a blank. -/
def EndsBlank (s : String) : Prop :=
  ∃ c ∈ s.toList.getLast?, isBlank c = true

/-- A text of slashes. -/
def IsSlashes (s : String) : Prop :=
  ∀ c ∈ s.toList, c = '/'

/-- A tail that does not show behind a base URL: slashes and then blanks, and blanks alone if the
base URL ends in a blank itself. -/
def IsHarmless (b tail : String) : Prop :=
  ∃ slashes blanks, IsSlashes slashes ∧ IsBlank blanks ∧ tail = slashes ++ blanks ∧
    (slashes = "" ∨ ¬ EndsBlank b)

theorem not_isBlank_slash : isBlank '/' = false := by decide

/-- The parts of a base URL: blanks, what is stored, slashes, and blanks. -/
theorem exists_parts (b : String) :
    ∃ front slashes back : List Char,
      b.toList = front ++ ((storedBase b).toList ++ (slashes ++ back)) ∧
      (∀ c ∈ front, isBlank c = true) ∧ (∀ c ∈ slashes, c = '/') ∧
      (∀ c ∈ back, isBlank c = true) ∧
      ∀ c ∈ ((storedBase b).toList ++ slashes).getLast?, isBlank c = false := by
  obtain ⟨back, hback, hblank⟩ :=
    Text.exists_dropTrailing isBlank (b.toList.dropWhile isBlank)
  obtain ⟨slashes, hslashes, hslash⟩ :=
    Text.exists_dropTrailing (· == '/') (trimChars b.toList)
  rw [← toList_storedBase] at hslashes
  refine ⟨b.toList.takeWhile isBlank, slashes, back, ?_, ?_, ?_, hblank, ?_⟩
  · have hinner : b.toList.dropWhile isBlank =
        (storedBase b).toList ++ slashes ++ back := by
      rw [hback, ← hslashes, trimChars]
    rw [← List.append_assoc (storedBase b).toList, ← hinner, List.takeWhile_append_dropWhile]
  · exact fun c hc => List.mem_takeWhile_imp hc
  · exact fun c hc => by simpa using hslash c hc
  · rw [← hslashes]
    exact Text.getLast?_trimChars b.toList

/-- What is stored of a text with an absolute URL in it. -/
theorem storedBase_eq {b : String} {front stored behind : List Char}
    (hb : b.toList = front ++ (stored ++ behind)) (hfront : ∀ c ∈ front, isBlank c = true)
    (hhead : stored.head? = some 'h') (hlast : ∀ c ∈ stored.getLast?, c ≠ '/')
    (hblank : dropTrailing isBlank behind = [] → ∀ c ∈ stored.getLast?, isBlank c = false) :
    (storedBase b).toList =
      stored ++ dropTrailing (· == '/') (dropTrailing isBlank behind) := by
  have hlast' : ∀ c ∈ stored.getLast?, (c == '/') = false := fun c hc => by simpa using hlast c hc
  have hhead' : ∀ c ∈ (stored ++ behind).head?, isBlank c = false := by
    intro c hc
    rw [List.head?_append, hhead] at hc
    obtain rfl : 'h' = c := Option.some_inj.mp hc
    decide
  rw [toList_storedBase, hb, trimChars, List.dropWhile_append_of_pos hfront,
    Text.dropWhile_eq_self hhead']
  by_cases hbehind : dropTrailing isBlank behind = []
  · -- only blanks stand behind, and they go
    have hall := Text.dropTrailing_eq_nil_iff.mp hbehind
    rw [Text.dropTrailing_append hall, Text.dropTrailing_eq_self (hblank hbehind),
      Text.dropTrailing_eq_self hlast', hbehind]
    exact (List.append_nil stored).symm
  · rw [Text.dropTrailing_append_of_ne_nil hbehind]
    by_cases hslashes : dropTrailing (· == '/') (dropTrailing isBlank behind) = []
    · rw [Text.dropTrailing_append (Text.dropTrailing_eq_nil_iff.mp hslashes),
        Text.dropTrailing_eq_self hlast', hslashes, List.append_nil]
    · rw [Text.dropTrailing_append_of_ne_nil hslashes]

/-- What is stored of a base URL with a tail: what is stored without it, and what stands in front
of the last slashes of all that comes behind. -/
theorem exists_storedBase_append {b : String} (habsolute : IsAbsolute (storedBase b))
    (tail : String) :
    ∃ slashes back : List Char, (∀ c ∈ slashes, c = '/') ∧ (∀ c ∈ back, isBlank c = true) ∧
      (back = [] ↔ ¬ EndsBlank b) ∧
      (storedBase (b ++ tail)).toList = (storedBase b).toList ++
        dropTrailing (· == '/') (dropTrailing isBlank (slashes ++ (back ++ tail.toList))) := by
  obtain ⟨front, slashes, back, hb, hfront, hslashes, hback, hlast⟩ := exists_parts b
  refine ⟨slashes, back, hslashes, hback, ?_, ?_⟩
  · have hne : (storedBase b).toList ++ slashes ≠ [] := by
      intro hnil
      have hhead := habsolute.head?
      rw [(List.append_eq_nil_iff.mp hnil).1] at hhead
      cases hhead
    rw [EndsBlank, hb, ← List.append_assoc (storedBase b).toList]
    constructor
    · rintro rfl ⟨c, hc, hblank⟩
      rw [List.append_nil, List.getLast?_append_of_ne_nil front hne] at hc
      rw [hlast c hc] at hblank
      cases hblank
    · intro hends
      by_contra hsome
      have hlastBack := List.getLast?_eq_some_getLast hsome
      refine hends ⟨back.getLast hsome, ?_, hback _ (List.getLast_mem hsome)⟩
      rw [List.getLast?_append_of_ne_nil front (List.append_ne_nil_of_right_ne_nil _ hsome),
        List.getLast?_append_of_ne_nil _ hsome, hlastBack]
      exact Option.mem_some_self _
  · refine storedBase_eq ?_ hfront habsolute.head? (getLast?_storedBase b) ?_
    · rw [String.toList_append, hb]
      simp only [List.append_assoc]
    · -- if all that stands behind is blank then there are no slashes behind what is stored
      intro hnil
      have hall := Text.dropTrailing_eq_nil_iff.mp hnil
      have hnone : slashes = [] := by
        refine List.eq_nil_iff_forall_not_mem.mpr fun c hc => ?_
        have hblank := hall c (List.mem_append_left _ hc)
        rw [hslashes c hc, not_isBlank_slash] at hblank
        cases hblank
      rwa [hnone, List.append_nil] at hlast

/-- If nothing but slashes is left of slashes, blanks and a tail, then the tail is slashes and then
blanks, and blanks alone if there are any in front of it. -/
theorem parts_of_dropTrailing {slashes back tail : List Char}
    (hback : ∀ c ∈ back, isBlank c = true)
    (h : ∀ c ∈ dropTrailing isBlank (slashes ++ (back ++ tail)), (c == '/') = true) :
    ∃ slashes' blanks : List Char, (∀ c ∈ slashes', c = '/') ∧
      (∀ c ∈ blanks, isBlank c = true) ∧ tail = slashes' ++ blanks ∧
      (slashes' = [] ∨ back = []) := by
  obtain ⟨blanks, htail, hblanks⟩ := Text.exists_dropTrailing isBlank tail
  by_cases hnil : dropTrailing isBlank tail = []
  · exact ⟨[], tail, by simp, Text.dropTrailing_eq_nil_iff.mp hnil, rfl, .inl rfl⟩
  · have hleft : dropTrailing isBlank (slashes ++ (back ++ tail)) =
        slashes ++ back ++ dropTrailing isBlank tail := by
      rw [← List.append_assoc, Text.dropTrailing_append_of_ne_nil hnil]
    rw [hleft] at h
    refine ⟨dropTrailing isBlank tail, blanks, ?_, hblanks, htail, .inr ?_⟩
    · intro c hc
      exact beq_iff_eq.mp (h c (List.mem_append_right _ hc))
    · refine List.eq_nil_iff_forall_not_mem.mpr fun c hc => ?_
      have hslash := h c (List.mem_append_left _ (List.mem_append_right _ hc))
      have hblank := hback c hc
      rw [beq_iff_eq.mp hslash, not_isBlank_slash] at hblank
      cases hblank

/-- Nothing but slashes is left of slashes and blanks with such a tail. -/
theorem dropTrailing_of_parts {slashes back slashes' blanks : List Char}
    (hslashes : ∀ c ∈ slashes, c = '/') (hback : ∀ c ∈ back, isBlank c = true)
    (hslashes' : ∀ c ∈ slashes', c = '/') (hblanks : ∀ c ∈ blanks, isBlank c = true)
    (hsplit : slashes' = [] ∨ back = []) :
    ∀ c ∈ dropTrailing isBlank (slashes ++ (back ++ (slashes' ++ blanks))), (c == '/') = true := by
  have hbehind : slashes ++ (back ++ (slashes' ++ blanks)) =
      (slashes ++ slashes') ++ (back ++ blanks) := by
    rcases hsplit with rfl | rfl <;> simp
  have hlast : ∀ c ∈ back ++ blanks, isBlank c = true := by
    intro c hc
    rcases List.mem_append.mp hc with hc | hc
    · exact hback c hc
    · exact hblanks c hc
  intro c hc
  rw [hbehind, Text.dropTrailing_append hlast] at hc
  have hmem := (Text.dropTrailing_isPrefix isBlank _).subset hc
  rcases List.mem_append.mp hmem with hc | hc
  · exact beq_iff_eq.mpr (hslashes c hc)
  · exact beq_iff_eq.mpr (hslashes' c hc)

/-- A tail does not show exactly if it is harmless. -/
theorem storedBase_append_eq_iff {b tail : String} (habsolute : IsAbsolute (storedBase b)) :
    storedBase (b ++ tail) = storedBase b ↔ IsHarmless b tail := by
  obtain ⟨slashes, back, hslashes, hback, hends, hstored⟩ :=
    exists_storedBase_append habsolute tail
  rw [← String.toList_inj, hstored, List.append_right_eq_self, Text.dropTrailing_eq_nil_iff]
  constructor
  · intro hall
    obtain ⟨slashes', blanks, hslashes', hblanks, htail, hsplit⟩ := parts_of_dropTrailing hback hall
    refine ⟨String.ofList slashes', String.ofList blanks, ?_, ?_, ?_, ?_⟩
    · intro c hc
      rw [String.toList_ofList] at hc
      exact hslashes' c hc
    · intro c hc
      rw [String.toList_ofList] at hc
      exact hblanks c hc
    · rw [← String.toList_inj, String.toList_append, String.toList_ofList, String.toList_ofList,
        htail]
    · rcases hsplit with rfl | hnone
      · exact .inl rfl
      · exact .inr (hends.mp hnone)
  · rintro ⟨slashes', blanks, hslashes', hblanks, rfl, hsplit⟩
    rw [String.toList_append]
    refine dropTrailing_of_parts hslashes hback hslashes' hblanks ?_
    rcases hsplit with rfl | hnot
    · exact .inl rfl
    · exact .inr (hends.mpr hnot)

/-- A base URL with a tail is one too. -/
theorem isAbsolute_storedBase_append {b : String} (habsolute : IsAbsolute (storedBase b))
    (tail : String) : IsAbsolute (storedBase (b ++ tail)) := by
  obtain ⟨slashes, back, -, -, -, hstored⟩ := exists_storedBase_append habsolute tail
  rw [← String.ofList_toList (s := storedBase (b ++ tail)), hstored, String.ofList_append,
    String.ofList_toList]
  exact habsolute.append _

/-! ## Storing again -/

/-- What is stored is stored again as it is, exactly if it does not end in a blank. -/
theorem storedBase_storedBase_iff {b : String} (habsolute : IsAbsolute (storedBase b)) :
    storedBase (storedBase b) = storedBase b ↔ ¬ EndsBlank (storedBase b) := by
  have hhead : ∀ c ∈ (storedBase b).toList.head?, isBlank c = false := by
    intro c hc
    rw [habsolute.head?] at hc
    obtain rfl : 'h' = c := Option.some_inj.mp hc
    decide
  constructor
  · rintro heq ⟨c, hc, hblank⟩
    -- nothing was taken off, not even the blank at the end
    have hle : (storedBase (storedBase b)).toList.length ≤
        (trimChars (storedBase b).toList).length := by
      rw [toList_storedBase]
      exact (Text.dropTrailing_isPrefix _ _).length_le
    have hwithin : trimChars (storedBase b).toList <+: (storedBase b).toList := by
      rw [trimChars, Text.dropWhile_eq_self hhead]
      exact Text.dropTrailing_isPrefix isBlank _
    rw [heq] at hle
    have hlast := Text.getLast?_trimChars (storedBase b).toList
    rw [hwithin.eq_of_length_le hle] at hlast
    rw [hlast c hc] at hblank
    cases hblank
  · intro hends
    have hlast : ∀ c ∈ (storedBase b).toList.getLast?, isBlank c = false := by
      intro c hc
      exact Bool.eq_false_iff.mpr fun hblank => hends ⟨c, hc, hblank⟩
    have hslash : ∀ c ∈ (storedBase b).toList.getLast?, (c == '/') = false := by
      intro c hc
      simpa using getLast?_storedBase b c hc
    rw [← String.toList_inj, toList_storedBase (storedBase b), Text.trimChars_eq hhead hlast,
      Text.dropTrailing_eq_self hslash]

namespace Client

/-- Clients resolve all URLs alike exactly if they store the same base URL. -/
theorem resolve_eq_iff {c c' : Client} :
    (∀ url, c'.resolve url = c.resolve url) ↔ c'.baseUrl = c.baseUrl := by
  have hroot : ∀ c : Client, c.resolve "/" =
      (c.baseUrl.map fun base => .ok (base ++ "/")).getD (.error (.invalidUrl "/")) := by
    intro c
    have htrim : Text.trim "/" = "/" := by decide
    have habsolute : isAbsoluteUrl "/" = false := by decide
    unfold resolve
    dsimp only
    rw [htrim, habsolute]
    cases c.baseUrl <;> rfl
  constructor
  · intro h
    have hsame := h "/"
    rw [hroot, hroot] at hsame
    cases hbase : c.baseUrl <;> cases hbase' : c'.baseUrl <;> rw [hbase, hbase'] at hsame
    · cases hsame
    · cases hsame
    · rw [(String.append_left_inj "/").mp (Except.ok.inj hsame)]
  · intro h url
    rw [resolve, h, resolve]

/-- How a base URL that is stored is stored again, and with a tail.
1. What is stored is stored again as it is, by the same client, if it does not end in a blank.
2. If it does, it is never stored again as it is.
3. A base URL with a tail, be it slashes and blanks in any mixture or something else, makes a
   client, and this one resolves all URLs alike exactly if the tail is harmless. -/
structure Rebuilt (s : ClientSettings) (b : String) (c : Client) (stored : String) : Prop where
  again : ¬ EndsBlank stored → build? { s with baseUrl := some stored } = .ok c
  unsettled : EndsBlank stored → ∀ c', build? { s with baseUrl := some stored } = .ok c' →
    c'.baseUrl ≠ some stored
  tails : ∀ tail, ∃ c', build? { s with baseUrl := some (b ++ tail) } = .ok c' ∧
    ((∀ url, c'.resolve url = c.resolve url) ↔ IsHarmless b tail)

variable {s : ClientSettings} {b stored : String} {c : Client}

/-- **What is stored is stored again as it is**, unless it ends in a blank, and a tail behind a base
URL does not show exactly if it is harmless. -/
theorem rebuilt (h : build? { s with baseUrl := some b } = .ok c)
    (hstored : c.baseUrl = some stored) : Rebuilt s b c stored := by
  obtain ⟨habsolute, rfl, rfl⟩ := build?_eq_ok_iff.mp ⟨h, hstored⟩
  refine ⟨?_, ?_, ?_⟩
  · intro hends
    have hagain := (storedBase_storedBase_iff habsolute).mpr hends
    exact (build?_eq_ok_iff.mpr ⟨habsolute, hagain, rfl⟩).1
  · intro hends c' hc' hbase
    obtain ⟨-, hagain, -⟩ := build?_eq_ok_iff.mp ⟨hc', hbase⟩
    exact (storedBase_storedBase_iff habsolute).mp hagain hends
  · intro tail
    have htail := isAbsolute_storedBase_append habsolute tail
    refine ⟨storing s (some (storedBase (b ++ tail))),
      (build?_eq_ok_iff.mpr ⟨htail, rfl, rfl⟩).1, ?_⟩
    rw [resolve_eq_iff, ← storedBase_append_eq_iff habsolute]
    exact Option.some_inj

/-- A base URL in blanks, with slashes at its end. -/
theorem rebuilt_slashes :
    build? { baseUrl := some " https://lms.example.com//" } =
        .ok ⟨some "https://lms.example.com", 30000, none⟩ ∧
      Rebuilt {} " https://lms.example.com//" ⟨some "https://lms.example.com", 30000, none⟩
        "https://lms.example.com" := by
  have hbuild : build? { baseUrl := some " https://lms.example.com//" } =
      .ok ⟨some "https://lms.example.com", 30000, none⟩ := by decide +kernel
  exact ⟨hbuild, rebuilt (s := {}) hbuild rfl⟩

/-- A blank in front of the last slash stays in what is stored. It is gone once that is stored
again, and it stands in the URLs that are resolved, where without the tail there is none. -/
theorem blank_before_slash :
    build? { baseUrl := some "https://lms.example.com /" } =
        .ok ⟨some "https://lms.example.com ", 30000, none⟩ ∧
      build? { baseUrl := some "https://lms.example.com " } =
        .ok ⟨some "https://lms.example.com", 30000, none⟩ ∧
      resolve ⟨some "https://lms.example.com ", 30000, none⟩ "/a" =
        .ok "https://lms.example.com /a" ∧
      resolve ⟨some "https://lms.example.com", 30000, none⟩ "/a" =
        .ok "https://lms.example.com/a" := by
  refine ⟨?_, ?_, ?_, ?_⟩ <;> decide +kernel

end Client

end Invigilation
