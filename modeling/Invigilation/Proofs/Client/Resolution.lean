import Invigilation.Proofs.Client.BaseUrl

/-!
# Resolved URLs

A client takes an absolute URL as it is and puts any other that starts with a slash behind its base
URL. What it resolves to is absolute and trimmed, so that every client leaves it alone. If the base
URL names a host, the request goes there, whatever the path says. A client can also be built from a
base URL that names none, and then the host is looked for in the path.

- `Http.Url.authority_append`: a path does not change the authority of a base URL that has one.
- `Client.IsUnder`: a URL that was put behind a base URL.
- `Client.Resolved`, `Client.Unresolved`: what holds of a URL that resolves, and of one that does
  not.
- `Client.resolution`: **every URL is one of the two**.
- `Client.hostless_base_moved`: a base URL without a host, and the hosts that paths lead to.
-/

namespace Invigilation

open Text (IsBlank isBlank dropTrailing)

/-! ## Where a URL leads -/

namespace Http.Url

/-- The slashes in front of an authority. -/
def isSlash (c : Char) : Bool :=
  c == '/' || c == '\\'

/-- What stands behind the scheme of a text, and what follows that text. -/
def behindScheme (cs : List Char) : List Char :=
  ((cs.filter (!isSkipped ·)).dropWhile (· ≠ ':')).drop 1

/-- The authority of a base URL with a path. -/
theorem authority_eq {base : String} (hscheme : ':' ∈ base.toList) (path : List Char) :
    authority (base ++ String.ofList ('/' :: path)) =
      ((behindScheme base.toList ++ '/' :: (dropTrailing isPadding path).filter
        (!isSkipped ·)).dropWhile isSlash).takeWhile (!endsAuthority ·) := by
  -- what is cut off at the end is behind the slash
  have hslash : dropTrailing isPadding ('/' :: path) = '/' :: dropTrailing isPadding path := by
    by_cases hpath : dropTrailing isPadding path = []
    · have hall := Text.dropTrailing_eq_nil_iff.mp hpath
      rw [← List.singleton_append, Text.dropTrailing_append hall, hpath]
      rfl
    · rw [← List.singleton_append, Text.dropTrailing_append_of_ne_nil hpath]
      rfl
  have hcut : dropTrailing isPadding (base ++ String.ofList ('/' :: path)).toList =
      base.toList ++ '/' :: dropTrailing isPadding path := by
    rw [String.toList_append, String.toList_ofList, Text.dropTrailing_append_of_ne_nil, hslash]
    rw [hslash]
    exact List.cons_ne_nil _ _
  have hfiltered : (base.toList ++ '/' :: dropTrailing isPadding path).filter (!isSkipped ·) =
      base.toList.filter (!isSkipped ·) ++
        '/' :: (dropTrailing isPadding path).filter (!isSkipped ·) := by
    rw [List.filter_append, List.filter_cons_of_pos (by decide)]
  have hcolon : (base.toList.filter (!isSkipped ·)).dropWhile (· ≠ ':') ≠ [] := by
    intro hnil
    have hall := List.dropWhile_eq_nil_iff.mp hnil
    have hmem : ':' ∈ base.toList.filter (!isSkipped ·) :=
      List.mem_filter.mpr ⟨hscheme, by decide⟩
    simpa using hall ':' hmem
  show (((((dropTrailing isPadding _).filter _).dropWhile _).drop 1).dropWhile _).takeWhile _ = _
  rw [hcut, hfiltered, List.dropWhile_append, if_neg (by simpa using hcolon),
    List.drop_append_of_le_length (List.length_pos_iff.mpr hcolon)]
  rfl

/-- A path behind a base URL does not change its authority, if it has one. -/
theorem authority_append {base : String} (hscheme : ':' ∈ base.toList)
    (hhost : authority (base ++ "/") ≠ []) (path : List Char) :
    authority (base ++ String.ofList ('/' :: path)) = authority (base ++ "/") := by
  have hroot : authority (base ++ "/") =
      ((behindScheme base.toList ++ ['/']).dropWhile isSlash).takeWhile (!endsAuthority ·) :=
    authority_eq hscheme []
  rw [authority_eq hscheme path]
  rw [hroot] at hhost ⊢
  -- the slashes in front of the authority end before that of the path
  have hbehind : ¬ ((behindScheme base.toList).dropWhile isSlash).isEmpty = true := by
    intro hempty
    rw [List.dropWhile_append, if_pos hempty] at hhost
    exact hhost rfl
  rw [List.dropWhile_append, if_neg hbehind, List.dropWhile_append, if_neg hbehind]
  -- and the authority ends there at the latest
  rw [List.takeWhile_append, List.takeWhile_append]
  have hslash : ∀ rest, ('/' :: rest).takeWhile (!endsAuthority ·) = [] := fun rest => rfl
  rw [hslash, hslash]

end Http.Url

/-! ## How a URL resolves -/

theorem IsAbsolute.mem_colon {url : String} (h : IsAbsolute url) : ':' ∈ url.toList := by
  obtain ⟨rest, rfl | rfl⟩ := h
  · exact String.toList_append ▸ List.mem_append_left _ (by decide)
  · exact String.toList_append ▸ List.mem_append_left _ (by decide)

/-- An absolute URL that does not end in a blank is trimmed. -/
theorem IsAbsolute.trim_eq {url : String} (h : IsAbsolute url)
    (hlast : ∀ c ∈ url.toList.getLast?, isBlank c = false) : Text.trim url = url := by
  refine Text.trim_eq (fun c hc => ?_) hlast
  rw [h.head?] at hc
  obtain rfl : 'h' = c := Option.some_inj.mp hc
  decide

theorem getLast?_trim (url : String) :
    ∀ c ∈ (Text.trim url).toList.getLast?, isBlank c = false := by
  rw [Text.trim, String.toList_ofList]
  exact Text.getLast?_trimChars url.toList

namespace Client

variable {c : Client} {url r : String}

/-- The ways in which a URL resolves, or does not. -/
theorem resolve_cases (c : Client) (url : String) :
    (IsAbsolute (Text.trim url) ∧ c.resolve url = .ok (Text.trim url)) ∨
    (¬ IsAbsolute (Text.trim url) ∧ ∃ base path, c.baseUrl = some base ∧
      Text.trim url = String.ofList ('/' :: path) ∧
      c.resolve url = .ok (base ++ Text.trim url)) ∨
    (¬ IsAbsolute (Text.trim url) ∧
      ((Text.trim url).toList.head? ≠ some '/' ∨ c.baseUrl = none) ∧
      c.resolve url = .error (.invalidUrl url)) := by
  unfold resolve
  by_cases habsolute : IsAbsolute (Text.trim url)
  · exact .inl ⟨habsolute, if_pos (isAbsoluteUrl_iff.mpr habsolute)⟩
  · dsimp only
    rw [if_neg (mt isAbsoluteUrl_iff.mp habsolute)]
    refine .inr ?_
    split
    · next base path hbase hpath =>
      have htrim : Text.trim url = String.ofList ('/' :: path) := by
        rw [← hpath, String.ofList_toList]
      exact .inl ⟨habsolute, base, path, hbase, htrim, by rw [htrim]⟩
    · next hnone =>
      refine .inr ⟨habsolute, ?_, rfl⟩
      by_contra hboth
      obtain ⟨hhead, hsome⟩ := not_or.mp hboth
      obtain ⟨base, hbase⟩ := Option.ne_none_iff_exists'.mp hsome
      obtain ⟨path, hpath⟩ := List.head?_eq_some_iff.mp (Classical.not_not.mp hhead)
      exact hnone base path hbase hpath

/-- An absolute URL that is trimmed resolves to itself. -/
theorem resolve_of_isAbsolute (c : Client) (habsolute : IsAbsolute r) (htrim : Text.trim r = r) :
    c.resolve r = .ok r := by
  unfold resolve
  dsimp only
  rw [htrim, if_pos (isAbsoluteUrl_iff.mpr habsolute)]

/-- What a client stores is an absolute URL that does not end in a slash. -/
theorem stored_of_build? {s : ClientSettings} {base : String} (h : build? s = .ok c)
    (hbase : c.baseUrl = some base) :
    IsAbsolute base ∧ ∀ char ∈ base.toList.getLast?, char ≠ '/' := by
  obtain ⟨_ | b, timeout, token⟩ := s
  · cases h
    cases hbase
  · obtain ⟨habsolute, rfl, -⟩ :=
      build?_eq_ok_iff (s := ⟨some b, timeout, token⟩).mp ⟨h, hbase⟩
    exact ⟨habsolute, getLast?_storedBase b⟩

/-! ## Whole URLs -/

/-- A URL that was put behind a base URL. The base URL starts like an absolute one and does not end
in a slash, and if it names a host then the URL leads to that host, whatever the path is. -/
structure IsUnder (base path r : String) : Prop where
  absolute : IsAbsolute base
  unslashed : ∀ c ∈ base.toList.getLast?, c ≠ '/'
  joined : r = base ++ path
  host : Http.Url.authority (base ++ "/") ≠ [] →
    Http.Url.authority r = Http.Url.authority (base ++ "/")

/-- What holds of a URL that a client resolves.
1. No blank stands at either end of what it resolves to.
2. This resolves to itself, with every client.
3. Blanks around the URL do not show.
4. An absolute URL is taken as it is, but for the blanks around it.
5. Any other was put behind the base URL of the client. -/
structure Resolved (c : Client) (url r : String) : Prop where
  bare : (∀ char ∈ r.toList.head?, isBlank char = false) ∧
    ∀ char ∈ r.toList.getLast?, isBlank char = false
  stable : ∀ c' : Client, c'.resolve r = .ok r
  unpadded : ∀ before after, IsBlank before → IsBlank after →
    c.resolve (Text.pad before after url) = .ok r
  taken : IsAbsolute (Text.trim url) → r = Text.trim url
  under : ¬ IsAbsolute (Text.trim url) →
    ∃ base, c.baseUrl = some base ∧ IsUnder base (Text.trim url) r

/-- What holds of a URL that a client does not resolve. It is not absolute, and there is nothing
that it could be put behind, or it does not start with a slash. The error carries it as it was
given. -/
structure Unresolved (c : Client) (url : String) (e : ClientError) : Prop where
  error : e = .invalidUrl url
  relative : ¬ IsAbsolute (Text.trim url)
  cause : (Text.trim url).toList.head? ≠ some '/' ∨ c.baseUrl = none

theorem resolve_pad {before after : String} (hbefore : IsBlank before) (hafter : IsBlank after)
    (h : c.resolve url = .ok r) : c.resolve (Text.pad before after url) = .ok r := by
  unfold resolve at h ⊢
  dsimp only at h ⊢
  rw [Text.trim_pad hbefore hafter]
  split at h
  · next habsolute => rwa [if_pos habsolute]
  · next habsolute =>
    rw [if_neg habsolute]
    split at h
    · exact h
    · cases h

/-- A base URL with a path behind it. -/
theorem isUnder_append {base : String} (habsolute : IsAbsolute base)
    (hslash : ∀ char ∈ base.toList.getLast?, char ≠ '/') (path : List Char) :
    IsUnder base (String.ofList ('/' :: path)) (base ++ String.ofList ('/' :: path)) :=
  ⟨habsolute, hslash, rfl, fun hhost =>
    Http.Url.authority_append habsolute.mem_colon hhost path⟩

/-- An absolute URL whose end is that of a trimmed text. -/
theorem resolved_of_isAbsolute (h : c.resolve url = .ok r) (habsolute : IsAbsolute r)
    (hlast : ∀ char ∈ r.toList.getLast?, isBlank char = false)
    (taken : IsAbsolute (Text.trim url) → r = Text.trim url)
    (under : ¬ IsAbsolute (Text.trim url) →
      ∃ base, c.baseUrl = some base ∧ IsUnder base (Text.trim url) r) :
    Resolved c url r := by
  refine ⟨⟨fun char hc => ?_, hlast⟩, fun c' => ?_, ?_, taken, under⟩
  · rw [habsolute.head?] at hc
    obtain rfl : 'h' = char := Option.some_inj.mp hc
    decide
  · exact c'.resolve_of_isAbsolute habsolute (habsolute.trim_eq hlast)
  · intro before after hbefore hafter
    exact resolve_pad hbefore hafter h

theorem resolved_of_build? {s : ClientSettings} (hbuild : build? s = .ok c)
    (h : c.resolve url = .ok r) : Resolved c url r := by
  have hlast := getLast?_trim url
  obtain ⟨habsolute, heq⟩ | ⟨hrelative, base, path, hbase, hpath, heq⟩ | ⟨-, -, heq⟩ :=
    c.resolve_cases url
  · obtain rfl : Text.trim url = r := Except.ok.inj (heq.symm.trans h)
    exact resolved_of_isAbsolute h habsolute hlast (fun _ => rfl) (absurd habsolute)
  · obtain rfl : base ++ Text.trim url = r := Except.ok.inj (heq.symm.trans h)
    obtain ⟨hstored, hslash⟩ := stored_of_build? hbuild hbase
    -- the end of the path is the end of the whole
    have hne : (Text.trim url).toList ≠ [] := by
      rw [hpath, String.toList_ofList]
      exact List.cons_ne_nil '/' path
    have hend : ∀ char ∈ (base ++ Text.trim url).toList.getLast?, isBlank char = false := by
      rw [String.toList_append, List.getLast?_append_of_ne_nil _ hne]
      exact hlast
    have hunder : IsUnder base (Text.trim url) (base ++ Text.trim url) := by
      rw [hpath]
      exact isUnder_append hstored hslash path
    exact resolved_of_isAbsolute h (hstored.append _) hend
      (absurd · hrelative) fun _ => ⟨base, hbase, hunder⟩
  · cases heq.symm.trans h

theorem unresolved_of_resolve {e : ClientError} (h : c.resolve url = .error e) :
    Unresolved c url e := by
  obtain ⟨-, heq⟩ | ⟨-, base, path, -, -, heq⟩ | ⟨hrelative, hcause, heq⟩ := c.resolve_cases url
  · cases heq.symm.trans h
  · cases heq.symm.trans h
  · exact ⟨(Except.error.inj (heq.symm.trans h)).symm, hrelative, hcause⟩

/-- **Every URL resolves or does not**, with any client that can be built. What it resolves to is
left alone by every client, and a path that is put behind a base URL stays there. -/
theorem resolution {s : ClientSettings} (hbuild : build? s = .ok c) (url : String) :
    match c.resolve url with
    | .ok r => Resolved c url r
    | .error e => Unresolved c url e := by
  cases h : c.resolve url with
  | ok r => exact resolved_of_build? hbuild h
  | error e => exact unresolved_of_resolve h

/-- A path with an at sign in blanks, behind a base URL with a port. -/
theorem resolution_path :
    let c : Client := ⟨some "https://lms.example.com:8000", 30000, none⟩
    build? { baseUrl := some "https://lms.example.com:8000/" } = .ok c ∧
      c.resolve " //@other.example.com/7\n" =
        .ok "https://lms.example.com:8000//@other.example.com/7" ∧
      Resolved c " //@other.example.com/7\n"
        "https://lms.example.com:8000//@other.example.com/7" := by
  intro c
  have hbuild : build? { baseUrl := some "https://lms.example.com:8000/" } = .ok c := by
    decide +kernel
  have hresolve : c.resolve " //@other.example.com/7\n" =
      .ok "https://lms.example.com:8000//@other.example.com/7" := by decide +kernel
  have hresolved := resolution hbuild " //@other.example.com/7\n"
  rw [hresolve] at hresolved
  exact ⟨hbuild, hresolve, hresolved⟩

/-- A base URL that names no host is taken if it does not end in a slash. A path is put behind it
as behind any other, and leads the request to a host that only the path names. -/
theorem hostless_base_moved :
    let c : Client := ⟨some "http://\\", 30000, none⟩
    build? { baseUrl := some "http://\\" } = .ok c ∧
      Http.Url.authority ("http://\\" ++ "/") = [] ∧
      ¬ IsAbsolute (Text.trim "/evil.example.com/x") ∧
      c.resolve "/evil.example.com/x" = .ok "http://\\/evil.example.com/x" ∧
      c.fetchRequest "/evil.example.com/x" =
        .ok ⟨.get, "http://\\/evil.example.com/x", none, none⟩ ∧
      Http.Url.authority "http://\\/evil.example.com/x" = "evil.example.com".toList ∧
      c.resolve "/lms.example.com/x" = .ok "http://\\/lms.example.com/x" ∧
      Http.Url.authority "http://\\/lms.example.com/x" = "lms.example.com".toList := by
  rw [← isAbsoluteUrl_iff]
  decide +kernel

end Client

end Invigilation
