import Invigilation.Client
import Invigilation.Proofs.Json.Origin
import Invigilation.Proofs.Text.Utf8

/-!
# Reporting and fetching agree

A client reports an action with one request and fetches the current attempt with another. Both are
put together from the same URL and token, both are met by the same server, and until the body of a
successful answer is decoded both take the same decisions in the same order.

- `Client.target?`: where a request is sent to, and why it may not be sent.
- `Client.update_eq`, `Client.fetch_eq`: both operations go by it.
- `Client.CanCarry`: what the URL and the token of a request have to be like.
- `Client.Agreement`, `Client.agreement`: **both fail alike**, but for errors of decoding, and send
  the same requests.
-/

namespace Invigilation

open Text (Bytes)

namespace Client

/-! ## Tokens and hosts -/

/-- The characters that the value of a header may hold. -/
def IsHeaderChar (c : Char) : Prop :=
  (0x20 ≤ c.toNat ∨ c = '\t') ∧ c.toNat ≠ 0x7F

theorem isHeaderByte_iff {c : Char} :
    (∀ b ∈ String.utf8EncodeChar c, ((0x20 ≤ b || b == 0x09) && b != 0x7F) = true) ↔
      IsHeaderChar c := by
  by_cases hascii : c.toNat < 0x80
  · have hbyte : (UInt8.ofNat c.toNat).toNat = c.toNat := Text.Utf8.toNat_byte (by omega)
    have htab : c = '\t' ↔ c.toNat = 9 := by
      constructor
      · rintro rfl
        rfl
      · exact fun h => Char.ext (UInt32.toNat_inj.mp h)
    rw [Text.Utf8.encodeChar_of_lt hascii, List.forall_mem_singleton, IsHeaderChar, htab]
    simp only [Bool.and_eq_true, Bool.or_eq_true, decide_eq_true_eq, beq_iff_eq, bne_iff_ne,
      UInt8.le_iff_toNat_le, ← UInt8.toNat_inj, ne_eq, hbyte]
    rfl
  · -- every byte of any other character is above those that are refused
    refine iff_of_true (fun b hb => ?_) ⟨.inl (by omega), by omega⟩
    have hb := Text.Utf8.le_of_mem_encodeChar (Nat.not_lt.mp hascii) hb
    have hne : b.toNat ≠ 0x7F := by omega
    have hle : 0x20 ≤ b.toNat := by omega
    simp only [Bool.and_eq_true, Bool.or_eq_true, decide_eq_true_eq, bne_iff_ne,
      UInt8.le_iff_toNat_le, ← UInt8.toNat_inj, ne_eq]
    exact ⟨.inl hle, hne⟩

/-- A token can stand in a header unless a control character other than tab is in it. -/
theorem isHeaderValue_iff {token : String} :
    isHeaderValue token = true ↔ ∀ c ∈ token.toList, IsHeaderChar c := by
  rw [isHeaderValue, List.all_eq_true, Text.toBytes, Text.Utf8.encode]
  simp only [List.mem_flatMap, forall_exists_index, and_imp]
  constructor
  · intro h c hc
    exact isHeaderByte_iff.mp fun b hb => h b c hc hb
  · intro h b c hc hb
    exact isHeaderByte_iff.mpr (h c hc) b hb

/-- A URL without a host is not well formed. -/
theorem not_isWellFormed_of_hostless {url : String} (h : (Http.Url.hostAndPort url).1 = []) :
    Http.Url.isWellFormed url = false := by
  rw [Http.Url.isWellFormed, h]
  rfl

/-! ## Targets -/

variable (c : Client) (server : Http.Server) (url : String) (a : Action)

/-- What the URL of a request and the token of its client have to be like. -/
structure CanCarry (resolved : String) : Prop where
  wellFormed : Http.Url.isWellFormed resolved = true
  token : ∀ token ∈ c.csrfToken, ∀ char ∈ token.toList, IsHeaderChar char
  sendable : Http.Url.isSendable resolved = true

/-- The URL that a request is sent to, or why none is. -/
def target? : Except ClientError String :=
  c.resolve url >>= fun resolved =>
    if ¬ Http.Url.isWellFormed resolved ∨ ¬ c.csrfToken.all isHeaderValue then
      .error (.request .malformed)
    else if ¬ Http.Url.isSendable resolved then .error (.request (.refused resolved))
    else .ok resolved

theorem request_eq (method : Http.Method) (body : Option String) :
    c.request method url body =
      (c.target? url).map fun resolved => ⟨method, resolved, c.csrfToken, body⟩ := by
  rw [request, target?]
  cases c.resolve url with
  | error e => rfl
  | ok resolved =>
    simp only [bind, Except.bind, pure, Except.pure, apply_ite (Except.map _)]
    simp only [Except.map]

theorem update_eq :
    c.update server url a =
      match c.target? url with
      | .error e => ([], .error e)
      | .ok resolved =>
        (arriving server ⟨.put, resolved, c.csrfToken, some a.updateBody.render⟩,
          concludeUpdate resolved server.reply) := by
  rw [update, updateRequest, request_eq]
  cases c.target? url <;> rfl

theorem fetch_eq :
    c.fetch server url =
      match c.target? url with
      | .error e => ([], .error e)
      | .ok resolved =>
        (arriving server ⟨.get, resolved, c.csrfToken, none⟩,
          concludeFetch resolved server.reply) := by
  rw [fetch, fetchRequest, request_eq]
  cases c.target? url <;> rfl

variable {c server url a}

/-- The only error of a URL that does not resolve. -/
theorem eq_invalidUrl_of_resolve {e : ClientError} (h : c.resolve url = .error e) :
    e = .invalidUrl url := by
  unfold resolve at h
  dsimp only at h
  split at h
  · cases h
  · split at h
    · cases h
    · cases h
      rfl

theorem target?_of_resolve {resolved : String} (hresolve : c.resolve url = .ok resolved) :
    c.target? url =
      if ¬ Http.Url.isWellFormed resolved ∨ ¬ c.csrfToken.all isHeaderValue then
        .error (.request .malformed)
      else if ¬ Http.Url.isSendable resolved then .error (.request (.refused resolved))
      else .ok resolved := by
  rw [target?, hresolve]
  simp only [bind, Except.bind]

theorem target?_of_canCarry {resolved : String} (hresolve : c.resolve url = .ok resolved)
    (h : c.CanCarry resolved) : c.target? url = .ok resolved := by
  have htoken : c.csrfToken.all isHeaderValue = true := by
    rw [Option.all_eq_true]
    exact fun token htoken => isHeaderValue_iff.mpr (h.token token htoken)
  rw [target?_of_resolve hresolve, if_neg (by simp [h.wellFormed, htoken]),
    if_neg (by simp [h.sendable])]

theorem exists_failure_of_not_canCarry {resolved : String} (hresolve : c.resolve url = .ok resolved)
    (h : ¬ c.CanCarry resolved) : ∃ failure, c.target? url = .error (.request failure) := by
  rw [target?_of_resolve hresolve]
  split
  · exact ⟨_, rfl⟩
  · next hbuilt =>
    split
    · exact ⟨_, rfl⟩
    · next hsendable =>
      obtain ⟨hwellFormed, htoken⟩ := not_or.mp hbuilt
      rw [Classical.not_not, Option.all_eq_true] at htoken
      refine absurd ⟨Classical.not_not.mp hwellFormed, ?_, Classical.not_not.mp hsendable⟩ h
      exact fun token ht => isHeaderValue_iff.mp (htoken token ht)

/-- No target is missed because of an answer. -/
theorem target?_ne_decode (message : String) : c.target? url ≠ .error (.decode message) := by
  intro h
  cases hresolve : c.resolve url with
  | error e =>
    rw [target?, hresolve] at h
    have heq : e = .decode message := Except.error.inj h
    cases heq.symm.trans (eq_invalidUrl_of_resolve hresolve)
  | ok resolved =>
    by_cases hcarry : c.CanCarry resolved
    · rw [target?_of_canCarry hresolve hcarry] at h
      cases h
    · obtain ⟨failure, hfailure⟩ := exists_failure_of_not_canCarry hresolve hcarry
      rw [hfailure] at h
      cases h

/-! ## Replies -/

/-- Only an answer of success that arrived whole has a body to go on with. -/
theorem successBody_eq_ok {reply : Http.Reply} {body : Bytes}
    (h : successBody url reply = .ok body) :
    ∃ status, reply = .answer status body ∧ Http.isSuccess status = true := by
  cases reply with
  | silence => cases h
  | brokenOff => cases h
  | answer status bytes =>
    rw [successBody] at h
    split at h
    · next hsuccess =>
      cases h
      exact ⟨status, rfl, hsuccess⟩
    · cases h

theorem successBody_ne_decode (reply : Http.Reply) (message : String) :
    successBody url reply ≠ .error (.decode message) := by
  intro h
  cases reply with
  | silence => cases h
  | brokenOff => cases h
  | answer status bytes =>
    rw [successBody] at h
    split at h <;> cases h

/-! ## Results -/

/-- The body that both operations go on with, or the error that both end in. -/
def body? (c : Client) (server : Http.Server) (url : String) : Except ClientError Bytes :=
  c.target? url >>= fun resolved => successBody resolved server.reply

theorem body?_ne_decode (message : String) : c.body? server url ≠ .error (.decode message) := by
  intro h
  rw [body?] at h
  cases htarget : c.target? url with
  | error e =>
    rw [htarget] at h
    obtain rfl : e = .decode message := Except.error.inj h
    exact target?_ne_decode message htarget
  | ok resolved =>
    rw [htarget] at h
    exact successBody_ne_decode server.reply message h

theorem exists_answer_of_body? {body : Bytes} (h : c.body? server url = .ok body) :
    ∃ status, server.reply = .answer status body ∧ Http.isSuccess status = true := by
  obtain ⟨resolved, -, hbody⟩ := Json.ok_of_bind h
  exact successBody_eq_ok hbody

theorem update_snd : (c.update server url a).2 = (c.body? server url).map fun _ => () := by
  rw [update_eq, body?]
  cases c.target? url <;> rfl

/-- The attempt in the body of a successful answer. -/
def decodeBody (body : Bytes) : Except ClientError Attempt :=
  (Attempt.parse body).mapError fun fault => .decode (fault.message body)

theorem fetch_snd : (c.fetch server url).2 = c.body? server url >>= decodeBody := by
  rw [fetch_eq, body?]
  cases c.target? url with
  | error e => rfl
  | ok resolved =>
    show concludeFetch resolved server.reply = successBody resolved server.reply >>= decodeBody
    rw [concludeFetch]
    cases successBody resolved server.reply with
    | error e => rfl
    | ok body =>
      show _ = decodeBody body
      rw [decodeBody]
      dsimp only
      cases Attempt.parse body <;> rfl

/-- Without a target both operations fail with what is wrong with it, and send nothing. -/
theorem unsent {e : ClientError} (h : c.target? url = .error e) :
    c.update server url a = ([], .error e) ∧ c.fetch server url = ([], .error e) := by
  rw [update_eq, fetch_eq, h]
  exact ⟨rfl, rfl⟩

/-! ## Agreement -/

/-- What the two operations have in common on a URL:
1. one fails with an error other than one of decoding exactly when the other fails with the same;
2. reporting never fails with an error of decoding, and succeeds exactly when fetching gives an
   attempt or fails with one;
3. neither sends a request when the URL does not resolve;
4. nor when the request cannot be built, as when its URL has no host or its token has a control
   character other than tab in it;
5. else both send one, to the resolved URL and with the token of the client;
6. what succeeds was answered whole, and with success. -/
structure Agreement (c : Client) (server : Http.Server) (url : String) (a : Action) : Prop where
  errors : ∀ e : ClientError, (∀ message, e ≠ .decode message) →
    ((c.update server url a).2 = .error e ↔ (c.fetch server url).2 = .error e)
  undecoded : ∀ message, (c.update server url a).2 ≠ .error (.decode message)
  successes : (c.update server url a).2 = .ok () ↔
    (∃ attempt, (c.fetch server url).2 = .ok attempt) ∨
      ∃ message, (c.fetch server url).2 = .error (.decode message)
  unresolved : ∀ e, c.resolve url = .error e →
    c.update server url a = ([], .error (.invalidUrl url)) ∧
      c.fetch server url = ([], .error (.invalidUrl url))
  unbuilt : ∀ resolved, c.resolve url = .ok resolved → ¬ c.CanCarry resolved →
    ∃ failure, c.update server url a = ([], .error (.request failure)) ∧
      c.fetch server url = ([], .error (.request failure))
  hostless : ∀ resolved, (Http.Url.hostAndPort resolved).1 = [] → ¬ c.CanCarry resolved
  sent : ∀ resolved, c.resolve url = .ok resolved → c.CanCarry resolved →
    (c.update server url a).1 =
        arriving server ⟨.put, resolved, c.csrfToken, some a.updateBody.render⟩ ∧
      (c.fetch server url).1 = arriving server ⟨.get, resolved, c.csrfToken, none⟩
  answered :
    (c.update server url a).2 = .ok () ∨ (∃ attempt, (c.fetch server url).2 = .ok attempt) →
    ∃ status body, server.reply = .answer status body ∧ Http.isSuccess status = true

/-- The results agree. Both come from one body, or from one error. -/
theorem results_agree (c : Client) (server : Http.Server) (url : String) (a : Action) :
    (∀ e : ClientError, (∀ message, e ≠ .decode message) →
      ((c.update server url a).2 = .error e ↔ (c.fetch server url).2 = .error e)) ∧
    (∀ message, (c.update server url a).2 ≠ .error (.decode message)) ∧
    ((c.update server url a).2 = .ok () ↔
      (∃ attempt, (c.fetch server url).2 = .ok attempt) ∨
        ∃ message, (c.fetch server url).2 = .error (.decode message)) := by
  have hnone : ∀ message, c.body? server url ≠ .error (.decode message) := body?_ne_decode
  rw [update_snd, fetch_snd]
  cases hbody : c.body? server url with
  | error e =>
    rw [hbody] at hnone
    refine ⟨fun e' _ => ?_, fun message h => ?_, ?_⟩
    · show Except.error e = Except.error e' ↔ Except.error e = Except.error e'
      rw [Except.error.injEq, Except.error.injEq]
    · exact hnone message (congrArg Except.error (Except.error.inj h))
    · refine iff_of_false (fun h => by cases h) ?_
      rintro (⟨attempt, h⟩ | ⟨message, h⟩)
      · cases h
      · exact hnone message (congrArg Except.error (Except.error.inj h))
  | ok body =>
    show (∀ e : ClientError, _ → (Except.ok () = Except.error e ↔ decodeBody body = .error e)) ∧ _ ∧
      (_ ↔ (∃ attempt, decodeBody body = .ok attempt) ∨
        ∃ message, decodeBody body = .error (.decode message))
    rw [decodeBody]
    cases Attempt.parse body with
    | ok attempt =>
      refine ⟨fun e _ => ?_, fun message h => (by cases h), iff_of_true rfl (.inl ⟨attempt, rfl⟩)⟩
      exact iff_of_false (fun h => by cases h) (fun h => by cases h)
    | error fault =>
      refine ⟨fun e he => ?_, fun message h => (by cases h), iff_of_true rfl (.inr ⟨_, rfl⟩)⟩
      refine iff_of_false (fun h => by cases h) fun h => ?_
      exact he _ (Except.error.inj h).symm

/-- **Reporting an action and fetching the current attempt agree**, whatever the client, the URL and
the server are like. -/
theorem agreement (c : Client) (server : Http.Server) (url : String) (a : Action) :
    c.Agreement server url a := by
  obtain ⟨errors, undecoded, successes⟩ := c.results_agree server url a
  refine ⟨errors, undecoded, successes, fun e he => ?_, fun resolved hresolve hcarry => ?_,
    fun resolved hhost hcarry => ?_, fun resolved hresolve hcarry => ?_, fun hok => ?_⟩
  · obtain rfl := eq_invalidUrl_of_resolve he
    exact unsent (by rw [target?, he]; rfl)
  · obtain ⟨failure, hfailure⟩ := exists_failure_of_not_canCarry hresolve hcarry
    exact ⟨failure, unsent hfailure⟩
  · have hwellFormed := hcarry.wellFormed
    rw [not_isWellFormed_of_hostless hhost] at hwellFormed
    exact Bool.false_ne_true hwellFormed
  · rw [update_eq, fetch_eq, target?_of_canCarry hresolve hcarry]
    exact ⟨rfl, rfl⟩
  · have hupdate : (c.update server url a).2 = .ok () := hok.elim id fun h => successes.mpr (.inl h)
    rw [update_snd] at hupdate
    obtain ⟨body, hbody, -⟩ := Json.ok_of_map hupdate
    obtain ⟨status, hreply, hsuccess⟩ := exists_answer_of_body? hbody
    exact ⟨status, body, hreply, hsuccess⟩

end Client

end Invigilation
