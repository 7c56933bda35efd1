import Invigilation.Coordinator.Basic
import Invigilation.Settings.Environment
import Invigilation.Proofs.Json.Origin
import Invigilation.Proofs.Message.Transit
import Invigilation.Proofs.Worker.Dispatch

/-!
# Worker options from the environment to the worker

An environment configures options for the worker. Each round trip of the coordinator sends them
ahead of its prompt, and a worker in another process builds its handler from them. On the way they
become part of a message, which is a container around them. So options that are nested as deep as a
text may be are accepted as settings, but no worker ever sees them: the line is passed over, and the
prompt after it is served by a handler for empty options.

- `Settings.plain_workerOptions`: what an environment configures is printed faithfully.
- `Coordinator.messages_of_session`: what a round trip sends.
- `Settings.Arrival`, `Settings.options_arrive`: **options that leave room for the message around
  them reach the worker unchanged**, and deeper ones not at all.
- `Settings.options_lost`: an environment that is accepted, and whose options are lost.
-/

namespace Invigilation

open Text (Bytes)
open Lines (Transit)

/-! ## What is configured -/

namespace Settings

/-- The options of an environment are those that its variable spells. -/
theorem readOptions_of_environment {env : Environment} {s : Settings} {v : Json}
    (hs : ofEnvironment env = .ok s) (hv : s.workerOptions = some v) :
    ∃ text, env.get? Variable.workerOptions.name = some text ∧
      readOptions text = .ok (some v) := by
  obtain ⟨httpTimeout, -, hs⟩ := Json.ok_of_bind hs
  obtain ⟨responseTimeout, -, hs⟩ := Json.ok_of_bind hs
  obtain ⟨pingTimeout, -, hs⟩ := Json.ok_of_bind hs
  obtain ⟨workerOptions, hoptions, hs⟩ := Json.ok_of_bind hs
  cases hs
  obtain rfl : workerOptions = some v := hv
  unfold lookup at hoptions
  split at hoptions
  · cases hoptions
  · next text htext =>
    refine ⟨text, htext, ?_⟩
    cases hread : readOptions text with
    | error fault =>
      rw [hread] at hoptions
      cases hoptions
    | ok options =>
      rw [hread] at hoptions
      cases hoptions
      rfl

/-- What an environment configures stands for itself once it is printed, if there is no fraction in
it. -/
theorem plain_workerOptions {env : Environment} {s : Settings} {v : Json}
    (hs : ofEnvironment env = .ok s) (hv : s.workerOptions = some v)
    (hintegral : v.Every Json.Integral) : v.Plain := by
  obtain ⟨text, -, htext⟩ := readOptions_of_environment hs hv
  unfold readOptions at htext
  split at htext
  · cases htext
  dsimp only at htext
  split at htext
  · next members hparse =>
    cases htext
    exact Json.plain_of_parseOpened hparse hintegral
  · cases htext
  · cases htext

/-- Every plain object is accepted, unless its containers are nested too deep for a text. -/
theorem readOptions_render {members : List (String × Json)} (h : (Json.obj members).Plain)
    (hdepth : (Json.obj members).depth ≤ Json.maxDepth) :
    readOptions (Json.obj members).render = .ok (some (.obj members)) := by
  have hparse : Json.parseOpened (Text.toBytes (Json.obj members).render) = .ok (.obj members) := by
    have hread := Json.toOption_parseOpened h
    rw [if_pos hdepth] at hread
    cases hresult : Json.parseOpened (Text.toBytes (Json.obj members).render) with
    | error fault =>
      rw [hresult] at hread
      cases hread
    | ok v =>
      rw [hresult] at hread
      exact congrArg Except.ok (Option.some_inj.mp hread)
  have hcontent : (Text.content? (Json.obj members).render).isNone = false := by
    have hnonempty : (Json.obj members).render.isEmpty = false := by
      simp [Json.render, Json.renderChars, String.isEmpty_eq_false_iff]
    rw [Text.content?, Json.trim_render]
    simp [hnonempty]
  rw [readOptions, if_neg (by simp [hcontent])]
  dsimp only
  rw [hparse]
  exact congrArg (fun v => Except.ok (some v)) h.settled

/-- An environment that names a worker and configures options for it. -/
def environmentOf (options : Json) : Environment :=
  [(Variable.entryPoint.name, Text.toBytes "worker"),
    (Variable.workerOptions.name, Text.toBytes options.render)]

theorem ofEnvironment_environmentOf {members : List (String × Json)}
    (h : (Json.obj members).Plain) (hdepth : (Json.obj members).depth ≤ Json.maxDepth) :
    ofEnvironment (environmentOf (.obj members)) =
      .ok { entryPoint := some "worker", workerOptions := some (.obj members) } := by
  -- every other variable has its default
  have hunset : ∀ v : Variable, v ≠ .entryPoint → v ≠ .workerOptions →
      (environmentOf (.obj members)).get? v.name = none := by
    intro v hentry hoptions
    cases v <;> first | exact absurd rfl hentry | exact absurd rfl hoptions | rfl
  have hentry : (environmentOf (.obj members)).get? Variable.entryPoint.name = some "worker" :=
    Text.ofBytes?_toBytes "worker"
  have hoptions : (environmentOf (.obj members)).get? Variable.workerOptions.name =
      some (Json.obj members).render := Text.ofBytes?_toBytes _
  have hworker : Text.content? "worker" = some "worker" := by decide
  simp only [ofEnvironment, lookup, lookupText, hunset .httpTimeout nofun nofun,
    hunset .responseTimeout nofun nofun, hunset .pingTimeout nofun nofun,
    hunset .baseUrl nofun nofun, hunset .csrfToken nofun nofun, hunset .unloadWarning nofun nofun,
    hentry, hoptions, readOptions_render h hdepth, Option.bind_some, hworker]
  rfl

end Settings

/-! ## What a round trip sends -/

/-- A session of a coordinator sends the configured options, if there are any, and then a prompt. -/
theorem Coordinator.messages_of_session {c : Coordinator} {task : Task} {r : RoundTrip}
    {entryPoint : String} (h : .session r entryPoint ∈ c.plan task) :
    ∃ p : Prompt, r.messages = .ok (c.workerOptions.toList.map .config ++ [.prompt p]) := by
  have hsession : ∀ {p timeout}, .session r entryPoint ∈ c.sessions p timeout →
      r.messages = .ok (c.workerOptions.toList.map .config ++ [.prompt p]) := by
    intro p timeout hmem
    obtain ⟨target, -, hr⟩ := List.mem_map.mp hmem
    cases hr
    cases p <;> rfl
  cases task with
  | act a url =>
    cases a <;> simp [plan] at h <;> exact ⟨_, hsession h⟩
  | ping => exact ⟨.ping, hsession h⟩

/-! ## What arrives -/

namespace Settings

/-- What arrives of options and the prompt behind them: the options only if they leave room for the
message around them. -/
def arriving (v : Json) (p : Prompt) : List HostMessage :=
  if v.depth ≤ 126 then [.config v, .prompt p] else [.prompt p]

theorem understood_options {v : Json} (h : v.Plain) (p : Prompt) :
    Transit.understood HostMessage.wire HostMessage.decode? [.config v, .prompt p] =
      arriving v p := by
  have hprompt : Lines.message? HostMessage.decode? (HostMessage.prompt p).wire =
      some (.prompt p) := HostMessage.message?_wire trivial
  have hconfig : Lines.message? HostMessage.decode? (HostMessage.config v).wire =
      if v.depth ≤ 126 then some (.config v) else none := HostMessage.message?_wire h
  simp only [Transit.understood, arriving, List.filterMap_cons, List.filterMap_nil, hconfig,
    hprompt]
  by_cases hdepth : v.depth ≤ 126
  · rw [if_pos hdepth, if_pos hdepth]
  · rw [if_neg hdepth, if_neg hdepth]

/-- What a worker calls for what arrives. -/
theorem log_arriving (v : Json) (p : Prompt) :
    Worker.log (arriving v p) =
      if v.depth ≤ 126 then [.built (.obj []), .built v, .called v p]
      else [.built (.obj []), .called (.obj []) p] := by
  unfold arriving
  split <;> rfl

/-- What holds between a host that sends options and a prompt and a worker in another process:
1. the worker takes what arrives of the two, from the first on and in order;
2. when both were sent and it sees that nothing more will come, it has taken all that arrives;
3. as long as the host stays, it can send what is missing of the two, and the worker can take all
   that arrives, however little room there is in the channels. -/
structure Arrival (v : Json) (p : Prompt) (t : Transit HostMessage) : Prop where
  inOrder : t.intake.taken <+: arriving v p
  complete : t.sent = [.config v, .prompt p] → t.intake.isOver = true →
    t.intake.taken = arriving v p
  possible : 0 < t.outgoing.capacity → 0 < t.intake.channel.capacity →
    t.outgoing.senderGone = false →
    ∃ moves : List (Transit.Move HostMessage),
      (t.run HostMessage.wire HostMessage.decode? moves).sent = [.config v, .prompt p] ∧
      (t.run HostMessage.wire HostMessage.decode? moves).intake.taken = arriving v p

theorem arrival_of_conveys {v : Json} {p : Prompt} {t : Transit HostMessage} (hv : v.Plain)
    (h : Transit.Conveys HostMessage.wire HostMessage.decode? t)
    (hsent : t.sent <+: [.config v, .prompt p]) : Arrival v p t := by
  obtain ⟨inOrder, complete, possible⟩ := h
  obtain ⟨later, hlater⟩ := hsent
  refine ⟨?_, fun hall hover => ?_, fun hsend hreceive hgone => ?_⟩
  · rw [← understood_options hv, ← hlater, Transit.understood_append]
    exact inOrder.trans (List.prefix_append _ _)
  · rw [complete hover, hall, understood_options hv]
  · obtain ⟨moves, hmoves, -, htaken, -⟩ := possible hsend hreceive later
      fun hleft => absurd (hgone.symm.trans hleft) nofun
    rw [hlater] at hmoves htaken
    exact ⟨moves, hmoves, htaken.trans (understood_options hv p)⟩

/-- **Configured options reach the worker unchanged if they leave room for the message around them,
and else not at all.** Whatever task a coordinator of the settings carries out, its sessions send
the options and then a prompt. Of these a worker in another process takes both if at most 126
containers are nested in the options, and serves the prompt by a handler that it builds from them;
if there are more, it takes the prompt alone and serves it by the handler it began with. -/
theorem options_arrive {env : Environment} {s : Settings} {v : Json}
    (hs : ofEnvironment env = .ok s) (hv : s.workerOptions = some v)
    (hintegral : v.Every Json.Integral) {canSpawn : Bool} {c : Coordinator}
    (hc : Coordinator.build? s canSpawn = .ok c) {task : Coordinator.Task} {r : RoundTrip}
    {entryPoint : String} (hsession : .session r entryPoint ∈ c.plan task) :
    ∃ p : Prompt, r.messages = .ok [.config v, .prompt p] ∧
      Worker.log (arriving v p) =
        (if v.depth ≤ 126 then [.built (.obj []), .built v, .called v p]
        else [.built (.obj []), .called (.obj []) p]) ∧
      ∀ (sendRoom receiveRoom : Nat) (moves : List (Transit.Move HostMessage)),
        let t := (Transit.fresh HostMessage sendRoom receiveRoom).run HostMessage.wire
          HostMessage.decode? moves
        t.sent <+: [.config v, .prompt p] → Arrival v p t := by
  have hplain := plain_workerOptions hs hv hintegral
  have hoptions : c.workerOptions = some v := by
    obtain ⟨client, -, hc⟩ := Json.ok_of_bind hc
    cases hc
    exact hv
  obtain ⟨p, hmessages⟩ := Coordinator.messages_of_session hsession
  rw [hoptions] at hmessages
  refine ⟨p, hmessages, log_arriving v p, ?_⟩
  intro sendRoom receiveRoom moves t hsent
  have hwire : ∀ m : HostMessage, Lines.newline ∉ Text.toBytes m.wire :=
    fun m => Lines.newline_notMem_render m.toJson
  exact arrival_of_conveys hplain (Transit.conveys_run hwire _ sendRoom receiveRoom moves) hsent

/-! ## At the limit -/

/-- Objects around each other, `n` of them around the innermost. -/
def nested : Nat → Json
  | 0 => .obj []
  | n + 1 => .obj [("a", nested n)]

theorem depth_nested (n : Nat) : (nested n).depth = n + 1 := by
  induction n with
  | zero => rfl
  | succ n ih => simp [nested, Json.depth, Json.depthMembers, ih]

theorem plain_nested (n : Nat) : (nested n).Plain := by
  induction n with
  | zero => exact ⟨⟨trivial, rfl, List.nodup_nil⟩, trivial⟩
  | succ n ih => exact ⟨⟨trivial, rfl, List.nodup_singleton _⟩, ih, trivial⟩

theorem integral_nested (n : Nat) : (nested n).Every Json.Integral :=
  (plain_nested n).imp fun _ h => h.1

/-- What is made of an environment with nested options. -/
def settingsOf (options : Json) : Settings :=
  { entryPoint := some "worker", workerOptions := some options }

theorem ofEnvironment_nested {n : Nat} (h : n ≤ 126) :
    ofEnvironment (environmentOf (nested n)) = .ok (settingsOf (nested n)) := by
  have hplain := plain_nested n
  have hdepth : (nested n).depth ≤ Json.maxDepth := by
    rw [depth_nested]
    exact Nat.succ_le_succ h
  cases n <;> exact ofEnvironment_environmentOf hplain hdepth

/-- The round trip of a ping with such settings. -/
def pinging (options : Json) : RoundTrip :=
  ⟨Prompt.ping.exchange, some defaultPingTimeout, some options⟩

theorem session_pinging (options : Json) :
    ∃ c, Coordinator.build? (settingsOf options) true = .ok c ∧
      .session (pinging options) "worker" ∈ c.plan .ping :=
  ⟨_, rfl, List.mem_singleton.mpr rfl⟩

/-- The deepest options that leave room for the message reach the worker that is pinged. -/
theorem options_arrive_deep :
    let v := nested 125
    ofEnvironment (environmentOf v) = .ok (settingsOf v) ∧ v.Every Json.Integral ∧
      (∃ c, Coordinator.build? (settingsOf v) true = .ok c ∧
        .session (pinging v) "worker" ∈ c.plan .ping) ∧
      Worker.log [.config v, .prompt .ping] =
        [.built (.obj []), .built v, .called v .ping] ∧
      ∃ moves : List (Transit.Move HostMessage),
        let t := (Transit.fresh HostMessage 1 1).run HostMessage.wire HostMessage.decode? moves
        t.sent = [.config v, .prompt .ping] ∧ t.intake.taken = [.config v, .prompt .ping] := by
  intro v
  have hs : ofEnvironment (environmentOf v) = .ok (settingsOf v) :=
    ofEnvironment_nested (by decide)
  have hdepth : v.depth ≤ 126 := (depth_nested 125).le
  obtain ⟨c, hc, hsession⟩ := session_pinging v
  obtain ⟨p, hmessages, hlog, harrival⟩ :=
    options_arrive hs rfl (integral_nested 125) hc hsession
  obtain rfl : Prompt.ping = p := by
    have hsame : [HostMessage.config v, .prompt .ping] = [.config v, .prompt p] :=
      Except.ok.inj hmessages
    simpa using hsame
  have hall : arriving v .ping = [.config v, .prompt .ping] := if_pos hdepth
  rw [if_pos hdepth, hall] at hlog
  obtain ⟨moves, hsent, htaken⟩ :=
    (harrival 1 1 [] List.nil_prefix).possible Nat.one_pos Nat.one_pos rfl
  exact ⟨hs, integral_nested 125, ⟨c, hc, hsession⟩, hlog, moves, hsent, htaken.trans hall⟩

/-- One container more is accepted too, but the worker that is pinged then never sees the options,
though it reads to the end of what was sent. -/
theorem options_lost :
    let v := nested 126
    ofEnvironment (environmentOf v) = .ok (settingsOf v) ∧
      (settingsOf v).workerOptions = some v ∧ v.Every Json.Integral ∧
      (pinging v).messages = .ok [.config v, .prompt .ping] ∧
      ∃ moves : List (Transit.Move HostMessage),
        let t := (Transit.fresh HostMessage Link.capacity Link.capacity).run HostMessage.wire
          HostMessage.decode? moves
        t.sent = [.config v, .prompt .ping] ∧ t.intake.isOver = true ∧
          t.intake.taken = [.prompt .ping] := by
  intro v
  refine ⟨ofEnvironment_nested (Nat.le_refl _), rfl, integral_nested 126, rfl, ?_⟩
  have hwire : ∀ m : HostMessage, Lines.newline ∉ Text.toBytes m.wire :=
    fun m => Lines.newline_notMem_render m.toJson
  -- one container too many once the message is around it
  have hdeep : ¬ v.depth ≤ 126 := by
    rw [depth_nested]
    decide
  obtain ⟨moves, hsent, -, htaken, hover⟩ := (Transit.conveys_run hwire HostMessage.decode?
    Link.capacity Link.capacity [.send (.config v), .send (.prompt .ping), .leave]).possible
    (by decide) (by decide) [] fun _ => rfl
  refine ⟨[.send (.config v), .send (.prompt .ping), .leave] ++ moves, ?_⟩
  rw [Transit.run_append]
  refine ⟨hsent, hover rfl, ?_⟩
  rw [htaken]
  exact (understood_options (plain_nested 126) .ping).trans (if_neg hdeep)

end Settings

end Invigilation
