import Invigilation.Cli.Run
import Invigilation.Proofs.Message.Wire

/-!
# Options of the command line and variables of the environment

The base URL and the worker's entry point can be given on the command line or in the environment. A
variable is trimmed, and dropped when blank, as the environment is read, an option only where the
client and the coordinator are built. Both ways come to the same.

- `Environment.set`: an environment with one variable set.
- `Settings.ofEnvironment_set_baseUrl`, `Settings.ofEnvironment_set_entryPoint`: only the setting of
  that variable is another.
- `Cli.overriding`: **an option does what its variable does** that is set to the same text.
-/

namespace Invigilation

/-! ## One variable set -/

theorem Variable.eq_of_name {v u : Variable} (h : v.name = u.name) : v = u := by
  cases v <;> cases u <;> first | rfl | exact absurd h (by decide)

/-- An environment in which a variable has another value. -/
def Environment.set (env : Environment) (v : Variable) (text : String) : Environment :=
  (v.name, Text.toBytes text) :: env

namespace Environment

theorem get?_set_self (env : Environment) (v : Variable) (text : String) :
    (env.set v text).get? v.name = some text := by
  simp [get?, set, Text.ofBytes?_toBytes]

theorem get?_set_of_ne (env : Environment) {v u : Variable} (h : u ≠ v) (text : String) :
    (env.set v text).get? u.name = env.get? u.name := by
  have hname : (u.name == v.name) = false := by
    simpa using fun heq => h (Variable.eq_of_name heq)
  simp [get?, set, List.lookup_cons, hname]

end Environment

namespace Settings

variable {env : Environment} {v u : Variable} {text : String} {s : Settings}

theorem lookupText_set_self : lookupText (env.set v text) v = Text.content? text := by
  rw [lookupText, env.get?_set_self, Option.bind_some]

theorem lookupText_set_of_ne (h : u ≠ v) :
    lookupText (env.set v text) u = lookupText env u := by
  rw [lookupText, env.get?_set_of_ne h, lookupText]

/-- The settings of an environment with other texts than the variables of the base URL and the
entry point hold. -/
theorem ofEnvironment_congr {env env' : Environment}
    (h : ∀ u : Variable, u ≠ .baseUrl → u ≠ .entryPoint → env'.get? u.name = env.get? u.name) :
    ofEnvironment env' = (ofEnvironment env).map fun s =>
      { s with
        baseUrl := lookupText env' .baseUrl
        entryPoint := lookupText env' .entryPoint } := by
  have hlookup : ∀ {α ε : Type} (u : Variable) (unset : α) (read : String → Except ε α)
      (wrap : ε → SettingsError), u ≠ .baseUrl → u ≠ .entryPoint →
      lookup env' u unset read wrap = lookup env u unset read wrap := by
    intro α ε u unset read wrap hbase hentry
    rw [lookup, h u hbase hentry, lookup]
  unfold ofEnvironment
  rw [hlookup .httpTimeout _ _ _ nofun nofun, hlookup .responseTimeout _ _ _ nofun nofun,
    hlookup .pingTimeout _ _ _ nofun nofun, hlookup .workerOptions _ _ _ nofun nofun]
  cases lookup env .httpTimeout defaultTimeout readMilliseconds .httpTimeout with
  | error e => rfl
  | ok httpTimeout =>
  cases lookup env .responseTimeout none readOptionalMilliseconds .responseTimeout with
  | error e => rfl
  | ok responseTimeout =>
  cases lookup env .pingTimeout defaultPingTimeout readMilliseconds .pingTimeout with
  | error e => rfl
  | ok pingTimeout =>
  cases lookup env .workerOptions none readOptions .workerOptions with
  | error e => rfl
  | ok workerOptions =>
    have hcsrf : lookupText env' .csrfToken = lookupText env .csrfToken := by
      rw [lookupText, h .csrfToken nofun nofun, lookupText]
    have hwarning : lookupText env' .unloadWarning = lookupText env .unloadWarning := by
      rw [lookupText, h .unloadWarning nofun nofun, lookupText]
    show Except.ok _ = Except.ok _
    rw [hcsrf, hwarning]

/-- The base URL and the entry point of the settings are those of the environment. -/
theorem texts_of_ofEnvironment (h : ofEnvironment env = .ok s) :
    s.baseUrl = lookupText env .baseUrl ∧ s.entryPoint = lookupText env .entryPoint := by
  have hsame := @ofEnvironment_congr env env fun _ _ _ => rfl
  rw [h] at hsame
  exact ⟨congrArg Settings.baseUrl (Except.ok.inj hsame),
    congrArg Settings.entryPoint (Except.ok.inj hsame)⟩

/-- Another base URL in the environment is another base URL in the settings, and no more. -/
theorem ofEnvironment_set_baseUrl (env : Environment) (text : String) :
    ofEnvironment (env.set .baseUrl text) =
      (ofEnvironment env).map fun s => { s with baseUrl := Text.content? text } := by
  rw [ofEnvironment_congr fun u hbase _ => env.get?_set_of_ne hbase text]
  cases h : ofEnvironment env with
  | error e => rw [Except.map, Except.map]
  | ok s =>
    have hentry : lookupText (env.set .baseUrl text) .entryPoint = s.entryPoint :=
      (lookupText_set_of_ne (by decide)).trans (texts_of_ofEnvironment h).2.symm
    rw [lookupText_set_self, hentry, Except.map, Except.map]

/-- So it is with the entry point. -/
theorem ofEnvironment_set_entryPoint (env : Environment) (text : String) :
    ofEnvironment (env.set .entryPoint text) =
      (ofEnvironment env).map fun s => { s with entryPoint := Text.content? text } := by
  rw [ofEnvironment_congr fun u _ hentry => env.get?_set_of_ne hentry text]
  cases h : ofEnvironment env with
  | error e => rw [Except.map, Except.map]
  | ok s =>
    have hbase : lookupText (env.set .entryPoint text) .baseUrl = s.baseUrl :=
      (lookupText_set_of_ne (by decide)).trans (texts_of_ofEnvironment h).1.symm
    rw [lookupText_set_self, hbase, Except.map, Except.map]

end Settings

/-! ## What the client and the coordinator make of a text -/

/-- The client does not mind if the base URL was trimmed before. -/
theorem Client.build?_content (s : ClientSettings) (text : String) :
    build? { s with baseUrl := Text.content? text } = build? { s with baseUrl := some text } := by
  unfold build?
  rw [Text.content?_bind, Option.bind_some]

theorem Client.baseUrl_of_blank {s : ClientSettings} {client : Client}
    (h : s.baseUrl.bind Text.content? = none) (hclient : build? s = .ok client) :
    client.baseUrl = none := by
  unfold build? at hclient
  rw [h] at hclient
  cases hclient
  rfl

namespace Coordinator

variable {s : Settings} {canSpawn : Bool}

theorem build?_content_baseUrl (s : Settings) (text : String) :
    build? { s with baseUrl := Text.content? text } canSpawn =
      build? { s with baseUrl := some text } canSpawn := by
  have hclient := Client.build?_content s.client text
  unfold build?
  dsimp only [Settings.client] at hclient ⊢
  rw [hclient]

/-- The coordinator does not mind if the entry point was trimmed before. -/
theorem build?_content_entryPoint (s : Settings) (text : String) :
    build? { s with entryPoint := Text.content? text } canSpawn =
      build? { s with entryPoint := some text } canSpawn := by
  unfold build?
  dsimp only [Settings.client]
  rw [Text.content?_bind, Option.bind_some]

theorem of_build? {c : Coordinator} (h : build? s canSpawn = .ok c) :
    Client.build? s.client = .ok c.client ∧ c.entryPoint = s.entryPoint.bind Text.content? := by
  unfold build? at h
  cases hclient : Client.build? s.client with
  | error e =>
    rw [hclient] at h
    cases h
  | ok client =>
    rw [hclient] at h
    cases h
    exact ⟨rfl, rfl⟩

end Coordinator

namespace Cli

/-- The world with a variable of its environment set. -/
def World.setting (w : World) (v : Variable) (text : String) : World :=
  { w with environment := w.environment.set v text }

/-- What an action and a ping set out with: the coordinator, and the warning of the page. -/
def setOut (w : World) (baseUrl : Option String) (worker : WorkerChoice) :
    Except Failure (Coordinator × String) := do
  let settings ← loadSettings w baseUrl worker
  return (← buildCoordinator settings, settings.unloadWarning)

variable {w : World} {baseUrl : Option String} {worker : WorkerChoice} {s : Settings}

theorem loadSettings_ok (h : Settings.ofEnvironment w.environment = .ok s)
    (baseUrl : Option String) (worker : WorkerChoice) :
    loadSettings w baseUrl worker = .ok { s with
      baseUrl := baseUrl.or s.baseUrl
      entryPoint := worker.entryPoint.or s.entryPoint } := by
  unfold loadSettings
  rw [h]
  rfl

theorem loadSettings_error {e : SettingsError}
    (h : Settings.ofEnvironment w.environment = .error e) (baseUrl : Option String)
    (worker : WorkerChoice) : loadSettings w baseUrl worker = .error (.settings e) := by
  unfold loadSettings
  rw [h]
  rfl

theorem setOut_ok (h : loadSettings w baseUrl worker = .ok s) :
    setOut w baseUrl worker = (buildCoordinator s).map (·, s.unloadWarning) := by
  unfold setOut
  rw [h]
  show Except.bind (buildCoordinator s) _ = _
  cases buildCoordinator s <;> rfl

theorem setOut_error {e : Failure} (h : loadSettings w baseUrl worker = .error e) :
    setOut w baseUrl worker = .error e := by
  unfold setOut
  rw [h]
  rfl

/-- The base URL of the command line does what the variable does. -/
theorem setOut_baseUrl (w : World) (text : String) (worker : WorkerChoice) :
    setOut w (some text) worker = setOut (w.setting .baseUrl text) none worker := by
  have hset : Settings.ofEnvironment (w.setting .baseUrl text).environment = _ :=
    Settings.ofEnvironment_set_baseUrl w.environment text
  cases h : Settings.ofEnvironment w.environment with
  | error e =>
    rw [h] at hset
    rw [setOut_error (loadSettings_error h _ _), setOut_error (loadSettings_error hset _ _)]
  | ok s =>
    rw [h] at hset
    rw [setOut_ok (loadSettings_ok h _ _), setOut_ok (loadSettings_ok hset _ _)]
    have hbuilt := @Coordinator.build?_content_baseUrl true
      { s with entryPoint := worker.entryPoint.or s.entryPoint } text
    unfold buildCoordinator
    dsimp only [Option.some_or, Option.none_or] at hbuilt ⊢
    rw [hbuilt]

/-- The entry point of the command line does what the variable does. -/
theorem setOut_entryPoint (w : World) (text : String) (baseUrl : Option String)
    (args : List String) :
    setOut w baseUrl ⟨some text, args⟩ =
      setOut (w.setting .entryPoint text) baseUrl ⟨none, args⟩ := by
  have hset : Settings.ofEnvironment (w.setting .entryPoint text).environment = _ :=
    Settings.ofEnvironment_set_entryPoint w.environment text
  cases h : Settings.ofEnvironment w.environment with
  | error e =>
    rw [h] at hset
    rw [setOut_error (loadSettings_error h _ _), setOut_error (loadSettings_error hset _ _)]
  | ok s =>
    rw [h] at hset
    rw [setOut_ok (loadSettings_ok h _ _), setOut_ok (loadSettings_ok hset _ _)]
    have hbuilt := @Coordinator.build?_content_entryPoint true
      { s with baseUrl := baseUrl.or s.baseUrl } text
    unfold buildCoordinator
    dsimp only [Option.some_or, Option.none_or] at hbuilt ⊢
    rw [hbuilt]

/-! ## What the commands do -/

/-- The report on an action, given what it sets out with. -/
def reportAction (w : World) (worker : WorkerChoice) (a : Action) (url : String) :
    Except Failure (Coordinator × String) → Report
  | .error e => { result := .error e }
  | .ok (c, unloadWarning) =>
    let (result, events) := perform w worker { unloadWarning } c (.act a url)
    report w events <| match result with
      | some (.acted a usedWorker) =>
        .ok (printed (.obj [("action", a.toJson), ("used_worker", .bool usedWorker)]))
      | some (.failed e) => .error (.action a url e)
      | _ => .error .abandoned

/-- An action does what it does by what it sets out with. -/
theorem runAction_eq (w : World) (a : Action) (url : String) (baseUrl : Option String)
    (worker : WorkerChoice) :
    runAction w a url baseUrl worker = reportAction w worker a url (setOut w baseUrl worker) := by
  unfold runAction setOut
  cases loadSettings w baseUrl worker with
  | error e => rfl
  | ok s =>
    simp only [bind, Except.bind, pure, Except.pure]
    cases buildCoordinator s <;> rfl

/-- The report on a ping, given what it sets out with. -/
def reportPing (w : World) (worker : WorkerChoice) : Except Failure (Coordinator × String) → Report
  | .error e => { result := .error e }
  | .ok (c, unloadWarning) =>
    let (result, events) := perform w worker { unloadWarning } c .ping
    report w events <| match result with
      | some (.pinged true) => .ok (printed (.obj [("worker", .str MessageType.echo.name)]))
      | some (.pinged false) => .error .noWorker
      | some (.failed e) => .error (.ping e)
      | _ => .error .abandoned

/-- So does a ping. -/
theorem runPing_eq (w : World) (worker : WorkerChoice) :
    runPing w worker = reportPing w worker (setOut w none worker) := by
  unfold runPing setOut
  cases loadSettings w none worker with
  | error e => rfl
  | ok s =>
    simp only [bind, Except.bind, pure, Except.pure]
    cases buildCoordinator s <;> rfl

/-- What is known of an option whose text a variable can hold as well. -/
structure Overriding (w : World) (text : String) : Prop where
  /-- An action sets out with the same under either, or fails in the same way. -/
  baseUrl : ∀ worker, setOut w (some text) worker = setOut (w.setting .baseUrl text) none worker
  entryPoint : ∀ baseUrl args, setOut w baseUrl ⟨some text, args⟩ =
    setOut (w.setting .entryPoint text) baseUrl ⟨none, args⟩
  /-- And so it does the same. -/
  action_baseUrl : ∀ input lines a url worker,
    run w input lines (.action a url (some text) worker) =
      run (w.setting .baseUrl text) input lines (.action a url none worker)
  action_entryPoint : ∀ input lines a url baseUrl args,
    run w input lines (.action a url baseUrl ⟨some text, args⟩) =
      run (w.setting .entryPoint text) input lines (.action a url baseUrl ⟨none, args⟩)
  ping_entryPoint : ∀ input lines args,
    run w input lines (.ping ⟨some text, args⟩) =
      run (w.setting .entryPoint text) input lines (.ping ⟨none, args⟩)
  /-- A blank option leaves no base URL, whatever the environment has. -/
  blank_baseUrl : Text.content? text = none → ∀ worker c unloadWarning,
    setOut w (some text) worker = .ok (c, unloadWarning) → c.client.baseUrl = none
  /-- A blank option leaves no worker. -/
  blank_entryPoint : Text.content? text = none → ∀ baseUrl args c unloadWarning,
    setOut w baseUrl ⟨some text, args⟩ = .ok (c, unloadWarning) → c.target? = none

/-- What an action sets out with comes of its settings. -/
theorem exists_settings {c : Coordinator} {unloadWarning : String}
    (h : setOut w baseUrl worker = .ok (c, unloadWarning)) :
    ∃ s, Settings.ofEnvironment w.environment = .ok s ∧
      Coordinator.build? { s with
        baseUrl := baseUrl.or s.baseUrl
        entryPoint := worker.entryPoint.or s.entryPoint } true = .ok c := by
  cases hread : Settings.ofEnvironment w.environment with
  | error e =>
    rw [setOut_error (loadSettings_error hread _ _)] at h
    cases h
  | ok s =>
    rw [setOut_ok (loadSettings_ok hread _ _)] at h
    refine ⟨s, rfl, ?_⟩
    unfold buildCoordinator at h
    cases hbuilt : Coordinator.build? { s with
        baseUrl := baseUrl.or s.baseUrl
        entryPoint := worker.entryPoint.or s.entryPoint } true with
    | error e =>
      rw [hbuilt] at h
      cases h
    | ok c' =>
      rw [hbuilt] at h
      cases h
      rfl

/-- **An option does what its variable does** that is set to the same text, and a blank one puts the
base URL or the worker out of use. -/
theorem overriding (w : World) (text : String) : Overriding w text := by
  constructor
  case baseUrl => exact setOut_baseUrl w text
  case entryPoint => exact setOut_entryPoint w text
  case action_baseUrl =>
    intro input lines a url worker
    show runAction _ _ _ _ _ = runAction _ _ _ _ _
    rw [runAction_eq, runAction_eq, setOut_baseUrl]
    rfl
  case action_entryPoint =>
    intro input lines a url baseUrl args
    show runAction _ _ _ _ _ = runAction _ _ _ _ _
    rw [runAction_eq, runAction_eq, setOut_entryPoint]
    rfl
  case ping_entryPoint =>
    intro input lines args
    show runPing _ _ = runPing _ _
    rw [runPing_eq, runPing_eq, setOut_entryPoint]
    rfl
  case blank_baseUrl =>
    intro hblank worker c unloadWarning h
    obtain ⟨s, -, hbuilt⟩ := exists_settings h
    obtain ⟨hclient, -⟩ := Coordinator.of_build? hbuilt
    refine Client.baseUrl_of_blank ?_ hclient
    rw [Settings.client, Option.some_or, Option.bind_some, hblank]
  case blank_entryPoint =>
    intro hblank baseUrl args c unloadWarning h
    obtain ⟨s, -, hbuilt⟩ := exists_settings h
    obtain ⟨-, hentry⟩ := Coordinator.of_build? hbuilt
    rw [Option.some_or, Option.bind_some, hblank] at hentry
    unfold Coordinator.target?
    split
    · exact hentry
    · rfl

end Cli

end Invigilation
