import Invigilation.Proofs.Session.Outcome
import Invigilation.Proofs.Text.Blank
import Invigilation.Session.Hosted
import Invigilation.Worker.Table

/-!
# Registered entry points

A registry is built by registrations, one after the other. It keeps names as they are given and
trims the name that is asked for, so a name with blanks at its ends is registered to no effect.

- `Registry.IsLast`, `Registry.IsRegistered`: the last registration of a name, and if there is one.
- `Registry.spawn_eq_ok_iff`, `Registry.spawn_eq_error_iff`: what is spawned, and when nothing is.
- `Registry.Spawning`, `Registry.Opening`: what holds of a name, and of a session that asks for it.
- `Registry.spawning`: **a trimmed name spawns its last registration**, and any other name what its
  trimmed form spawns.
- `Registry.padded_registration_missed`: a registered name that is not found.
-/

namespace Invigilation

namespace Registry

variable {η : Type}

/-! ## Registrations -/

/-- The registry after some registrations, the earliest first. -/
def ofRegistrations (entries : List (String × Factory η)) : Registry η :=
  entries.foldl (fun r entry => r.register entry.1 entry.2) {}

/-- The last registration of a name is that of a factory. -/
def IsLast (entries : List (String × Factory η)) (name : String) (factory : Factory η) : Prop :=
  ∃ earlier later, entries = earlier ++ (name, factory) :: later ∧ ∀ entry ∈ later, entry.1 ≠ name

/-- A name was registered. -/
def IsRegistered (entries : List (String × Factory η)) (name : String) : Prop :=
  ∃ entry ∈ entries, entry.1 = name

variable {entries : List (String × Factory η)} {name : String} {factory : Factory η}

/-- Registrations are added in order. -/
theorem entries_foldl (r : Registry η) (entries : List (String × Factory η)) :
    (entries.foldl (fun r entry => r.register entry.1 entry.2) r).entries =
      r.entries ++ entries := by
  induction entries generalizing r with
  | nil => exact (List.append_nil _).symm
  | cons entry rest ih =>
    rw [List.foldl_cons, ih, register, List.append_assoc]
    rfl

theorem find?_ofRegistrations (entries : List (String × Factory η)) (name : String) :
    (ofRegistrations entries).find? name = entries.reverse.lookup name := by
  rw [find?, ofRegistrations, entries_foldl, List.nil_append]

/-- The registry finds the last registration of a name. -/
theorem find?_eq_some_iff :
    (ofRegistrations entries).find? name = some factory ↔ IsLast entries name factory := by
  rw [find?_ofRegistrations, List.lookup_eq_some_iff]
  constructor
  · rintro ⟨later, earlier, heq, hlater⟩
    refine ⟨earlier.reverse, later.reverse, ?_, fun entry hentry => ?_⟩
    · rw [← List.reverse_reverse entries, heq]
      simp
    · exact (bne_iff_ne.mp (hlater entry (List.mem_reverse.mp hentry))).symm
  · rintro ⟨earlier, later, rfl, hlater⟩
    refine ⟨later.reverse, earlier.reverse, by simp, fun entry hentry => ?_⟩
    exact bne_iff_ne.mpr (hlater entry (List.mem_reverse.mp hentry)).symm

theorem find?_eq_none_iff :
    (ofRegistrations entries).find? name = none ↔ ¬ IsRegistered entries name := by
  rw [find?_ofRegistrations, List.lookup_eq_none_iff, IsRegistered, not_exists]
  refine forall_congr' fun entry => ?_
  rw [List.mem_reverse, bne_iff_ne, not_and, ne_comm]

/-- A name that was registered has a last registration. -/
theorem IsRegistered.exists_isLast (h : IsRegistered entries name) :
    ∃ factory, IsLast entries name factory := by
  have hfound : (ofRegistrations entries).find? name ≠ none := fun hnone =>
    find?_eq_none_iff.mp hnone h
  obtain ⟨factory, hfactory⟩ := Option.ne_none_iff_exists'.mp hfound
  exact ⟨factory, find?_eq_some_iff.mp hfactory⟩

/-! ## What is spawned -/

theorem spawn_eq_ok_iff : (ofRegistrations entries).spawn name = .ok factory ↔
    IsLast entries (Text.trim name) factory := by
  rw [spawn, ← find?_eq_some_iff]
  cases (ofRegistrations entries).find? (Text.trim name) <;> simp

theorem spawn_eq_error_iff {e : SessionError} : (ofRegistrations entries).spawn name = .error e ↔
    e = .unknownEntryPoint name ∧ ¬ IsRegistered entries (Text.trim name) := by
  rw [spawn, ← find?_eq_none_iff]
  cases (ofRegistrations entries).find? (Text.trim name) <;> simp [eq_comm]

/-- Entries that are left out do not matter to the names that they are not under. -/
theorem lookup_filter {p : String × Factory η → Bool} (h : ∀ entry, entry.1 = name → p entry = true)
    (entries : List (String × Factory η)) :
    (entries.filter p).lookup name = entries.lookup name := by
  induction entries with
  | nil => rfl
  | cons entry rest ih =>
    obtain ⟨key, factory⟩ := entry
    by_cases hkey : key = name
    · rw [List.filter_cons_of_pos (h _ hkey), hkey, List.lookup_cons_self, List.lookup_cons_self]
    · have hne : (name == key) = false := beq_eq_false_iff_ne.mpr (Ne.symm hkey)
      rw [List.lookup_cons, hne, ← ih]
      by_cases hp : p (key, factory) = true
      · rw [List.filter_cons_of_pos hp, List.lookup_cons, hne]
      · rw [List.filter_cons_of_neg hp]

/-- The registrations of names without blanks at their ends. -/
def trimmed (entries : List (String × Factory η)) : List (String × Factory η) :=
  entries.filter fun entry => Text.trim entry.1 = entry.1

/-- The other registrations have no effect. -/
theorem spawn_trimmed (entries : List (String × Factory η)) (name : String) :
    (ofRegistrations (trimmed entries)).spawn name = (ofRegistrations entries).spawn name := by
  have hkept : ∀ entry : String × Factory η, entry.1 = Text.trim name →
      decide (Text.trim entry.1 = entry.1) = true := by
    intro entry hentry
    rw [hentry, Text.trim_trim]
    exact decide_eq_true rfl
  rw [spawn, spawn, find?_ofRegistrations, find?_ofRegistrations, trimmed, ← List.filter_reverse,
    lookup_filter hkept]

/-! ## Names and sessions -/

/-- What a name spawns after some registrations.
1. It spawns the factory of the last registration of the trimmed name.
2. So a registered name without blanks at its ends spawns its own last registration.
3. The only failure is that the trimmed name was not registered, and it carries the name as it was
   given.
4. So a name fails from which every registered name differs in more than the blanks around it.
5. Registrations of names with blanks at their ends have no effect. -/
structure Spawning (entries : List (String × Factory η)) (name : String) : Prop where
  found : ∀ factory, (ofRegistrations entries).spawn name = .ok factory ↔
    IsLast entries (Text.trim name) factory
  own : Text.trim name = name → IsRegistered entries name →
    ∃ factory, IsLast entries name factory ∧ (ofRegistrations entries).spawn name = .ok factory
  failed : ∀ e, (ofRegistrations entries).spawn name = .error e ↔
    e = .unknownEntryPoint name ∧ ¬ IsRegistered entries (Text.trim name)
  unknown : (∀ entry ∈ entries, Text.trim entry.1 ≠ Text.trim name) →
    (ofRegistrations entries).spawn name = .error (.unknownEntryPoint name)
  padded : (ofRegistrations (trimmed entries)).spawn name = (ofRegistrations entries).spawn name

theorem spawning_of_registrations (entries : List (String × Factory η)) (name : String) :
    Spawning entries name where
  found _ := spawn_eq_ok_iff
  own htrim hregistered := by
    obtain ⟨factory, hlast⟩ := hregistered.exists_isLast
    exact ⟨factory, hlast, spawn_eq_ok_iff.mpr (htrim.symm ▸ hlast)⟩
  failed _ := spawn_eq_error_iff
  unknown hother := by
    refine spawn_eq_error_iff.mpr ⟨rfl, ?_⟩
    rintro ⟨entry, hentry, heq⟩
    refine hother entry hentry ?_
    rw [heq, Text.trim_trim]
  padded := spawn_trimmed entries name

/-- A session that asks for a name, before it is opened. -/
def asking (request : RoundTrip) (name : String) : Session :=
  { request, entryPoint := name }

/-- What a session meets that asks for a name.
1. If the trimmed name was registered, the session goes on beside a fresh worker, which has the
   factory of the last registration.
2. If not, the session is over at once with the error, and there is no worker. -/
structure Opening (entries : List (String × Factory Hook)) (name : String) : Prop where
  started : ∀ factory, IsLast entries (Text.trim name) factory →
    ∀ (request : RoundTrip) (patience : Nat),
      let opening := Session.Move.opening 0 (.ok (.fresh Link.capacity))
      (asking request name).course (ofRegistrations entries).spawner patience =
        opening :: Hosted.play factory patience ((asking request name).step opening).1
  nothing : ¬ IsRegistered entries (Text.trim name) →
    ∀ (request : RoundTrip) (patience : Nat) (messages : List HostMessage),
      request.messages = .ok messages →
      (asking request name).run
          ((asking request name).course (ofRegistrations entries).spawner patience) =
        ({ asking request name with phase := .over none 0 (.failed (.unknownEntryPoint name)) },
          [.spawned name false])

theorem opening_of_registrations (entries : List (String × Factory Hook)) (name : String) :
    Opening entries name where
  started factory hlast request patience := by
    have hspawner : (ofRegistrations entries).spawner name =
        .ok ⟨Link.capacity, Hosted.play factory⟩ := by
      rw [spawner, spawn_eq_ok_iff.mpr hlast]
      rfl
    exact Session.course_of_ok (s := asking request name) hspawner patience
  nothing hnone request patience messages hmessages := by
    have hspawner : (ofRegistrations entries).spawner name =
        .error (.unknownEntryPoint name) := by
      rw [spawner, spawn_eq_error_iff.mpr ⟨rfl, hnone⟩]
      rfl
    have henter : Session.enter request name 0 (.error (.unknownEntryPoint name)) =
        (.over none 0 (.failed (.unknownEntryPoint name)), [.spawned name false]) := by
      rw [Session.enter, hmessages]
    rw [Session.course_of_error (s := asking request name) hspawner]
    show (({ asking request name with phase := (Session.enter request name 0 _).1 } : Session),
      (Session.enter request name 0 _).2 ++ []) = _
    rw [henter]
    rfl

/-- **A trimmed name spawns its last registration**, any other name spawns what its trimmed form
does, and a name that is not found starts no worker. -/
theorem spawning (name : String) :
    (∀ (η : Type) (entries : List (String × Factory η)), Spawning entries name) ∧
      ∀ entries : List (String × Factory Hook), Opening entries name :=
  ⟨fun _ entries => spawning_of_registrations entries name,
    fun entries => opening_of_registrations entries name⟩

/-- Blanks around the name that is asked for do not matter, and the later registration counts. -/
example (f g : Factory Hook) :
    (ofRegistrations [("w", f), (" w", f), ("w", g), ("v", f)]).spawn " w\n" = .ok g := rfl

/-- A name with blanks around it is not found although it was registered. If the trimmed name was
registered as well, then the worker has the factory of that one, however early it came. -/
theorem padded_registration_missed :
    let silent := Hook.factory (.obj [])
    let echoing := Hook.factory (.obj [("ping", .str "ok")])
    IsLast [(" w ", echoing)] " w " echoing ∧
      (ofRegistrations [(" w ", echoing)]).spawn " w " = .error (.unknownEntryPoint " w ") ∧
      IsLast [("w", silent), (" w ", echoing)] " w " echoing ∧
      (ofRegistrations [("w", silent), (" w ", echoing)]).spawn " w " = .ok silent ∧
      silent ≠ echoing := by
  intro silent echoing
  have htrim : Text.trim " w " = "w" := by decide +kernel
  have hnone : ∀ entry ∈ ([] : List (String × Factory Hook)), entry.1 ≠ " w " :=
    List.forall_mem_nil _
  refine ⟨⟨[], [], rfl, hnone⟩, ?_, ⟨[("w", silent)], [], rfl, hnone⟩, ?_, ?_⟩
  · rw [spawn_eq_error_iff, htrim]
    refine ⟨rfl, ?_⟩
    rintro ⟨entry, hentry, hname⟩
    rw [List.mem_singleton.mp hentry] at hname
    exact absurd hname (by decide)
  · rw [spawn_eq_ok_iff, htrim]
    refine ⟨[], [(" w ", echoing)], rfl, fun entry hentry => ?_⟩
    rw [List.mem_singleton.mp hentry]
    decide
  · intro hsame
    have hhook := congrFun (congrFun hsame (.obj [])) .ping
    exact absurd hhook (by decide +kernel)

end Registry

end Invigilation
