import Invigilation.Proofs.Worker.Arrivals
import Invigilation.Proofs.Worker.Punctual
import Invigilation.Worker.Acknowledge

/-!
# Acknowledgements in time

The acknowledging backend answers each prompt after the delay that was in force when the prompt
arrived. What is owed for a prompt is therefore settled by the messages before it: neither a later
configuration nor another prompt changes it, and a prompt with a shorter delay overtakes.

- `Acknowledge.Asks`: the options that ask for a delay.
- `Acknowledge.InForce`: the delay in force after some messages.
- `Acknowledge.Owed`: the responses that are owed for arriving messages, and when.
- `Acknowledge.acknowledged_run`: **every prompt is answered once, in its time**, and prompts can
  arrive at any times.
-/

namespace Invigilation

namespace Json

/-- A value is a number below 2^64 exactly if it is written as one. -/
theorem toUnsigned?_eq_some_iff {value : Json} {d : Nat} :
    value.toUnsigned? = some d ↔ value = .int d ∧ d < unsignedBound := by
  cases value with
  | null | bool | float | str | arr | obj => simp [toUnsigned?]
  | int n =>
    simp only [toUnsigned?, int.injEq]
    by_cases hn : 0 ≤ n ∧ n < unsignedBound
    · rw [if_pos hn, Option.some_inj]
      omega
    · rw [if_neg hn]
      simp only [reduceCtorEq, false_iff]
      omega

/-- The member of an object under a name is the first one with it. -/
theorem get?_eq_some_iff {key : String} {options value : Json} :
    options.get? key = some value ↔
      ∃ before after, options = .obj (before ++ (key, value) :: after) ∧
        ∀ member ∈ before, member.1 ≠ key := by
  constructor
  · intro h
    cases options with
    | null | bool | int | float | str | arr => cases h
    | obj members =>
      obtain ⟨⟨name, found⟩, hfind, hvalue⟩ := Option.map_eq_some_iff.mp h
      obtain ⟨hname, before, after, hmembers, hbefore⟩ :=
        List.find?_eq_some_iff_append.mp hfind
      have hkey : name = key := by simpa using hname
      have hfound : found = value := hvalue
      subst hkey hfound
      exact ⟨before, after, congrArg obj hmembers, fun member hmember => by
        simpa using hbefore member hmember⟩
  · rintro ⟨before, after, rfl, hbefore⟩
    have hnone : before.find? (fun member => decide (member.1 = key)) = none :=
      List.find?_eq_none.mpr fun member hmember => by simpa using hbefore member hmember
    simp [get?, hnone]

end Json

namespace Acknowledge

open Clocked (Tick fresh)

/-! ## The delay in force -/

/-- Options that ask for a delay: an object with a natural number below 2^64 as its member of that
name; of several under the name the first counts. -/
def Asks (options : Json) (d : Nat) : Prop :=
  d < unsignedBound ∧ ∃ before after, options = .obj (before ++ ("ack_delay_ms", .int d) :: after) ∧
    ∀ member ∈ before, member.1 ≠ "ack_delay_ms"

theorem asks_iff {options : Json} {d : Nat} :
    Asks options d ↔ (options.get? delayKey).bind Json.toUnsigned? = some d := by
  rw [Option.bind_eq_some_iff]
  constructor
  · rintro ⟨hd, hmember⟩
    exact ⟨.int d, Json.get?_eq_some_iff.mpr hmember, Json.toUnsigned?_eq_some_iff.mpr ⟨rfl, hd⟩⟩
  · rintro ⟨value, hget, hvalue⟩
    obtain ⟨rfl, hd⟩ := Json.toUnsigned?_eq_some_iff.mp hvalue
    exact ⟨hd, Json.get?_eq_some_iff.mp hget⟩

theorem delay_of_asks {options : Json} {d : Nat} (h : Asks options d) : delay options = d := by
  unfold delay
  rw [asks_iff.mp h]
  rfl

theorem delay_of_not_asks {options : Json} (h : ∀ d, ¬ Asks options d) : delay options = 0 := by
  unfold delay
  cases hasked : (options.get? delayKey).bind Json.toUnsigned? with
  | none => rfl
  | some d => exact absurd (asks_iff.mpr hasked) (h d)

/-- The delay in force after some messages: that for which the last configuration asks, and none if
it does not ask for one or if there is no configuration. -/
inductive InForce : List HostMessage → Nat → Prop
  | asked (before after : List HostMessage) (options : Json) (d : Nat) (hasks : Asks options d)
      (hlast : ∀ m ∈ after, m.options? = none) : InForce (before ++ .config options :: after) d
  | unasked (before after : List HostMessage) (options : Json) (hasks : ∀ d, ¬ Asks options d)
      (hlast : ∀ m ∈ after, m.options? = none) : InForce (before ++ .config options :: after) 0
  | unconfigured (before : List HostMessage) (hnone : ∀ m ∈ before, m.options? = none) :
      InForce before 0

theorem optionsAfter_config {before after : List HostMessage} {options : Json}
    (hlast : ∀ m ∈ after, m.options? = none) :
    Worker.optionsAfter (before ++ .config options :: after) = options := by
  have hafter : after.filterMap HostMessage.options? = [] :=
    List.filterMap_eq_nil_iff.mpr hlast
  simp [Worker.optionsAfter, HostMessage.options?, hafter]

theorem optionsAfter_of_none {before : List HostMessage}
    (hnone : ∀ m ∈ before, m.options? = none) : Worker.optionsAfter before = .obj [] := by
  unfold Worker.optionsAfter
  rw [List.filterMap_eq_nil_iff.mpr hnone]
  rfl

theorem exists_last_config (inbox : List HostMessage) :
    (∀ m ∈ inbox, m.options? = none) ∨ ∃ before options after,
      inbox = before ++ .config options :: after ∧ ∀ m ∈ after, m.options? = none := by
  induction inbox using List.reverseRecOn with
  | nil => exact .inl (by simp)
  | append_singleton inbox m ih =>
    by_cases hm : m.options? = none
    · rcases ih with hnone | ⟨before, options, after, rfl, hafter⟩
      · refine .inl fun m' hm' => ?_
        rcases List.mem_append.mp hm' with hold | hnew
        · exact hnone m' hold
        · exact List.mem_singleton.mp hnew ▸ hm
      · refine .inr ⟨before, options, after ++ [m], by simp, fun m' hm' => ?_⟩
        rcases List.mem_append.mp hm' with hold | hnew
        · exact hafter m' hold
        · exact List.mem_singleton.mp hnew ▸ hm
    · cases m with
      | prompt | unknown => exact absurd rfl hm
      | config options => exact .inr ⟨inbox, options, [], rfl, by simp⟩

/-- The delay in force is that of the options in force. -/
theorem inForce_iff {inbox : List HostMessage} {d : Nat} :
    InForce inbox d ↔ d = delay (Worker.optionsAfter inbox) := by
  constructor
  · intro h
    cases h with
    | asked before after options d hasks hlast =>
      rw [optionsAfter_config hlast, delay_of_asks hasks]
    | unasked before after options hasks hlast =>
      rw [optionsAfter_config hlast, delay_of_not_asks hasks]
    | unconfigured before hnone =>
      rw [optionsAfter_of_none hnone]
      rfl
  · rintro rfl
    rcases exists_last_config inbox with hnone | ⟨before, options, after, rfl, hafter⟩
    · rw [optionsAfter_of_none hnone]
      exact .unconfigured inbox hnone
    · rw [optionsAfter_config hafter]
      by_cases hasks : ∃ d, Asks options d
      · obtain ⟨d, hd⟩ := hasks
        rw [delay_of_asks hd]
        exact .asked before after options d hd hafter
      · have hnot : ∀ d, ¬ Asks options d := fun d hd => hasks ⟨d, hd⟩
        rw [delay_of_not_asks hnot]
        exact .unasked before after options hnot hafter

/-! ## What is owed -/

/-- The responses that are owed for arriving messages, with their times: for each prompt its own,
after the delay in force when it arrives. -/
inductive Owed : List (Nat × HostMessage) → List (Nat × WorkerMessage) → Prop
  | nil : Owed [] []
  | prompt (arrived : List (Nat × HostMessage)) (owed : List (Nat × WorkerMessage)) (time d : Nat)
      (p : Prompt) (h : Owed arrived owed) (hdelay : InForce (arrived.map (·.2)) d) :
      Owed (arrived ++ [(time, .prompt p)]) (owed ++ [(time + d, .response p)])
  | other (arrived : List (Nat × HostMessage)) (owed : List (Nat × WorkerMessage)) (time : Nat)
      (m : HostMessage) (h : Owed arrived owed) (hother : m.prompt? = none) :
      Owed (arrived ++ [(time, m)]) owed

/-- What is owed is what the acknowledging backend makes due. -/
theorem owed_iff {arrived : List (Nat × HostMessage)} {owed : List (Nat × WorkerMessage)} :
    Owed arrived owed ↔ owed = Clocked.dues factory arrived := by
  constructor
  · intro h
    induction h with
    | nil => rfl
    | prompt arrived owed time d p h hdelay ih =>
      rw [Clocked.dues_snoc, ih, inForce_iff.mp hdelay]
      rfl
    | other arrived owed time m h hother ih =>
      rw [Clocked.dues_snoc, ih]
      cases m with
      | prompt p => cases hother
      | config | unknown => exact (List.append_nil _).symm
  · rintro rfl
    induction arrived using List.reverseRecOn with
    | nil => exact .nil
    | append_singleton arrived a ih =>
      obtain ⟨time, m⟩ := a
      rw [Clocked.dues_snoc]
      cases m with
      | prompt p => exact .prompt arrived _ time _ p ih (inForce_iff.mpr rfl)
      | config | unknown =>
        show Owed _ (_ ++ [])
        rw [List.append_nil]
        exact .other arrived _ time _ ih rfl

/-! ## What is answered -/

/-- What holds of the answers at some time, when some messages have arrived:
1. what is owed is settled, and messages that arrive only add to it;
2. no response is given that is not owed, at its very time, and none twice;
3. what was owed before was answered, and when the worker rests, also what is owed now;
4. the answers are in the order of their times, so that a prompt with a shorter delay overtakes. -/
structure Acknowledged (c : Clocked) (arrived : List (Nat × HostMessage))
    (answered owed : List (Nat × WorkerMessage)) : Prop where
  owed_iff : ∀ other, Owed arrived other ↔ other = owed
  kept : ∀ earlier later, arrived = earlier ++ later → ∃ first, Owed earlier first ∧ first <+: owed
  once : answered.Subperm owed
  before : (answered.filter (·.1 < c.now)).Perm (owed.filter (·.1 < c.now))
  settled : c.isResting = true → answered.Perm (owed.filter (·.1 ≤ c.now))
  ordered : answered.Pairwise fun a b => a.1 ≤ b.1
  overtaking : ∀ a ∈ answered, ∀ b ∈ answered, a.1 < b.1 → [a, b].Sublist answered

theorem acknowledged_of_punctual {c : Clocked} {received arrived : List (Nat × HostMessage)}
    {answered : List (Nat × WorkerMessage)}
    (h : Clocked.Punctual factory c received arrived answered) :
    Acknowledged c arrived answered (Clocked.dues factory arrived) where
  owed_iff _ := owed_iff
  kept := by
    rintro earlier later rfl
    exact ⟨_, owed_iff.mpr rfl, Clocked.dues_mono factory earlier later⟩
  once := h.answered_subperm
  before := h.answered_before
  settled := h.answered_perm
  ordered := h.ordered
  overtaking _ ha _ hb hlt := Clocked.pair_sublist_of_pairwise h.ordered ha hb hlt

/-- **Every prompt is answered once, in its time**: with its own response, after the delay in force
when it arrived. Whatever has happened so far, messages can arrive at any times from then on, as
long as there is room at the link. -/
theorem acknowledged_run (promptRoom replyRoom : Nat) :
    (∀ ticks, ∃ owed,
      Acknowledged ((fresh factory promptRoom replyRoom).run ticks).1
        ((fresh factory promptRoom replyRoom).run ticks).2.1
        ((fresh factory promptRoom replyRoom).run ticks).2.2 owed) ∧
    (0 < promptRoom → 0 < replyRoom → ∀ ticks arrivals horizon,
      arrivals.Pairwise (fun a b => a.1 ≤ b.1) →
      ((fresh factory promptRoom replyRoom).run ticks).1.now ≤ horizon →
      (∀ a ∈ arrivals, ((fresh factory promptRoom replyRoom).run ticks).1.now ≤ a.1 ∧
        a.1 ≤ horizon) →
      ∃ more c answered owed, (fresh factory promptRoom replyRoom).run (ticks ++ more) =
          (c, ((fresh factory promptRoom replyRoom).run ticks).2.1 ++ arrivals, answered) ∧
        c.now = horizon ∧
        Owed (((fresh factory promptRoom replyRoom).run ticks).2.1 ++ arrivals) owed ∧
        answered.Perm (owed.filter (·.1 ≤ horizon))) := by
  have hkept : ∀ ticks, ∃ owed,
      Acknowledged ((fresh factory promptRoom replyRoom).run ticks).1
        ((fresh factory promptRoom replyRoom).run ticks).2.1
        ((fresh factory promptRoom replyRoom).run ticks).2.2 owed := by
    intro ticks
    obtain ⟨received, h⟩ := (Clocked.punctual_fresh factory promptRoom replyRoom).run ticks
    exact ⟨_, acknowledged_of_punctual h⟩
  refine ⟨hkept, ?_⟩
  intro hpromptRoom hreplyRoom ticks arrivals horizon hsorted hnow htimes
  obtain ⟨c, ⟨more, later, hrun⟩, hrest, htime⟩ := Clocked.exists_run factory hpromptRoom
    hreplyRoom ticks hsorted hnow (fun a ha => (htimes a ha).1) (fun a ha => (htimes a ha).2)
  have hall : (fresh factory promptRoom replyRoom).run (ticks ++ more) =
      (c, ((fresh factory promptRoom replyRoom).run ticks).2.1 ++ arrivals,
        ((fresh factory promptRoom replyRoom).run ticks).2.2 ++ later) := by
    rw [Clocked.run_append, hrun]
  obtain ⟨owed, h⟩ := hkept (ticks ++ more)
  rw [hall] at h
  exact ⟨more, c, _, owed, hall, htime, (h.owed_iff owed).mpr rfl, htime ▸ h.settled hrest⟩

/-- A ping overtakes the prompt that ends an attempt, whose delay was longer; the configuration in
between does not shorten it. There is room for one message in each direction. -/
theorem acknowledged_run_overtaking :
    let slow : HostMessage := .config (.obj [("ack_delay_ms", .int 1500)])
    let quick : HostMessage := .config (.obj [("ack_delay_ms", .int 10)])
    let ticks : List Tick := [.begin, .deliver slow, .receive, .deliver (.prompt .finish), .receive,
      .pass 100, .deliver quick, .receive]
    let reached := (fresh factory 1 1).run ticks
    (∃ owed, Acknowledged reached.1 reached.2.1 reached.2.2 owed) ∧
    (∃ more c answered owed, (fresh factory 1 1).run (ticks ++ more) =
        (c, reached.2.1 ++ [(100, .prompt .ping)], answered) ∧ c.now = 2000 ∧
      Owed (reached.2.1 ++ [(100, .prompt .ping)]) owed ∧
      answered.Perm (owed.filter (·.1 ≤ 2000))) ∧
    ((fresh factory 1 1).run (ticks ++ [.deliver (.prompt .ping), .receive, .pass 110, .complete 1,
      .post, .pass 1500, .complete 0, .collect, .post])).2.2 =
      [(110, .response .ping), (1500, .response .finish)] := by
  intro slow quick ticks reached
  obtain ⟨hkept, hgoes⟩ := acknowledged_run 1 1
  refine ⟨hkept ticks, ?_, by decide +kernel⟩
  have hnow : reached.1.now = 100 := by decide +kernel
  refine hgoes (by decide) (by decide) ticks [(100, .prompt .ping)] 2000
    (List.pairwise_singleton _ _) ?_ ?_
  · exact Nat.le_trans (Nat.le_of_eq hnow) (by decide)
  · intro a ha
    rw [List.mem_singleton.mp ha]
    exact ⟨Nat.le_of_eq hnow, by decide⟩

end Acknowledge

end Invigilation
