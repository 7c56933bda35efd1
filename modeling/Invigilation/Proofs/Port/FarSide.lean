import Invigilation.Port

/-!
# The worker's steps at a port

The worker acts on the two channels of a port at any time. This module says what comes of several
of its steps: its replies are queued in order until it leaves, and as long as it keeps its receiving
end, what the host has to send is not disturbed.

- `Port.farAll`: several steps of the worker.
- `Port.replies_farAll`, `Port.prompts_farAll`: the two channels afterwards.
-/

namespace Invigilation

open Link (FarStep)

/-- The reply in a step of the worker, if it is one. -/
def Link.FarStep.reply? : FarStep → Option WorkerMessage
  | .reply m => some m
  | _ => none

/-- There is nothing to take from an empty queue. -/
theorem Channel.receive_of_empty {α : Type} {c : Channel α} (h : c.queue = []) :
    c.receive = (c, .ended) ∨ c.receive = (c, .waiting) := by
  simp only [Channel.receive, h]
  split
  · exact .inl rfl
  · exact .inr rfl

namespace Port

/-- The port after several steps of the worker. -/
def farAll (p : Port) (fs : List FarStep) : Port :=
  fs.foldl (fun p f => (p.far f).1) p

variable {p : Port}

/-- Steps other than a reply or the worker's leaving do not touch the replies. -/
theorem replies_far_of_other {f : FarStep} (hreply : f.reply? = none)
    (hleave : f ≠ .closeReplies) : (p.far f).1.replies = p.replies := by
  cases f with
  | reply m => cases hreply
  | closeReplies => exact absurd rfl hleave
  | closePrompts => rfl
  | takePrompt =>
    simp only [Port.far, Link.far]
    split
    · rfl
    · split <;> rfl

theorem replies_far_closeReplies :
    (p.far .closeReplies).1.replies = { p.replies with senderGone := true } := rfl

/-- A worker that has left sends no more. -/
theorem replies_far_of_gone (hgone : p.replies.senderGone = true) (f : FarStep) :
    (p.far f).1.replies = p.replies := by
  by_cases hleave : f = .closeReplies
  · subst hleave
    rw [replies_far_closeReplies, ← hgone]
  · cases f with
    | reply m =>
      simp only [Port.far, Link.far]
      rw [if_pos hgone]
    | closeReplies => exact absurd rfl hleave
    | takePrompt | closePrompts => exact replies_far_of_other rfl hleave

/-- A reply is queued if there is room for it. -/
theorem replies_far_reply (hjoined : p.replies.senderGone = false)
    (hadmits : p.replies.closed = false) (hroom : p.replies.queue.length < p.replies.capacity)
    (m : WorkerMessage) :
    (p.far (.reply m)).1.replies = { p.replies with queue := p.replies.queue ++ [m] } := by
  have hfits : p.replies.hasRoom = true := by simpa [Channel.hasRoom] using hroom
  simp only [Port.far, Link.far]
  rw [if_neg (by simp [hjoined])]
  show (p.replies.send m).1 = _
  unfold Channel.send
  rw [if_neg (by simp [hadmits]), if_pos hfits]

/-- The worker cannot close the host's end, nor widen the channel. -/
theorem replies_far_kept (p : Port) (f : FarStep) :
    (p.far f).1.replies.closed = p.replies.closed ∧
      (p.far f).1.replies.capacity = p.replies.capacity := by
  cases f with
  | reply m =>
    simp only [Port.far, Link.far, Channel.send]
    repeat' split
    all_goals exact ⟨rfl, rfl⟩
  | closeReplies => exact ⟨rfl, rfl⟩
  | takePrompt =>
    have hsame : (p.far .takePrompt).1.replies = p.replies := replies_far_of_other rfl nofun
    exact ⟨by rw [hsame], by rw [hsame]⟩
  | closePrompts => exact ⟨rfl, rfl⟩

/-- A worker that keeps its receiving end leaves an empty queue of messages as it is. -/
theorem prompts_far (hempty : p.prompts.queue = []) {f : FarStep} (hopen : f ≠ .closePrompts) :
    (p.far f).1.prompts = p.prompts := by
  cases f with
  | closePrompts => exact absurd rfl hopen
  | closeReplies => rfl
  | reply m =>
    simp only [Port.far, Link.far]
    split <;> rfl
  | takePrompt =>
    simp only [Port.far, Link.far]
    split
    · rfl
    · obtain heq | heq := Channel.receive_of_empty hempty <;> rw [heq]

theorem prompts_farAll {fs : List FarStep} (hempty : p.prompts.queue = [])
    (hopen : .closePrompts ∉ fs) : (p.farAll fs).prompts = p.prompts := by
  induction fs generalizing p with
  | nil => rfl
  | cons f rest ih =>
    obtain ⟨hf, hrest⟩ := not_or.mp (mt List.mem_cons.mpr hopen)
    have hstep : (p.far f).1.prompts = p.prompts := prompts_far hempty (Ne.symm hf)
    show ((p.far f).1.farAll rest).prompts = p.prompts
    rw [ih (by rw [hstep]; exact hempty) hrest, hstep]

theorem replies_farAll_of_gone {fs : List FarStep} (hgone : p.replies.senderGone = true) :
    (p.farAll fs).replies = p.replies := by
  induction fs generalizing p with
  | nil => rfl
  | cons f rest ih =>
    have hstep := replies_far_of_gone hgone f
    show ((p.far f).1.farAll rest).replies = p.replies
    rw [ih (by rw [hstep]; exact hgone), hstep]

/-- The replies up to the worker's leaving are queued, and its leaving is marked. -/
theorem replies_farAll {fs : List FarStep} (hjoined : p.replies.senderGone = false)
    (hadmits : p.replies.closed = false)
    (hroom : p.replies.queue.length + (fs.filterMap FarStep.reply?).length ≤ p.replies.capacity) :
    (p.farAll fs).replies =
      { p.replies with
        queue := p.replies.queue ++ (fs.takeWhile (· ≠ .closeReplies)).filterMap FarStep.reply?
        senderGone := decide (.closeReplies ∈ fs) } := by
  induction fs generalizing p with
  | nil =>
    show p.replies = _
    simp [← hjoined]
  | cons f rest ih =>
    show ((p.far f).1.farAll rest).replies = _
    by_cases hleave : f = .closeReplies
    · subst hleave
      rw [replies_farAll_of_gone rfl, replies_far_closeReplies]
      simp
    · have hleave' : ¬ FarStep.closeReplies = f := fun h => hleave h.symm
      cases hreply : f.reply? with
      | none =>
        have hstep := replies_far_of_other (p := p) hreply hleave
        rw [List.filterMap_cons_none hreply] at hroom
        rw [ih (by rw [hstep]; exact hjoined) (by rw [hstep]; exact hadmits)
          (by rw [hstep]; exact hroom), hstep]
        simp [hleave, hleave', hreply]
      | some m =>
        obtain rfl : f = .reply m := by
          cases f with
          | reply m' => cases hreply; rfl
          | takePrompt | closeReplies | closePrompts => cases hreply
        rw [List.filterMap_cons_some hreply, List.length_cons] at hroom
        have hstep := replies_far_reply hjoined hadmits (by omega) m
        rw [ih (by rw [hstep]; exact hjoined) (by rw [hstep]; exact hadmits)
          (by rw [hstep]; simp; omega), hstep]
        simp [FarStep.reply?]

end Port

end Invigilation
