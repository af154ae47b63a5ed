import KiroTrust.Translate.OutputBound
import KiroTrust.Translate.StopSequences

set_option autoImplicit false

namespace KiroTrust.Translate.ResponseTranslator

open Emitter

/-! What a delivery lets out that latches no stop. -/

theorem running_of_not_latched {t : ResponseTranslator} (running : ¬ t.localStop.isSome = true) :
    t.localStop = none := by
  simpa using running

theorem deliverThinking_unlatched {thought : Str} {t : ResponseTranslator}
    (still : (deliverThinking thought t).1.localStop = none) : thought.take t.remaining = thought := by
  by_cases empty : thought = []
  · simp [empty]
  · apply take_unreached
    intro reached
    rw [deliverThinking_stop, if_pos ⟨empty, reached⟩] at still
    exact withMaxTokens_some _ still

theorem deliverText_before {text : Str} {t : ResponseTranslator}
    (still : (deliverText text t).1.localStop = none) : t.localStop = none := by
  apply running_of_not_latched
  intro latched
  rw [(deliverText_latched text latched).1] at still
  simp [still] at latched

theorem deliverText_unlatched {text : Str} {t : ResponseTranslator} (filtering : t.Filtering)
    (still : (deliverText text t).1.localStop = none) :
    (deliverText text t).1.Filtering ∧ (deliverText text t).1.text = t.text ++ t.textTaken text ∧
      t.textTaken text ++ (deliverText text t).1.stopPending = t.stopPending ++ text := by
  have taken : (deliverText text t).1.text = t.text ++ t.textTaken text :=
    congrArg Contents.text (deliverText_contents text t)
  cases deliverText_outcome filtering text with
  | spent stop =>
    rw [still] at stop
    cases stop
  | cut idx s nonempty found stop shown =>
    rw [still] at stop
    cases stop
  | on clear after same whole =>
    rw [taken, List.append_assoc] at whole
    exact ⟨after, taken, List.append_cancel_left whole⟩

theorem finishIfStopped_running {t : ResponseTranslator} (running : t.localStop = none) :
    t.finishIfStopped = (t, []) := by
  simp [finishIfStopped, running]

theorem finishIfStopped_before {t : ResponseTranslator} (still : t.finishIfStopped.1.localStop = none) :
    t.localStop = none := by
  apply running_of_not_latched
  intro latched
  rw [(finishIfStopped_latched latched).2.1] at still
  simp [still] at latched

theorem flushPending_before {t : ResponseTranslator} (still : t.flushPending.1.localStop = none) : t.localStop = none := by
  apply running_of_not_latched
  intro latched
  rw [flushPending_latched latched] at still
  change t.localStop = none at still
  simp [still] at latched

theorem flushPending_unlatched {t : ResponseTranslator} (still : t.flushPending.1.localStop = none) :
    t.pendingTaken = t.stopPending := by
  have running := flushPending_before still
  by_cases nothing : t.stopPending = []
  · simp [pendingTaken, nothing]
  · have flushes : t.stopPending ≠ [] ∧ t.localStop.isNone = true := ⟨nothing, by simp [running]⟩
    have stop : t.flushPending.1.localStop = _ := (congrArg localStop (flushPending_limits running nothing) :)
    rw [pendingTaken, if_pos flushes]
    apply take_unreached
    intro reached
    rw [stop, if_pos reached] at still
    exact withMaxTokens_some _ still

theorem fragment_tags (t : ResponseTranslator) (content : Str) :
    let parsed := t.parseTags content
    let shown := (deliverText parsed.2.1 (deliverThinking parsed.2.2 parsed.1).1).1
    shown.opts = t.opts ∧ shown.tagInside = parsed.1.tagInside ∧ shown.tagBuf = parsed.1.tagBuf := by
  intro parsed shown
  have frames : shown.frame = parsed.1.frame :=
    ((deliverThinking_frame parsed.2.2).seq (deliverText_frame parsed.2.1)) parsed.1
  have options : parsed.1.opts = t.opts := (congrArg ResponseTranslator.opts (parseTags_eq t content) :)
  exact ⟨(congrArg ResponseTranslator.opts frames :).trans options, (congrArg tagInside frames :),
    (congrArg tagBuf frames :)⟩

theorem fragment_unlatched {t : ResponseTranslator} {seen content : Str} (following : t.Following seen)
    (nonempty : content ≠ []) (still : (t.push (.assistantResponse content)).1.localStop = none) :
    let parsed := t.parseTags content
    let thought := deliverThinking parsed.2.2 parsed.1
    let shown := deliverText parsed.2.1 thought.1
    t.push (.assistantResponse content) = (shown.1, thought.2 ++ shown.2) ∧ thought.1.Filtering ∧
      shown.1.localStop = none := by
  intro parsed thought shown
  have live : ¬ (t.finished = true ∨ t.failure.isSome = true) := by simp [following.unfinished, following.working]
  have running : ¬ (content = [] ∨ t.localStop.isSome = true) := by simp [nonempty, following.running]
  have pushes : t.push (.assistantResponse content) =
      seq (deliverThinking parsed.2.2) (seq (deliverText parsed.2.1) finishIfStopped) parsed.1 := by
    simp only [push, if_neg live, pushAssistantResponse, if_neg running]
    rfl
  have textStill : shown.1.localStop = none := by
    rw [pushes] at still
    exact finishIfStopped_before still
  have thoughtStill := deliverText_before textStill
  refine ⟨?_, ?_, textStill⟩
  · rw [pushes]
    simp only [seq]
    rw [finishIfStopped_running textStill, List.append_nil]
  · rcases deliverThinking_outcome (parseTags_filtering following.toFiltering content) parsed.2.2 with spent | filtering
    · rw [thoughtStill] at spent
      cases spent
    · exact filtering

theorem toolUse_unlatched {t : ResponseTranslator} {toolUseId name input : Str} (unfinished : t.finished = false)
    (working : t.failure = none) (running : t.localStop = none)
    (still : (t.push (.toolUse toolUseId name input)).1.localStop = none) :
    t.push (.toolUse toolUseId name input) = deliverToolUse toolUseId name input t := by
  have live : ¬ (t.finished = true ∨ t.failure.isSome = true) := by simp [unfinished, working]
  have pushes : t.push (.toolUse toolUseId name input) =
      seq (deliverToolUse toolUseId name input) finishIfStopped t := by
    simp [push, live, pushToolUse, running]
  rw [pushes] at still
  have delivered := finishIfStopped_before still
  rw [pushes]
  simp only [seq]
  rw [finishIfStopped_running delivered, List.append_nil]

def flushed (t : ResponseTranslator) : ResponseTranslator × List StreamEvent :=
  if t.tagInside then deliverThinking t.tagBuf { t with tagBuf := [] } else deliverText t.tagBuf { t with tagBuf := [] }

theorem flushTag_running {t : ResponseTranslator} (running : t.localStop = none) : t.flushTag = t.flushed := by
  by_cases inside : t.tagInside = true <;> simp [flushTag, flushed, inside, running]

theorem finish_unlatched {t : ResponseTranslator} (unfinished : t.finished = false)
    (still : t.finish.1.localStop = none) :
    t.begin.1.flushTag = t.begin.1.flushed ∧ t.begin.1.flushed.1.localStop = none ∧
      t.begin.1.flushed.1.flushPending.1.localStop = none := by
  have pending : t.begin.1.flushTag.1.flushPending.1.localStop = none :=
    (congrArg localStop (finish_content unfinished) :).symm.trans still
  have tag := flushPending_before pending
  have begun : t.begin.1.localStop = none := by
    apply running_of_not_latched
    intro latched
    rw [(flushTag_latched latched).1] at tag
    simp [tag] at latched
  have flushes := flushTag_running begun
  rw [flushes] at tag pending
  exact ⟨flushes, tag, pending⟩

theorem flushPending_stop {t : ResponseTranslator} (running : t.localStop = none) :
    t.flushPending.1.localStop = none ∨ t.flushPending.1.localStop = maxTokensStop := by
  by_cases nothing : t.stopPending = []
  · left
    simpa [flushPending, nothing] using running
  · have stop : t.flushPending.1.localStop = _ := (congrArg localStop (flushPending_limits running nothing) :)
    by_cases reached : t.Reaches t.stopPending.length
    · right
      rw [stop, if_pos reached, running]
      rfl
    · left
      rw [stop, if_neg reached, running]

theorem finish_stop {t : ResponseTranslator} (filtering : t.Filtering) (unfinished : t.finished = false)
    (clear : t.tagInside = false → t.tagBuf ≠ [] → t.matched t.tagBuf = none) :
    t.finish.1.localStop = none ∨ t.finish.1.localStop = maxTokensStop := by
  have begun := begin_content t
  have running : t.begin.1.localStop = none := (congrArg localStop begun :).trans filtering.running
  have inside : t.begin.1.tagInside = t.tagInside := (congrArg tagInside begun :)
  have buffer : t.begin.1.tagBuf = t.tagBuf := (congrArg tagBuf begun :)
  have sameMatch : t.begin.1.matched t.tagBuf = t.matched t.tagBuf := (congrArg (matched · t.tagBuf) begun :)
  have emptied := (begin_filtering filtering).emptied
  have stop : t.finish.1.localStop = t.begin.1.flushTag.1.flushPending.1.localStop :=
    (congrArg localStop (finish_content unfinished) :)
  have latched (spent : t.begin.1.flushTag.1.localStop = maxTokensStop) : t.finish.1.localStop = maxTokensStop := by
    rw [stop, flushPending_latched (by rw [spent]; rfl)]
    exact spent
  have settles (after : t.begin.1.flushTag.1.localStop = none) := stop ▸ flushPending_stop after
  rw [flushTag_running running] at latched settles
  by_cases isInside : t.begin.1.tagInside = true
  · rw [flushed, if_pos isInside] at latched settles
    rcases deliverThinking_outcome emptied t.begin.1.tagBuf with spent | thinking
    · exact .inr (latched spent)
    · exact settles thinking.running
  · rw [flushed, if_neg isInside] at latched settles
    have outside : t.tagInside = false := by simpa [inside] using isInside
    cases deliverText_outcome emptied t.begin.1.tagBuf with
    | spent spent => exact .inr (latched spent)
    | cut idx s nonempty found =>
      have none := clear outside (buffer ▸ nonempty)
      rw [← sameMatch, ← buffer] at none
      cases found.symm.trans none
    | on clear after => exact settles after.running

end KiroTrust.Translate.ResponseTranslator
