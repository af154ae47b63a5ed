import Mathlib.Algebra.GroupWithZero.Nat
import KiroTrust.Translate.Limits
import KiroTrust.Translate.TagSplit

set_option autoImplicit false

namespace KiroTrust.Translate

theorem splitTags_length (inside : Bool) (buf : Str) :
    let split := splitTags inside buf
    split.text.length + split.think.length + split.buf.length ≤ buf.length ∧ split.buf.length ≤ 10 := by
  induction inside, buf using sides.induct with
  | case1 inside buf idx found ih =>
    obtain ⟨text, think, _, kept⟩ := splitTags_found found
    have bound := (Search.find_some found).1.bound
    simp only [text, think, kept] at ih ⊢
    refine ⟨?_, ih.2⟩
    have shorter := ih.1
    rw [List.length_drop] at shorter
    cases inside <;> simp only [onSide, Bool.false_eq_true, if_true, if_false, List.length_append, List.length_take] <;>
      omega
  | case2 inside buf absent =>
    obtain ⟨text, think, _, kept⟩ := splitTags_absent absent
    have short := partialTagSuffix_short buf (tagOf inside) (tagOf_pos inside)
    have fits : (tagOf inside).length ≤ 11 := by cases inside <;> decide
    simp only [text, think, kept]
    cases inside <;> simp [onSide] <;> omega

def contentChars : Event → Nat
  | .assistantResponse content => content.length
  | .reasoningContent _ _ (some data) => data.length
  | .reasoningContent text _ none => text.length
  | .toolUse _ _ input => input.length
  | _ => 0

namespace ResponseTranslator

open Emitter

def Contents.chars (contents : Contents) : Nat :=
  contents.text.length + contents.thinking.length + (contents.toolCalls.map fun call => call.input.length).sum +
    (contents.redacted.map List.length).sum

def accumulated (t : ResponseTranslator) : Nat := t.contents.chars

theorem deliverThinking_accumulated (thought : Str) (t : ResponseTranslator) :
    (deliverThinking thought t).1.accumulated = t.accumulated + min thought.length t.remaining := by
  rw [accumulated, deliverThinking_contents]
  simp only [accumulated, Contents.chars, contents, List.length_append, List.length_take]
  omega

theorem deliverText_accumulated (textOut : Str) (t : ResponseTranslator) :
    (deliverText textOut t).1.accumulated = t.accumulated + (t.textTaken textOut).length := by
  rw [accumulated, deliverText_contents]
  simp only [accumulated, Contents.chars, contents, List.length_append]
  omega

theorem deliverRedacted_accumulated (data : Str) (t : ResponseTranslator) :
    (deliverRedacted data t).1.accumulated = t.accumulated + data.length := by
  rw [accumulated, deliverRedacted_contents]
  simp [accumulated, Contents.chars, contents]
  omega

theorem deliverToolUse_accumulated (toolUseId name input : Str) (t : ResponseTranslator) :
    (deliverToolUse toolUseId name input t).1.accumulated = t.accumulated + input.length := by
  rw [accumulated, deliverToolUse_contents]
  simp [accumulated, Contents.chars, contents]
  omega

theorem flushPending_accumulated (t : ResponseTranslator) :
    (flushPending t).1.accumulated = t.accumulated + t.pendingTaken.length := by
  rw [accumulated, flushPending_contents]
  simp only [accumulated, Contents.chars, contents, List.length_append]
  omega

def Counted (t : ResponseTranslator) : Prop := t.localStop = none → t.outputChars = t.accumulated

def Accounted (t : ResponseTranslator) : Prop := t.Counted ∧ t.WithinBudget

theorem counted_by {t after : ResponseTranslator} (counted : t.Counted) {count : Nat}
    (used : after.outputChars = t.outputChars + count) (added : after.accumulated = t.accumulated + count)
    (sticks : after.localStop = none → t.localStop = none) : after.Counted := by
  intro running
  have before := counted (sticks running)
  omega

theorem stop_sticks {latches : Prop} [Decidable latches] {before after : Option (StopReason × Option Str)}
    (stop : after = if latches then withMaxTokens before else before) (running : after = none) : before = none := by
  by_cases latch : latches
  · simp [stop, latch, withMaxTokens_some] at running
  · simpa [stop, latch] using running

theorem deliverThinking_accounted (thought : Str) {t : ResponseTranslator} (accounted : t.Accounted) :
    (deliverThinking thought t).1.Accounted :=
  ⟨counted_by accounted.1 (deliverThinking_used thought t) (deliverThinking_accumulated thought t)
    (stop_sticks (deliverThinking_stop thought t)), deliverThinking_withinBudget thought accounted.2⟩

theorem deliverRedacted_accounted (data : Str) {t : ResponseTranslator} (accounted : t.Accounted) :
    (deliverRedacted data t).1.Accounted := by
  have limits := deliverRedacted_limits data t
  have used : (deliverRedacted data t).1.outputChars = t.outputChars + data.length := (congrArg outputChars limits :)
  have stop : (deliverRedacted data t).1.localStop = _ := (congrArg localStop limits :)
  exact ⟨counted_by accounted.1 used (deliverRedacted_accumulated data t) (stop_sticks stop),
    deliverRedacted_withinBudget data accounted.2⟩

theorem deliverToolUse_accounted (toolUseId name input : Str) {t : ResponseTranslator} (accounted : t.Accounted) :
    (deliverToolUse toolUseId name input t).1.Accounted := by
  have limits := deliverToolUse_limits toolUseId name input t
  have used : (deliverToolUse toolUseId name input t).1.outputChars = t.outputChars + input.length :=
    (congrArg outputChars limits :)
  have stop : (deliverToolUse toolUseId name input t).1.localStop = _ := (congrArg localStop limits :)
  exact ⟨counted_by accounted.1 used (deliverToolUse_accumulated toolUseId name input t) (stop_sticks stop),
    deliverToolUse_withinBudget toolUseId name input accounted.2⟩

theorem deliverText_accounted (text : Str) {t : ResponseTranslator} (accounted : t.Accounted) :
    (deliverText text t).1.Accounted := by
  refine ⟨?_, deliverText_withinBudget text accounted.2⟩
  cases stop : t.localStop with
  | some latched =>
    -- A latched stop stays.
    intro running
    rw [(deliverText_latched text (by simp [stop])).1, stop] at running
    cases running
  | none =>
    obtain ⟨nonempty, idx, s, found⟩ | clear := hit_or_clear t text
    · intro running
      have hit : (deliverText text t).1.localStop = _ := (congrArg localStop (deliverText_found stop nonempty found) :)
      rw [running] at hit
      cases hit
    · by_cases empty : text = []
      · simpa [deliverText, empty] using accounted.1
      · have limits := deliverText_clear stop empty (clear empty)
        have used : (deliverText text t).1.outputChars = t.outputChars + min (t.released text).length t.remaining :=
          (congrArg outputChars limits :)
        have added := deliverText_accumulated text t
        rw [textTaken_clear stop empty (clear empty), List.length_take, Nat.min_comm] at added
        exact counted_by accounted.1 used added fun _ => stop

theorem flushTag_accounted {t : ResponseTranslator} (accounted : t.Accounted) : t.flushTag.1.Accounted := by
  have emptied : ({ t with tagBuf := [] } : ResponseTranslator).Accounted := accounted
  simp only [flushTag]
  split
  · exact deliverThinking_accounted _ emptied
  · split
    · exact deliverText_accounted _ emptied
    · exact emptied

theorem flushPending_accounted {t : ResponseTranslator} (accounted : t.Accounted) : t.flushPending.1.Accounted := by
  by_cases flushes : t.stopPending ≠ [] ∧ t.localStop.isNone = true
  · have running : t.localStop = none := by simpa using flushes.2
    have limits := flushPending_limits running flushes.1
    have used : t.flushPending.1.outputChars = t.outputChars + min t.stopPending.length t.remaining :=
      (congrArg outputChars limits :)
    have stop : t.flushPending.1.localStop = _ := (congrArg localStop limits :)
    have added := flushPending_accumulated t
    rw [pendingTaken, if_pos flushes, List.length_take, Nat.min_comm] at added
    refine ⟨counted_by accounted.1 used added (stop_sticks stop), ?_⟩
    change t.flushPending.1.content.WithinBudget
    rw [limits]
    apply counted_withinBudget accounted.2 (Nat.min_le_left _ _)
    exact .inr
  · have same : t.flushPending = ({ t with stopPending := [] }, []) := by
      simp only [flushPending]
      exact if_neg flushes
    rw [same]
    exact accounted

theorem accounted_of_content {t after : ResponseTranslator} (same : after.content = t.content)
    (accounted : t.Accounted) : after.Accounted := by
  change after.content.Accounted
  rw [same]
  exact accounted

theorem finish_accounted {t : ResponseTranslator} (accounted : t.Accounted) : t.finish.1.Accounted := by
  cases running : t.finished with
  | true => simpa [finish, running] using accounted
  | false =>
    have begun : t.begin.1.content.Accounted := by
      rw [begin_content]
      exact accounted
    exact accounted_of_content (finish_content running) (flushPending_accounted (flushTag_accounted begun))

def Held (t : ResponseTranslator) : Prop := t.tagBuf.length ≤ 10 ∧ t.stopPending.length ≤ t.stopMaxKeep

theorem filterText_held {t : ResponseTranslator} (held : t.stopPending.length ≤ t.stopMaxKeep) (text : Str) :
    (t.filterText text).1.stopPending.length ≤ t.stopMaxKeep := by
  cases found : t.matched text with
  | some hit => simp [filterText_found found]
  | none =>
    rw [filterText_clear found]
    by_cases noStops : t.stopSequences = []
    · simpa [heldBack, noStops] using held
    · simp [heldBack, noStops, releasable]
      omega

theorem filterText_length (t : ResponseTranslator) (text : Str) :
    (t.filterText text).2.length + (t.filterText text).1.stopPending.length ≤ t.stopPending.length + text.length := by
  cases found : t.matched text with
  | some hit =>
    rw [filterText_found found]
    simp only [List.length_nil, Nat.add_zero, ← List.length_append]
    exact List.length_take_le' _ _
  | none =>
    rw [filterText_clear found]
    by_cases noStops : t.stopSequences = []
    · simp [heldBack, released, noStops, Nat.add_comm]
    · simp [heldBack, released, noStops]
      omega

theorem budgetText_length (t : ResponseTranslator) (out : Str) : (t.budgetText out).2.length ≤ out.length := by
  unfold budgetText
  split
  · rw [applyMaxTokens_eq]
    exact List.length_take_le' _ _
  · exact Nat.le_refl _

theorem budgetText_stopPending (t : ResponseTranslator) (out : Str) :
    (t.budgetText out).1.stopPending = t.stopPending := by
  unfold budgetText
  split
  · rw [applyMaxTokens_eq]
  · rfl

theorem deliverText_stopPending {text : Str} (nonempty : text ≠ []) (t : ResponseTranslator) :
    (deliverText text t).1.stopPending = (t.filterText text).1.stopPending := by
  have delivered := congrArg stopPending (deliverText_content text t)
  rw [if_neg nonempty] at delivered
  exact delivered.trans (budgetText_stopPending _ _)

theorem textTaken_length (t : ResponseTranslator) (text : Str) :
    (t.textTaken text).length + (deliverText text t).1.stopPending.length ≤ t.stopPending.length + text.length := by
  by_cases empty : text = []
  · simp [textTaken, deliverText, empty]
  · have filtered := filterText_length t text
    have cut := budgetText_length (t.filterText text).1 (t.filterText text).2
    have taken : t.textTaken text = ((t.filterText text).1.budgetText (t.filterText text).2).2 := if_neg empty
    rw [deliverText_stopPending empty, taken]
    omega

theorem deliverText_held (text : Str) {t : ResponseTranslator} (held : t.Held) : (deliverText text t).1.Held := by
  have buffer : (deliverText text t).1.tagBuf = t.tagBuf := (congrArg tagBuf (deliverText_frame text t) :)
  have keep : (deliverText text t).1.stopMaxKeep = t.stopMaxKeep := (congrArg stopMaxKeep (deliverText_frame text t) :)
  unfold Held
  rw [buffer, keep]
  refine ⟨held.1, ?_⟩
  by_cases empty : text = []
  · simpa [deliverText, empty] using held.2
  · rw [deliverText_stopPending empty]
    exact filterText_held held.2 text

theorem flushPending_stopPending (t : ResponseTranslator) : t.flushPending.1.stopPending = [] := by
  by_cases flushes : t.stopPending ≠ [] ∧ t.localStop.isNone = true
  · exact (congrArg stopPending (flushPending_limits (by simpa using flushes.2) flushes.1) :)
  · simp only [flushPending]
    rw [if_neg flushes]

theorem finish_held {t : ResponseTranslator} (held : t.Held) : t.finish.1.Held := by
  cases running : t.finished with
  | true => simpa [finish, running] using held
  | false =>
    have frame := finish_frame t running
    have buffer : t.finish.1.tagBuf = [] := (congrArg tagBuf frame :)
    have pending : t.finish.1.stopPending = [] :=
      (congrArg stopPending (finish_content running) :).trans (flushPending_stopPending _)
    simp [Held, buffer, pending]

theorem parseTags_held {t : ResponseTranslator} (held : t.Held) (delta : Str) : (t.parseTags delta).1.Held := by
  obtain ⟨_, _, kept⟩ := parseTags_split t delta
  have short := (splitTags_length t.tagInside (t.tagBuf ++ delta)).2
  have same := parseTags_eq t delta
  have pending : (t.parseTags delta).1.stopPending = t.stopPending := (congrArg stopPending same :)
  have keep : (t.parseTags delta).1.stopMaxKeep = t.stopMaxKeep := (congrArg stopMaxKeep same :)
  rw [← kept] at short
  exact ⟨short, by rw [pending, keep]; exact held.2⟩

def mass (t : ResponseTranslator) : Nat := t.accumulated + t.tagBuf.length + t.stopPending.length

theorem mass_of_content {t after : ResponseTranslator} (same : after.content = t.content) : after.mass = t.mass :=
  (congrArg mass same :)

theorem mass_emptied (t : ResponseTranslator) :
    ({ t with tagBuf := [] } : ResponseTranslator).mass + t.tagBuf.length = t.mass := by
  change t.accumulated + 0 + t.stopPending.length + t.tagBuf.length = t.mass
  unfold mass
  omega

theorem parseTags_mass (t : ResponseTranslator) (delta : Str) :
    (t.parseTags delta).1.mass + (t.parseTags delta).2.1.length + (t.parseTags delta).2.2.length ≤
      t.mass + delta.length := by
  obtain ⟨parts, _, kept⟩ := parseTags_split t delta
  have split := (splitTags_length t.tagInside (t.tagBuf ++ delta)).1
  have same := parseTags_eq t delta
  have pending : (t.parseTags delta).1.stopPending = t.stopPending := (congrArg stopPending same :)
  have content : (t.parseTags delta).1.accumulated = t.accumulated := (congrArg accumulated same :)
  rw [List.length_append] at split
  simp only [mass, parts, kept, pending, content]
  omega

theorem deliverThinking_mass (thought : Str) (t : ResponseTranslator) :
    (deliverThinking thought t).1.mass ≤ t.mass + thought.length := by
  have limits := deliverThinking_limits thought t
  have buffer : (deliverThinking thought t).1.tagBuf = t.tagBuf := (congrArg tagBuf limits :)
  have pending : (deliverThinking thought t).1.stopPending = t.stopPending := (congrArg stopPending limits :)
  simp only [mass, deliverThinking_accumulated, buffer, pending]
  omega

theorem deliverText_mass (text : Str) (t : ResponseTranslator) :
    (deliverText text t).1.mass ≤ t.mass + text.length := by
  have buffer : (deliverText text t).1.tagBuf = t.tagBuf := (congrArg tagBuf (deliverText_frame text t) :)
  have taken := textTaken_length t text
  simp only [mass, deliverText_accumulated, buffer]
  omega

theorem deliverRedacted_mass (data : Str) (t : ResponseTranslator) :
    (deliverRedacted data t).1.mass = t.mass + data.length := by
  have limits := deliverRedacted_limits data t
  have buffer : (deliverRedacted data t).1.tagBuf = t.tagBuf := (congrArg tagBuf limits :)
  have pending : (deliverRedacted data t).1.stopPending = t.stopPending := (congrArg stopPending limits :)
  simp only [mass, deliverRedacted_accumulated, buffer, pending]
  omega

theorem deliverToolUse_mass (toolUseId name input : Str) (t : ResponseTranslator) :
    (deliverToolUse toolUseId name input t).1.mass = t.mass + input.length := by
  have limits := deliverToolUse_limits toolUseId name input t
  have buffer : (deliverToolUse toolUseId name input t).1.tagBuf = t.tagBuf := (congrArg tagBuf limits :)
  have pending : (deliverToolUse toolUseId name input t).1.stopPending = t.stopPending :=
    (congrArg stopPending limits :)
  simp only [mass, deliverToolUse_accumulated, buffer, pending]
  omega

theorem flushTag_mass (t : ResponseTranslator) : t.flushTag.1.mass ≤ t.mass := by
  have emptied := (mass_emptied t).le
  simp only [flushTag]
  split
  · exact (deliverThinking_mass t.tagBuf _).trans emptied
  · split
    · exact (deliverText_mass t.tagBuf _).trans emptied
    · exact (Nat.le_add_right _ _).trans emptied

theorem flushPending_mass (t : ResponseTranslator) : t.flushPending.1.mass ≤ t.mass := by
  have buffer : t.flushPending.1.tagBuf = t.tagBuf := (congrArg tagBuf (flushPending_frame t) :)
  have taken : t.pendingTaken.length ≤ t.stopPending.length := by
    unfold pendingTaken
    split
    · exact List.length_take_le' _ _
    · exact Nat.zero_le _
  simp only [mass, flushPending_accumulated, buffer, flushPending_stopPending, List.length_nil]
  omega

theorem finish_mass (t : ResponseTranslator) : t.finish.1.mass ≤ t.mass := by
  cases running : t.finished with
  | true => simp [finish, running]
  | false =>
    have begun : t.begin.1.mass = t.mass := (congrArg mass (begin_content t) :)
    have ended := mass_of_content (finish_content running)
    have tag := flushTag_mass t.begin.1
    have pending := flushPending_mass t.begin.1.flushTag.1
    omega

theorem finishIfStopped_mass (t : ResponseTranslator) : t.finishIfStopped.1.mass ≤ t.mass := by
  unfold finishIfStopped
  split
  · exact finish_mass t
  · exact Nat.le_refl _

theorem pushAssistantResponse_mass (content : Str) (t : ResponseTranslator) :
    (pushAssistantResponse content t).1.mass ≤ t.mass + content.length := by
  simp only [pushAssistantResponse]
  split
  · exact Nat.le_add_right _ _
  · have parsed := parseTags_mass t content
    have thinking := deliverThinking_mass (t.parseTags content).2.2 (t.parseTags content).1
    have text := deliverText_mass (t.parseTags content).2.1 (deliverThinking (t.parseTags content).2.2
      (t.parseTags content).1).1
    refine (finishIfStopped_mass _).trans (text.trans ?_)
    omega

theorem pushReasoningContent_mass (text : Str) (signature redactedContent : Option Str) (t : ResponseTranslator) :
    (pushReasoningContent text signature redactedContent t).1.mass ≤
      t.mass + contentChars (.reasoningContent text signature redactedContent) := by
  have signed : (takeSignature signature t).mass = t.mass := rfl
  cases redactedContent with
  | some data =>
    have redacted := deliverRedacted_mass data (takeSignature signature t)
    refine (finishIfStopped_mass _).trans ?_
    simp only [contentChars]
    omega
  | none =>
    simp only [pushReasoningContent, contentChars]
    split
    · exact Nat.le_add_right _ _
    · refine (finishIfStopped_mass _).trans ?_
      rw [emitSignature_fst]
      unfold deliverReasoning
      split
      · exact deliverThinking_mass text _
      · exact Nat.le_add_right _ _

theorem push_mass (t : ResponseTranslator) (ev : Event) : (t.push ev).1.mass ≤ t.mass + contentChars ev := by
  simp only [push]
  split
  · exact Nat.le_add_right _ _
  · cases ev with
    | assistantResponse content => exact pushAssistantResponse_mass content t
    | reasoningContent text signature redacted => exact pushReasoningContent_mass text signature redacted t
    | toolUse toolUseId name input =>
      simp only [pushToolUse]
      split
      · exact Nat.le_add_right _ _
      · refine (finishIfStopped_mass _).trans ?_
        exact (deliverToolUse_mass toolUseId name input t).le
    | metadata uncached output total cacheRead cacheWrite =>
      have same : (t.takeMetadata uncached output cacheRead cacheWrite).mass = t.mass := by
        simp only [takeMetadata]
        split <;> rfl
      exact same.le
    | metering credits input output =>
      have same : (t.takeMetering input output).mass = t.mass := by
        simp only [takeMetering]
        split <;> rfl
      exact same.le
    | invalidState reason message | exception exceptionType message | ignored eventType => exact Nat.le_refl _

def Call.chars : Call → Nat
  | .push ev => contentChars ev
  | .finish => 0

theorem call_mass (t : ResponseTranslator) (input : Call) : (t.call input).1.mass ≤ t.mass + input.chars := by
  cases input with
  | push ev => exact push_mass t ev
  | finish => exact finish_mass t

structure Sound (opts : ResponseOptions) (t : ResponseTranslator) : Prop where
  options : t.opts = opts
  keep : t.stopMaxKeep = (new opts).stopMaxKeep
  accounted : t.Accounted
  held : t.Held

theorem new_sound (opts : ResponseOptions) : (new opts).Sound opts where
  options := rfl
  keep := rfl
  accounted := ⟨fun _ => rfl, fun _ => (new_open opts).2⟩
  held := ⟨Nat.zero_le _, Nat.zero_le _⟩

theorem Sound.budget {opts : ResponseOptions} {t : ResponseTranslator} (sound : t.Sound opts) :
    t.effectiveMaxTokens = (new opts).effectiveMaxTokens := by
  unfold effectiveMaxTokens
  rw [sound.options]
  rfl

theorem Sound.of_frame {opts : ResponseOptions} {t after : ResponseTranslator} (sound : t.Sound opts)
    (frame : after.frame = t.frame) (accounted : after.Accounted) (held : after.Held) : after.Sound opts where
  options := (congrArg ResponseTranslator.opts frame :).trans sound.options
  keep := (congrArg stopMaxKeep frame :).trans sound.keep
  accounted
  held

theorem held_of_buffers {t after : ResponseTranslator} (held : t.Held) (frame : after.frame = t.frame)
    (pending : after.stopPending = t.stopPending) : after.Held := by
  have buffer : after.tagBuf = t.tagBuf := (congrArg tagBuf frame :)
  have keep : after.stopMaxKeep = t.stopMaxKeep := (congrArg stopMaxKeep frame :)
  simpa only [Held, buffer, keep, pending] using held

theorem finish_sound {opts : ResponseOptions} {t : ResponseTranslator} (sound : t.Sound opts) :
    t.finish.1.Sound opts := by
  cases running : t.finished with
  | true => simpa [finish, running] using sound
  | false =>
    have frame := finish_frame t running
    exact
      { options := (congrArg ResponseTranslator.opts frame :).trans sound.options
        keep := (congrArg stopMaxKeep frame :).trans sound.keep
        accounted := finish_accounted sound.accounted
        held := finish_held sound.held }

theorem sound_rules (opts : ResponseOptions) :
    PushRules (fun t _ => t.Sound opts) (fun t _ => t.Sound opts) (fun t _ => t.Sound opts) where
  parsed delta t _ sound := by
    have same := parseTags_eq t delta
    have accounted : (t.parseTags delta).1.Accounted := by
      rw [same]
      exact sound.accounted
    exact
      { options := (congrArg ResponseTranslator.opts same :).trans sound.options
        keep := (congrArg stopMaxKeep same :).trans sound.keep
        accounted
        held := parseTags_held sound.held delta }
  signed _ _ _ sound := ⟨sound.options, sound.keep, sound.accounted, sound.held⟩
  counted uncached output cacheRead cacheWrite t _ sound := by
    simp only [takeMetadata]
    split <;> exact ⟨sound.options, sound.keep, sound.accounted, sound.held⟩
  metered input output t _ sound := by
    simp only [takeMetering]
    split
    · exact ⟨sound.options, sound.keep, sound.accounted, sound.held⟩
    · exact sound
  failed _ _ _ sound := ⟨sound.options, sound.keep, sound.accounted, sound.held⟩
  enters _ _ sound := sound
  thinking thought t _ sound :=
    sound.of_frame (deliverThinking_frame thought t) (deliverThinking_accounted thought sound.accounted)
      (held_of_buffers sound.held (deliverThinking_frame thought t)
        (congrArg stopPending (deliverThinking_limits thought t) :))
  text textOut t _ sound :=
    sound.of_frame (deliverText_frame textOut t) (deliverText_accounted textOut sound.accounted)
      (deliverText_held textOut sound.held)
  signature sig t _ sound := by
    rw [emitSignature_fst]
    exact sound
  redacted data t _ sound :=
    sound.of_frame (deliverRedacted_frame data t) (deliverRedacted_accounted data sound.accounted)
      (held_of_buffers sound.held (deliverRedacted_frame data t)
        (congrArg stopPending (deliverRedacted_limits data t) :))
  toolUse toolUseId name input t _ sound :=
    sound.of_frame (deliverToolUse_frame toolUseId name input t)
      (deliverToolUse_accounted toolUseId name input sound.accounted)
      (held_of_buffers sound.held (deliverToolUse_frame toolUseId name input t)
        (congrArg stopPending (deliverToolUse_limits toolUseId name input t) :))
  stays _ _ sound := sound
  settles _ _ _ sound := sound
  finishes _ _ := finish_sound

theorem call_sound {opts : ResponseOptions} {t : ResponseTranslator} (sound : t.Sound opts) (input : Call) :
    (t.call input).1.Sound opts := by
  cases input with
  | push ev => exact (sound_rules opts).push ev t [] sound
  | finish => exact finish_sound sound

def largest (calls : List Call) : Nat := (calls.map Call.chars).foldr max 0

def longest (sequences : List Str) : Nat := (sequences.map List.length).foldr max 0

theorem stopMaxKeep_longest (opts : ResponseOptions) :
    (new opts).stopMaxKeep = longest opts.stopSequences - 1 := by
  change ((opts.stopSequences.filter (· ≠ [])).map fun s => s.length - 1).foldr max 0 = _
  unfold longest
  induction opts.stopSequences with
  | nil => rfl
  | cons s rest ih =>
    by_cases empty : s = []
    · simpa [empty] using ih
    · simp only [List.filter_cons, empty, ne_eq, not_false_eq_true, decide_true, if_true, List.map_cons,
        List.foldr_cons]
      rw [ih]
      omega

def Bounded (opts : ResponseOptions) (most : Nat) (t : ResponseTranslator) : Prop :=
  t.accumulated < (new opts).effectiveMaxTokens * 4 + most + 10 + (new opts).stopMaxKeep

theorem call_bounded {opts : ResponseOptions} {t : ResponseTranslator} {most : Nat} (sound : t.Sound opts)
    (limited : t.Limited) (bounded : t.Bounded opts most) (input : Call) :
    (t.call input).1.Bounded opts (max most input.chars) := by
  unfold Bounded at *
  cases running : t.finished with
  | true =>
    rw [call_finished running]
    change t.accumulated < _
    omega
  | false =>
    -- One call adds at most its own characters to the content and the buffers of a running translator.
    have added := call_mass t input
    have counted := sound.accounted.1 (limited running).1
    have spent := (limited running).2
    obtain ⟨buffer, pending⟩ := sound.held
    rw [sound.keep] at pending
    rw [sound.budget] at spent
    unfold mass at added
    omega

theorem run_bounded {opts : ResponseOptions} (calls : List Call) {t : ResponseTranslator} {most : Nat}
    (sound : t.Sound opts) (limited : t.Limited) (bounded : t.Bounded opts most) :
    (runAll call t calls).1.Sound opts ∧ (runAll call t calls).1.Bounded opts (max most (largest calls)) := by
  induction calls generalizing t most with
  | nil => simpa [largest] using ⟨sound, bounded⟩
  | cons input rest ih =>
    have later := ih (call_sound sound input) (call_limited limited input) (call_bounded sound limited bounded input)
    rw [runAll_cons]
    simpa [largest, Nat.max_assoc] using later

theorem Sound.bounds {opts : ResponseOptions} {t : ResponseTranslator} {most : Nat} (sound : t.Sound opts)
    (bounded : t.Bounded opts most) :
    (t.localStop = none → t.outputChars = t.accumulated ∧ t.outputChars < 4 * t.effectiveMaxTokens) ∧
      t.accumulated < 4 * t.effectiveMaxTokens + most + 10 + (longest opts.stopSequences - 1) := by
  constructor
  · intro running
    have within := sound.accounted.2 running
    exact ⟨sound.accounted.1 running, by omega⟩
  · unfold Bounded at bounded
    rw [stopMaxKeep_longest, ← sound.budget] at bounded
    omega

theorem output_accounted_and_bounded (opts : ResponseOptions) (calls : List Call) :
    let t := (runAll call (new opts) calls).1
    (t.localStop = none →
        t.outputChars =
            t.text.length + t.thinking.length + (t.toolCalls.map fun call => call.input.length).sum +
              (t.redacted.map List.length).sum ∧
          t.outputChars < 4 * t.effectiveMaxTokens) ∧
      t.accumulated < 4 * t.effectiveMaxTokens + largest calls + 10 + (longest opts.stopSequences - 1) := by
  have fresh : (new opts).Bounded opts 0 := by
    have positive := (new_open opts).2
    change 0 < _
    omega
  obtain ⟨sound, bounded⟩ := run_bounded calls (new_sound opts) (fun _ => new_open opts) fresh
  rw [Nat.zero_max] at bounded
  exact sound.bounds bounded

end ResponseTranslator

end KiroTrust.Translate
