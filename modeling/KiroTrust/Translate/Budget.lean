import KiroTrust.Translate.Fold
import KiroTrust.Translate.Limits

set_option autoImplicit false

namespace KiroTrust.Translate.ResponseTranslator

open Emitter

/-! What the token budget bounds. -/

def delivered (t : ResponseTranslator) : Nat := t.text.length + t.thinking.length

def allowance (t : ResponseTranslator) : Nat := t.effectiveMaxTokens * 4

def WithinAllowance (t : ResponseTranslator) : Prop := t.delivered ≤ t.allowance

instance (t : ResponseTranslator) : Decidable t.WithinAllowance := inferInstanceAs (Decidable (_ ≤ _))

theorem delivered_of_contents {t after : ResponseTranslator} (same : after.contents = t.contents) :
    after.delivered = t.delivered := by
  have text : after.text = t.text := congrArg Contents.text same
  have thinking : after.thinking = t.thinking := congrArg Contents.thinking same
  simp only [delivered, text, thinking]

theorem allowance_of_frame {t after : ResponseTranslator} (same : after.frame = t.frame) :
    after.allowance = t.allowance :=
  (congrArg allowance same :)

theorem deliverThinking_delivered (thought : Str) (t : ResponseTranslator) :
    (deliverThinking thought t).1.delivered = t.delivered + min thought.length t.remaining := by
  have contents := deliverThinking_contents thought t
  have text : (deliverThinking thought t).1.text = t.text := congrArg Contents.text contents
  have thinking : (deliverThinking thought t).1.thinking = t.thinking ++ thought.take t.remaining :=
    congrArg Contents.thinking contents
  simp only [delivered, text, thinking, List.length_append, List.length_take]
  omega

theorem deliverText_delivered (textOut : Str) (t : ResponseTranslator) :
    (deliverText textOut t).1.delivered = t.delivered + (t.textTaken textOut).length := by
  have contents := deliverText_contents textOut t
  have text : (deliverText textOut t).1.text = t.text ++ t.textTaken textOut := congrArg Contents.text contents
  have thinking : (deliverText textOut t).1.thinking = t.thinking := congrArg Contents.thinking contents
  simp only [delivered, text, thinking, List.length_append]
  omega

theorem matched_bound {t : ResponseTranslator} {text : Str} {idx : Nat} {s : Str}
    (found : t.matched text = some (idx, s)) : idx ≤ (t.stopPending ++ text).length := by
  have inside := (Search.find_some (firstMatch_some found).2).1.bound
  omega

theorem textTaken_found_length {t : ResponseTranslator} {text : Str} {idx : Nat} {s : Str}
    (running : t.localStop = none) (nonempty : text ≠ []) (found : t.matched text = some (idx, s)) :
    (t.textTaken text).length = idx := by
  rw [textTaken_found running nonempty found, List.length_take]
  exact Nat.min_eq_left (matched_bound found)

def thoughtLeft (t : ResponseTranslator) : Nat :=
  if t.tagInside then min t.tagBuf.length t.remaining else 0

theorem flushTag_stopped {t : ResponseTranslator} (latched : t.localStop.isSome = true) :
    t.flushTag.1.delivered = t.delivered + t.thoughtLeft := by
  by_cases inside : t.tagInside = true
  · have flushes : t.flushTag = deliverThinking t.tagBuf { t with tagBuf := [] } := if_pos inside
    rw [flushes, deliverThinking_delivered, thoughtLeft, if_pos inside]
    rfl
  · have stopped : t.localStop ≠ none := Option.isSome_iff_ne_none.1 latched
    simp [flushTag, inside, stopped, thoughtLeft, delivered]

theorem flushPending_stopped {t : ResponseTranslator} (latched : t.localStop.isSome = true) :
    t.flushPending.1.delivered = t.delivered := by
  rw [flushPending_latched latched]
  rfl

theorem finish_stopped {t : ResponseTranslator} (latched : t.localStop.isSome = true)
    (running : t.finished = false) : t.finish.1.delivered = t.delivered + t.thoughtLeft := by
  have begun : t.begin.1.localStop = t.localStop := (congrArg localStop (begin_content t) :)
  have left : t.begin.1.thoughtLeft = t.thoughtLeft := (congrArg thoughtLeft (begin_content t) :)
  have same : t.begin.1.delivered = t.delivered := (congrArg delivered (begin_content t) :)
  have there : t.begin.1.localStop.isSome = true := begun ▸ latched
  have still : t.begin.1.flushTag.1.localStop.isSome = true := (flushTag_latched there).1 ▸ there
  have ended : t.finish.1.delivered = t.begin.1.flushTag.1.flushPending.1.delivered :=
    delivered_of_contents (contents_of_content (finish_content running))
  rw [ended, flushPending_stopped still, flushTag_stopped there, left, same]

theorem finish_allowance (t : ResponseTranslator) : t.finish.1.allowance = t.allowance := by
  cases running : t.finished with
  | true => simp [finish, running]
  | false => exact (congrArg allowance (finish_frame t running) :)

def Covered (t : ResponseTranslator) : Prop := t.delivered ≤ t.outputChars ∧ t.outputChars ≤ t.allowance

theorem Covered.within {t : ResponseTranslator} (covered : t.Covered) : t.WithinAllowance :=
  covered.1.trans covered.2

theorem deliverThinking_covered (thought : Str) {t : ResponseTranslator} (covered : t.Covered) :
    (deliverThinking thought t).1.Covered := by
  have budget := allowance_of_frame (deliverThinking_frame thought t)
  obtain ⟨counts, fits⟩ := covered
  unfold Covered
  rw [deliverThinking_delivered, deliverThinking_used, budget]
  unfold allowance remaining at *
  omega

theorem deliverText_covered {text : Str} {t : ResponseTranslator} (running : t.localStop = none)
    (clear : text ≠ [] → t.matched text = none) (covered : t.Covered) : (deliverText text t).1.Covered := by
  by_cases empty : text = []
  · simpa [deliverText, empty] using covered
  · have limits := deliverText_clear running empty (clear empty)
    have used : (deliverText text t).1.outputChars = t.outputChars + min (t.released text).length t.remaining :=
      (congrArg outputChars limits :)
    have budget := allowance_of_frame (deliverText_frame text t)
    obtain ⟨counts, fits⟩ := covered
    unfold Covered
    rw [deliverText_delivered, textTaken_clear running empty (clear empty), List.length_take, used, budget]
    unfold allowance remaining at *
    omega

theorem flushPending_within {t : ResponseTranslator} (covered : t.Covered) : t.flushPending.1.WithinAllowance := by
  have contents := flushPending_contents t
  have text : t.flushPending.1.text = t.text ++ t.pendingTaken := congrArg Contents.text contents
  have thinking : t.flushPending.1.thinking = t.thinking := congrArg Contents.thinking contents
  have budget := allowance_of_frame (flushPending_frame t)
  have taken : t.pendingTaken.length ≤ t.remaining := by
    unfold pendingTaken
    split
    · exact List.length_take_le _ _
    · exact Nat.zero_le _
  obtain ⟨counts, fits⟩ := covered
  unfold WithinAllowance
  simp only [delivered, text, thinking, List.length_append, budget]
  unfold delivered at counts
  unfold allowance remaining at *
  omega

/-- A stop sequence found in this text leaves room for the text before it, which is not counted. -/
def StopFits (t : ResponseTranslator) (beside : Nat) (text : Str) : Prop :=
  text ≠ [] → ∀ idx s, t.matched text = some (idx, s) → t.delivered + beside + idx ≤ t.allowance

def FrameFits (t : ResponseTranslator) (thought text : Str) : Prop :=
  if thought ≠ [] ∧ t.Reaches thought.length then
    t.delivered + t.remaining + (t.filtered text).length ≤ t.allowance
  else
    t.StopFits
      (thought.length + if t.tagInside then min t.tagBuf.length (t.remaining - thought.length) else 0) text

def EventFits (t : ResponseTranslator) : Event → Prop
  | .assistantResponse content =>
    content = [] ∨ (t.parseTags content).1.FrameFits (t.parseTags content).2.2 (t.parseTags content).2.1
  | _ => True

/-- The condition, on the state before a call, under which the call keeps to the budget. -/
def Fits (t : ResponseTranslator) : Call → Prop
  | .push ev => t.finished = true ∨ t.failure.isSome = true ∨ t.EventFits ev
  | .finish => t.finished = true ∨ t.tagInside = true ∨ t.StopFits 0 t.tagBuf

theorem stopFits_clear {t : ResponseTranslator} {text : Str} (clear : text ≠ [] → t.matched text = none)
    (beside : Nat) : t.StopFits beside text := by
  intro nonempty idx s found
  rw [clear nonempty] at found
  cases found

theorem stopFits_hit {t : ResponseTranslator} {text : Str} {idx : Nat} {s : Str} (nonempty : text ≠ [])
    (found : t.matched text = some (idx, s)) (beside : Nat) :
    t.StopFits beside text ↔ t.delivered + beside + idx ≤ t.allowance := by
  constructor
  · intro fits
    exact fits nonempty idx s found
  · intro within _ index sequence same
    cases found.symm.trans same
    exact within

theorem text_hit {t : ResponseTranslator} {text : Str} {idx : Nat} {s : Str} (running : t.localStop = none)
    (nonempty : text ≠ []) (found : t.matched text = some (idx, s)) :
    (deliverText text t).1.delivered = t.delivered + idx ∧ (deliverText text t).1.localStop.isSome = true := by
  have stop : (deliverText text t).1.localStop = some (.stopSequence, some s) :=
    (congrArg localStop (deliverText_found running nonempty found) :)
  rw [deliverText_delivered, textTaken_found_length running nonempty found, stop]
  exact ⟨rfl, rfl⟩

theorem text_flush_within_iff {t : ResponseTranslator} (running : t.localStop = none) (covered : t.Covered)
    (text : Str) : (deliverText text t).1.flushPending.1.WithinAllowance ↔ t.StopFits 0 text := by
  rcases t.hit_or_clear text with ⟨nonempty, idx, s, found⟩ | clear
  · have hit := text_hit running nonempty found
    have budget := allowance_of_frame (flushPending_frame (deliverText text t).1)
    rw [stopFits_hit nonempty found, WithinAllowance, flushPending_stopped hit.2, hit.1, budget,
      allowance_of_frame (deliverText_frame text t), Nat.add_zero]
  · exact iff_of_true (flushPending_within (deliverText_covered running clear covered)) (stopFits_clear clear 0)

theorem flush_within_iff {t : ResponseTranslator} (running : t.localStop = none) (covered : t.Covered) :
    t.flushTag.1.flushPending.1.WithinAllowance ↔ t.tagInside = true ∨ t.StopFits 0 t.tagBuf := by
  have emptied : Covered { t with tagBuf := [] } := covered
  by_cases inside : t.tagInside = true
  · have flushes : t.flushTag = deliverThinking t.tagBuf { t with tagBuf := [] } := if_pos inside
    rw [flushes]
    exact iff_of_true (flushPending_within (deliverThinking_covered _ emptied)) (.inl inside)
  · have flushes : t.flushTag = deliverText t.tagBuf { t with tagBuf := [] } := by simp [flushTag, inside, running]
    rw [flushes, or_iff_right inside]
    exact text_flush_within_iff (t := { t with tagBuf := [] }) running emptied t.tagBuf

theorem finish_within_iff {t : ResponseTranslator} (running : t.localStop = none) (unfinished : t.finished = false)
    (covered : t.Covered) :
    t.finish.1.WithinAllowance ↔ t.tagInside = true ∨ t.StopFits 0 t.tagBuf := by
  have begun := begin_content t
  have stop : t.begin.1.localStop = none := (congrArg localStop begun :).trans running
  have coveredThere : t.begin.1.Covered := cast (congrArg Covered begun :).symm covered
  have fits : (t.begin.1.tagInside = true ∨ t.begin.1.StopFits 0 t.begin.1.tagBuf) =
      (t.tagInside = true ∨ t.StopFits 0 t.tagBuf) :=
    (congrArg (fun t => t.tagInside = true ∨ t.StopFits 0 t.tagBuf) begun :)
  have budget : t.finish.1.allowance = t.begin.1.flushTag.1.flushPending.1.allowance := by
    have tagged : t.begin.1.flushTag.1.allowance = t.begin.1.allowance := (congrArg allowance (flushTag_frame _) :)
    have same : t.begin.1.allowance = t.allowance := (congrArg allowance begun :)
    rw [finish_allowance, allowance_of_frame (flushPending_frame _), tagged, same]
  rw [WithinAllowance, delivered_of_contents (contents_of_content (finish_content unfinished)), budget, ← fits]
  exact flush_within_iff stop coveredThere

theorem settle_within_iff {t : ResponseTranslator} (unfinished : t.finished = false)
    (spent : t.localStop.isSome = true → t.remaining = 0) :
    t.finishIfStopped.1.WithinAllowance ↔ t.WithinAllowance := by
  unfold finishIfStopped
  split
  next latched =>
    have left : t.thoughtLeft = 0 := by simp [thoughtLeft, spent latched]
    rw [WithinAllowance, finish_stopped latched unfinished, left, finish_allowance]
    exact Iff.rfl
  next => exact Iff.rfl

theorem text_settle_within_iff {t : ResponseTranslator} (opened : t.Open) (unfinished : t.finished = false)
    (covered : t.Covered) (text : Str) :
    (deliverText text t).1.finishIfStopped.1.WithinAllowance ↔ t.StopFits t.thoughtLeft text := by
  have stillUnfinished := ((deliverText_frame text).finished t).trans unfinished
  rcases t.hit_or_clear text with ⟨nonempty, idx, s, found⟩ | clear
  · have hit := text_hit opened.1 nonempty found
    have limits := deliverText_found opened.1 nonempty found
    have left : (deliverText text t).1.thoughtLeft = t.thoughtLeft := (congrArg thoughtLeft limits :)
    rw [stopFits_hit nonempty found, finishIfStopped, if_pos hit.2, WithinAllowance,
      finish_stopped hit.2 stillUnfinished, hit.1, left, finish_allowance,
      allowance_of_frame (deliverText_frame text t), Nat.add_right_comm]
  · rw [settle_within_iff stillUnfinished (deliverText_spent opened.1 clear)]
    exact iff_of_true (deliverText_covered opened.1 clear covered).within (stopFits_clear clear _)

theorem frame_within_iff {t : ResponseTranslator} (opened : t.Open) (unfinished : t.finished = false)
    (covered : t.Covered) (thought text : Str) :
    (deliverText text (deliverThinking thought t).1).1.finishIfStopped.1.WithinAllowance ↔
      t.FrameFits thought text := by
  have limits := deliverThinking_limits thought t
  have stillUnfinished := ((deliverThinking_frame thought).finished t).trans unfinished
  have counts := deliverThinking_delivered thought t
  have budget := allowance_of_frame (deliverThinking_frame thought t)
  unfold FrameFits
  by_cases reached : thought ≠ [] ∧ t.Reaches thought.length
  · -- The thinking uses up the budget, and whatever the filter lets out of the text comes on top.
    have latched : (deliverThinking thought t).1.localStop.isSome = true := by
      rw [deliverThinking_latched opened.1 reached]
      rfl
    have spent := deliverText_still_spent text latched (deliverThinking_spent opened.1 latched)
    have afterText := ((deliverText_frame text).finished (deliverThinking thought t).1).trans stillUnfinished
    have used : min thought.length t.remaining = t.remaining := by
      have enough := (t.reaches_iff thought.length).1 reached.2
      unfold remaining
      omega
    have sameText : (deliverThinking thought t).1.filtered text = t.filtered text := (congrArg (filtered · text) limits :)
    rw [if_pos reached, settle_within_iff afterText fun _ => spent, WithinAllowance, deliverText_delivered,
      textTaken_latched latched, sameText, counts, used, allowance_of_frame (deliverText_frame text _), budget]
  · have used : min thought.length t.remaining = thought.length := by
      by_cases empty : thought = []
      · simp [empty]
      · have short : ¬ t.Reaches thought.length := fun reaches => reached ⟨empty, reaches⟩
        rw [reaches_iff] at short
        unfold remaining
        omega
    have room : (deliverThinking thought t).1.remaining = t.remaining - thought.length := by
      rw [remaining, (deliverThinking_frame thought).effectiveMaxTokens, deliverThinking_used, used]
      exact Nat.sub_add_eq _ _ _
    have inside : (deliverThinking thought t).1.tagInside = t.tagInside := (congrArg tagInside limits :)
    have buffer : (deliverThinking thought t).1.tagBuf = t.tagBuf := (congrArg tagBuf limits :)
    have sameMatch : (deliverThinking thought t).1.matched text = t.matched text :=
      (congrArg (matched · text) limits :)
    rw [if_neg reached, text_settle_within_iff (deliverThinking_open opened reached) stillUnfinished
      (deliverThinking_covered thought covered)]
    simp only [StopFits, thoughtLeft, counts, used, room, inside, buffer, sameMatch, budget, Nat.add_assoc]

def Measured (t : ResponseTranslator) : Prop := t.localStop = none → t.Covered

theorem running_before {localStop : Option (StopReason × Option Str)} {latches : Prop} [Decidable latches]
    (running : (if latches then withMaxTokens localStop else localStop) = none) : ¬ latches ∧ localStop = none := by
  by_cases latched : latches
  · simp [latched, withMaxTokens_some] at running
  · exact ⟨latched, by simpa [latched] using running⟩

theorem Covered.measured {t : ResponseTranslator} (covered : t.Covered) : t.Measured := fun _ => covered

theorem deliverThinking_measured (thought : Str) {t : ResponseTranslator} (measured : t.Measured) :
    (deliverThinking thought t).1.Measured := by
  intro running
  rw [deliverThinking_stop] at running
  exact deliverThinking_covered thought (measured (running_before running).2)

theorem deliverText_measured (text : Str) {t : ResponseTranslator} (measured : t.Measured) :
    (deliverText text t).1.Measured := by
  intro running
  have before : t.localStop = none := by
    by_contra some
    have latched : t.localStop.isSome = true := Option.isSome_iff_ne_none.2 some
    exact some ((deliverText_latched text latched).1.symm.trans running)
  rcases t.hit_or_clear text with ⟨nonempty, idx, s, found⟩ | clear
  · have hit := text_hit before nonempty found
    rw [running] at hit
    cases hit.2
  · exact deliverText_covered before clear (measured before)

theorem opaque_measured {t after : ResponseTranslator} {count : Nat} (measured : t.Measured)
    (same : after.delivered = t.delivered) (budget : after.allowance = t.allowance)
    (used : after.outputChars = t.outputChars + count)
    (stop : after.localStop = if t.Reaches count then withMaxTokens t.localStop else t.localStop) :
    after.Measured := by
  intro running
  have before := running_before (stop ▸ running)
  have covered := measured before.2
  have room := before.1
  rw [reaches_iff] at room
  rw [Covered, same, budget, used]
  have counts := covered.1
  refine ⟨by omega, ?_⟩
  unfold allowance
  omega

theorem deliverRedacted_measured (data : Str) {t : ResponseTranslator} (measured : t.Measured) :
    (deliverRedacted data t).1.Measured := by
  have limits := deliverRedacted_limits data t
  exact opaque_measured measured (congrArg delivered limits :) (congrArg allowance limits :)
    (congrArg outputChars limits :) (congrArg localStop limits :)

theorem deliverToolUse_measured (toolUseId name input : Str) {t : ResponseTranslator} (measured : t.Measured) :
    (deliverToolUse toolUseId name input t).1.Measured := by
  have limits := deliverToolUse_limits toolUseId name input t
  exact opaque_measured measured (congrArg delivered limits :) (congrArg allowance limits :)
    (congrArg outputChars limits :) (congrArg localStop limits :)

structure Budgeted (t : ResponseTranslator) : Prop where
  limited : t.Limited
  covered : t.finished = false → t.Covered

theorem new_budgeted (opts : ResponseOptions) : (new opts).Budgeted where
  limited _ := new_open opts
  covered _ := ⟨Nat.le_refl 0, Nat.zero_le _⟩

theorem call_budgeted {t : ResponseTranslator} (budgeted : t.Budgeted) (input : Call) :
    (t.call input).1.Budgeted where
  limited := call_limited budgeted.limited input
  covered := call_running (fun _ => Iff.rfl) (fun _ => Covered.measured) deliverThinking_measured
    deliverText_measured deliverRedacted_measured deliverToolUse_measured
    (fun _ running measured => measured running) budgeted.covered input

theorem opaque_settle_within {t after : ResponseTranslator} {count : Nat} (opened : t.Open) (covered : t.Covered)
    (unfinished : after.finished = false) (same : after.delivered = t.delivered)
    (budget : after.effectiveMaxTokens = t.effectiveMaxTokens) (used : after.outputChars = t.outputChars + count)
    (stop : after.localStop = if t.Reaches count then withMaxTokens t.localStop else t.localStop) :
    after.finishIfStopped.1.WithinAllowance := by
  rw [settle_within_iff unfinished (spent_of_count opened.1 id budget (by omega) stop)]
  rw [WithinAllowance, same, allowance, budget]
  exact covered.within

theorem reasoning_settle_within {t : ResponseTranslator} (opened : t.Open) (unfinished : t.finished = false)
    (covered : t.Covered) (text : Str) (signature : Option Str) :
    (emitSignature signature (deliverReasoning text t).1).1.finishIfStopped.1.WithinAllowance := by
  have delivers : deliverReasoning text t = deliverThinking text t := if_pos (by simp [opened.1])
  have stillUnfinished := ((deliverThinking_frame text).finished t).trans unfinished
  rw [delivers, emitSignature_fst, settle_within_iff stillUnfinished (deliverThinking_spent opened.1)]
  exact (deliverThinking_covered text covered).within

theorem event_within_iff {t : ResponseTranslator} (opened : t.Open) (unfinished : t.finished = false)
    (covered : t.Covered) (working : t.failure = none) (ev : Event) :
    (t.push ev).1.WithinAllowance ↔ t.EventFits ev := by
  have live : ¬ (t.finished = true ∨ t.failure.isSome = true) := by simp [unfinished, working]
  have running : ¬ t.localStop.isSome = true := by simp [opened.1]
  simp only [push, if_neg live]
  cases ev with
  | assistantResponse content =>
    by_cases empty : content = []
    · simpa [pushAssistantResponse, EventFits, empty] using covered.within
    · have parsed : (t.parseTags content).1.Covered := by
        rw [parseTags_eq]
        exact covered
      have frames := frame_within_iff (parseTags_open opened content)
        ((parseTags_finished t content).trans unfinished) parsed (t.parseTags content).2.2 (t.parseTags content).2.1
      simp only [pushAssistantResponse, if_neg (not_or.2 ⟨empty, running⟩)]
      simpa [EventFits, empty, seq] using frames
  | reasoningContent text signature redacted =>
    refine iff_of_true ?_ trivial
    have signed : (takeSignature signature t).Open := opened
    have measured : (takeSignature signature t).Covered := covered
    cases redacted with
    | some data =>
      have limits := deliverRedacted_limits data (takeSignature signature t)
      exact opaque_settle_within signed measured ((congrArg finished limits :).trans unfinished)
        (congrArg delivered limits :) (congrArg effectiveMaxTokens limits :) (congrArg outputChars limits :)
        (congrArg localStop limits :)
    | none =>
      simp only [pushReasoningContent]
      split
      · exact measured.within
      · exact reasoning_settle_within signed unfinished measured text signature
  | toolUse toolUseId name input =>
    have limits := deliverToolUse_limits toolUseId name input t
    refine iff_of_true ?_ trivial
    simp only [pushToolUse, if_neg running]
    exact opaque_settle_within opened covered ((congrArg finished limits :).trans unfinished)
      (congrArg delivered limits :) (congrArg effectiveMaxTokens limits :) (congrArg outputChars limits :)
      (congrArg localStop limits :)
  | metadata uncached output total cacheRead cacheWrite =>
    refine iff_of_true ?_ trivial
    simp only [takeMetadata]
    split <;> exact covered.within
  | metering credits input output =>
    refine iff_of_true ?_ trivial
    simp only [takeMetering]
    split <;> exact covered.within
  | invalidState reason message => exact iff_of_true covered.within trivial
  | exception exceptionType message => exact iff_of_true covered.within trivial
  | ignored eventType => exact iff_of_true covered.within trivial

theorem call_within_iff {t : ResponseTranslator} (budgeted : t.Budgeted) (unfinished : t.finished = false)
    (input : Call) : (t.call input).1.WithinAllowance ↔ t.Fits input := by
  have opened := budgeted.limited unfinished
  have covered := budgeted.covered unfinished
  cases input with
  | finish => simpa [call, Fits, unfinished] using finish_within_iff opened.1 unfinished covered
  | push ev =>
    by_cases failed : t.failure.isSome = true
    · simpa [call, push, Fits, failed] using covered.within
    · have working : t.failure = none := by simpa using failed
      simpa [call, Fits, unfinished, working] using event_within_iff opened unfinished covered working ev

theorem run_within_iff {t : ResponseTranslator} (budgeted : t.Budgeted) (within : t.WithinAllowance)
    (calls : List Call) :
    (runAll call t calls).1.WithinAllowance ↔ ∀ visit ∈ visits call t calls, visit.1.Fits visit.2 := by
  induction calls generalizing t with
  | nil => simpa [visits] using within
  | cons input rest ih =>
    simp only [runAll_cons, visits, List.forall_mem_cons]
    by_cases finished : t.finished = true
    · have fits : t.Fits input := by cases input <;> exact .inl finished
      rw [call_finished finished]
      simpa [fits] using ih budgeted within
    · have exactly := call_within_iff budgeted (by simpa using finished) input
      by_cases keeps : (t.call input).1.WithinAllowance
      · rw [ih (call_budgeted budgeted input) keeps]
        simp [exactly.1 keeps]
      · -- Going over the budget ends the stream, so that nothing is delivered after it.
        have ended : (t.call input).1.finished = true := by
          by_contra runs
          exact keeps ((call_budgeted budgeted input).covered (by simpa using runs)).within
        rw [runAll_call_finished ended]
        exact iff_of_false keeps fun all => keeps (exactly.2 all.1)

def shown (out : List StreamEvent) : Nat := (gathered out).text.length + (gathered out).thinking.length

theorem shown_eq_delivered (opts : ResponseOptions) (calls : List Call) :
    shown (runAll call (new opts) calls).2 = (runAll call (new opts) calls).1.delivered := by
  have folded := runAll_call_folded opts calls
  have agrees : (runAll call (new opts) calls).1.Agrees (runAll call (new opts) calls).2 := by
    unfold Folded Ended at folded
    split at folded
    · exact folded.1
    · exact folded
  rw [shown, agrees.1, agrees.2.1]
  rfl

/-- The deltas of a run stay within the budget exactly when each of its calls does. -/
theorem budget_bounds_iff (opts : ResponseOptions) (calls : List Call) :
    (∀ front, front <+: calls →
        shown (runAll call (new opts) front).2 = (runAll call (new opts) front).1.delivered) ∧
      ((∀ front, front <+: calls →
          shown (runAll call (new opts) front).2 ≤ 4 * (runAll call (new opts) front).1.effectiveMaxTokens) ↔
        ∀ visit ∈ visits call (new opts) calls, visit.1.Fits visit.2) := by
  refine ⟨fun front _ => shown_eq_delivered opts front, ?_⟩
  have exactly (front : List Call) :
      shown (runAll call (new opts) front).2 ≤ 4 * (runAll call (new opts) front).1.effectiveMaxTokens ↔
        ∀ visit ∈ visits call (new opts) front, visit.1.Fits visit.2 := by
    rw [shown_eq_delivered, Nat.mul_comm]
    exact run_within_iff (new_budgeted opts) (Nat.zero_le _) front
  constructor
  · intro within
    exact (exactly calls).1 (within calls List.prefix_rfl)
  · rintro fits front ⟨back, rfl⟩
    rw [exactly front]
    intro visit met
    apply fits visit
    rw [visits_append]
    exact List.mem_append_left _ met

theorem budget_exceeded :
    let opts : ResponseOptions := ⟨"m".toList, "msg".toList, [], 1, fun _ => none, 7⟩
    let run := runAll call (new opts) [.push (.assistantResponse "<thinking>abcd</thinking>xyz".toList)]
    ¬ shown run.2 ≤ 4 * run.1.effectiveMaxTokens := by
  decide +kernel

end KiroTrust.Translate.ResponseTranslator
