import KiroTrust.Translate.Limits

set_option autoImplicit false

namespace KiroTrust.Translate

open Emitter

/-! What is delivered after a local stop. -/

def isClosing : StreamEvent → Bool
  | .contentBlockStop _ => true
  | .messageDelta _ _ => true
  | .messageStop => true
  | _ => false

namespace ResponseTranslator

abbrev Change := ResponseTranslator → ResponseTranslator × List StreamEvent

def finishParts : List Change := [begin, flushTag, flushPending, closeActive, closing]

def finishMoments (t : ResponseTranslator) : List (Moment ResponseTranslator StreamEvent) :=
  if t.finished then [] else trail finishParts t

def stopMoments (t : ResponseTranslator) : List (Moment ResponseTranslator StreamEvent) :=
  if t.localStop.isSome then t.finishMoments else []

def momentsThenStop (parts : List Change) (t : ResponseTranslator) :
    List (Moment ResponseTranslator StreamEvent) :=
  trail parts t ++ (all parts t).1.stopMoments

def eventMoments (t : ResponseTranslator) : Event → List (Moment ResponseTranslator StreamEvent)
  | .assistantResponse content =>
    if content = [] ∨ t.localStop.isSome then []
    else
      momentsThenStop [quiet fun t => (t.parseTags content).1,
        deliverThinking (t.parseTags content).2.2, deliverText (t.parseTags content).2.1] t
  | .reasoningContent _ signature (some data) =>
    momentsThenStop [quiet (takeSignature signature), deliverRedacted data] t
  | .reasoningContent text signature none =>
    if t.suppressReasoning then trail [quiet (takeSignature signature)] t
    else
      momentsThenStop [quiet (takeSignature signature), deliverReasoning text, emitSignature signature] t
  | .toolUse toolUseId name input =>
    if t.localStop.isSome then [] else momentsThenStop [deliverToolUse toolUseId name input] t
  | .metadata uncached output _ cacheRead cacheWrite =>
    trail [quiet (takeMetadata uncached output cacheRead cacheWrite)] t
  | .metering _ input output => trail [quiet (takeMetering input output)] t
  | .invalidState reason message =>
    trail [quiet fun t => { t with failure := some ⟨.invalidState reason, message⟩ }] t
  | .exception exceptionType message =>
    trail [quiet fun t => { t with failure := some ⟨.exception exceptionType, message⟩ }] t
  | .ignored _ => []

/-- The deliveries that a call is made of, each with the states around it. -/
def moments (t : ResponseTranslator) : Call → List (Moment ResponseTranslator StreamEvent)
  | .push ev => if t.finished ∨ t.failure.isSome then [] else t.eventMoments ev
  | .finish => t.finishMoments

theorem finishMoments_splits (t : ResponseTranslator) :
    Splits t t.finishMoments t.finish.1 t.finish.2 := by
  unfold finishMoments finish
  split
  · exact .done t
  · have same : all finishParts t = seq begin (seq flushTag (seq flushPending (seq closeActive closing))) t := by
      simp [finishParts, all, seq]
    rw [← same]
    exact trail_splits finishParts t

theorem momentsThenStop_splits (parts : List Change) (t : ResponseTranslator) :
    Splits t (momentsThenStop parts t) (seq (all parts) finishIfStopped t).1
      (seq (all parts) finishIfStopped t).2 := by
  have ending (t : ResponseTranslator) :
      Splits t t.stopMoments t.finishIfStopped.1 t.finishIfStopped.2 := by
    unfold stopMoments finishIfStopped
    split
    · exact finishMoments_splits t
    · exact .done t
  exact (trail_splits parts t).append (ending _)

theorem moments_splits (t : ResponseTranslator) (input : Call) :
    Splits t (t.moments input) (t.call input).1 (t.call input).2 := by
  cases input with
  | finish => exact finishMoments_splits t
  | push ev =>
    simp only [moments, call, push]
    split
    · exact .done t
    · cases ev with
      | assistantResponse content =>
        simp only [eventMoments, pushAssistantResponse]
        split
        · exact .done t
        · simpa [all, seq, quiet] using momentsThenStop_splits [quiet fun t => (t.parseTags content).1,
            deliverThinking (t.parseTags content).2.2, deliverText (t.parseTags content).2.1] t
      | reasoningContent text signature redacted =>
        cases redacted with
        | some data =>
          simpa [eventMoments, all, seq, quiet, pushReasoningContent] using
            momentsThenStop_splits [quiet (takeSignature signature), deliverRedacted data] t
        | none =>
          have same : (takeSignature signature t).suppressReasoning = t.suppressReasoning := rfl
          simp only [eventMoments, pushReasoningContent, same]
          split
          · exact trail_splits [quiet (takeSignature signature)] t
          · simpa [all, seq, quiet] using momentsThenStop_splits [quiet (takeSignature signature),
              deliverReasoning text, emitSignature signature] t
      | toolUse toolUseId name input =>
        simp only [eventMoments, pushToolUse]
        split
        · exact .done t
        · simpa [all, seq] using momentsThenStop_splits [deliverToolUse toolUseId name input] t
      | metadata uncached output total cacheRead cacheWrite =>
        exact trail_splits [quiet (takeMetadata uncached output cacheRead cacheWrite)] t
      | metering credits input output => exact trail_splits [quiet (takeMetering input output)] t
      | invalidState reason message =>
        exact trail_splits [quiet fun t => { t with failure := some ⟨.invalidState reason, message⟩ }] t
      | exception exceptionType message =>
        exact trail_splits [quiet fun t => { t with failure := some ⟨.exception exceptionType, message⟩ }] t
      | ignored eventType => exact .done t

def Silent (moment : Moment ResponseTranslator StreamEvent) : Prop :=
  moment.after.contents = moment.before.contents ∧ moment.out.all isClosing = true

instance (moment : Moment ResponseTranslator StreamEvent) : Decidable (Silent moment) :=
  inferInstanceAs (Decidable (_ ∧ _))

theorem closeActive_silent (t : ResponseTranslator) : Silent ⟨t, t.closeActive.1, t.closeActive.2⟩ := by
  refine ⟨contents_of_content (closeActive_content t), ?_⟩
  cases active : t.active <;> simp [closeActive, active, isClosing]

theorem closing_silent (t : ResponseTranslator) : Silent ⟨t, t.closing.1, t.closing.2⟩ := ⟨rfl, rfl⟩

theorem begin_silent (t : ResponseTranslator) :
    Silent ⟨t, t.begin.1, t.begin.2⟩ ↔ t.started = true := by
  cases started : t.started <;> simp [Silent, begin, ensureStarted, started, isClosing, contents]

theorem deliverThinking_silent (thought : Str) (t : ResponseTranslator) :
    Silent ⟨t, (deliverThinking thought t).1, (deliverThinking thought t).2⟩ ↔
      thought.take t.remaining = [] := by
  constructor
  · intro silent
    have same := congrArg Contents.thinking silent.1
    rw [deliverThinking_contents] at same
    exact List.append_right_eq_self.1 same
  · intro nothing
    have kept : (deliverThinking thought t).1.contents = t.contents := by
      rw [deliverThinking_contents, nothing, List.append_nil]
      rfl
    refine ⟨kept, ?_⟩
    by_cases empty : thought = []
    · simp [deliverThinking, empty]
    · simp [deliverThinking, empty, takeThinking_eq, nothing, emitThinking]

theorem deliverText_silent (textOut : Str) (t : ResponseTranslator) :
    Silent ⟨t, (deliverText textOut t).1, (deliverText textOut t).2⟩ ↔ t.textTaken textOut = [] := by
  constructor
  · intro silent
    have same := congrArg Contents.text silent.1
    rw [deliverText_contents] at same
    exact List.append_right_eq_self.1 same
  · intro nothing
    have kept : (deliverText textOut t).1.contents = t.contents := by
      rw [deliverText_contents, nothing, List.append_nil]
      rfl
    refine ⟨kept, ?_⟩
    by_cases empty : textOut = []
    · simp [deliverText, empty]
    · simp only [textTaken, empty, if_false] at nothing
      simp [deliverText, empty, nothing, emitText]

theorem emitSignature_silent (signature : Option Str) (t : ResponseTranslator) :
    Silent ⟨t, (emitSignature signature t).1, (emitSignature signature t).2⟩ ↔
      (t.active = some .thinking → signature = none) := by
  cases signature with
  | none => simp [Silent, emitSignature]
  | some sig =>
    by_cases thinking : t.active = some .thinking <;>
      simp [Silent, emitSignature, thinking, emitDelta, isClosing]

theorem flushTag_silent {t : ResponseTranslator} (latched : t.localStop.isSome = true) :
    Silent ⟨t, t.flushTag.1, t.flushTag.2⟩ ↔ (t.tagInside = true → t.tagBuf.take t.remaining = []) := by
  by_cases inside : t.tagInside = true
  · have silent := deliverThinking_silent t.tagBuf { t with tagBuf := [] }
    have flushes : t.flushTag = deliverThinking t.tagBuf { t with tagBuf := [] } := if_pos inside
    rw [flushes]
    exact ⟨fun still _ => silent.1 still, fun empty => silent.2 (empty inside)⟩
  · have guarded : ¬ t.localStop.isNone = true := by simpa using Option.isSome_iff_ne_none.1 latched
    simp only [flushTag, if_neg guarded, inside]
    simp [Silent, contents]

theorem flushPending_silent {t : ResponseTranslator} (latched : t.localStop.isSome = true) :
    Silent ⟨t, t.flushPending.1, t.flushPending.2⟩ := by
  obtain ⟨stop, same⟩ := Option.isSome_iff_exists.1 latched
  simp [flushPending, same, Silent, contents]

def Heeds (moment : Moment ResponseTranslator StreamEvent) : Prop :=
  moment.before.stopped = true → Silent moment

instance (moment : Moment ResponseTranslator StreamEvent) : Decidable (Heeds moment) :=
  inferInstanceAs (Decidable (_ → _))

theorem finishTail_heeds (t : ResponseTranslator) :
    ∀ moment ∈ trail [flushPending, closeActive, closing] t, Heeds moment := by
  simp only [trail, List.forall_mem_cons]
  refine ⟨flushPending_silent, fun _ => closeActive_silent _, fun _ => closing_silent _, ?_⟩
  simp

theorem finishMoments_heed {t : ResponseTranslator} (latched : t.localStop.isSome = true)
    (running : t.finished = false) :
    (∀ moment ∈ t.finishMoments, Heeds moment) ↔
      t.started = true ∧ (t.tagInside = true → t.tagBuf.take t.remaining = []) := by
  have started : t.begin.1.localStop = t.localStop := (congrArg localStop (begin_content t) :)
  have inside : t.begin.1.tagInside = t.tagInside := (congrArg tagInside (begin_content t) :)
  have buffer : t.begin.1.tagBuf = t.tagBuf := (congrArg tagBuf (begin_content t) :)
  have left : t.begin.1.remaining = t.remaining := (congrArg remaining (begin_content t) :)
  have flushed := flushTag_silent (started ▸ latched)
  rw [inside, buffer, left] at flushed
  have opens : Heeds ⟨t, t.begin.1, t.begin.2⟩ ↔ t.started = true := by
    simp [Heeds, stopped, latched, begin_silent]
  have flushes : Heeds ⟨t.begin.1, t.begin.1.flushTag.1, t.begin.1.flushTag.2⟩ ↔
      (t.tagInside = true → t.tagBuf.take t.remaining = []) := by
    simp only [Heeds, stopped, started, latched, true_implies, flushed]
  -- Behind the flush of the tag buffer nothing delivers any more.
  have split : t.finishMoments = ⟨t, t.begin.1, t.begin.2⟩ ::
      ⟨t.begin.1, t.begin.1.flushTag.1, t.begin.1.flushTag.2⟩ ::
        trail [flushPending, closeActive, closing] t.begin.1.flushTag.1 := if_neg (by simp [running])
  rw [split, List.forall_mem_cons, List.forall_mem_cons, opens, flushes]
  exact and_congr_right fun _ => and_iff_left (finishTail_heeds _)

/-- A stop sequence found here leaves the stream opened and nothing behind inside a tag. -/
def CutsCleanly (t : ResponseTranslator) (thought : Str) (idx : Nat) : Prop :=
  (0 < idx ∨ thought ≠ [] ∨ t.started = true) ∧ (t.tagInside = true → t.tagBuf = [])

def FrameClean (t : ResponseTranslator) (thought text : Str) : Prop :=
  if thought ≠ [] ∧ t.Reaches thought.length then t.filtered text = []
  else text ≠ [] → ∀ idx s, t.matched text = some (idx, s) → t.CutsCleanly thought idx

def EventClean (t : ResponseTranslator) : Event → Prop
  | .assistantResponse content =>
    content = [] ∨ (t.parseTags content).1.FrameClean (t.parseTags content).2.2 (t.parseTags content).2.1
  | .reasoningContent text signature none =>
    t.suppressReasoning = true ∨ signature = none ∨ text = [] ∨ ¬ t.Reaches text.length
  | _ => True

/-- The condition, on the state before a call, under which a stop in the call is heeded. -/
def Clean (t : ResponseTranslator) : Call → Prop
  | .push ev => t.finished = true ∨ t.failure.isSome = true ∨ t.EventClean ev
  | .finish => True

theorem heeds_of_running {t : ResponseTranslator} (running : t.localStop = none) (after : ResponseTranslator)
    (out : List StreamEvent) : Heeds ⟨t, after, out⟩ := by
  intro stopped
  simp [ResponseTranslator.stopped, running] at stopped

theorem stopMoments_running {t : ResponseTranslator} (running : t.localStop = none) : t.stopMoments = [] := by
  simp [stopMoments, running]

theorem stopMoments_spent {t : ResponseTranslator} (unfinished : t.finished = false)
    (spent : t.localStop.isSome = true → t.started = true ∧ t.remaining = 0) :
    ∀ moment ∈ t.stopMoments, Heeds moment := by
  unfold stopMoments
  split
  next latched =>
    obtain ⟨started, nothing⟩ := spent latched
    rw [finishMoments_heed latched unfinished, nothing]
    exact ⟨started, fun _ => List.take_zero⟩
  next => simp

theorem text_heeds {t : ResponseTranslator} (opened : t.Open) (unfinished : t.finished = false) (text : Str) :
    (∀ moment ∈ (deliverText text t).1.stopMoments, Heeds moment) ↔
      (text ≠ [] → ∀ idx s, t.matched text = some (idx, s) →
        (0 < idx ∨ t.started = true) ∧ (t.tagInside = true → t.tagBuf = [])) := by
  have stillUnfinished := ((deliverText_frame text).finished t).trans unfinished
  have begun := deliverText_started text t
  rcases t.hit_or_clear text with ⟨nonempty, idx, s, found⟩ | clear
  · have limits := deliverText_found opened.1 nonempty found
    have stop : (deliverText text t).1.localStop = _ := (congrArg localStop limits :)
    have latched : (deliverText text t).1.localStop.isSome = true := by rw [stop]; rfl
    have left : (deliverText text t).1.remaining = t.remaining := (congrArg remaining limits :)
    have inside : (deliverText text t).1.tagInside = t.tagInside := (congrArg tagInside limits :)
    have buffer : (deliverText text t).1.tagBuf = t.tagBuf := (congrArg tagBuf limits :)
    have shown : t.textTaken text ≠ [] ↔ 0 < idx := by
      rw [textTaken_found opened.1 nonempty found, Ne, List.take_eq_nil_iff]
      simp [nonempty, Nat.pos_iff_ne_zero]
    rw [stopMoments, if_pos latched, finishMoments_heed latched stillUnfinished, begun, shown, inside, buffer, left,
      take_remaining opened]
    constructor
    · intro heeds _ index sequence same
      cases found.symm.trans same
      exact ⟨heeds.1.symm, heeds.2⟩
    · intro clean
      obtain ⟨shows, untagged⟩ := clean nonempty idx s found
      exact ⟨shows.symm, untagged⟩
  · -- Without a match only the budget can stop the text, and not before it has let some of it out.
    refine iff_of_true (stopMoments_spent stillUnfinished fun latched => ?_) ?_
    · have shows := textTaken_of_latched opened clear latched
      exact ⟨begun.2 (.inr shows), deliverText_spent opened.1 clear latched⟩
    · intro nonempty idx s found
      simp [clear nonempty] at found

theorem frame_heeds {t : ResponseTranslator} (opened : t.Open) (unfinished : t.finished = false)
    (thought text : Str) :
    (∀ moment ∈ momentsThenStop [deliverThinking thought, deliverText text] t, Heeds moment) ↔
      t.FrameClean thought text := by
  have limits := deliverThinking_limits thought t
  have stillUnfinished := ((deliverThinking_frame thought).finished t).trans unfinished
  have begun := deliverThinking_started thought t
  rw [Ne, take_remaining opened] at begun
  simp only [momentsThenStop, trail, all, seq, List.forall_mem_append, List.forall_mem_cons,
    heeds_of_running opened.1, true_and, FrameClean]
  by_cases reached : thought ≠ [] ∧ t.Reaches thought.length
  · -- The thinking of the frame uses up the budget, so that the text must not deliver anything.
    have latched : (deliverThinking thought t).1.localStop.isSome = true := by
      rw [deliverThinking_latched opened.1 reached]
      rfl
    have sameText : (deliverThinking thought t).1.filtered text = t.filtered text := (congrArg (filtered · text) limits :)
    have started := (deliverText_started text (deliverThinking thought t).1).2 (.inl (begun.2 (.inr reached.1)))
    have spent := deliverText_still_spent text latched (deliverThinking_spent opened.1 latched)
    have afterText := ((deliverText_frame text).finished (deliverThinking thought t).1).trans stillUnfinished
    have finishing := stopMoments_spent afterText fun _ => ⟨started, spent⟩
    have heeds : Heeds ⟨(deliverThinking thought t).1, (deliverText text (deliverThinking thought t).1).1,
        (deliverText text (deliverThinking thought t).1).2⟩ ↔ t.filtered text = [] := by
      simp only [Heeds, stopped, latched, true_implies, deliverText_silent, textTaken_latched latched, sameText]
    rw [if_pos reached, heeds]
    exact ⟨fun both => both.1.1, fun clean => ⟨⟨clean, by simp⟩, finishing⟩⟩
  · have stillOpen := deliverThinking_open opened reached
    have sameMatch : (deliverThinking thought t).1.matched text = t.matched text :=
      (congrArg (matched · text) limits :)
    have inside : (deliverThinking thought t).1.tagInside = t.tagInside := (congrArg tagInside limits :)
    have buffer : (deliverThinking thought t).1.tagBuf = t.tagBuf := (congrArg tagBuf limits :)
    rw [if_neg reached]
    simp only [heeds_of_running stillOpen.1, text_heeds stillOpen stillUnfinished text, sameMatch, begun, inside,
      buffer, CutsCleanly]
    simp [or_comm]

theorem redacted_heeds {t : ResponseTranslator} (opened : t.Open) (unfinished : t.finished = false) (data : Str) :
    ∀ moment ∈ momentsThenStop [deliverRedacted data] t, Heeds moment := by
  have limits := deliverRedacted_limits data t
  have counted : (deliverRedacted data t).1.outputChars = t.outputChars + data.length := (congrArg outputChars limits :)
  have spent := spent_of_count opened.1 id ((deliverRedacted_frame data).effectiveMaxTokens t) (by omega)
    (congrArg localStop limits :)
  simp only [momentsThenStop, trail, all, seq, List.forall_mem_append, List.forall_mem_singleton]
  exact ⟨heeds_of_running opened.1 _ _, stopMoments_spent (((deliverRedacted_frame data).finished t).trans unfinished)
    fun latched => ⟨deliverRedacted_started data t, spent latched⟩⟩

theorem toolUse_heeds {t : ResponseTranslator} (opened : t.Open) (unfinished : t.finished = false)
    (toolUseId name input : Str) :
    ∀ moment ∈ momentsThenStop [deliverToolUse toolUseId name input] t, Heeds moment := by
  have limits := deliverToolUse_limits toolUseId name input t
  have frames := deliverToolUse_frame toolUseId name input
  have counted : (deliverToolUse toolUseId name input t).1.outputChars = t.outputChars + input.length :=
    (congrArg outputChars limits :)
  have spent := spent_of_count opened.1 id (frames.effectiveMaxTokens t) (by omega) (congrArg localStop limits :)
  simp only [momentsThenStop, trail, all, seq, List.forall_mem_append, List.forall_mem_singleton]
  exact ⟨heeds_of_running opened.1 _ _, stopMoments_spent ((frames.finished t).trans unfinished)
    fun latched => ⟨deliverToolUse_started toolUseId name input t, spent latched⟩⟩

theorem reasoning_heeds {t : ResponseTranslator} (opened : t.Open) (unfinished : t.finished = false)
    (text : Str) (signature : Option Str) :
    (∀ moment ∈ momentsThenStop [deliverReasoning text, emitSignature signature] t, Heeds moment) ↔
      (signature = none ∨ text = [] ∨ ¬ t.Reaches text.length) := by
  have delivers : deliverReasoning text t = deliverThinking text t := if_pos (by simp [opened.1])
  have stillUnfinished := ((deliverThinking_frame text).finished t).trans unfinished
  simp only [momentsThenStop, trail, all, seq, List.forall_mem_append, List.forall_mem_cons, delivers, emitSignature_fst,
    heeds_of_running opened.1, true_and]
  by_cases reached : text ≠ [] ∧ t.Reaches text.length
  · -- A signature is emitted into the block of the thinking that has used up the budget.
    have latched : (deliverThinking text t).1.localStop.isSome = true := by
      rw [deliverThinking_latched opened.1 reached]
      rfl
    have nonempty : text.take t.remaining ≠ [] := by
      rw [Ne, take_remaining opened]
      exact reached.1
    have begun := (deliverThinking_started text t).2 (.inr nonempty)
    have finishing := stopMoments_spent stillUnfinished fun _ => ⟨begun, deliverThinking_spent opened.1 latched⟩
    have signs : Heeds ⟨(deliverThinking text t).1, (deliverThinking text t).1,
        (emitSignature signature (deliverThinking text t).1).2⟩ ↔ signature = none := by
      have silent := emitSignature_silent signature (deliverThinking text t).1
      rw [emitSignature_fst] at silent
      simp only [Heeds, stopped, latched, true_implies, silent, deliverThinking_active nonempty]
    rw [signs]
    constructor
    · exact fun both => .inl both.1.1
    · rintro (none | empty | short)
      · exact ⟨⟨none, by simp⟩, finishing⟩
      · exact absurd empty reached.1
      · exact absurd reached.2 short
  · have running := (deliverThinking_open opened reached).1
    simp only [heeds_of_running running, stopMoments_running running]
    refine iff_of_true (by simp) ?_
    by_cases empty : text = []
    · exact .inr (.inl empty)
    · exact .inr (.inr fun reaches => reached ⟨empty, reaches⟩)

theorem finishMoments_running {t : ResponseTranslator} (running : t.localStop = none) :
    ∀ moment ∈ t.finishMoments, Heeds moment := by
  unfold finishMoments
  split
  · simp
  · have started : t.begin.1.localStop = none := (congrArg localStop (begin_content t) :).trans running
    have tail := finishTail_heeds t.begin.1.flushTag.1
    simp only [finishParts, trail, List.forall_mem_cons] at tail ⊢
    exact ⟨heeds_of_running running _ _, heeds_of_running started _ _, tail⟩

theorem quiet_then {t : ResponseTranslator} (running : t.localStop = none)
    (change : ResponseTranslator → ResponseTranslator) (parts : List Change) :
    (∀ moment ∈ momentsThenStop (quiet change :: parts) t, Heeds moment) ↔
      ∀ moment ∈ momentsThenStop parts (change t), Heeds moment := by
  simp only [momentsThenStop, trail, all, seq, quiet, List.cons_append, List.forall_mem_cons,
    heeds_of_running running, true_and]

theorem event_heeds_iff {t : ResponseTranslator} (opened : t.Open) (unfinished : t.finished = false)
    (ev : Event) :
    (∀ moment ∈ t.eventMoments ev, Heeds moment) ↔ t.EventClean ev := by
  have single (change : Change) : ∀ moment ∈ trail [change] t, Heeds moment := by
    simp [trail, heeds_of_running opened.1]
  have running : ¬ t.localStop.isSome = true := by simp [opened.1]
  cases ev with
  | assistantResponse content =>
    by_cases empty : content = []
    · simp [eventMoments, EventClean, empty]
    · rw [eventMoments, if_neg (not_or.2 ⟨empty, running⟩), quiet_then opened.1,
        frame_heeds (parseTags_open opened content) ((parseTags_finished t content).trans unfinished)]
      simp [EventClean, empty]
  | reasoningContent text signature redacted =>
    have signed : (takeSignature signature t).Open := opened
    cases redacted with
    | some data =>
      simp only [eventMoments, EventClean, quiet_then opened.1, iff_true]
      exact redacted_heeds signed unfinished data
    | none =>
      by_cases suppressed : t.suppressReasoning = true
      · simpa [eventMoments, EventClean, suppressed] using single _
      · have same : (takeSignature signature t).Reaches text.length ↔ t.Reaches text.length := Iff.rfl
        simp only [eventMoments, suppressed, Bool.false_eq_true, if_false, quiet_then opened.1,
          reasoning_heeds signed unfinished, EventClean, false_or, same]
  | toolUse toolUseId name input =>
    rw [eventMoments, if_neg running]
    exact iff_of_true (toolUse_heeds opened unfinished toolUseId name input) trivial
  | metadata uncached output total cacheRead cacheWrite => exact iff_of_true (single _) trivial
  | metering credits input output => exact iff_of_true (single _) trivial
  | invalidState reason message => exact iff_of_true (single _) trivial
  | exception exceptionType message => exact iff_of_true (single _) trivial
  | ignored eventType => simp [eventMoments, EventClean]

theorem moments_heed_iff {t : ResponseTranslator} (limited : t.Limited) (input : Call) :
    (∀ moment ∈ t.moments input, Heeds moment) ↔ t.Clean input := by
  cases input with
  | finish =>
    refine iff_of_true ?_ trivial
    by_cases done : t.finished = true
    · simp [moments, finishMoments, done]
    · exact finishMoments_running (limited (by simpa using done)).1
  | push ev =>
    by_cases live : t.finished = true ∨ t.failure.isSome = true
    · simp [moments, Clean, live, or_assoc.symm]
    · have working := not_or.1 live
      have unfinished : t.finished = false := by simpa using working.1
      rw [moments, if_neg live, event_heeds_iff (limited unfinished) unfinished]
      simp [Clean, working.1, working.2]

/-- The deliveries of a run keep to a local stop exactly when every call meets its condition. -/
theorem local_stop_heeded_iff (opts : ResponseOptions) (calls : List Call) :
    Splits (new opts) (runMoments call moments (new opts) calls) (runAll call (new opts) calls).1
        (runAll call (new opts) calls).2 ∧
      ((∀ moment ∈ runMoments call moments (new opts) calls, Heeds moment) ↔
        ∀ visit ∈ visits call (new opts) calls, visit.1.Clean visit.2) := by
  refine ⟨runMoments_splits moments_splits (new opts) calls, ?_⟩
  apply runMoments_iff (fun t input (limited : t.Limited) => call_limited limited input)
    (fun t input limited => moments_heed_iff limited input)
  exact fun _ => new_open opts

theorem local_stop_ignored :
    let opts : ResponseOptions := ⟨"m".toList, "msg".toList, [], 1, fun _ => none, 7⟩
    let calls : List Call := [.push (.assistantResponse "<thinking>abcd</thinking>xyz".toList), .finish]
    ¬ ∀ moment ∈ runMoments call moments (new opts) calls, Heeds moment := by
  decide +kernel

end ResponseTranslator

end KiroTrust.Translate
