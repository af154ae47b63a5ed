import KiroTrust.Translate.Response

set_option autoImplicit false

namespace KiroTrust.Translate.ResponseTranslator

/-! What the accumulating functions do to the limits, as equations. -/

def remaining (t : ResponseTranslator) : Nat := t.effectiveMaxTokens * 4 - t.outputChars

def Reaches (t : ResponseTranslator) (count : Nat) : Prop := t.effectiveMaxTokens ≤ (t.outputChars + count) / 4

instance (t : ResponseTranslator) (count : Nat) : Decidable (t.Reaches count) :=
  inferInstanceAs (Decidable (_ ≤ _))

theorem reaches_iff (t : ResponseTranslator) (count : Nat) :
    t.Reaches count ↔ t.effectiveMaxTokens * 4 ≤ t.outputChars + count := by
  unfold Reaches
  omega

theorem effectiveMaxTokens_pos (t : ResponseTranslator) : 0 < t.effectiveMaxTokens := by
  unfold effectiveMaxTokens
  by_cases absent : t.opts.maxTokens.toNat = 0 <;> simp [absent, absoluteMaxTokens]
  omega

def withMaxTokens (localStop : Option (StopReason × Option Str)) : Option (StopReason × Option Str) :=
  localStop.or (some (.maxTokens, none))

theorem latch_eq (t : ResponseTranslator) (reason : StopReason) (seq : Option Str) :
    t.latch reason seq = { t with localStop := t.localStop.or (some (reason, seq)) } := by
  unfold latch
  cases latched : t.localStop with
  | none => rfl
  | some stop =>
    have same : { t with localStop := some stop } = t := by rw [← latched]
    exact same.symm

theorem applyMaxTokens_eq (t : ResponseTranslator) (delta : Str) :
    t.applyMaxTokens delta =
      ({ t with
          outputChars := t.outputChars + min delta.length t.remaining
          localStop := if t.Reaches delta.length then withMaxTokens t.localStop else t.localStop },
        delta.take t.remaining) := by
  -- The three guards of `apply_max_tokens` come to one cut at the remaining budget.
  have positive := t.effectiveMaxTokens_pos
  simp only [applyMaxTokens, Reaches, remaining, latch_eq, withMaxTokens, ge_iff_le]
  by_cases below : (t.outputChars + delta.length) / 4 < t.effectiveMaxTokens
  · have fits : delta.length ≤ t.effectiveMaxTokens * 4 - t.outputChars := by omega
    have reached : ¬ t.effectiveMaxTokens ≤ (t.outputChars + delta.length) / 4 := by omega
    simp [below, reached, List.take_of_length_le fits, Nat.min_eq_left fits]
  · have reached : t.effectiveMaxTokens ≤ (t.outputChars + delta.length) / 4 := by omega
    simp only [below, if_false, reached, if_true]
    by_cases spent : t.effectiveMaxTokens * 4 - t.outputChars = 0
    · simp [spent]
    · by_cases longer : delta.length > t.effectiveMaxTokens * 4 - t.outputChars
      · have least : min delta.length (t.effectiveMaxTokens * 4 - t.outputChars) =
            t.effectiveMaxTokens * 4 - t.outputChars := by omega
        simp only [spent, longer, if_false, if_true, least]
      · have fits : delta.length ≤ t.effectiveMaxTokens * 4 - t.outputChars := by omega
        simp only [spent, longer, if_false, List.take_of_length_le fits, Nat.min_eq_left fits]

theorem accountOpaque_eq (t : ResponseTranslator) (content : Str) :
    t.accountOpaque content =
      { t with
        outputChars := t.outputChars + content.length
        localStop := if t.Reaches content.length then withMaxTokens t.localStop else t.localStop } := by
  have sameBudget : ({ t with outputChars := t.outputChars + content.length } : ResponseTranslator).effectiveMaxTokens =
      t.effectiveMaxTokens := rfl
  simp only [accountOpaque, Reaches, latch_eq, withMaxTokens, sameBudget, ge_iff_le]
  cases t.localStop <;>
    by_cases reached : t.effectiveMaxTokens ≤ (t.outputChars + content.length) / 4 <;> simp [reached]

theorem takeThinking_eq (t : ResponseTranslator) (thought : Str) :
    t.takeThinking thought =
      ({ t with
          outputChars := t.outputChars + min thought.length t.remaining
          localStop := if t.Reaches thought.length then withMaxTokens t.localStop else t.localStop
          thinking := t.thinking ++ thought.take t.remaining },
        thought.take t.remaining) := by
  simp only [takeThinking, applyMaxTokens_eq]

def releasable (t : ResponseTranslator) (delta : Str) : Nat :=
  (t.stopPending ++ delta).length - t.stopMaxKeep

theorem applyStopFilter_eq (t : ResponseTranslator) (delta : Str) :
    t.applyStopFilter delta =
      match firstMatch t.stopSequences (t.stopPending ++ delta) with
      | some (idx, s) =>
        ({ t with
            stopPending := []
            localStop := t.localStop.or (some (.stopSequence, some s)) }, (t.stopPending ++ delta).take idx)
      | none =>
        ({ t with stopPending := (t.stopPending ++ delta).drop (t.releasable delta) },
          (t.stopPending ++ delta).take (t.releasable delta)) := by
  simp only [applyStopFilter, latch_eq, releasable]
  cases firstMatch t.stopSequences (t.stopPending ++ delta) with
  | some found => rfl
  | none =>
    by_cases short : (t.stopPending ++ delta).length ≤ t.stopMaxKeep
    · have nothing : (t.stopPending ++ delta).length - t.stopMaxKeep = 0 := by omega
      simp only [short, if_true, nothing, List.drop_zero, List.take_zero]
    · simp only [short, if_false]

def content (t : ResponseTranslator) : ResponseTranslator :=
  { t with started := false, blockIndex := -1, active := none, visible := false }

def KeepsContent (change : ResponseTranslator → ResponseTranslator × List StreamEvent) : Prop :=
  ∀ t, (change t).1.content = t.content

theorem KeepsContent.seq {first second : ResponseTranslator → ResponseTranslator × List StreamEvent}
    (keepsFirst : KeepsContent first) (keepsSecond : KeepsContent second) :
    KeepsContent (Emitter.seq first second) := by
  intro t
  exact (keepsSecond _).trans (keepsFirst t)

theorem ensureStarted_content : KeepsContent ensureStarted := by
  intro t
  unfold ensureStarted
  split <;> rfl

theorem closeActive_content : KeepsContent closeActive := by
  intro t
  unfold closeActive
  split <;> rfl

theorem openBlock_content (kind : Active) : KeepsContent (openBlock kind) := fun _ => rfl

theorem visible_content : KeepsContent (Emitter.quiet fun t => { t with visible := true }) := fun _ => rfl

theorem emitDelta_content (delta : Delta) : KeepsContent (emitDelta delta) := fun _ => rfl

theorem emitBlock_content (start : BlockStart) (deltas : List Delta) :
    KeepsContent (emitBlock start deltas) := fun _ => rfl

theorem switchBlock_content (kind : Active) : KeepsContent (switchBlock kind) := by
  intro t
  unfold switchBlock
  split
  · rfl
  · exact closeActive_content.seq (openBlock_content kind) t

theorem emitText_content (text : Str) : KeepsContent (emitText text) := by
  intro t
  unfold emitText
  split
  · rfl
  · exact ensureStarted_content.seq
      (visible_content.seq ((switchBlock_content .text).seq (emitDelta_content _))) t

theorem emitThinking_content (thinking : Str) : KeepsContent (emitThinking thinking) := by
  intro t
  unfold emitThinking
  split
  · rfl
  · exact ensureStarted_content.seq ((switchBlock_content .thinking).seq (emitDelta_content _)) t

theorem emitSignature_fst (signature : Option Str) (t : ResponseTranslator) : (emitSignature signature t).1 = t := by
  cases signature with
  | none => rfl
  | some sig => by_cases thinking : t.active = some .thinking <;> simp [emitSignature, emitDelta, thinking]

theorem emitSignature_content (signature : Option Str) : KeepsContent (emitSignature signature) := by
  intro t
  rw [emitSignature_fst]

theorem closing_content : KeepsContent closing := fun _ => rfl

def unlimited (t : ResponseTranslator) : ResponseTranslator :=
  { t with localStop := none, stopPending := [], outputChars := 0 }

theorem applyMaxTokens_unlimited (t : ResponseTranslator) (delta : Str) :
    (t.applyMaxTokens delta).1.unlimited = t.unlimited := by
  rw [applyMaxTokens_eq]
  rfl

theorem accountOpaque_unlimited (t : ResponseTranslator) (content : Str) :
    (t.accountOpaque content).unlimited = t.unlimited := by
  rw [accountOpaque_eq]
  rfl

theorem filterText_unlimited (t : ResponseTranslator) (textOut : Str) :
    (t.filterText textOut).1.unlimited = t.unlimited := by
  rw [filterText, applyStopFilter_eq]
  split
  · split <;> rfl
  · rfl

theorem budgetText_unlimited (t : ResponseTranslator) (out : Str) :
    (t.budgetText out).1.unlimited = t.unlimited := by
  unfold budgetText
  split
  · exact applyMaxTokens_unlimited t out
  · rfl

theorem takeText_unlimited (t : ResponseTranslator) (textOut : Str) :
    (t.takeText textOut).1.unlimited = { t.unlimited with text := t.text ++ (t.takeText textOut).2 } := by
  have kept := (budgetText_unlimited _ (t.filterText textOut).2).trans (filterText_unlimited t textOut)
  have shown : ((t.filterText textOut).1.budgetText (t.filterText textOut).2).1.text = t.text :=
    (congrArg text kept :)
  have added := congrArg (fun before : ResponseTranslator =>
    { before with text := t.text ++ (t.takeText textOut).2 }) kept
  simpa only [takeText, shown, unlimited] using added

structure Emission where
  started : Bool
  blockIndex : Int
  active : Option Active

def emission (t : ResponseTranslator) : Emission :=
  ⟨t.started, t.blockIndex, t.active⟩

theorem applyMaxTokens_emission (t : ResponseTranslator) (delta : Str) :
    (t.applyMaxTokens delta).1.emission = t.emission :=
  (congrArg emission (applyMaxTokens_unlimited t delta) :)

theorem accountOpaque_emission (t : ResponseTranslator) (content : Str) :
    (t.accountOpaque content).emission = t.emission :=
  (congrArg emission (accountOpaque_unlimited t content) :)

theorem takeThinking_emission (t : ResponseTranslator) (thought : Str) :
    (t.takeThinking thought).1.emission = t.emission := by
  rw [takeThinking_eq]
  rfl

theorem takeText_emission (t : ResponseTranslator) (textOut : Str) :
    (t.takeText textOut).1.emission = t.emission :=
  (congrArg emission (takeText_unlimited t textOut) :)

theorem parseTags_eq (t : ResponseTranslator) (delta : Str) :
    (t.parseTags delta).1 =
      { t with
        tagBuf := (t.parseTags delta).1.tagBuf
        tagInside := (t.parseTags delta).1.tagInside
        suppressReasoning := (t.parseTags delta).1.suppressReasoning } := by
  unfold parseTags
  split <;> rfl

theorem deliverThinking_content (thought : Str) (t : ResponseTranslator) :
    (deliverThinking thought t).1.content =
      if thought = [] then t.content else (t.takeThinking thought).1.content := by
  unfold deliverThinking
  split
  · rfl
  · exact emitThinking_content _ _

theorem deliverText_content (textOut : Str) (t : ResponseTranslator) :
    (deliverText textOut t).1.content =
      if textOut = [] then t.content else (t.takeText textOut).1.content := by
  unfold deliverText
  split
  · rfl
  · exact emitText_content _ _

theorem deliverThinking_limits (thought : Str) (t : ResponseTranslator) :
    (deliverThinking thought t).1.content =
      { t.content with
        outputChars := t.outputChars + min thought.length t.remaining
        localStop := if thought ≠ [] ∧ t.Reaches thought.length then withMaxTokens t.localStop else t.localStop
        thinking := t.thinking ++ thought.take t.remaining } := by
  rw [deliverThinking_content]
  by_cases empty : thought = []
  · simp [empty, content]
  · simp [empty, takeThinking_eq, content]

theorem deliverRedacted_limits (data : Str) (t : ResponseTranslator) :
    (deliverRedacted data t).1.content =
      { t.content with
        outputChars := t.outputChars + data.length
        localStop := if t.Reaches data.length then withMaxTokens t.localStop else t.localStop
        redacted := t.redacted ++ [data] } := by
  have emits := ensureStarted_content.seq
    (closeActive_content.seq (emitBlock_content (.redactedThinking data) []))
  refine (emits _).trans ?_
  rw [accountOpaque_eq]
  rfl

theorem deliverToolUse_limits (toolUseId name input : Str) (t : ResponseTranslator) :
    (deliverToolUse toolUseId name input t).1.content =
      { t.content with
        outputChars := t.outputChars + input.length
        localStop := if t.Reaches input.length then withMaxTokens t.localStop else t.localStop
        toolCalls := t.toolCalls ++ [⟨toolUseId, (t.opts.toolNames name).getD name, input⟩] } := by
  let call : ToolCall := ⟨toolUseId, (t.opts.toolNames name).getD name, input⟩
  have emits := ensureStarted_content.seq (visible_content.seq (closeActive_content.seq
    (emitBlock_content (.toolUse toolUseId call.name []) [.inputJsonDelta input])))
  refine (emits _).trans ?_
  rw [accountOpaque_eq]
  rfl

theorem flushPending_limits {t : ResponseTranslator} (running : t.localStop = none) (nonempty : t.stopPending ≠ []) :
    t.flushPending.1.content =
      { t.content with
        stopPending := []
        outputChars := t.outputChars + min t.stopPending.length t.remaining
        localStop := if t.Reaches t.stopPending.length then withMaxTokens t.localStop else t.localStop
        text := t.text ++ t.stopPending.take t.remaining } := by
  have flushes : t.stopPending ≠ [] ∧ t.localStop.isNone = true := ⟨nonempty, by simp [running]⟩
  simp only [flushPending]
  rw [if_pos flushes, emitText_content, applyMaxTokens_eq]
  rfl

theorem begin_content (t : ResponseTranslator) :
    (begin t).1.content = { t.content with finished := true } :=
  ensureStarted_content _

/-- What `push` has taken in for `into_message`. -/
structure Contents where
  text : Str
  thinking : Str
  toolCalls : List ToolCall
  redacted : List Str
  signature : Option Str
  deriving DecidableEq

def contents (t : ResponseTranslator) : Contents :=
  ⟨t.text, t.thinking, t.toolCalls, t.redacted, t.signature⟩

theorem contents_of_content {t after : ResponseTranslator} (same : after.content = t.content) :
    after.contents = t.contents :=
  (congrArg contents same :)

def textTaken (t : ResponseTranslator) (textOut : Str) : Str :=
  if textOut = [] then [] else (t.takeText textOut).2

theorem deliverThinking_contents (thought : Str) (t : ResponseTranslator) :
    (deliverThinking thought t).1.contents =
      { t.contents with thinking := t.thinking ++ thought.take t.remaining } :=
  (congrArg contents (deliverThinking_limits thought t) :)

theorem deliverText_contents (textOut : Str) (t : ResponseTranslator) :
    (deliverText textOut t).1.contents = { t.contents with text := t.text ++ t.textTaken textOut } := by
  have delivered := congrArg contents (deliverText_content textOut t)
  by_cases empty : textOut = []
  · simp [deliverText, textTaken, empty, contents]
  · have taken := congrArg contents (takeText_unlimited t textOut)
    rw [if_neg empty] at delivered
    rw [textTaken, if_neg empty]
    exact delivered.trans taken

theorem deliverRedacted_contents (data : Str) (t : ResponseTranslator) :
    (deliverRedacted data t).1.contents = { t.contents with redacted := t.redacted ++ [data] } :=
  (congrArg contents (deliverRedacted_limits data t) :)

theorem deliverToolUse_contents (toolUseId name input : Str) (t : ResponseTranslator) :
    (deliverToolUse toolUseId name input t).1.contents =
      { t.contents with toolCalls := t.toolCalls ++ [⟨toolUseId, (t.opts.toolNames name).getD name, input⟩] } :=
  (congrArg contents (deliverToolUse_limits toolUseId name input t) :)

def pendingTaken (t : ResponseTranslator) : Str :=
  if t.stopPending ≠ [] ∧ t.localStop.isNone then t.stopPending.take t.remaining else []

theorem flushPending_contents (t : ResponseTranslator) :
    (flushPending t).1.contents = { t.contents with text := t.text ++ t.pendingTaken } := by
  by_cases flushes : t.stopPending ≠ [] ∧ t.localStop.isNone = true
  · have limits := flushPending_limits (by simpa using flushes.2) flushes.1
    rw [pendingTaken, if_pos flushes]
    exact (congrArg contents limits :)
  · simp only [flushPending, pendingTaken]
    rw [if_neg flushes, if_neg flushes]
    simp [contents]

def frame (t : ResponseTranslator) : ResponseTranslator :=
  { t.content with
    text := []
    thinking := []
    toolCalls := []
    redacted := []
    localStop := none
    stopPending := []
    outputChars := 0 }

def KeepsFrame (change : ResponseTranslator → ResponseTranslator × List StreamEvent) : Prop :=
  ∀ t, (change t).1.frame = t.frame

theorem KeepsFrame.seq {first second : ResponseTranslator → ResponseTranslator × List StreamEvent}
    (keepsFirst : KeepsFrame first) (keepsSecond : KeepsFrame second) :
    KeepsFrame (Emitter.seq first second) := by
  intro t
  exact (keepsSecond _).trans (keepsFirst t)

theorem KeepsFrame.finished {change : ResponseTranslator → ResponseTranslator × List StreamEvent}
    (keeps : KeepsFrame change) (t : ResponseTranslator) : (change t).1.finished = t.finished :=
  (congrArg ResponseTranslator.finished (keeps t) :)

theorem KeepsFrame.effectiveMaxTokens {change : ResponseTranslator → ResponseTranslator × List StreamEvent}
    (keeps : KeepsFrame change) (t : ResponseTranslator) :
    (change t).1.effectiveMaxTokens = t.effectiveMaxTokens :=
  (congrArg ResponseTranslator.effectiveMaxTokens (keeps t) :)

theorem KeepsContent.frame {change : ResponseTranslator → ResponseTranslator × List StreamEvent}
    (keeps : KeepsContent change) : KeepsFrame change :=
  fun t => (congrArg ResponseTranslator.frame (keeps t) :)

theorem deliverThinking_frame (thought : Str) : KeepsFrame (deliverThinking thought) :=
  fun t => (congrArg frame (deliverThinking_limits thought t) :)

theorem deliverText_frame (textOut : Str) : KeepsFrame (deliverText textOut) := by
  intro t
  have delivered := congrArg frame (deliverText_content textOut t)
  by_cases empty : textOut = []
  · simp [deliverText, empty]
  · have taken := congrArg frame (takeText_unlimited t textOut)
    rw [if_neg empty] at delivered
    exact delivered.trans taken

theorem deliverReasoning_frame (text : Str) : KeepsFrame (deliverReasoning text) := by
  intro t
  unfold deliverReasoning
  split
  · exact deliverThinking_frame text t
  · rfl

theorem deliverRedacted_frame (data : Str) : KeepsFrame (deliverRedacted data) :=
  fun t => (congrArg frame (deliverRedacted_limits data t) :)

theorem deliverToolUse_frame (toolUseId name input : Str) : KeepsFrame (deliverToolUse toolUseId name input) :=
  fun t => (congrArg frame (deliverToolUse_limits toolUseId name input t) :)

theorem flushTag_frame (t : ResponseTranslator) : (flushTag t).1.frame = { t.frame with tagBuf := [] } := by
  simp only [flushTag]
  split
  · exact deliverThinking_frame _ _
  · split
    · exact deliverText_frame _ _
    · rfl

theorem flushPending_frame : KeepsFrame flushPending := by
  intro t
  by_cases flushes : t.stopPending ≠ [] ∧ t.localStop.isNone = true
  · exact (congrArg frame (flushPending_limits (by simpa using flushes.2) flushes.1) :)
  · simp only [flushPending]
    rw [if_neg flushes]
    rfl

theorem begin_frame (t : ResponseTranslator) : (begin t).1.frame = { t.frame with finished := true } :=
  ensureStarted_content.frame _

theorem finish_frame (t : ResponseTranslator) (running : t.finished = false) :
    t.finish.1.frame = { t.frame with finished := true, tagBuf := [] } := by
  simp only [finish, running, Bool.false_eq_true, if_false]
  have ending := (flushPending_frame.seq (closeActive_content.frame.seq closing_content.frame))
    (flushTag (begin t).1).1
  rw [flushTag_frame, begin_frame] at ending
  exact ending

theorem finish_failure (t : ResponseTranslator) : t.finish.1.failure = t.failure := by
  cases running : t.finished with
  | true => simp [finish, running]
  | false => exact (congrArg failure (finish_frame t running) :)

theorem finish_finished (t : ResponseTranslator) : t.finish.1.finished = true := by
  cases running : t.finished with
  | true => simp [finish, running]
  | false => exact congrArg ResponseTranslator.finished (finish_frame t running)

end KiroTrust.Translate.ResponseTranslator
