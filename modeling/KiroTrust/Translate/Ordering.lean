import KiroTrust.Translate.Labels
import KiroTrust.Translate.Unlatched

set_option autoImplicit false

namespace KiroTrust.Translate

open Emitter

/-! The order of what is streamed. -/

def pieces : StreamEvent → List Piece
  | .contentBlockDelta _ (.textDelta text) => text.map .text
  | .contentBlockDelta _ (.thinkingDelta thinking) => thinking.map .thinking
  | .contentBlockDelta _ (.inputJsonDelta partialJson) => [.input partialJson]
  | .contentBlockStart _ (.toolUse id name _) => [.toolUse id name]
  | _ => []

def streamed (events : List StreamEvent) : List Piece := events.flatMap pieces

theorem streamed_append (left right : List StreamEvent) : streamed (left ++ right) = streamed left ++ streamed right :=
  List.flatMap_append

inductive Upstream where
  | text (content : Str)
  | toolUse (toolUseId name input : Str)

namespace Upstream

def event : Upstream → Event
  | .text content => .assistantResponse content
  | .toolUse toolUseId name input => .toolUse toolUseId name input

def content : Upstream → Str
  | .text content => content
  | .toolUse _ _ _ => []

def symbols : Upstream → List Symbol
  | .text content => content.map .letter
  | .toolUse toolUseId name input => [.toolUse toolUseId name input]

end Upstream

def contentOf (events : List Upstream) : Str := events.flatMap Upstream.content

def symbolsOf (events : List Upstream) : List Symbol := events.flatMap Upstream.symbols

theorem letters_symbolsOf (events : List Upstream) : letters (symbolsOf events) = contentOf events := by
  induction events with
  | nil => rfl
  | cons event rest ih =>
    rw [contentOf, List.flatMap_cons, ← contentOf, ← ih, symbolsOf, List.flatMap_cons, letters, List.filterMap_append]
    cases event with
    | text content => simp [Upstream.symbols, Upstream.content, List.filterMap_map, letters, symbolsOf]
    | toolUse => rfl

def upstreamCalls (events : List Upstream) : List ResponseTranslator.Call :=
  events.map (.push ∘ Upstream.event) ++ [.finish]

namespace ResponseTranslator

def Shows (change : ResponseTranslator → ResponseTranslator × List StreamEvent) (content : List Piece) : Prop :=
  ∀ t, streamed (change t).2 = content

theorem Shows.seq {first second : ResponseTranslator → ResponseTranslator × List StreamEvent}
    {before after : List Piece} (front : Shows first before) (back : Shows second after) :
    Shows (Emitter.seq first second) (before ++ after) := by
  intro t
  rw [Emitter.seq, streamed_append, front t, back]

theorem ensureStarted_shows : Shows ensureStarted [] := by
  intro t
  by_cases started : t.started = true <;> simp [ensureStarted, started, streamed, pieces]

theorem closeActive_shows : Shows closeActive [] := by
  intro t
  cases active : t.active <;> simp [closeActive, active, streamed, pieces]

theorem openBlock_shows (kind : Active) : Shows (openBlock kind) [] := by
  intro t
  cases kind <;> rfl

theorem switchBlock_shows (kind : Active) : Shows (switchBlock kind) [] := by
  intro t
  by_cases same : t.active = some kind
  · simp [switchBlock, same, streamed]
  · rw [switchBlock, if_neg same]
    exact closeActive_shows.seq (openBlock_shows kind) t

theorem visible_shows : Shows (quiet fun t => { t with visible := true }) [] := fun _ => rfl

theorem emitText_shows (text : Str) : Shows (emitText text) (text.map .text) := by
  intro t
  by_cases empty : text = []
  · simp [emitText, empty, streamed]
  · have delta : Shows (emitDelta (.textDelta text)) (text.map .text) := fun _ => List.append_nil _
    rw [emitText, if_neg empty]
    exact ensureStarted_shows.seq (visible_shows.seq ((switchBlock_shows .text).seq delta)) t

theorem emitThinking_shows (thinking : Str) : Shows (emitThinking thinking) (thinking.map .thinking) := by
  intro t
  by_cases empty : thinking = []
  · simp [emitThinking, empty, streamed]
  · have delta : Shows (emitDelta (.thinkingDelta thinking)) (thinking.map .thinking) := fun _ => List.append_nil _
    rw [emitThinking, if_neg empty]
    exact ensureStarted_shows.seq ((switchBlock_shows .thinking).seq delta) t

theorem deliverThinking_shows (thought : Str) (t : ResponseTranslator) :
    streamed (deliverThinking thought t).2 = (thought.take t.remaining).map .thinking := by
  by_cases empty : thought = []
  · simp [deliverThinking, empty, streamed]
  · rw [deliverThinking, if_neg empty, takeThinking_eq]
    exact emitThinking_shows _ _

theorem deliverText_shows (text : Str) (t : ResponseTranslator) :
    streamed (deliverText text t).2 = (t.textTaken text).map .text := by
  by_cases empty : text = []
  · simp [deliverText, textTaken, empty, streamed]
  · rw [deliverText, if_neg empty, textTaken, if_neg empty]
    exact emitText_shows _ _

theorem deliverToolUse_shows (toolUseId name input : Str) (t : ResponseTranslator) :
    streamed (deliverToolUse toolUseId name input t).2 = shownCall t.opts.toolNames toolUseId name input := by
  let original := (t.opts.toolNames name).getD name
  have block : Shows (emitBlock (.toolUse toolUseId original []) [.inputJsonDelta input])
      [.toolUse toolUseId original, .input input] := fun _ => rfl
  exact ensureStarted_shows.seq (visible_shows.seq (closeActive_shows.seq block)) _

theorem flushPending_shows (t : ResponseTranslator) : streamed t.flushPending.2 = t.pendingTaken.map .text := by
  simp only [flushPending, pendingTaken]
  by_cases flushes : t.stopPending ≠ [] ∧ t.localStop.isNone = true
  · rw [if_pos flushes, if_pos flushes, applyMaxTokens_eq]
    exact emitText_shows _ _
  · rw [if_neg flushes, if_neg flushes]
    rfl

theorem finish_shows {t : ResponseTranslator} (unfinished : t.finished = false) :
    streamed t.finish.2 = streamed t.begin.1.flushTag.2 ++ streamed t.begin.1.flushTag.1.flushPending.2 := by
  have begun : Shows ResponseTranslator.begin [] := fun t => ensureStarted_shows { t with finished := true }
  have closes : Shows closing [] := fun _ => rfl
  have ends : streamed (seq closeActive closing t.begin.1.flushTag.1.flushPending.1).2 = [] :=
    closeActive_shows.seq closes _
  simp only [finish, unfinished, Bool.false_eq_true, if_false]
  rw [seq, streamed_append, begun, List.nil_append, seq, streamed_append, seq, streamed_append, ends, List.append_nil]

def ahead (t : ResponseTranslator) (events : List Upstream) : List Piece :=
  arrange t.opts.toolNames (labels t.tagInside (t.tagBuf ++ contentOf events))
    (t.tagBuf.map .letter ++ symbolsOf events)

def owed (t : ResponseTranslator) (events : List Upstream) : List Piece :=
  t.stopPending.map .text ++ t.ahead events

/-- Thinking is delivered before text, so nothing may wait in front of it. -/
def FrameInOrder (t : ResponseTranslator) (content : Str) : Prop :=
  content ≠ [] → (t.parseTags content).2.2 ≠ [] →
    t.stopPending = [] ∧ ThoughtsFirst (settled t.tagInside (t.tagBuf ++ content))

/-- A tool call is delivered at once, so nothing but the beginning of a tag may wait. -/
def CallInOrder (t : ResponseTranslator) (later : Str) : Prop :=
  t.stopPending = [] ∧ (t.tagBuf = [] ∨ tagOf t.tagInside <+: t.tagBuf ++ later)

/-- The tag buffer is flushed before the hold-back. -/
def FlushInOrder (t : ResponseTranslator) : Prop :=
  t.tagInside = true → t.tagBuf = [] ∨ t.stopPending = []

def StepInOrder (t : ResponseTranslator) (later : Str) : Upstream → Prop
  | .text content => t.FrameInOrder content
  | .toolUse _ _ _ => t.CallInOrder later

def KeepsOrder (t : ResponseTranslator) : List Upstream → Prop
  | [] => t.FlushInOrder
  | event :: rest => t.StepInOrder (contentOf rest) event ∧ KeepsOrder (t.push event.event).1 rest

theorem ahead_text {t after : ResponseTranslator} (content : Str) (options : after.opts = t.opts)
    (inside : after.tagInside = (t.parseTags content).1.tagInside)
    (buffer : after.tagBuf = (t.parseTags content).1.tagBuf) (rest : List Upstream) :
    t.ahead (.text content :: rest) = settled t.tagInside (t.tagBuf ++ content) ++ after.ahead rest := by
  obtain ⟨front, taken, settles⟩ := exists_settles t.tagInside (t.tagBuf ++ content)
  obtain ⟨-, splitSide, splitBuffer⟩ := parseTags_split t content
  have labelled := settles.stable (contentOf rest)
  have symbols : t.tagBuf.map Symbol.letter ++ symbolsOf (.text content :: rest) =
      front.map .letter ++ ((splitTags t.tagInside (t.tagBuf ++ content)).buf.map .letter ++ symbolsOf rest) := by
    rw [← List.append_assoc, ← List.map_append, settles.parts, List.map_append, List.append_assoc]
    rfl
  have letters : t.tagBuf ++ contentOf (.text content :: rest) = t.tagBuf ++ content ++ contentOf rest :=
    (List.append_assoc ..).symm
  rw [ahead, letters, labelled, symbols, arrange_letters _ settles.length, ← settles.settled, ahead, options, inside,
    buffer, splitSide, splitBuffer]

theorem ahead_nil {t : ResponseTranslator} (buffer : Search.find (tagOf t.tagInside) t.tagBuf = none) :
    t.ahead [] = t.tagBuf.map (.of (sideOf t.tagInside)) := by
  have sizes : (List.replicate t.tagBuf.length (some (sideOf t.tagInside))).length = t.tagBuf.length :=
    List.length_replicate
  have whole := arrange_letters t.opts.toolNames sizes [] []
  have letters : t.tagBuf ++ contentOf [] = t.tagBuf := List.append_nil _
  rw [List.append_nil] at whole
  rw [ahead, letters, labels_absent buffer]
  exact whole.trans ((List.append_nil _).trans (dress_side _ _))

theorem ahead_call {t : ResponseTranslator} (buffer : Search.find (tagOf t.tagInside) t.tagBuf = none)
    (toolUseId name input : Str) {rest : List Upstream}
    (waits : t.tagBuf = [] ∨ tagOf t.tagInside <+: t.tagBuf ++ contentOf rest) :
    t.ahead (.toolUse toolUseId name input :: rest) =
      shownCall t.opts.toolNames toolUseId name input ++ t.ahead rest := by
  change arrange t.opts.toolNames (labels t.tagInside (t.tagBuf ++ contentOf rest))
    (t.tagBuf.map .letter ++ .toolUse toolUseId name input :: symbolsOf rest) = _ ++ arrange _ _ _
  rcases waits with empty | begins
  · rw [empty]
    rfl
  · -- Every letter in the buffer belongs to the tag.
    obtain ⟨more, tagged⟩ := labels_tag begins
    have short : t.tagBuf.length ≤ (tagOf t.tagInside).length := by
      by_contra longer
      have whole : tagOf t.tagInside <+: t.tagBuf :=
        List.prefix_of_prefix_length_le begins (List.prefix_append _ _) (by omega)
      exact (Search.find_eq_none_iff _ _).1 buffer whole.isInfix
    obtain ⟨left, size⟩ := Nat.exists_eq_add_of_le short
    rw [size, List.replicate_add, List.append_assoc] at tagged
    rw [tagged, arrange_letters _ List.length_replicate, arrange_letters _ List.length_replicate, dress_tag]
    rfl

theorem call_next_iff {t : ResponseTranslator} (buffer : Search.find (tagOf t.tagInside) t.tagBuf = none)
    (toolUseId name input : Str) (rest : List Upstream) (out : List Piece) :
    shownCall t.opts.toolNames toolUseId name input ++ out = t.owed (.toolUse toolUseId name input :: rest) ↔
      t.CallInOrder (contentOf rest) ∧ out = t.owed rest := by
  by_cases inOrder : t.CallInOrder (contentOf rest)
  · obtain ⟨empty, waits⟩ := inOrder
    rw [owed, owed, empty, ahead_call buffer toolUseId name input waits]
    simp [CallInOrder, empty, waits]
  · refine iff_of_false (fun same => ?_) fun both => inOrder both.1
    cases pending : t.stopPending with
    | cons letter more =>
      rw [owed, pending] at same
      cases same
    | nil =>
      have waits : ¬ (t.tagBuf = [] ∨ tagOf t.tagInside <+: t.tagBuf ++ contentOf rest) :=
        fun waits => inOrder ⟨pending, waits⟩
      -- The first letter in the buffer is shown before the call.
      cases letters : t.tagBuf with
      | nil => exact waits (.inl letters)
      | cons letter more =>
        rw [letters] at waits
        have absent : ¬ tagOf t.tagInside <+: letter :: (more ++ contentOf rest) := fun begins => waits (.inr begins)
        obtain ⟨others, labelled⟩ := labels_front absent
        rw [owed, pending, ahead, letters] at same
        change _ = arrange _ (labels t.tagInside (letter :: (more ++ contentOf rest))) _ at same
        rw [labelled] at same
        cases inside : t.tagInside <;> rw [inside] at same <;> cases same

theorem flush_next_iff {t : ResponseTranslator} (buffer : Search.find (tagOf t.tagInside) t.tagBuf = none)
    (inside : t.tagInside = true) :
    t.tagBuf.map .thinking ++ t.stopPending.map .text = t.owed [] ↔ t.FlushInOrder := by
  have side : Piece.of (sideOf t.tagInside) = Piece.thinking := by rw [inside]; rfl
  rw [owed, ahead_nil buffer, side]
  simp only [FlushInOrder, inside, forall_const]
  cases t.tagBuf with
  | nil => simp
  | cons thought more =>
    cases t.stopPending with
    | nil => simp
    | cons letter others =>
      refine iff_of_false (fun same => ?_) (by simp)
      cases same

theorem fragment_next_iff {t : ResponseTranslator} {seen content : Str} (following : t.Following seen)
    (nonempty : content ≠ []) (still : (t.push (.assistantResponse content)).1.localStop = none)
    (rest : List Upstream) (out : List Piece) :
    streamed (t.push (.assistantResponse content)).2 ++ out = t.owed (.text content :: rest) ↔
      t.FrameInOrder content ∧ out = (t.push (.assistantResponse content)).1.owed rest := by
  obtain ⟨pushes, filtering, shownStill⟩ := fragment_unlatched following nonempty still
  obtain ⟨front, taken, settles⟩ := exists_settles t.tagInside (t.tagBuf ++ content)
  obtain ⟨parts, -, -⟩ := parseTags_split t content
  obtain ⟨options, inside, buffer⟩ := fragment_tags t content
  obtain ⟨-, -, shown⟩ := deliverText_unlatched filtering shownStill
  have next := ahead_text content options inside buffer rest
  let thought := (deliverThinking (t.parseTags content).2.2 (t.parseTags content).1).1
  have pending : thought.stopPending = t.stopPending :=
    (congrArg stopPending (deliverThinking_limits _ _) :).trans (congrArg stopPending (parseTags_eq t content) :)
  have lettered : Lettered (settled t.tagInside (t.tagBuf ++ content)) := by
    rw [settles.settled]
    exact dress_lettered _ _
  have text : texts (settled t.tagInside (t.tagBuf ++ content)) = (t.parseTags content).2.1 := by
    rw [settles.settled, settles.text, parts]
  have think : thoughts (settled t.tagInside (t.tagBuf ++ content)) = (t.parseTags content).2.2 := by
    rw [settles.settled, settles.think, parts]
  change _ ++ (deliverText (t.parseTags content).2.1 thought).1.stopPending = thought.stopPending ++ _ at shown
  rw [pending, ← text] at shown
  have inOrder := frame_next_iff lettered shown out ((deliverText (t.parseTags content).2.1 thought).1.ahead rest)
  rw [pushes, owed, next, streamed_append, deliverThinking_shows,
    deliverThinking_unlatched filtering.running, deliverText_shows]
  rw [think, text] at inOrder
  simp only [FrameInOrder, nonempty, ne_eq, not_false_eq_true, forall_const]
  exact inOrder

theorem toolUse_outcome {t : ResponseTranslator} {seen : Str} (following : t.Following seen)
    (toolUseId name input : Str) :
    let after := (t.push (.toolUse toolUseId name input)).1
    after.localStop = none ∨ after.localStop = maxTokensStop ∧ after.finished = true := by
  have live : ¬ (t.finished = true ∨ t.failure.isSome = true) := by simp [following.unfinished, following.working]
  have pushes : t.push (.toolUse toolUseId name input) = seq (deliverToolUse toolUseId name input) finishIfStopped t := by
    simp [push, live, pushToolUse, following.running]
  have stop : (deliverToolUse toolUseId name input t).1.localStop = _ :=
    (congrArg localStop (deliverToolUse_limits toolUseId name input t) :)
  rw [following.running] at stop
  simp only [pushes, seq]
  by_cases reached : t.Reaches input.length
  · rw [if_pos reached] at stop
    exact .inr (spent_ends stop)
  · rw [if_neg reached] at stop
    rw [finishIfStopped_running stop]
    exact .inl stop

theorem toolUse_following {t : ResponseTranslator} {seen : Str} (following : t.Following seen)
    (toolUseId name input : Str) (still : (deliverToolUse toolUseId name input t).1.localStop = none) :
    (deliverToolUse toolUseId name input t).1.Following seen := by
  have limits := deliverToolUse_limits toolUseId name input t
  have frames := deliverToolUse_frame toolUseId name input t
  have inside : (deliverToolUse toolUseId name input t).1.tagInside = t.tagInside := (congrArg tagInside frames :)
  have buffer : (deliverToolUse toolUseId name input t).1.tagBuf = t.tagBuf := (congrArg tagBuf frames :)
  have shown : (deliverToolUse toolUseId name input t).1.text = t.text := (congrArg text limits :)
  have pending : (deliverToolUse toolUseId name input t).1.stopPending = t.stopPending :=
    (congrArg stopPending limits :)
  refine ⟨following.toFiltering.congr still (congrArg stopSequences limits :) (congrArg stopMaxKeep limits :) shown
    pending, (congrArg finished frames :).trans following.unfinished,
    (congrArg failure frames :).trans following.working, ?_, ?_⟩
  · rw [inside, buffer, shown, pending]
    exact following.upstream
  · rw [inside, buffer]
    exact following.buffer

theorem toolUse_next_iff {t : ResponseTranslator} {seen : Str} (following : t.Following seen)
    (toolUseId name input : Str) (rest : List Upstream) (out : List Piece) :
    streamed (deliverToolUse toolUseId name input t).2 ++ out = t.owed (.toolUse toolUseId name input :: rest) ↔
      t.CallInOrder (contentOf rest) ∧ out = (deliverToolUse toolUseId name input t).1.owed rest := by
  have limits := deliverToolUse_limits toolUseId name input t
  have same : (deliverToolUse toolUseId name input t).1.owed rest = t.owed rest := (congrArg (owed · rest) limits :)
  rw [deliverToolUse_shows, same]
  exact call_next_iff following.buffer toolUseId name input rest out

theorem flushed_next_iff {t : ResponseTranslator} (filtering : t.Filtering)
    (buffer : Search.find (tagOf t.tagInside) t.tagBuf = none) (still : t.flushed.1.localStop = none)
    (pendingStill : t.flushed.1.flushPending.1.localStop = none) :
    streamed t.flushed.2 ++ streamed t.flushed.1.flushPending.2 = t.owed [] ↔ t.FlushInOrder := by
  rw [flushPending_shows, flushPending_unlatched pendingStill]
  by_cases inside : t.tagInside = true
  · rw [flushed, if_pos inside] at still ⊢
    have pending : (deliverThinking t.tagBuf { t with tagBuf := [] }).1.stopPending = t.stopPending :=
      (congrArg stopPending (deliverThinking_limits t.tagBuf { t with tagBuf := [] }) :)
    rw [deliverThinking_shows, deliverThinking_unlatched still, pending]
    exact flush_next_iff buffer inside
  · rw [flushed, if_neg inside] at still ⊢
    obtain ⟨-, -, shown⟩ := deliverText_unlatched filtering.emptied still
    have outside : t.tagInside = false := by simpa using inside
    rw [deliverText_shows, ← List.map_append, shown, owed, ahead_nil buffer, outside, List.map_append]
    exact iff_of_true rfl fun isInside => absurd isInside inside

theorem finish_next_iff {t : ResponseTranslator} {seen : Str} (following : t.Following seen)
    (still : t.finish.1.localStop = none) : streamed t.finish.2 = t.owed [] ↔ t.FlushInOrder := by
  obtain ⟨flushes, flushedStill, pendingStill⟩ := finish_unlatched following.unfinished still
  have begun := begin_content t
  have same : t.begin.1.owed [] = t.owed [] := (congrArg (owed · []) begun :)
  have order : t.begin.1.FlushInOrder = t.FlushInOrder := (congrArg FlushInOrder begun :)
  have buffer : Search.find (tagOf t.begin.1.tagInside) t.begin.1.tagBuf = none :=
    (congrArg (fun t => Search.find (tagOf t.tagInside) t.tagBuf) begun :).trans following.buffer
  rw [finish_shows following.unfinished, flushes, ← same, ← order]
  exact flushed_next_iff (begin_filtering following.toFiltering) buffer flushedStill pendingStill

theorem matched_of_clear {t : ResponseTranslator} {text rest : Str}
    (clear : ∀ s ∈ t.stopSequences, ¬ s <:+: t.text ++ (t.stopPending ++ (text ++ rest))) : t.matched text = none := by
  refine firstMatch_eq_none_iff.2 fun s among => (Search.find_eq_none_iff _ _).2 fun occurs => clear s among ?_
  rw [← List.append_assoc t.stopPending]
  exact occurs.trans ⟨t.text, rest, by simp⟩

theorem fragment_running {t : ResponseTranslator} {seen content later : Str} (following : t.Following seen)
    (nonempty : content ≠ [])
    (clear : ∀ s ∈ t.stopSequences, ¬ s <:+: (sides false (seen ++ (content ++ later))).1) :
    let after := (t.push (.assistantResponse content)).1
    after.Following (seen ++ content) ∧ after.stopSequences = t.stopSequences ∨
      after.localStop = maxTokensStop ∧ after.finished = true := by
  cases fragment_outcome following nonempty with
  | spent stop ended => exact .inr ⟨stop, ended⟩
  | cut idx s cutNonempty found =>
    have upstream := following.upstream (content ++ later)
    rw [congrArg Prod.fst (parseTags_sides t content later)] at upstream
    rw [upstream] at clear
    cases (matched_of_clear clear).symm.trans found
  | on _ next same => exact .inl ⟨next, same⟩

theorem finish_running {t : ResponseTranslator} {seen : Str} (following : t.Following seen)
    (clear : ∀ s ∈ t.stopSequences, ¬ s <:+: (sides false seen).1) (unreached : t.finish.1.localStop ≠ maxTokensStop) :
    t.finish.1.localStop = none := by
  have all := following.all
  refine (finish_stop following.toFiltering following.unfinished fun outside _ => ?_).resolve_right unreached
  have whole : (sides false seen).1 = t.text ++ (t.stopPending ++ (t.tagBuf ++ [])) := by simpa [outside] using all
  rw [whole] at clear
  exact matched_of_clear clear

theorem upstreamCalls_cons (event : Upstream) (rest : List Upstream) :
    upstreamCalls (event :: rest) = .push event.event :: upstreamCalls rest := rfl

theorem not_unreached {t : ResponseTranslator} {calls : List Call}
    (unreached : (runAll call t calls).1.localStop ≠ maxTokensStop) (finished : t.finished = true) :
    t.localStop ≠ maxTokensStop := by
  rwa [runAll_call_finished finished] at unreached

theorem run_in_order_iff {t : ResponseTranslator} {seen : Str} (following : t.Following seen) (events : List Upstream)
    (clear : ∀ s ∈ t.stopSequences, ¬ s <:+: (sides false (seen ++ contentOf events)).1)
    (unreached : (runAll call t (upstreamCalls events)).1.localStop ≠ maxTokensStop) :
    streamed (runAll call t (upstreamCalls events)).2 = t.owed events ↔ t.KeepsOrder events := by
  induction events generalizing t seen with
  | nil =>
    have letters : seen ++ contentOf [] = seen := List.append_nil seen
    have out : (runAll call t (upstreamCalls [])).2 = t.finish.2 := List.append_nil _
    rw [letters] at clear
    rw [out]
    exact finish_next_iff following (finish_running following clear unreached)
  | cons event rest ih =>
    rw [upstreamCalls_cons, runAll_cons] at unreached ⊢
    rw [streamed_append]
    cases event with
    | text content =>
      change streamed (t.push (.assistantResponse content)).2 ++
        streamed (runAll call (t.push (.assistantResponse content)).1 (upstreamCalls rest)).2 = _ ↔
          t.FrameInOrder content ∧ (t.push (.assistantResponse content)).1.KeepsOrder rest
      by_cases empty : content = []
      · -- An empty frame is passed over.
        subst empty
        have same : t.push (.assistantResponse []) = (t, []) := push_empty t
        have passed : t.FrameInOrder [] := fun nonempty => absurd rfl nonempty
        change (runAll call (t.push (.assistantResponse [])).1 (upstreamCalls rest)).1.localStop ≠ _ at unreached
        rw [same] at unreached ⊢
        exact (ih following clear unreached).trans (and_iff_right passed).symm
      · rcases fragment_running following empty clear with ⟨next, same⟩ | ⟨stop, ended⟩
        · rw [fragment_next_iff following empty next.running]
          refine and_congr_right fun _ => ih next ?_ unreached
          rw [same, List.append_assoc]
          exact clear
        · exact absurd stop (not_unreached unreached ended)
    | toolUse toolUseId name input =>
      change streamed (t.push (.toolUse toolUseId name input)).2 ++
        streamed (runAll call (t.push (.toolUse toolUseId name input)).1 (upstreamCalls rest)).2 = _ ↔
          t.CallInOrder (contentOf rest) ∧ (t.push (.toolUse toolUseId name input)).1.KeepsOrder rest
      rcases toolUse_outcome following toolUseId name input with still | ⟨stop, ended⟩
      · have pushes := toolUse_unlatched following.unfinished following.working following.running still
        change (runAll call (t.push (.toolUse toolUseId name input)).1 (upstreamCalls rest)).1.localStop ≠ _ at unreached
        rw [pushes] at still unreached ⊢
        have next := toolUse_following following toolUseId name input still
        have sequences : (deliverToolUse toolUseId name input t).1.stopSequences = t.stopSequences :=
          (congrArg stopSequences (deliverToolUse_limits toolUseId name input t) :)
        rw [toolUse_next_iff following]
        refine and_congr_right fun _ => ih next ?_ unreached
        rw [sequences]
        exact clear
      · exact absurd stop (not_unreached unreached ended)

theorem new_owed (opts : ResponseOptions) (events : List Upstream) :
    (new opts).owed events = upstreamOrder opts.toolNames (symbolsOf events) := by
  rw [upstreamOrder, letters_symbolsOf]
  rfl

theorem runs_in_order_iff (opts : ResponseOptions) (events : List Upstream)
    (clear : ∀ s ∈ opts.stopSequences.filter (· ≠ []), ¬ s <:+: (sides false (contentOf events)).1)
    (unreached : (runAll call (new opts) (upstreamCalls events)).1.localStop ≠ maxTokensStop) :
    runs (streamed (runAll call (new opts) (upstreamCalls events)).2) =
        runs (upstreamOrder opts.toolNames (symbolsOf events)) ↔
      (new opts).KeepsOrder events := by
  rw [runs_inj, ← new_owed]
  exact run_in_order_iff (new_following opts) events clear unreached

/-- Content is streamed in the order of upstream exactly when every step of the run keeps that order. -/
theorem streamed_in_order_iff (opts : ResponseOptions) (events : List Upstream)
    (clear : ∀ s ∈ opts.stopSequences.filter (· ≠ []), ¬ s <:+: (sides false (contentOf events)).1)
    (unreached : (runAll call (new opts) (upstreamCalls events)).1.localStop ≠ some (.maxTokens, none)) :
    let shown := fun events => runs (streamed (runAll call (new opts) (upstreamCalls events)).2)
    (shown events = runs (upstreamOrder opts.toolNames (symbolsOf events)) ↔ (new opts).KeepsOrder events) ∧
      ((new opts).KeepsOrder events → ∀ others : List Upstream, symbolsOf others = symbolsOf events →
        (runAll call (new opts) (upstreamCalls others)).1.localStop ≠ some (.maxTokens, none) →
        (shown others = shown events ↔ (new opts).KeepsOrder others)) := by
  have ordered := runs_in_order_iff opts events clear unreached
  refine ⟨ordered, fun keeps others same unspent => ?_⟩
  have content : contentOf others = contentOf events := by
    rw [← letters_symbolsOf, ← letters_symbolsOf, same]
  have otherOrdered := runs_in_order_iff opts others (by rwa [content]) unspent
  rw [same, ← ordered.2 keeps] at otherOrdered
  exact otherOrdered

theorem streamed_in_order_sample :
    let opts : ResponseOptions := ⟨"m".toList, "msg".toList, ["END".toList], 0, fun _ => none, 7⟩
    let events : List Upstream := [.text "<thinking>plan</thin".toList, .text "king>go".toList]
    runs (streamed (runAll call (new opts) (upstreamCalls events)).2) =
        runs (upstreamOrder opts.toolNames (symbolsOf events)) ↔
      (new opts).KeepsOrder events :=
  (streamed_in_order_iff _ _ (by decide +kernel) (by decide +kernel)).1

theorem frame_out_of_order :
    let opts : ResponseOptions := ⟨"m".toList, "msg".toList, [], 0, fun _ => none, 7⟩
    let events : List Upstream := [.text "a<thinking>b</thinking>c".toList]
    let run := runAll call (new opts) (upstreamCalls events)
    run.1.localStop ≠ some (.maxTokens, none) ∧
      (∀ s ∈ opts.stopSequences.filter (· ≠ []), ¬ s <:+: (sides false (contentOf events)).1) ∧
      runs (streamed run.2) = [[.thinking 'b'], [.text 'a', .text 'c']] ∧
      runs (streamed run.2) ≠ runs (upstreamOrder opts.toolNames (symbolsOf events)) := by
  refine ⟨?_, ?_, ?_, ?_⟩ <;> decide +kernel

end ResponseTranslator

end KiroTrust.Translate
