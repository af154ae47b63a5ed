import KiroTrust.Translate.Unlatched

set_option autoImplicit false

namespace KiroTrust.Translate

open Emitter

namespace ResponseTranslator

/-! A budget stop is latched only when the content has used up the budget. -/

structure Earned (t : ResponseTranslator) : Prop where
  counted : t.outputChars ≤ t.accumulated
  spent : t.localStop = maxTokensStop → t.effectiveMaxTokens * 4 ≤ t.outputChars

theorem counted_earned {t after : ResponseTranslator} (earned : t.Earned) {count more : Nat} {latches : Prop}
    [Decidable latches] (latch : latches → t.Reaches count) (enough : min count t.remaining ≤ more)
    (budget : after.effectiveMaxTokens = t.effectiveMaxTokens) (used : after.outputChars = t.outputChars + more)
    (added : after.accumulated = t.accumulated + more)
    (stop : after.localStop = if latches then withMaxTokens t.localStop else t.localStop) : after.Earned where
  counted := by
    have before := earned.counted
    omega
  spent reached := by
    rw [budget, used]
    by_cases latched : latches
    · have reaches := (reaches_iff t count).1 (latch latched)
      unfold remaining at enough
      omega
    · rw [stop, if_neg latched] at reached
      have before := earned.spent reached
      omega

theorem deliverThinking_earned (thought : Str) {t : ResponseTranslator} (earned : t.Earned) :
    (deliverThinking thought t).1.Earned :=
  counted_earned earned And.right (Nat.le_refl _) ((deliverThinking_frame thought).effectiveMaxTokens t)
    (deliverThinking_used thought t) (deliverThinking_accumulated thought t) (deliverThinking_stop thought t)

theorem deliverRedacted_earned (data : Str) {t : ResponseTranslator} (earned : t.Earned) :
    (deliverRedacted data t).1.Earned := by
  have limits := deliverRedacted_limits data t
  exact counted_earned earned id (Nat.min_le_left _ _) ((deliverRedacted_frame data).effectiveMaxTokens t)
    (congrArg outputChars limits :) (deliverRedacted_accumulated data t) (congrArg localStop limits :)

theorem deliverToolUse_earned (toolUseId name input : Str) {t : ResponseTranslator} (earned : t.Earned) :
    (deliverToolUse toolUseId name input t).1.Earned := by
  have limits := deliverToolUse_limits toolUseId name input t
  exact counted_earned earned id (Nat.min_le_left _ _)
    ((deliverToolUse_frame toolUseId name input).effectiveMaxTokens t) (congrArg outputChars limits :)
    (deliverToolUse_accumulated toolUseId name input t) (congrArg localStop limits :)

theorem deliverText_earned (text : Str) {t : ResponseTranslator} (earned : t.Earned) :
    (deliverText text t).1.Earned := by
  have budget := (deliverText_frame text).effectiveMaxTokens t
  have added := deliverText_accumulated text t
  by_cases empty : text = []
  · simpa [deliverText, empty] using earned
  · cases running : t.localStop with
    | some stop =>
      -- Text after a stop is not counted.
      have latched := deliverText_latched text (t := t) (by simp [running])
      refine ⟨?_, fun reached => ?_⟩
      · have before := earned.counted
        omega
      · rw [budget, latched.2]
        exact earned.spent (latched.1 ▸ reached)
    | none =>
      cases found : t.matched text with
      | some hit =>
        have limits := deliverText_found running empty found
        have used : (deliverText text t).1.outputChars = t.outputChars := (congrArg outputChars limits :)
        have stop : (deliverText text t).1.localStop = _ := (congrArg localStop limits :)
        refine ⟨?_, fun reached => ?_⟩
        · have before := earned.counted
          omega
        · rw [stop] at reached
          cases reached
      | none =>
        have limits := deliverText_clear running empty found
        have stop : (deliverText text t).1.localStop = _ := (congrArg localStop limits :)
        rw [textTaken_clear running empty found, List.length_take, Nat.min_comm] at added
        rw [← running] at stop
        exact counted_earned earned And.right (Nat.le_refl _) budget (congrArg outputChars limits :) added stop

theorem flushPending_earned {t : ResponseTranslator} (earned : t.Earned) : t.flushPending.1.Earned := by
  have added := flushPending_accumulated t
  by_cases flushes : t.stopPending ≠ [] ∧ t.localStop.isNone = true
  · have limits := flushPending_limits (by simpa using flushes.2) flushes.1
    rw [pendingTaken, if_pos flushes, List.length_take, Nat.min_comm] at added
    exact counted_earned earned id (Nat.le_refl _) (flushPending_frame.effectiveMaxTokens t)
      (congrArg outputChars limits :) added (congrArg localStop limits :)
  · simp only [flushPending]
    rw [if_neg flushes]
    exact ⟨earned.counted, earned.spent⟩

theorem earned_of_content {t after : ResponseTranslator} (same : after.content = t.content) (earned : t.Earned) :
    after.Earned := by
  have kept : t.content.Earned := ⟨earned.counted, earned.spent⟩
  rw [← same] at kept
  exact ⟨kept.counted, kept.spent⟩

theorem finish_earned {t : ResponseTranslator} (earned : t.Earned) : t.finish.1.Earned := by
  cases running : t.finished with
  | true => simpa [finish, running] using earned
  | false =>
    have begun : t.begin.1.Earned :=
      earned_of_content (t := { t with finished := true }) (begin_content t) ⟨earned.counted, earned.spent⟩
    have emptied : Earned { t.begin.1 with tagBuf := [] } := ⟨begun.counted, begun.spent⟩
    have tag : t.begin.1.flushTag.1.Earned := by
      simp only [flushTag]
      split
      · exact deliverThinking_earned _ emptied
      · split
        · exact deliverText_earned _ emptied
        · exact emptied
    exact earned_of_content (finish_content running) (flushPending_earned tag)

theorem earned_rules :
    PushRules (fun t _ => t.Earned) (fun t _ => t.Earned) (fun t _ => t.Earned) where
  parsed delta t _ earned := by
    rw [parseTags_eq]
    exact ⟨earned.counted, earned.spent⟩
  signed _ _ _ earned := ⟨earned.counted, earned.spent⟩
  counted uncached output cacheRead cacheWrite t _ earned := by
    simp only [takeMetadata]
    split <;> exact ⟨earned.counted, earned.spent⟩
  metered input output t _ earned := by
    simp only [takeMetering]
    split
    · exact ⟨earned.counted, earned.spent⟩
    · exact earned
  failed _ _ _ earned := ⟨earned.counted, earned.spent⟩
  enters _ _ earned := earned
  thinking thought _ _ := deliverThinking_earned thought
  text textOut _ _ := deliverText_earned textOut
  signature sig t _ earned := by
    rw [emitSignature_fst]
    exact earned
  redacted data _ _ := deliverRedacted_earned data
  toolUse toolUseId name input _ _ := deliverToolUse_earned toolUseId name input
  stays _ _ earned := earned
  settles _ _ _ earned := earned
  finishes _ _ := finish_earned

theorem run_earned {t : ResponseTranslator} (earned : t.Earned) (calls : List Call) :
    (runAll call t calls).1.Earned := by
  induction calls generalizing t with
  | nil => exact earned
  | cons input rest ih =>
    apply ih
    cases input with
    | push ev => exact earned_rules.push ev t [] earned
    | finish => exact finish_earned earned

theorem run_sound {opts : ResponseOptions} {t : ResponseTranslator} (sound : t.Sound opts) (calls : List Call) :
    (runAll call t calls).1.Sound opts := by
  induction calls generalizing t with
  | nil => exact sound
  | cons input rest ih => exact ih (call_sound sound input)

theorem pushAll_cons (content : Str) (rest : List Str) :
    pushAll (content :: rest) = .push (.assistantResponse content) :: pushAll rest := rfl

theorem pushAll_mass (t : ResponseTranslator) (fragments : List Str) :
    (runAll call t (pushAll fragments)).1.mass ≤ t.mass + fragments.flatten.length := by
  induction fragments generalizing t with
  | nil => exact call_mass t .finish
  | cons content rest ih =>
    have first := call_mass t (.push (.assistantResponse content))
    have later := ih (t.call (.push (.assistantResponse content))).1
    simp only [Call.chars, contentChars] at first
    rw [pushAll_cons, runAll_cons, List.flatten_cons, List.length_append]
    apply later.trans
    omega

theorem short_unspent {opts : ResponseOptions} {fragments : List Str}
    (short : fragments.flatten.length < 4 * (new opts).effectiveMaxTokens) :
    (runAll call (new opts) (pushAll fragments)).1.localStop ≠ maxTokensStop := by
  have bounded := pushAll_mass (new opts) fragments
  have sound := run_sound (new_sound opts) (pushAll fragments)
  have earned := run_earned (t := new opts) ⟨Nat.le_refl _, fun reached => by cases reached⟩ (pushAll fragments)
  have fresh : (new opts).mass = 0 := rfl
  rw [fresh] at bounded
  intro reached
  have spent := earned.spent reached
  have counted := earned.counted
  rw [sound.budget] at spent
  unfold mass at bounded
  omega

def Thinks (t : ResponseTranslator) (seen : Str) : Prop :=
  ∀ later, (sides false (seen ++ later)).2 = t.thinking ++ (sides t.tagInside (t.tagBuf ++ later)).2

theorem fragment_thinks {t : ResponseTranslator} {seen content : Str} (following : t.Following seen)
    (thinks : t.Thinks seen) (nonempty : content ≠ [])
    (still : (t.push (.assistantResponse content)).1.localStop = none) :
    (t.push (.assistantResponse content)).1.Thinks (seen ++ content) := by
  obtain ⟨pushes, filtering, -⟩ := fragment_unlatched following nonempty still
  obtain ⟨-, inside, buffer⟩ := fragment_tags t content
  have before : (t.parseTags content).1.thinking = t.thinking :=
    (congrArg ResponseTranslator.thinking (parseTags_eq t content) :)
  let thought := (deliverThinking (t.parseTags content).2.2 (t.parseTags content).1).1
  have thinking : (deliverText (t.parseTags content).2.1 thought).1.thinking =
      t.thinking ++ (t.parseTags content).2.2 := by
    calc (deliverText (t.parseTags content).2.1 thought).1.thinking
      _ = thought.thinking := congrArg Contents.thinking (deliverText_contents _ thought)
      _ = (t.parseTags content).1.thinking ++ _ := congrArg Contents.thinking (deliverThinking_contents _ _)
      _ = t.thinking ++ _ := by rw [deliverThinking_unlatched filtering.running, before]
  intro later
  have parsed := congrArg Prod.snd (parseTags_sides t content later)
  rw [List.append_assoc, thinks, parsed, pushes, thinking, inside, buffer, List.append_assoc]

theorem flushed_thinking {t : ResponseTranslator} (still : t.flushed.1.localStop = none) :
    t.flushed.1.thinking = t.thinking ++ if t.tagInside then t.tagBuf else [] := by
  by_cases inside : t.tagInside = true
  · rw [flushed, if_pos inside] at still ⊢
    have contents := deliverThinking_contents t.tagBuf { t with tagBuf := [] }
    rw [deliverThinking_unlatched still] at contents
    rw [if_pos inside]
    exact congrArg Contents.thinking contents
  · rw [flushed, if_neg inside, if_neg inside, List.append_nil]
    exact congrArg Contents.thinking (deliverText_contents t.tagBuf { t with tagBuf := [] })

theorem finish_thinking {t : ResponseTranslator} (unfinished : t.finished = false)
    (still : t.finish.1.localStop = none) :
    t.finish.1.thinking = t.thinking ++ if t.tagInside then t.tagBuf else [] := by
  obtain ⟨flushes, flushedStill, _⟩ := finish_unlatched unfinished still
  have begun := begin_content t
  calc t.finish.1.thinking
    _ = t.begin.1.flushTag.1.flushPending.1.thinking := (congrArg thinking (finish_content unfinished) :)
    _ = t.begin.1.flushed.1.thinking := by
      rw [flushes]
      exact congrArg Contents.thinking (flushPending_contents _)
    _ = t.begin.1.thinking ++ if t.begin.1.tagInside then t.begin.1.tagBuf else [] := flushed_thinking flushedStill
    _ = t.thinking ++ if t.tagInside then t.tagBuf else [] :=
      (congrArg (fun t => t.thinking ++ if t.tagInside then t.tagBuf else []) begun :)

theorem Thinks.all {t : ResponseTranslator} {seen : Str} (following : t.Following seen) (thinks : t.Thinks seen) :
    (sides false seen).2 = t.thinking ++ if t.tagInside then t.tagBuf else [] := by
  have whole := thinks []
  rw [List.append_nil, List.append_nil, sides_absent following.buffer] at whole
  rw [whole]
  cases t.tagInside <;> simp [onSide]

theorem run_sides {t : ResponseTranslator} {seen : Str} (following : t.Following seen) (thinks : t.Thinks seen)
    (noStops : t.stopSequences = []) (fragments : List Str)
    (unreached : (runAll call t (pushAll fragments)).1.localStop ≠ maxTokensStop) :
    let last := (runAll call t (pushAll fragments)).1
    (last.text, last.thinking) = sides false (seen ++ fragments.flatten) := by
  have unmatched (text : Str) : t.matched text = none := by rw [matched, noStops, firstMatch_nil]
  induction fragments generalizing t seen with
  | nil =>
    have still : t.finish.1.localStop = none :=
      (finish_stop following.toFiltering following.unfinished fun _ _ => unmatched _).resolve_right unreached
    rw [List.flatten_nil, List.append_nil]
    apply Prod.ext
    · cases finish_outcome following with
      | spent stop => exact absurd stop unreached
      | cut idx s outside nonempty found => cases (unmatched _).symm.trans found
      | whole clear shown untouched => exact shown
    · exact (finish_thinking following.unfinished still).trans (thinks.all following).symm
  | cons content rest ih =>
    rw [pushAll_cons, runAll_cons] at unreached
    simp only [pushAll_cons, runAll_cons, List.flatten_cons]
    by_cases empty : content = []
    · rw [empty, push_empty] at unreached ⊢
      exact ih following thinks noStops unreached unmatched
    · have outcome := fragment_outcome following empty
      have thinksAfter := fragment_thinks following thinks empty
      change FragmentOutcome t seen content (t.call (.push (.assistantResponse content))).1 at outcome
      change (t.call (.push (.assistantResponse content))).1.localStop = none →
        (t.call (.push (.assistantResponse content))).1.Thinks (seen ++ content) at thinksAfter
      generalize (t.call (.push (.assistantResponse content))).1 = after at outcome thinksAfter unreached ⊢
      cases outcome with
      | spent stop ended =>
        rw [runAll_call_finished ended] at unreached
        exact absurd stop unreached
      | cut idx s nonempty found => cases (unmatched _).symm.trans found
      | on clear next same =>
        have still : after.stopSequences = [] := same.trans noStops
        rw [← List.append_assoc]
        exact ih next (thinksAfter next.running) still unreached fun text => by rw [matched, still, firstMatch_nil]

/-- However a text is cut into fragments, its text and its thinking are delivered as its tags split them. -/
theorem tag_split_delivered (opts : ResponseOptions) (fragments : List Str)
    (noStops : opts.stopSequences.filter (· ≠ []) = [])
    (short : fragments.flatten.length < 4 * (new opts).effectiveMaxTokens) :
    let streamed := gathered (runAll call (new opts) (pushAll fragments)).2
    (streamed.text, streamed.thinking) = sides false fragments.flatten := by
  obtain ⟨text, thinking, -⟩ := run_gathered opts fragments
  simp only [text, thinking]
  exact run_sides (new_following opts) (fun _ => rfl) noStops fragments (short_unspent short)

theorem tag_split_delivered_sample :
    let opts : ResponseOptions := ⟨"m".toList, "msg".toList, [], 0, fun _ => none, 7⟩
    let fragments : List Str := ["a<<thin".toList, "king>b</thinking>c".toList, "<think".toList]
    let streamed := gathered (runAll call (new opts) (pushAll fragments)).2
    (streamed.text, streamed.thinking) = sides false fragments.flatten :=
  tag_split_delivered _ _ (by decide) (by decide)

def upTo (s text : Str) : Str :=
  match Search.find s text with
  | some idx => text.take idx
  | none => text

def stopFor (s text : Str) : Option (StopReason × Option Str) :=
  (Search.find s text).map fun _ => (.stopSequence, some s)

structure StoppedAt (s text : Str) (last : ResponseTranslator) : Prop where
  shown : last.text = upTo s text
  stop : last.localStop = stopFor s text
  drained : ¬ s <:+: text → last.stopPending = []

theorem matched_single {t : ResponseTranslator} {s text : Str} (single : t.stopSequences = [s]) :
    t.matched text = (Search.find s (t.stopPending ++ text)).map fun idx => (idx, s) := by
  rw [matched, single]
  simp [firstMatch]

theorem stoppedAt_cut {t after : ResponseTranslator} {s text rest : Str} (filtering : t.Filtering)
    (single : t.stopSequences = [s]) {idx : Nat} {found : Str} (matched : t.matched text = some (idx, found))
    (stop : after.localStop = some (.stopSequence, some found))
    (shown : after.text = t.text ++ (t.stopPending ++ text).take idx) :
    StoppedAt s (t.text ++ (t.stopPending ++ (text ++ rest))) after := by
  rw [matched_single single, Option.map_eq_some_iff] at matched
  obtain ⟨index, first, same⟩ := matched
  cases same
  have among : s ∈ t.stopSequences := by simp [single]
  have here := filtering.holds.find among text
  rw [first, Option.map_some] at here
  have whole := Search.find_append_found here rest
  have bound := (Search.find_some first).1.bound
  simp only [List.append_assoc] at whole
  refine ⟨?_, ?_, fun absent => ?_⟩
  · have inner : (t.stopPending ++ (text ++ rest)).take idx = (t.stopPending ++ text).take idx := by
      rw [← List.append_assoc, List.take_append_of_le_length (by omega)]
    rw [upTo, whole, shown]
    simp only [List.take_length_add_append, inner]
  · rw [stopFor, whole, stop, Option.map_some]
  · rw [← Search.find_eq_none_iff, whole] at absent
    cases absent

theorem stoppedAt_whole {s text : Str} {last : ResponseTranslator} (absent : ¬ s <:+: text)
    (shown : last.text = text) (running : last.localStop = none) (drained : last.stopPending = []) :
    StoppedAt s text last := by
  have nowhere := (Search.find_eq_none_iff s text).2 absent
  refine ⟨?_, ?_, fun _ => drained⟩
  · rw [upTo, nowhere, shown]
  · rw [stopFor, nowhere, running, Option.map_none]

theorem finish_drained {t : ResponseTranslator} (unfinished : t.finished = false) : t.finish.1.stopPending = [] :=
  (congrArg stopPending (finish_content unfinished) :).trans (flushPending_stopPending _)

theorem finish_stoppedAt {t : ResponseTranslator} {seen s : Str} (following : t.Following seen)
    (single : t.stopSequences = [s]) (unreached : t.finish.1.localStop ≠ maxTokensStop) :
    StoppedAt s (sides false seen).1 t.finish.1 := by
  have all := following.all
  cases finish_outcome following with
  | spent stop => exact absurd stop unreached
  | cut idx found outside nonempty matched stop shown =>
    have upstream : (sides false seen).1 = t.text ++ (t.stopPending ++ (t.tagBuf ++ [])) := by
      simpa [outside] using all
    rw [upstream]
    exact stoppedAt_cut following.toFiltering single matched stop shown
  | whole clear shown untouched =>
    have running := (finish_stop following.toFiltering following.unfinished clear).resolve_right unreached
    have absent : ¬ s <:+: (sides false seen).1 := by
      rw [← shown]
      exact untouched s (by simp [single])
    exact stoppedAt_whole absent shown running (finish_drained following.unfinished)

theorem run_stoppedAt {t : ResponseTranslator} {seen s : Str} (following : t.Following seen)
    (single : t.stopSequences = [s]) (fragments : List Str)
    (unreached : (runAll call t (pushAll fragments)).1.localStop ≠ maxTokensStop) :
    StoppedAt s (sides false (seen ++ fragments.flatten)).1 (runAll call t (pushAll fragments)).1 := by
  induction fragments generalizing t seen with
  | nil =>
    rw [List.flatten_nil, List.append_nil]
    exact finish_stoppedAt following single unreached
  | cons content rest ih =>
    rw [pushAll_cons, runAll_cons] at unreached ⊢
    rw [List.flatten_cons]
    by_cases empty : content = []
    · rw [empty, push_empty] at unreached ⊢
      exact ih following single unreached
    · have outcome := fragment_outcome following empty
      change FragmentOutcome t seen content (t.call (.push (.assistantResponse content))).1 at outcome
      generalize (t.call (.push (.assistantResponse content))).1 = after at outcome unreached ⊢
      cases outcome with
      | spent stop ended =>
        rw [runAll_call_finished ended] at unreached
        exact absurd stop unreached
      | cut idx found nonempty matched ended stop shown =>
        have upstream := following.upstream (content ++ rest.flatten)
        rw [congrArg Prod.fst (parseTags_sides t content rest.flatten)] at upstream
        rw [runAll_call_finished ended, upstream]
        exact stoppedAt_cut following.toFiltering single matched stop shown
      | on clear next same =>
        rw [← List.append_assoc]
        exact ih next (same.trans single) unreached

def KeepsCalls (change : ResponseTranslator → ResponseTranslator × List StreamEvent) : Prop :=
  ∀ t, (change t).1.toolCalls = t.toolCalls

theorem KeepsContent.calls {change : ResponseTranslator → ResponseTranslator × List StreamEvent}
    (keeps : KeepsContent change) : KeepsCalls change :=
  fun t => (congrArg toolCalls (keeps t) :)

theorem deliverThinking_calls (thought : Str) : KeepsCalls (deliverThinking thought) :=
  fun t => congrArg Contents.toolCalls (deliverThinking_contents thought t)

theorem deliverText_calls (text : Str) : KeepsCalls (deliverText text) :=
  fun t => congrArg Contents.toolCalls (deliverText_contents text t)

theorem flushTag_calls : KeepsCalls flushTag := by
  intro t
  simp only [flushTag]
  split
  · exact deliverThinking_calls _ _
  · split
    · exact deliverText_calls _ _
    · rfl

theorem finish_calls : KeepsCalls finish := by
  intro t
  cases running : t.finished with
  | true => simp [finish, running]
  | false =>
    calc t.finish.1.toolCalls
      _ = t.begin.1.flushTag.1.flushPending.1.toolCalls := (congrArg toolCalls (finish_content running) :)
      _ = t.begin.1.flushTag.1.toolCalls := congrArg Contents.toolCalls (flushPending_contents _)
      _ = t.begin.1.toolCalls := flushTag_calls _
      _ = t.toolCalls := (congrArg toolCalls (begin_content t) :)

theorem finishIfStopped_calls : KeepsCalls finishIfStopped := by
  intro t
  unfold finishIfStopped
  split
  · exact finish_calls t
  · rfl

theorem fragment_calls (content : Str) : KeepsCalls (push · (.assistantResponse content)) := by
  intro t
  simp only [push]
  split
  · rfl
  · simp only [pushAssistantResponse]
    split
    · rfl
    · simp only [seq]
      rw [finishIfStopped_calls, deliverText_calls, deliverThinking_calls, parseTags_eq]

theorem run_calls (t : ResponseTranslator) (fragments : List Str) :
    (runAll call t (pushAll fragments)).1.toolCalls = t.toolCalls := by
  induction fragments generalizing t with
  | nil => exact finish_calls t
  | cons content rest ih => exact (ih _).trans (fragment_calls content t)

theorem reported_single {last : ResponseTranslator} {s text : Str} (stop : last.localStop = stopFor s text)
    (noCalls : last.toolCalls = []) :
    last.reported = some (if s <:+: text then ⟨.stopSequence, some s⟩ else ⟨.endTurn, none⟩) := by
  cases found : Search.find s text with
  | some idx =>
    have occurs : s <:+: text := (Search.infix_iff_at s text).2 ⟨idx, (Search.find_some found).1⟩
    rw [stopFor, found] at stop
    rw [reported_of_stop stop, if_pos occurs]
  | none =>
    rw [stopFor, found] at stop
    rw [if_neg ((Search.find_eq_none_iff s text).1 found)]
    simp [reported, stopReason, stop, noCalls]

theorem single_stop_exact (opts : ResponseOptions) (s : Str) (fragments : List Str)
    (single : opts.stopSequences.filter (· ≠ []) = [s])
    (unreached : (runAll call (new opts) (pushAll fragments)).1.localStop ≠ some (.maxTokens, none)) :
    let run := runAll call (new opts) (pushAll fragments)
    let text := (sides false fragments.flatten).1
    (gathered run.2).text = upTo s text ∧ (¬ s <:+: text → run.1.stopPending = []) ∧
      ((gathered run.2).ending.map Prod.fst = some ⟨.stopSequence, some s⟩ ↔ s <:+: text) ∧
      ∀ others : List Str, others.flatten = fragments.flatten →
        (runAll call (new opts) (pushAll others)).1.localStop ≠ some (.maxTokens, none) →
        (gathered (runAll call (new opts) (pushAll others)).2).text = (gathered run.2).text ∧
          (gathered (runAll call (new opts) (pushAll others)).2).ending.map Prod.fst =
            (gathered run.2).ending.map Prod.fst := by
  intro run text
  have exactly (cuts : List Str) (same : cuts.flatten = fragments.flatten)
      (unspent : (runAll call (new opts) (pushAll cuts)).1.localStop ≠ some (.maxTokens, none)) :
      StoppedAt s text (runAll call (new opts) (pushAll cuts)).1 ∧
        (gathered (runAll call (new opts) (pushAll cuts)).2).text = upTo s text ∧
        (gathered (runAll call (new opts) (pushAll cuts)).2).ending.map Prod.fst =
          some (if s <:+: text then ⟨.stopSequence, some s⟩ else ⟨.endTurn, none⟩) := by
    have stopped := run_stoppedAt (new_following opts) single cuts unspent
    rw [List.nil_append, same] at stopped
    obtain ⟨delivered, -, ending⟩ := run_gathered opts cuts
    exact ⟨stopped, delivered.trans stopped.shown,
      ending.trans (reported_single stopped.stop (run_calls (new opts) cuts))⟩
  obtain ⟨stopped, delivered, ending⟩ := exactly fragments rfl unreached
  refine ⟨delivered, stopped.drained, ?_, fun others same unspent => ?_⟩
  · rw [ending]
    by_cases occurs : s <:+: text <;> simp [occurs]
  · obtain ⟨-, otherDelivered, otherEnding⟩ := exactly others same unspent
    exact ⟨otherDelivered.trans delivered.symm, otherEnding.trans ending.symm⟩

theorem single_stop_exact_sample :
    let opts : ResponseOptions := ⟨"m".toList, "msg".toList, ["aab".toList], 0, fun _ => none, 7⟩
    let run := runAll call (new opts) (pushAll ["xa".toList, "<thinking>q</thinking>a".toList, "ab".toList])
    let whole := runAll call (new opts) (pushAll ["xa<thinking>q</thinking>aab".toList])
    (gathered run.2).text = "xa".toList ∧ (gathered whole.2).text = (gathered run.2).text := by
  intro opts run whole
  have exactly := single_stop_exact opts "aab".toList
    ["xa".toList, "<thinking>q</thinking>a".toList, "ab".toList] (by decide +kernel) (by decide +kernel)
  exact ⟨exactly.1.trans (by decide +kernel), (exactly.2.2.2 ["xa<thinking>q</thinking>aab".toList] (by decide +kernel)
    (by decide +kernel)).1⟩

end ResponseTranslator

end KiroTrust.Translate
