import KiroTrust.Translate.Fragments

set_option autoImplicit false

namespace KiroTrust.Translate

open Emitter

/-! The token counts of a response: where they come from, and what does not depend on them. -/

structure Counts where
  hasMetadata : Bool
  inputTokens : Nat
  outputTokens : Nat
  cacheRead : Nat
  cacheWrite : Nat

def maskUsage : StreamEvent → StreamEvent
  | .messageDelta delta _ => .messageDelta delta Usage.zero
  | ev => ev

namespace ResponseTranslator

def counts (t : ResponseTranslator) : Counts :=
  ⟨t.hasMetadata, t.inputTokens, t.outputTokens, t.cacheRead, t.cacheWrite⟩

def withCounts (counts : Counts) (t : ResponseTranslator) : ResponseTranslator :=
  { t with
    hasMetadata := counts.hasMetadata
    inputTokens := counts.inputTokens
    outputTokens := counts.outputTokens
    cacheRead := counts.cacheRead
    cacheWrite := counts.cacheWrite }

def Blind (change : ResponseTranslator → ResponseTranslator × List StreamEvent) : Prop :=
  ∀ counts t, (change (withCounts counts t)).1 = withCounts counts (change t).1 ∧
    (change (withCounts counts t)).2.map maskUsage = (change t).2.map maskUsage

theorem Blind.keeps {change : ResponseTranslator → ResponseTranslator × List StreamEvent} (blind : Blind change)
    (t : ResponseTranslator) : (change t).1.counts = t.counts :=
  (congrArg counts (blind t.counts t).1 :)

theorem Blind.seq {first second : ResponseTranslator → ResponseTranslator × List StreamEvent}
    (front : Blind first) (back : Blind second) : Blind (Emitter.seq first second) := by
  intro counts t
  obtain ⟨state, out⟩ := front counts t
  obtain ⟨last, more⟩ := back counts (first t).1
  simp only [Emitter.seq, state, last, List.map_append, out, more, and_self]

theorem Blind.idle : Blind fun t => (t, []) := fun _ _ => ⟨rfl, rfl⟩

theorem Blind.branch {p : ResponseTranslator → Prop} [DecidablePred p]
    {left right : ResponseTranslator → ResponseTranslator × List StreamEvent}
    (same : ∀ counts t, p (withCounts counts t) ↔ p t) (yes : Blind left) (no : Blind right) :
    Blind fun t => if p t then left t else right t := by
  intro counts t
  by_cases holds : p t
  · simp only [if_pos holds, if_pos ((same counts t).2 holds)]
    exact yes counts t
  · simp only [if_neg holds, if_neg fun other => holds ((same counts t).1 other)]
    exact no counts t

theorem Blind.after {f : ResponseTranslator → ResponseTranslator}
    {change : ResponseTranslator → ResponseTranslator × List StreamEvent}
    (commutes : ∀ counts t, f (withCounts counts t) = withCounts counts (f t)) (blind : Blind change) :
    Blind fun t => change (f t) := by
  intro counts t
  simp only [commutes]
  exact blind counts (f t)

theorem ensureStarted_blind : Blind ensureStarted :=
  .branch (p := fun t => t.started) (fun _ _ => Iff.rfl) .idle fun _ _ => ⟨rfl, rfl⟩

theorem closeActive_blind : Blind closeActive := by
  intro counts t
  have active : (withCounts counts t).active = t.active := rfl
  simp only [closeActive, active]
  split <;> exact ⟨rfl, rfl⟩

theorem switchBlock_blind (kind : Active) : Blind (switchBlock kind) :=
  have opens : Blind (openBlock kind) := fun _ _ => ⟨rfl, rfl⟩
  .branch (p := fun t => t.active = some kind) (fun _ _ => Iff.rfl) .idle (closeActive_blind.seq opens)

theorem emitDelta_blind (delta : Delta) : Blind (emitDelta delta) := fun _ _ => ⟨rfl, rfl⟩

theorem visible_blind : Blind (quiet fun t => { t with visible := true }) := fun _ _ => ⟨rfl, rfl⟩

theorem emitText_blind (text : Str) : Blind (emitText text) :=
  .branch (p := fun _ => text = []) (fun _ _ => Iff.rfl) .idle
    (ensureStarted_blind.seq (visible_blind.seq ((switchBlock_blind .text).seq (emitDelta_blind _))))

theorem emitThinking_blind (thinking : Str) : Blind (emitThinking thinking) :=
  .branch (p := fun _ => thinking = []) (fun _ _ => Iff.rfl) .idle
    (ensureStarted_blind.seq ((switchBlock_blind .thinking).seq (emitDelta_blind _)))

theorem emitBlock_blind (start : BlockStart) (deltas : List Delta) : Blind (emitBlock start deltas) :=
  fun _ _ => ⟨rfl, rfl⟩

theorem takeThinking_withCounts (counts : Counts) (t : ResponseTranslator) (thought : Str) :
    (withCounts counts t).takeThinking thought =
      (withCounts counts (t.takeThinking thought).1, (t.takeThinking thought).2) := by
  simp only [takeThinking_eq]
  rfl

theorem filterText_withCounts (counts : Counts) (t : ResponseTranslator) (textOut : Str) :
    (withCounts counts t).filterText textOut =
      (withCounts counts (t.filterText textOut).1, (t.filterText textOut).2) := by
  have sequences : (withCounts counts t).stopSequences = t.stopSequences := rfl
  have pending : (withCounts counts t).stopPending = t.stopPending := rfl
  simp only [filterText, applyStopFilter_eq, sequences, pending]
  split
  · split <;> rfl
  · rfl

theorem budgetText_withCounts (counts : Counts) (t : ResponseTranslator) (out : Str) :
    (withCounts counts t).budgetText out = (withCounts counts (t.budgetText out).1, (t.budgetText out).2) := by
  have stop : (withCounts counts t).localStop = t.localStop := rfl
  simp only [budgetText, applyMaxTokens_eq, stop]
  split <;> rfl

theorem takeText_withCounts (counts : Counts) (t : ResponseTranslator) (textOut : Str) :
    (withCounts counts t).takeText textOut =
      (withCounts counts (t.takeText textOut).1, (t.takeText textOut).2) := by
  simp only [takeText, filterText_withCounts, budgetText_withCounts]
  rfl

theorem accountOpaque_withCounts (counts : Counts) (t : ResponseTranslator) (text : Str) :
    (withCounts counts t).accountOpaque text = withCounts counts (t.accountOpaque text) := by
  simp only [accountOpaque_eq]
  rfl

theorem parseTags_withCounts (counts : Counts) (t : ResponseTranslator) (delta : Str) :
    (withCounts counts t).parseTags delta =
      (withCounts counts (t.parseTags delta).1, (t.parseTags delta).2) := by
  have buf : (withCounts counts t).tagBuf = t.tagBuf := rfl
  have inside : (withCounts counts t).tagInside = t.tagInside := rfl
  simp only [parseTags, buf, inside]
  split <;> rfl

/-! The parts of `push` and `finish`. -/

theorem deliverThinking_blind (thought : Str) : Blind (deliverThinking thought) := by
  have delivers : Blind fun t => emitThinking (t.takeThinking thought).2 (t.takeThinking thought).1 := by
    intro counts t
    simp only [takeThinking_withCounts]
    exact emitThinking_blind _ counts _
  exact .branch (p := fun _ => thought = []) (fun _ _ => Iff.rfl) .idle delivers

theorem deliverText_blind (textOut : Str) : Blind (deliverText textOut) := by
  have delivers : Blind fun t => emitText (t.takeText textOut).2 (t.takeText textOut).1 := by
    intro counts t
    simp only [takeText_withCounts]
    exact emitText_blind _ counts _
  exact .branch (p := fun _ => textOut = []) (fun _ _ => Iff.rfl) .idle delivers

theorem begin_blind : Blind begin :=
  .after (f := fun t => { t with finished := true }) (fun _ _ => rfl) ensureStarted_blind

theorem flushTag_blind : Blind flushTag := by
  intro counts t
  have flushes : Blind fun t => if t.tagInside then _ else if t.localStop.isNone then _ else (t, []) :=
    .branch (fun _ _ => Iff.rfl) (deliverThinking_blind t.tagBuf)
      (.branch (fun _ _ => Iff.rfl) (deliverText_blind t.tagBuf) .idle)
  exact flushes.after (f := fun t => { t with tagBuf := [] }) (fun _ _ => rfl) counts t

theorem applyMaxTokens_withCounts (counts : Counts) (t : ResponseTranslator) (delta : Str) :
    (withCounts counts t).applyMaxTokens delta =
      (withCounts counts (t.applyMaxTokens delta).1, (t.applyMaxTokens delta).2) := by
  simp only [applyMaxTokens_eq]
  rfl

theorem flushPending_blind : Blind flushPending := by
  intro counts t
  have delivers : Blind fun u =>
      emitText (u.applyMaxTokens t.stopPending).2
        { (u.applyMaxTokens t.stopPending).1 with
          text := (u.applyMaxTokens t.stopPending).1.text ++ (u.applyMaxTokens t.stopPending).2 } := by
    intro counts u
    simp only [applyMaxTokens_withCounts]
    exact emitText_blind _ counts
      { (u.applyMaxTokens t.stopPending).1 with
        text := (u.applyMaxTokens t.stopPending).1.text ++ (u.applyMaxTokens t.stopPending).2 }
  have flushes : Blind fun u => if t.stopPending ≠ [] ∧ u.localStop.isNone then _ else (u, []) :=
    .branch (fun _ _ => Iff.rfl) delivers .idle
  exact flushes.after (f := fun t => { t with stopPending := [] }) (fun _ _ => rfl) counts t

theorem closing_blind : Blind closing := by
  intro counts t
  have reason : (withCounts counts t).stopReason = t.stopReason := rfl
  exact ⟨rfl, by simp only [closing, reason, List.map_cons, maskUsage]⟩

theorem finish_blind : Blind finish :=
  .branch (p := fun t => t.finished) (fun _ _ => Iff.rfl) .idle
    (begin_blind.seq (flushTag_blind.seq (flushPending_blind.seq (closeActive_blind.seq closing_blind))))

theorem finishIfStopped_blind : Blind finishIfStopped :=
  .branch (p := fun t => t.localStop.isSome) (fun _ _ => Iff.rfl) finish_blind .idle

theorem pushAssistantResponse_blind (content : Str) : Blind (pushAssistantResponse content) := by
  have delivers : Blind fun t =>
      Emitter.seq (deliverThinking (t.parseTags content).2.2)
        (Emitter.seq (deliverText (t.parseTags content).2.1) finishIfStopped) (t.parseTags content).1 := by
    intro counts t
    simp only [parseTags_withCounts]
    exact ((deliverThinking_blind _).seq ((deliverText_blind _).seq finishIfStopped_blind)) counts _
  exact .branch (p := fun t => content = [] ∨ t.localStop.isSome) (fun _ _ => Iff.rfl) .idle delivers

theorem emitSignature_blind (signature : Option Str) : Blind (emitSignature signature) := by
  cases signature with
  | none => exact .idle
  | some sig => exact .branch (p := fun t => t.active = some .thinking) (fun _ _ => Iff.rfl) (emitDelta_blind _) .idle

theorem deliverReasoning_blind (text : Str) : Blind (deliverReasoning text) :=
  .branch (p := fun t => t.localStop.isNone) (fun _ _ => Iff.rfl) (deliverThinking_blind text) .idle

theorem deliverRedacted_blind (data : Str) : Blind (deliverRedacted data) := by
  refine .after (f := fun t => ({ t with redacted := t.redacted ++ [data] }).accountOpaque data) ?_
    (ensureStarted_blind.seq (closeActive_blind.seq (emitBlock_blind _ _)))
  exact fun counts t => accountOpaque_withCounts counts { t with redacted := t.redacted ++ [data] } data

theorem pushReasoningContent_blind (text : Str) (signature redactedContent : Option Str) :
    Blind (pushReasoningContent text signature redactedContent) := by
  cases redactedContent with
  | some data =>
    exact .after (f := takeSignature signature) (fun _ _ => rfl)
      ((deliverRedacted_blind data).seq finishIfStopped_blind)
  | none =>
    exact .after (f := takeSignature signature) (fun _ _ => rfl)
      (.branch (p := fun t => t.suppressReasoning) (fun _ _ => Iff.rfl) .idle
        ((deliverReasoning_blind text).seq ((emitSignature_blind signature).seq finishIfStopped_blind)))

theorem deliverToolUse_blind (toolUseId name input : Str) : Blind (deliverToolUse toolUseId name input) := by
  intro counts t
  have names : (withCounts counts t).opts = t.opts := rfl
  have emits := ensureStarted_blind.seq (visible_blind.seq (closeActive_blind.seq
    (emitBlock_blind (.toolUse toolUseId ((t.opts.toolNames name).getD name) []) [.inputJsonDelta input])))
  simp only [deliverToolUse, names, accountOpaque_withCounts]
  exact emits counts
    { t.accountOpaque input with
      toolCalls := (t.accountOpaque input).toolCalls ++ [⟨toolUseId, (t.opts.toolNames name).getD name, input⟩] }

theorem pushToolUse_blind (toolUseId name input : Str) : Blind (pushToolUse toolUseId name input) :=
  .branch (p := fun t => t.localStop.isSome) (fun _ _ => Iff.rfl) .idle
    ((deliverToolUse_blind toolUseId name input).seq finishIfStopped_blind)

end ResponseTranslator

def isReport : Event → Bool
  | .metadata _ _ _ _ _ => true
  | .metering _ _ _ => true
  | .ignored _ => true
  | _ => false

def withoutReports (events : List Event) : List Event := events.filter fun ev => !isReport ev

def metadataCounts : Event → Option (Nat × Nat)
  | .metadata uncached output _ cacheRead _ =>
    if uncached + cacheRead > 0 ∨ output > 0 then some (ResponseTranslator.saturatingAdd uncached cacheRead, output)
    else none
  | _ => none

def meteringCounts : Event → Option (Nat × Nat)
  | .metering _ input output => if input > 0 ∨ output > 0 then some (input, output) else none
  | _ => none

def lastOf {X Y : Type} (f : X → Option Y) (inputs : List X) : Option Y := (inputs.filterMap f).getLast?

theorem lastOf_concat {X Y : Type} (f : X → Option Y) (inputs : List X) (input : X) :
    lastOf f (inputs ++ [input]) = (f input).or (lastOf f inputs) := by
  unfold lastOf
  rw [List.filterMap_append]
  cases found : f input <;> simp only [List.filterMap_cons, List.filterMap_nil, found, List.append_nil,
    List.getLast?_concat, Option.none_or, Option.some_or]

theorem lastOf_some {X Y : Type} {f : X → Option Y} {inputs : List X} {last : Y}
    (found : lastOf f inputs = some last) : ∃ input ∈ inputs, f input = some last :=
  List.mem_filterMap.1 (List.mem_of_getLast? found)

/-- The counts of the last metadata that has any, else those of the last metering that has any. -/
def resolved (events : List Event) : Option (Nat × Nat) :=
  (lastOf metadataCounts events).or (lastOf meteringCounts events)

theorem saturatingAdd_pos (left right : Nat) :
    ResponseTranslator.saturatingAdd left right > 0 ↔ left + right > 0 := by
  unfold ResponseTranslator.saturatingAdd
  omega

theorem metadataCounts_nonzero {ev : Event} {counts : Nat × Nat} (some : metadataCounts ev = some counts) :
    counts.1 > 0 ∨ counts.2 > 0 := by
  unfold metadataCounts at some
  split at some
  · split at some
    next nonzero =>
      cases some
      simpa only [saturatingAdd_pos] using nonzero
    · cases some
  · cases some

theorem meteringCounts_nonzero {ev : Event} {counts : Nat × Nat} (some : meteringCounts ev = some counts) :
    counts.1 > 0 ∨ counts.2 > 0 := by
  unfold meteringCounts at some
  split at some
  · split at some
    next nonzero =>
      cases some
      exact nonzero
    · cases some
  · cases some

theorem resolved_nonzero {events : List Event} {counts : Nat × Nat} (found : resolved events = some counts) :
    counts.1 > 0 ∨ counts.2 > 0 := by
  rcases Option.or_eq_some_iff.1 found with last | ⟨-, last⟩
  · obtain ⟨ev, -, has⟩ := lastOf_some last
    exact metadataCounts_nonzero has
  · obtain ⟨ev, -, has⟩ := lastOf_some last
    exact meteringCounts_nonzero has

namespace ResponseTranslator

theorem push_blind {ev : Event} (counted : isReport ev = false) : Blind fun t => t.push ev := by
  have fails (failure : Option Failure) : Blind (quiet fun t => { t with failure }) := fun _ _ => ⟨rfl, rfl⟩
  refine .branch (p := fun t => t.finished ∨ t.failure.isSome) (fun _ _ => Iff.rfl) .idle ?_
  cases ev with
  | assistantResponse content => exact pushAssistantResponse_blind content
  | reasoningContent text signature redacted => exact pushReasoningContent_blind text signature redacted
  | toolUse toolUseId name input => exact pushToolUse_blind toolUseId name input
  | invalidState reason message | exception exceptionType message => exact fails _
  | metadata uncached output total cacheRead cacheWrite | metering credits input output | ignored eventType =>
    cases counted

theorem takeMetadata_withCounts (uncached output cacheRead cacheWrite : Nat) (t : ResponseTranslator) :
    t.takeMetadata uncached output cacheRead cacheWrite =
      withCounts (t.takeMetadata uncached output cacheRead cacheWrite).counts t := by
  simp only [takeMetadata]
  split <;> rfl

theorem takeMetering_withCounts (input output : Nat) (t : ResponseTranslator) :
    t.takeMetering input output = withCounts (t.takeMetering input output).counts t := by
  simp only [takeMetering]
  split <;> rfl

theorem push_report {ev : Event} (report : isReport ev = true) (t : ResponseTranslator) :
    ∃ counts, t.push ev = (withCounts counts t, []) := by
  simp only [push]
  split
  · exact ⟨t.counts, rfl⟩
  · cases ev with
    | metadata uncached output total cacheRead cacheWrite =>
      exact ⟨_, congrArg (·, []) (takeMetadata_withCounts uncached output cacheRead cacheWrite t)⟩
    | metering credits input output => exact ⟨_, congrArg (·, []) (takeMetering_withCounts input output t)⟩
    | ignored eventType => exact ⟨t.counts, rfl⟩
    | assistantResponse content | reasoningContent text signature redacted | toolUse toolUseId name input
    | invalidState reason message | exception exceptionType message => cases report

def toTheEnd (events : List Event) : List Call := events.map .push ++ [.finish]

def reply (opts : ResponseOptions) (events : List Event) : ResponseTranslator × List StreamEvent :=
  runAll call (new opts) (toTheEnd events)

theorem run_without_reports (events : List Event) (counts : Counts) (t : ResponseTranslator) :
    (runAll call (withCounts counts t) (toTheEnd events)).2.map maskUsage =
      (runAll call t (toTheEnd (withoutReports events))).2.map maskUsage := by
  induction events generalizing counts t with
  | nil =>
    obtain ⟨-, out⟩ := finish_blind counts t
    simpa [toTheEnd, withoutReports, runAll_cons, call] using out
  | cons ev rest ih =>
    cases report : isReport ev with
    | true =>
      obtain ⟨later, pushed⟩ := push_report report (withCounts counts t)
      have left : withoutReports (ev :: rest) = withoutReports rest := by simp [withoutReports, report]
      rw [left, ← ih later t]
      simp only [toTheEnd, List.map_cons, List.cons_append, runAll_cons, call, pushed, List.nil_append]
      rfl
    | false =>
      obtain ⟨state, out⟩ := push_blind report counts t
      have left : withoutReports (ev :: rest) = ev :: withoutReports rest := by simp [withoutReports, report]
      have later := ih counts (t.push ev).1
      simp only [left, toTheEnd, List.map_cons, List.cons_append, runAll_cons, call, List.map_append, out, state] at *
      rw [later]

def processed (t : ResponseTranslator) : List Event → List Event
  | [] => []
  | ev :: rest => if t.finished ∨ t.failure.isSome then [] else ev :: processed (t.push ev).1 rest

structure Booked (seen : List Event) (t : ResponseTranslator) : Prop where
  metadata : t.hasMetadata = (lastOf metadataCounts seen).isSome
  tokens : (t.inputTokens, t.outputTokens) = (resolved seen).getD (0, 0)

theorem Booked.of_counts {seen : List Event} {t after : ResponseTranslator} (booked : t.Booked seen)
    (same : after.counts = t.counts) : after.Booked seen where
  metadata := (congrArg Counts.hasMetadata same :).trans booked.metadata
  tokens := (congrArg (fun counts : Counts => (counts.inputTokens, counts.outputTokens)) same :).trans booked.tokens

theorem takeMetadata_booked {seen : List Event} {t : ResponseTranslator} (booked : t.Booked seen)
    (uncached output total cacheRead cacheWrite : Nat) :
    (t.takeMetadata uncached output cacheRead cacheWrite).Booked
      (seen ++ [Event.metadata uncached output total cacheRead cacheWrite]) := by
  obtain ⟨metadata, tokens⟩ := booked
  simp only [takeMetadata, saturatingAdd_pos]
  by_cases nonzero : uncached + cacheRead > 0 ∨ output > 0
  · exact
      { metadata := by simp only [lastOf_concat, metadataCounts, nonzero, if_true]; rfl
        tokens := by simp only [resolved, lastOf_concat, metadataCounts, nonzero, if_true]; rfl }
  · rw [if_neg nonzero]
    exact
      { metadata := by simpa only [lastOf_concat, metadataCounts, nonzero, if_false, Option.none_or] using metadata
        tokens := by
          simpa only [resolved, lastOf_concat, metadataCounts, meteringCounts, nonzero, if_false,
            Option.none_or] using tokens }

theorem takeMetering_booked {seen : List Event} {t : ResponseTranslator} (booked : t.Booked seen)
    (credits : Number) (input output : Nat) :
    (t.takeMetering input output).Booked (seen ++ [Event.metering credits input output]) := by
  obtain ⟨metadata, tokens⟩ := booked
  have unreported : lastOf metadataCounts (seen ++ [Event.metering credits input output]) =
      lastOf metadataCounts seen := by
    rw [lastOf_concat]
    rfl
  simp only [takeMetering]
  by_cases takes : t.hasMetadata = false ∧ (input > 0 ∨ output > 0)
  · have first : lastOf metadataCounts seen = none := by simpa [takes.1] using metadata.symm
    rw [if_pos takes]
    exact
      { metadata := by rw [unreported]; exact metadata
        tokens := by
          simp only [resolved, unreported, first, lastOf_concat, meteringCounts, takes.2, if_true]
          rfl }
  · rw [if_neg takes]
    refine ⟨by rw [unreported]; exact metadata, ?_⟩
    rw [tokens, resolved, resolved, unreported]
    cases found : lastOf metadataCounts seen with
    -- Metadata has settled the counts.
    | some counts => rfl
    | none =>
      have zero : ¬ (input > 0 ∨ output > 0) := fun nonzero => takes ⟨by rw [metadata, found]; rfl, nonzero⟩
      simp only [lastOf_concat, meteringCounts, if_neg zero, Option.none_or]

theorem push_booked {seen : List Event} {t : ResponseTranslator} (booked : t.Booked seen)
    (running : ¬ (t.finished ∨ t.failure.isSome)) (ev : Event) : (t.push ev).1.Booked (seen ++ [ev]) := by
  have silent (blank : metadataCounts ev = none) (unmetered : meteringCounts ev = none) {after : ResponseTranslator}
      (same : after.counts = t.counts) : after.Booked (seen ++ [ev]) := by
    have kept := booked.of_counts same
    exact
      { metadata := by rw [lastOf_concat, blank]; exact kept.metadata
        tokens := by rw [resolved, lastOf_concat, lastOf_concat, blank, unmetered]; exact kept.tokens }
  cases ev with
  | metadata uncached output total cacheRead cacheWrite =>
    simp only [push, running, if_false]
    exact takeMetadata_booked booked uncached output total cacheRead cacheWrite
  | metering credits input output =>
    simp only [push, running, if_false]
    exact takeMetering_booked booked credits input output
  | assistantResponse content | reasoningContent text signature redacted | toolUse toolUseId name input
  | invalidState reason message | exception exceptionType message =>
    exact silent rfl rfl ((push_blind rfl).keeps t)
  | ignored eventType =>
    simp only [push, running, if_false]
    exact silent rfl rfl rfl

theorem runAll_push_ended {t : ResponseTranslator} (ended : t.finished ∨ t.failure.isSome) (events : List Event) :
    runAll call t (events.map .push) = (t, []) := by
  induction events with
  | nil => rfl
  | cons ev rest ih => simp [runAll_cons, call, push, ended, ih]

theorem processed_booked {seen : List Event} {t : ResponseTranslator} (booked : t.Booked seen) (events : List Event) :
    (runAll call t (events.map .push)).1.Booked (seen ++ processed t events) := by
  induction events generalizing seen t with
  | nil => simpa [processed] using booked
  | cons ev rest ih =>
    by_cases ended : t.finished ∨ t.failure.isSome
    · rw [runAll_push_ended ended, processed, if_pos ended, List.append_nil]
      exact booked
    · have later := ih (push_booked booked ended ev)
      simpa [processed, ended, runAll_cons, call] using later

theorem Booked.usage {seen : List Event} {t : ResponseTranslator} (booked : t.Booked seen) :
    (t.usage.inputTokens, t.usage.outputTokens) =
      (resolved seen).getD (t.opts.estimatedInputTokens, t.estimatedOutput) := by
  have tokens := booked.tokens
  cases found : resolved seen with
  | some counts =>
    rw [found] at tokens
    have nonzero := resolved_nonzero found
    rw [show counts = (t.inputTokens, t.outputTokens) from tokens.symm] at nonzero ⊢
    simp only [ResponseTranslator.usage, nonzero, if_true]
    rfl
  | none =>
    rw [found] at tokens
    obtain ⟨input, output⟩ := Prod.mk.inj tokens
    simp only [ResponseTranslator.usage, input, output]
    rfl

structure UsageAgrees (usage : Usage) (parts : UsageSnapshot) : Prop where
  input : usage.inputTokens = parts.reported.input + parts.estimated.input
  output : usage.outputTokens = parts.reported.output + parts.estimated.output
  cacheRead : usage.cacheReadInputTokens = parts.reported.cacheRead
  cacheWrite : usage.cacheCreationInputTokens = parts.reported.cacheWrite
  oneInput : parts.reported.input = 0 ∨ parts.estimated.input = 0
  oneOutput : parts.reported.output = 0 ∨ parts.estimated.output = 0

theorem usage_agrees (t : ResponseTranslator) : UsageAgrees t.usage t.usageSnapshot := by
  unfold usage usageSnapshot
  by_cases reported : t.inputTokens > 0 ∨ t.outputTokens > 0
  · simp only [reported, if_true]
    exact ⟨rfl, rfl, rfl, rfl, .inr rfl, .inr rfl⟩
  · simp only [reported, if_false]
    exact ⟨(Nat.zero_add _).symm, (Nat.zero_add _).symm, rfl, rfl, .inl rfl, .inl rfl⟩

theorem reply_usage (opts : ResponseOptions) (events : List Event) :
    ((reply opts events).1.usage.inputTokens, (reply opts events).1.usage.outputTokens) =
      (resolved (processed (new opts) events)).getD
        (opts.estimatedInputTokens, (reply opts events).1.estimatedOutput) := by
  have fresh : (new opts).Booked [] := ⟨rfl, rfl⟩
  have pushed := processed_booked fresh events
  have finished := pushed.of_counts (finish_blind.keeps _)
  have last : (reply opts events).1 = (runAll call (new opts) (events.map .push)).1.finish.1 := by
    simp [reply, toTheEnd, runAll_append, runAll_cons, call]
  rw [← last] at finished
  have options : (reply opts events).1.opts = opts := (run_sound (new_sound opts) _).options
  have resolves := finished.usage
  rw [options] at resolves
  exact resolves

theorem reply_ending (opts : ResponseOptions) (events : List Event) :
    (gathered (reply opts events).2).ending.map (·.2) = some (reply opts events).1.usage := by
  have folded := runAll_call_folded opts (toTheEnd events)
  have finished := finished_after_finish opts events []
  simp only [Folded, Ended, toTheEnd, finished, if_true] at folded
  simp only [reply, toTheEnd]
  rw [folded.2]
  rfl

/-- Reports change nothing but the usage, which takes metadata before metering before estimates. -/
theorem usage_resolved (opts : ResponseOptions) (events : List Event) :
    (∀ others, withoutReports others = withoutReports events →
        (reply opts others).2.map maskUsage = (reply opts events).2.map maskUsage) ∧
      (gathered (reply opts events).2).ending.map (·.2) = some (reply opts events).1.usage ∧
      ((reply opts events).1.usage.inputTokens, (reply opts events).1.usage.outputTokens) =
        (resolved (processed (new opts) events)).getD
          (opts.estimatedInputTokens,
            if (reply opts events).1.outputChars = 0 then 0 else max ((reply opts events).1.outputChars / 4) 1) ∧
      ∀ calls, UsageAgrees (runAll call (new opts) calls).1.usage (runAll call (new opts) calls).1.usageSnapshot := by
  refine ⟨?_, reply_ending opts events, reply_usage opts events, fun calls => usage_agrees _⟩
  intro others same
  have left := run_without_reports others (new opts).counts (new opts)
  have right := run_without_reports events (new opts).counts (new opts)
  rw [same] at left
  exact left.trans right.symm

theorem usage_resolved_sample :
    (reply ⟨[], [], [], 0, fun _ => none, 7⟩ [.metadata 3 2 5 0 0, .assistantResponse "a".toList]).2.map maskUsage =
      (reply ⟨[], [], [], 0, fun _ => none, 7⟩ [.assistantResponse "a".toList]).2.map maskUsage :=
  (usage_resolved ⟨[], [], [], 0, fun _ => none, 7⟩ [.assistantResponse "a".toList]).1 _ rfl

end ResponseTranslator

end KiroTrust.Translate
