import KiroTrust.Translate.Calls

set_option autoImplicit false

namespace KiroTrust.Translate

theorem firstMatch_nil (pending : Str) : firstMatch [] pending = none := rfl

theorem firstMatch_some {sequences : List Str} {pending : Str} {idx : Nat} {s : Str}
    (found : firstMatch sequences pending = some (idx, s)) :
    s ∈ sequences ∧ Search.find s pending = some idx := by
  obtain ⟨sequence, among, inside⟩ := List.exists_of_findSome?_eq_some found
  obtain ⟨index, first, same⟩ := Option.map_eq_some_iff.1 inside
  cases same
  exact ⟨among, first⟩

namespace ResponseTranslator

/-! What the stop filter does to a text. -/

def released (t : ResponseTranslator) (textOut : Str) : Str :=
  if t.stopSequences = [] then textOut else (t.stopPending ++ textOut).take (t.releasable textOut)

def heldBack (t : ResponseTranslator) (textOut : Str) : Str :=
  if t.stopSequences = [] then t.stopPending else (t.stopPending ++ textOut).drop (t.releasable textOut)

def matched (t : ResponseTranslator) (textOut : Str) : Option (Nat × Str) :=
  firstMatch t.stopSequences (t.stopPending ++ textOut)

theorem hit_or_clear (t : ResponseTranslator) (text : Str) :
    (text ≠ [] ∧ ∃ idx s, t.matched text = some (idx, s)) ∨ (text ≠ [] → t.matched text = none) := by
  cases found : t.matched text with
  | none => exact .inr fun _ => rfl
  | some hit =>
    by_cases empty : text = []
    · exact .inr fun nonempty => absurd empty nonempty
    · exact .inl ⟨empty, hit.1, hit.2, rfl⟩

theorem filterText_found {t : ResponseTranslator} {textOut : Str} {idx : Nat} {s : Str}
    (found : t.matched textOut = some (idx, s)) :
    t.filterText textOut =
      ({ t with
          stopPending := []
          localStop := t.localStop.or (some (.stopSequence, some s)) }, (t.stopPending ++ textOut).take idx) := by
  have configured : t.stopSequences ≠ [] := by
    intro noStops
    simp [matched, noStops, firstMatch_nil] at found
  unfold matched at found
  simp [filterText, configured, applyStopFilter_eq, found]

theorem filterText_clear {t : ResponseTranslator} {textOut : Str} (clear : t.matched textOut = none) :
    t.filterText textOut = ({ t with stopPending := t.heldBack textOut }, t.released textOut) := by
  unfold matched at clear
  by_cases noStops : t.stopSequences = []
  · rw [filterText, if_neg (by simp [noStops]), heldBack, released, if_pos noStops, if_pos noStops]
  · simp [filterText, noStops, heldBack, released, applyStopFilter_eq, clear]

theorem deliverText_found {t : ResponseTranslator} {textOut : Str} {idx : Nat} {s : Str}
    (running : t.localStop = none) (nonempty : textOut ≠ []) (found : t.matched textOut = some (idx, s)) :
    (deliverText textOut t).1.content =
      { t.content with
        stopPending := []
        localStop := some (.stopSequence, some s)
        text := t.text ++ (t.stopPending ++ textOut).take idx } := by
  rw [deliverText_content, if_neg nonempty, takeText, filterText_found found]
  simp [budgetText, running, content]

theorem deliverText_clear {t : ResponseTranslator} {textOut : Str}
    (running : t.localStop = none) (nonempty : textOut ≠ []) (clear : t.matched textOut = none) :
    (deliverText textOut t).1.content =
      { t.content with
        stopPending := t.heldBack textOut
        outputChars := t.outputChars + min (t.released textOut).length t.remaining
        localStop :=
          if t.released textOut ≠ [] ∧ t.Reaches (t.released textOut).length then withMaxTokens none else none
        text := t.text ++ (t.released textOut).take t.remaining } := by
  rw [deliverText_content, if_neg nonempty, takeText, filterText_clear clear]
  by_cases nothing : t.released textOut = []
  · simp [budgetText, running, nothing, content]
  · simp [budgetText, running, nothing, content, applyMaxTokens_eq, remaining, Reaches, effectiveMaxTokens]

theorem deliverText_stopped {t : ResponseTranslator} {textOut : Str}
    (latched : t.localStop.isSome = true) (nonempty : textOut ≠ []) :
    (deliverText textOut t).1.content =
      { t.content with
        stopPending := (t.filterText textOut).1.stopPending
        text := t.text ++ (t.filterText textOut).2 } := by
  -- The filter still lets text out, and nothing counts it.
  obtain ⟨stop, same⟩ := Option.isSome_iff_exists.1 latched
  rw [deliverText_content, if_neg nonempty, takeText]
  cases found : t.matched textOut with
  | none => simp [filterText_clear found, budgetText, same, content]
  | some hit => simp [filterText_found found, budgetText, same, content]

theorem textTaken_of_text {t : ResponseTranslator} {textOut shown : Str}
    (same : (deliverText textOut t).1.text = t.text ++ shown) : t.textTaken textOut = shown := by
  have taken := congrArg Contents.text (deliverText_contents textOut t)
  exact List.append_cancel_left (taken.symm.trans same)

theorem textTaken_found {t : ResponseTranslator} {textOut : Str} {idx : Nat} {s : Str}
    (running : t.localStop = none) (nonempty : textOut ≠ []) (found : t.matched textOut = some (idx, s)) :
    t.textTaken textOut = (t.stopPending ++ textOut).take idx :=
  textTaken_of_text (congrArg text (deliverText_found running nonempty found) :)

theorem textTaken_clear {t : ResponseTranslator} {textOut : Str}
    (running : t.localStop = none) (nonempty : textOut ≠ []) (clear : t.matched textOut = none) :
    t.textTaken textOut = (t.released textOut).take t.remaining :=
  textTaken_of_text (congrArg text (deliverText_clear running nonempty clear) :)

theorem textTaken_stopped {t : ResponseTranslator} {textOut : Str}
    (latched : t.localStop.isSome = true) (nonempty : textOut ≠ []) :
    t.textTaken textOut = (t.filterText textOut).2 :=
  textTaken_of_text (congrArg text (deliverText_stopped latched nonempty) :)

theorem deliverText_latched {t : ResponseTranslator} (text : Str) (latched : t.localStop.isSome = true) :
    (deliverText text t).1.localStop = t.localStop ∧ (deliverText text t).1.outputChars = t.outputChars := by
  by_cases empty : text = []
  · simp [deliverText, empty]
  · have limits := deliverText_stopped latched empty
    exact ⟨(congrArg localStop limits :), (congrArg outputChars limits :)⟩

def filtered (t : ResponseTranslator) (textOut : Str) : Str :=
  if textOut = [] then []
  else
    match t.matched textOut with
    | some (idx, _) => (t.stopPending ++ textOut).take idx
    | none => t.released textOut

theorem textTaken_latched {t : ResponseTranslator} {textOut : Str} (latched : t.localStop.isSome = true) :
    t.textTaken textOut = t.filtered textOut := by
  by_cases empty : textOut = []
  · simp [textTaken, filtered, empty]
  · rw [textTaken_stopped latched empty, filtered, if_neg empty]
    cases found : t.matched textOut with
    | none => rw [filterText_clear found]
    | some hit => rw [filterText_found found]

/-! The flushes of `finish` after a stop. -/

theorem withMaxTokens_some (localStop : Option (StopReason × Option Str)) :
    withMaxTokens localStop ≠ none := by
  cases localStop <;> simp [withMaxTokens]

theorem withMaxTokens_latched {localStop : Option (StopReason × Option Str)} (latched : localStop.isSome = true) :
    withMaxTokens localStop = localStop := by
  obtain ⟨stop, same⟩ := Option.isSome_iff_exists.1 latched
  simp [withMaxTokens, same]

theorem finish_content {t : ResponseTranslator} (running : t.finished = false) :
    t.finish.1.content = (flushPending (flushTag t.begin.1).1).1.content := by
  have ends := closeActive_content.seq closing_content
  simp only [finish, running, Bool.false_eq_true, if_false]
  exact ends (flushPending (flushTag t.begin.1).1).1

theorem flushTag_latched {t : ResponseTranslator} (latched : t.localStop.isSome = true) :
    t.flushTag.1.localStop = t.localStop ∧ t.flushTag.1.text = t.text := by
  by_cases inside : t.tagInside = true
  · have flushes : t.flushTag = deliverThinking t.tagBuf { t with tagBuf := [] } := if_pos inside
    have limits := deliverThinking_limits t.tagBuf { t with tagBuf := [] }
    rw [flushes]
    refine ⟨?_, (congrArg text limits :)⟩
    have stop := congrArg localStop limits
    rw [withMaxTokens_latched latched, ite_self] at stop
    exact stop
  · have stopped : t.localStop ≠ none := Option.isSome_iff_ne_none.1 latched
    simp [flushTag, inside, stopped]

theorem flushPending_latched {t : ResponseTranslator} (latched : t.localStop.isSome = true) :
    t.flushPending = ({ t with stopPending := [] }, []) := by
  obtain ⟨stop, same⟩ := Option.isSome_iff_exists.1 latched
  simp [flushPending, same]

theorem finish_latched {t : ResponseTranslator} (latched : t.localStop.isSome = true) :
    t.finish.1.localStop = t.localStop ∧ t.finish.1.text = t.text := by
  cases running : t.finished with
  | true => simp [finish, running]
  | false =>
    have begun := begin_content t
    have stop : t.begin.1.localStop = t.localStop := (congrArg localStop begun :)
    have shown : t.begin.1.text = t.text := (congrArg text begun :)
    have flushed := flushTag_latched (stop ▸ latched)
    have ended := finish_content running
    rw [flushPending_latched (by rw [flushed.1, stop]; exact latched)] at ended
    exact ⟨(congrArg localStop ended :).trans (flushed.1.trans stop),
      (congrArg text ended :).trans (flushed.2.trans shown)⟩

theorem push_finished {t : ResponseTranslator} (unfinished : t.finished = false) (ev : Event)
    (finished : (t.push ev).1.finished = true) : (t.push ev).1.localStop.isSome = true := by
  obtain ⟨failure, -, pushed⟩ | same | ⟨parts, start, keeps, same, pushed⟩ := push_cases t ev
  · rw [pushed] at finished
    simp [unfinished] at finished
  · have kept : (t.push ev).1.finished = t.finished := (congrArg Flags.finished same :)
    simp [kept, unfinished] at finished
  · have kept := keeps.finished start
    have started : start.finished = t.finished := (congrArg Flags.finished same :)
    rw [pushed] at finished ⊢
    simp only [Emitter.seq, finishIfStopped] at finished ⊢
    by_cases latched : (parts start).1.localStop.isSome = true
    · simp only [latched, if_true, (finish_latched latched).1]
    · simp [latched, kept, started, unfinished] at finished

theorem ensureStarted_started (t : ResponseTranslator) : (ensureStarted t).1.started = true := by
  cases started : t.started <;> simp [ensureStarted, started]

theorem closeActive_started (t : ResponseTranslator) : (closeActive t).1.started = t.started := by
  cases active : t.active <;> simp [closeActive, active]

theorem switchBlock_started (kind : Active) (t : ResponseTranslator) :
    (switchBlock kind t).1.started = t.started := by
  by_cases same : t.active = some kind
  · simp [switchBlock, same]
  · simp [switchBlock, same, Emitter.seq, openBlock, closeActive_started]

theorem emitText_started (text : Str) (t : ResponseTranslator) :
    (emitText text t).1.started = true ↔ t.started = true ∨ text ≠ [] := by
  by_cases empty : text = []
  · simp [emitText, empty]
  · simp [emitText, empty, Emitter.seq, Emitter.quiet, emitDelta, switchBlock_started, ensureStarted_started]

theorem emitThinking_started (thinking : Str) (t : ResponseTranslator) :
    (emitThinking thinking t).1.started = true ↔ t.started = true ∨ thinking ≠ [] := by
  by_cases empty : thinking = []
  · simp [emitThinking, empty]
  · simp [emitThinking, empty, Emitter.seq, emitDelta, switchBlock_started, ensureStarted_started]

theorem deliverThinking_started (thought : Str) (t : ResponseTranslator) :
    (deliverThinking thought t).1.started = true ↔ t.started = true ∨ thought.take t.remaining ≠ [] := by
  by_cases empty : thought = []
  · simp [deliverThinking, empty]
  · simp only [deliverThinking, empty, if_false, emitThinking_started, takeThinking_eq]

theorem deliverText_started (textOut : Str) (t : ResponseTranslator) :
    (deliverText textOut t).1.started = true ↔ t.started = true ∨ t.textTaken textOut ≠ [] := by
  have same : (t.takeText textOut).1.started = t.started := congrArg Emission.started (takeText_emission t textOut)
  by_cases empty : textOut = []
  · simp [deliverText, textTaken, empty]
  · simp only [deliverText, textTaken, empty, if_false, emitText_started, same]

theorem deliverRedacted_started (data : Str) (t : ResponseTranslator) :
    (deliverRedacted data t).1.started = true := by
  simp [deliverRedacted, Emitter.seq, emitBlock, closeActive_started, ensureStarted_started]

theorem deliverToolUse_started (toolUseId name input : Str) (t : ResponseTranslator) :
    (deliverToolUse toolUseId name input t).1.started = true := by
  simp [deliverToolUse, Emitter.seq, Emitter.quiet, emitBlock, closeActive_started, ensureStarted_started]

theorem switchBlock_active (kind : Active) (t : ResponseTranslator) :
    (switchBlock kind t).1.active = some kind := by
  by_cases same : t.active = some kind
  · simp [switchBlock, same]
  · simp [switchBlock, same, Emitter.seq, openBlock]

theorem deliverThinking_active {thought : Str} {t : ResponseTranslator}
    (delivers : thought.take t.remaining ≠ []) :
    (deliverThinking thought t).1.active = some .thinking := by
  have nonempty : thought ≠ [] := by
    intro empty
    simp [empty] at delivers
  simp only [deliverThinking, nonempty, if_false, takeThinking_eq, emitThinking, delivers]
  exact switchBlock_active _ _

def WithinBudget (t : ResponseTranslator) : Prop :=
  t.localStop = none → t.outputChars < t.effectiveMaxTokens * 4

theorem counted_withinBudget {t : ResponseTranslator} (within : t.WithinBudget) {count most : Nat}
    (atMost : count ≤ most) {latches : Prop} [Decidable latches] (latch : ¬ latches → most = 0 ∨ ¬ t.Reaches most)
    (running : (if latches then withMaxTokens t.localStop else t.localStop) = none) :
    t.outputChars + count < t.effectiveMaxTokens * 4 := by
  by_cases latched : latches
  · simp [latched, withMaxTokens_some] at running
  · rw [if_neg latched] at running
    have left := within running
    have room := latch latched
    rw [reaches_iff] at room
    omega

theorem deliverThinking_withinBudget (thought : Str) {t : ResponseTranslator} (within : t.WithinBudget) :
    (deliverThinking thought t).1.WithinBudget := by
  change (deliverThinking thought t).1.content.WithinBudget
  rw [deliverThinking_limits]
  apply counted_withinBudget within (Nat.min_le_left _ _)
  intro latched
  by_cases empty : thought = [] <;> simp_all

theorem deliverText_withinBudget (textOut : Str) {t : ResponseTranslator} (within : t.WithinBudget) :
    (deliverText textOut t).1.WithinBudget := by
  by_cases empty : textOut = []
  · simpa [deliverText, empty] using within
  · change (deliverText textOut t).1.content.WithinBudget
    cases running : t.localStop with
    | some stop =>
      have latched : t.localStop.isSome = true := by simp [running]
      rw [deliverText_stopped latched empty]
      exact within
    | none =>
      cases found : t.matched textOut with
      | some hit =>
        rw [deliverText_found running empty found]
        intro none
        cases none
      | none =>
        rw [deliverText_clear running empty found, ← running]
        apply counted_withinBudget within (Nat.min_le_left _ _)
        intro latched
        by_cases nothing : t.released textOut = [] <;> simp_all

theorem deliverRedacted_withinBudget (data : Str) {t : ResponseTranslator} (within : t.WithinBudget) :
    (deliverRedacted data t).1.WithinBudget := by
  change (deliverRedacted data t).1.content.WithinBudget
  rw [deliverRedacted_limits]
  exact counted_withinBudget within (Nat.le_refl _) .inr

theorem deliverToolUse_withinBudget (toolUseId name input : Str) {t : ResponseTranslator}
    (within : t.WithinBudget) : (deliverToolUse toolUseId name input t).1.WithinBudget := by
  change (deliverToolUse toolUseId name input t).1.content.WithinBudget
  rw [deliverToolUse_limits]
  exact counted_withinBudget within (Nat.le_refl _) .inr

def Open (t : ResponseTranslator) : Prop :=
  t.localStop = none ∧ t.outputChars < t.effectiveMaxTokens * 4

def Limited (t : ResponseTranslator) : Prop := t.finished = false → t.Open

theorem new_open (opts : ResponseOptions) : (new opts).Open := by
  have positive := (new opts).effectiveMaxTokens_pos
  have fresh : (new opts).outputChars = 0 := rfl
  refine ⟨rfl, ?_⟩
  omega

theorem parseTags_open {t : ResponseTranslator} (opened : t.Open) (content : Str) :
    (t.parseTags content).1.Open := by
  rw [parseTags_eq]
  exact opened

theorem parseTags_finished (t : ResponseTranslator) (content : Str) :
    (t.parseTags content).1.finished = t.finished := by
  rw [parseTags_eq]

theorem call_limited {t : ResponseTranslator} (limited : t.Limited) (input : Call) : (t.call input).1.Limited :=
  call_running (fun _ => Iff.rfl) (fun _ opened _ => opened.2) deliverThinking_withinBudget
    deliverText_withinBudget deliverRedacted_withinBudget deliverToolUse_withinBudget
    (fun _ running within => ⟨running, within running⟩) limited input

theorem remaining_pos {t : ResponseTranslator} (opened : t.Open) : 0 < t.remaining := by
  have left := opened.2
  unfold remaining
  omega

theorem take_remaining {t : ResponseTranslator} (opened : t.Open) (text : Str) :
    text.take t.remaining = [] ↔ text = [] := by
  have positive : t.remaining ≠ 0 := Nat.pos_iff_ne_zero.1 (remaining_pos opened)
  simp [List.take_eq_nil_iff, positive]

theorem take_unreached {t : ResponseTranslator} {text : Str} (short : ¬ t.Reaches text.length) :
    text.take t.remaining = text := by
  rw [reaches_iff] at short
  apply List.take_of_length_le
  unfold remaining
  omega

theorem spent_of_count {t after : ResponseTranslator} {count : Nat} {latches : Prop} [Decidable latches]
    (running : t.localStop = none) (reaches : latches → t.Reaches count)
    (budget : after.effectiveMaxTokens = t.effectiveMaxTokens)
    (counted : t.outputChars + min count t.remaining ≤ after.outputChars)
    (stop : after.localStop = if latches then withMaxTokens t.localStop else t.localStop)
    (latched : after.localStop.isSome = true) : after.remaining = 0 := by
  have reached : t.Reaches count := by
    by_contra short
    have runs : ¬ latches := fun latch => short (reaches latch)
    simp [stop, runs, running] at latched
  rw [reaches_iff] at reached
  rw [remaining, budget]
  unfold remaining at counted
  omega

theorem deliverThinking_stop (thought : Str) (t : ResponseTranslator) :
    (deliverThinking thought t).1.localStop =
      if thought ≠ [] ∧ t.Reaches thought.length then withMaxTokens t.localStop else t.localStop :=
  (congrArg localStop (deliverThinking_limits thought t) :)

theorem deliverThinking_used (thought : Str) (t : ResponseTranslator) :
    (deliverThinking thought t).1.outputChars = t.outputChars + min thought.length t.remaining :=
  (congrArg outputChars (deliverThinking_limits thought t) :)

theorem deliverThinking_spent {t : ResponseTranslator} {thought : Str} (running : t.localStop = none)
    (latched : (deliverThinking thought t).1.localStop.isSome = true) :
    (deliverThinking thought t).1.remaining = 0 :=
  spent_of_count running And.right ((deliverThinking_frame thought).effectiveMaxTokens t)
    (deliverThinking_used thought t).ge (deliverThinking_stop thought t) latched

theorem deliverThinking_latched {t : ResponseTranslator} {thought : Str} (running : t.localStop = none)
    (reached : thought ≠ [] ∧ t.Reaches thought.length) :
    (deliverThinking thought t).1.localStop = some (.maxTokens, none) := by
  rw [deliverThinking_stop, if_pos reached, running]
  rfl

theorem deliverThinking_open {t : ResponseTranslator} {thought : Str} (opened : t.Open)
    (short : ¬ (thought ≠ [] ∧ t.Reaches thought.length)) : (deliverThinking thought t).1.Open := by
  have running : (deliverThinking thought t).1.localStop = none := by
    rw [deliverThinking_stop, if_neg short, opened.1]
  exact ⟨running, deliverThinking_withinBudget thought (fun _ => opened.2) running⟩

theorem deliverText_spent {t : ResponseTranslator} {text : Str} (running : t.localStop = none)
    (clear : text ≠ [] → t.matched text = none)
    (latched : (deliverText text t).1.localStop.isSome = true) : (deliverText text t).1.remaining = 0 := by
  by_cases empty : text = []
  · simp [deliverText, empty, running] at latched
  · have limits := deliverText_clear running empty (clear empty)
    have used : (deliverText text t).1.outputChars = _ := (congrArg outputChars limits :)
    have stop : (deliverText text t).1.localStop = _ := (congrArg localStop limits :)
    rw [← running] at stop
    exact spent_of_count running And.right ((deliverText_frame text).effectiveMaxTokens t) used.ge stop latched

theorem textTaken_of_latched {t : ResponseTranslator} {text : Str} (opened : t.Open)
    (clear : text ≠ [] → t.matched text = none)
    (latched : (deliverText text t).1.localStop.isSome = true) : t.textTaken text ≠ [] := by
  by_cases empty : text = []
  · simp [deliverText, empty, opened.1] at latched
  · have stop : (deliverText text t).1.localStop = _ :=
      (congrArg localStop (deliverText_clear opened.1 empty (clear empty)) :)
    rw [textTaken_clear opened.1 empty (clear empty), Ne, take_remaining opened]
    intro nothing
    simp [stop, nothing] at latched

theorem deliverText_still_spent {t : ResponseTranslator} (text : Str) (latched : t.localStop.isSome = true)
    (spent : t.remaining = 0) : (deliverText text t).1.remaining = 0 := by
  have kept := (deliverText_latched text latched).2
  rwa [remaining, (deliverText_frame text).effectiveMaxTokens, kept]

end ResponseTranslator

end KiroTrust.Translate
