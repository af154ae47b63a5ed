import KiroTrust.Translate.StreamShape

set_option autoImplicit false

namespace KiroTrust.Translate

open Emitter

/-! The non-streaming reply against the streamed one. -/

/-- What a client gathers from a stream; a tool's input goes to the tool block opened last. -/
structure Gathered where
  text : Str
  thinking : Str
  toolCalls : List ToolCall
  redacted : List Str
  signature : Option Str
  ending : Option (MessageDeltaBody × Usage)

def Gathered.empty : Gathered := ⟨[], [], [], [], none, none⟩

def addInput (partialJson : Str) : List ToolCall → List ToolCall
  | [] => []
  | [call] => [{ call with input := call.input ++ partialJson }]
  | call :: rest => call :: addInput partialJson rest

def gather (g : Gathered) : StreamEvent → Gathered
  | .contentBlockDelta _ (.textDelta text) => { g with text := g.text ++ text }
  | .contentBlockDelta _ (.thinkingDelta thinking) => { g with thinking := g.thinking ++ thinking }
  | .contentBlockDelta _ (.signatureDelta signature) => { g with signature := some signature }
  | .contentBlockDelta _ (.inputJsonDelta partialJson) =>
    { g with toolCalls := addInput partialJson g.toolCalls }
  | .contentBlockStart _ (.redactedThinking data) => { g with redacted := g.redacted ++ [data] }
  | .contentBlockStart _ (.toolUse id name _) => { g with toolCalls := g.toolCalls ++ [⟨id, name, []⟩] }
  | .messageDelta delta usage => { g with ending := some (delta, usage) }
  | _ => g

def gathered (events : List StreamEvent) : Gathered := events.foldl gather Gathered.empty

theorem gathered_append (left right : List StreamEvent) :
    gathered (left ++ right) = right.foldl gather (gathered left) := by
  simp [gathered]

theorem addInput_concat (partialJson : Str) (calls : List ToolCall) (id name input : Str) :
    addInput partialJson (calls ++ [⟨id, name, input⟩]) = calls ++ [⟨id, name, input ++ partialJson⟩] := by
  induction calls with
  | nil => rfl
  | cons first rest ih => cases rest <;> simp_all [addInput]

namespace ResponseTranslator

def Gathers (change : ResponseTranslator → ResponseTranslator × List StreamEvent)
    (added : Gathered → Gathered) : Prop :=
  ∀ t g, (change t).2.foldl gather g = added g

theorem Gathers.seq {first second : ResponseTranslator → ResponseTranslator × List StreamEvent}
    {before after : Gathered → Gathered} (front : Gathers first before) (back : Gathers second after) :
    Gathers (Emitter.seq first second) (after ∘ before) := by
  intro t g
  simp only [Emitter.seq, List.foldl_append, front t g, back _ (before g), Function.comp]

theorem ensureStarted_gathers : Gathers ensureStarted id := by
  intro t g
  by_cases started : t.started = true <;> simp [ensureStarted, started, gather]

theorem closeActive_gathers : Gathers closeActive id := by
  intro t g
  cases active : t.active <;> simp [closeActive, active, gather]

theorem openBlock_gathers (kind : Active) : Gathers (openBlock kind) id := by
  intro t g
  cases kind <;> rfl

theorem switchBlock_gathers (kind : Active) : Gathers (switchBlock kind) id := by
  intro t g
  by_cases same : t.active = some kind
  · simp [switchBlock, same]
  · simpa [switchBlock, same] using closeActive_gathers.seq (openBlock_gathers kind) t g

theorem visible_gathers : Gathers (quiet fun t => { t with visible := true }) id := fun _ _ => rfl

theorem emitText_gathers (text : Str) : Gathers (emitText text) fun g => { g with text := g.text ++ text } := by
  intro t g
  by_cases empty : text = []
  · simp [emitText, empty]
  · have delta : Gathers (emitDelta (.textDelta text)) fun g => { g with text := g.text ++ text } :=
      fun _ _ => rfl
    simpa [emitText, empty] using ensureStarted_gathers.seq
      (visible_gathers.seq ((switchBlock_gathers .text).seq delta)) t g

theorem emitThinking_gathers (thinking : Str) :
    Gathers (emitThinking thinking) fun g => { g with thinking := g.thinking ++ thinking } := by
  intro t g
  by_cases empty : thinking = []
  · simp [emitThinking, empty]
  · have delta : Gathers (emitDelta (.thinkingDelta thinking)) fun g =>
        { g with thinking := g.thinking ++ thinking } := fun _ _ => rfl
    simpa [emitThinking, empty] using ensureStarted_gathers.seq
      ((switchBlock_gathers .thinking).seq delta) t g

theorem deliverThinking_gathers (thought : Str) (t : ResponseTranslator) (g : Gathered) :
    (deliverThinking thought t).2.foldl gather g =
      { g with thinking := g.thinking ++ thought.take t.remaining } := by
  by_cases empty : thought = []
  · simp [deliverThinking, empty]
  · simp only [deliverThinking, empty, if_false, emitThinking_gathers _ _ g, takeThinking_eq]

theorem deliverText_gathers (textOut : Str) (t : ResponseTranslator) (g : Gathered) :
    (deliverText textOut t).2.foldl gather g = { g with text := g.text ++ t.textTaken textOut } := by
  by_cases empty : textOut = []
  · simp [deliverText, textTaken, empty]
  · simp only [deliverText, textTaken, empty, if_false, emitText_gathers _ _ g]

theorem deliverRedacted_gathers (data : Str) :
    Gathers (deliverRedacted data) fun g => { g with redacted := g.redacted ++ [data] } := by
  intro t g
  have block : Gathers (emitBlock (.redactedThinking data) []) fun g =>
      { g with redacted := g.redacted ++ [data] } := fun _ _ => rfl
  exact ensureStarted_gathers.seq (closeActive_gathers.seq block) _ g

theorem deliverToolUse_gathers (toolUseId name input : Str) (t : ResponseTranslator) (g : Gathered) :
    (deliverToolUse toolUseId name input t).2.foldl gather g =
      { g with toolCalls := g.toolCalls ++ [⟨toolUseId, (t.opts.toolNames name).getD name, input⟩] } := by
  let original := (t.opts.toolNames name).getD name
  have block : Gathers (emitBlock (.toolUse toolUseId original []) [.inputJsonDelta input]) fun g =>
      { g with toolCalls := g.toolCalls ++ [⟨toolUseId, original, input⟩] } := by
    intro t g
    simp [emitBlock, gather, addInput_concat]
  exact ensureStarted_gathers.seq (visible_gathers.seq (closeActive_gathers.seq block)) _ g

def Agrees (t : ResponseTranslator) (out : List StreamEvent) : Prop :=
  (gathered out).text = t.contents.text ∧ (gathered out).thinking = t.contents.thinking ∧
    (gathered out).toolCalls = t.contents.toolCalls ∧ (gathered out).redacted = t.contents.redacted

theorem quiet_agrees {change : ResponseTranslator → ResponseTranslator × List StreamEvent}
    (keeps : KeepsContent change) (shows : Gathers change id) : Preserves Agrees change := by
  intro t out agrees
  unfold Agrees
  rw [gathered_append, shows t, contents_of_content (keeps t)]
  exact agrees

theorem deliverThinking_agrees (thought : Str) : Preserves Agrees (deliverThinking thought) := by
  intro t out agrees
  obtain ⟨text, thinking, toolCalls, redacted⟩ := agrees
  unfold Agrees
  rw [gathered_append, deliverThinking_gathers, deliverThinking_contents]
  exact ⟨text, congrArg (· ++ _) thinking, toolCalls, redacted⟩

theorem deliverText_agrees (textOut : Str) : Preserves Agrees (deliverText textOut) := by
  intro t out agrees
  obtain ⟨text, thinking, toolCalls, redacted⟩ := agrees
  unfold Agrees
  rw [gathered_append, deliverText_gathers, deliverText_contents]
  exact ⟨congrArg (· ++ _) text, thinking, toolCalls, redacted⟩

theorem deliverRedacted_agrees (data : Str) : Preserves Agrees (deliverRedacted data) := by
  intro t out agrees
  obtain ⟨text, thinking, toolCalls, redacted⟩ := agrees
  unfold Agrees
  rw [gathered_append, deliverRedacted_gathers data t, deliverRedacted_contents]
  exact ⟨text, thinking, toolCalls, congrArg (· ++ _) redacted⟩

theorem deliverToolUse_agrees (toolUseId name input : Str) :
    Preserves Agrees (deliverToolUse toolUseId name input) := by
  intro t out agrees
  obtain ⟨text, thinking, toolCalls, redacted⟩ := agrees
  unfold Agrees
  rw [gathered_append, deliverToolUse_gathers, deliverToolUse_contents]
  exact ⟨text, thinking, congrArg (· ++ _) toolCalls, redacted⟩

theorem emitSignature_agrees (signature : Option Str) : Preserves Agrees (emitSignature signature) := by
  intro t out agrees
  cases signature with
  | none => simpa [emitSignature] using agrees
  | some sig =>
    by_cases thinking : t.active = some .thinking
    · simp only [emitSignature, thinking, if_true, emitDelta]
      unfold Agrees
      rw [gathered_append]
      exact agrees
    · simpa [emitSignature, thinking] using agrees

theorem begin_agrees : Preserves Agrees begin := by
  intro t out agrees
  have started := quiet_agrees ensureStarted_content ensureStarted_gathers { t with finished := true } out
  exact started agrees

theorem flushTag_agrees : Preserves Agrees flushTag := by
  intro t out agrees
  simp only [flushTag]
  split
  · exact deliverThinking_agrees _ _ out agrees
  · split
    · exact deliverText_agrees _ _ out agrees
    · rw [List.append_nil]
      exact agrees

theorem flushPending_gathers (t : ResponseTranslator) (g : Gathered) :
    (flushPending t).2.foldl gather g = { g with text := g.text ++ t.pendingTaken } := by
  simp only [flushPending, pendingTaken]
  by_cases flushes : t.stopPending ≠ [] ∧ t.localStop.isNone = true
  · rw [if_pos flushes, if_pos flushes, emitText_gathers, applyMaxTokens_eq]
    rfl
  · rw [if_neg flushes, if_neg flushes]
    simp

theorem flushPending_agrees : Preserves Agrees flushPending := by
  intro t out agrees
  obtain ⟨text, thinking, toolCalls, redacted⟩ := agrees
  unfold Agrees
  rw [gathered_append, flushPending_gathers, flushPending_contents]
  exact ⟨congrArg (· ++ _) text, thinking, toolCalls, redacted⟩

theorem finish_agrees {t : ResponseTranslator} {out : List StreamEvent} (running : t.finished = false)
    (agrees : t.Agrees out) :
    t.finish.1.Agrees (out ++ t.finish.2) ∧
      (gathered (out ++ t.finish.2)).ending =
        some (⟨t.finish.1.stopReason.1, t.finish.1.stopReason.2⟩, t.finish.1.usage) := by
  -- The ending reports the state as the flushes have left it.
  have closes : Triple Agrees closing fun t out =>
      t.Agrees out ∧ (gathered out).ending = some (⟨t.stopReason.1, t.stopReason.2⟩, t.usage) := by
    intro t out agrees
    simp only [closing, gathered_append, Agrees]
    exact ⟨agrees, rfl⟩
  have closed := quiet_agrees closeActive_content closeActive_gathers
  have finishes := begin_agrees.seq (flushTag_agrees.seq (flushPending_agrees.seq (closed.seq closes)))
  simp only [finish, running]
  exact finishes t out agrees

def Folded : ResponseTranslator → List StreamEvent → Prop :=
  Ended Agrees fun t out =>
    t.Agrees out ∧ (gathered out).ending = some (⟨t.stopReason.1, t.stopReason.2⟩, t.usage)

theorem folded_rules :
    PushRules (fun t out => t.finished = false ∧ t.Agrees out) (fun t out => t.finished = false ∧ t.Agrees out)
      Folded :=
  .ofParts (fun _ _ => Iff.rfl) (fun _ _ agrees => agrees) deliverThinking_agrees deliverText_agrees
    emitSignature_agrees deliverRedacted_agrees deliverToolUse_agrees (fun _ _ _ agrees => agrees)
    fun _ _ running agrees => finish_agrees running agrees

theorem runAll_call_folded (opts : ResponseOptions) (calls : List Call) :
    (runAll call (new opts) calls).1.Folded (runAll call (new opts) calls).2 :=
  Preserves.runAll (call_ended folded_rules) calls (new opts) [] ⟨rfl, rfl, rfl, rfl⟩

end ResponseTranslator

namespace ResponseTranslator

end ResponseTranslator

end KiroTrust.Translate
