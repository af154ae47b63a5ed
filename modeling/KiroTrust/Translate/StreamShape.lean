import KiroTrust.Translate.Calls

set_option autoImplicit false

namespace KiroTrust.Translate

/-! The form of an Anthropic message stream. -/

def fitsBlock : Delta → BlockStart → Bool
  | .textDelta _, .text _ => true
  | .thinkingDelta _, .thinking _ _ => true
  | .signatureDelta _, .thinking _ _ => true
  | .inputJsonDelta _, .toolUse _ _ _ => true
  | _, _ => false

structure Block where
  start : BlockStart
  deltas : List Delta
  fits : ∀ delta ∈ deltas, fitsBlock delta start = true

def opening (number : Nat) (start : BlockStart) (deltas : List Delta) : List StreamEvent :=
  .contentBlockStart number start :: deltas.map (.contentBlockDelta number)

def Block.render (number : Nat) (block : Block) : List StreamEvent :=
  opening number block.start block.deltas ++ [.contentBlockStop number]

def renderBlocks (number : Nat → Nat) : Nat → List Block → List StreamEvent
  | _, [] => []
  | first, block :: rest => block.render (number first) ++ renderBlocks number (first + 1) rest

def WellFormed (events : List StreamEvent) : Prop :=
  ∃ message blocks delta usage,
    events = .messageStart message :: renderBlocks id 0 blocks ++ [.messageDelta delta usage, .messageStop]

def isBlockStart : StreamEvent → Bool
  | .contentBlockStart _ _ => true
  | _ => false

def startedBlocks (events : List StreamEvent) : Nat := events.countP isBlockStart

theorem renderBlocks_concat (number : Nat → Nat) (first : Nat) (blocks : List Block) (block : Block) :
    renderBlocks number first (blocks ++ [block]) =
      renderBlocks number first blocks ++ block.render (number (first + blocks.length)) := by
  induction blocks generalizing first with
  | nil => simp [renderBlocks]
  | cons head rest ih =>
    have later : first + 1 + rest.length = first + (head :: rest).length := by
      simp only [List.length_cons]
      omega
    simp only [List.cons_append, renderBlocks, ih, later, List.append_assoc]

theorem startedBlocks_renderBlocks (number : Nat → Nat) (first : Nat) (blocks : List Block) :
    startedBlocks (renderBlocks number first blocks) = blocks.length := by
  induction blocks generalizing first with
  | nil => rfl
  | cons block rest ih =>
    have one : startedBlocks (block.render (number first)) = 1 := by
      simp [startedBlocks, Block.render, opening, List.countP_cons, List.countP_map, isBlockStart,
        Function.comp_def]
    have later := ih (first + 1)
    simp only [renderBlocks, startedBlocks, List.countP_append, List.length_cons] at *
    omega

/-- What `as u32` makes of a block number. -/
def wrap (number : Nat) : Nat := number % 2 ^ 32

theorem renderBlocks_unwrapped (first : Nat) (blocks : List Block) (few : first + blocks.length ≤ 2 ^ 32) :
    renderBlocks wrap first blocks = renderBlocks id first blocks := by
  induction blocks generalizing first with
  | nil => rfl
  | cons block rest ih =>
    rw [List.length_cons] at few
    have small : wrap first = first := Nat.mod_eq_of_lt (by omega)
    simp only [renderBlocks, ih (first + 1) (by omega), small, id]

def activeStart : Active → BlockStart
  | .text => .text []
  | .thinking => .thinking [] none

namespace ResponseTranslator

open Emitter

theorem index_eq {t : ResponseTranslator} {number : Nat} (same : t.blockIndex = number) :
    t.index = wrap number := by
  rw [index, same, wrap]
  omega

def Idle (t : ResponseTranslator) (out : List StreamEvent) : Prop :=
  t.emission = ⟨false, -1, none⟩ ∧ out = []

def Between (t : ResponseTranslator) (out : List StreamEvent) : Prop :=
  ∃ message blocks, t.emission = ⟨true, (blocks.length : Int) - 1, none⟩ ∧
    out = .messageStart message :: renderBlocks wrap 0 blocks

def Inside (kind : Active) (t : ResponseTranslator) (out : List StreamEvent) : Prop :=
  ∃ message blocks deltas, t.emission = ⟨true, blocks.length, some kind⟩ ∧
    (∀ delta ∈ deltas, fitsBlock delta (activeStart kind) = true) ∧
    out = .messageStart message :: renderBlocks wrap 0 blocks ++
      opening (wrap blocks.length) (activeStart kind) deltas

def Begun (t : ResponseTranslator) (out : List StreamEvent) : Prop :=
  t.Between out ∨ ∃ kind, Inside kind t out

def Shape (t : ResponseTranslator) (out : List StreamEvent) : Prop :=
  t.Idle out ∨ t.Begun out

theorem emission_iff {t : ResponseTranslator} {started : Bool} {blockIndex : Int} {active : Option Active} :
    t.emission = ⟨started, blockIndex, active⟩ ↔
      t.started = started ∧ t.blockIndex = blockIndex ∧ t.active = active := by
  simp [ResponseTranslator.emission]

theorem Idle.inactive {t : ResponseTranslator} {out : List StreamEvent} (idle : t.Idle out) : t.active = none :=
  (emission_iff.1 idle.1).2.2

theorem Between.inactive {t : ResponseTranslator} {out : List StreamEvent} (between : t.Between out) :
    t.active = none := by
  obtain ⟨_, _, emission, _⟩ := between
  exact (emission_iff.1 emission).2.2

theorem Inside.active {kind : Active} {t : ResponseTranslator} {out : List StreamEvent} (inside : Inside kind t out) :
    t.active = some kind := by
  obtain ⟨_, _, _, emission, _⟩ := inside
  exact (emission_iff.1 emission).2.2

theorem Begun.started {t : ResponseTranslator} {out : List StreamEvent} (begun : t.Begun out) :
    t.started = true := by
  cases begun with
  | inl between =>
    obtain ⟨_, _, emission, _⟩ := between
    exact (emission_iff.1 emission).1
  | inr inside =>
    obtain ⟨_, _, _, _, emission, _⟩ := inside
    exact (emission_iff.1 emission).1

theorem ensureStarted_begins : Triple Shape ensureStarted Begun := by
  intro t out shape
  cases shape with
  | inl idle =>
    obtain ⟨emission, nothing⟩ := idle
    obtain ⟨fresh, index, active⟩ := emission_iff.1 emission
    simp only [ensureStarted, fresh, nothing]
    exact .inl ⟨_, [], emission_iff.2 ⟨rfl, by simp [index], active⟩, rfl⟩
  | inr begun =>
    have started := Begun.started begun
    simpa [ensureStarted, started] using begun

theorem closeActive_closes : Triple Begun closeActive Between := by
  intro t out begun
  cases begun with
  | inl between =>
    simpa [closeActive, between.inactive] using between
  | inr inside =>
    obtain ⟨kind, message, blocks, deltas, emission, fits, emitted⟩ := inside
    obtain ⟨started, index, active⟩ := emission_iff.1 emission
    -- The open block becomes the last of the whole ones.
    have closed : renderBlocks wrap 0 (blocks ++ [⟨activeStart kind, deltas, fits⟩]) =
        renderBlocks wrap 0 blocks ++ opening (wrap blocks.length) (activeStart kind) deltas ++
          [.contentBlockStop (wrap blocks.length)] := by
      simp [renderBlocks_concat, Block.render]
    simp only [closeActive, active, index_eq index, emitted]
    refine ⟨message, blocks ++ [⟨activeStart kind, deltas, fits⟩], ?_, ?_⟩
    · simp [emission_iff, started, index]
    · simp [closed]

theorem openBlock_opens (kind : Active) : Triple Between (openBlock kind) (Inside kind) := by
  intro t out between
  obtain ⟨message, blocks, emission, emitted⟩ := between
  obtain ⟨started, index, -⟩ := emission_iff.1 emission
  have next : t.blockIndex + 1 = blocks.length := by omega
  refine ⟨message, blocks, [], ?_, by simp, ?_⟩
  · simp [openBlock, emission_iff, started, next]
  · have number : ({ t with blockIndex := t.blockIndex + 1, active := some kind } : ResponseTranslator).index =
        wrap blocks.length := index_eq next
    cases kind <;> simp [openBlock, number, emitted, opening, activeStart]

theorem switchBlock_switches (kind : Active) : Triple Begun (switchBlock kind) (Inside kind) := by
  intro t out begun
  by_cases same : t.active = some kind
  · cases begun with
    | inl between => simp [between.inactive] at same
    | inr inside =>
      obtain ⟨other, inside⟩ := inside
      obtain rfl : other = kind := by simpa [inside.active] using same
      simpa [switchBlock, same] using inside
  · -- Another block, or none, is open: it is closed first.
    have switched := closeActive_closes.seq (openBlock_opens kind) t out begun
    simpa [switchBlock, same] using switched

theorem emitDelta_fits (kind : Active) (delta : Delta) (fits : fitsBlock delta (activeStart kind) = true) :
    Triple (Inside kind) (emitDelta delta) (Inside kind) := by
  intro t out inside
  obtain ⟨message, blocks, deltas, emission, earlier, emitted⟩ := inside
  obtain ⟨-, index, -⟩ := emission_iff.1 emission
  refine ⟨message, blocks, deltas ++ [delta], emission, ?_, ?_⟩
  · intro other among
    cases List.mem_append.1 among with
    | inl before => exact earlier other before
    | inr last => rwa [List.mem_singleton.1 last]
  · simp [emitDelta, index_eq index, emitted, opening]

theorem emitBlock_between (block : Block) : Triple Between (emitBlock block.start block.deltas) Between := by
  intro t out between
  obtain ⟨message, blocks, emission, emitted⟩ := between
  obtain ⟨started, index, active⟩ := emission_iff.1 emission
  have next : t.blockIndex + 1 = blocks.length := by omega
  have number : ({ t with blockIndex := t.blockIndex + 1 } : ResponseTranslator).index =
      wrap blocks.length := index_eq next
  refine ⟨message, blocks ++ [block], ?_, ?_⟩
  · simp [emitBlock, emission_iff, started, active, next]
  · simp [emitBlock, number, emitted, renderBlocks_concat, Block.render, opening]

theorem Begun.emitted {t : ResponseTranslator} {out : List StreamEvent} (begun : t.Begun out) : out ≠ [] := by
  cases begun with
  | inl between =>
    obtain ⟨_, _, _, rfl⟩ := between
    simp
  | inr inside =>
    obtain ⟨_, _, _, _, _, _, rfl⟩ := inside
    simp

theorem Shape.begun {t : ResponseTranslator} {out : List StreamEvent} (shape : t.Shape out)
    (emitted : out ≠ []) : t.Begun out := by
  cases shape with
  | inl idle => exact (emitted idle.2).elim
  | inr begun => exact begun

theorem Shape.started_iff {t : ResponseTranslator} {out : List StreamEvent} (shape : t.Shape out) :
    t.started = true ↔ out ≠ [] := by
  cases shape with
  | inl idle =>
    obtain ⟨emission, rfl⟩ := idle
    simp [(emission_iff.1 emission).1]
  | inr begun => simp [Begun.started begun, begun.emitted]

theorem begun_of_shape {change : ResponseTranslator → ResponseTranslator × List StreamEvent}
    (keeps : Preserves Shape change) : Preserves Begun change := by
  intro t out begun
  apply (keeps t out (.inr begun)).begun
  simp [begun.emitted]

theorem visible_begun : Triple Begun (quiet fun t => { t with visible := true }) Begun :=
  Triple.quiet fun _ _ begun => begun

theorem emitText_shape (text : Str) : Preserves Shape (emitText text) := by
  intro t out shape
  by_cases empty : text = []
  · simpa [emitText, empty] using shape
  · have emitted := ensureStarted_begins.seq (visible_begun.seq ((switchBlock_switches .text).seq
      (emitDelta_fits .text (.textDelta text) rfl))) t out shape
    simp only [emitText, empty, if_false]
    exact .inr (.inr ⟨.text, emitted⟩)

theorem emitThinking_shape (thinking : Str) : Preserves Shape (emitThinking thinking) := by
  intro t out shape
  by_cases empty : thinking = []
  · simpa [emitThinking, empty] using shape
  · have emitted := ensureStarted_begins.seq ((switchBlock_switches .thinking).seq
      (emitDelta_fits .thinking (.thinkingDelta thinking) rfl)) t out shape
    simp only [emitThinking, empty, if_false]
    exact .inr (.inr ⟨.thinking, emitted⟩)

theorem Shape.inside {t : ResponseTranslator} {out : List StreamEvent} {kind : Active} (shape : t.Shape out)
    (active : t.active = some kind) : Inside kind t out := by
  obtain idle | between | ⟨other, inside⟩ := shape
  · simp [idle.inactive] at active
  · simp [between.inactive] at active
  · obtain rfl : other = kind := by simpa [inside.active] using active
    exact inside

theorem emitSignature_shape (signature : Option Str) : Preserves Shape (emitSignature signature) := by
  intro t out shape
  cases signature with
  | none => simpa [emitSignature] using shape
  | some sig =>
    by_cases thinking : t.active = some .thinking
    · have emitted := emitDelta_fits .thinking (.signatureDelta sig) rfl t out (shape.inside thinking)
      simp only [emitSignature, thinking, if_true]
      exact .inr (.inr ⟨.thinking, emitted⟩)
    · simpa [emitSignature, thinking] using shape

theorem Shape.congr {t after : ResponseTranslator} {out : List StreamEvent} (shape : t.Shape out)
    (same : after.emission = t.emission) : after.Shape out := by
  unfold Shape Idle Begun Between Inside
  rw [same]
  exact shape

/-! The parts of `push` and `finish`. -/

theorem deliverThinking_shape (thought : Str) : Preserves Shape (deliverThinking thought) := by
  intro t out shape
  by_cases empty : thought = []
  · simpa [deliverThinking, empty] using shape
  · have taken := shape.congr (takeThinking_emission t thought)
    simp only [deliverThinking, empty, if_false]
    exact emitThinking_shape _ _ _ taken

theorem deliverText_shape (textOut : Str) : Preserves Shape (deliverText textOut) := by
  intro t out shape
  by_cases empty : textOut = []
  · simpa [deliverText, empty] using shape
  · have taken := shape.congr (takeText_emission t textOut)
    simp only [deliverText, empty, if_false]
    exact emitText_shape _ _ _ taken

theorem deliverRedacted_shape (data : Str) : Preserves Shape (deliverRedacted data) := by
  intro t out shape
  let taken : ResponseTranslator := ({ t with redacted := t.redacted ++ [data] }).accountOpaque data
  have same : taken.Shape out := shape.congr (accountOpaque_emission _ data)
  have emitted := ensureStarted_begins.seq (closeActive_closes.seq
    (emitBlock_between ⟨.redactedThinking data, [], by simp⟩)) taken out same
  exact .inr (.inl emitted)

theorem deliverToolUse_shape (toolUseId name input : Str) :
    Preserves Shape (deliverToolUse toolUseId name input) := by
  intro t out shape
  let call : ToolCall := ⟨toolUseId, (t.opts.toolNames name).getD name, input⟩
  let taken : ResponseTranslator :=
    { t.accountOpaque input with toolCalls := (t.accountOpaque input).toolCalls ++ [call] }
  have same : taken.Shape out := shape.congr (accountOpaque_emission t input)
  have emitted := ensureStarted_begins.seq (visible_begun.seq (closeActive_closes.seq
    (emitBlock_between ⟨.toolUse toolUseId call.name [], [.inputJsonDelta input], by simp [fitsBlock]⟩)))
    taken out same
  exact .inr (.inl emitted)

theorem flushTag_shape : Preserves Shape flushTag := by
  intro t out shape
  simp only [flushTag]
  split
  · exact deliverThinking_shape _ _ _ shape
  · split
    · exact deliverText_shape _ _ _ shape
    · rw [List.append_nil]
      exact shape

theorem flushPending_shape : Preserves Shape flushPending := by
  intro t out shape
  simp only [flushPending]
  split
  · exact emitText_shape _ _ _ (shape.congr (applyMaxTokens_emission _ _))
  · rw [List.append_nil]
    exact shape

/-- A stream that has ended: no block is open, and `message_stop` is the last event. -/
def Complete (out : List StreamEvent) : Prop :=
  ∃ message blocks delta usage, out = .messageStart message :: renderBlocks wrap 0 blocks ++
    [.messageDelta delta usage, .messageStop]

theorem closing_completes : Triple Between closing (fun t out => Complete out ∧ t.started = true) := by
  intro t out between
  have started := Begun.started (.inl between)
  obtain ⟨message, blocks, _, emitted⟩ := between
  refine ⟨⟨message, blocks, ⟨t.stopReason.1, t.stopReason.2⟩, t.usage, ?_⟩, started⟩
  simp [closing, emitted]

theorem finish_completes {t : ResponseTranslator} {out : List StreamEvent} (running : t.finished = false)
    (shape : t.Shape out) : Complete (out ++ t.finish.2) ∧ t.finish.1.started = true := by
  have begins : Triple Shape begin Begun := fun t => ensureStarted_begins { t with finished := true }
  have finishes := begins.seq ((begun_of_shape flushTag_shape).seq
    ((begun_of_shape flushPending_shape).seq (closeActive_closes.seq closing_completes)))
  simp only [finish, running]
  exact finishes t out shape

def Running (t : ResponseTranslator) (out : List StreamEvent) : Prop :=
  t.finished = false ∧ t.Shape out

def Streamed : ResponseTranslator → List StreamEvent → Prop :=
  Ended Shape fun t out => Complete out ∧ t.started = true

theorem streamed_rules : PushRules Running Running Streamed :=
  .ofParts (fun _ _ => Iff.rfl) (fun _ _ shape => shape) deliverThinking_shape deliverText_shape
    emitSignature_shape deliverRedacted_shape deliverToolUse_shape (fun _ _ _ shape => shape)
    fun _ _ running shape => finish_completes running shape

theorem new_streamed (opts : ResponseOptions) : (new opts).Streamed [] := by
  exact .inl ⟨rfl, rfl⟩

theorem Streamed.started_iff {t : ResponseTranslator} {out : List StreamEvent} (streamed : t.Streamed out) :
    t.started = true ↔ out ≠ [] := by
  by_cases finished : t.finished = true
  · simp only [Streamed, Ended, finished, if_true] at streamed
    obtain ⟨⟨_, _, _, _, rfl⟩, started⟩ := streamed
    simp [started]
  · simp only [Streamed, Ended, finished] at streamed
    exact streamed.started_iff

theorem complete_wellFormed {out : List StreamEvent} (complete : Complete out)
    (few : startedBlocks out < 2 ^ 32) : WellFormed out := by
  obtain ⟨message, blocks, delta, usage, rfl⟩ := complete
  have count := startedBlocks_renderBlocks wrap 0 blocks
  have fewBlocks : 0 + blocks.length ≤ 2 ^ 32 := by
    simp only [startedBlocks, List.countP_append, List.countP_cons] at few count
    omega
  exact ⟨message, blocks, delta, usage, by rw [renderBlocks_unwrapped 0 blocks fewBlocks]⟩

theorem runAll_call_streamed (opts : ResponseOptions) (calls : List Call) :
    (runAll call (new opts) calls).1.Streamed (runAll call (new opts) calls).2 :=
  Preserves.runAll (call_ended streamed_rules) calls (new opts) [] (new_streamed opts)

theorem stream_wellFormed (opts : ResponseOptions) (events : List Event) (later : List Call)
    (few : startedBlocks (runAll call (new opts) (events.map .push ++ .finish :: later)).2 < 2 ^ 32) :
    WellFormed (runAll call (new opts) (events.map .push ++ .finish :: later)).2 ∧
      ∀ calls : List Call,
        (runAll call (new opts) calls).1.started = true ↔ (runAll call (new opts) calls).2 ≠ [] := by
  constructor
  · have streamed := runAll_call_streamed opts (events.map .push ++ .finish :: later)
    have finished := finished_after_finish opts events later
    simp only [Streamed, Ended, finished, if_true] at streamed
    exact complete_wellFormed streamed.1 few
  · intro calls
    exact (runAll_call_streamed opts calls).started_iff

theorem stream_wellFormed_sample :
    let opts : ResponseOptions := ⟨"m".toList, "msg".toList, [], 0, fun _ => none, 7⟩
    let events : List Event :=
      [.assistantResponse "<thinking>a</thinking>b".toList, .toolUse "t".toList "Read".toList "{}".toList]
    WellFormed (runAll call (new opts) (events.map .push ++ .finish :: [.finish])).2 := by
  refine (stream_wellFormed _ _ [.finish] ?_).1
  decide +kernel

end ResponseTranslator

end KiroTrust.Translate
