import KiroTrust.Shared.Exchange
import KiroTrust.Translate.Request

set_option autoImplicit false

namespace KiroTrust.Translate

open Anthropic
open Kiro (HistoryEntry ToolResult HistoryToolUse)
open Exchange
open Walk

/-! Messages and history entries as turns of a conversation with tools. -/

def turnOf (m : Message) : Turn Str :=
  if m.role = .assistant then ⟨{ id | id ∈ extractToolUseIds m.content }, ∅⟩
  else ⟨∅, { id | id ∈ resultIds m.content }⟩

def contextResults (context : Option Kiro.UserInputMessageContext) : List ToolResult :=
  match context with
  | some context => context.toolResults
  | none => []

def entryResults : HistoryEntry → List ToolResult
  | .userInputMessage m => contextResults m.userInputMessageContext
  | .assistantResponseMessage _ => []

def entryUses : HistoryEntry → List HistoryToolUse
  | .userInputMessage _ => []
  | .assistantResponseMessage m => m.toolUses

def entryTurn (entry : HistoryEntry) : Turn Str :=
  ⟨{ id | id ∈ (entryUses entry).map HistoryToolUse.toolUseId },
    { id | id ∈ (entryResults entry).map ToolResult.toolUseId }⟩

theorem turnOf_assistant {m : Message} (assistant : m.role = .assistant) : (turnOf m).results = ∅ := by
  simp [turnOf, assistant]

theorem turnOf_user {m : Message} (user : m.role ≠ .assistant) : (turnOf m).uses = ∅ := by
  simp [turnOf, user]

theorem text_isToolUse {b : ContentBlock} (text : b.kind = "text".toList) : b.isToolUse = false := by
  unfold ContentBlock.isToolUse
  rw [text]
  decide

theorem text_isToolResult {b : ContentBlock} (text : b.kind = "text".toList) : b.isToolResult = false := by
  unfold ContentBlock.isToolResult
  rw [text]
  decide

theorem silent_of_blocks {m : Message} (plain : ∀ blocks, m.content = .blocks blocks →
    ∀ b ∈ blocks, b.isToolUse = false ∧ b.isToolResult = false) : turnOf m = silent := by
  have nothing : extractToolUseIds m.content = [] ∧ resultIds m.content = [] := by
    cases content : m.content with
    | text text => exact ⟨rfl, rfl⟩
    | blocks blocks =>
      have uses : blocks.filter ContentBlock.isToolUse = [] := by
        refine List.filter_eq_nil_iff.2 fun b inside => ?_
        simp [(plain blocks content b inside).1]
      have results : blocks.filter ContentBlock.isToolResult = [] := by
        refine List.filter_eq_nil_iff.2 fun b inside => ?_
        simp [(plain blocks content b inside).2]
      simp [extractToolUseIds, extractToolUses, resultIds, uses, results]
  unfold turnOf silent
  split <;> simp [nothing.1, nothing.2]

theorem silent_of_plain {m : Message} (plain : isPlainText m.content = true) : turnOf m = silent := by
  apply silent_of_blocks
  intro blocks content b inside
  rw [content, isPlainText, List.all_eq_true] at plain
  have text : b.kind = "text".toList := of_decide_eq_true (plain b inside)
  exact ⟨text_isToolUse text, text_isToolResult text⟩

theorem normalizeRole_turn (m : Message) : turnOf (normalizeRole m) = turnOf m := by
  unfold normalizeRole
  split
  next other => simp [turnOf, other]
  next => rfl

theorem normalizeRoles_turns (msgs : List Message) : (normalizeRoles msgs).map turnOf = msgs.map turnOf := by
  rw [normalizeRoles, List.map_map]
  exact List.map_congr_left fun m _ => normalizeRole_turn m

/-- Only plain text is grouped. -/
def Group (first : Message) (run : List Message) : Prop :=
  run ≠ [] → isPlainText first.content = true ∧ ∀ m ∈ run, isPlainText m.content = true

theorem joinRun_turn {first : Message} {run : List Message} (group : Group first run) (before : Turn Str)
    (later : List (Turn Str)) :
    (before :: turnOf (joinRun first run) :: later).IsChain Answers ↔
      (before :: turnOf first :: (run.map turnOf ++ later)).IsChain Answers := by
  by_cases alone : run = []
  · simp [joinRun, alone]
  · obtain ⟨plain, plainRun⟩ := group alone
    have joined : turnOf (joinRun first run) = silent := by
      apply silent_of_plain
      simp [joinRun, alone, isPlainText]
    have silentRun : ∀ run : List Message, (∀ m ∈ run, isPlainText m.content = true) →
        ((silent :: (run.map turnOf ++ later)).IsChain Answers ↔ (silent :: later).IsChain Answers) := by
      intro run plainRun
      induction run with
      | nil => rfl
      | cons m rest ih =>
        obtain ⟨here, there⟩ := List.forall_mem_cons.1 plainRun
        rw [List.map_cons, List.cons_append, silent_of_plain here, chain_insert rfl]
        exact ih there
    rw [joined, silent_of_plain plain, List.isChain_cons_cons, List.isChain_cons_cons, silentRun run plainRun]

theorem mergeFrom_answered {first : Message} {run : List Message} (group : Group first run) (msgs : List Message)
    (before : Turn Str) :
    (before :: (mergeFrom first run msgs).map turnOf).IsChain Answers ↔
      (before :: turnOf first :: (run ++ msgs).map turnOf).IsChain Answers := by
  induction msgs generalizing first run before with
  | nil => simpa [mergeFrom] using joinRun_turn group before []
  | cons m rest ih =>
    rw [mergeFrom]
    split
    next grows =>
      have larger : Group first (run ++ [m]) := by
        intro _
        refine ⟨grows.1, fun other inside => ?_⟩
        obtain inRun | last := List.mem_append.1 inside
        · exact (group (List.ne_nil_of_mem inRun)).2 other inRun
        · obtain rfl := List.mem_singleton.1 last
          exact grows.2.2
      rw [ih larger, List.append_assoc, List.singleton_append]
    next =>
      have fresh : Group m [] := fun nonempty => absurd rfl nonempty
      rw [List.map_cons, List.isChain_cons_cons, ih fresh, ← List.isChain_cons_cons, joinRun_turn group]
      simp only [List.nil_append, List.map_append, List.map_cons]

theorem mergeAdjacentSameRole_answered (msgs : List Message) :
    Answered ((mergeAdjacentSameRole msgs).map turnOf) ↔ Answered (msgs.map turnOf) := by
  cases msgs with
  | nil => rfl
  | cons first rest => exact mergeFrom_answered (fun nonempty => absurd rfl nonempty) rest silent

theorem emptyMessage_turn (role : Role) : turnOf (emptyMessage role) = silent := silent_of_plain rfl

theorem ensureStartsWithUser_answered (msgs : List Message) :
    Answered ((ensureStartsWithUser msgs).map turnOf) ↔ Answered (msgs.map turnOf) := by
  unfold ensureStartsWithUser
  split
  · rfl
  · split
    · rw [List.map_cons, emptyMessage_turn, answered_silent]
    · rfl

theorem alternateAfter_answered (previous : Message) (msgs : List Message) :
    (turnOf previous :: (alternateAfter (some previous.role) msgs).map turnOf).IsChain Answers ↔
      (turnOf previous :: msgs.map turnOf).IsChain Answers := by
  induction msgs generalizing previous with
  | nil => rfl
  | cons m rest ih =>
    have later := ih m
    rw [alternateAfter]
    split
    next same =>
      have sameRole : previous.role = m.role := Option.some.inj same
      rw [List.map_cons, List.map_cons, emptyMessage_turn, List.map_cons]
      by_cases assistant : m.role = .assistant
      · rw [chain_insert_before (turnOf_assistant assistant), List.isChain_cons_cons, later,
          ← List.isChain_cons_cons]
      · rw [chain_insert (turnOf_user (sameRole ▸ assistant)), List.isChain_cons_cons, later,
          ← List.isChain_cons_cons]
    next => rw [List.map_cons, List.map_cons, List.isChain_cons_cons, later, ← List.isChain_cons_cons]

theorem ensureAlternatingRoles_answered (msgs : List Message) :
    Answered ((ensureAlternatingRoles msgs).map turnOf) ↔ Answered (msgs.map turnOf) := by
  cases msgs with
  | nil => rfl
  | cons m rest =>
    have later := alternateAfter_answered m rest
    simp only [ensureAlternatingRoles, alternateAfter, reduceCtorEq, if_false, List.map_cons, Answered,
      List.isChain_cons_cons, later]

theorem question_turn (text : Str) : turnOf ⟨.user, .text text⟩ = silent := silent_of_plain rfl

theorem splitMessages_answered (msgs : List Message) :
    Answered (((splitMessages msgs).1 ++ [(splitMessages msgs).2]).map turnOf) ↔ Answered (msgs.map turnOf) := by
  unfold splitMessages
  cases ends : msgs.getLast? with
  | none =>
    obtain rfl := List.getLast?_eq_none_iff.1 ends
    simp only [List.nil_append, List.map_cons, List.map_nil, question_turn, answered_silent]
  | some last =>
    by_cases assistant : last.role = .assistant
    · simp only [assistant, if_true, List.map_append, List.map_cons, List.map_nil, question_turn,
        answered_last_silent]
    · obtain ⟨front, rfl⟩ := List.getLast?_eq_some_iff.1 ends
      simp only [assistant, if_false, List.dropLast_concat]

theorem reordered_ids (results : List ToolResult) (ids : List Str) (id : Str) :
    id ∈ (reorderToolResults results ids).map ToolResult.toolUseId ↔ id ∈ results.map ToolResult.toolUseId :=
  ((reorderToolResults_perm results ids).map _).mem_iff

theorem resultContext_results (results : List ToolResult) : contextResults (resultContext results) = results := by
  unfold resultContext
  split
  next empty => simp [contextResults, empty]
  next => rfl

theorem renamed_ids (prims : Primitives) (names : ToolNameMap) (uses : List HistoryToolUse) :
    (Emitter.runAll (renameToolUse prims) names uses).2.map HistoryToolUse.toolUseId =
      uses.map HistoryToolUse.toolUseId := by
  induction uses generalizing names with
  | nil => rfl
  | cons t rest ih =>
    rw [Emitter.runAll_cons, List.map_append, ih]
    rfl

theorem userEntry_turn {prims : Primitives} {m : Message} (user : m.role ≠ .assistant) {counter : Nat}
    {results : List ToolResult} {images : List Kiro.Image} {next : Nat}
    (ok : extractToolResults prims m.content counter = .ok ((results, images), next)) (content : Str) (ids : List Str) :
    entryTurn (userEntry content (resultContext (reorderToolResults results ids))) = turnOf m := by
  have same : entryResults (userEntry content (resultContext (reorderToolResults results ids))) =
      reorderToolResults results ids := resultContext_results _
  simp only [entryTurn, same, reordered_ids, extractToolResults_ids ok, turnOf, user, if_false]
  simp [entryUses, userEntry]

theorem historyEntry_turn {prims : Primitives} {state next : HistoryState} {m : Message} {entry : HistoryEntry}
    (ok : historyEntry prims state m = .ok (entry, next)) : entryTurn entry = turnOf m := by
  unfold historyEntry at ok
  split at ok
  next role =>
    obtain ⟨scanned, extracted, returned⟩ := bind_ok.1 ok
    cases returned
    exact userEntry_turn (by simp [role]) extracted _ _
  next role =>
    obtain ⟨scanned, extracted, returned⟩ := bind_ok.1 ok
    cases returned
    exact userEntry_turn (by simp [role]) extracted _ _
  next role =>
    cases ok
    simp [entryTurn, entryUses, entryResults, renamed_ids, turnOf, role, extractToolUseIds]

theorem buildHistory_turns {prims : Primitives} {msgs : List Message} {names : ToolNameMap} {counter : Nat}
    {history : List HistoryEntry} {last : ToolNameMap × Nat}
    (ok : buildHistory prims msgs names counter = .ok (history, last)) :
    history.map entryTurn = msgs.map turnOf := by
  obtain ⟨⟨entries, state⟩, walked, returned⟩ := bind_ok.1 ok
  cases returned
  exact walk_map (fun _ _ _ _ entered => historyEntry_turn entered) walked

theorem placeSystemPrompt_answered {prims : Primitives} (system : Str) (history : List HistoryEntry)
    (later : List (Turn Str)) :
    Answered ((placeSystemPrompt prims system history).map entryTurn ++ later) ↔
      Answered (history.map entryTurn ++ later) := by
  unfold placeSystemPrompt
  split
  · rfl
  · have opens : entryTurn (userEntry system none) = silent := by
      simp [entryTurn, entryUses, entryResults, userEntry, contextResults, silent]
    have acknowledges (message : Kiro.AssistantResponseMessage) (none : message.toolUses = []) :
        entryTurn (.assistantResponseMessage message) = silent := by
      simp [entryTurn, entryUses, entryResults, none, silent]
    rw [List.map_cons, List.map_cons, List.cons_append, List.cons_append, opens, answered_silent,
      acknowledges _ rfl, answered_silent]

theorem textBlock_plain (text : Str) : (textBlock text).isToolUse = false ∧ (textBlock text).isToolResult = false :=
  ⟨text_isToolUse rfl, text_isToolResult rfl⟩

theorem textualizeBlock_plain (serde : Serde) (b : ContentBlock) :
    (textualizeBlock serde b).isToolUse = false ∧ (textualizeBlock serde b).isToolResult = false := by
  unfold textualizeBlock
  split
  · exact textBlock_plain _
  · split
    · exact textBlock_plain _
    next noUse noResult => exact ⟨by simpa using noUse, by simpa using noResult⟩

theorem textualizeAllToolContent_silent (serde : Serde) (msgs : List Message) :
    ∀ turn ∈ (textualizeAllToolContent serde msgs).map turnOf, turn = silent := by
  intro turn inside
  obtain ⟨m, among, rfl⟩ := List.mem_map.1 inside
  obtain ⟨before, -, rfl⟩ := List.mem_map.1 among
  apply silent_of_blocks
  intro blocks content b inBlocks
  cases original : before.content with
  | text text =>
    rw [original] at content
    simp [original] at content
  | blocks originals =>
    simp only [original, MessageContent.blocks.injEq] at content
    subst content
    obtain ⟨source, -, rfl⟩ := List.mem_map.1 inBlocks
    exact textualizeBlock_plain serde source

theorem answerable_previousIds {previous : Option Message} {id : Str} (answers : id ∈ answerable previous) :
    id ∈ previousIds previous := by
  unfold answerable at answers
  split at answers
  · obtain ⟨b, use, known⟩ := List.mem_filterMap.1 answers
    simp only [previousIds, extractToolUseIds, extractToolUses, List.map_map]
    exact List.mem_map.2 ⟨b, use, by simp [known]⟩
  · simp at answers

theorem withoutOrphans_role (previous : Option Message) (m : Message) : (withoutOrphans previous m).role = m.role := by
  unfold withoutOrphans
  split
  · rfl
  · split <;> rfl

theorem withoutOrphans_same {previous : Option Message} {m : Message} (other : m.role ≠ .user) :
    withoutOrphans previous m = m := by
  unfold withoutOrphans
  split
  · rfl
  · simp [other]

theorem withoutOrphans_uses (previous : Option Message) (m : Message) :
    (turnOf (withoutOrphans previous m)).uses = (turnOf m).uses := by
  by_cases user : m.role = .user
  · rw [turnOf_user (by simp [withoutOrphans_role, user]), turnOf_user (by simp [user])]
  · rw [withoutOrphans_same user]

theorem withoutOrphans_results {previous : Option Message} {m : Message} (user : m.role = .user) {id : Str}
    (left : id ∈ resultIds (withoutOrphans previous m).content) : id ∈ previousIds previous := by
  unfold withoutOrphans at left
  split at left
  next text content => simp [content, resultIds] at left
  next blocks content =>
    simp only [user, ne_eq, not_true_eq_false, if_false, resultIds] at left
    obtain ⟨b, inside, rfl⟩ := List.mem_map.1 left
    obtain ⟨among, isResult⟩ := List.mem_filter.1 inside
    obtain ⟨source, -, rfl⟩ := List.mem_map.1 among
    -- A result block that is left has an id that was used.
    unfold textualizeOrphan at isResult ⊢
    split at isResult
    · rw [(textBlock_plain _).2] at isResult
      cases isResult
    next kept =>
      rw [if_neg kept]
      exact answerable_previousIds (by simpa [isResult] using kept)

/-- What the messages of unknown roles ask of the messages in front of them. -/
def OthersAnswer : Option Message → List Message → Prop
  | _, [] => True
  | previous, m :: rest =>
    (m.role = .other → ∀ id ∈ resultIds m.content, id ∈ previousIds previous) ∧ OthersAnswer (some m) rest

theorem turnOf_uses (m : Message) : (turnOf m).uses = { id | id ∈ previousIds (some m) } := by
  cases m with
  | mk role content => cases role <;> simp [turnOf, previousIds]

theorem withoutOrphans_answers {previous : Option Message} {before : Turn Str}
    (uses : before.uses = { id | id ∈ previousIds previous }) (m : Message) :
    Answers before (turnOf (withoutOrphans previous m)) ↔
      (m.role = .other → ∀ id ∈ resultIds m.content, id ∈ previousIds previous) := by
  unfold Answers
  rw [uses]
  cases role : m.role with
  | user =>
    refine iff_of_true (fun id inside => ?_) (by simp)
    rw [turnOf, withoutOrphans_role, role] at inside
    exact withoutOrphans_results role inside
  | assistant => simp [turnOf_assistant ((withoutOrphans_role previous m).trans role)]
  | other =>
    rw [withoutOrphans_same (by simp [role])]
    simp [turnOf, role, Set.subset_def]

theorem textualizeOrphanToolResults_answered {previous : Option Message} {before : Turn Str}
    (uses : before.uses = { id | id ∈ previousIds previous }) (msgs : List Message) :
    (before :: (textualizeOrphanToolResults previous msgs).map turnOf).IsChain Answers ↔
      OthersAnswer previous msgs := by
  induction msgs generalizing previous before with
  | nil => simp [textualizeOrphanToolResults, OthersAnswer]
  | cons m rest ih =>
    have later := ih ((withoutOrphans_uses previous m).trans (turnOf_uses m))
    rw [textualizeOrphanToolResults, List.map_cons, List.isChain_cons_cons, later, withoutOrphans_answers uses]
    rfl

theorem othersAnswer_iff {previous : Option Message} {msgs : List Message} :
    OthersAnswer previous msgs ↔
      ∀ index m, msgs[index]? = some m → m.role = .other → ∀ id ∈ resultIds m.content,
        id ∈ previousIds (if index = 0 then previous else preceding msgs index) := by
  induction msgs generalizing previous with
  | nil => simp [OthersAnswer]
  | cons m rest ih =>
    rw [OthersAnswer, ih]
    constructor
    · rintro ⟨here, later⟩ index other there
      cases index with
      | zero =>
        obtain rfl : m = other := by simpa using there
        simpa using here
      | succ index =>
        have next := later index other (by simpa using there)
        cases index with
        | zero => simpa [preceding] using next
        | succ index => simpa [preceding] using next
    · intro all
      refine ⟨by simpa using all 0 m rfl, fun index other there => ?_⟩
      have next := all (index + 1) other (by simpa using there)
      cases index with
      | zero => simpa [preceding] using next
      | succ index => simpa [preceding] using next

def Silent (msgs : List Message) : Prop := ∀ m ∈ msgs, turnOf m = silent

theorem mergeFrom_silent {first : Message} {run msgs : List Message} (here : turnOf first = silent)
    (later : Silent msgs) : Silent (mergeFrom first run msgs) := by
  have joined (first : Message) (run : List Message) (here : turnOf first = silent) :
      turnOf (joinRun first run) = silent := by
    unfold joinRun
    split
    · exact here
    · exact silent_of_plain rfl
  induction msgs generalizing first run with
  | nil => exact List.forall_mem_singleton.2 (joined first run here)
  | cons m rest ih =>
    obtain ⟨next, rest⟩ := List.forall_mem_cons.1 later
    rw [mergeFrom]
    split
    · exact ih here rest
    · exact List.forall_mem_cons.2 ⟨joined first run here, ih next rest⟩

theorem mergeAdjacentSameRole_silent {msgs : List Message} (silent : Silent msgs) :
    Silent (mergeAdjacentSameRole msgs) := by
  cases msgs with
  | nil => exact silent
  | cons first rest =>
    obtain ⟨here, later⟩ := List.forall_mem_cons.1 silent
    exact mergeFrom_silent here later

theorem ensureStartsWithUser_silent {msgs : List Message} (silent : Silent msgs) :
    Silent (ensureStartsWithUser msgs) := by
  unfold ensureStartsWithUser
  split
  · exact silent
  · split
    · exact List.forall_mem_cons.2 ⟨emptyMessage_turn .user, silent⟩
    · exact silent

theorem alternateAfter_silent {last : Option Role} {msgs : List Message} (silent : Silent msgs) :
    Silent (alternateAfter last msgs) := by
  induction msgs generalizing last with
  | nil => exact silent
  | cons m rest ih =>
    obtain ⟨here, later⟩ := List.forall_mem_cons.1 silent
    rw [alternateAfter]
    split
    · exact List.forall_mem_cons.2 ⟨emptyMessage_turn _, List.forall_mem_cons.2 ⟨here, ih later⟩⟩
    · exact List.forall_mem_cons.2 ⟨here, ih later⟩

theorem normalizeMessages_silent (serde : Serde) (msgs : List Message) : Silent (normalizeMessages serde msgs false) := by
  apply alternateAfter_silent
  apply ensureStartsWithUser_silent
  apply mergeAdjacentSameRole_silent
  intro m inside
  apply textualizeAllToolContent_silent serde msgs
  rw [← normalizeRoles_turns]
  exact List.mem_map_of_mem inside

theorem normalizeMessages_answered (serde : Serde) (msgs : List Message) :
    Answered ((normalizeMessages serde msgs true).map turnOf) ↔ OthersAnswer none msgs := by
  simp only [normalizeMessages, if_true, ensureAlternatingRoles_answered, ensureStartsWithUser_answered,
    mergeAdjacentSameRole_answered, normalizeRoles_turns]
  exact textualizeOrphanToolResults_answered (by simp [silent, previousIds]) msgs

structure Paired (payload : Kiro.Payload) : Prop where
  history : ∀ index entry, payload.conversationState.history[index]? = some entry →
    ∀ r ∈ entryResults entry, ∃ before ∈ preceding payload.conversationState.history index,
      r.toolUseId ∈ (entryUses before).map HistoryToolUse.toolUseId
  current : ∀ r ∈ contextResults payload.conversationState.currentMessage.userInputMessageContext,
    ∃ before ∈ payload.conversationState.history.getLast?,
      r.toolUseId ∈ (entryUses before).map HistoryToolUse.toolUseId

def ToolFree (payload : Kiro.Payload) : Prop :=
  (∀ entry ∈ payload.conversationState.history, entryUses entry = [] ∧ entryResults entry = []) ∧
    contextResults payload.conversationState.currentMessage.userInputMessageContext = []

def currentTurn (payload : Kiro.Payload) : Turn Str :=
  ⟨∅, { id | id ∈ (contextResults payload.conversationState.currentMessage.userInputMessageContext).map
    ToolResult.toolUseId }⟩

theorem preceding_map {A B : Type} (f : A → B) (turns : List A) (index : Nat) :
    preceding (turns.map f) index = (preceding turns index).map f := by
  cases index with
  | zero => rfl
  | succ index => exact List.getElem?_map ..

theorem paired_iff (payload : Kiro.Payload) :
    Paired payload ↔ Answered (payload.conversationState.history.map entryTurn ++ [currentTurn payload]) := by
  rw [answered_concat, answered_iff, List.getLast?_map]
  simp only [preceding_map, List.getElem?_map, currentTurn, entryTurn, Option.map_eq_some_iff, Option.mem_def,
    Set.mem_ofPred_eq, List.mem_map]
  constructor
  · rintro ⟨history, current⟩
    constructor
    · rintro index turn ⟨entry, there, rfl⟩ id ⟨r, inside, rfl⟩
      obtain ⟨before, found, used⟩ := history index entry there r inside
      exact ⟨_, ⟨before, found, rfl⟩, List.mem_map.1 used⟩
    · rintro id ⟨r, inside, rfl⟩
      obtain ⟨before, found, used⟩ := current r inside
      exact ⟨_, ⟨before, found, rfl⟩, List.mem_map.1 used⟩
  · rintro ⟨history, current⟩
    constructor
    · intro index entry there r inside
      obtain ⟨_, ⟨before, found, rfl⟩, used⟩ := history index _ ⟨entry, there, rfl⟩ r.toolUseId ⟨r, inside, rfl⟩
      exact ⟨before, found, List.mem_map.2 used⟩
    · intro r inside
      obtain ⟨_, ⟨before, found, rfl⟩, used⟩ := current r.toolUseId ⟨r, inside, rfl⟩
      exact ⟨before, found, List.mem_map.2 used⟩

theorem splitMessages_user (msgs : List Message) : (splitMessages msgs).2.role ≠ .assistant := by
  unfold splitMessages
  cases msgs.getLast? with
  | none => simp
  | some last => by_cases assistant : last.role = .assistant <;> simp [assistant]

theorem currentContext_results (envState : Option Kiro.EnvState) (tools : List Kiro.ToolEntry)
    (results : List ToolResult) : contextResults (currentContext envState tools results) = results := by
  unfold currentContext
  split
  next => rfl
  next absent => simp_all [contextResults]

theorem currentTurn_eq {prims : Primitives} {req : Request} {opts : BuildOptions} {built : Built}
    (parts : Parts prims req opts built) :
    currentTurn built.payload = turnOf (splitMessages (preparedMessages prims req)).2 := by
  have user := splitMessages_user (preparedMessages prims req)
  simp only [currentTurn, parts.context, currentContext_results, reordered_ids,
    scanCurrentMessage_ids parts.currentScanned, turnOf, user, if_false]

theorem payload_turns {prims : Primitives} {req : Request} {opts : BuildOptions} {built : Built}
    (ok : buildPayload prims req opts = .ok built) :
    Paired built.payload ↔ Answered ((preparedMessages prims req).map turnOf) := by
  obtain ⟨parts⟩ := buildPayload_parts ok
  rw [paired_iff, parts.placed, placeSystemPrompt_answered, buildHistory_turns parts.historyBuilt,
    currentTurn_eq parts, ← List.map_singleton, ← List.map_append, splitMessages_answered]

theorem toolEntries_nil (prims : Primitives) (tools : List Tool) : (toolEntries prims tools).2 = [] ↔ tools = [] := by
  unfold toolEntries
  cases tools with
  | nil => simp
  | cons t rest =>
    simp only [List.isEmpty_cons, Bool.false_eq_true, if_false, reduceCtorEq, iff_false]
    intro empty
    have none := applyToolCachePoints_nil empty
    rw [convertTools_eq, shortenEach_cons] at none
    cases none

theorem nothing_of_silent {entry : HistoryEntry} (none : entryTurn entry = silent) :
    entryUses entry = [] ∧ entryResults entry = [] := by
  have uses := congrArg Turn.uses none
  have results := congrArg Turn.results none
  simp only [entryTurn, silent, Set.eq_empty_iff_forall_notMem, Set.mem_ofPred_eq] at uses results
  have empty {A : Type} {l : List A} {f : A → Str} (nothing : ∀ id, id ∉ l.map f) : l = [] := by
    rw [← List.map_eq_nil_iff (f := f)]
    exact List.eq_nil_iff_forall_not_mem.2 nothing
  exact ⟨empty uses, empty results⟩

theorem splitMessages_silent {msgs : List Message} (silent : Silent msgs) :
    Silent (splitMessages msgs).1 ∧ turnOf (splitMessages msgs).2 = Exchange.silent := by
  unfold splitMessages
  cases ends : msgs.getLast? with
  | none => exact ⟨by simp [Silent], question_turn _⟩
  | some last =>
    by_cases assistant : last.role = .assistant
    · simp only [assistant, if_true]
      exact ⟨silent, question_turn _⟩
    · simp only [assistant, if_false]
      exact ⟨fun m inside => silent m (List.mem_of_mem_dropLast inside), silent last (List.mem_of_getLast? ends)⟩

theorem preparedMessages_silent (prims : Primitives) {req : Request} (noTools : callableTools req.tools = []) :
    Silent (preparedMessages prims req) := by
  have none := (toolEntries_nil prims _).2 noTools
  rw [preparedMessages, none]
  exact normalizeMessages_silent prims.serde req.messages

theorem placeSystemPrompt_free {prims : Primitives} {history : List HistoryEntry}
    (free : ∀ entry ∈ history, entryUses entry = [] ∧ entryResults entry = []) (system : Str) :
    ∀ entry ∈ placeSystemPrompt prims system history, entryUses entry = [] ∧ entryResults entry = [] := by
  unfold placeSystemPrompt
  split
  · exact free
  · exact List.forall_mem_cons.2 ⟨⟨rfl, rfl⟩, List.forall_mem_cons.2 ⟨⟨rfl, rfl⟩, free⟩⟩

theorem payload_toolFree {prims : Primitives} {req : Request} {opts : BuildOptions} {built : Built}
    (ok : buildPayload prims req opts = .ok built) (noTools : callableTools req.tools = []) :
    ToolFree built.payload := by
  obtain ⟨parts⟩ := buildPayload_parts ok
  obtain ⟨before, current⟩ := splitMessages_silent (preparedMessages_silent prims noTools)
  constructor
  · rw [parts.placed]
    apply placeSystemPrompt_free
    intro entry inside
    have turn : entryTurn entry ∈ parts.history.map entryTurn := List.mem_map_of_mem inside
    rw [buildHistory_turns parts.historyBuilt] at turn
    obtain ⟨m, among, same⟩ := List.mem_map.1 turn
    exact nothing_of_silent (same.symm.trans (before m among))
  · have turn := congrArg Turn.results ((currentTurn_eq parts).trans current)
    simp only [currentTurn, silent, Set.eq_empty_iff_forall_notMem, Set.mem_ofPred_eq] at turn
    exact List.map_eq_nil_iff.1 (List.eq_nil_iff_forall_not_mem.2 turn)

/-- Results answer the entry in front of them exactly when those of unknown roles do so in the request. -/
theorem tool_results_paired_iff (prims : Primitives) (req : Request) (opts : BuildOptions) (built : Built)
    (ok : buildPayload prims req opts = .ok built) :
    (Paired built.payload ∧ (callableTools req.tools = [] → ToolFree built.payload)) ↔
      (callableTools req.tools = [] ∨
        ∀ index m, req.messages[index]? = some m → m.role = .other → ∀ id ∈ resultIds m.content,
          id ∈ previousIds (preceding req.messages index)) := by
  rw [payload_turns ok]
  by_cases noTools : callableTools req.tools = []
  · refine iff_of_true ⟨?_, fun _ => payload_toolFree ok noTools⟩ (.inl noTools)
    apply answered_of_no_results
    intro turn inside
    obtain ⟨m, among, rfl⟩ := List.mem_map.1 inside
    rw [preparedMessages_silent prims noTools m among]
    rfl
  · have tools : (toolEntries prims (callableTools req.tools)).2.isEmpty = false := by
      rwa [List.isEmpty_eq_false_iff, Ne, toolEntries_nil]
    have prepared : preparedMessages prims req = normalizeMessages prims.serde req.messages true := by
      rw [preparedMessages, tools]
      rfl
    have first (index : Nat) : (if index = 0 then none else preceding req.messages index) =
        preceding req.messages index := by
      cases index <;> rfl
    rw [prepared, normalizeMessages_answered, othersAnswer_iff]
    simp only [first, noTools, false_implies, and_true, false_or]

theorem tool_results_paired_sample :
    let prims : Primitives :=
      { decodeBase64 := fun _ => none
        v5 := fun _ => "bbc972b1-6901-5c26-abe5-d45a89dfe743".toList
        sha256 := fun _ => Vector.replicate 32 0
        serde := ⟨fun _ => none, fun _ => none, fun _ => []⟩ }
    let use : ContentBlock := { kind := "tool_use".toList, id := some "t1".toList, name := some "Read".toList }
    let result : ContentBlock := { kind := "tool_result".toList, toolUseId := some "t1".toList }
    let req : Request :=
      { messages := [⟨.user, .text "hi".toList⟩, ⟨.assistant, .blocks [use]⟩, ⟨.other, .blocks [result]⟩]
        system := none
        tools := [{ name := "Read".toList, description := [] }] }
    ∃ built, buildPayload prims req ⟨none, "m".toList, none, none⟩ = .ok built ∧ Paired built.payload := by
  intro prims use result req
  have evaluated : (buildPayload prims req ⟨none, "m".toList, none, none⟩).map (fun _ => ()) = .ok () := rfl
  obtain ⟨built, ok, -⟩ := map_ok.1 evaluated
  refine ⟨built, ok, ((tool_results_paired_iff _ _ _ _ ok).2 (.inr ?_)).1⟩
  intro index m there other id inside
  match index, there with
  | 0, there => cases there; cases other
  | 1, there => cases there; cases other
  | 2, there => cases there; exact inside

/-- A result in a message of an unknown role is not taken for an orphan. -/
theorem unknown_role_result_unpaired :
    let prims : Primitives :=
      { decodeBase64 := fun _ => none
        v5 := fun _ => []
        sha256 := fun _ => Vector.replicate 32 0
        serde := ⟨fun _ => none, fun _ => none, fun _ => []⟩ }
    let result : ContentBlock := { kind := "tool_result".toList, toolUseId := some "t1".toList }
    let req : Request :=
      { messages := [⟨.other, .blocks [result]⟩]
        system := none
        tools := [{ name := "Read".toList, description := [] }] }
    ∃ built, buildPayload prims req ⟨none, "m".toList, none, none⟩ = .ok built ∧ ¬ Paired built.payload := by
  intro prims result req
  have evaluated : (buildPayload prims req ⟨none, "m".toList, none, none⟩).map (fun built =>
      (built.payload.conversationState.history.length,
        (contextResults built.payload.conversationState.currentMessage.userInputMessageContext).length)) =
      .ok (0, 1) := rfl
  obtain ⟨built, ok, lengths⟩ := map_ok.1 evaluated
  obtain ⟨noHistory, oneResult⟩ := Prod.mk.inj lengths
  refine ⟨built, ok, fun paired => ?_⟩
  obtain ⟨r, only⟩ := List.length_eq_one_iff.1 oneResult
  obtain ⟨before, found, -⟩ := paired.current r (by simp [only])
  rw [List.length_eq_zero_iff.1 noHistory] at found
  cases found

end KiroTrust.Translate
