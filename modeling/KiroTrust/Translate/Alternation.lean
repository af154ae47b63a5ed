import KiroTrust.Shared.Alternating
import KiroTrust.Translate.Request

set_option autoImplicit false

namespace KiroTrust.Translate

open Anthropic
open Kiro (HistoryEntry)
open Alternating
open Walk

/-! Which side speaks. -/

def speaksUser (m : Message) : Bool := m.role ≠ .assistant

def isUserEntry : HistoryEntry → Bool
  | .userInputMessage _ => true
  | .assistantResponseMessage _ => false

def NoOther (msgs : List Message) : Prop := ∀ m ∈ msgs, m.role ≠ .other

theorem normalizeRoles_noOther (msgs : List Message) : NoOther (normalizeRoles msgs) := by
  intro m inside
  obtain ⟨before, -, rfl⟩ := List.mem_map.1 inside
  by_cases other : before.role = .other <;> simp [normalizeRole, other]

theorem joinRun_role (first : Message) (run : List Message) : (joinRun first run).role = first.role := by
  unfold joinRun
  split <;> rfl

theorem mergeFrom_noOther {first : Message} {run msgs : List Message} (known : first.role ≠ .other)
    (rest : NoOther msgs) : NoOther (mergeFrom first run msgs) := by
  induction msgs generalizing first run with
  | nil =>
    intro m inside
    obtain rfl := List.mem_singleton.1 inside
    rwa [joinRun_role]
  | cons m later ih =>
    have laterKnown : NoOther later := fun m inside => rest m (List.mem_cons_of_mem _ inside)
    rw [mergeFrom]
    split
    · exact ih known laterKnown
    · intro other inside
      obtain rfl | inside := List.mem_cons.1 inside
      · rwa [joinRun_role]
      · exact ih (rest m (List.mem_cons_self ..)) laterKnown other inside

theorem mergeAdjacentSameRole_noOther {msgs : List Message} (known : NoOther msgs) :
    NoOther (mergeAdjacentSameRole msgs) := by
  cases msgs with
  | nil => exact known
  | cons first rest =>
    exact mergeFrom_noOther (known first (List.mem_cons_self ..)) fun m inside =>
      known m (List.mem_cons_of_mem _ inside)

theorem ensureStartsWithUser_noOther {msgs : List Message} (known : NoOther msgs) :
    NoOther (ensureStartsWithUser msgs) := by
  unfold ensureStartsWithUser
  split
  · exact known
  · split
    · exact List.forall_mem_cons.2 ⟨by simp [emptyMessage], known⟩
    · exact known

theorem ensureStartsWithUser_opens (msgs : List Message) :
    ∀ m ∈ (ensureStartsWithUser msgs).head?, m.role = .user := by
  intro m first
  unfold ensureStartsWithUser at first
  split at first
  · cases first
  · split at first
    · cases first
      rfl
    next user =>
      obtain rfl := Option.some.inj first
      simpa using user

theorem opposite_ne (role : Role) : opposite role ≠ role := by cases role <;> decide

theorem alternateAfter_noOther {last : Option Role} {msgs : List Message} (known : NoOther msgs) :
    NoOther (alternateAfter last msgs) := by
  induction msgs generalizing last with
  | nil => exact known
  | cons m rest ih =>
    obtain ⟨here, later⟩ := List.forall_mem_cons.1 known
    have filler : opposite m.role ≠ .other := by cases m.role <;> decide
    rw [alternateAfter]
    split
    · exact List.forall_mem_cons.2 ⟨filler, List.forall_mem_cons.2 ⟨here, ih later⟩⟩
    · exact List.forall_mem_cons.2 ⟨here, ih later⟩

theorem alternateAfter_head (last : Option Role) (msgs : List Message) :
    ∀ m ∈ (alternateAfter last msgs).head?, last ≠ some m.role := by
  intro m first
  cases msgs with
  | nil => cases first
  | cons next rest =>
    rw [alternateAfter] at first
    split at first
    next same =>
      obtain rfl := Option.some.inj first
      rw [same]
      intro equal
      exact opposite_ne next.role (Option.some.inj equal).symm
    next differs =>
      obtain rfl := Option.some.inj first
      exact differs

theorem alternateAfter_chain (last : Option Role) (msgs : List Message) :
    (alternateAfter last msgs).IsChain fun a b => a.role ≠ b.role := by
  induction msgs generalizing last with
  | nil => exact .nil
  | cons m rest ih =>
    have later : (m :: alternateAfter (some m.role) rest).IsChain fun a b => a.role ≠ b.role := by
      refine List.isChain_cons.2 ⟨fun next found same => ?_, ih (some m.role)⟩
      exact alternateAfter_head (some m.role) rest next found (congrArg some same)
    rw [alternateAfter]
    split
    · refine List.isChain_cons.2 ⟨fun next found => ?_, later⟩
      obtain rfl := Option.some.inj found
      exact opposite_ne m.role
    · exact later

theorem alternateAfter_none_head (msgs : List Message) : (alternateAfter none msgs).head? = msgs.head? := by
  cases msgs <;> simp [alternateAfter]

structure Conversation (msgs : List Message) : Prop where
  known : NoOther msgs
  opens : ∀ m ∈ msgs.head?, m.role = .user
  chain : msgs.IsChain fun a b => a.role ≠ b.role

theorem normalizeMessages_conversation (serde : Serde) (msgs : List Message) (hasTools : Bool) :
    Conversation (normalizeMessages serde msgs hasTools) where
  known := alternateAfter_noOther (ensureStartsWithUser_noOther (mergeAdjacentSameRole_noOther
    (normalizeRoles_noOther _)))
  opens m first := ensureStartsWithUser_opens _ m (by rwa [← alternateAfter_none_head])
  chain := alternateAfter_chain none _

theorem Conversation.sides {msgs : List Message} (conversation : Conversation msgs) :
    (msgs.map speaksUser).IsChain (· ≠ ·) := by
  refine (List.isChain_map speaksUser).2 ?_
  refine List.IsChain.imp_of_mem_imp ?_ conversation.chain
  intro a b inA inB differ same
  have knownA := conversation.known a inA
  have knownB := conversation.known b inB
  unfold speaksUser at same
  cases roleA : a.role <;> cases roleB : b.role <;> simp_all

theorem Conversation.front {front : List Message} {last : Message} (conversation : Conversation (front ++ [last])) :
    Conversation front where
  known m inside := conversation.known m (List.mem_append_left _ inside)
  opens m first := by
    apply conversation.opens
    cases front with
    | nil => cases first
    | cons head rest => exact first
  chain := conversation.chain.left_of_append

theorem Conversation.turns {msgs : List Message} (conversation : Conversation msgs)
    (closes : ∀ m ∈ msgs.getLast?, m.role = .assistant) : Turns (msgs.map speaksUser) where
  chain := conversation.sides
  opens side first := by
    rw [List.head?_map] at first
    obtain ⟨m, found, rfl⟩ := Option.map_eq_some_iff.1 first
    simp [speaksUser, conversation.opens m found]
  closes side last := by
    rw [List.getLast?_map] at last
    obtain ⟨m, found, rfl⟩ := Option.map_eq_some_iff.1 last
    simp [speaksUser, closes m found]

theorem splitMessages_turns {msgs : List Message} (conversation : Conversation msgs) :
    Turns ((splitMessages msgs).1.map speaksUser) := by
  unfold splitMessages
  cases ends : msgs.getLast? with
  | none => exact .nil
  | some last =>
    by_cases assistant : last.role = .assistant
    · simp only [assistant, if_true]
      apply conversation.turns
      intro m found
      rw [ends] at found
      exact Option.some.inj found ▸ assistant
    · simp only [assistant, if_false]
      obtain ⟨front, rfl⟩ := List.getLast?_eq_some_iff.1 ends
      rw [List.dropLast_concat]
      -- The last message is the user's, so the one in front of it is not.
      have user : last.role = .user := by
        have known := conversation.known last (by simp)
        cases role : last.role <;> simp_all
      apply conversation.front.turns
      intro m found
      have differs : m.role ≠ last.role := (List.isChain_append.1 conversation.chain).2.2 m found last rfl
      have known := conversation.known m (List.mem_append_left _ (List.mem_of_getLast? found))
      rw [user] at differs
      cases role : m.role <;> simp_all

theorem historyEntry_side {prims : Primitives} {state next : HistoryState} {m : Message} {entry : HistoryEntry}
    (ok : historyEntry prims state m = .ok (entry, next)) : isUserEntry entry = speaksUser m := by
  unfold historyEntry at ok
  split at ok
  next role =>
    obtain ⟨scanned, -, returned⟩ := bind_ok.1 ok
    cases returned
    simp [isUserEntry, userEntry, speaksUser, role]
  next role =>
    obtain ⟨scanned, -, returned⟩ := bind_ok.1 ok
    cases returned
    simp [isUserEntry, userEntry, speaksUser, role]
  next role =>
    cases ok
    simp [isUserEntry, speaksUser, role]

theorem buildHistory_sides {prims : Primitives} {msgs : List Message} {names : ToolNameMap} {counter : Nat}
    {history : List HistoryEntry} {last : ToolNameMap × Nat}
    (ok : buildHistory prims msgs names counter = .ok (history, last)) :
    history.map isUserEntry = msgs.map speaksUser := by
  obtain ⟨⟨entries, state⟩, walked, returned⟩ := bind_ok.1 ok
  cases returned
  exact walk_map (fun _ _ _ _ entered => historyEntry_side entered) walked

theorem placeSystemPrompt_turns {prims : Primitives} {history : List HistoryEntry}
    (turns : Turns (history.map isUserEntry)) (system : Str) :
    Turns ((placeSystemPrompt prims system history).map isUserEntry) := by
  unfold placeSystemPrompt
  split
  · exact turns
  · exact turns.pair

theorem history_turns {prims : Primitives} {req : Request} {opts : BuildOptions} {built : Built}
    (ok : buildPayload prims req opts = .ok built) :
    Turns (built.payload.conversationState.history.map isUserEntry) := by
  obtain ⟨parts⟩ := buildPayload_parts ok
  have turns := splitMessages_turns (normalizeMessages_conversation prims.serde req.messages
    (!(toolEntries prims (callableTools req.tools)).2.isEmpty))
  rw [parts.placed]
  apply placeSystemPrompt_turns
  rw [buildHistory_sides parts.historyBuilt]
  exact turns

/-- In a payload user and assistant take turns, and the assistant has the last word before the current message. -/
theorem history_alternates (prims : Primitives) (req : Request) (opts : BuildOptions) (built : Built)
    (ok : buildPayload prims req opts = .ok built) :
    let history := built.payload.conversationState.history
    history.length % 2 = 0 ∧
      (∀ index entry, history[index]? = some entry → isUserEntry entry = decide (index % 2 = 0)) ∧
      (∀ entry ∈ history.head?, isUserEntry entry = true) ∧
      ∀ entry ∈ history.getLast?, isUserEntry entry = false := by
  have turns := history_turns ok
  refine ⟨by simpa using turns.even, fun index entry there => turns.at (by simp [there]), ?_, ?_⟩
  · exact fun entry first => turns.opens _ (by simp [Option.mem_def.1 first])
  · exact fun entry last => turns.closes _ (by simp [Option.mem_def.1 last])

theorem history_alternates_sample :
    let prims : Primitives :=
      { decodeBase64 := fun _ => none
        v5 := fun seed =>
          if seed = "assistant-msg:a\nb".toList then "0db51749-757b-57f6-9e44-7297b846f844".toList
          else "4abd27ca-8e4e-5a51-bfdf-c2e413bfd2f5".toList
        sha256 := fun _ => Vector.replicate 32 0
        serde := ⟨fun _ => none, fun _ => none, fun _ => []⟩ }
    let req : Request :=
      { messages := [⟨.other, .text "hi".toList⟩, ⟨.assistant, .text "a".toList⟩, ⟨.assistant, .text "b".toList⟩]
        system := some (.text "short".toList)
        tools := [] }
    ∃ built, buildPayload prims req ⟨none, "m".toList, none, none⟩ = .ok built ∧
      built.payload.conversationState.history.length = 4 ∧
      ∀ index entry, built.payload.conversationState.history[index]? = some entry →
        isUserEntry entry = decide (index % 2 = 0) := by
  intro prims req
  have evaluated : (buildPayload prims req ⟨none, "m".toList, none, none⟩).map
      (fun built => built.payload.conversationState.history.length) = .ok 4 := rfl
  obtain ⟨built, ok, length⟩ := map_ok.1 evaluated
  exact ⟨built, ok, length, (history_alternates _ _ _ _ ok).2.1⟩

end KiroTrust.Translate
