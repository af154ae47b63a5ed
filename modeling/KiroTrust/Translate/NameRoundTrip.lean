import KiroTrust.Translate.Limits
import KiroTrust.Translate.Pairing

set_option autoImplicit false

namespace KiroTrust.Translate

open Anthropic
open Kiro (HistoryEntry HistoryToolUse)
open Walk

/-! The names a request brings, in the order in which they are shortened, and the names that are sent. -/

def messageNames (m : Message) : List Str :=
  if m.role = .assistant then (extractToolUses m.content).map HistoryToolUse.name else []

def requestNames (prims : Primitives) (req : Request) : List Str :=
  (callableTools req.tools).map Tool.name ++ (splitMessages (preparedMessages prims req)).1.flatMap messageNames

def entryNames (entry : HistoryEntry) : List Str := (entryUses entry).map HistoryToolUse.name

def contextTools (context : Option Kiro.UserInputMessageContext) : List Kiro.ToolEntry :=
  match context with
  | some context => context.tools
  | none => []

def sentNames (payload : Kiro.Payload) : List Str :=
  specificationNames (contextTools payload.conversationState.currentMessage.userInputMessageContext) ++
    payload.conversationState.history.flatMap entryNames

theorem toolEntries_records (prims : Primitives) (tools : List Tool) :
    (toolEntries prims tools).1.Records prims (tools.map Tool.name) ∧
      specificationNames (toolEntries prims tools).2 = (tools.map Tool.name).map (kiroName prims) := by
  unfold toolEntries
  cases tools with
  | nil => exact ⟨ToolNameMap.empty_records prims, rfl⟩
  | cons t rest =>
    obtain ⟨recorded, sent⟩ := convertTools_records (ToolNameMap.empty_records prims) (t :: rest)
    refine ⟨recorded, ?_⟩
    exact (applyToolCachePoints_names _ _).trans sent

theorem historyEntry_records {prims : Primitives} {base : List Str} {seen : List Message} {state next : HistoryState}
    {m : Message} {entry : HistoryEntry} (records : state.names.Records prims (base ++ seen.flatMap messageNames))
    (ok : historyEntry prims state m = .ok (entry, next)) :
    next.names.Records prims (base ++ (seen ++ [m]).flatMap messageNames) ∧
      entryNames entry = (messageNames m).map (kiroName prims) := by
  rw [List.flatMap_append, ← List.append_assoc, List.flatMap_singleton]
  unfold historyEntry at ok
  split at ok
  next role =>
    obtain ⟨scanned, -, returned⟩ := bind_ok.1 ok
    cases returned
    simpa [messageNames, role, entryNames, entryUses, userEntry] using records
  next role =>
    obtain ⟨scanned, -, returned⟩ := bind_ok.1 ok
    cases returned
    simpa [messageNames, role, entryNames, entryUses, userEntry] using records
  next role =>
    cases ok
    obtain ⟨recorded, renamed⟩ := shortenEach_records HistoryToolUse.name
      (fun t name => { t with name }) records (extractToolUses m.content)
    rw [messageNames, if_pos role]
    refine ⟨recorded, ?_⟩
    have sent : entryNames (assistantEntry prims state.names m.content).2 = _ :=
      congrArg (List.map HistoryToolUse.name) renamed
    refine sent.trans ?_
    rw [List.map_map, List.map_map]
    rfl

theorem placeSystemPrompt_names (prims : Primitives) (system : Str) (history : List HistoryEntry) :
    (placeSystemPrompt prims system history).flatMap entryNames = history.flatMap entryNames := by
  unfold placeSystemPrompt
  split <;> rfl

theorem currentContext_tools (envState : Option Kiro.EnvState) (tools : List Kiro.ToolEntry)
    (results : List Kiro.ToolResult) : contextTools (currentContext envState tools results) = tools := by
  unfold currentContext
  split
  next => rfl
  next absent => simp_all [contextTools]

theorem flatMap_names {prims : Primitives} {msgs : List Message} {entries : List HistoryEntry}
    (named : List.Forall₂ (fun m entry => entryNames entry = (messageNames m).map (kiroName prims)) msgs entries) :
    entries.flatMap entryNames = (msgs.flatMap messageNames).map (kiroName prims) := by
  induction named with
  | nil => rfl
  | cons same _ ih => rw [List.flatMap_cons, List.flatMap_cons, List.map_append, same, ih]

theorem payload_names {prims : Primitives} {req : Request} {opts : BuildOptions} {built : Built}
    (ok : buildPayload prims req opts = .ok built) :
    built.toolNames.Records prims (requestNames prims req) ∧
      sentNames built.payload = (requestNames prims req).map (kiroName prims) := by
  obtain ⟨parts⟩ := buildPayload_parts ok
  obtain ⟨records, specified⟩ := toolEntries_records prims (callableTools req.tools)
  obtain ⟨⟨entries, state⟩, walked, returned⟩ := bind_ok.1 parts.historyBuilt
  obtain ⟨rfl, named⟩ := Prod.mk.inj (Except.ok.inj returned)
  have nameMap : state.names = built.toolNames := (Prod.mk.inj named).1
  have declared : (toolEntries prims (callableTools req.tools)).1.Records prims
      ((callableTools req.tools).map Tool.name ++ [].flatMap messageNames) := by simpa using records
  obtain ⟨recorded, renamed⟩ := walk_rule
    (fun seen state =>
      state.names.Records prims ((callableTools req.tools).map Tool.name ++ seen.flatMap messageNames))
    (fun m entry => entryNames entry = (messageNames m).map (kiroName prims))
    (fun seen state m entry next => historyEntry_records) [] declared walked
  constructor
  · rw [← nameMap]
    exact recorded
  · rw [sentNames, requestNames, parts.context, currentContext_tools, specified, parts.placed,
      placeSystemPrompt_names, flatMap_names renamed, List.map_append]

section

open ResponseTranslator

theorem flushTag_toolCalls (t : ResponseTranslator) : t.flushTag.1.toolCalls = t.toolCalls := by
  simp only [flushTag]
  split
  · exact congrArg Contents.toolCalls (deliverThinking_contents _ _)
  · split
    · exact congrArg Contents.toolCalls (deliverText_contents _ _)
    · rfl

theorem finish_toolCalls (t : ResponseTranslator) : t.finish.1.toolCalls = t.toolCalls := by
  cases running : t.finished with
  | true => simp [finish, running]
  | false =>
    have begun : t.begin.1.toolCalls = t.toolCalls := (congrArg toolCalls (begin_content t) :)
    have flushed : t.begin.1.flushTag.1.flushPending.1.toolCalls = t.begin.1.flushTag.1.toolCalls :=
      congrArg Contents.toolCalls (flushPending_contents _)
    have ended : t.finish.1.toolCalls = t.begin.1.flushTag.1.flushPending.1.toolCalls :=
      (congrArg toolCalls (finish_content running) :)
    rw [ended, flushed, flushTag_toolCalls, begun]

theorem push_toolUse {t : ResponseTranslator} (unfinished : t.finished = false) (sound : t.failure = none)
    (running : t.localStop = none) (toolUseId name input : Str) :
    (t.push (.toolUse toolUseId name input)).1.toolCalls =
      t.toolCalls ++ [⟨toolUseId, (t.opts.toolNames name).getD name, input⟩] := by
  have delivered : (deliverToolUse toolUseId name input t).1.toolCalls =
      t.toolCalls ++ [⟨toolUseId, (t.opts.toolNames name).getD name, input⟩] :=
    congrArg Contents.toolCalls (deliverToolUse_contents toolUseId name input t)
  simp only [push, unfinished, sound, Bool.false_eq_true, Option.isSome_none, or_self, if_false, pushToolUse, running]
  rw [← delivered]
  simp only [Emitter.seq, finishIfStopped]
  split
  · exact finish_toolCalls _
  · rfl

end

/-- A pair is an original name and the name it was sent under. -/
structure RoundTrips (pairs : List (Str × Str)) (names : ToolNameMap) : Prop where
  short : ∀ pair ∈ pairs, pair.2.byteLen ≤ 64
  distinct : ∀ left ∈ pairs, ∀ right ∈ pairs, left.2 = right.2 → left.1 = right.1
  restored : ∀ pair ∈ pairs, names.restore pair.2 = pair.1
  translated : ∀ pair ∈ pairs, ∀ (t : ResponseTranslator) (toolUseId input : Str),
    t.opts.toolNames = names.reverseMap → t.finished = false → t.failure = none → t.localStop = none →
      (t.push (.toolUse toolUseId pair.2 input)).1.toolCalls = t.toolCalls ++ [⟨toolUseId, pair.1, input⟩]

section

variable {prims : Primitives} {originals : List Str} {names : ToolNameMap}

def DistinctDigests (prims : Primitives) (originals : List Str) : Prop :=
  ∀ left ∈ originals, ∀ right ∈ originals, overlong left → overlong right →
    digestTag prims left = digestTag prims right → left = right

/-- No short name is the shortened form of a long one. -/
def Apart (prims : Primitives) (originals : List Str) : Prop :=
  ∀ short ∈ originals, ∀ long ∈ originals, ¬ overlong short → overlong long → short ≠ shortForm prims long

instance : Decidable (DistinctDigests prims originals) :=
  inferInstanceAs (Decidable (∀ left ∈ originals, ∀ right ∈ originals, overlong left → overlong right →
    digestTag prims left = digestTag prims right → left = right))

instance : Decidable (Apart prims originals) :=
  inferInstanceAs (Decidable (∀ short ∈ originals, ∀ long ∈ originals,
    ¬ overlong short → overlong long → short ≠ shortForm prims long))

theorem kiroName_injective (distinct : DistinctDigests prims originals) (apart : Apart prims originals)
    {left right : Str} (inLeft : left ∈ originals) (inRight : right ∈ originals)
    (same : kiroName prims left = kiroName prims right) : left = right := by
  unfold kiroName at same
  by_cases leftLong : overlong left <;> by_cases rightLong : overlong right
  · simp only [leftLong, rightLong, if_true] at same
    exact distinct left inLeft right inRight leftLong rightLong (digestTag_of_shortForm same)
  · simp only [leftLong, rightLong, if_true, if_false] at same
    exact absurd same.symm (apart right inRight left inLeft rightLong leftLong)
  · simp only [leftLong, rightLong, if_true, if_false] at same
    exact absurd same (apart left inLeft right inRight leftLong rightLong)
  · simpa only [leftLong, rightLong, if_false] using same

theorem original_of_kiroName (records : names.Records prims originals) (distinct : DistinctDigests prims originals)
    (apart : Apart prims originals) {name : Str} (inside : name ∈ originals) :
    (names.toOriginal (kiroName prims name)).getD (kiroName prims name) = name := by
  cases found : names.toOriginal (kiroName prims name) with
  | some original =>
    obtain ⟨among, long, same⟩ := records.sound _ _ found
    have sameName : kiroName prims original = kiroName prims name := by rw [kiroName, if_pos long, same]
    exact kiroName_injective distinct apart among inside sameName
  | none =>
    by_cases long : overlong name
    · rw [kiroName, if_pos long] at found
      exact absurd found (records.complete name inside long)
    · simp [kiroName, long]

theorem roundTrips_iff (records : names.Records prims originals) (distinct : DistinctDigests prims originals) :
    RoundTrips (originals.map fun name => (name, kiroName prims name)) names ↔ Apart prims originals := by
  constructor
  · intro trips short inShort long inLong isShort isLong same
    have sent : kiroName prims short = kiroName prims long := by
      rw [kiroName, if_neg isShort, kiroName, if_pos isLong, same]
    have equal : short = long :=
      trips.distinct _ (List.mem_map_of_mem inShort) _ (List.mem_map_of_mem inLong) sent
    exact isShort (equal ▸ isLong)
  · intro apart
    have back (name : Str) (inside : name ∈ originals) := original_of_kiroName records distinct apart inside
    constructor
    · exact List.forall_mem_map.2 fun name _ => kiroName_byteLen prims name
    · intro left inLeft right inRight same
      obtain ⟨first, among, rfl⟩ := List.mem_map.1 inLeft
      obtain ⟨second, amongToo, rfl⟩ := List.mem_map.1 inRight
      exact kiroName_injective distinct apart among amongToo same
    · exact List.forall_mem_map.2 back
    · intro pair inside t toolUseId input known unfinished sound running
      obtain ⟨name, among, rfl⟩ := List.mem_map.1 inside
      rw [push_toolUse unfinished sound running, known]
      exact congrArg (fun original => t.toolCalls ++ [⟨toolUseId, original, input⟩]) (back name among)

end

theorem tool_names_round_trip_iff (prims : Primitives) (req : Request) (opts : BuildOptions) (built : Built)
    (ok : buildPayload prims req opts = .ok built) (distinct : DistinctDigests prims (requestNames prims req)) :
    (sentNames built.payload).length = (requestNames prims req).length ∧
      (RoundTrips ((requestNames prims req).zip (sentNames built.payload)) built.toolNames ↔
        Apart prims (requestNames prims req)) := by
  obtain ⟨records, sent⟩ := payload_names ok
  have pairs : (requestNames prims req).zip (sentNames built.payload) =
      (requestNames prims req).map fun name => (name, kiroName prims name) := by
    have zipped := List.zip_map' (f := fun name => name) (g := kiroName prims) (l := requestNames prims req)
    rwa [List.map_id', ← sent] at zipped
  rw [pairs]
  exact ⟨by rw [sent, List.length_map], roundTrips_iff records distinct⟩

theorem tool_names_round_trip_sample :
    let long : Str := List.replicate 65 'a'
    let prims : Primitives :=
      { decodeBase64 := fun _ => none
        v5 := fun _ => "bbc972b1-6901-5c26-abe5-d45a89dfe743".toList
        sha256 := fun _ => #v[99, 83, 97, 196, 139, 185, 234, 177, 65, 152, 231, 110, 168, 171, 127, 26, 65, 104, 93, 106,
          214, 42, 169, 20, 109, 48, 29, 79, 23, 235, 10, 224]
        serde := ⟨fun _ => none, fun _ => none, fun _ => []⟩ }
    let use : ContentBlock := { kind := "tool_use".toList, id := some "t1".toList, name := some long }
    let req : Request :=
      { messages := [⟨.user, .text "hi".toList⟩, ⟨.assistant, .blocks [use]⟩, ⟨.user, .text "go".toList⟩]
        system := none
        tools := [{ name := "Read".toList, description := [] }] }
    ∃ built, buildPayload prims req ⟨none, "m".toList, none, none⟩ = .ok built ∧
      RoundTrips (["Read".toList, long].zip ["Read".toList, List.replicate 50 'a' ++ "_635361c48bb9e".toList])
        built.toolNames := by
  intro long prims use req
  have evaluated : (buildPayload prims req ⟨none, "m".toList, none, none⟩).map (fun built => sentNames built.payload) =
      .ok ["Read".toList, List.replicate 50 'a' ++ "_635361c48bb9e".toList] := rfl
  obtain ⟨built, ok, sent⟩ := map_ok.1 evaluated
  have names : requestNames prims req = ["Read".toList, long] := rfl
  have distinct : DistinctDigests prims ["Read".toList, long] := by decide
  have apart : Apart prims ["Read".toList, long] := by decide
  obtain ⟨-, trips⟩ := tool_names_round_trip_iff prims req _ built ok (names ▸ distinct)
  rw [names, sent] at trips
  exact ⟨built, ok, trips.2 apart⟩

/-- A short name that looks like the shortened form of another one is sent under the same name. -/
theorem shortened_name_taken :
    let long : Str := List.replicate 65 'a'
    let short : Str := List.replicate 50 'a' ++ "_635361c48bb9e".toList
    let prims : Primitives :=
      { decodeBase64 := fun _ => none
        v5 := fun _ => []
        sha256 := fun _ => #v[99, 83, 97, 196, 139, 185, 234, 177, 65, 152, 231, 110, 168, 171, 127, 26, 65, 104, 93, 106,
          214, 42, 169, 20, 109, 48, 29, 79, 23, 235, 10, 224]
        serde := ⟨fun _ => none, fun _ => none, fun _ => []⟩ }
    let req : Request :=
      { messages := [⟨.user, .text "hi".toList⟩]
        system := none
        tools := [{ name := long, description := [] }, { name := short, description := [] }] }
    ∃ built, buildPayload prims req ⟨none, "m".toList, none, none⟩ = .ok built ∧
      DistinctDigests prims (requestNames prims req) ∧ requestNames prims req = [long, short] ∧
      sentNames built.payload = [short, short] ∧ ¬ RoundTrips ([long, short].zip [short, short]) built.toolNames := by
  intro long short prims req
  have evaluated : (buildPayload prims req ⟨none, "m".toList, none, none⟩).map
      (fun built => (sentNames built.payload, built.toolNames.restore short)) = .ok ([short, short], long) := rfl
  obtain ⟨built, ok, values⟩ := map_ok.1 evaluated
  obtain ⟨sent, restored⟩ := Prod.mk.inj values
  have names : requestNames prims req = [long, short] := rfl
  have distinct : DistinctDigests prims [long, short] := by decide
  have other : long ≠ short := by decide
  refine ⟨built, ok, names ▸ distinct, names, sent, fun trips => ?_⟩
  have back : built.toolNames.restore short = short := trips.restored (short, short) (.tail _ (.head _))
  exact other (restored.symm.trans back)

end KiroTrust.Translate
