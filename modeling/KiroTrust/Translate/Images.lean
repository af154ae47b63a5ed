import KiroTrust.Translate.Groups
import KiroTrust.Translate.Pairing

set_option autoImplicit false

namespace KiroTrust.Translate

open Anthropic
open Kiro (Image ToolResult)
open Walk

/-! The images of a message, and those that reach the payload. -/

def contentBlocks : MessageContent → List ContentBlock
  | .text _ => []
  | .blocks blocks => blocks

def base64Source (b : ContentBlock) : Option ImageSource :=
  if b.kind = "image".toList then b.source.filter fun src => src.kind = "base64".toList else none

def nestedSources (b : ContentBlock) : List ImageSource :=
  match b.content with
  | some (.blocks inner) => inner.filterMap base64Source
  | _ => []

def blockSources (b : ContentBlock) : List ImageSource :=
  if b.isToolResult then nestedSources b else (base64Source b).toList

def imageSources (content : MessageContent) : List ImageSource := (contentBlocks content).flatMap blockSources

def imageFormat (src : ImageSource) : Str := (src.mediaType.reverse.takeWhile (· ≠ '/')).reverse

def sentImage (src : ImageSource) : Image := { format := imageFormat src, source := { bytes := src.data } }

section

variable (prims : Primitives)

structure Acceptable (src : ImageSource) : Prop where
  format : imageFormat src ∈ imageFormats
  decodes : ∃ decoded, prims.decodeBase64 src.data = some decoded ∧ decoded.length ≤ maxImageBytes

structure Took (sources : List ImageSource) (images : List Image) (counter next : Nat) : Prop where
  images : images = sources.map sentImage
  acceptable : ∀ src ∈ sources, Acceptable prims src
  counted : next = counter + sources.length
  few : sources ≠ [] → next ≤ maxImagesPerRequest

variable {prims}

theorem Took.none (counter : Nat) : Took prims [] [] counter counter :=
  ⟨rfl, List.forall_mem_nil _, rfl, fun some => absurd rfl some⟩

theorem Took.append {front back : List ImageSource} {sent later : List Image} {counter middle next : Nat}
    (first : Took prims front sent counter middle) (second : Took prims back later middle next) :
    Took prims (front ++ back) (sent ++ later) counter next where
  images := by rw [first.images, second.images, List.map_append]
  acceptable := List.forall_mem_append.2 ⟨first.acceptable, second.acceptable⟩
  counted := by rw [second.counted, first.counted, List.length_append, Nat.add_assoc]
  few := by
    intro some
    by_cases rest : back = []
    · subst rest
      rw [List.append_nil] at some
      have counted := second.counted
      have few := first.few some
      simp only [List.length_nil, Nat.add_zero] at counted
      omega
    · exact second.few rest

theorem walk_took {X O : Type} {step : Nat → X → Except ImageError (O × Nat)} {sources : X → List ImageSource}
    {images : O → List Image} {inputs : List X}
    (each : ∀ input ∈ inputs, ∀ counter output next, step counter input = .ok (output, next) →
      Took prims (sources input) (images output) counter next)
    {counter last : Nat} {outputs : List O} (walked : walk step counter inputs = .ok (outputs, last)) :
    Took prims (inputs.flatMap sources) (outputs.flatMap images) counter last := by
  induction inputs generalizing counter outputs with
  | nil =>
    cases walked
    exact .none _
  | cons input rest ih =>
    obtain ⟨output, next, later, stepped, continues, rfl⟩ := walk_cons.1 walked
    obtain ⟨here, others⟩ := List.forall_mem_cons.1 each
    rw [List.flatMap_cons, List.flatMap_cons]
    exact (here counter output next stepped).append (ih others continues)

theorem convertImage_took {counter next : Nat} {b : ContentBlock} {image : Option Image}
    (picture : b.kind = "image".toList) (ok : convertImage prims counter b = .ok (image, next)) :
    Took prims (base64Source b).toList image.toList counter next := by
  unfold convertImage at ok
  rw [base64Source, if_pos picture]
  cases source : b.source with
  | none =>
    rw [source] at ok
    cases ok
    exact .none _
  | some src =>
    rw [source] at ok
    dsimp only at ok
    split at ok
    next url =>
      cases ok
      simp only [Option.filter_some, url, decide_false]
      exact .none _
    next base64 =>
      have base64 : src.kind = "base64".toList := Decidable.not_not.1 base64
      simp only [Option.filter_some, base64, decide_true, if_true]
      split at ok
      next => cases ok
      next format =>
        split at ok
        next => cases ok
        next decoded decodes =>
          split at ok
          next => cases ok
          next small =>
            split at ok
            next => cases ok
            next few =>
              cases ok
              exact
                { images := rfl
                  acceptable := List.forall_mem_singleton.2
                    ⟨Decidable.not_not.1 format, decoded, decodes, Nat.le_of_not_gt small⟩
                  counted := rfl
                  few := fun _ => Nat.le_of_not_gt few }

theorem pictures_sources (inner : List ContentBlock) :
    (inner.filter fun cb => cb.kind = "image".toList).flatMap (fun cb => (base64Source cb).toList) =
      inner.filterMap base64Source := by
  induction inner with
  | nil => rfl
  | cons cb rest ih =>
    by_cases picture : cb.kind = "image".toList
    · rw [List.filter_cons_of_pos (by simpa using picture), List.flatMap_cons, ih, List.filterMap_cons]
      cases base64Source cb <;> rfl
    · rw [List.filter_cons_of_neg (by simpa using picture), ih]
      have skipped : base64Source cb = none := if_neg picture
      rw [List.filterMap_cons_none skipped]

theorem promote_took {counter next : Nat} {b : ContentBlock} {promoted : List Image}
    (ok : promoteToolResultImages prims counter b = .ok (promoted, next)) :
    Took prims (nestedSources b) promoted counter next := by
  rcases content : b.content with _ | ⟨text⟩ | ⟨inner⟩
  · simp only [promoteToolResultImages, content] at ok
    cases ok
    simp only [nestedSources, content]
    exact .none _
  · simp only [promoteToolResultImages, content] at ok
    cases ok
    simp only [nestedSources, content]
    exact .none _
  · simp only [promoteToolResultImages, content] at ok
    obtain ⟨⟨images, last⟩, walked, returned⟩ := bind_ok.1 ok
    cases returned
    have took := walk_took (fun b inside counter image next converted =>
      convertImage_took (by simpa using (List.mem_filter.1 inside).2) converted) walked
    rw [pictures_sources] at took
    simp only [nestedSources, content]
    rw [List.filterMap_eq_flatMap_toList id]
    exact took

theorem scanToolResult_took {counter next : Nat} {b : ContentBlock} {scanned : ToolResult × List Image}
    (ok : scanToolResult prims counter b = .ok (scanned, next)) :
    Took prims (nestedSources b) scanned.2 counter next := by
  obtain ⟨⟨promoted, last⟩, promotes, returned⟩ := bind_ok.1 ok
  cases returned
  exact promote_took promotes

theorem scanBlock_took {counter next : Nat} {b : ContentBlock} {scanned : Option ToolResult × List Image}
    (ok : scanBlock prims counter b = .ok (scanned, next)) :
    Took prims (blockSources b) scanned.2 counter next := by
  unfold scanBlock at ok
  unfold blockSources
  split at ok
  next result =>
    obtain ⟨⟨part, last⟩, scans, returned⟩ := bind_ok.1 ok
    cases returned
    rw [if_pos result]
    exact scanToolResult_took scans
  next other =>
    rw [if_neg other]
    split at ok
    next picture =>
      obtain ⟨⟨image, last⟩, converts, returned⟩ := bind_ok.1 ok
      cases returned
      exact convertImage_took picture converts
    next plain =>
      cases ok
      rw [base64Source, if_neg plain]
      exact .none _

theorem scanCurrentMessage_took {counter next : Nat} {content : MessageContent} {scanned : Scanned}
    (ok : scanCurrentMessage prims content counter = .ok (scanned, next)) :
    Took prims (imageSources content) scanned.images counter next := by
  cases content with
  | text text =>
    cases ok
    exact .none _
  | blocks blocks =>
    obtain ⟨⟨parts, last⟩, walked, returned⟩ := bind_ok.1 ok
    cases returned
    exact walk_took (fun b _ counter part next scans => scanBlock_took scans) walked

end

theorem textBlock_sources (text : Str) : blockSources (textBlock text) = [] := rfl

theorem plainText_sources {content : MessageContent} (plain : isPlainText content = true) :
    imageSources content = [] := by
  cases content with
  | text text => rfl
  | blocks blocks =>
    apply List.flatMap_eq_nil_iff.2
    intro b inside
    have kind : b.kind = "text".toList := by simpa using List.all_eq_true.1 plain b inside
    have noResult : ¬ b.isToolResult = true := by
      rw [ContentBlock.isToolResult, kind]
      decide
    rw [blockSources, if_neg noResult, base64Source, if_neg (by rw [kind]; decide)]
    rfl

/-- Whether a block of the last message is still there when the tool content has been put into text. -/
def Survives (hasTools : Bool) (ids : List Str) (b : ContentBlock) : Prop :=
  b.isToolResult → hasTools = true ∧ b.toolUseId.getD [] ∈ ids

instance (hasTools : Bool) (ids : List Str) (b : ContentBlock) : Decidable (Survives hasTools ids b) :=
  inferInstanceAs (Decidable (_ → _))

def survivingSources (hasTools : Bool) (ids : List Str) (content : MessageContent) : List ImageSource :=
  (contentBlocks content).flatMap fun b => if Survives hasTools ids b then blockSources b else []

theorem survives_tools (ids : List Str) (b : ContentBlock) :
    Survives true ids b ↔ ¬ (b.isToolResult = true ∧ b.toolUseId.getD [] ∉ ids) := by
  simp [Survives]

theorem survives_none (ids : List Str) (b : ContentBlock) : Survives false ids b ↔ ¬ b.isToolResult = true := by
  simp [Survives]

theorem textualizeOrphan_sources (ids : List Str) (b : ContentBlock) :
    blockSources (textualizeOrphan ids b) = if Survives true ids b then blockSources b else [] := by
  unfold textualizeOrphan
  simp only [survives_tools]
  split
  next => exact textBlock_sources _
  next => rfl

theorem toolUse_sources {b : ContentBlock} (use : b.isToolUse = true) : blockSources b = [] := by
  have kinds : b.kind = "tool_use".toList ∨ b.kind = "server_tool_use".toList :=
    (Bool.or_eq_true _ _ ▸ use).imp of_decide_eq_true of_decide_eq_true
  have noResult : b.isToolResult = false := by
    unfold ContentBlock.isToolResult
    rcases kinds with kind | kind <;> rw [kind] <;> decide
  have noPicture : b.kind ≠ "image".toList := by rcases kinds with kind | kind <;> rw [kind] <;> decide
  rw [blockSources, noResult, base64Source, if_neg noPicture]
  rfl

theorem textualizeBlock_sources (serde : Serde) (ids : List Str) (b : ContentBlock) :
    blockSources (textualizeBlock serde b) = if Survives false ids b then blockSources b else [] := by
  unfold textualizeBlock
  simp only [survives_none]
  split
  next use => rw [toolUse_sources use, textBlock_sources, ite_self]
  next =>
    split
    next => exact textBlock_sources _
    next => rfl

def LastTurn (msgs : List Message) (sources : List ImageSource) : Prop :=
  ∃ last, msgs.getLast? = some last ∧ last.role = .user ∧ imageSources last.content = sources

theorem textualizeOrphan_concat (previous : Option Message) (front : List Message) (last : Message) :
    textualizeOrphanToolResults previous (front ++ [last]) =
      textualizeOrphanToolResults previous front ++ [withoutOrphans (front.getLast?.or previous) last] := by
  induction front generalizing previous with
  | nil => rfl
  | cons m rest ih =>
    have latest : (m :: rest).getLast?.or previous = rest.getLast?.or (some m) := by
      cases rest with
      | nil => rfl
      | cons next rest => rw [List.getLast?_cons_cons, List.getLast?_cons]; rfl
    rw [List.cons_append, textualizeOrphanToolResults, ih, textualizeOrphanToolResults, latest, List.cons_append]

theorem textualized_last (serde : Serde) (front : List Message) (last : Message) (user : last.role = .user)
    (hasTools : Bool) :
    LastTurn
      (if hasTools then textualizeOrphanToolResults none (front ++ [last])
        else textualizeAllToolContent serde (front ++ [last]))
      (survivingSources hasTools (answerable front.getLast?) last.content) := by
  obtain ⟨role, content⟩ := last
  cases user
  cases hasTools with
  | true =>
    rw [if_pos rfl, textualizeOrphan_concat, Option.or_none]
    refine ⟨_, List.getLast?_concat .., ?_⟩
    cases content with
    | text text => exact ⟨rfl, rfl⟩
    | blocks blocks =>
      refine ⟨rfl, ?_⟩
      simp only [withoutOrphans, imageSources, survivingSources, contentBlocks, ne_eq, not_true_eq_false,
        if_false, List.flatMap_map, textualizeOrphan_sources]
  | false =>
    rw [if_neg Bool.false_ne_true, textualizeAllToolContent, List.map_append]
    refine ⟨_, List.getLast?_concat .., ?_⟩
    cases content with
    | text text => exact ⟨rfl, rfl⟩
    | blocks blocks =>
      refine ⟨rfl, ?_⟩
      simp only [imageSources, survivingSources, contentBlocks, List.flatMap_map]
      exact congrArg (blocks.flatMap ·) (funext fun b => textualizeBlock_sources serde _ b)

theorem joins_nonempty {group : List Message} {m : Message} (joins : Joins group m) : group ≠ [] := by
  cases joins with
  | alone => exact List.cons_ne_nil _ _
  | run several _ => exact List.ne_nil_of_length_pos (by omega)

theorem joins_last {group : List Message} {m last : Message} (joins : Joins group m)
    (ends : group.getLast? = some last) :
    m.role = last.role ∧ imageSources m.content = imageSources last.content := by
  cases joins with
  | alone m =>
    cases ends
    exact ⟨rfl, rfl⟩
  | run several same =>
    obtain ⟨role, plain⟩ := same last (List.mem_of_getLast? ends)
    exact ⟨role.symm, (plainText_sources plain).symm⟩

theorem joined_last {groups : List (List Message)} {merged : List Message} (joined : List.Forall₂ Joins groups merged)
    {last : Message} (ends : groups.flatten.getLast? = some last) :
    ∃ m, merged.getLast? = some m ∧ m.role = last.role ∧ imageSources m.content = imageSources last.content := by
  induction joined with
  | nil => cases ends
  | @cons group m groups merged joins rest ih =>
    rw [List.flatten_cons, List.getLast?_append] at ends
    cases rest with
    | nil => exact ⟨m, rfl, joins_last joins ends⟩
    | @cons next m' groups merged joins' rest =>
      have some : (next :: groups).flatten ≠ [] := by
        rw [List.flatten_cons]
        exact List.append_ne_nil_of_left_ne_nil (joins_nonempty joins') _
      rw [List.getLast?_eq_some_getLast some] at ends
      obtain ⟨m'', final, kept⟩ := ih (by rw [List.getLast?_eq_some_getLast some]; exact ends)
      exact ⟨m'', by rw [List.getLast?_cons_cons]; exact final, kept⟩

theorem alternateAfter_last (last : Option Role) (msgs : List Message) :
    (alternateAfter last msgs).getLast? = msgs.getLast? := by
  induction msgs generalizing last with
  | nil => rfl
  | cons m rest ih =>
    have kept : (m :: alternateAfter (some m.role) rest).getLast? = (m :: rest).getLast? := by
      rw [List.getLast?_cons, List.getLast?_cons, ih]
    rw [alternateAfter]
    split
    · rw [List.getLast?_cons_cons]
      exact kept
    · exact kept

theorem ensureStartsWithUser_last (msgs : List Message) : (ensureStartsWithUser msgs).getLast? = msgs.getLast? := by
  cases msgs with
  | nil => rfl
  | cons first rest =>
    rw [ensureStartsWithUser]
    split
    · exact List.getLast?_cons_cons
    · rfl

theorem normalizeMessages_last (serde : Serde) (front : List Message) (last : Message) (user : last.role = .user)
    (hasTools : Bool) :
    LastTurn (normalizeMessages serde (front ++ [last]) hasTools)
      (survivingSources hasTools (answerable front.getLast?) last.content) := by
  obtain ⟨textualized, ends, role, sources⟩ := textualized_last serde front last user hasTools
  have normalized : (prepareMessages serde (front ++ [last]) hasTools).getLast? = some textualized := by
    rw [prepareMessages, normalizeRoles, List.getLast?_map, ends, Option.map_some, normalizeRole, role]
    rfl
  have grouped := mergeAdjacentSameRole_grouped (prepareMessages serde (front ++ [last]) hasTools)
  rw [← grouped.partition] at normalized
  obtain ⟨m, final, sameRole, sameSources⟩ := joined_last grouped.joined normalized
  refine ⟨m, ?_, sameRole.trans role, sameSources.trans sources⟩
  rw [normalizeMessages, ensureAlternatingRoles, alternateAfter_last, ensureStartsWithUser_last]
  exact final

section

variable {X Y : Type} (p : X → Prop) [DecidablePred p] (f : X → List Y)

theorem kept_length_le (l : List X) : (l.flatMap fun x => if p x then f x else []).length ≤ (l.flatMap f).length := by
  induction l with
  | nil => exact Nat.le_refl _
  | cons x rest ih =>
    rw [List.flatMap_cons, List.flatMap_cons, List.length_append, List.length_append]
    by_cases kept : p x
    · rw [if_pos kept]
      omega
    · rw [if_neg kept, List.length_nil]
      omega

theorem kept_length_iff (l : List X) :
    (l.flatMap fun x => if p x then f x else []).length = (l.flatMap f).length ↔ ∀ x ∈ l, p x ∨ f x = [] := by
  induction l with
  | nil => exact iff_of_true rfl (List.forall_mem_nil _)
  | cons x rest ih =>
    have most := kept_length_le p f rest
    rw [List.flatMap_cons, List.flatMap_cons, List.length_append, List.length_append, List.forall_mem_cons, ← ih]
    by_cases kept : p x
    · simp [kept]
    · rw [if_neg kept, List.length_nil, ← List.length_eq_zero_iff, or_iff_right kept]
      omega

theorem kept_eq {l : List X} (all : ∀ x ∈ l, p x ∨ f x = []) :
    (l.flatMap fun x => if p x then f x else []) = l.flatMap f := by
  induction l with
  | nil => rfl
  | cons x rest ih =>
    obtain ⟨here, later⟩ := List.forall_mem_cons.1 all
    rw [List.flatMap_cons, List.flatMap_cons, ih later]
    rcases here with kept | empty
    · rw [if_pos kept]
    · rw [empty, ite_self]

end

structure ImagesKept (prims : Primitives) (content : MessageContent) (images : List Image) : Prop where
  all : images = (imageSources content).map sentImage
  acceptable : ∀ src ∈ imageSources content, Acceptable prims src
  few : images.length ≤ maxImagesPerRequest

theorem payload_took {prims : Primitives} {req : Request} {opts : BuildOptions} {built : Built} {front : List Message}
    {last : Message} (ends : req.messages = front ++ [last]) (user : last.role = .user)
    (ok : buildPayload prims req opts = .ok built) :
    ∃ counter next, Took prims
      (survivingSources (!(toolEntries prims (callableTools req.tools)).2.isEmpty) (answerable front.getLast?)
        last.content)
      built.payload.conversationState.currentMessage.images counter next := by
  obtain ⟨parts⟩ := buildPayload_parts ok
  obtain ⟨m, final, role, sources⟩ := normalizeMessages_last prims.serde front last user
    (!(toolEntries prims (callableTools req.tools)).2.isEmpty)
  have current : (splitMessages (preparedMessages prims req)).2 = m := by
    have notAssistant : m.role ≠ .assistant := by
      rw [role]
      decide
    rw [preparedMessages, ends, splitMessages, final]
    exact congrArg Prod.snd (if_neg notAssistant)
  have took := scanCurrentMessage_took parts.currentScanned
  rw [current, sources] at took
  exact ⟨_, _, parts.images ▸ took⟩

/-- The images of the last message reach the payload exactly when each tool result with images has its tool use in
front of it and tools are declared. -/
theorem images_kept_iff (prims : Primitives) (req : Request) (opts : BuildOptions) (built : Built)
    (front : List Message) (last : Message) (ends : req.messages = front ++ [last]) (user : last.role = .user)
    (ok : buildPayload prims req opts = .ok built) :
    ImagesKept prims last.content built.payload.conversationState.currentMessage.images ↔
      ∀ b ∈ contentBlocks last.content, b.isToolResult → nestedSources b ≠ [] →
        callableTools req.tools ≠ [] ∧ b.toolUseId.getD [] ∈ answerable front.getLast? := by
  obtain ⟨counter, next, took⟩ := payload_took ends user ok
  have tools : (!(toolEntries prims (callableTools req.tools)).2.isEmpty) = true ↔ callableTools req.tools ≠ [] := by
    rw [Bool.not_eq_true', List.isEmpty_eq_false_iff, Ne, toolEntries_nil]
  have survives (b : ContentBlock) :
      (Survives (!(toolEntries prims (callableTools req.tools)).2.isEmpty) (answerable front.getLast?) b ∨
          blockSources b = []) ↔
        (b.isToolResult → nestedSources b ≠ [] →
          callableTools req.tools ≠ [] ∧ b.toolUseId.getD [] ∈ answerable front.getLast?) := by
    unfold Survives blockSources
    rw [tools]
    by_cases result : b.isToolResult = true
    · simp only [result, if_true, true_implies]
      tauto
    · simp [result]
  have kept := kept_length_iff
    (Survives (!(toolEntries prims (callableTools req.tools)).2.isEmpty) (answerable front.getLast?)) blockSources
    (contentBlocks last.content)
  simp only [survives] at kept
  rw [← kept]
  constructor
  · intro images
    have lengths := congrArg List.length (took.images.symm.trans images.all)
    rw [List.length_map, List.length_map] at lengths
    exact lengths
  · intro lengths
    have same : survivingSources _ (answerable front.getLast?) last.content = imageSources last.content :=
      kept_eq _ _ ((kept_length_iff _ _ _).1 lengths)
    rw [same] at took
    refine ⟨took.images, took.acceptable, ?_⟩
    rw [took.images, List.length_map]
    by_cases none : imageSources last.content = []
    · rw [none]
      exact Nat.zero_le _
    · have few := took.few none
      have counted := took.counted
      omega

def picture : ContentBlock :=
  { kind := "image".toList, source := some ⟨"base64".toList, "image/png".toList, "AAAA".toList⟩ }

def pictureResult : ContentBlock :=
  { kind := "tool_result".toList, toolUseId := some "t1".toList, content := some (.blocks [picture]) }

def screenshotMessages : List Message :=
  [⟨.user, .text "hi".toList⟩,
    ⟨.assistant, .blocks [{ kind := "tool_use".toList, id := some "t1".toList, name := some "Read".toList }]⟩]

def picturePrims : Primitives :=
  { decodeBase64 := fun text => if text = "AAAA".toList then some [0, 0, 0] else none
    v5 := fun _ => "bbc972b1-6901-5c26-abe5-d45a89dfe743".toList
    sha256 := fun _ => Vector.replicate 32 0
    serde := ⟨fun _ => none, fun _ => none, fun _ => "\x7b\x7d".toList⟩ }

theorem images_kept_sample :
    let last : Message := ⟨.user, .blocks [pictureResult]⟩
    let req : Request :=
      { messages := screenshotMessages ++ [last], system := none,
        tools := [{ name := "Read".toList, description := [] }] }
    ∃ built, buildPayload picturePrims req ⟨none, "m".toList, none, none⟩ = .ok built ∧
      ImagesKept picturePrims last.content built.payload.conversationState.currentMessage.images := by
  intro last req
  have evaluated : (buildPayload picturePrims req ⟨none, "m".toList, none, none⟩).map (fun _ => ()) = .ok () := rfl
  obtain ⟨built, ok, -⟩ := map_ok.1 evaluated
  refine ⟨built, ok, (images_kept_iff picturePrims req _ built screenshotMessages last rfl rfl ok).2 ?_⟩
  intro b inside _ _
  cases List.mem_singleton.1 inside
  exact ⟨List.cons_ne_nil _ _, List.mem_cons_self⟩

/-- Without tools the result becomes text, and its image is gone. -/
theorem image_dropped :
    let last : Message := ⟨.user, .blocks [pictureResult]⟩
    let req : Request := { messages := screenshotMessages ++ [last], system := none, tools := [] }
    ∃ built, buildPayload picturePrims req ⟨none, "m".toList, none, none⟩ = .ok built ∧
      imageSources last.content = [⟨"base64".toList, "image/png".toList, "AAAA".toList⟩] ∧
      built.payload.conversationState.currentMessage.images = [] ∧
      ¬ ImagesKept picturePrims last.content built.payload.conversationState.currentMessage.images := by
  intro last req
  have evaluated : (buildPayload picturePrims req ⟨none, "m".toList, none, none⟩).map
      (fun built => built.payload.conversationState.currentMessage.images) = .ok [] := rfl
  obtain ⟨built, ok, none⟩ := map_ok.1 evaluated
  refine ⟨built, ok, rfl, none, fun kept => ?_⟩
  have all := kept.all
  rw [none] at all
  cases all

end KiroTrust.Translate
