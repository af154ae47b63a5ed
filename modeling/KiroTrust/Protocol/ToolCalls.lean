import KiroTrust.Protocol.EventParser
import KiroTrust.Shared.Emitter
import Mathlib.Data.List.Forall2

set_option autoImplicit false

namespace KiroTrust.EventStream

/-! The tool calls that a parser hands out over a stream of frames. -/

def asToolUse : Event → Option ToolUseAccumulator
  | .toolUse toolUseId name input => some ⟨toolUseId, name, input⟩
  | _ => none

/-- The frames that reach `tool_use` once their payload is read. -/
def Frame.isToolUse (frame : Frame) : Bool :=
  frame.messageType ≠ some "exception".toList ∧ frame.eventType = some "toolUseEvent".toList

theorem Frame.isToolUse_iff {frame : Frame} :
    frame.isToolUse = true ↔
      frame.messageType ≠ some "exception".toList ∧ frame.eventType = some "toolUseEvent".toList := by
  simp only [Frame.isToolUse, decide_eq_true_eq]

def stops (v : Value) : Prop := (v.get "stop".toList).bind Value.asBool = some true

instance (v : Value) : Decidable (stops v) := inferInstanceAs (Decidable (_ = _))

theorem strField_ne_nil {v : Value} {key : String} {text : Str} (found : strField v key = some text) : text ≠ [] := by
  simpa using (Option.filter_eq_some_iff.1 found).2

namespace EventParser

variable (serde : Serde) (uuid : Nat → Str)

def given : Except EventError (List Event) → List ToolUseAccumulator
  | .ok events => events.filterMap asToolUse
  -- An error takes the place of what the frame has closed.
  | .error _ => []

def handOut (parser : EventParser) (frame : Frame) : EventParser × List ToolUseAccumulator :=
  let parsed := parser.parse serde uuid frame
  (parsed.1, given parsed.2)

def flush (parser : EventParser) : List ToolUseAccumulator := (parser.finish.2.bind asToolUse).toList

/-- What the parse calls and the final `finish` hand out. -/
def handsOut (parser : EventParser) (frames : List Frame) : List ToolUseAccumulator :=
  let run := Emitter.runAll (handOut serde uuid) parser frames
  run.2 ++ run.1.flush

def opened (parser : EventParser) (v : Value) : EventParser := ((parser.opens uuid v).getD parser).takeName v

def closed (parser : EventParser) (v : Value) : List ToolUseAccumulator :=
  if (parser.opens uuid v).isSome then parser.flush else []

theorem flush_eq (parser : EventParser) : parser.flush = if parser.tool.id = [] then [] else [parser.tool] := by
  unfold flush finish
  split <;> rfl

variable {serde} {uuid} {parser : EventParser} {frame : Frame} {v : Value}

variable (serde uuid parser) in
theorem parse_other (other : frame.isToolUse = false) :
    (parser.parse serde uuid frame).1 = parser ∧ given (parser.parse serde uuid frame).2 = [] ∧
      ∀ id max, (parser.parse serde uuid frame).2 ≠ .error (.toolInputTooLarge id max) := by
  unfold parse
  split
  next => exact ⟨rfl, rfl, by simp⟩
  next exception =>
    split
    next => exact ⟨rfl, rfl, by simp⟩
    next eventType found =>
      have kind : eventType ≠ "toolUseEvent".toList := by
        rintro rfl
        exact Bool.false_ne_true (other.symm.trans (Frame.isToolUse_iff.2 ⟨exception, found⟩))
      simp only [kind, if_false]
      repeat' split
      all_goals exact ⟨rfl, rfl, by simp⟩

theorem parse_tool (tool : frame.isToolUse = true) :
    parser.parse serde uuid frame =
      match serde.fromSlice frame.payload with
      | none => (parser, .ok [])
      | some v => parser.toolUse serde uuid v := by
  obtain ⟨exception, kind⟩ := Frame.isToolUse_iff.1 tool
  unfold parse
  simp only [if_neg exception, kind]
  cases serde.fromSlice frame.payload <;> rfl

theorem handOut_other (other : frame.isToolUse = false) : parser.handOut serde uuid frame = (parser, []) := by
  obtain ⟨same, nothing, -⟩ := parse_other serde uuid parser other
  exact Prod.ext same nothing

theorem handOut_unread (tool : frame.isToolUse = true) (unread : serde.fromSlice frame.payload = none) :
    parser.handOut serde uuid frame = (parser, []) := by
  unfold handOut
  rw [parse_tool tool, unread]
  rfl

theorem handOut_tool (tool : frame.isToolUse = true) (read : serde.fromSlice frame.payload = some v) :
    parser.handOut serde uuid frame =
      ((parser.toolUse serde uuid v).1, given (parser.toolUse serde uuid v).2) := by
  unfold handOut
  rw [parse_tool tool, read]

theorem given_append (front back : List Event) :
    given (.ok (front ++ back)) = given (.ok front) ++ given (.ok back) :=
  List.filterMap_append

theorem given_closed :
    given (.ok (if (parser.opens uuid v).isSome ∧ parser.tool.id ≠ [] then [parser.tool.take] else [])) =
      parser.closed uuid v := by
  rw [closed, flush_eq]
  by_cases opening : (parser.opens uuid v).isSome
  next =>
    by_cases idle : parser.tool.id = []
    next => rw [if_neg (fun both => both.2 idle), if_pos opening, if_pos idle]; rfl
    next => rw [if_pos ⟨opening, idle⟩, if_pos opening, if_neg idle]; rfl
  next => rw [if_neg (fun both => opening both.1), if_neg opening]; rfl

theorem handOut_rejected (tool : frame.isToolUse = true) (read : serde.fromSlice frame.payload = some v)
    (tooLarge : (parser.opened uuid v).takeInput serde v = none) :
    parser.handOut serde uuid frame = ({ parser.opened uuid v with tool := .empty }, []) := by
  rw [handOut_tool tool read]
  unfold opened at tooLarge ⊢
  simp [toolUse, tooLarge, rejectToolInput, given]

theorem handOut_accepted {filled : EventParser} (tool : frame.isToolUse = true)
    (read : serde.fromSlice frame.payload = some v)
    (fits : (parser.opened uuid v).takeInput serde v = some filled) :
    parser.handOut serde uuid frame =
      if stops v then ({ filled with tool := .empty }, parser.closed uuid v ++ [filled.tool])
      else (filled, parser.closed uuid v) := by
  rw [handOut_tool tool read]
  unfold opened at fits
  simp only [toolUse, fits]
  by_cases stopping : stops v
  next =>
    rw [if_pos stopping]
    simp only [if_pos (show (v.get "stop".toList).bind Value.asBool = some true from stopping), given_append, given_closed]
    rfl
  next =>
    rw [if_neg stopping]
    simp only [if_neg (show ¬ (v.get "stop".toList).bind Value.asBool = some true from stopping), given_closed]

@[simp] theorem takeName_id (parser : EventParser) (v : Value) : (parser.takeName v).tool.id = parser.tool.id := by
  unfold takeName
  split <;> rfl

@[simp] theorem takeName_input (parser : EventParser) (v : Value) :
    (parser.takeName v).tool.input = parser.tool.input := by
  unfold takeName
  split <;> rfl

theorem opens_eq (parser : EventParser) (v : Value) :
    parser.opens uuid v =
      match strField v "toolUseId" with
      | some id => if id = parser.tool.id then none else some { parser with tool := ⟨id, [], []⟩ }
      | none =>
        if parser.tool.id = [] ∧ (v.get "name".toList).isSome then
          some ⟨⟨uuid parser.drawn, [], []⟩, parser.drawn + 1⟩
        else none := by
  unfold opens
  cases named : strField v "toolUseId" with
  | none => simp
  | some id =>
    have given : id ≠ [] := strField_ne_nil named
    by_cases same : id = parser.tool.id
    next => simp [same, same ▸ given]
    next => simp [given, same]

theorem opens_some {next : EventParser} (opening : parser.opens uuid v = some next) :
    next.tool.name = [] ∧ next.tool.input = [] ∧
      (strField v "toolUseId" = some next.tool.id ∨ next.tool.id = uuid parser.drawn) := by
  rw [opens_eq] at opening
  split at opening
  next id named =>
    split at opening
    next => cases opening
    next => cases opening; exact ⟨rfl, rfl, .inl named⟩
  next =>
    split at opening
    next => cases opening; exact ⟨rfl, rfl, .inr rfl⟩
    next => cases opening

theorem opens_id (supply : ∀ n, uuid n ≠ []) {next : EventParser} (opening : parser.opens uuid v = some next) :
    next.tool.id ≠ [] := by
  obtain ⟨-, -, named | drawn⟩ := opens_some opening
  · exact strField_ne_nil named
  · rw [drawn]
    exact supply _

theorem takeInput_some {filled : EventParser} (fits : parser.takeInput serde v = some filled) :
    filled.tool.id = parser.tool.id ∧ filled.tool.name = parser.tool.name ∧ filled.drawn = parser.drawn ∧
      (filled.tool.input = parser.tool.input ∨ filled.tool.input.byteLen ≤ maxToolInputBytes) := by
  unfold takeInput at fits
  split at fits
  next s _ =>
    split at fits
    next => cases fits
    next small =>
      cases fits
      refine ⟨rfl, rfl, rfl, .inr ?_⟩
      simp only [Str.byteLen, Str.bytes, List.flatMap_append, List.length_append] at small ⊢
      omega
  next => cases fits; exact ⟨rfl, rfl, rfl, .inl rfl⟩
  next => cases fits; exact ⟨rfl, rfl, rfl, .inl rfl⟩
  next other _ _ _ =>
    simp only at fits
    split at fits
    next => cases fits
    next small => cases fits; exact ⟨rfl, rfl, rfl, .inr (Nat.le_of_not_lt small)⟩

variable (serde) in
def InputFits (parser : EventParser) (v : Value) : Prop :=
  match v.get "input".toList with
  | some (.string s) => parser.tool.input.byteLen + s.byteLen ≤ maxToolInputBytes
  | none | some .null => True
  | some other => (serde.print other).byteLen ≤ maxToolInputBytes

def Capped (tool : ToolUseAccumulator) : Prop := tool.input.byteLen ≤ maxToolInputBytes

theorem capped_empty : Capped .empty := Nat.zero_le _

theorem flush_capped (capped : Capped parser.tool) : ∀ tool ∈ parser.flush, Capped tool := by
  rw [flush_eq]
  split
  next => exact List.forall_mem_nil _
  next => exact List.forall_mem_singleton.2 capped

theorem opened_capped (capped : Capped parser.tool) : Capped (parser.opened uuid v).tool := by
  unfold Capped opened at *
  rw [takeName_input]
  cases opening : parser.opens uuid v with
  | none => exact capped
  | some next =>
    rw [Option.getD_some, (opens_some opening).2.1]
    exact Nat.zero_le _

variable (serde uuid) in
theorem handOut_capped (frame : Frame) : Emitter.Preserves
    (fun parser calls => Capped parser.tool ∧ ∀ tool ∈ calls, Capped tool)
    (fun parser => handOut serde uuid parser frame) := by
  intro parser calls ⟨capped, before⟩
  dsimp only
  cases tool : frame.isToolUse with
  | false =>
    rw [handOut_other tool, List.append_nil]
    exact ⟨capped, before⟩
  | true =>
    cases read : serde.fromSlice frame.payload with
    | none =>
      rw [handOut_unread tool read, List.append_nil]
      exact ⟨capped, before⟩
    | some v =>
      cases fits : (parser.opened uuid v).takeInput serde v with
      | none =>
        rw [handOut_rejected tool read fits, List.append_nil]
        exact ⟨capped_empty, before⟩
      | some filled =>
        have kept : Capped filled.tool := by
          obtain ⟨-, -, -, same | small⟩ := takeInput_some fits
          · rw [Capped, same]
            exact opened_capped capped
          · exact small
        have closing : ∀ tool ∈ parser.closed uuid v, Capped tool := by
          unfold closed
          split
          next => exact flush_capped capped
          next => exact List.forall_mem_nil _
        rw [handOut_accepted tool read fits]
        split
        next =>
          exact ⟨capped_empty, List.forall_mem_append.2 ⟨before, List.forall_mem_append.2
            ⟨closing, List.forall_mem_singleton.2 kept⟩⟩⟩
        next => exact ⟨kept, List.forall_mem_append.2 ⟨before, closing⟩⟩

variable (serde) (uuid) in
def report (parser : EventParser) (frame : Frame) : EventParser × List (Except EventError (List Event)) :=
  let parsed := parser.parse serde uuid frame
  (parsed.1, [parsed.2])

def shift (drawn : Nat) (parser : EventParser) : EventParser := { parser with drawn := drawn + parser.drawn }

theorem opens_shift (drawn : Nat) (parser : EventParser) (v : Value) :
    (parser.shift drawn).opens uuid v = (parser.opens (fun n => uuid (drawn + n)) v).map (shift drawn) := by
  rw [opens_eq, opens_eq]
  cases strField v "toolUseId" with
  | some id => by_cases same : id = parser.tool.id <;> simp [shift, same]
  | none => by_cases idle : parser.tool.id = [] <;> simp [shift, idle, Nat.add_assoc]

theorem takeName_shift (drawn : Nat) (parser : EventParser) (v : Value) :
    (parser.shift drawn).takeName v = (parser.takeName v).shift drawn := by
  unfold takeName
  split <;> rfl

theorem takeInput_shift (drawn : Nat) (parser : EventParser) (v : Value) :
    (parser.shift drawn).takeInput serde v = (parser.takeInput serde v).map (shift drawn) := by
  unfold takeInput
  split
  next s _ => by_cases large : parser.tool.input.byteLen + s.byteLen > maxToolInputBytes <;> simp [shift, large]
  next => rfl
  next => rfl
  next other _ _ _ => by_cases large : (serde.print other).byteLen > maxToolInputBytes <;> simp [shift, large]

theorem toolUse_shift (drawn : Nat) (parser : EventParser) (v : Value) :
    (parser.shift drawn).toolUse serde uuid v =
      let fresh := parser.toolUse serde (fun n => uuid (drawn + n)) v
      (fresh.1.shift drawn, fresh.2) := by
  have opened : ((parser.shift drawn).opens uuid v).getD (parser.shift drawn) =
      ((parser.opens (fun n => uuid (drawn + n)) v).getD parser).shift drawn := by
    rw [opens_shift]
    cases parser.opens (fun n => uuid (drawn + n)) v <;> rfl
  unfold toolUse
  simp only [opened, takeName_shift, takeInput_shift]
  rw [opens_shift, Option.isSome_map]
  cases (((parser.opens (fun n => uuid (drawn + n)) v).getD parser).takeName v).takeInput serde v with
  | none => rfl
  | some filled =>
    simp only [Option.map_some]
    split <;> rfl

theorem parse_shift (drawn : Nat) (parser : EventParser) (frame : Frame) :
    (parser.shift drawn).parse serde uuid frame =
      let fresh := parser.parse serde (fun n => uuid (drawn + n)) frame
      (fresh.1.shift drawn, fresh.2) := by
  unfold parse
  simp only [toolUse_shift]
  repeat' split
  all_goals rfl

variable (serde uuid) in
theorem reports_shift (drawn : Nat) (parser : EventParser) (frames : List Frame) :
    Emitter.runAll (report serde uuid) (parser.shift drawn) frames =
      let fresh := Emitter.runAll (report serde fun n => uuid (drawn + n)) parser frames
      (fresh.1.shift drawn, fresh.2) := by
  induction frames generalizing parser with
  | nil => rfl
  | cons frame rest ih =>
    have first : report serde uuid (parser.shift drawn) frame =
        ((report serde (fun n => uuid (drawn + n)) parser frame).1.shift drawn,
          (report serde (fun n => uuid (drawn + n)) parser frame).2) := by
      unfold report
      rw [parse_shift]
    simp only [Emitter.runAll_cons, first, ih]

theorem finish_shift (drawn : Nat) (parser : EventParser) : (parser.shift drawn).finish.2 = parser.finish.2 := by
  unfold finish
  by_cases idle : parser.tool.id = []
  next => rw [if_pos idle, if_pos (show (parser.shift drawn).tool.id = [] from idle)]
  next => rw [if_neg idle, if_neg (show ¬ (parser.shift drawn).tool.id = [] from idle)]; rfl

theorem toolUse_error {id : Str} {max : Nat} (failed : (parser.toolUse serde uuid v).2 = .error (.toolInputTooLarge id max)) :
    (parser.toolUse serde uuid v).1.tool = .empty := by
  unfold toolUse at failed ⊢
  dsimp only at failed ⊢
  split at failed
  next => rfl
  next filled fits =>
    split at failed <;> cases failed

theorem parse_error {id : Str} {max : Nat} (failed : (parser.parse serde uuid frame).2 = .error (.toolInputTooLarge id max)) :
    (parser.parse serde uuid frame).1.tool = .empty := by
  cases tool : frame.isToolUse with
  | true =>
    rw [parse_tool tool] at failed ⊢
    split at failed
    next => cases failed
    next v read => exact toolUse_error failed
  | false => exact absurd failed ((parse_other serde uuid parser tool).2.2 id max)

theorem overflow_resets {id : Str} {max : Nat}
    (failed : (parser.parse serde uuid frame).2 = .error (.toolInputTooLarge id max)) :
    (parser.parse serde uuid frame).1 = shift (parser.parse serde uuid frame).1.drawn new := by
  have emptied := parse_error failed
  generalize (parser.parse serde uuid frame).1 = after at emptied
  cases after
  cases emptied
  rfl

theorem tool_input_capped (serde : Serde) (uuid : Nat → Str) (frames : List Frame) :
    let parser := (Emitter.runAll (handOut serde uuid) new frames).1
    Capped parser.tool ∧ (∀ tool ∈ handsOut serde uuid new frames, Capped tool) ∧
      ∀ frame id max, (parser.parse serde uuid frame).2 = .error (.toolInputTooLarge id max) →
        let after := (parser.parse serde uuid frame).1
        ∀ later,
          let run := Emitter.runAll (report serde uuid) after later
          let fresh := Emitter.runAll (report serde fun n => uuid (after.drawn + n)) new later
          run.2 = fresh.2 ∧ run.1.finish.2 = fresh.1.finish.2 := by
  have kept := Emitter.Preserves.runAll (handOut_capped serde uuid) frames new [] ⟨capped_empty, List.forall_mem_nil _⟩
  refine ⟨kept.1, List.forall_mem_append.2 ⟨kept.2, flush_capped kept.1⟩, ?_⟩
  intro frame id max failed after later run fresh
  have same : run = (fresh.1.shift after.drawn, fresh.2) := by
    have shifted := reports_shift serde uuid after.drawn new later
    rwa [← overflow_resets failed] at shifted
  rw [same]
  exact ⟨rfl, finish_shift _ _⟩

def knownSerde (known : List (Str × Value)) : Serde where
  fromSlice data := (known.find? fun entry => entry.1.bytes = data).map Prod.snd
  fromStr text := (known.find? fun entry => entry.1 = text).map Prod.snd
  print _ := "null".toList

def sampleUuid (n : Nat) : Str := "1b4e28ba-2fa1-41d2-883f-".toList ++ List.replicate 12 (Nat.digitChar (n % 16))

def toolFrame (payload : Str) : Frame :=
  ⟨[(":message-type".toList, .string "event".toList), (":event-type".toList, .string "toolUseEvent".toList)],
    payload.bytes⟩

def longText (input : Str) : Str :=
  "\x7b\"toolUseId\":\"t1\",\"name\":\"write\",\"input\":\"".toList ++ input ++ "\"\x7d".toList

def longValue (input : Str) : Value :=
  .object [("toolUseId".toList, .string "t1".toList), ("name".toList, .string "write".toList),
    ("input".toList, .string input)]

theorem long_rejected {input : Str} (long : maxToolInputBytes < input.byteLen) :
    (new.parse (knownSerde [(longText input, longValue input)]) sampleUuid (toolFrame (longText input))).2 =
      .error (.toolInputTooLarge "t1".toList maxToolInputBytes) := by
  have read : (knownSerde [(longText input, longValue input)]).fromSlice (toolFrame (longText input)).payload =
      some (longValue input) := by simp [knownSerde, toolFrame]
  have found : (longValue input).get "input".toList = some (.string input) := rfl
  have opened : new.opened sampleUuid (longValue input) = ⟨⟨"t1".toList, "write".toList, []⟩, 0⟩ := rfl
  have tooLarge : (new.opened sampleUuid (longValue input)).takeInput (knownSerde [(longText input, longValue input)])
      (longValue input) = none := by
    rw [takeInput, found, opened]
    exact if_pos (Nat.lt_of_lt_of_le long (Nat.le_add_left _ _))
  rw [parse_tool (show (toolFrame (longText input)).isToolUse = true from rfl), read]
  unfold EventParser.opened at tooLarge opened
  simp only [toolUse, tooLarge]
  rw [opened]
  rfl

def longInput (length : Nat) : Str := List.replicate length 'a'

theorem longInput_byteLen (length : Nat) : (longInput length).byteLen = length := by
  unfold longInput
  induction length with
  | zero => rfl
  | succ n ih => rw [List.replicate_succ, Str.byteLen_cons, ih, show 'a'.utf8Size = 1 from rfl, Nat.add_comm]

theorem longInput_long : maxToolInputBytes < (longInput (maxToolInputBytes + 1)).byteLen := by
  rw [longInput_byteLen]
  exact Nat.lt_succ_self _

theorem tool_input_capped_long :
    let input := longInput (maxToolInputBytes + 1)
    let serde := knownSerde [(longText input, longValue input)]
    let after := (new.parse serde sampleUuid (toolFrame (longText input))).1
    ∀ later,
      let run := Emitter.runAll (report serde sampleUuid) after later
      let fresh := Emitter.runAll (report serde fun n => sampleUuid (after.drawn + n)) new later
      run.2 = fresh.2 ∧ run.1.finish.2 = fresh.1.finish.2 := by
  have long := longInput_long
  -- The input stays a variable: its characters are not to be computed.
  generalize longInput (maxToolInputBytes + 1) = input at long ⊢
  exact (tool_input_capped _ sampleUuid []).2.2 _ _ _ (long_rejected long)

variable (serde) in
/-- A frame that only says `stop` while no call is in flight. -/
def ClosesNothing (parser : EventParser) (frame : Frame) : Prop :=
  frame.isToolUse = true ∧ parser.tool.id = [] ∧
    ∃ v, serde.fromSlice frame.payload = some v ∧ strField v "toolUseId" = none ∧ v.get "name".toList = none ∧
      stops v ∧ InputFits serde parser v

variable (serde uuid) in
def openedBy (parser : EventParser) (frame : Frame) : List Str :=
  if frame.isToolUse then
    match serde.fromSlice frame.payload with
    | some v => ((parser.opens uuid v).map fun next => next.tool.id).toList
    | none => []
  else []

variable (serde uuid) in
def openedIds (frames : List Frame) : List Str :=
  (Emitter.visits (handOut serde uuid) new frames).flatMap fun visit => openedBy serde uuid visit.1 visit.2

variable (serde uuid) in
/-- Of each prefix, the calls handed out are among the calls opened, each once and by a name. -/
def Genuine (frames : List Frame) : Prop :=
  ∀ earlier, earlier <+: frames →
    (∀ tool ∈ handsOut serde uuid new earlier, tool.id ≠ []) ∧
      ((handsOut serde uuid new earlier).map fun tool => tool.id).Sublist (openedIds serde uuid earlier)

theorem takeInput_isSome (parser : EventParser) (v : Value) :
    (parser.takeInput serde v).isSome ↔ InputFits serde parser v := by
  unfold takeInput InputFits
  cases v.get "input".toList with
  | none => simp
  | some value => cases value <;> simp [Option.isSome_iff_exists]

theorem inputFits_takeName : InputFits serde (parser.takeName v) v ↔ InputFits serde parser v := by
  unfold InputFits
  rw [takeName_input]

theorem opens_none (idle : parser.tool.id = []) :
    parser.opens uuid v = none ↔ strField v "toolUseId" = none ∧ v.get "name".toList = none := by
  rw [opens_eq]
  cases named : strField v "toolUseId" with
  | none => cases v.get "name".toList <;> simp [idle]
  | some id => simp [idle, strField_ne_nil named]

theorem flush_ids (parser : EventParser) :
    (parser.flush.map fun tool => tool.id) = if parser.tool.id = [] then [] else [parser.tool.id] := by
  rw [flush_eq]
  split <;> rfl

theorem flush_id : ∀ tool ∈ parser.flush, tool.id ≠ [] := by
  rw [flush_eq]
  split
  next => exact List.forall_mem_nil _
  next named => exact List.forall_mem_singleton.2 named

theorem handOut_owes (supply : ∀ n, uuid n ≠ []) (genuine : ¬ ClosesNothing serde parser frame) :
    let next := parser.handOut serde uuid frame
    (∀ tool ∈ next.2, tool.id ≠ []) ∧
      ((next.2 ++ next.1.flush).map fun tool => tool.id).Sublist
        ((parser.flush.map fun tool => tool.id) ++ openedBy serde uuid parser frame) := by
  cases tool : frame.isToolUse with
  | false =>
    rw [handOut_other tool]
    exact ⟨List.forall_mem_nil _, List.sublist_append_left _ _⟩
  | true =>
    cases read : serde.fromSlice frame.payload with
    | none =>
      rw [handOut_unread tool read]
      exact ⟨List.forall_mem_nil _, List.sublist_append_left _ _⟩
    | some v =>
      cases fits : (parser.opened uuid v).takeInput serde v with
      | none =>
        rw [handOut_rejected tool read fits]
        exact ⟨List.forall_mem_nil _, List.nil_sublist _⟩
      | some filled =>
        have opens : openedBy serde uuid parser frame = ((parser.opens uuid v).map fun next => next.tool.id).toList := by
          simp [openedBy, tool, read]
        have named := (takeInput_some fits).1
        rw [handOut_accepted tool read fits, opens]
        unfold opened at named
        rw [takeName_id] at named
        cases opening : parser.opens uuid v with
        | some next =>
          have given : next.tool.id ≠ [] := opens_id supply opening
          have same : filled.tool.id = next.tool.id := by rw [named, opening, Option.getD_some]
          have closing : parser.closed uuid v = parser.flush := by rw [closed, opening]; rfl
          rw [closing]
          split
          next =>
            refine ⟨List.forall_mem_append.2 ⟨flush_id, List.forall_mem_singleton.2 (same ▸ given)⟩, ?_⟩
            simp [flush_ids, ToolUseAccumulator.empty, same]
          next =>
            refine ⟨flush_id, ?_⟩
            simp [flush_ids filled, same, given]
        | none =>
          have same : filled.tool.id = parser.tool.id := by rw [named, opening, Option.getD_none]
          have closing : parser.closed uuid v = [] := by rw [closed, opening]; rfl
          rw [closing]
          split
          next stopping =>
            have busy : parser.tool.id ≠ [] := by
              intro idle
              obtain ⟨unnamed, nameless⟩ := (opens_none idle).1 opening
              have accepted : InputFits serde parser v := by
                rw [← inputFits_takeName, ← takeInput_isSome]
                unfold opened at fits
                rw [opening, Option.getD_none] at fits
                rw [fits]
                rfl
              exact genuine ⟨tool, idle, v, read, unnamed, nameless, stopping, accepted⟩
            refine ⟨List.forall_mem_singleton.2 (same ▸ busy), ?_⟩
            simp [flush_ids, ToolUseAccumulator.empty, same, busy]
          next =>
            refine ⟨List.forall_mem_nil _, ?_⟩
            simp [flush_ids, same]

theorem run_genuine (supply : ∀ n, uuid n ≠ []) (frames : List Frame)
    (genuine : ∀ visit ∈ Emitter.visits (handOut serde uuid) new frames, ¬ ClosesNothing serde visit.1 visit.2) :
    (∀ tool ∈ handsOut serde uuid new frames, tool.id ≠ []) ∧
      ((handsOut serde uuid new frames).map fun tool => tool.id).Sublist (openedIds serde uuid frames) := by
  induction frames using List.reverseRecOn with
  | nil => exact ⟨List.forall_mem_nil _, List.nil_sublist _⟩
  | append_singleton earlier frame ih =>
    rw [Emitter.visits_append] at genuine
    obtain ⟨before, here⟩ := List.forall_mem_append.1 genuine
    obtain ⟨given, among⟩ := ih before
    obtain ⟨added, owed⟩ := handOut_owes supply (here (_, frame) (List.mem_singleton_self _))
    unfold handsOut openedIds at *
    rw [Emitter.visits_append, Emitter.runAll_append]
    simp only [Emitter.visits, Emitter.runAll_cons, Emitter.runAll_nil, List.append_nil, List.flatMap_append,
      List.flatMap_cons, List.flatMap_nil, List.append_assoc, List.map_append] at *
    refine ⟨List.forall_mem_append.2 ⟨(List.forall_mem_append.1 given).1, List.forall_mem_append.2 ⟨added, flush_id⟩⟩, ?_⟩
    refine (List.Sublist.append_left owed _).trans ?_
    rw [← List.append_assoc]
    exact among.append_right _

variable (uuid) in
theorem closesNothing_handOut (phantom : ClosesNothing serde parser frame) :
    ∃ tool ∈ (parser.handOut serde uuid frame).2, tool.id = [] := by
  obtain ⟨tool, idle, v, read, unnamed, nameless, stopping, accepted⟩ := phantom
  have opening : parser.opens uuid v = none := (opens_none idle).2 ⟨unnamed, nameless⟩
  rw [← inputFits_takeName, ← takeInput_isSome] at accepted
  obtain ⟨filled, taken⟩ := Option.isSome_iff_exists.1 accepted
  have fits : (parser.opened uuid v).takeInput serde v = some filled := by
    rw [opened, opening]
    exact taken
  refine ⟨filled.tool, ?_, ?_⟩
  · rw [handOut_accepted tool read fits, if_pos stopping]
    exact List.mem_append_right _ (List.mem_singleton_self _)
  · rw [(takeInput_some taken).1, takeName_id, idle]

theorem tool_calls_genuine_iff (serde : Serde) (uuid : Nat → Str) (supply : ∀ n, uuid n ≠ []) (frames : List Frame) :
    Genuine serde uuid frames ↔
      ∀ visit ∈ Emitter.visits (handOut serde uuid) new frames, ¬ ClosesNothing serde visit.1 visit.2 := by
  constructor
  · intro genuine visit visited phantom
    obtain ⟨before, after, rfl, reached⟩ := Emitter.mem_visits visited
    obtain ⟨tool, out, nameless⟩ := closesNothing_handOut uuid phantom
    have earlier : before ++ [visit.2] <+: before ++ visit.2 :: after := ⟨after, by simp⟩
    refine (genuine _ earlier).1 tool ?_ nameless
    rw [reached] at out
    unfold handsOut
    rw [Emitter.runAll_append]
    simp only [Emitter.runAll_cons, Emitter.runAll_nil, List.append_nil]
    exact List.mem_append_left _ (List.mem_append_right _ out)
  · rintro steady earlier ⟨later, rfl⟩
    rw [Emitter.visits_append] at steady
    exact run_genuine supply earlier (List.forall_mem_append.1 steady).1

def stopText : Str := "\x7b\"stop\":true\x7d".toList

def wholeText : Str := "\x7b\"toolUseId\":\"t1\",\"name\":\"read\",\"stop\":true\x7d".toList

def stopSerde : Serde := knownSerde [(stopText, .object [("stop".toList, .bool true)]),
  (wholeText, .object [("toolUseId".toList, .string "t1".toList), ("name".toList, .string "read".toList),
    ("stop".toList, .bool true)])]

theorem sampleUuid_ne_nil (n : Nat) : sampleUuid n ≠ [] := List.cons_ne_nil _ _

theorem stop_alone_phantom :
    handsOut stopSerde sampleUuid new [toolFrame stopText] = [⟨[], [], []⟩] ∧
      ¬ Genuine stopSerde sampleUuid [toolFrame stopText] := by
  have phantom : handsOut stopSerde sampleUuid new [toolFrame stopText] = [⟨[], [], []⟩] := by decide +kernel
  refine ⟨phantom, fun genuine => ?_⟩
  have named := (genuine _ (List.prefix_refl _)).1
  rw [phantom] at named
  exact named _ (List.mem_singleton_self _) rfl

theorem whole_call_genuine : Genuine stopSerde sampleUuid [toolFrame wholeText] := by
  refine (tool_calls_genuine_iff stopSerde sampleUuid sampleUuid_ne_nil _).2 fun visit visited phantom => ?_
  obtain rfl := List.mem_singleton.1 visited
  obtain ⟨-, -, v, read, unnamed, -⟩ := phantom
  cases read
  cases unnamed

end EventParser

structure ToolPart where
  id : Option Str
  name : Option Str
  input : Option Str
  stop : Bool

def ToolPart.CarriedBy (serde : Serde) (part : ToolPart) (frame : Frame) : Prop :=
  ∃ v, serde.fromSlice frame.payload = some v ∧ strField v "toolUseId" = part.id ∧ strField v "name" = part.name ∧
    v.get "input".toList = part.input.map Value.string ∧ (stops v ↔ part.stop = true)

structure LaterPart where
  repeatsId : Bool
  repeatsName : Bool
  input : Option Str

structure SentCall where
  id : Str
  name : Str
  input : Option Str
  later : List LaterPart
  stops : Bool
  idGiven : id ≠ []
  nameGiven : name ≠ []
  fits : Str.byteLen (input.toList ++ later.filterMap LaterPart.input).flatten ≤ maxToolInputBytes

def closing (stop : Bool) : List ToolPart → List ToolPart
  | [] => []
  | [last] => [{ last with stop }]
  | part :: rest => part :: closing stop rest

namespace SentCall

def tool (call : SentCall) : ToolUseAccumulator :=
  ⟨call.id, call.name, (call.input.toList ++ call.later.filterMap LaterPart.input).flatten⟩

def laterPart (id name : Str) (part : LaterPart) : ToolPart :=
  ⟨if part.repeatsId then some id else none, if part.repeatsName then some name else none, part.input, false⟩

def parts (call : SentCall) : List ToolPart :=
  closing call.stops (⟨some call.id, some call.name, call.input, false⟩ :: call.later.map (laterPart call.id call.name))

end SentCall

namespace EventParser

variable {serde : Serde} {uuid : Nat → Str} {parser : EventParser} {frame : Frame}

def reach (parser : EventParser) (tool : ToolUseAccumulator) (stop : Bool) : EventParser × List ToolUseAccumulator :=
  if stop then ({ parser with tool := .empty }, [tool]) else ({ parser with tool }, [])

theorem takeInput_fragment {v : Value} {input : Option Str} (found : v.get "input".toList = input.map Value.string)
    (fits : (parser.tool.input ++ input.toList.flatten).byteLen ≤ maxToolInputBytes) :
    parser.takeInput serde v =
      some { parser with tool := { parser.tool with input := parser.tool.input ++ input.toList.flatten } } := by
  unfold takeInput
  rw [found]
  cases input with
  | none => simp
  | some s =>
    have small : ¬ parser.tool.input.byteLen + s.byteLen > maxToolInputBytes := by
      simp only [Str.byteLen, Str.bytes, Option.toList_some, List.flatten_cons, List.flatten_nil, List.append_nil,
        List.flatMap_append, List.length_append] at fits ⊢
      omega
    simp [small]

variable (uuid parser) in
theorem handOut_fragment {v : Value} {input : Option Str} {stop : Bool} (tool : frame.isToolUse = true)
    (read : serde.fromSlice frame.payload = some v) (found : v.get "input".toList = input.map Value.string)
    (stopping : stops v ↔ stop = true)
    (fits : ((parser.opened uuid v).tool.input ++ input.toList.flatten).byteLen ≤ maxToolInputBytes) :
    let opened := parser.opened uuid v
    let reached := opened.reach { opened.tool with input := opened.tool.input ++ input.toList.flatten } stop
    parser.handOut serde uuid frame = (reached.1, parser.closed uuid v ++ reached.2) := by
  rw [handOut_accepted tool read (takeInput_fragment found fits)]
  cases stop with
  | true => rw [if_pos (stopping.2 rfl)]; rfl
  | false =>
    rw [if_neg fun now => Bool.false_ne_true (stopping.1 now)]
    simp [reach]

variable (uuid) in
theorem handOut_first {part : ToolPart} {id name : Str} (tool : frame.isToolUse = true)
    (carried : part.CarriedBy serde frame) (byId : part.id = some id) (byName : part.name = some name)
    (changed : parser.tool.id ≠ id) (fits : Str.byteLen part.input.toList.flatten ≤ maxToolInputBytes) :
    let reached := parser.reach ⟨id, name, part.input.toList.flatten⟩ part.stop
    parser.handOut serde uuid frame = (reached.1, parser.flush ++ reached.2) := by
  obtain ⟨v, read, hasId, hasName, found, stopping⟩ := carried
  rw [byId] at hasId
  rw [byName] at hasName
  have opening : parser.opens uuid v = some { parser with tool := ⟨id, [], []⟩ } := by
    rw [opens_eq, hasId]
    exact if_neg (Ne.symm changed)
  have opened : parser.opened uuid v = { parser with tool := ⟨id, name, []⟩ } := by
    rw [EventParser.opened, opening, Option.getD_some, takeName, hasName]
  have closing : parser.closed uuid v = parser.flush := by rw [closed, opening]; rfl
  have step := handOut_fragment uuid parser tool read found stopping (by rw [opened]; exact fits)
  rw [step, closing, opened]
  rfl

variable (uuid) in
theorem handOut_later {part : LaterPart} (stop : Bool) (tool : frame.isToolUse = true) (busy : parser.tool.id ≠ [])
    (carried : ToolPart.CarriedBy serde { SentCall.laterPart parser.tool.id parser.tool.name part with stop } frame)
    (fits : (parser.tool.input ++ part.input.toList.flatten).byteLen ≤ maxToolInputBytes) :
    parser.handOut serde uuid frame =
      parser.reach { parser.tool with input := parser.tool.input ++ part.input.toList.flatten } stop := by
  obtain ⟨v, read, hasId, hasName, found, stopping⟩ := carried
  simp only [SentCall.laterPart] at hasId hasName found stopping
  have opening : parser.opens uuid v = none := by
    rw [opens_eq, hasId]
    cases part.repeatsId with
    | true => exact if_pos rfl
    | false => exact if_neg fun idle => busy idle.1
  have opened : parser.opened uuid v = parser := by
    rw [EventParser.opened, opening, Option.getD_none, takeName, hasName]
    cases part.repeatsName <;> rfl
  have closing : parser.closed uuid v = [] := by rw [closed, opening]; rfl
  have step := handOut_fragment uuid parser tool read found stopping (by rw [opened]; exact fits)
  rw [step, closing, opened]
  rfl

theorem byteLen_append (front back : Str) : Str.byteLen (front ++ back) = front.byteLen + back.byteLen := by
  simp [Str.byteLen, Str.bytes]

theorem reach_going (parser : EventParser) (tool : ToolUseAccumulator) :
    parser.reach tool false = ({ parser with tool }, []) := rfl

theorem reach_tool (parser : EventParser) (before tool : ToolUseAccumulator) (stop : Bool) :
    EventParser.reach { parser with tool := before } tool stop = parser.reach tool stop := by
  cases stop <;> rfl

variable (uuid parser) in
theorem later_reach {stop : Bool} {later : List LaterPart} {frames : List Frame} (some : later ≠ [])
    (tools : ∀ frame ∈ frames, frame.isToolUse = true) (busy : parser.tool.id ≠ [])
    (carried : List.Forall₂ (ToolPart.CarriedBy serde)
      (closing stop (later.map (SentCall.laterPart parser.tool.id parser.tool.name))) frames)
    (fits : (parser.tool.input ++ (later.filterMap LaterPart.input).flatten).byteLen ≤ maxToolInputBytes) :
    Emitter.runAll (handOut serde uuid) parser frames =
      parser.reach { parser.tool with input := parser.tool.input ++ (later.filterMap LaterPart.input).flatten } stop := by
  induction later generalizing parser frames with
  | nil => exact absurd rfl some
  | cons part rest ih =>
    have shape : (List.filterMap LaterPart.input (part :: rest)).flatten =
        part.input.toList.flatten ++ (rest.filterMap LaterPart.input).flatten := by
      cases found : part.input <;> simp [found]
    rw [shape, ← List.append_assoc] at fits ⊢
    rw [byteLen_append] at fits
    cases rest with
    | nil =>
      obtain ⟨frame, rest, first, last, rfl⟩ := List.forall₂_cons_left_iff.1 carried
      obtain rfl := List.forall₂_nil_left_iff.1 last
      have step := handOut_later uuid stop (tools frame List.mem_cons_self) busy first (by omega)
      rw [Emitter.runAll_cons, step, Emitter.runAll_nil]
      simp
    | cons next others =>
      obtain ⟨frame, rest, first, remaining, rfl⟩ := List.forall₂_cons_left_iff.1 carried
      have step := handOut_later uuid false (tools frame List.mem_cons_self) busy first (by omega)
      rw [Emitter.runAll_cons, step, reach_going]
      have continues := ih { parser with tool := { parser.tool with
          input := parser.tool.input ++ part.input.toList.flatten } } (List.cons_ne_nil _ _)
        (fun frame inside => tools frame (List.mem_cons_of_mem _ inside)) busy remaining
        (by rw [byteLen_append]; exact fits)
      rw [continues, reach_tool]
      rfl

variable (uuid) in
theorem call_reach {call : SentCall} {frames : List Frame} (tools : ∀ frame ∈ frames, frame.isToolUse = true)
    (changed : parser.tool.id ≠ call.id)
    (carried : List.Forall₂ (ToolPart.CarriedBy serde) call.parts frames) :
    let reached := parser.reach call.tool call.stops
    Emitter.runAll (handOut serde uuid) parser frames = (reached.1, parser.flush ++ reached.2) := by
  have fits := call.fits
  rw [List.flatten_append, byteLen_append] at fits
  have tool : call.tool = ⟨call.id, call.name,
      call.input.toList.flatten ++ (call.later.filterMap LaterPart.input).flatten⟩ := by
    rw [SentCall.tool, List.flatten_append]
  rw [tool]
  unfold SentCall.parts at carried
  generalize call.later = later at carried fits
  cases later with
  | nil =>
    obtain ⟨frame, rest, first, last, rfl⟩ := List.forall₂_cons_left_iff.1 carried
    obtain rfl := List.forall₂_nil_left_iff.1 last
    have step := handOut_first uuid (tools frame List.mem_cons_self) first rfl rfl changed (Nat.le_of_add_right_le fits)
    rw [Emitter.runAll_cons, step, Emitter.runAll_nil]
    simp
  | cons next others =>
    obtain ⟨frame, rest, first, remaining, rfl⟩ := List.forall₂_cons_left_iff.1 carried
    have step := handOut_first uuid (tools frame List.mem_cons_self) first rfl rfl changed (Nat.le_of_add_right_le fits)
    rw [Emitter.runAll_cons, step, reach_going]
    have continues := later_reach uuid
      { parser with tool := ⟨call.id, call.name, call.input.toList.flatten⟩ } (List.cons_ne_nil _ _)
      (fun frame inside => tools frame (List.mem_cons_of_mem _ inside)) call.idGiven remaining
      (by rw [byteLen_append]; exact fits)
    rw [continues]
    cases call.stops <;> simp [reach]

variable (uuid parser) in
theorem calls_handed {calls : List SentCall} {groups : List (List Frame)}
    (sent : List.Forall₂ (fun call frames => List.Forall₂ (ToolPart.CarriedBy serde) call.parts frames) calls groups)
    (tools : ∀ frame ∈ groups.flatten, frame.isToolUse = true)
    (first : ∀ call ∈ calls.head?, parser.tool.id ≠ call.id)
    (chain : calls.IsChain fun call next => call.stops = false → call.id ≠ next.id) :
    handsOut serde uuid parser groups.flatten = parser.flush ++ calls.map SentCall.tool := by
  induction sent generalizing parser with
  | nil => simp [handsOut]
  | @cons call frames rest groups carried _ ih =>
    rw [List.flatten_cons] at tools ⊢
    obtain ⟨here, later⟩ := List.forall_mem_append.1 tools
    have reached := call_reach uuid here (first call rfl) carried
    have chained : ∀ next ∈ rest.head?, (parser.reach call.tool call.stops).1.tool.id ≠ next.id := by
      intro next following
      cases stopping : call.stops with
      | true => exact next.idGiven.symm
      | false =>
        cases rest with
        | nil => cases following
        | cons other others =>
          cases following
          exact (List.isChain_cons_cons.1 chain).1 stopping
    have continues := ih (parser.reach call.tool call.stops).1 later chained chain.of_cons
    unfold handsOut at continues ⊢
    rw [Emitter.runAll_append, reached]
    simp only [List.append_assoc, continues, List.map_cons, List.append_cancel_left_eq]
    cases stopping : call.stops with
    | true => simp [reach, flush_eq, ToolUseAccumulator.empty]
    | false => simp [reach, flush_eq, SentCall.tool, call.idGiven]

theorem runAll_tools (parser : EventParser) (frames : List Frame) :
    Emitter.runAll (handOut serde uuid) parser frames =
      Emitter.runAll (handOut serde uuid) parser (frames.filter Frame.isToolUse) := by
  induction frames generalizing parser with
  | nil => rfl
  | cons frame rest ih =>
    cases tool : frame.isToolUse with
    | false =>
      rw [Emitter.runAll_cons, handOut_other tool, List.filter_cons_of_neg (by simp [tool]), ← ih]
      rfl
    | true => rw [Emitter.runAll_cons, List.filter_cons_of_pos tool, Emitter.runAll_cons, ih]

theorem tool_calls_reassembled (serde : Serde) (uuid : Nat → Str) (calls : List SentCall)
    (chain : calls.IsChain fun call next => call.stops = false → call.id ≠ next.id) (groups : List (List Frame))
    (sent : List.Forall₂ (fun call frames => List.Forall₂ (ToolPart.CarriedBy serde) call.parts frames) calls groups)
    (frames : List Frame) (interleaved : frames.filter Frame.isToolUse = groups.flatten) :
    handsOut serde uuid new frames = calls.map SentCall.tool := by
  have tools : ∀ frame ∈ groups.flatten, frame.isToolUse = true := by
    rw [← interleaved]
    exact fun frame inside => (List.mem_filter.1 inside).2
  have idle : ∀ call ∈ calls.head?, new.tool.id ≠ call.id := fun call _ => call.idGiven.symm
  have handed := calls_handed uuid new sent tools idle chain
  unfold handsOut at handed ⊢
  rw [runAll_tools, interleaved, handed]
  rfl

def openText : Str := "\x7b\"toolUseId\":\"t1\",\"name\":\"read\",\"input\":\"[1,\"\x7d".toList

def moreText : Str := "\x7b\"name\":\"read\",\"input\":\"2]\"\x7d".toList

def nextText : Str := "\x7b\"toolUseId\":\"t2\",\"name\":\"list\",\"stop\":true\x7d".toList

def callsSerde : Serde := knownSerde
  [(openText, .object [("toolUseId".toList, .string "t1".toList), ("name".toList, .string "read".toList),
      ("input".toList, .string "[1,".toList)]),
    (moreText, .object [("name".toList, .string "read".toList), ("input".toList, .string "2]".toList)]),
    (nextText, .object [("toolUseId".toList, .string "t2".toList), ("name".toList, .string "list".toList),
      ("stop".toList, .bool true)])]

def sampleCalls : List SentCall :=
  [⟨"t1".toList, "read".toList, some "[1,".toList, [⟨false, true, some "2]".toList⟩], false, by decide, by decide,
      by decide⟩,
    ⟨"t2".toList, "list".toList, none, [], true, by decide, by decide, by decide⟩]

theorem tool_calls_reassembled_sample :
    handsOut callsSerde sampleUuid new
        [toolFrame openText, ⟨[(":event-type".toList, .string "ping".toList)], []⟩, toolFrame moreText,
          toolFrame nextText] =
      [⟨"t1".toList, "read".toList, "[1,2]".toList⟩, ⟨"t2".toList, "list".toList, []⟩] :=
  tool_calls_reassembled callsSerde sampleUuid sampleCalls (by decide)
    [[toolFrame openText, toolFrame moreText], [toolFrame nextText]]
    (.cons (.cons ⟨_, rfl, rfl, rfl, rfl, by decide⟩ (.cons ⟨_, rfl, rfl, rfl, rfl, by decide⟩ .nil))
      (.cons (.cons ⟨_, rfl, rfl, rfl, rfl, by decide⟩ .nil) .nil))
    _ rfl

end EventParser

end KiroTrust.EventStream
