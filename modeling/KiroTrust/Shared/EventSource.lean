import KiroTrust.Shared.Emitter

set_option autoImplicit false

namespace EventSource

open Emitter

/-! A reader of `text/event-stream`, as the standard describes it, and the texts it takes apart. -/

abbrev Text := List Char

structure Message where
  event : Text
  data : Text
  deriving DecidableEq

structure Reader where
  line : Text
  -- A carriage return has just ended a line: a line feed now belongs to it.
  returned : Bool
  event : Text
  data : Text
  deriving DecidableEq

def idle : Reader := ⟨[], false, [], []⟩

/-- A blank line: what was collected is one message, unless there was no data. -/
def Reader.dispatch (r : Reader) : Reader × List Message :=
  let reset : Reader := ⟨[], r.returned, [], []⟩
  if r.data = [] then (reset, [])
  else (reset, [⟨if r.event = [] then "message".toList else r.event, r.data.dropLast⟩])

def Reader.field (r : Reader) (name value : Text) : Reader :=
  if name = "event".toList then { r with event := value }
  else if name = "data".toList then { r with data := r.data ++ value ++ ['\n'] }
  else r

/-- The value of a field begins behind the colon and at most one blank. -/
def fieldValue : Text → Text
  | ':' :: ' ' :: value => value
  | ':' :: value => value
  | value => value

def Reader.endLine (r : Reader) : Reader × List Message :=
  let cleared := { r with line := [] }
  match r.line with
  | [] => r.dispatch
  | ':' :: _ => (cleared, [])
  | line => (cleared.field (line.takeWhile (· ≠ ':')) (fieldValue (line.dropWhile (· ≠ ':'))), [])

def Reader.step (r : Reader) (c : Char) : Reader × List Message :=
  if c = '\n' ∧ r.returned then ({ r with returned := false }, [])
  else if c = '\n' ∨ c = '\r' then ({ r with returned := decide (c = '\r') }).endLine
  else ({ r with line := r.line ++ [c], returned := false }, [])

/-- A message that no blank line has ended is dropped. -/
def read (text : Text) : List Message := (runAll Reader.step idle text).2

theorem read_prefix {front whole : Text} (cut : front <+: whole) : read front <+: read whole := by
  obtain ⟨back, rfl⟩ := cut
  rw [read, read, runAll_append]
  exact List.prefix_append _ _

def Inline (text : Text) : Prop := ∀ c ∈ text, c ≠ '\n' ∧ c ≠ '\r'

instance (text : Text) : Decidable (Inline text) := List.decidableBAll _ text

theorem Inline.append {left right : Text} (first : Inline left) (second : Inline right) : Inline (left ++ right) := by
  intro c inside
  obtain inside | inside := List.mem_append.1 inside
  · exact first c inside
  · exact second c inside

theorem run_inline (r : Reader) {text : Text} (inline : Inline text) (nonempty : text ≠ []) :
    runAll Reader.step r text = ({ r with line := r.line ++ text, returned := false }, []) := by
  induction text generalizing r with
  | nil => exact absurd rfl nonempty
  | cons c rest ih =>
    obtain ⟨noFeed, noReturn⟩ := inline c List.mem_cons_self
    have here : r.step c = ({ r with line := r.line ++ [c], returned := false }, []) := by
      simp [Reader.step, noFeed, noReturn]
    have inlineRest : Inline rest := fun d inside => inline d (List.mem_cons_of_mem _ inside)
    rw [runAll_cons, here]
    by_cases last : rest = []
    · simp [last]
    · rw [ih _ inlineRest last]
      simp

structure Reader.Ready (r : Reader) : Prop where
  line : r.line = []
  returned : r.returned = false

theorem Reader.Ready.field {r : Reader} (ready : r.Ready) (name value : Text) : (r.field name value).Ready := by
  unfold Reader.field
  split_ifs <;> exact ⟨ready.line, ready.returned⟩

theorem run_line {r : Reader} (ready : r.Ready) {line : Text} (inline : Inline line) (nonempty : line ≠ []) :
    runAll Reader.step r (line ++ ['\n']) = ({ r with line := line } : Reader).endLine := by
  obtain ⟨none, clear⟩ := ready
  rw [runAll_append, run_inline r inline nonempty]
  have feed : (({ r with line := line, returned := false } : Reader)).step '\n' =
      ({ r with line := line, returned := false } : Reader).endLine := by
    simp [Reader.step]
  simp only [none, List.nil_append, runAll_cons, runAll_nil, feed, List.append_nil]
  rw [← clear]

theorem run_comment {r : Reader} (ready : r.Ready) {text : Text} (inline : Inline text) :
    runAll Reader.step r (':' :: text ++ ['\n']) = (r, []) := by
  have colon : Inline (':' :: text) := by
    intro c inside
    obtain rfl | inside := List.mem_cons.1 inside
    · decide
    · exact inline c inside
  rw [run_line ready colon (by simp)]
  obtain ⟨line, returned, event, data⟩ := r
  obtain ⟨rfl, rfl⟩ := ready
  rfl

theorem field_split {name : Text} (simple : ':' ∉ name) (value : Text) :
    (name ++ ": ".toList ++ value).takeWhile (· ≠ ':') = name ∧
      fieldValue ((name ++ ": ".toList ++ value).dropWhile (· ≠ ':')) = value := by
  have passes : ∀ c ∈ name, decide (c ≠ ':') = true := fun c inside =>
    decide_eq_true fun same => simple (same ▸ inside)
  constructor
  · rw [List.append_assoc, List.takeWhile_append_of_pos passes]
    simp
  · rw [List.append_assoc, List.dropWhile_append_of_pos passes]
    simp [fieldValue]

def fieldLine (name value : Text) : Text := name ++ ": ".toList ++ value ++ ['\n']

theorem run_field {r : Reader} (ready : r.Ready) {name value : Text} (nonempty : name ≠ []) (simple : ':' ∉ name)
    (inlineName : Inline name) (inlineValue : Inline value) :
    runAll Reader.step r (fieldLine name value) = (r.field name value, []) := by
  have inline : Inline (name ++ ": ".toList ++ value) :=
    (inlineName.append (by decide)).append inlineValue
  obtain ⟨names, values⟩ := field_split simple value
  rw [fieldLine, run_line ready inline (by simp)]
  obtain ⟨first, more, rfl⟩ := List.exists_cons_of_ne_nil nonempty
  have begins : first ≠ ':' := fun same => simple (same ▸ List.mem_cons_self)
  obtain ⟨line, returned, event, data⟩ := r
  obtain ⟨rfl, rfl⟩ := ready
  simp only [Reader.endLine, List.cons_append] at names values ⊢
  split
  next impossible => cases impossible
  next same => exact absurd (List.cons.inj same).1 begins
  next => rw [names, values]

theorem run_blank {r : Reader} (ready : r.Ready) : runAll Reader.step r ['\n'] = r.dispatch := by
  obtain ⟨line, returned, event, data⟩ := r
  obtain ⟨rfl, rfl⟩ := ready
  simp [runAll_cons, Reader.step, Reader.endLine]

inductive Item where
  | message (event data : Text)
  | comment (text : Text)

def Item.text : Item → Text
  | .message event data => fieldLine "event".toList event ++ (fieldLine "data".toList data ++ ['\n'])
  | .comment text => (':' :: text ++ ['\n']) ++ ['\n']

def Item.Clean : Item → Prop
  | .message event data => event ≠ [] ∧ Inline event ∧ Inline data
  | .comment text => Inline text

def Item.messages : Item → List Message
  | .message event data => [⟨event, data⟩]
  | .comment _ => []

theorem run_item (item : Item) (clean : item.Clean) : runAll Reader.step idle item.text = (idle, item.messages) := by
  have ready : idle.Ready := ⟨rfl, rfl⟩
  cases item with
  | message event data =>
    obtain ⟨named, inlineEvent, inlineData⟩ := clean
    have first := run_field ready (show "event".toList ≠ [] by decide) (by decide) (by decide) inlineEvent
    have collecting := ready.field "event".toList event
    have second := run_field collecting (show "data".toList ≠ [] by decide) (by decide) (by decide) inlineData
    have collected := collecting.field "data".toList data
    rw [Item.text, runAll_append, first, runAll_append, second, run_blank collected]
    simp [Reader.dispatch, Reader.field, idle, named, Item.messages]
  | comment text =>
    rw [Item.text, runAll_append, run_comment ready clean, run_blank ready]
    rfl

theorem read_items (items : List Item) (clean : ∀ item ∈ items, item.Clean) :
    read (items.flatMap Item.text) = items.flatMap Item.messages := by
  suffices run : runAll Reader.step idle (items.flatMap Item.text) = (idle, items.flatMap Item.messages) by
    rw [read, run]
  induction items with
  | nil => rfl
  | cons item rest ih =>
    have here := run_item item (clean item List.mem_cons_self)
    rw [List.flatMap_cons, runAll_append, here, ih fun other inside => clean other (List.mem_cons_of_mem _ inside)]
    rfl

end EventSource
