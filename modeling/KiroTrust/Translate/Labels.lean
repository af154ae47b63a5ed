import Mathlib.Data.List.SplitBy
import KiroTrust.Translate.TagSplit

set_option autoImplicit false

namespace KiroTrust.Translate

/-! What a client is shown, letter by letter and in order. -/

inductive Piece where
  | text (letter : Char)
  | thinking (letter : Char)
  | toolUse (id name : Str)
  | input (partialJson : Str)
  deriving DecidableEq

def Piece.of (side : Active) (letter : Char) : Piece :=
  match side with
  | .text => .text letter
  | .thinking => .thinking letter

def Piece.continues : Piece → Piece → Bool
  | .text _, .text _ => true
  | .thinking _, .thinking _ => true
  | .toolUse _ _, .input _ => true
  | .input _, .input _ => true
  | _, _ => false

/-- The maximal runs of one kind; every tool call begins a run of its own. -/
def runs (content : List Piece) : List (List Piece) := content.splitBy Piece.continues

theorem runs_inj {left right : List Piece} : runs left = runs right ↔ left = right := by
  refine ⟨fun same => ?_, congrArg runs⟩
  have whole := congrArg List.flatten same
  rwa [runs, runs, List.flatten_splitBy, List.flatten_splitBy] at whole

def texts (content : List Piece) : Str :=
  content.filterMap fun
    | .text letter => some letter
    | _ => none

def thoughts (content : List Piece) : Str :=
  content.filterMap fun
    | .thinking letter => some letter
    | _ => none

def sideOf (inside : Bool) : Active := if inside then .thinking else .text

def labels (inside : Bool) (text : Str) : List (Option Active) :=
  match _found : Search.find (tagOf inside) text with
  | some idx =>
    List.replicate idx (some (sideOf inside)) ++ List.replicate (tagOf inside).length none ++
      labels (!inside) (text.drop (idx + (tagOf inside).length))
  | none => List.replicate text.length (some (sideOf inside))
termination_by text.length
decreasing_by
  have bound := (Search.find_some _found).1.bound
  have positive := tagOf_pos inside
  simp only [List.length_drop]
  omega

theorem labels_found {inside : Bool} {text : Str} {idx : Nat} (found : Search.find (tagOf inside) text = some idx) :
    labels inside text =
      List.replicate idx (some (sideOf inside)) ++ List.replicate (tagOf inside).length none ++
        labels (!inside) (text.drop (idx + (tagOf inside).length)) := by
  rw [labels]
  split
  next other found' =>
    rw [found] at found'
    cases found'
    rfl
  next absent =>
    rw [found] at absent
    cases absent

theorem labels_absent {inside : Bool} {text : Str} (absent : Search.find (tagOf inside) text = none) :
    labels inside text = List.replicate text.length (some (sideOf inside)) := by
  rw [labels]
  split
  next idx found =>
    rw [absent] at found
    cases found
  next => rfl

theorem labels_front {inside : Bool} {letter : Char} {text : Str} (absent : ¬ tagOf inside <+: letter :: text) :
    ∃ more, labels inside (letter :: text) = some (sideOf inside) :: more := by
  cases found : Search.find (tagOf inside) (letter :: text) with
  | none => exact ⟨_, labels_absent found⟩
  | some idx =>
    rw [labels_found found]
    cases idx with
    | zero => exact absurd ((Search.at_zero _ _).1 (Search.find_some found).1) absent
    | succ idx => exact ⟨_, rfl⟩

theorem labels_tag {inside : Bool} {text : Str} (begins : tagOf inside <+: text) :
    ∃ more, labels inside text = List.replicate (tagOf inside).length none ++ more := by
  have found : Search.find (tagOf inside) text = some 0 :=
    (Search.find_eq_some_iff _ _ _).2 ⟨(Search.at_zero _ _).2 begins, fun _ before => absurd before (Nat.not_lt_zero _)⟩
  exact ⟨_, labels_found found⟩

/-- The letters with their labels; those of a tag are not shown. -/
def dress (labels : List (Option Active)) (text : Str) : List Piece :=
  (labels.zip text).filterMap fun (label, letter) => label.map fun side => .of side letter

theorem dress_append {front : List (Option Active)} {text : Str} (same : front.length = text.length)
    (back : List (Option Active)) (later : Str) :
    dress (front ++ back) (text ++ later) = dress front text ++ dress back later := by
  rw [dress, List.zip_append same, List.filterMap_append]
  rfl

theorem dress_side (side : Active) (text : Str) :
    dress (List.replicate text.length (some side)) text = text.map (.of side) := by
  induction text with
  | nil => rfl
  | cons letter rest ih =>
    rw [dress] at ih
    simp [dress, List.replicate_succ, ih]

theorem dress_tag (text : Str) : dress (List.replicate text.length none) text = [] := by
  induction text with
  | nil => rfl
  | cons letter rest ih =>
    rw [dress] at ih
    simp [dress, List.replicate_succ, ih]

inductive Symbol where
  | letter (letter : Char)
  | toolUse (toolUseId name input : Str)

def letters (symbols : List Symbol) : Str :=
  symbols.filterMap fun
    | .letter letter => some letter
    | _ => none

def shownCall (toolNames : Str → Option Str) (toolUseId name input : Str) : List Piece :=
  [.toolUse toolUseId ((toolNames name).getD name), .input input]

def arrange (toolNames : Str → Option Str) : List (Option Active) → List Symbol → List Piece
  | _, [] => []
  | labels, .toolUse toolUseId name input :: rest =>
    shownCall toolNames toolUseId name input ++ arrange toolNames labels rest
  | [], .letter _ :: rest => arrange toolNames [] rest
  | label :: labels, .letter letter :: rest =>
    (label.map fun side => Piece.of side letter).toList ++ arrange toolNames labels rest

/-- The order of upstream; a tag may begin before a tool call and end after it. -/
def upstreamOrder (toolNames : Str → Option Str) (symbols : List Symbol) : List Piece :=
  arrange toolNames (labels false (letters symbols)) symbols

theorem arrange_letters (toolNames : Str → Option Str) {front : List (Option Active)} {text : Str}
    (same : front.length = text.length) (back : List (Option Active)) (symbols : List Symbol) :
    arrange toolNames (front ++ back) (text.map .letter ++ symbols) =
      dress front text ++ arrange toolNames back symbols := by
  induction text generalizing front with
  | nil =>
    rw [List.eq_nil_of_length_eq_zero same]
    rfl
  | cons letter rest ih =>
    cases front with
    | nil => cases same
    | cons label front =>
      have shorter : front.length = rest.length := by simpa using same
      have first : dress (label :: front) (letter :: rest) =
          (label.map fun side => Piece.of side letter).toList ++ dress front rest := by
        cases label <;> rfl
      rw [first, List.append_assoc, ← ih shorter]
      rfl

/-! What `splitTags` takes of a buffer, in order. -/

@[simp] theorem texts_append (left right : List Piece) : texts (left ++ right) = texts left ++ texts right :=
  List.filterMap_append

@[simp] theorem thoughts_append (left right : List Piece) : thoughts (left ++ right) = thoughts left ++ thoughts right :=
  List.filterMap_append

theorem texts_side (inside : Bool) (text : Str) : texts (text.map (.of (sideOf inside))) = (onSide inside text ([], [])).1 := by
  cases inside <;> simp [texts, sideOf, onSide, List.filterMap_map, Function.comp_def, Piece.of]

theorem thoughts_side (inside : Bool) (text : Str) :
    thoughts (text.map (.of (sideOf inside))) = (onSide inside text ([], [])).2 := by
  cases inside <;> simp [thoughts, sideOf, onSide, List.filterMap_map, Function.comp_def, Piece.of]

structure Settles (inside : Bool) (buf front : Str) (taken : List (Option Active)) : Prop where
  parts : front ++ (splitTags inside buf).buf = buf
  length : taken.length = front.length
  stable : ∀ later, labels inside (buf ++ later) =
    taken ++ labels (splitTags inside buf).inside ((splitTags inside buf).buf ++ later)
  text : texts (dress taken front) = (splitTags inside buf).text
  think : thoughts (dress taken front) = (splitTags inside buf).think

theorem found_parts {inside : Bool} {text : Str} {idx : Nat} (found : Search.find (tagOf inside) text = some idx) :
    text.take idx ++ tagOf inside ++ text.drop (idx + (tagOf inside).length) = text := by
  obtain ⟨rest, same⟩ := (Search.find_some found).1.2
  have after : text.drop (idx + (tagOf inside).length) = rest := by
    rw [← List.drop_drop, ← same, List.drop_left]
  rw [after, List.append_assoc, same, List.take_append_drop]

theorem dress_found {inside : Bool} {text : Str} {idx : Nat} (found : Search.find (tagOf inside) text = some idx)
    (back : List (Option Active)) (later : Str) :
    dress (List.replicate idx (some (sideOf inside)) ++ List.replicate (tagOf inside).length none ++ back)
      (text.take idx ++ tagOf inside ++ later) = (text.take idx).map (.of (sideOf inside)) ++ dress back later := by
  have bound := (Search.find_some found).1.bound
  have length : (text.take idx).length = idx := List.length_take_of_le (by omega)
  have before := dress_side (sideOf inside) (text.take idx)
  rw [length] at before
  rw [dress_append (by simp [length]), dress_append (by simp [length]), before, dress_tag, List.append_nil]

theorem settles_found {inside : Bool} {buf : Str} {idx : Nat} (found : Search.find (tagOf inside) buf = some idx)
    {front : Str} {taken : List (Option Active)}
    (settles : Settles (!inside) (buf.drop (idx + (tagOf inside).length)) front taken) :
    Settles inside buf (buf.take idx ++ tagOf inside ++ front)
      (List.replicate idx (some (sideOf inside)) ++ List.replicate (tagOf inside).length none ++ taken) := by
  obtain ⟨text, think, side, kept⟩ := splitTags_found found
  have bound := (Search.find_some found).1.bound
  have length : (buf.take idx).length = idx := List.length_take_of_le (by omega)
  refine ⟨?_, ?_, ?_, ?_, ?_⟩
  · rw [kept, List.append_assoc, settles.parts]
    exact found_parts found
  · simp [length, settles.length]
  · intro later
    have all := settles.stable later
    rw [← List.drop_append_of_le_length bound] at all
    rw [labels_found (Search.find_append_found found later), all, side, kept, List.append_assoc _ taken]
  · rw [dress_found found, texts_append, texts_side, settles.text, text]
    cases inside <;> simp [onSide]
  · rw [dress_found found, thoughts_append, thoughts_side, settles.think, think]
    cases inside <;> simp [onSide]

theorem settles_absent {inside : Bool} {buf : Str} (absent : Search.find (tagOf inside) buf = none) :
    let cut := buf.length - partialTagSuffix buf (tagOf inside)
    Settles inside buf (buf.take cut) (List.replicate (buf.take cut).length (some (sideOf inside))) := by
  intro cut
  obtain ⟨text, think, side, kept⟩ := splitTags_absent absent
  have inBuffer : cut ≤ buf.length := Nat.sub_le _ _
  have length : (buf.take cut).length = cut := List.length_take_of_le inBuffer
  refine ⟨?_, List.length_replicate, ?_, ?_, ?_⟩
  · rw [kept]
    exact List.take_append_drop _ _
  · intro later
    have search := find_kept absent later
    change _ = Option.map (cut + ·) (Search.find (tagOf inside) (buf.drop cut ++ later)) at search
    rw [side, kept, length]
    change _ = _ ++ labels inside (buf.drop cut ++ later)
    cases found : Search.find (tagOf inside) (buf.drop cut ++ later) with
    | none =>
      rw [found] at search
      have sizes : (buf ++ later).length = cut + (buf.drop cut ++ later).length := by
        simp only [List.length_append, List.length_drop]
        omega
      rw [labels_absent search, labels_absent found, sizes, List.replicate_add]
    | some idx =>
      rw [found] at search
      have back (count : Nat) : (buf ++ later).drop (cut + idx + count) = (buf.drop cut ++ later).drop (idx + count) := by
        rw [Nat.add_assoc, ← List.drop_drop, List.drop_append_of_le_length inBuffer]
      rw [labels_found search, labels_found found, back, List.replicate_add]
      simp only [List.append_assoc]
  · rw [dress_side, texts_side, text]
  · rw [dress_side, thoughts_side, think]

theorem dress_labels (inside : Bool) (text : Str) :
    (texts (dress (labels inside text) text), thoughts (dress (labels inside text) text)) = sides inside text := by
  induction inside, text using sides.induct with
  | case1 inside text idx found ih =>
    have shown := dress_found found (labels (!inside) (text.drop (idx + (tagOf inside).length)))
      (text.drop (idx + (tagOf inside).length))
    rw [found_parts found, ← labels_found found] at shown
    rw [sides_found found, ← ih, shown, texts_append, thoughts_append, texts_side, thoughts_side]
    cases inside <;> simp [onSide]
  | case2 inside text absent => rw [sides_absent absent, labels_absent absent, dress_side, texts_side, thoughts_side]

theorem arrange_sides (toolNames : Str → Option Str) (labels : List (Option Active)) (symbols : List Symbol) :
    texts (arrange toolNames labels symbols) = texts (dress labels (letters symbols)) ∧
      thoughts (arrange toolNames labels symbols) = thoughts (dress labels (letters symbols)) := by
  induction symbols generalizing labels with
  | nil => cases labels <;> exact ⟨rfl, rfl⟩
  | cons symbol rest ih =>
    cases symbol with
    | toolUse toolUseId name input => exact ih labels
    | letter letter =>
      cases labels with
      | nil => exact ih []
      | cons label labels =>
        have first : dress (label :: labels) (letters (.letter letter :: rest)) =
            (label.map fun side => Piece.of side letter).toList ++ dress labels (letters rest) := by
          cases label <;> rfl
        rw [first, arrange, texts_append, thoughts_append, texts_append, thoughts_append, (ih labels).1, (ih labels).2]
        exact ⟨rfl, rfl⟩

theorem upstreamOrder_sides (toolNames : Str → Option Str) (symbols : List Symbol) :
    (texts (upstreamOrder toolNames symbols), thoughts (upstreamOrder toolNames symbols)) =
      sides false (letters symbols) := by
  obtain ⟨text, thinking⟩ := arrange_sides toolNames (labels false (letters symbols)) symbols
  rw [upstreamOrder, text, thinking, dress_labels]

theorem exists_settles (inside : Bool) (buf : Str) : ∃ front taken, Settles inside buf front taken := by
  induction inside, buf using sides.induct with
  | case1 inside buf idx found ih =>
    obtain ⟨front, taken, settles⟩ := ih
    exact ⟨_, _, settles_found found settles⟩
  | case2 inside buf absent => exact ⟨_, _, settles_absent absent⟩

def settled (inside : Bool) (buf : Str) : List Piece :=
  let taken := buf.length - (splitTags inside buf).buf.length
  dress ((labels inside buf).take taken) (buf.take taken)

theorem Settles.settled {inside : Bool} {buf front : Str} {taken : List (Option Active)}
    (settles : Settles inside buf front taken) : settled inside buf = dress taken front := by
  have whole := settles.stable []
  rw [List.append_nil, List.append_nil] at whole
  have size : buf.length - (splitTags inside buf).buf.length = front.length := by
    have parts := congrArg List.length settles.parts
    rw [List.length_append] at parts
    omega
  have front_take : buf.take front.length = front := by
    rw [← settles.parts, List.take_left]
  simp only [KiroTrust.Translate.settled]
  rw [size, front_take, whole, ← settles.length, List.take_left]

def Lettered (content : List Piece) : Prop := ∀ piece ∈ content, ∃ side letter, piece = .of side letter

def ThoughtsFirst (content : List Piece) : Prop :=
  content.Pairwise fun before after => ∀ letter thought, before = .text letter → after ≠ .thinking thought

theorem dress_lettered (labels : List (Option Active)) (text : Str) : Lettered (dress labels text) := by
  intro piece among
  obtain ⟨⟨label, letter⟩, -, same⟩ := List.mem_filterMap.1 among
  obtain ⟨side, -, rfl⟩ := Option.map_eq_some_iff.1 same
  exact ⟨side, letter, rfl⟩

def sorted (content : List Piece) : List Piece := (thoughts content).map .thinking ++ (texts content).map .text

theorem sorted_text {content : List Piece} (lettered : Lettered content) (noThoughts : thoughts content = []) :
    content = (texts content).map .text := by
  induction content with
  | nil => rfl
  | cons piece rest ih =>
    obtain ⟨side, letter, rfl⟩ := lettered piece List.mem_cons_self
    cases side with
    | text =>
      have later := ih (fun piece among => lettered piece (List.mem_cons_of_mem _ among)) noThoughts
      exact congrArg (Piece.text letter :: ·) later
    | thinking => cases noThoughts

theorem thoughtsFirst_cons_text {letter : Char} {rest : List Piece} (first : ThoughtsFirst (.text letter :: rest)) :
    thoughts rest = [] := by
  rw [thoughts, List.filterMap_eq_nil_iff]
  intro piece among
  have behind := (List.pairwise_cons.1 first).1 piece among letter
  cases piece with
  | thinking thought => exact absurd rfl (behind thought rfl)
  | text | toolUse | input => rfl

theorem sorted_of_thoughtsFirst {content : List Piece} (lettered : Lettered content) (first : ThoughtsFirst content) :
    content = sorted content := by
  induction content with
  | nil => rfl
  | cons piece rest ih =>
    have restLettered : Lettered rest := fun piece among => lettered piece (List.mem_cons_of_mem _ among)
    obtain ⟨side, letter, rfl⟩ := lettered piece List.mem_cons_self
    cases side with
    | text =>
      have inner : thoughts rest = [] := thoughtsFirst_cons_text first
      have none : thoughts (.of .text letter :: rest) = [] := inner
      rw [sorted, none]
      exact sorted_text lettered none
    | thinking => exact congrArg (Piece.thinking letter :: ·) (ih restLettered (List.pairwise_cons.1 first).2)

theorem thoughtsFirst_of_sorted {content : List Piece} (same : content = sorted content) : ThoughtsFirst content := by
  rw [same, sorted, ThoughtsFirst, List.pairwise_append]
  refine ⟨List.pairwise_map.2 (List.pairwise_of_forall ?_), List.pairwise_map.2 (List.pairwise_of_forall ?_), ?_⟩
  · intro _ _ letter thought text
    cases text
  · intro _ _ letter thought _ thinking
    cases thinking
  · intro before among after _ letter thought text
    obtain ⟨_, -, rfl⟩ := List.mem_map.1 among
    cases text

theorem sorted_of_leading {content shown later : List Piece} (lettered : Lettered content)
    (same : (thoughts content).map .thinking ++ shown = content ++ later) : content = sorted content := by
  induction content with
  | nil => rfl
  | cons piece rest ih =>
    have restLettered : Lettered rest := fun piece among => lettered piece (List.mem_cons_of_mem _ among)
    obtain ⟨side, letter, rfl⟩ := lettered piece List.mem_cons_self
    cases side with
    | text =>
      cases inner : thoughts rest with
      | nil =>
        have none : thoughts (.of .text letter :: rest) = [] := inner
        rw [sorted, none]
        exact sorted_text lettered none
      | cons thought more =>
        have none : thoughts (.of .text letter :: rest) = thought :: more := inner
        rw [none] at same
        cases same
    | thinking => exact congrArg (Piece.thinking letter :: ·) (ih restLettered (List.cons.inj same).2)

theorem frame_next_iff {pending shown held : Str} {content : List Piece} (lettered : Lettered content)
    (split : shown ++ held = pending ++ texts content) (out rest : List Piece) :
    (thoughts content).map .thinking ++ shown.map .text ++ out = pending.map .text ++ (content ++ rest) ↔
      (thoughts content ≠ [] → pending = [] ∧ ThoughtsFirst content) ∧ out = held.map .text ++ rest := by
  have shownText : pending.map Piece.text ++ (texts content).map .text = shown.map .text ++ held.map .text := by
    rw [← List.map_append, ← List.map_append, split]
  have exactly (inFront : pending.map .text ++ content = (thoughts content).map .thinking ++
      (pending.map .text ++ (texts content).map .text)) :
      (thoughts content).map .thinking ++ shown.map .text ++ out = pending.map .text ++ (content ++ rest) ↔
        out = held.map .text ++ rest := by
    rw [← List.append_assoc (pending.map _), inFront, shownText]
    simp only [List.append_assoc, List.append_cancel_left_eq]
  by_cases none : thoughts content = []
  · have plain := sorted_text lettered none
    rw [exactly (by rw [none, ← plain]; rfl)]
    simp [none]
  · have inFront (empty : pending = []) (first : content = sorted content) :
        pending.map .text ++ content = (thoughts content).map .thinking ++
          (pending.map .text ++ (texts content).map .text) := by
      rw [empty]
      exact first
    constructor
    · intro same
      cases pending with
      | cons letter others =>
        obtain ⟨thought, more, thinks⟩ := List.exists_cons_of_ne_nil none
        rw [thinks] at same
        cases same
      | nil =>
        have first := sorted_of_leading lettered ((List.append_assoc ..).symm.trans same)
        exact ⟨fun _ => ⟨rfl, thoughtsFirst_of_sorted first⟩, (exactly (inFront rfl first)).1 same⟩
    · rintro ⟨inOrder, next⟩
      obtain ⟨empty, first⟩ := inOrder none
      exact (exactly (inFront empty (sorted_of_thoughtsFirst lettered first))).2 next

end KiroTrust.Translate
