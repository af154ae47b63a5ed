import Mathlib.Data.List.MinMax
import Mathlib.Data.Nat.Find
import Mathlib.Order.Nat
import KiroTrust.Translate.Fold
import KiroTrust.Translate.Limits
import KiroTrust.Translate.TagSplit

set_option autoImplicit false

namespace KiroTrust.Translate

open Emitter

/-! Where a text is to be cut by stop sequences. -/

/-- The first position at which an occurrence of a stop sequence ends. -/
def FirstEnd (stops : List Str) (text : Str) (stop : Nat) : Prop :=
  (∃ s ∈ stops, Search.EndsAt s text stop) ∧ ∀ s ∈ stops, ∀ other, Search.EndsAt s text other → stop ≤ other

structure CutsAtFirst (stops : List Str) (upstream delivered : Str) (reported : Option MessageDeltaBody) : Prop where
  clear : ∀ s ∈ stops, ¬ s <:+: delivered
  cut : ∀ stop, FirstEnd stops upstream stop →
    ∃ s ∈ stops, Search.EndsAt s upstream stop ∧ delivered <+: upstream ∧ delivered.length + s.length ≤ stop ∧
      reported = some ⟨.stopSequence, some s⟩

theorem exists_firstEnd {stops : List Str} {text : Str} {s : Str} {stop : Nat} (among : s ∈ stops)
    (ends : Search.EndsAt s text stop) : ∃ first, FirstEnd stops text first ∧ first ≤ stop := by
  classical
  have some : ∃ stop, ∃ s ∈ stops, Search.EndsAt s text stop := ⟨stop, s, among, ends⟩
  refine ⟨Nat.find some, ⟨Nat.find_spec some, ?_⟩, Nat.find_min' some ⟨s, among, ends⟩⟩
  intro s among other ends
  exact Nat.find_min' some ⟨s, among, ends⟩

theorem cutsAtFirst_of_clear {stops : List Str} {text : Str} (clear : ∀ s ∈ stops, ¬ s <:+: text)
    (reported : Option MessageDeltaBody) : CutsAtFirst stops text text reported where
  clear := clear
  cut stop first := by
    obtain ⟨s, among, ends⟩ := first.1
    exact absurd ((Search.infix_iff_endsAt s text).2 ⟨stop, ends⟩) (clear s among)

theorem firstMatch_eq_none_iff {stops : List Str} {pending : Str} :
    firstMatch stops pending = none ↔ ∀ s ∈ stops, Search.find s pending = none := by
  simp [firstMatch, List.findSome?_eq_none_iff]

theorem endsAt_whole {s held text : Str} {offset : Nat} (sent later : Str)
    (ends : Search.EndsAt s (held ++ text) offset) :
    Search.EndsAt s (sent ++ (held ++ text) ++ later) (sent.length + offset) := by
  obtain ⟨index, occurs, rfl⟩ := ends
  refine Search.EndsAt.append ⟨sent.length + index, ?_, Nat.add_assoc _ _ _⟩ later
  rwa [Search.at_append_right]

structure Holds (stops : List Str) (sent held : Str) : Prop where
  clear : ∀ s ∈ stops, ¬ s <:+: sent ++ held
  window : ∀ s ∈ stops, sent = [] ∨ s.length ≤ held.length + 1

namespace Holds

variable {stops : List Str} {sent held : Str} (holds : Holds stops sent held)

include holds

theorem find {s : Str} (among : s ∈ stops) (text : Str) :
    Search.find s (sent ++ (held ++ text)) = (Search.find s (held ++ text)).map (sent.length + ·) :=
  Search.find_append_window text (holds.clear s among) (holds.window s among)

theorem clear_after {text : Str} (absent : firstMatch stops (held ++ text) = none) :
    ∀ s ∈ stops, ¬ s <:+: sent ++ (held ++ text) := by
  intro s among
  have here := firstMatch_eq_none_iff.1 absent s among
  rw [← Search.find_eq_none_iff, holds.find among, here, Option.map_none]

theorem release {text : Str} {keep : Nat} (absent : firstMatch stops (held ++ text) = none)
    (keeps : ∀ s ∈ stops, s.length ≤ keep + 1) :
    Holds stops (sent ++ (held ++ text).take ((held ++ text).length - keep))
      ((held ++ text).drop ((held ++ text).length - keep)) where
  clear := by
    simpa only [List.append_assoc, List.take_append_drop] using holds.clear_after absent
  window s among := by
    have longest := keeps s among
    by_cases short : (held ++ text).length ≤ keep
    · have nothing : (held ++ text).length - keep = 0 := by omega
      rw [nothing, List.take_zero, List.append_nil, List.drop_zero]
      apply (holds.window s among).imp_right
      intro enough
      rw [List.length_append]
      omega
    · right
      rw [List.length_drop]
      omega

theorem endsAt_window {s : Str} (among : s ∈ stops) {text later : Str} {stop : Nat}
    (ends : Search.EndsAt s (sent ++ (held ++ text) ++ later) stop)
    (inside : stop ≤ sent.length + (held ++ text).length) :
    ∃ offset, stop = sent.length + offset ∧ Search.EndsAt s (held ++ text) offset := by
  have here := ends.of_append later (by rwa [List.length_append])
  obtain ⟨index, occurs, rfl⟩ := here
  have past := occurs.in_window (holds.clear s among) (holds.window s among)
  obtain ⟨offset, rfl⟩ := Nat.exists_eq_add_of_le past
  refine ⟨offset + s.length, Nat.add_assoc _ _ _, offset, ?_, rfl⟩
  rwa [Search.at_append_right] at occurs

theorem cut_iff {text : Str} {idx : Nat} {s : Str} (nonempty : ∀ s ∈ stops, s ≠ [])
    (found : firstMatch stops (held ++ text) = some (idx, s)) (later : Str) :
    CutsAtFirst stops (sent ++ (held ++ text) ++ later) (sent ++ (held ++ text).take idx)
        (some ⟨.stopSequence, some s⟩) ↔
      ∀ other ∈ stops, ∀ stop, Search.EndsAt other (held ++ text) stop → idx + s.length ≤ stop := by
  obtain ⟨among, first⟩ := firstMatch_some found
  have here := (Search.find_some first).1
  have bound := here.bound
  have length : (sent ++ (held ++ text).take idx).length = sent.length + idx := by
    rw [List.length_append, List.length_take_of_le (by omega)]
  have matched := endsAt_whole sent later ⟨idx, here, rfl⟩
  constructor
  · -- No occurrence ends before the first end, which the cut is made for.
    intro cuts other amongOther stop ends
    obtain ⟨least, leastEnd, _⟩ := exists_firstEnd among matched
    obtain ⟨reported, _, _, _, fits, same⟩ := cuts.cut least leastEnd
    cases same
    have before := leastEnd.2 other amongOther _ (endsAt_whole sent later ends)
    omega
  · intro earliest
    constructor
    · -- A sequence in what is delivered would end in front of the match.
      intro other amongOther occurs
      have positive := List.length_pos_iff.2 (nonempty s among)
      have inner : (held ++ text ++ later).take idx = (held ++ text).take idx :=
        List.take_append_of_le_length (by omega)
      have cut : sent ++ (held ++ text).take idx = (sent ++ (held ++ text) ++ later).take (sent.length + idx) := by
        rw [List.append_assoc, List.take_length_add_append, inner]
      rw [cut, Search.infix_take_iff] at occurs
      obtain ⟨stop, inside, ends⟩ := occurs
      obtain ⟨offset, rfl, there⟩ := holds.endsAt_window amongOther ends (by omega)
      have after := earliest other amongOther offset there
      omega
    · intro stop firstEnd
      have atMost := firstEnd.2 s among _ matched
      obtain ⟨other, amongOther, ends⟩ := firstEnd.1
      obtain ⟨offset, rfl, there⟩ := holds.endsAt_window amongOther ends (by omega)
      have atLeast := earliest other amongOther offset there
      have same : offset = idx + s.length := by omega
      refine ⟨s, among, same ▸ matched, ?_, by omega, rfl⟩
      rw [List.append_assoc]
      exact (List.prefix_append_right_inj sent).2 ((List.take_prefix _ _).trans (List.prefix_append _ _))

end Holds

namespace ResponseTranslator

def maxTokensStop : Option (StopReason × Option Str) := some (.maxTokens, none)

structure Filtering (t : ResponseTranslator) : Prop where
  running : t.localStop = none
  nonempty : ∀ s ∈ t.stopSequences, s ≠ []
  keeps : ∀ s ∈ t.stopSequences, s.length ≤ t.stopMaxKeep + 1
  idle : t.stopSequences = [] → t.stopPending = []
  holds : Holds t.stopSequences t.text t.stopPending

inductive TextOutcome (t : ResponseTranslator) (text : Str) (after : ResponseTranslator) : Prop where
  | spent (stop : after.localStop = maxTokensStop)
  | cut (idx : Nat) (s : Str) (nonempty : text ≠ []) (found : t.matched text = some (idx, s))
      (stop : after.localStop = some (.stopSequence, some s))
      (shown : after.text = t.text ++ (t.stopPending ++ text).take idx)
  | on (clear : text ≠ [] → t.matched text = none) (filtering : after.Filtering)
      (same : after.stopSequences = t.stopSequences)
      (shown : after.text ++ after.stopPending = t.text ++ (t.stopPending ++ text))

theorem withheld (t : ResponseTranslator) (text : Str) (idle : t.stopSequences = [] → t.stopPending = []) :
    t.released text ++ t.heldBack text = t.stopPending ++ text := by
  by_cases noStops : t.stopSequences = []
  · simp [released, heldBack, noStops, idle noStops]
  · simp [released, heldBack, noStops]

theorem heldBack_holds {t : ResponseTranslator} (filtering : t.Filtering) {text : Str}
    (clear : t.matched text = none) :
    Holds t.stopSequences (t.text ++ t.released text) (t.heldBack text) := by
  by_cases noStops : t.stopSequences = []
  · rw [noStops]
    exact ⟨fun _ among => absurd among (by simp), fun _ among => absurd among (by simp)⟩
  · have release := filtering.holds.release clear filtering.keeps
    simpa only [released, heldBack, releasable, noStops, if_false] using release

theorem deliverText_outcome {t : ResponseTranslator} (filtering : t.Filtering) (text : Str) :
    TextOutcome t text (deliverText text t).1 := by
  by_cases empty : text = []
  · refine .on (fun nonempty => absurd empty nonempty) ?_ ?_ ?_
    · simpa [deliverText, empty] using filtering
    · simp [deliverText, empty]
    · simp [deliverText, empty]
  · cases found : t.matched text with
    | some hit =>
      have limits := deliverText_found filtering.running empty found
      exact .cut hit.1 hit.2 empty found (congrArg localStop limits :) (congrArg ResponseTranslator.text limits :)
    | none =>
      have limits := deliverText_clear filtering.running empty found
      have stop : (deliverText text t).1.localStop = _ := (congrArg localStop limits :)
      by_cases reached : t.released text ≠ [] ∧ t.Reaches (t.released text).length
      · exact .spent (stop.trans (if_pos reached))
      · rw [if_neg reached] at stop
        have room : (t.released text).take t.remaining = t.released text := by
          by_cases nothing : t.released text = []
          · simp [nothing]
          · exact take_unreached fun reaches => reached ⟨nothing, reaches⟩
        have shown : (deliverText text t).1.text = t.text ++ t.released text :=
          (congrArg ResponseTranslator.text limits :).trans (by rw [room])
        have pending : (deliverText text t).1.stopPending = t.heldBack text := (congrArg stopPending limits :)
        have sequences : (deliverText text t).1.stopSequences = t.stopSequences := (congrArg stopSequences limits :)
        have keep : (deliverText text t).1.stopMaxKeep = t.stopMaxKeep := (congrArg stopMaxKeep limits :)
        refine .on (fun _ => found) ⟨stop, ?_, ?_, ?_, ?_⟩ sequences ?_
        · rw [sequences]
          exact filtering.nonempty
        · rw [sequences, keep]
          exact filtering.keeps
        · rw [sequences, pending]
          intro noStops
          rw [heldBack, if_pos noStops, filtering.idle noStops]
        · rw [sequences, shown, pending]
          exact heldBack_holds filtering found
        · rw [shown, pending, List.append_assoc, withheld t text filtering.idle]

theorem Filtering.congr {t after : ResponseTranslator} (filtering : t.Filtering) (stop : after.localStop = none)
    (sequences : after.stopSequences = t.stopSequences) (keep : after.stopMaxKeep = t.stopMaxKeep)
    (shown : after.text = t.text) (pending : after.stopPending = t.stopPending) : after.Filtering where
  running := stop
  nonempty := sequences ▸ filtering.nonempty
  keeps := by
    rw [sequences, keep]
    exact filtering.keeps
  idle := by
    rw [sequences, pending]
    exact filtering.idle
  holds := by
    rw [sequences, shown, pending]
    exact filtering.holds

theorem Filtering.emptied {t : ResponseTranslator} (filtering : t.Filtering) : Filtering { t with tagBuf := [] } :=
  filtering.congr filtering.running rfl rfl rfl rfl

theorem parseTags_filtering {t : ResponseTranslator} (filtering : t.Filtering) (content : Str) :
    (t.parseTags content).1.Filtering := by
  have record := parseTags_eq t content
  exact filtering.congr ((congrArg localStop record :).trans filtering.running) (congrArg stopSequences record :)
    (congrArg stopMaxKeep record :) (congrArg text record :) (congrArg stopPending record :)

theorem begin_filtering {t : ResponseTranslator} (filtering : t.Filtering) : t.begin.1.Filtering := by
  have begun := begin_content t
  exact filtering.congr ((congrArg localStop begun :).trans filtering.running) (congrArg stopSequences begun :)
    (congrArg stopMaxKeep begun :) (congrArg text begun :) (congrArg stopPending begun :)

theorem deliverThinking_outcome {t : ResponseTranslator} (filtering : t.Filtering) (thought : Str) :
    (deliverThinking thought t).1.localStop = maxTokensStop ∨ (deliverThinking thought t).1.Filtering := by
  have limits := deliverThinking_limits thought t
  have stop := deliverThinking_stop thought t
  by_cases reached : thought ≠ [] ∧ t.Reaches thought.length
  · exact .inl (deliverThinking_latched filtering.running reached)
  · right
    rw [if_neg reached, filtering.running] at stop
    exact filtering.congr stop (congrArg stopSequences limits :) (congrArg stopMaxKeep limits :)
      (congrArg text limits :) (congrArg stopPending limits :)

theorem flushPending_outcome {t : ResponseTranslator} (running : t.localStop = none) :
    t.flushPending.1.localStop = maxTokensStop ∨ t.flushPending.1.text = t.text ++ t.stopPending := by
  by_cases nothing : t.stopPending = []
  · simp [flushPending, nothing]
  · have limits := flushPending_limits running nothing
    have stop : t.flushPending.1.localStop = _ := (congrArg localStop limits :)
    by_cases reached : t.Reaches t.stopPending.length
    · left
      rw [stop, if_pos reached, running]
      rfl
    · right
      exact (congrArg text limits :).trans (by rw [take_unreached reached])

structure Following (t : ResponseTranslator) (seen : Str) : Prop extends Filtering t where
  unfinished : t.finished = false
  working : t.failure = none
  upstream : ∀ later, (sides false (seen ++ later)).1 =
    t.text ++ (t.stopPending ++ (sides t.tagInside (t.tagBuf ++ later)).1)
  buffer : Search.find (tagOf t.tagInside) t.tagBuf = none

def FirstInOrder (t : ResponseTranslator) (text : Str) : Prop :=
  text ≠ [] → ∀ idx s, t.matched text = some (idx, s) →
    ∀ other ∈ t.stopSequences, ∀ stop, Search.EndsAt other (t.stopPending ++ text) stop → idx + s.length ≤ stop

/-- The condition, on the state before a call, under which a cut made in the call is the earliest one. -/
def CutsFirst (t : ResponseTranslator) : Call → Prop
  | .push (.assistantResponse content) =>
    t.finished = true ∨ t.failure.isSome = true ∨ content = [] ∨ t.FirstInOrder (t.parseTags content).2.1
  | .push _ => True
  | .finish => t.finished = true ∨ t.tagInside = true ∨ t.FirstInOrder t.tagBuf

theorem firstInOrder_of_clear {t : ResponseTranslator} {text : Str} (clear : text ≠ [] → t.matched text = none) :
    t.FirstInOrder text := by
  intro nonempty idx s found
  rw [clear nonempty] at found
  cases found

inductive FragmentOutcome (t : ResponseTranslator) (seen content : Str) (after : ResponseTranslator) : Prop where
  | spent (stop : after.localStop = maxTokensStop) (ended : after.finished = true)
  | cut (idx : Nat) (s : Str) (nonempty : (t.parseTags content).2.1 ≠ [])
      (found : t.matched (t.parseTags content).2.1 = some (idx, s)) (ended : after.finished = true)
      (stop : after.localStop = some (.stopSequence, some s))
      (shown : after.text = t.text ++ (t.stopPending ++ (t.parseTags content).2.1).take idx)
  | on (clear : (t.parseTags content).2.1 ≠ [] → t.matched (t.parseTags content).2.1 = none)
      (following : after.Following (seen ++ content)) (same : after.stopSequences = t.stopSequences)

theorem finishIfStopped_latched {t : ResponseTranslator} (latched : t.localStop.isSome = true) :
    t.finishIfStopped.1.finished = true ∧ t.finishIfStopped.1.localStop = t.localStop ∧
      t.finishIfStopped.1.text = t.text := by
  rw [finishIfStopped, if_pos latched]
  exact ⟨finish_finished t, finish_latched latched⟩

theorem spent_ends {t : ResponseTranslator} (stop : t.localStop = maxTokensStop) :
    t.finishIfStopped.1.localStop = maxTokensStop ∧ t.finishIfStopped.1.finished = true := by
  have ends := finishIfStopped_latched (t := t) (by rw [stop]; rfl)
  exact ⟨ends.2.1.trans stop, ends.1⟩

theorem fragment_outcome {t : ResponseTranslator} {seen content : Str} (following : t.Following seen)
    (nonempty : content ≠ []) :
    FragmentOutcome t seen content (t.push (.assistantResponse content)).1 := by
  have live : ¬ (t.finished = true ∨ t.failure.isSome = true) := by simp [following.unfinished, following.working]
  have running : ¬ (content = [] ∨ t.localStop.isSome = true) := by simp [nonempty, following.running]
  let parsed := t.parseTags content
  let thinking := (deliverThinking parsed.2.2 parsed.1).1
  have pushes : (t.push (.assistantResponse content)).1 = (deliverText parsed.2.1 thinking).1.finishIfStopped.1 := by
    simp only [push, if_neg live, pushAssistantResponse, if_neg running]
    rfl
  have record : parsed.1 = _ := parseTags_eq t content
  have before : parsed.1.Filtering := parseTags_filtering following.toFiltering content
  have outcome : thinking.localStop = maxTokensStop ∨ thinking.Filtering :=
    deliverThinking_outcome before parsed.2.2
  have limits : thinking.content = _ := deliverThinking_limits parsed.2.2 parsed.1
  have sequences : thinking.stopSequences = t.stopSequences :=
    (congrArg stopSequences limits :).trans (congrArg stopSequences record :)
  have shown : thinking.text = t.text := (congrArg text limits :).trans (congrArg text record :)
  have pending : thinking.stopPending = t.stopPending :=
    (congrArg stopPending limits :).trans (congrArg stopPending record :)
  have side : thinking.tagInside = parsed.1.tagInside := (congrArg tagInside limits :)
  have buffer : thinking.tagBuf = parsed.1.tagBuf := (congrArg tagBuf limits :)
  have unfinished : thinking.finished = false :=
    (congrArg finished limits :).trans ((congrArg finished record :).trans following.unfinished)
  have working : thinking.failure = none :=
    (congrArg failure limits :).trans ((congrArg failure record :).trans following.working)
  have sameMatch : thinking.matched parsed.2.1 = t.matched parsed.2.1 := by rw [matched, matched, sequences, pending]
  rw [pushes]
  clear_value thinking
  rcases outcome with spent | filtering
  · -- The thinking has used up the budget.
    have kept := deliverText_latched parsed.2.1 (t := thinking) (by rw [spent]; rfl)
    have ends := spent_ends (kept.1.trans spent)
    exact .spent ends.1 ends.2
  · cases deliverText_outcome filtering parsed.2.1 with
    | spent stop =>
      have ends := spent_ends stop
      exact .spent ends.1 ends.2
    | cut idx s textNonempty found stop cutAt =>
      have ends := finishIfStopped_latched (t := (deliverText parsed.2.1 thinking).1) (by rw [stop]; rfl)
      refine .cut idx s textNonempty (sameMatch.symm.trans found) ends.1 (ends.2.1.trans stop) ?_
      rw [ends.2.2, cutAt, shown, pending]
    | on clear after same whole =>
      have frames := deliverText_frame parsed.2.1 thinking
      have still : (deliverText parsed.2.1 thinking).1.finishIfStopped.1 = (deliverText parsed.2.1 thinking).1 := by
        rw [finishIfStopped, if_neg (by simp [after.running])]
      have sideAfter : (deliverText parsed.2.1 thinking).1.tagInside = parsed.1.tagInside :=
        (congrArg tagInside frames :).trans side
      have bufferAfter : (deliverText parsed.2.1 thinking).1.tagBuf = parsed.1.tagBuf :=
        (congrArg tagBuf frames :).trans buffer
      rw [still]
      refine .on (fun textNonempty => sameMatch.symm.trans (clear textNonempty))
        ⟨after, (congrArg finished frames :).trans unfinished, (congrArg failure frames :).trans working, ?_, ?_⟩
        (same.trans sequences)
      · intro later
        let rest := (sides parsed.1.tagInside (parsed.1.tagBuf ++ later)).1
        rw [sideAfter, bufferAfter]
        calc (sides false (seen ++ content ++ later)).1
          _ = t.text ++ (t.stopPending ++ (parsed.2.1 ++ rest)) := by
            rw [List.append_assoc, following.upstream, congrArg Prod.fst (parseTags_sides t content later)]
          _ = thinking.text ++ (thinking.stopPending ++ parsed.2.1) ++ rest := by simp [shown, pending]
          _ = _ := by rw [← whole, List.append_assoc]
      · obtain ⟨_, splitSide, splitBuffer⟩ := parseTags_split t content
        rw [sideAfter, bufferAfter, splitSide, splitBuffer]
        exact splitTags_buf _ _

inductive FinishOutcome (t : ResponseTranslator) (seen : Str) (after : ResponseTranslator) : Prop where
  | spent (stop : after.localStop = maxTokensStop)
  | cut (idx : Nat) (s : Str) (outside : t.tagInside = false) (nonempty : t.tagBuf ≠ [])
      (found : t.matched t.tagBuf = some (idx, s)) (stop : after.localStop = some (.stopSequence, some s))
      (shown : after.text = t.text ++ (t.stopPending ++ t.tagBuf).take idx)
  | whole (clear : t.tagInside = false → t.tagBuf ≠ [] → t.matched t.tagBuf = none)
      (shown : after.text = (sides false seen).1) (untouched : ∀ s ∈ t.stopSequences, ¬ s <:+: after.text)

theorem Following.all {t : ResponseTranslator} {seen : Str} (following : t.Following seen) :
    (sides false seen).1 = t.text ++ (t.stopPending ++ if t.tagInside then [] else t.tagBuf) := by
  have whole := following.upstream []
  rw [List.append_nil, List.append_nil, sides_absent following.buffer] at whole
  rw [whole]
  cases t.tagInside <;> simp [onSide]

theorem pending_outcome {t : ResponseTranslator} (filtering : t.Filtering) :
    t.flushPending.1.localStop = maxTokensStop ∨
      t.flushPending.1.text = t.text ++ t.stopPending ∧ ∀ s ∈ t.stopSequences, ¬ s <:+: t.flushPending.1.text := by
  rcases flushPending_outcome filtering.running with spent | shown
  · exact .inl spent
  · refine .inr ⟨shown, ?_⟩
    rw [shown]
    exact filtering.holds.clear

theorem flush_outcome {t : ResponseTranslator} {seen : Str} (filtering : t.Filtering)
    (whole : (sides false seen).1 = t.text ++ (t.stopPending ++ if t.tagInside then [] else t.tagBuf)) :
    FinishOutcome t seen t.flushTag.1.flushPending.1 := by
  have emptied := filtering.emptied
  by_cases inside : t.tagInside = true
  · -- What is left in a tag is thinking: no text follows the hold-back.
    have flushes : t.flushTag = deliverThinking t.tagBuf { t with tagBuf := [] } := if_pos inside
    have limits := deliverThinking_limits t.tagBuf { t with tagBuf := [] }
    rw [if_pos inside, List.append_nil] at whole
    rw [flushes]
    rcases deliverThinking_outcome emptied t.tagBuf with spent | thinking
    · refine .spent ?_
      rw [flushPending_latched (by rw [spent]; rfl)]
      exact spent
    · rcases pending_outcome thinking with spent | ⟨shown, untouched⟩
      · exact .spent spent
      · have same : (deliverThinking t.tagBuf { t with tagBuf := [] }).1.stopSequences = t.stopSequences :=
          (congrArg stopSequences limits :)
        have before : (deliverThinking t.tagBuf { t with tagBuf := [] }).1.text ++
            (deliverThinking t.tagBuf { t with tagBuf := [] }).1.stopPending = t.text ++ t.stopPending :=
          (congrArg (fun t => t.text ++ t.stopPending) limits :)
        refine .whole (fun outside => ?_) (shown.trans (before.trans whole.symm))
          fun s among => untouched s (by rw [same]; exact among)
        rw [inside] at outside
        cases outside
  · -- What is left outside is text, and may complete a sequence.
    have flushes : t.flushTag = deliverText t.tagBuf { t with tagBuf := [] } := by
      simp [flushTag, inside, filtering.running]
    have outside : t.tagInside = false := by simpa using inside
    rw [if_neg inside] at whole
    rw [flushes]
    cases deliverText_outcome emptied t.tagBuf with
    | spent stop =>
      refine .spent ?_
      rw [flushPending_latched (by rw [stop]; rfl)]
      exact stop
    | cut idx s nonempty found stop shown =>
      have latched := flushPending_latched (t := (deliverText t.tagBuf { t with tagBuf := [] }).1) (by rw [stop]; rfl)
      refine .cut idx s outside nonempty found ?_ ?_
      · rw [latched]
        exact stop
      · rw [latched]
        exact shown
    | on clear after same kept =>
      rcases pending_outcome after with spent | ⟨shown, untouched⟩
      · exact .spent spent
      · exact .whole (fun _ => clear) (shown.trans (kept.trans whole.symm))
          fun s among => untouched s (by rw [same]; exact among)

theorem finish_outcome {t : ResponseTranslator} {seen : Str} (following : t.Following seen) :
    FinishOutcome t seen t.finish.1 := by
  have begun := begin_content t
  have ended := finish_content following.unfinished
  have sequences : t.begin.1.stopSequences = t.stopSequences := (congrArg stopSequences begun :)
  have shownThere : t.begin.1.text = t.text := (congrArg text begun :)
  have pending : t.begin.1.stopPending = t.stopPending := (congrArg stopPending begun :)
  have inside : t.begin.1.tagInside = t.tagInside := (congrArg tagInside begun :)
  have buffer : t.begin.1.tagBuf = t.tagBuf := (congrArg tagBuf begun :)
  have sameMatch : t.begin.1.matched t.tagBuf = t.matched t.tagBuf := (congrArg (matched · t.tagBuf) begun :)
  have filtering := begin_filtering following.toFiltering
  have whole := following.all
  rw [← shownThere, ← pending, ← inside, ← buffer] at whole
  have stopSame : t.finish.1.localStop = t.begin.1.flushTag.1.flushPending.1.localStop := (congrArg localStop ended :)
  have textSame : t.finish.1.text = t.begin.1.flushTag.1.flushPending.1.text := (congrArg text ended :)
  cases flush_outcome filtering whole with
  | spent stop => exact .spent (stopSame.trans stop)
  | cut idx s outside nonempty found stop shown =>
    rw [buffer] at nonempty found shown
    rw [shownThere, pending] at shown
    exact .cut idx s (inside.symm.trans outside) nonempty (sameMatch.symm.trans found) (stopSame.trans stop)
      (textSame.trans shown)
  | whole clear shown untouched =>
    rw [inside, buffer, sameMatch] at clear
    rw [sequences, ← textSame] at untouched
    exact .whole clear (textSame.trans shown) untouched

def reported (t : ResponseTranslator) : Option MessageDeltaBody := some ⟨t.stopReason.1, t.stopReason.2⟩

theorem reported_of_stop {t : ResponseTranslator} {reason : StopReason} {seq : Option Str}
    (stop : t.localStop = some (reason, seq)) : t.reported = some ⟨reason, seq⟩ := by
  simp [reported, stopReason, stop]

theorem cutsFirst_finished {t : ResponseTranslator} (finished : t.finished = true) (calls : List Call) :
    ∀ visit ∈ visits call t calls, visit.1.CutsFirst visit.2 := by
  induction calls with
  | nil => simp [visits]
  | cons input rest ih =>
    simp only [visits, List.forall_mem_cons, call_finished finished]
    refine ⟨?_, ih⟩
    cases input with
    | finish => exact .inl finished
    | push ev => cases ev <;> simp [CutsFirst, finished]

theorem cut_iff {t : ResponseTranslator} {seen text rest : Str} (filtering : t.Filtering) {idx : Nat} {s : Str}
    (nonempty : text ≠ []) (found : t.matched text = some (idx, s)) {after : ResponseTranslator}
    (upstream : (sides false seen).1 = t.text ++ (t.stopPending ++ (text ++ rest)))
    (stop : after.localStop = some (.stopSequence, some s))
    (shown : after.text = t.text ++ (t.stopPending ++ text).take idx) :
    CutsAtFirst t.stopSequences (sides false seen).1 after.text after.reported ↔ t.FirstInOrder text := by
  have whole : (sides false seen).1 = t.text ++ (t.stopPending ++ text) ++ rest := by simp [upstream]
  rw [whole, shown, reported_of_stop stop, filtering.holds.cut_iff filtering.nonempty found]
  constructor
  · intro earliest _ index sequence same
    cases found.symm.trans same
    exact earliest
  · intro first
    exact first nonempty idx s found

theorem finish_cut_iff {t : ResponseTranslator} {seen : Str} (following : t.Following seen)
    (unreached : t.finish.1.localStop ≠ maxTokensStop) :
    CutsAtFirst t.stopSequences (sides false seen).1 t.finish.1.text t.finish.1.reported ↔ t.CutsFirst .finish := by
  have all := following.all
  cases finish_outcome following with
  | spent stop => exact absurd stop unreached
  | cut idx s outside nonempty found stop shown =>
    have upstream : (sides false seen).1 = t.text ++ (t.stopPending ++ (t.tagBuf ++ [])) := by
      simpa [outside] using all
    rw [cut_iff following.toFiltering nonempty found upstream stop shown]
    simp [CutsFirst, following.unfinished, outside]
  | whole clear shown untouched =>
    rw [← shown]
    refine iff_of_true (cutsAtFirst_of_clear untouched _) ?_
    by_cases inside : t.tagInside = true
    · exact .inr (.inl inside)
    · exact .inr (.inr (firstInOrder_of_clear (clear (by simpa using inside))))

def pushAll (fragments : List Str) : List Call := fragments.map (.push ∘ .assistantResponse) ++ [.finish]

theorem push_empty (t : ResponseTranslator) : t.call (.push (.assistantResponse [])) = (t, []) := by
  simp [call, push, pushAssistantResponse]

theorem run_cut_iff {t : ResponseTranslator} {seen : Str} (following : t.Following seen) (fragments : List Str)
    (unreached : (runAll call t (pushAll fragments)).1.localStop ≠ maxTokensStop) :
    let last := (runAll call t (pushAll fragments)).1
    CutsAtFirst t.stopSequences (sides false (seen ++ fragments.flatten)).1 last.text last.reported ↔
      ∀ visit ∈ visits call t (pushAll fragments), visit.1.CutsFirst visit.2 := by
  induction fragments generalizing t seen with
  | nil =>
    simpa [pushAll, visits, runAll_cons, call] using finish_cut_iff following unreached
  | cons content rest ih =>
    have first : pushAll (content :: rest) = .push (.assistantResponse content) :: pushAll rest := rfl
    rw [first, runAll_cons] at unreached
    simp only [first, runAll_cons, visits, List.forall_mem_cons, List.flatten_cons]
    by_cases empty : content = []
    · rw [empty, push_empty] at unreached ⊢
      simpa [CutsFirst] using ih following unreached
    · have outcome := fragment_outcome following empty
      change FragmentOutcome t seen content (t.call (.push (.assistantResponse content))).1 at outcome
      generalize (t.call (.push (.assistantResponse content))).1 = after at outcome unreached ⊢
      cases outcome with
      | spent stop ended =>
        -- The budget has stopped the run, which is excluded.
        rw [runAll_call_finished ended] at unreached
        exact absurd stop unreached
      | cut idx s nonempty found ended stop shown =>
        have upstream : (sides false (seen ++ (content ++ rest.flatten))).1 = _ := following.upstream _
        rw [congrArg Prod.fst (parseTags_sides t content rest.flatten)] at upstream
        rw [runAll_call_finished ended, cut_iff following.toFiltering nonempty found upstream stop shown]
        have here : t.CutsFirst (.push (.assistantResponse content)) ↔ t.FirstInOrder (t.parseTags content).2.1 := by
          simp [CutsFirst, following.unfinished, following.working, empty]
        rw [← here]
        exact (and_iff_left (cutsFirst_finished ended (pushAll rest))).symm
      | on clear next same =>
        have here : t.CutsFirst (.push (.assistantResponse content)) :=
          .inr (.inr (.inr (firstInOrder_of_clear clear)))
        rw [← same, ← List.append_assoc, and_iff_right here]
        exact ih next unreached

theorem new_following (opts : ResponseOptions) : (new opts).Following [] where
  running := rfl
  nonempty s among := by simpa using (List.mem_filter.1 among).2
  keeps s among := by
    have longest : s.length - 1 ≤ (new opts).stopMaxKeep :=
      List.le_max_of_le (List.mem_map_of_mem among) (Nat.le_refl _)
    omega
  idle _ := rfl
  holds := ⟨fun s among occurs => by
    have nonempty : s ≠ [] := by simpa using (List.mem_filter.1 among).2
    exact nonempty (List.eq_nil_of_infix_nil occurs), fun _ _ => .inl rfl⟩
  unfinished := rfl
  working := rfl
  upstream later := rfl
  buffer := rfl

theorem run_gathered (opts : ResponseOptions) (fragments : List Str) :
    let run := runAll call (new opts) (pushAll fragments)
    (gathered run.2).text = run.1.text ∧ (gathered run.2).thinking = run.1.thinking ∧
      (gathered run.2).ending.map Prod.fst = run.1.reported := by
  have finished : (runAll call (new opts) (pushAll fragments)).1.finished = true := by
    have events : pushAll fragments = (fragments.map .assistantResponse).map .push ++ .finish :: [] := by simp [pushAll]
    rw [events]
    exact finished_after_finish opts _ []
  have folded := runAll_call_folded opts (pushAll fragments)
  simp only [Folded, Ended, finished, if_true] at folded
  obtain ⟨⟨text, thinking, -⟩, ending⟩ := folded
  refine ⟨text, thinking, ?_⟩
  rw [ending]
  rfl

/-- The stop sequences of a run of fragments cut at the earliest match exactly when each cut is the earliest. -/
theorem stop_sequences_cut_iff (opts : ResponseOptions) (fragments : List Str)
    (unreached : (runAll call (new opts) (pushAll fragments)).1.localStop ≠ some (.maxTokens, none)) :
    let streamed := gathered (runAll call (new opts) (pushAll fragments)).2
    CutsAtFirst (opts.stopSequences.filter (· ≠ [])) (sides false fragments.flatten).1 streamed.text
        (streamed.ending.map Prod.fst) ↔
      ∀ visit ∈ visits call (new opts) (pushAll fragments), visit.1.CutsFirst visit.2 := by
  obtain ⟨text, -, ending⟩ := run_gathered opts fragments
  simp only [text, ending]
  exact run_cut_iff (new_following opts) fragments unreached

theorem stop_sequences_cut_sample :
    let opts : ResponseOptions := ⟨"m".toList, "msg".toList, ["END".toList], 0, fun _ => none, 7⟩
    let fragments : List Str := ["hello E".toList, "ND more".toList]
    let streamed := gathered (runAll call (new opts) (pushAll fragments)).2
    CutsAtFirst (opts.stopSequences.filter (· ≠ [])) (sides false fragments.flatten).1 streamed.text
        (streamed.ending.map Prod.fst) ↔
      ∀ visit ∈ visits call (new opts) (pushAll fragments), visit.1.CutsFirst visit.2 :=
  stop_sequences_cut_iff _ _ (by decide +kernel)

theorem stop_sequences_cut_late :
    let opts : ResponseOptions := ⟨"m".toList, "msg".toList, ["B".toList, "A".toList], 0, fun _ => none, 7⟩
    let fragments : List Str := ["xAyB".toList]
    let run := runAll call (new opts) (pushAll fragments)
    run.1.localStop ≠ some (.maxTokens, none) ∧
      ¬ CutsAtFirst (opts.stopSequences.filter (· ≠ [])) (sides false fragments.flatten).1 (gathered run.2).text
        ((gathered run.2).ending.map Prod.fst) := by
  refine ⟨by decide +kernel, fun cuts => ?_⟩
  have delivered := cuts.clear "A".toList (by decide)
  exact delivered (by decide +kernel)

end ResponseTranslator

end KiroTrust.Translate
