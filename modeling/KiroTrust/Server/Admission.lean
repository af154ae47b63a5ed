import KiroTrust.Server.Router
import KiroTrust.Shared.Trimming

set_option autoImplicit false

namespace KiroTrust.Server

open Emitter
open Translate (isWhitespace trim)
open Trimming (Padded Solid)

/-! Who gets in, and what the others can do. -/

variable (x : Service)

def Headers.text (headers : Headers) (name : Str) : Option Str := (headers.get name).bind toStr

/-- The token is in the header that counts, with white space around it at most. -/
def Presents (headers : Headers) (token : Str) : Prop :=
  (∃ rest, headers.text authorization = some (bearer ++ rest) ∧ Padded isWhitespace token rest) ∨
    (∀ rest, headers.text authorization ≠ some (bearer ++ rest)) ∧
      ∃ text, headers.text apiKey = some text ∧ Padded isWhitespace token text

theorem stripBearer_iff {value rest : Str} : stripBearer value = some rest ↔ value = bearer ++ rest := by
  unfold stripBearer
  constructor
  · intro stripped
    split_ifs at stripped with front
    obtain ⟨back, rfl⟩ := List.isPrefixOf_iff_prefix.1 front
    cases stripped
    rw [List.drop_left]
  · rintro rfl
    simp

theorem trim_padded {text token : Str} : trim text = token ↔ Solid isWhitespace token ∧ Padded isWhitespace token text :=
  Trimming.trim_iff

theorem presentedToken_iff {headers : Headers} {token : Str} :
    presentedToken headers = some token ↔ token ≠ [] ∧ Solid isWhitespace token ∧ Presents headers token := by
  have stripped (rest : Str) : ((headers.get authorization).bind toStr).bind stripBearer = some rest ↔
      headers.text authorization = some (bearer ++ rest) := by
    simp only [Option.bind_eq_some_iff, stripBearer_iff, Headers.text]
    constructor
    · rintro ⟨value, ⟨bytes, found, text⟩, rfl⟩
      exact ⟨bytes, found, text⟩
    · rintro ⟨bytes, found, text⟩
      exact ⟨_, ⟨bytes, found, text⟩, rfl⟩
  unfold presentedToken
  split
  next rest found =>
    have here := (stripped rest).1 found
    constructor
    · intro presents
      split_ifs at presents with empty
      obtain ⟨solid, padded⟩ := trim_padded.1 (Option.some.inj presents)
      exact ⟨fun none => empty (trim_padded.2 (none ▸ ⟨solid, padded⟩)), solid, .inl ⟨rest, here, padded⟩⟩
    · rintro ⟨nonempty, solid, ⟨other, same, padded⟩ | ⟨absent, -⟩⟩
      · rw [here] at same
        obtain rfl := List.append_cancel_left (Option.some.inj same)
        have trimmed := trim_padded.2 ⟨solid, padded⟩
        simp [trimmed, nonempty]
      · exact absurd here (absent rest)
  next missing =>
    have absent : ∀ rest, headers.text authorization ≠ some (bearer ++ rest) := by
      intro rest here
      rw [(stripped rest).2 here] at missing
      cases missing
    simp only [Option.filter_eq_some_iff, Option.map_eq_some_iff, decide_eq_true_eq]
    constructor
    · rintro ⟨⟨text, found, trimmed⟩, nonempty⟩
      obtain ⟨solid, padded⟩ := trim_padded.1 trimmed
      exact ⟨nonempty, solid, .inr ⟨absent, text, found, padded⟩⟩
    · rintro ⟨nonempty, solid, ⟨rest, here, -⟩ | ⟨-, text, found, padded⟩⟩
      · exact absurd here (absent rest)
      · exact ⟨⟨text, found, trim_padded.2 ⟨solid, padded⟩⟩, nonempty⟩

def Action.known : Action → Bool
  | .request incoming _ => admits x incoming
  | .input _ _ => true

def Shown.known : Shown → Bool
  | .direct incoming _ => admits x incoming
  | .call _ _ => true

def refusal : Action → Option Shown
  | .request incoming _ => if admits x incoming then none else some (.direct incoming (.error unauthorized))
  | .input _ _ => none

namespace AppState

variable {x}

theorem receive_unknown (s : AppState) {incoming : Incoming} (fresh : Fresh) (unknown : admits x incoming = false) :
    s.receive x incoming fresh = (s, [.direct incoming (.error unauthorized)]) := by
  simp [receive, unknown]

theorem receive_known (s : AppState) {incoming : Incoming} (fresh : Fresh) (known : admits x incoming = true) :
    ∀ shown ∈ (s.receive x incoming fresh).2, shown.known x = true := by
  have direct (answer : Direct) : ∀ shown ∈ [Shown.direct incoming answer], shown.known x = true :=
    List.forall_mem_singleton.2 known
  unfold receive
  simp only [known, if_true]
  cases route incoming with
  | error e => exact direct _
  | ok endpoint =>
    cases endpoint with
    | health | models | usage => exact direct _
    | countTokens =>
      simp only
      split <;> exact direct _
    | messages =>
      simp only
      split
      · exact direct _
      · exact List.forall_mem_nil _

theorem step_known (s : AppState) {action : Action} (known : action.known x = true) :
    ∀ shown ∈ (s.step x action).2, shown.known x = true := by
  cases action with
  | request incoming fresh => exact receive_known s fresh known
  | input call given =>
    intro shown inside
    obtain ⟨seen, -, rfl⟩ := List.mem_map.1 inside
    rfl

theorem admits_iff (incoming : Incoming) :
    admits x incoming = true ↔ incoming.path = healthPath ∨
      x.localToken ≠ [] ∧ Solid isWhitespace x.localToken ∧ Presents incoming.headers x.localToken := by
  rw [admits, Bool.or_eq_true, decide_eq_true_iff, decide_eq_true_iff, presentedToken_iff]

theorem refused_of_known {shown : List Shown} (known : ∀ each ∈ shown, each.known x = true) :
    shown.filter (fun each => !each.known x) = [] := by
  refine List.filter_eq_nil_iff.2 fun each inside => ?_
  rw [known each inside]
  decide

theorem step_refuses (s : AppState) (action : Action) :
    (s.step x action).2.filter (fun shown => !shown.known x) = (refusal x action).toList := by
  cases known : action.known x with
  | true =>
    have none : refusal x action = none := by
      cases action with
      | request incoming fresh => exact if_pos known
      | input call given => rfl
    rw [refused_of_known (step_known s known), none, Option.toList_none]
  | false =>
    cases action with
    | input call given => cases known
    | request incoming fresh =>
      have refused : refusal x (.request incoming fresh) = some (.direct incoming (.error unauthorized)) :=
        if_neg (Bool.eq_false_iff.1 known)
      have unknown : (Shown.direct incoming (.error unauthorized)).known x = false := known
      rw [refused, step, receive_unknown s fresh known]
      simp only [List.filter_cons, unknown, Bool.not_false, if_true]
      rfl

theorem run_refuses (s : AppState) (actions : List Action) :
    (runAll (step x) s actions).2.filter (fun shown => !shown.known x) = actions.filterMap (refusal x) := by
  induction actions generalizing s with
  | nil => rfl
  | cons action rest ih =>
    rw [runAll_cons, List.filter_append, ih, step_refuses, List.filterMap_cons]
    cases refusal x action <;> rfl

theorem run_known (s : AppState) (actions : List Action) :
    runAll (step x) s (actions.filter (Action.known x)) =
      ((runAll (step x) s actions).1, (runAll (step x) s actions).2.filter (Shown.known x)) := by
  induction actions generalizing s with
  | nil => rfl
  | cons action rest ih =>
    have same := ih (s.step x action).1
    rw [runAll_cons, List.filter_append]
    cases known : action.known x with
    | true => rw [List.filter_cons_of_pos known, runAll_cons, List.filter_eq_self.2 (step_known s known), same]
    | false =>
      cases action with
      | input call given => cases known
      | request incoming fresh =>
        have refused : s.step x (.request incoming fresh) = (s, [.direct incoming (.error unauthorized)]) :=
          receive_unknown s fresh known
        have unheard : ¬Action.known x (.request incoming fresh) = true := by simp [known]
        have unknown : ¬Shown.known x (.direct incoming (.error unauthorized)) = true := unheard
        rw [refused] at same ⊢
        rw [List.filter_cons_of_neg unheard, List.filter_cons_of_neg unknown]
        exact same

variable (x) in
/-- Each request of a stranger is answered by the authentication error, and nothing else comes of it: the server and
all others behave as if it had not been made. To know the token is to send it as the bearer or, without one, as the
api key. -/
theorem strangers_unheard (s : AppState) (actions : List Action) :
    let run := runAll (step x) s actions
    runAll (step x) s (actions.filter (Action.known x)) = (run.1, run.2.filter (Shown.known x)) ∧
      run.2.filter (fun shown => !shown.known x) = actions.filterMap (refusal x) ∧
      ∀ incoming, admits x incoming = true ↔ incoming.path = healthPath ∨
        x.localToken ≠ [] ∧ Solid isWhitespace x.localToken ∧ Presents incoming.headers x.localToken :=
  ⟨run_known s actions, run_refuses s actions, admits_iff⟩

end AppState

end KiroTrust.Server
