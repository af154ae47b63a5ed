import KiroTrust.Kiro.Client
import KiroTrust.Shared.Emitter
import KiroTrust.Shared.Ledger

set_option autoImplicit false

namespace KiroTrust.Kiro

open Auth (Time)
open Emitter Ledger
open Server (UpstreamError)

/-! The retry loop of `generate_inner`: how often it posts, what it counts, and what ends it. -/

def posts (out : List Observation) : Nat := out.countP Observation.isPost

def completions (out : List Observation) : Nat := out.countP Observation.isCompleted

def invalidations (out : List Observation) : Nat := out.countP Observation.isInvalidate

def resultAttempts : Except UpstreamError UpstreamStream → Nat
  | .ok stream => stream.attempts
  | .error e => e.attempts

variable (x : Externals)

/-- More than 60 s: a number of seconds, however long, or a date. -/
def AsksTooLong (header : Option Str) (now : Time) : Prop :=
  ∃ value, header = some value ∧
    if value ≠ [] ∧ value.all Char.isDigit then 60 < number value
    else ∃ date, x.httpDate value = some date ∧ now + 60 * Auth.second < date

/-- What must not be followed by another post. -/
def Observation.Settles : Observation → Prop
  | .completed _ (.error (.redirect _)) => True
  | .completed now (.ok resp) =>
    if resp.status = 200 then isEventStreamContentType (resp.contentType.getD []) = true
    else if resp.status = 403 then False
    else if resp.status = 429 ∨ 500 ≤ resp.status ∧ resp.status ≤ 599 then AsksTooLong x resp.retryAfter now
    else True
  -- A body that cannot be read names no exception.
  | .exception (.error _) => True
  | .exception (.ok raw) =>
    Generate.exceptionKind x raw = .allowanceExhausted ∨
      Generate.exceptionKind x raw ≠ .modelCapacity ∧ ¬ (parseExceptionType x.serde raw).any isRetryableException
  | .throttled status raw => classifyThrottle status raw = .allowanceExhausted
  | .refused _ => True
  | _ => False

theorem retryDelay_stop (delay : Nat) : (∃ d, retryDelay delay = .stop d) ↔ fromSecs 60 < delay := by
  unfold retryDelay
  split
  next within => simpa using within
  next beyond => simpa using beyond

theorem retryAfter_stop (header : Option Str) (now : Time) :
    (∃ delay, retryAfter x header now = .stop delay) ↔ AsksTooLong x header now := by
  cases header with
  | none => simp [retryAfter, AsksTooLong]
  | some value =>
    simp only [retryAfter, AsksTooLong, Option.some.injEq, exists_eq_left']
    by_cases digits : value ≠ [] ∧ value.all Char.isDigit
    · rw [if_pos digits, if_pos digits]
      by_cases fits : number value < 2 ^ 64
      · rw [if_pos fits, retryDelay_stop]
        unfold fromSecs
        omega
      · rw [if_neg fits]
        refine iff_of_true ⟨none, rfl⟩ ?_
        omega
    · rw [if_neg digits, if_neg digits]
      cases x.httpDate value with
      | none => simp
      | some date =>
        by_cases later : now ≤ date
        · simp only [later, if_true, retryDelay_stop, Option.some.injEq, exists_eq_left', fromSecs, Auth.second]
          unfold Time at *
          omega
        · simp only [later, if_false, Option.some.injEq, exists_eq_left', Auth.second, reduceCtorEq, exists_false,
            false_iff]
          unfold Time at *
          omega

theorem retryDelay_wait {delay d : Nat} (waits : retryDelay delay = .wait d) : d ≤ fromSecs 60 := by
  unfold retryDelay at waits
  split at waits
  next within =>
    cases waits
    exact within
  next => cases waits

theorem retryAfter_wait {header : Option Str} {now : Time} {d : Nat} (waits : retryAfter x header now = .wait d) :
    d ≤ fromSecs 60 := by
  cases header with
  | none => cases waits
  | some value =>
    simp only [retryAfter] at waits
    split at waits
    · split at waits
      · exact retryDelay_wait waits
      · cases waits
    · split at waits
      · split at waits
        · exact retryDelay_wait waits
        · cases waits
      · cases waits

theorem saturatingAdd_again (count total : Nat) :
    saturatingAdd (saturatingAdd count total) 1 = saturatingAdd count (total + 1) := by
  unfold saturatingAdd
  omega

theorem saturatingAdd_zero_of_le {count : Nat} (fits : count ≤ u32Max) : saturatingAdd count 0 = count := by
  unfold saturatingAdd
  omega

def Unsettled (out : List Observation) : Prop := ∀ o ∈ out, ¬ o.Settles x

/-- A response comes with a body that is to be read, unless it is a 403. -/
def Observation.bringsBody : Observation → Bool
  | .completed _ (.ok resp) => resp.status ≠ 403
  | _ => false

def Observation.isRead : Observation → Bool
  | .exception _ | .throttled _ _ => true
  | _ => false

def unread (out : List Observation) : Bool :=
  out.foldl (fun waits o => if o.bringsBody then true else if o.isRead then false else waits) false

theorem unread_concat (out : List Observation) (o : Observation) :
    unread (out ++ [o]) = if o.bringsBody then true else if o.isRead then false else unread out := by
  simp only [unread, List.foldl_append, List.foldl_cons, List.foldl_nil]

/-- Nothing so far forbids another post. -/
structure Clear (out : List Observation) : Prop where
  unsettled : Unsettled x out
  read : unread out = false

def Justified (before : List Observation) : Observation → Prop
  | .post _ => Clear x before
  | .invalidate => completions before < maxAttempts ∧ invalidations before = 0
  | .sleep (.retryAfter delay) => delay ≤ fromSecs 60
  | _ => True

section

variable {x}

theorem Unsettled.concat {out : List Observation} {o : Observation} (before : Unsettled x out)
    (now : ¬ o.Settles x) : Unsettled x (out ++ [o]) := by
  intro other inside
  obtain earlier | last := List.mem_append.1 inside
  · exact before other earlier
  · rw [List.mem_singleton.1 last]
    exact now

theorem Clear.concat {out : List Observation} {o : Observation} (clear : Clear x out) (now : ¬ o.Settles x)
    (bodiless : o.bringsBody = false) : Clear x (out ++ [o]) where
  unsettled := Unsettled.concat clear.unsettled now
  read := by simp [unread_concat, bodiless, clear.read]

theorem Clear.of_read {out : List Observation} {o : Observation} (unsettled : Unsettled x out) (now : ¬ o.Settles x)
    (bodiless : o.bringsBody = false) (read : o.isRead = true) : Clear x (out ++ [o]) where
  unsettled := Unsettled.concat unsettled now
  read := by simp [unread_concat, bodiless, read]

end

namespace Generate

structure Counted (progress : Option Nat) (g : Generate) (out : List Observation) (underWay : Nat) : Prop where
  attempts : g.attempts = completions out
  progress : g.progress = progress.map (saturatingAdd · (completions out))
  posts : posts out = completions out + underWay
  bound : g.attempts + underWay ≤ maxAttempts
  refreshed : invalidations out = g.refreshed.toNat
  justified : Always (Justified x) out

def Resting (g : Generate) (out : List Observation) : Prop :=
  match g.phase with
  | .identity | .headers _ | .posting | .sleeping => g.attempts < maxAttempts ∧ Clear x out
  | .exception | .throttled _ .fallback => Unsettled x out
  | .throttled _ (.wait delay) => delay ≤ fromSecs 60 ∧ Unsettled x out
  | .throttled _ (.stop _) | .refused _ | .cancelled => True
  | .returned result => resultAttempts result = g.attempts

def underWay (g : Generate) : Nat :=
  match g.phase with
  | .posting => 1
  | _ => 0

structure Kept (progress : Option Nat) (g : Generate) (out : List Observation) : Prop where
  counted : g.Counted x progress out g.underWay
  resting : g.Resting x out

variable {x}

theorem Counted.note {progress : Option Nat} {g : Generate} {out : List Observation} {n : Nat} {o : Observation}
    (counted : g.Counted x progress out n) (justified : Justified x out o) (noPost : o.isPost = false)
    (noCompletion : o.isCompleted = false) (noInvalidation : o.isInvalidate = false) :
    g.Counted x progress (out ++ [o]) n where
  attempts := by simpa [completions, noCompletion] using counted.attempts
  progress := by simpa [completions, noCompletion] using counted.progress
  posts := by simpa [Kiro.posts, completions, noPost, noCompletion] using counted.posts
  bound := counted.bound
  refreshed := by simpa [invalidations, noInvalidation] using counted.refreshed
  justified := counted.justified.concat justified

theorem fail_kept {progress : Option Nat} {g : Generate} {out : List Observation} {error : UpstreamError}
    (counted : g.Counted x progress out 0) (same : error.attempts = g.attempts) :
    (g.fail error).Kept x progress out where
  counted := ⟨counted.attempts, counted.progress, counted.posts, counted.bound, counted.refreshed, counted.justified⟩
  resting := same

theorem pause_kept {progress : Option Nat} {g : Generate} {out : List Observation} {pause : Pause}
    (counted : g.Counted x progress out 0) (left : g.attempts < maxAttempts) (clear : Clear x out)
    (bounded : ∀ delay, pause = .retryAfter delay → delay ≤ fromSecs 60) :
    (g.pause pause).1.Kept x progress (out ++ (g.pause pause).2) := by
  have justified : Justified x out (.sleep pause) := by
    cases pause with
    | backoff attempt => trivial
    | retryAfter delay => exact bounded delay rfl
  have noted := counted.note justified rfl rfl rfl
  exact ⟨⟨noted.attempts, noted.progress, noted.posts, noted.bound, noted.refreshed, noted.justified⟩,
    left, clear.concat nofun rfl⟩

theorem left_of_last {g : Generate} (more : g.last = false) : g.attempts < maxAttempts := by
  simpa [last] using more

def complete (g : Generate) : Generate :=
  { g with attempts := saturatingAdd g.attempts 1, progress := g.progress.map (recordCompleted · 1) }

theorem complete_counted {progress : Option Nat} {g : Generate} {out : List Observation} (now : Time)
    (post : Except NetError Response) (counted : g.Counted x progress out 1) :
    g.complete.Counted x progress (out ++ [.completed now post]) 0 := by
  have bound := counted.bound
  have room : saturatingAdd g.attempts 1 = g.attempts + 1 := by
    unfold saturatingAdd u32Max
    unfold maxAttempts at bound
    omega
  have once : completions (out ++ [.completed now post]) = completions out + 1 := List.countP_append
  refine ⟨?_, ?_, ?_, ?_, ?_, counted.justified.concat trivial⟩
  · rw [once, ← counted.attempts]
    exact room
  · rw [once]
    change g.progress.map (recordCompleted · 1) = _
    rw [counted.progress, Option.map_map]
    exact congrArg (Option.map · progress) (funext fun count => saturatingAdd_again count _)
  · rw [once, Nat.add_zero, ← counted.posts]
    exact List.countP_append
  · change saturatingAdd g.attempts 1 + 0 ≤ _
    rw [room]
    exact bound
  · change invalidations _ = g.refreshed.toNat
    rw [← counted.refreshed]
    exact List.countP_append

theorem onPost_complete (g : Generate) (now : Time) (post : Except NetError Response) :
    g.onPost x now post =
      let after :=
        match post with
        | .ok resp => g.complete.onResponse x now resp
        | .error (.redirect status) =>
          (g.complete.fail (.new .transport (some status) none g.complete.attempts none "redirect rejected".toList), [])
        | .error e =>
          if g.complete.last then (g.complete.fail (netError e g.complete.attempts), [])
          else g.complete.pause (.backoff g.complete.attempts)
      (after.1, .completed now post :: after.2) := rfl

theorem rest_kept {progress : Option Nat} {g : Generate} {out : List Observation} {phase : Phase}
    (counted : g.Counted x progress out 0) (quiet : { g with phase }.underWay = 0)
    (resting : { g with phase }.Resting x out) : { g with phase }.Kept x progress out where
  counted := by
    rw [quiet]
    exact ⟨counted.attempts, counted.progress, counted.posts, counted.bound, counted.refreshed, counted.justified⟩
  resting

theorem invalidate_kept {progress : Option Nat} {g : Generate} {out : List Observation}
    (counted : g.Counted x progress out 0) (left : g.attempts < maxAttempts) (clear : Clear x out)
    (first : g.refreshed = false) :
    { g with refreshed := true, phase := .identity }.Kept x progress (out ++ [Observation.invalidate]) where
  counted := by
    have none : invalidations out = 0 := by simpa [first] using counted.refreshed
    have more : invalidations (out ++ [Observation.invalidate]) = invalidations out + 1 := List.countP_append
    refine ⟨?_, ?_, ?_, counted.bound, ?_, counted.justified.concat ⟨counted.attempts ▸ left, none⟩⟩
    · simpa [completions, Observation.isCompleted] using counted.attempts
    · simpa [completions, Observation.isCompleted] using counted.progress
    · simpa [Kiro.posts, completions, Observation.isCompleted, Observation.isPost, underWay] using counted.posts
    · rw [more, none]
      rfl
  resting := ⟨left, clear.concat id rfl⟩

theorem onResponse_kept {progress : Option Nat} {g : Generate} {before : List Observation} {now : Time}
    {resp : Response} (counted : g.Counted x progress (before ++ [.completed now (.ok resp)]) 0)
    (clear : Clear x before) :
    (g.onResponse x now resp).1.Kept x progress
      (before ++ [.completed now (.ok resp)] ++ (g.onResponse x now resp).2) := by
  have settles : Observation.Settles x (.completed now (.ok resp)) ↔
      if resp.status = 200 then isEventStreamContentType (resp.contentType.getD []) = true
      else if resp.status = 403 then False
      else if resp.status = 429 ∨ 500 ≤ resp.status ∧ resp.status ≤ 599 then AsksTooLong x resp.retryAfter now
      else True := Iff.rfl
  unfold onResponse
  by_cases isOk : resp.status = 200
  · rw [if_pos isOk] at settles ⊢
    split
    next stream =>
      rw [List.append_nil]
      exact rest_kept counted rfl rfl
    next noStream =>
      rw [List.append_nil]
      exact rest_kept counted rfl (Unsettled.concat clear.unsettled (by simpa [settles] using noStream))
  rw [if_neg isOk] at settles ⊢
  by_cases forbidden : resp.status = 403
  · rw [if_pos forbidden] at settles ⊢
    split
    next again =>
      obtain ⟨first, more⟩ : g.refreshed = false ∧ g.last = false := by simpa using again
      have bodiless : (Observation.completed now (.ok resp)).bringsBody = false := by
        simp [Observation.bringsBody, forbidden]
      exact invalidate_kept counted (left_of_last more) (clear.concat (by simp [settles]) bodiless) first
    next =>
      rw [List.append_nil]
      exact fail_kept counted rfl
  rw [if_neg forbidden] at settles ⊢
  by_cases busy : resp.status = 429 ∨ 500 ≤ resp.status ∧ resp.status ≤ 599
  · rw [if_pos busy] at settles ⊢
    rw [List.append_nil]
    refine rest_kept counted rfl ?_
    have stops := retryAfter_stop x resp.retryAfter now
    unfold Resting
    cases delay : retryAfter x resp.retryAfter now with
    | stop d => trivial
    | wait d =>
      have within : ¬ AsksTooLong x resp.retryAfter now := by
        rw [← stops]
        simp [delay]
      exact ⟨retryAfter_wait x delay, Unsettled.concat clear.unsettled (by rwa [settles])⟩
    | fallback =>
      have within : ¬ AsksTooLong x resp.retryAfter now := by
        rw [← stops]
        simp [delay]
      exact Unsettled.concat clear.unsettled (by rwa [settles])
  · rw [if_neg busy, List.append_nil]
    exact rest_kept counted rfl trivial

theorem onPost_kept {progress : Option Nat} {g : Generate} {out : List Observation} (now : Time)
    (post : Except NetError Response) (counted : g.Counted x progress out 1) (clear : Clear x out) :
    (g.onPost x now post).1.Kept x progress (out ++ (g.onPost x now post).2) := by
  have completed := complete_counted now post counted
  rw [onPost_complete]
  simp only
  rw [List.append_cons]
  cases post with
  | ok resp => exact onResponse_kept completed clear
  | error e =>
    cases e with
    | redirect status =>
      rw [List.append_nil]
      exact fail_kept completed rfl
    | _ =>
      simp only
      split
      next =>
        rw [List.append_nil]
        exact fail_kept completed rfl
      next more =>
        exact pause_kept completed (left_of_last (by simpa using more)) (clear.concat id rfl) nofun

theorem onException_kept {progress : Option Nat} {g : Generate} {out : List Observation}
    (read : Except NetError (List UInt8)) (counted : g.Counted x progress out 0) (unsettled : Unsettled x out) :
    (g.onException x read).1.Kept x progress (out ++ (g.onException x read).2) := by
  have noted := counted.note (o := .exception read) trivial rfl rfl rfl
  simp only [onException]
  rw [List.append_cons]
  cases read with
  | error e =>
    rw [List.append_nil]
    exact fail_kept noted rfl
  | ok raw =>
    simp only
    split
    next again =>
      obtain ⟨retryable, more⟩ := Bool.and_eq_true_iff.1 again
      refine pause_kept noted (left_of_last (by simpa using more)) (.of_read unsettled ?_ rfl rfl) nofun
      obtain capacity | ⟨allowed, known⟩ : exceptionKind x raw = .modelCapacity ∨
          exceptionKind x raw ≠ .allowanceExhausted ∧ (parseExceptionType x.serde raw).any isRetryableException := by
        simpa using retryable
      · simp [Observation.Settles, capacity]
      · simp [Observation.Settles, allowed, known]
    next =>
      rw [List.append_nil]
      exact fail_kept noted rfl

theorem onThrottled_kept {progress : Option Nat} {g : Generate} {out : List Observation} {status : Nat}
    {delay : RetryDelay} (read : Except NetError (List UInt8)) (counted : g.Counted x progress out 0)
    (resting : { g with phase := .throttled status delay }.Resting x out) :
    (g.onThrottled x status delay read).1.Kept x progress (out ++ (g.onThrottled x status delay read).2) := by
  have noted := counted.note (o := .throttled status (read.toOption.getD [])) trivial rfl rfl rfl
  simp only [onThrottled]
  rw [List.append_cons]
  split
  next =>
    rw [List.append_nil]
    exact fail_kept noted rfl
  next allowed =>
    cases delay with
    | stop d =>
      rw [List.append_nil]
      exact fail_kept noted rfl
    | wait d =>
      obtain ⟨short, unsettled⟩ := resting
      simp only
      split
      next =>
        rw [List.append_nil]
        exact fail_kept noted rfl
      next more =>
        refine pause_kept noted (left_of_last (by simpa using more)) (.of_read unsettled allowed rfl rfl) ?_
        intro d' same
        cases same
        exact short
    | fallback =>
      simp only
      split
      next =>
        rw [List.append_nil]
        exact fail_kept noted rfl
      next more =>
        exact pause_kept noted (left_of_last (by simpa using more)) (.of_read resting allowed rfl rfl) nofun

theorem onRefused_kept {progress : Option Nat} {g : Generate} {out : List Observation} (status : Nat)
    (read : Except NetError (List UInt8)) (counted : g.Counted x progress out 0) :
    (g.onRefused x status read).1.Kept x progress (out ++ (g.onRefused x status read).2) :=
  fail_kept (counted.note trivial rfl rfl rfl) rfl

theorem onHeaders_kept {progress : Option Nat} {g : Generate} {out : List Observation} (identity : Identity)
    (token : Except Auth.AuthError Str) (counted : g.Counted x progress out 0) (left : g.attempts < maxAttempts)
    (clear : Clear x out) :
    (g.onHeaders x identity token).1.Kept x progress (out ++ (g.onHeaders x identity token).2) := by
  unfold onHeaders
  split
  next =>
    rw [List.append_nil]
    exact fail_kept counted rfl
  next headers _ =>
    refine ⟨⟨?_, ?_, ?_, left, ?_, counted.justified.concat clear⟩, left, clear.concat id rfl⟩
    · simpa [completions, Observation.isCompleted] using counted.attempts
    · simpa [completions, Observation.isCompleted] using counted.progress
    · have once : Kiro.posts (out ++ [Observation.post ⟨identity.runtimeRegion, headers, g.payload, g.body⟩]) =
          Kiro.posts out + 1 := List.countP_append
      rw [once, counted.posts]
      simp [completions, Observation.isCompleted, underWay]
    · simpa [invalidations, Observation.isInvalidate] using counted.refreshed

variable (x) in
def Held (progress : Option Nat) (g : Generate) (out : List Observation) : Prop :=
  g.Kept x progress out ∨ g.phase = .cancelled ∧ ∃ underWay, g.Counted x progress out underWay

theorem step_kept {progress : Option Nat} {g : Generate} {out : List Observation} (input : Input)
    (kept : g.Kept x progress out) (goesOn : input ≠ .cancel) :
    (g.step x input).1.Kept x progress (out ++ (g.step x input).2) := by
  have same : g.Kept x progress (out ++ []) := by
    rw [List.append_nil]
    exact kept
  obtain ⟨counted, resting⟩ := kept
  cases input with
  | identity result =>
    simp only [step]
    split
    next identity phase =>
      rw [underWay, phase] at counted
      rw [Resting, phase] at resting
      rw [List.append_nil]
      exact rest_kept counted rfl resting
    next e phase =>
      rw [underWay, phase] at counted
      rw [List.append_nil]
      exact fail_kept counted rfl
    next => exact same
  | token result =>
    simp only [step]
    split
    next identity phase =>
      rw [underWay, phase] at counted
      rw [Resting, phase] at resting
      exact onHeaders_kept identity result counted resting.1 resting.2
    next => exact same
  | post now result =>
    simp only [step]
    split
    next phase =>
      rw [underWay, phase] at counted
      rw [Resting, phase] at resting
      exact onPost_kept now result counted resting.2
    next => exact same
  | bytes result =>
    simp only [step]
    split
    next phase =>
      rw [underWay, phase] at counted
      rw [Resting, phase] at resting
      exact onException_kept result counted resting
    next status delay phase =>
      rw [underWay, phase] at counted
      refine onThrottled_kept result counted ?_
      rw [Resting, phase] at resting
      exact resting
    next status phase =>
      rw [underWay, phase] at counted
      exact onRefused_kept status result counted
    next => exact same
  | wake =>
    simp only [step]
    split
    next phase =>
      rw [underWay, phase] at counted
      rw [Resting, phase] at resting
      rw [List.append_nil]
      exact rest_kept counted rfl resting
    next => exact same
  | cancel => exact absurd rfl goesOn

theorem step_held (progress : Option Nat) (input : Input) :
    Preserves (fun g out => Held x progress g out) fun g => g.step x input := by
  intro g out held
  obtain kept | ⟨phase, underWay, counted⟩ := held
  · by_cases drops : input = .cancel
    · subst drops
      simp only [step, List.append_nil]
      split
      next => exact .inl kept
      next =>
        obtain ⟨attempts, progress, posts, bound, refreshed, justified⟩ := kept.counted
        exact .inr ⟨rfl, _, attempts, progress, posts, bound, refreshed, justified⟩
    · exact .inl (step_kept input kept drops)
  · have still : g.step x input = (g, []) := by
      cases input <;> simp [step, phase, ended]
    simp only [still, List.append_nil]
    exact .inr ⟨phase, underWay, counted⟩

theorem start_held (payload : Payload) (invocationId : Str) {progress : Option Nat}
    (fits : ∀ count ∈ progress, count ≤ u32Max) : Held x progress (start x payload invocationId progress) [] := by
  have counted (g : Generate) (attempts : g.attempts = 0) (refreshed : g.refreshed = false)
      (same : g.progress = progress) : g.Counted x progress [] 0 := by
    refine ⟨attempts, ?_, rfl, ?_, ?_, always_nil _⟩
    · rw [same]
      cases progress with
      | none => rfl
      | some count => exact congrArg some (saturatingAdd_zero_of_le (fits count rfl)).symm
    · rw [attempts]
      exact Nat.zero_le _
    · rw [refreshed]
      rfl
  unfold start
  cases x.encode payload with
  | ok body => exact .inl ⟨counted _ rfl rfl rfl, Nat.zero_lt_succ 2, nofun, rfl⟩
  | error e => exact .inl (fail_kept (counted _ rfl rfl rfl) rfl)

end Generate

end KiroTrust.Kiro
