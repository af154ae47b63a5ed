import KiroTrust.Kiro.Retry
import KiroTrust.Server.Handling

set_option autoImplicit false

namespace KiroTrust.Server

open Emitter Translate
open Tracking (RequestUsageGuard Outcome Transition noUsage)

/-! The replay: at most one, and of the attempt before it nothing is left but the posts it has made. -/

def Seen.isCompleted : Seen → Bool
  | .client o => o.isCompleted
  | _ => false

def Seen.shown : Seen → Bool
  | .answer _ | .piece _ | .settled _ => true
  | .generate _ | .client _ | .primed _ => false

def Seen.generated : Seen → Option Kiro.Payload
  | .generate payload => some payload
  | _ => none

def Seen.primedAs : Seen → Option Primed
  | .primed result => some result
  | _ => none

def calls (out : List Seen) : List Kiro.Payload := out.filterMap Seen.generated

def primings (out : List Seen) : List Primed := out.filterMap Seen.primedAs

def completions (out : List Seen) : Nat := out.countP Seen.isCompleted

@[simp] theorem calls_append (left right : List Seen) : calls (left ++ right) = calls left ++ calls right :=
  List.filterMap_append

@[simp] theorem primings_append (left right : List Seen) :
    primings (left ++ right) = primings left ++ primings right := List.filterMap_append

@[simp] theorem completions_append (left right : List Seen) :
    completions (left ++ right) = completions left + completions right := List.countP_append

@[simp] theorem calls_client (out : List Kiro.Observation) : calls (out.map .client) = [] := by
  induction out with
  | nil => rfl
  | cons o rest ih => exact ih

@[simp] theorem primings_client (out : List Kiro.Observation) : primings (out.map .client) = [] := by
  induction out with
  | nil => rfl
  | cons o rest ih => exact ih

@[simp] theorem completions_client (out : List Kiro.Observation) :
    completions (out.map .client) = Kiro.completions out := List.countP_map

theorem shown_client (out : List Kiro.Observation) : ∀ o ∈ out.map Seen.client, o.shown = false := by
  rw [List.forall_mem_map]
  exact fun _ _ => rfl

/-- `prime` has not returned yet. -/
def Stage.early : Stage → Bool
  | .generating _ | .priming _ _ => true
  | .folding _ | .body _ _ | .ended => false

theorem settle_eq (g : RequestUsageGuard) (outcome : Outcome) (elapsed : Nat) :
    settle g outcome elapsed =
      if g.terminal then (g, [])
      else ({ g with terminal := true },
        [.settled ⟨outcome, g.usage, min elapsed Tracking.u64Max, g.progress - 1⟩]) := by
  unfold settle RequestUsageGuard.transition
  cases g.terminal <;> rfl

theorem calls_shown {out : List Seen} (shown : ∀ o ∈ out, o.shown = true) : calls out = [] := by
  refine List.filterMap_eq_nil_iff.2 fun o inside => ?_
  cases o with
  | generate payload => cases shown _ inside
  | _ => rfl

theorem completions_shown {out : List Seen} (shown : ∀ o ∈ out, o.shown = true) : completions out = 0 := by
  refine List.countP_eq_zero.2 fun o inside => ?_
  cases o with
  | client o => cases shown _ inside
  | _ => exact Bool.false_ne_true

structure Closing (h : Handling) (moved : Handling × List Seen) : Prop where
  payload : moved.1.payload = h.payload
  replayed : moved.1.replayed = h.replayed
  progress : moved.1.usage.progress = h.usage.progress
  late : moved.1.stage.early = false
  shown : ∀ o ∈ moved.2, o.shown = true
  retries : ∀ t, .settled t ∈ moved.2 → t.retries = h.usage.progress - 1

structure Settles (g : RequestUsageGuard) (moved : RequestUsageGuard × List Seen) : Prop where
  progress : moved.1.progress = g.progress
  shown : ∀ o ∈ moved.2, o.shown = true
  retries : ∀ t, .settled t ∈ moved.2 → t.retries = g.progress - 1

theorem Settles.none (g : RequestUsageGuard) : Settles g (g, []) where
  progress := rfl
  shown := List.forall_mem_nil _
  retries := fun _ inside => absurd inside List.not_mem_nil

theorem settle_settles (g : RequestUsageGuard) (outcome : Outcome) (elapsed : Nat) :
    Settles g (settle g outcome elapsed) := by
  rw [settle_eq]
  cases g.terminal with
  | true => exact .none g
  | false =>
    refine ⟨rfl, List.forall_mem_singleton.2 rfl, fun t inside => ?_⟩
    cases List.mem_singleton.1 inside
    rfl

theorem Settles.closing {h : Handling} {g : RequestUsageGuard} {moved : RequestUsageGuard × List Seen} {stage : Stage}
    {o : Seen} (settles : Settles g moved) (same : g.progress = h.usage.progress) (late : stage.early = false)
    (shown : o.shown = true) (other : ∀ t, o ≠ .settled t) :
    Closing h ({ h with usage := moved.1, stage }, moved.2 ++ [o]) where
  payload := rfl
  replayed := rfl
  progress := settles.progress.trans same
  late := late
  shown := List.forall_mem_append.2 ⟨settles.shown, List.forall_mem_singleton.2 shown⟩
  retries := by
    intro t inside
    rw [← same]
    obtain first | last := List.mem_append.1 inside
    · exact settles.retries t first
    · exact absurd (List.mem_singleton.1 last).symm (other t)

theorem Closing.quiet (h : Handling) {usage : RequestUsageGuard} {stage : Stage}
    (same : usage.progress = h.usage.progress) (late : stage.early = false) :
    Closing h ({ h with usage, stage }, []) where
  payload := rfl
  replayed := rfl
  progress := same
  late := late
  shown := List.forall_mem_nil _
  retries := fun _ inside => absurd inside List.not_mem_nil

theorem Closing.observed {h : Handling} {usage : RequestUsageGuard} {moved : Handling × List Seen}
    (closing : Closing { h with usage } moved) (same : usage.progress = h.usage.progress) : Closing h moved where
  payload := closing.payload
  replayed := closing.replayed
  progress := closing.progress.trans same
  late := closing.late
  shown := closing.shown
  retries := by
    rw [← same]
    exact closing.retries

namespace Handling

variable (r : Route)

theorem refuse_closing (h : Handling) (elapsed : Nat) (pump : Pump) (refusal : Refusal) :
    Closing h (h.refuse elapsed pump refusal) :=
  (settle_settles (h.usage.update pump.translator.usageSnapshot 0) _ elapsed).closing rfl rfl rfl nofun

theorem finishMessage_closing (h : Handling) (elapsed : Nat) (pump : Pump) :
    Closing h (h.finishMessage r elapsed pump) :=
  (settle_settles (h.usage.update pump.translator.usageSnapshot _) .completed elapsed).closing rfl rfl rfl nofun

theorem onFolding_closing (h : Handling) (elapsed : Nat) (pump : Pump) : Closing h (h.onFolding r elapsed pump) := by
  unfold onFolding
  split
  next =>
    simp only
    split
    · exact (finishMessage_closing r _ elapsed _).observed rfl
    · exact Closing.quiet h rfl rfl
  next => exact refuse_closing h elapsed _ _
  next => exact refuse_closing h elapsed _ _
  next => exact finishMessage_closing r h elapsed _

theorem account_settles (usage : RequestUsageGuard) (elapsed : Nat) (late : Bool) (b : Body) (outputBytes : Nat)
    (piece : Piece) : Settles usage (account r usage elapsed late b outputBytes piece).1 := by
  unfold account
  split
  · simp only
    split
    · exact settle_settles usage _ elapsed
    · exact .none usage
  · split
    · exact .none usage
    · simp only
      have updated (outcome : Outcome) (snapshot : UsageSnapshot) (bytes : Nat) :
          Settles usage (settle (usage.update snapshot bytes) outcome elapsed) := by
        obtain ⟨progress, shown, retries⟩ := settle_settles (usage.update snapshot bytes) outcome elapsed
        exact ⟨progress, shown, retries⟩
      split
      · split
        · exact updated _ _ _
        · obtain ⟨progress, shown, retries⟩ := Settles.none (usage.update _ _)
          exact ⟨progress, shown, retries⟩
      · exact updated _ _ _
      · exact updated _ _ _
      · exact updated _ _ _

theorem onBody_closing (h : Handling) (elapsed : Nat) (late : Bool) (b : Body) (outputBytes : Nat)
    (here : h.stage.early = false) : Closing h (h.onBody r elapsed late b outputBytes) := by
  unfold onBody
  split
  next => exact Closing.quiet h rfl here
  next piece after _ => exact (account_settles r h.usage elapsed late b outputBytes piece).closing rfl rfl rfl nofun

theorem drop_closing (h : Handling) (elapsed : Nat) :
    Closing h
      ({ h with usage := (settle h.usage .cancelled elapsed).1, stage := .ended },
        (settle h.usage .cancelled elapsed).2) := by
  obtain ⟨progress, shown, retries⟩ := settle_settles h.usage .cancelled elapsed
  exact ⟨rfl, rfl, progress, rfl, shown, retries⟩

theorem step_late (h : Handling) (late : h.stage.early = false) (turn : Turn) : Closing h (h.step r turn) := by
  have still : Closing h (h, []) := Closing.quiet h rfl late
  cases turn with
  | upstream elapsed input =>
    simp only [step]
    split
    next => exact still
    next g stage _ =>
      rw [stage] at late
      cases late
    next => exact still
  | pump elapsed timeout =>
    simp only [step]
    split
    next pump buffered stage =>
      rw [stage] at late
      cases late
    next pump stage => exact onFolding_closing r h elapsed pump
    next b outputBytes stage => exact onBody_closing r h elapsed timeout b outputBytes late
    next => exact still
    next => exact still
  | drop elapsed =>
    simp only [step]
    split
    next => exact still
    next => exact drop_closing h elapsed

theorem proceed_cases (h : Handling) (elapsed : Nat) (g : Kiro.Generate) :
    let usage := { h.usage with progress := g.progress.getD h.usage.progress }
    (∃ stage : Stage, stage.early = true ∧ (∀ g', stage = .generating g' → g' = g) ∧
      h.proceed r elapsed g = ({ h with usage, stage }, [])) ∨
    Closing { h with usage } (h.proceed r elapsed g) := by
  intro usage
  unfold proceed
  split
  next => exact .inl ⟨_, rfl, fun _ => Stage.noConfusion, rfl⟩
  next => exact .inr ((settle_settles usage _ elapsed).closing rfl rfl rfl nofun)
  next => exact .inl ⟨.generating g, rfl, fun _ same => (Stage.generating.inj same).symm, rfl⟩

inductive Primes (h : Handling) (elapsed : Nat) : Handling × List Seen → Prop where
  | goesOn (snapshot : UsageSnapshot) (bytes : Nat) (pump : Pump) (buffered : List StreamEvent) :
    Primes h elapsed ({ h with usage := h.usage.update snapshot bytes, stage := .priming pump buffered }, [])
  | replays {f : Failure} {after : Handling × List Seen} (first : h.replayed = false) (again : retryable f = true)
      (calls : after = ({ h with
        replayed := true
        payload := withoutConversation h.payload
        usage := h.usage.update noUsage 0 } : Handling).call r elapsed) :
    Primes h elapsed (after.1, .primed (.failed f) :: after.2)
  | ends {primed : Primed} {after : Handling × List Seen}
      (last : ∀ f, primed = .failed f → h.replayed = true ∨ retryable f = false) (closing : Closing h after) :
    Primes h elapsed (after.1, .primed primed :: after.2)

theorem onPrimed_primes (h : Handling) (elapsed : Nat) (snapshot : UsageSnapshot) (bytes : Nat) (pump : Pump)
    (primed : Primed) :
    let after := onPrimed r { h with usage := h.usage.update snapshot bytes } elapsed pump primed
    Primes r h elapsed (after.1, .primed primed :: after.2) := by
  cases primed with
  | failed f =>
    simp only [onPrimed]
    split
    next again =>
      obtain ⟨first, again⟩ := Bool.and_eq_true_iff.1 again
      exact .replays (by simpa using first) again rfl
    next never =>
      refine .ends (fun other same => ?_) ((refuse_closing _ elapsed pump _).observed rfl)
      cases same
      cases replayed : h.replayed <;> simp_all
  | broken e => exact .ends nofun ((refuse_closing _ elapsed pump _).observed rfl)
  | ready first | ended first =>
    refine .ends nofun ?_
    simp only [onPrimed]
    split
    next =>
      refine ⟨rfl, rfl, rfl, rfl, List.forall_mem_singleton.2 rfl, fun t inside => ?_⟩
      cases List.mem_singleton.1 inside
    next =>
      split
      next => exact (finishMessage_closing r _ elapsed pump).observed rfl
      next => exact Closing.quiet h rfl rfl

theorem onTurn_primes (h : Handling) (elapsed : Nat) (snapshot : UsageSnapshot) (bytes : Nat) (pump : Pump)
    (turn : Except Primed (List StreamEvent)) :
    Primes r h elapsed (onTurn r { h with usage := h.usage.update snapshot bytes } elapsed pump turn) := by
  cases turn with
  | ok buffered => exact .goesOn snapshot bytes pump buffered
  | error primed => exact onPrimed_primes r h elapsed snapshot bytes pump primed

theorem onPriming_primes (h : Handling) (elapsed : Nat) (late : Bool) (pump : Pump) (buffered : List StreamEvent) :
    Primes r h elapsed (h.onPriming r elapsed late pump buffered) := by
  unfold onPriming
  simp only
  split
  next snapshot _ => exact onTurn_primes r h elapsed snapshot 0 _ _
  next => exact onTurn_primes r h elapsed h.usage.usage h.usage.outputBytes _ _

/-- The posts of all attempts so far, of which `counted` were made before this one. -/
structure Posting (h : Handling) (g : Kiro.Generate) (out : List Seen) (counted : Nat) : Prop where
  before : counted ≤ Kiro.maxAttempts * h.replayed.toNat
  held : ∃ seen, g.Held r.kiro (some counted) seen ∧ completions out = counted + Kiro.completions seen

structure Counts (h : Handling) (out : List Seen) : Prop where
  progress : h.usage.progress = completions out
  bound : completions out ≤ Kiro.maxAttempts * (1 + h.replayed.toNat)
  generating : ∀ g, h.stage = .generating g → ∃ counted, Posting r h g out counted
  silent : h.stage.early = true → ∀ o ∈ out, o.shown = false
  retries : ∀ t, .settled t ∈ out → t.retries = completions out - 1

variable {r}

theorem Posting.completed {h : Handling} {g : Kiro.Generate} {out : List Seen} {counted : Nat}
    (posting : Posting r h g out counted) :
    g.progress = some (completions out) ∧ completions out ≤ Kiro.maxAttempts * (1 + h.replayed.toNat) := by
  obtain ⟨seen, held, total⟩ := posting.held
  obtain ⟨underWay, counts⟩ : ∃ underWay, g.Counted r.kiro (some counted) seen underWay := by
    obtain kept | ⟨-, dropped⟩ := held
    · exact ⟨_, kept.counted⟩
    · exact dropped
  have attempts := counts.attempts
  have atMost := counts.bound
  have before := posting.before
  have few := h.replayed.toNat_le
  rw [Nat.mul_add, Nat.mul_one]
  refine ⟨counts.progress.trans (congrArg some ?_), by omega⟩
  rw [total]
  change min (counted + Kiro.completions seen) Kiro.u32Max = _
  unfold Kiro.u32Max
  unfold Kiro.maxAttempts at *
  omega

theorem Counts.closing {h : Handling} {out : List Seen} {moved : Handling × List Seen} (counts : Counts r h out)
    (closing : Closing h moved) : Counts r moved.1 (out ++ moved.2) := by
  have total : completions (out ++ moved.2) = completions out := by
    rw [completions_append, completions_shown closing.shown, Nat.add_zero]
  refine ⟨?_, ?_, ?_, ?_, ?_⟩
  · rw [total, closing.progress, counts.progress]
  · rw [total, closing.replayed]
    exact counts.bound
  · intro g stage
    have late := closing.late
    rw [stage] at late
    cases late
  · intro early
    rw [closing.late] at early
    cases early
  · intro t inside
    rw [total]
    obtain earlier | now := List.mem_append.1 inside
    · exact counts.retries t earlier
    · rw [closing.retries t now, counts.progress]

theorem silent_retries {out : List Seen} (silent : ∀ o ∈ out, o.shown = false) (t : Transition) :
    .settled t ∉ out := by
  intro inside
  cases silent _ inside

theorem proceed_counts {h : Handling} {g : Kiro.Generate} {out : List Seen} {counted : Nat} (elapsed : Nat)
    (posting : Posting r h g out counted) (silent : ∀ o ∈ out, o.shown = false) :
    Counts r (h.proceed r elapsed g).1 (out ++ (h.proceed r elapsed g).2) := by
  obtain ⟨progress, bound⟩ := posting.completed
  have shared : g.progress.getD h.usage.progress = completions out := by rw [progress, Option.getD_some]
  obtain ⟨stage, early, generates, same⟩ | closing := h.proceed_cases r elapsed g
  · rw [same, List.append_nil]
    refine ⟨shared, bound, fun g' here => ?_, fun _ => silent, fun t inside => absurd inside (silent_retries silent t)⟩
    rw [generates g' here]
    exact ⟨counted, posting.before, posting.held⟩
  · let waiting := { h with usage := { h.usage with progress := g.progress.getD h.usage.progress }, stage := .ended }
    have counts : Counts r waiting out :=
      ⟨shared, bound, fun _ => Stage.noConfusion, fun _ => silent, fun t inside => absurd inside (silent_retries silent t)⟩
    obtain ⟨payload, replayed, same, late, shown, retries⟩ := closing
    exact counts.closing ⟨payload, replayed, same, late, shown, retries⟩

theorem call_counts {h : Handling} {out : List Seen} (elapsed : Nat) (progress : h.usage.progress = completions out)
    (bound : completions out ≤ Kiro.maxAttempts * h.replayed.toNat) (silent : ∀ o ∈ out, o.shown = false) :
    Counts r (h.call r elapsed).1 (out ++ (h.call r elapsed).2) := by
  have few := h.replayed.toNat_le
  have fits : ∀ count ∈ some h.usage.progress, count ≤ Kiro.u32Max := by
    intro count same
    cases same
    unfold Kiro.maxAttempts at bound
    unfold Kiro.u32Max
    omega
  have held := Kiro.Generate.start_held (x := r.kiro) h.payload (r.invocationId h.replayed) fits
  simp only [call]
  rw [List.append_cons]
  refine proceed_counts elapsed ⟨progress ▸ bound, [], held, ?_⟩ ?_
  · rw [completions_append, progress]
    rfl
  · exact List.forall_mem_append.2 ⟨silent, List.forall_mem_singleton.2 rfl⟩

theorem Posting.step {h : Handling} {g : Kiro.Generate} {out : List Seen} {counted : Nat} (input : Kiro.Input)
    (posting : Posting r h g out counted) :
    Posting r h (g.step r.kiro input).1 (out ++ (g.step r.kiro input).2.map .client) counted where
  before := posting.before
  held := by
    obtain ⟨seen, held, total⟩ := posting.held
    refine ⟨_, Kiro.Generate.step_held (some counted) input g seen held, ?_⟩
    have more : Kiro.completions (seen ++ (g.step r.kiro input).2) =
        Kiro.completions seen + Kiro.completions (g.step r.kiro input).2 := List.countP_append
    rw [completions_append, completions_client, total, more, Nat.add_assoc]

theorem Counts.noted {h : Handling} {out : List Seen} {o : Seen} (counts : Counts r h out)
    (early : h.stage.early = true) (inner : o.shown = false) (other : o.isCompleted = false) :
    completions (out ++ [o]) = completions out ∧ ∀ seen ∈ out ++ [o], seen.shown = false := by
  refine ⟨?_, List.forall_mem_append.2 ⟨counts.silent early, List.forall_mem_singleton.2 inner⟩⟩
  simp [completions, other]

theorem Counts.primes {h : Handling} {out : List Seen} {elapsed : Nat} {moved : Handling × List Seen}
    (counts : Counts r h out) (early : h.stage.early = true) (primes : Primes r h elapsed moved) :
    Counts r moved.1 (out ++ moved.2) := by
  cases primes with
  | goesOn snapshot bytes pump buffered =>
    rw [List.append_nil]
    exact ⟨counts.progress, counts.bound, fun _ => Stage.noConfusion, fun _ => counts.silent early, counts.retries⟩
  | @replays f after first again calls =>
    subst calls
    obtain ⟨same, silent⟩ := counts.noted early (o := .primed (.failed f)) rfl rfl
    have bound := counts.bound
    rw [first] at bound
    simp only
    rw [List.append_cons]
    refine call_counts elapsed (counts.progress.trans same.symm) ?_ silent
    rw [same]
    exact bound
  | @ends primed after last closing =>
    obtain ⟨same, silent⟩ := counts.noted early (o := .primed primed) rfl rfl
    let waiting := { h with stage := .ended }
    have noted : Counts r waiting (out ++ [.primed primed]) := by
      refine ⟨counts.progress.trans same.symm, same ▸ counts.bound, fun _ => Stage.noConfusion, fun _ => silent, ?_⟩
      exact fun t inside => absurd inside (silent_retries silent t)
    obtain ⟨payload, replayed, progress, late, shown, retries⟩ := closing
    rw [List.append_cons]
    exact noted.closing ⟨payload, replayed, progress, late, shown, retries⟩

structure SameAttempt (h next : Handling) : Prop where
  payload : next.payload = h.payload
  replayed : next.replayed = h.replayed
  modelIndex : next.usage.modelIndex = h.usage.modelIndex
  terminal : next.usage.terminal = h.usage.terminal

variable (r) in
inductive Advances (h : Handling) : Turn → Handling × List Seen → Prop where
  | awaits {turn : Turn} {next : Handling} {out : List Seen} (same : SameAttempt h next)
      (early : next.stage.early = true) (silent : ∀ o ∈ out, o.shown = false) (calls : calls out = [])
      (primings : primings out = []) : Advances h turn (next, out)
  | replays {f : Failure} {after : Handling × List Seen} (elapsed : Nat) (late : Bool) (first : h.replayed = false)
      (again : retryable f = true)
      (calls : after = (new (withoutConversation h.payload) true h.usage.modelIndex h.usage.progress).call r elapsed) :
    Advances h (.pump elapsed late) (after.1, .primed (.failed f) :: after.2)
  | ends {turn : Turn} {moved : Handling × List Seen} {inner last : List Seen} (out : moved.2 = inner ++ last)
      (calls : calls inner = [])
      (never : ∀ f, (primings inner).head? = some (.failed f) → h.replayed = true ∨ retryable f = false)
      (replayed : moved.1.replayed = h.replayed) (late : moved.1.stage.early = false)
      (shown : ∀ o ∈ last, o.shown = true) : Advances h turn moved

theorem Advances.of_closing {h : Handling} {turn : Turn} {moved : Handling × List Seen} (closing : Closing h moved) :
    Advances r h turn moved :=
  .ends (List.nil_append _).symm rfl nofun closing.replayed closing.late closing.shown

theorem call_stage (h : Handling) (elapsed : Nat) (stage : Stage) :
    { h with stage }.call r elapsed = h.call r elapsed := by
  unfold call proceed
  simp only

theorem Advances.of_primes {h : Handling} {elapsed : Nat} {late : Bool} {moved : Handling × List Seen}
    (going : h.usage.terminal = false) (primes : Primes r h elapsed moved) :
    Advances r h (.pump elapsed late) moved := by
  cases primes with
  | goesOn snapshot bytes pump buffered =>
    exact .awaits ⟨rfl, rfl, rfl, rfl⟩ rfl (List.forall_mem_nil _) rfl rfl
  | replays first again calls =>
    refine .replays elapsed late first again ?_
    rw [calls, ← call_stage _ elapsed .ended]
    simp only [new, RequestUsageGuard.update, going]
  | @ends primed after last closing =>
    have brought : Seen.primed primed :: after.2 = [.primed primed] ++ after.2 := rfl
    exact .ends brought rfl (fun f same => last f (Option.some.inj same)) closing.replayed closing.late closing.shown

theorem step_advances {h : Handling} (early : h.stage.early = true) (going : h.usage.terminal = false) (turn : Turn) :
    Advances r h turn (h.step r turn) := by
  have still : Advances r h turn (h, []) :=
    .awaits ⟨rfl, rfl, rfl, rfl⟩ early (List.forall_mem_nil _) rfl rfl
  cases turn with
  | upstream elapsed input =>
    simp only [step]
    split
    next => exact still
    next _ g stage _ =>
      obtain ⟨stage, early, -, same⟩ | closing := h.proceed_cases r elapsed (g.step r.kiro _).1
      · rw [same, List.append_nil]
        exact .awaits ⟨rfl, rfl, rfl, rfl⟩ early (shown_client _) (calls_client _) (primings_client _)
      · refine .ends rfl (calls_client _) (fun f found => ?_) closing.replayed closing.late closing.shown
        rw [primings_client] at found
        cases found
    next => exact still
  | pump elapsed timeout =>
    simp only [step]
    split
    next pump buffered stage => exact .of_primes going (onPriming_primes r h elapsed timeout pump buffered)
    next stage =>
      rw [stage] at early
      cases early
    next stage =>
      rw [stage] at early
      cases early
    next => exact still
    next => exact still
  | drop elapsed =>
    simp only [step]
    split
    next => exact still
    next => exact .of_closing (drop_closing h elapsed)

theorem run_late {h : Handling} (late : h.stage.early = false) (turns : List Turn) :
    ∀ o ∈ (runAll (step r) h turns).2, o.shown = true := by
  induction turns generalizing h with
  | nil => exact List.forall_mem_nil _
  | cons turn rest ih =>
    have closing := step_late r h late turn
    exact List.forall_mem_append.2 ⟨closing.shown, ih closing.late⟩

theorem run_calls {h : Handling} (early : h.stage.early = true) (going : h.usage.terminal = false)
    (replayed : h.replayed = true) (turns : List Turn) : calls (runAll (step r) h turns).2 = [] := by
  induction turns generalizing h with
  | nil => rfl
  | cons turn rest ih =>
    have advances := step_advances (r := r) early going turn
    rw [runAll_cons, calls_append]
    generalize h.step r turn = moved at advances ⊢
    cases advances with
    | awaits same early silent calls primings =>
      rw [ih early (same.terminal.trans going) (same.replayed.trans replayed), calls]
      rfl
    | replays elapsed late first =>
      rw [first] at replayed
      cases replayed
    | ends out calls never replayed late shown =>
      rw [out, calls_append, calls, calls_shown shown, calls_shown (run_late late rest)]
      rfl

variable (r) in
structure Factors (payload : Kiro.Payload) (modelIndex : Tracking.ModelIndex) (turns : List Turn) (made : List Kiro.Payload)
    (run last : Handling × List Seen) : Prop where
  alone : ∃ earlier elapsed late later completed, turns = earlier ++ .pump elapsed late :: later ∧
    last = handle r (new (withoutConversation payload) true modelIndex completed) elapsed later
  run : ∃ silent f, run = (last.1, silent ++ last.2) ∧ (∀ o ∈ silent, o.shown = false) ∧ calls silent = made ∧
    primings silent = [.failed f] ∧ retryable f = true

theorem Factors.turn {payload : Kiro.Payload} {modelIndex : Tracking.ModelIndex} {turns : List Turn}
    {made : List Kiro.Payload} {run last : Handling × List Seen} (turn : Turn)
    (factors : Factors r payload modelIndex turns made run last) :
    Factors r payload modelIndex (turn :: turns) made run last where
  alone := by
    obtain ⟨earlier, elapsed, late, later, completed, split, same⟩ := factors.alone
    exact ⟨turn :: earlier, elapsed, late, later, completed, by rw [split, List.cons_append], same⟩
  run := factors.run

theorem Factors.after {payload : Kiro.Payload} {modelIndex : Tracking.ModelIndex} {turns : List Turn}
    {made : List Kiro.Payload} {run last : Handling × List Seen} {out : List Seen}
    (factors : Factors r payload modelIndex turns made run last) (silent : ∀ o ∈ out, o.shown = false)
    (noPrimings : primings out = []) :
    Factors r payload modelIndex turns (Server.calls out ++ made) (run.1, out ++ run.2) last where
  alone := factors.alone
  run := by
    obtain ⟨inner, f, same, quiet, made, failed, again⟩ := factors.run
    refine ⟨out ++ inner, f, ?_, List.forall_mem_append.2 ⟨silent, quiet⟩, ?_, ?_, again⟩
    · rw [same, List.append_assoc]
    · rw [calls_append, made]
    · rw [primings_append, noPrimings, failed]
      rfl

theorem call_cases (h : Handling) (elapsed : Nat) :
    (∃ next, SameAttempt h next ∧ next.stage.early = true ∧ h.call r elapsed = (next, [.generate h.payload])) ∨
      (h.call r elapsed).1.stage.early = false ∧
        ∃ shown, (h.call r elapsed).2 = .generate h.payload :: shown ∧ ∀ o ∈ shown, o.shown = true := by
  simp only [call]
  obtain ⟨stage, early, -, same⟩ | closing := h.proceed_cases r elapsed
    (.start r.kiro h.payload (r.invocationId h.replayed) (some h.usage.progress))
  · rw [same]
    refine .inl ⟨_, ?_, ?_, rfl⟩
    · exact ⟨rfl, rfl, rfl, rfl⟩
    · exact early
  · exact .inr ⟨closing.late, _, rfl, closing.shown⟩

theorem handle_calls (payload : Kiro.Payload) (modelIndex : Tracking.ModelIndex) (completed elapsed : Nat)
    (turns : List Turn) : calls (handle r (new payload true modelIndex completed) elapsed turns).2 = [payload] := by
  simp only [handle]
  obtain ⟨next, same, early, called⟩ | ⟨late, shown, called, ends⟩ :=
    call_cases (r := r) (new payload true modelIndex completed) elapsed
  · rw [called, calls_append, run_calls early same.terminal same.replayed turns]
    rfl
  · rw [called, calls_append, calls_shown (run_late late turns)]
    exact congrArg (payload :: ·) ((List.append_nil _).trans (calls_shown ends))

end Handling

end KiroTrust.Server
