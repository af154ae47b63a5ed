import Mathlib.Data.Fintype.Option
import KiroTrust.Server.Counting

set_option autoImplicit false

namespace KiroTrust.Server.Tracking

open Catalog (ModelKey)
open Emitter Tally
open Translate.ResponseTranslator (saturatingAdd)

def within (scope : Scope) (history : List Counted) : List Counted := history.filter fun o => scope.covers o.model

theorem State.counters_move (s : State) (model : ModelIndex) (f : Counters → Counters) (scope : Scope) :
    (s.move model f).counters scope = if scope.covers model then f (s.counters scope) else s.counters scope := by
  cases scope with
  | none => rfl
  | some other =>
    by_cases same : model = other
    · subst same
      simp [counters, move, Scope.covers]
    · have apart : (model : Nat) ≠ other := fun equal => same (Fin.ext equal)
      simp [counters, move, Scope.covers, same, apart]

theorem within_concat (scope : Scope) (history : List Counted) (last : Counted) :
    within scope (history ++ [last]) = within scope history ++ if scope.covers last.model then [last] else [] := by
  by_cases covered : scope.covers last.model <;> simp [within, covered]

namespace Slot

def openModel : Slot → Option ModelIndex
  | .held guard => if guard.terminal then none else some guard.modelIndex
  | .locking guard _ _ => some guard.modelIndex
  | .dropped => none

def isOpen (slot : Slot) : Bool := slot.openModel.isSome

def inScope (scope : Scope) (slot : Slot) : Bool := slot.openModel.any scope.covers

/-- A guard is marked before `transition` waits for the lock. -/
def Marked : Slot → Prop
  | .locking guard _ _ => guard.terminal = true
  | _ => True

theorem inScope_none (slot : Slot) : slot.inScope none = slot.isOpen := by
  unfold inScope isOpen
  cases slot.openModel <;> rfl

end Slot

inductive Tracker.Stepped (u : Tracker) : Tracker → List Counted → Prop where
  | still : Stepped u u []
  | puts {guard : Nat} {slot next : Slot} (there : u.guards[guard]? = some slot)
      (same : next.openModel = slot.openModel) (marked : next.Marked) : Stepped u (u.put guard next) []
  | begins (model : ModelKey) :
    Stepped u
      { summary := { u.summary with state := u.summary.state.begin (RequestUsageGuard.new model).modelIndex }
        guards := u.guards ++ [.held (.new model)] }
      [.begun u.guards.length (RequestUsageGuard.new model).modelIndex]
  | locks {guard : Nat} {g : RequestUsageGuard} {t : Transition} {dropping : Bool} {next : Slot}
      (there : u.guards[guard]? = some (.locking g t dropping)) (closed : next.openModel = none)
      (unlocked : next.Marked) :
    Stepped u
      { summary := { u.summary with state := u.summary.state.terminal g.modelIndex t }
        guards := u.guards.set guard next }
      [.terminal guard g.modelIndex t]

theorem RequestUsageGuard.transition_slot (g : RequestUsageGuard) (outcome : Outcome) (elapsed : Nat) (dropping : Bool) :
    (g.transition outcome elapsed dropping).openModel = (Slot.held g).openModel ∧
      (g.transition outcome elapsed dropping).Marked := by
  unfold transition
  cases terminal : g.terminal with
  | true => exact ⟨rfl, trivial⟩
  | false => exact ⟨by simp [Slot.openModel, terminal], rfl⟩

theorem RequestUsageGuard.drop_slot (g : RequestUsageGuard) (elapsed : Nat) :
    (g.drop elapsed).openModel = (Slot.held g).openModel ∧ (g.drop elapsed).Marked := by
  unfold drop
  cases terminal : g.terminal with
  | true => exact ⟨by simp [Slot.openModel, terminal], trivial⟩
  | false => exact g.transition_slot .cancelled elapsed true

namespace Tracker

theorem onGuard_stepped (u : Tracker) (guard : Nat) {f : RequestUsageGuard → Slot}
    (keeps : ∀ g, (f g).openModel = (Slot.held g).openModel ∧ (f g).Marked) : u.Stepped (u.onGuard guard f) [] := by
  unfold onGuard
  split
  next g there => exact .puts there (keeps g).1 (keeps g).2
  next => exact .still

theorem step_stepped (u : Tracker) (marked : ∀ slot ∈ u.guards, slot.Marked) (action : Action) :
    u.Stepped (u.step action).1 (u.step action).2 := by
  cases action with
  | begin model => exact .begins model
  | update guard usage outputBytes => exact u.onGuard_stepped guard fun g => ⟨rfl, trivial⟩
  | complete guard elapsed => exact u.onGuard_stepped guard fun g => g.transition_slot _ _ _
  | fail guard kind elapsed => exact u.onGuard_stepped guard fun g => g.transition_slot _ _ _
  | drop guard elapsed => exact u.onGuard_stepped guard fun g => g.drop_slot elapsed
  | lock guard =>
    simp only [step]
    split
    next g t dropping there =>
      have terminal : g.terminal = true := marked _ (List.mem_of_getElem? there)
      refine .locks there ?_ ?_
      · cases dropping <;> simp [Slot.openModel, terminal]
      · cases dropping <;> trivial
    next => exact .still
  | record guard count =>
    simp only [step]
    split
    next g there => exact .puts there rfl trivial
    next g t dropping there =>
      have terminal : g.terminal = true := marked _ (List.mem_of_getElem? there)
      exact .puts there rfl terminal
    next => exact .still

def openIn (scope : Scope) (guards : List Slot) : Nat := guards.countP (Slot.inScope scope)

def settled (u : Tracker) (guard : Nat) : Bool := u.guards[guard]?.any fun slot => !slot.isOpen

def ended (o : Counted) : Nat := Counter.completed.adds o + Counter.failed.adds o + Counter.cancelled.adds o

structure Conserved (u : Tracker) (history : List Counted) : Prop where
  marked : ∀ slot ∈ u.guards, slot.Marked
  tallies : ∀ scope, (u.summary.state.counters scope).Tallies (within scope history)
  inFlight : ∀ scope, (u.summary.state.counters scope).requests.inFlight = openIn scope u.guards
  balance : ∀ scope,
    total Counter.started.adds (within scope history) = total ended (within scope history) + openIn scope u.guards
  once : ∀ guard, history.countP (Counted.ends guard) = (u.settled guard).toNat

theorem openIn_set {guards : List Slot} {guard : Nat} {slot : Slot} (scope : Scope) (next : Slot)
    (there : guards[guard]? = some slot) :
    openIn scope (guards.set guard next) + (slot.inScope scope).toNat =
      openIn scope guards + (next.inScope scope).toNat := by
  obtain ⟨bound, found⟩ := List.getElem?_eq_some_iff.1 there
  have counted : (slot.inScope scope).toNat ≤ openIn scope guards := by
    cases covered : slot.inScope scope with
    | false => exact Nat.zero_le _
    | true => exact List.countP_pos_iff.2 ⟨slot, List.mem_of_getElem? there, covered⟩
  simp only [openIn] at counted ⊢
  rw [List.countP_set bound, found]
  revert counted
  cases slot.inScope scope <;> cases next.inScope scope <;>
    simp only [if_true, if_false, Bool.toNat_true, Bool.toNat_false, Bool.false_eq_true] <;> omega

theorem openIn_same {guards : List Slot} {guard : Nat} {slot next : Slot} (there : guards[guard]? = some slot)
    (same : next.openModel = slot.openModel) (scope : Scope) :
    openIn scope (guards.set guard next) = openIn scope guards := by
  have moved := openIn_set scope next there
  have covered : next.inScope scope = slot.inScope scope := by simp only [Slot.inScope, same]
  rw [covered] at moved
  exact Nat.add_right_cancel moved

theorem openIn_closed {guards : List Slot} {guard : Nat} {g : RequestUsageGuard} {t : Transition} {dropping : Bool}
    {next : Slot} (there : guards[guard]? = some (.locking g t dropping)) (closed : next.openModel = none)
    (scope : Scope) :
    openIn scope (guards.set guard next) + (if scope.covers g.modelIndex then 1 else 0) = openIn scope guards := by
  have moved := openIn_set scope next there
  have before : (Slot.locking g t dropping).inScope scope = scope.covers g.modelIndex := rfl
  have after : next.inScope scope = false := by
    rw [Slot.inScope, closed]
    rfl
  rw [before, after] at moved
  cases covered : scope.covers g.modelIndex <;> simpa [covered] using moved

theorem openIn_held (guards : List Slot) {g : RequestUsageGuard} (fresh : g.terminal = false) (scope : Scope) :
    openIn scope (guards ++ [.held g]) = openIn scope guards + if scope.covers g.modelIndex then 1 else 0 := by
  simp [openIn, List.countP_append, List.countP_cons, Slot.inScope, Slot.openModel, fresh]

theorem marked_set {guards : List Slot} {guard : Nat} {next : Slot} (marked : ∀ slot ∈ guards, slot.Marked)
    (here : next.Marked) : ∀ slot ∈ guards.set guard next, slot.Marked := by
  intro slot inside
  obtain old | rfl := List.mem_or_eq_of_mem_set inside
  · exact marked slot old
  · exact here

theorem settled_set {u : Tracker} {guard other : Nat} {slot next : Slot} (there : u.guards[guard]? = some slot)
    (summary : UsageSummary) :
    settled ⟨summary, u.guards.set guard next⟩ other = if guard = other then !next.isOpen else u.settled other := by
  by_cases same : guard = other
  · subst same
    obtain ⟨bound, -⟩ := List.getElem?_eq_some_iff.1 there
    simp [settled, bound]
  · simp [settled, same]

theorem new_conserved (since : Str) : (new since).Conserved [] where
  marked := List.forall_mem_nil _
  tallies := by
    intro scope
    cases scope with
    | none => exact Counters.default_tallies
    | some model => simpa [State.counters, new, UsageSummary.new, within] using Counters.default_tallies
  inFlight := by
    intro scope
    cases scope with
    | none => rfl
    | some model => simp [State.counters, new, UsageSummary.new, Counters.default, openIn]
  balance := fun _ => rfl
  once := fun _ => rfl

theorem Conserved.puts {u : Tracker} {history : List Counted} {guard : Nat} {slot next : Slot}
    (conserved : u.Conserved history) (there : u.guards[guard]? = some slot)
    (same : next.openModel = slot.openModel) (marked : next.Marked) : (u.put guard next).Conserved history := by
  have still := openIn_same there same
  refine ⟨marked_set conserved.marked marked, conserved.tallies, ?_, ?_, ?_⟩
  · intro scope
    exact (conserved.inFlight scope).trans (still scope).symm
  · intro scope
    rw [put, still]
    exact conserved.balance scope
  · intro other
    rw [conserved.once, put, settled_set there]
    by_cases here : guard = other
    · subst here
      simp [settled, there, Slot.isOpen, same]
    · simp [here]

theorem tallies_move {s : State} {history : List Counted} {o : Counted} {f : Counters → Counters}
    (tallies : ∀ scope, (s.counters scope).Tallies (within scope history))
    (grows : ∀ scope : Scope, scope.covers o.model = true →
      (f (s.counters scope)).Tallies (within scope history ++ [o])) (scope : Scope) :
    ((s.move o.model f).counters scope).Tallies (within scope (history ++ [o])) := by
  rw [State.counters_move, within_concat]
  cases covered : scope.covers o.model with
  | true => exact grows scope covered
  | false => simpa using tallies scope

theorem total_within_concat (weight : Counted → Nat) (scope : Scope) (history : List Counted) (last : Counted) :
    total weight (within scope (history ++ [last])) =
      total weight (within scope history) + if scope.covers last.model then weight last else 0 := by
  rw [within_concat]
  split <;> simp

/-- No counter saturates in a step. -/
def Exact (u : Tracker) (action : Action) : Prop :=
  ∀ o ∈ (u.step action).2, ∀ scope : Scope, scope.covers o.model = true → (u.summary.state.counters scope).Fits o

theorem Conserved.inFlight_le {u : Tracker} {history : List Counted} (conserved : u.Conserved history) (scope : Scope) :
    (u.summary.state.counters scope).requests.inFlight ≤ (u.summary.state.counters scope).requests.started := by
  have started := (conserved.tallies scope).sums .started
  have balance := conserved.balance scope
  have inFlight := conserved.inFlight scope
  simp only [Counters.get] at started
  omega

theorem settled_concat (u : Tracker) {g : RequestUsageGuard} (fresh : g.terminal = false) {summary : UsageSummary}
    (other : Nat) : settled ⟨summary, u.guards ++ [.held g]⟩ other = u.settled other := by
  simp only [settled]
  obtain inside | rfl | beyond := Nat.lt_trichotomy other u.guards.length
  · rw [List.getElem?_append_left inside]
  · simp [Slot.isOpen, Slot.openModel, fresh]
  · have longer : (u.guards ++ [Slot.held g]).length ≤ other := by
      rw [List.length_append]
      exact beyond
    rw [List.getElem?_eq_none longer, List.getElem?_eq_none (Nat.le_of_lt beyond)]

theorem ended_terminal (guard : Nat) (model : ModelIndex) (t : Transition) : ended (.terminal guard model t) = 1 := by
  unfold ended
  cases outcome : t.outcome <;> simp [Counter.adds, Counter.addsOutcome, outcome]

theorem Conserved.begins {u : Tracker} {history : List Counted} (conserved : u.Conserved history) (g : RequestUsageGuard)
    (fresh : g.terminal = false)
    (fits : ∀ scope : Scope, scope.covers g.modelIndex = true →
      (u.summary.state.counters scope).Fits (.begun u.guards.length g.modelIndex)) :
    Conserved
      { summary := { u.summary with state := u.summary.state.begin g.modelIndex }
        guards := u.guards ++ [.held g] }
      (history ++ [.begun u.guards.length g.modelIndex]) := by
  have opens := openIn_held u.guards fresh
  refine ⟨?_, ?_, ?_, ?_, ?_⟩
  · exact List.forall_mem_append.2 ⟨conserved.marked, List.forall_mem_singleton.2 trivial⟩
  · exact tallies_move (o := .begun u.guards.length g.modelIndex) conserved.tallies fun scope covered =>
      (conserved.tallies scope).begin (fits scope covered)
  · intro scope
    have moved := State.counters_move u.summary.state g.modelIndex Counters.begin scope
    have below := conserved.inFlight_le scope
    rw [opens, ← conserved.inFlight]
    simp only [State.move] at moved
    simp only [State.begin, moved]
    by_cases covered : scope.covers g.modelIndex = true
    · have room : _ + 1 ≤ u64Max := fits scope covered .started
      simp only [covered, if_true, Counters.begin]
      exact saturatingAdd_fits (Nat.le_trans (Nat.add_le_add_right below 1) room)
    · simp [covered]
  · intro scope
    have balance := conserved.balance scope
    rw [opens, total_within_concat, total_within_concat, balance]
    cases covered : scope.covers g.modelIndex <;> simp [Counted.model, Counter.adds, ended, covered]
    omega
  · intro other
    rw [List.countP_append, conserved.once, settled_concat u fresh]
    rfl

theorem Conserved.locks {u : Tracker} {history : List Counted} {guard : Nat} {g : RequestUsageGuard} {t : Transition}
    {dropping : Bool} {next : Slot} (conserved : u.Conserved history)
    (there : u.guards[guard]? = some (.locking g t dropping)) (closed : next.openModel = none) (unlocked : next.Marked)
    (fits : ∀ scope : Scope, scope.covers g.modelIndex = true →
      (u.summary.state.counters scope).Fits (.terminal guard g.modelIndex t)) :
    Conserved
      { summary := { u.summary with state := u.summary.state.terminal g.modelIndex t }
        guards := u.guards.set guard next }
      (history ++ [.terminal guard g.modelIndex t]) := by
  have opens := openIn_closed there closed
  refine ⟨marked_set conserved.marked unlocked, ?_, ?_, ?_, ?_⟩
  · exact tallies_move (o := .terminal guard g.modelIndex t)
      (f := fun c => c.terminal t.outcome t.usage t.durationMs t.retries) conserved.tallies fun scope covered =>
      (conserved.tallies scope).terminal (fits scope covered)
  · intro scope
    have moved := State.counters_move u.summary.state g.modelIndex
      (fun c => c.terminal t.outcome t.usage t.durationMs t.retries) scope
    have left := opens scope
    rw [← conserved.inFlight] at left
    simp only [State.move] at moved
    simp only [State.terminal, moved]
    cases covered : scope.covers g.modelIndex with
    | true =>
      simp only [covered, if_true, Counters.terminal_inFlight] at left ⊢
      omega
    | false =>
      simp only [covered] at left ⊢
      exact left.symm
  · intro scope
    have balance := conserved.balance scope
    have left := opens scope
    rw [total_within_concat, total_within_concat, balance, ← left]
    cases covered : scope.covers g.modelIndex with
    | true =>
      have one := ended_terminal guard g.modelIndex t
      simp only [Counted.model, covered, if_true, one]
      simp only [Counter.adds, Counter.addsOutcome]
      omega
    | false => simp [Counted.model, covered]
  · intro other
    rw [List.countP_append, conserved.once, settled_set there]
    by_cases same : guard = other
    · subst same
      have open_ : (Slot.locking g t dropping).openModel = some g.modelIndex := rfl
      simp [settled, there, Slot.isOpen, open_, closed, Counted.ends]
    · simp [same, Counted.ends, Ne.symm same]

theorem step_conserved {u : Tracker} {history : List Counted} {action : Action} (conserved : u.Conserved history)
    (exact : u.Exact action) : (u.step action).1.Conserved (history ++ (u.step action).2) := by
  have stepped := u.step_stepped conserved.marked action
  unfold Exact at exact
  generalize u.step action = moved at stepped exact ⊢
  obtain ⟨after, out⟩ := moved
  cases stepped with
  | still => simpa using conserved
  | puts there same marked =>
    rw [List.append_nil]
    exact conserved.puts there same marked
  | begins model => exact conserved.begins (.new model) rfl (exact _ (List.mem_singleton_self _))
  | locks there closed unlocked => exact conserved.locks there closed unlocked (exact _ (List.mem_singleton_self _))

theorem run_conserved {u : Tracker} {history : List Counted} {actions : List Action} (conserved : u.Conserved history)
    (exact : ∀ visit ∈ visits step u actions, visit.1.Exact visit.2) :
    (runAll step u actions).1.Conserved (history ++ (runAll step u actions).2) := by
  induction actions generalizing u history with
  | nil => simpa using conserved
  | cons action rest ih =>
    obtain ⟨now, later⟩ := List.forall_mem_cons.1 exact
    have moved := ih (step_conserved conserved now) later
    rwa [List.append_assoc] at moved

end Tracker

structure UsageTotals.Balanced (totals : UsageTotals) : Prop where
  requests : totals.requests.started =
    totals.requests.completed + totals.requests.failed + totals.requests.cancelled + totals.requests.inFlight
  errors : (totals.errors.map ErrorCount.count).sum = totals.requests.failed + totals.requests.cancelled

theorem Counters.report_get (c : Counters) (counter : Counter) : c.report.get counter = c.get counter := by
  cases counter with
  | error kind =>
    have kept : ∀ other ∈ UsageErrorKind.all,
        (if c.errors[other.index] > 0 then some (ErrorCount.mk other c.errors[other.index]) else none).elim 0
          (fun count => if kind = count.kind then count.count else 0) =
        if kind = other then c.errors[kind.index] else 0 := by
      intro other _
      by_cases same : kind = other
      · subst same
        split
        next => simp
        next none => simp [Nat.eq_zero_of_not_pos none]
      · split <;> simp [same]
    simp only [UsageTotals.get, report, total_filterMap]
    rw [total_congr kept, total_single _ UsageErrorKind.all_nodup kind.mem_all]
    rfl
  | _ => rfl

theorem total_errors (history : List Counted) :
    total (fun kind => total (Counter.error kind).adds history) UsageErrorKind.all =
      total Counter.failed.adds history + total Counter.cancelled.adds history := by
  rw [total_comm, ← total_add]
  refine total_congr fun o _ => ?_
  cases o with
  | begun => rfl
  | terminal guard model t =>
    cases outcome : t.outcome with
    | completed => simp [Counter.adds, Counter.addsOutcome, outcome, Outcome.errorKind, total_eq_zero]
    | failed kind =>
      simp only [Counter.adds, Counter.addsOutcome, outcome, Outcome.errorKind, Option.some.injEq]
      exact total_single 1 UsageErrorKind.all_nodup kind.mem_all
    | cancelled =>
      simp only [Counter.adds, Counter.addsOutcome, outcome, Outcome.errorKind, Option.some.injEq]
      exact total_single 1 UsageErrorKind.all_nodup (UsageErrorKind.mem_all .cancelled)

theorem Counters.report_errors (c : Counters) :
    (c.report.errors.map ErrorCount.count).sum = total (fun kind => c.get (.error kind)) UsageErrorKind.all := by
  change total ErrorCount.count c.report.errors = _
  simp only [report, total_filterMap]
  refine total_congr fun kind _ => ?_
  simp only [get]
  split
  next => rfl
  next none => exact (Nat.eq_zero_of_not_pos none).symm

namespace Tracker

variable {u : Tracker} {history : List Counted}

theorem Conserved.balanced (conserved : u.Conserved history) (scope : Scope) :
    (u.summary.state.counters scope).report.Balanced where
  requests := by
    have sums := (conserved.tallies scope).sums
    have started := sums .started
    have completed := sums .completed
    have failed := sums .failed
    have cancelled := sums .cancelled
    have balance := conserved.balance scope
    have inFlight := conserved.inFlight scope
    simp only [Counters.get] at started completed failed cancelled
    unfold ended at balance
    rw [total_add, total_add] at balance
    simp only [Counters.report]
    omega
  errors := by
    have sums := (conserved.tallies scope).sums
    rw [Counters.report_errors, total_congr fun kind _ => sums (.error kind), total_errors, ← sums, ← sums]
    rfl

theorem Conserved.idle (conserved : u.Conserved history) {scope : Scope}
    (idle : (u.summary.state.counters scope).requests.started = 0) : within scope history = [] := by
  have started := (conserved.tallies scope).sums .started
  have balance := conserved.balance scope
  simp only [Counters.get, idle] at started
  rw [← started] at balance
  have none : total ended (within scope history) = 0 := by omega
  rw [List.eq_nil_iff_forall_not_mem]
  intro o inside
  have begun := total_eq_zero.1 started.symm o inside
  have closed := total_eq_zero.1 none o inside
  cases o with
  | begun => cases begun
  | terminal guard model t =>
    rw [ended_terminal] at closed
    cases closed

theorem Conserved.default (conserved : u.Conserved history) {scope : Scope}
    (idle : (u.summary.state.counters scope).requests.started = 0) :
    (∀ counter, (u.summary.state.counters scope).get counter = 0) ∧
      (u.summary.state.counters scope).requests.inFlight = 0 ∧
      (u.summary.state.counters scope).durationMs.max = 0 := by
  have tallies := conserved.tallies scope
  rw [conserved.idle idle] at tallies
  exact ⟨tallies.sums, Nat.le_zero.1 (idle ▸ conserved.inFlight_le scope), tallies.peak⟩

end Tracker

theorem zip_counters (u : UsageSummary) :
    (u.state.models.toList.zip Catalog.models).map Prod.fst =
      (List.finRange Catalog.models.length).map fun model => u.state.counters (some model) := by
  rw [List.map_fst_zip (by simp)]
  apply List.ext_getElem <;> simp [State.counters]

theorem mem_zip {u : UsageSummary} {entry : Counters × Catalog.ModelInfo}
    (inside : entry ∈ u.state.models.toList.zip Catalog.models) :
    ∃ model, u.state.counters (some model) = entry.1 := by
  have first := List.mem_map_of_mem (f := Prod.fst) inside
  rw [zip_counters] at first
  obtain ⟨model, -, same⟩ := List.mem_map.1 first
  exact ⟨model, same⟩

theorem kept_report {u : UsageSummary} {f : UsageTotals → Nat}
    (idle : ∀ model, (u.state.counters (some model)).requests.started = 0 →
      f (u.state.counters (some model)).report = 0)
    {entry : Counters × Catalog.ModelInfo} (inside : entry ∈ u.state.models.toList.zip Catalog.models) :
    (if entry.1.requests.started > 0 then some (ModelUsageReport.mk entry.2.id entry.1.report) else none).elim 0
      (fun model => f model.totals) = f entry.1.report := by
  obtain ⟨model, same⟩ := mem_zip inside
  rw [← same]
  split
  next => rfl
  next none => exact (idle model (Nat.eq_zero_of_not_pos none)).symm

theorem UsageSummary.snapshot_total {u : UsageSummary} {f : UsageTotals → Nat}
    (idle : ∀ model, (u.state.counters (some model)).requests.started = 0 →
      f (u.state.counters (some model)).report = 0) :
    (u.snapshot.models.map fun model => f model.totals).sum =
      total (fun model => f (u.state.counters (some model)).report) (List.finRange Catalog.models.length) := by
  calc total (fun model : ModelUsageReport => f model.totals) u.snapshot.models
      = total (fun entry => f entry.1.report) (u.state.models.toList.zip Catalog.models) := by
        rw [snapshot_models, total_filterMap]
        exact total_congr fun entry inside => kept_report idle inside
    _ = total (fun model => f (u.state.counters (some model)).report) (List.finRange Catalog.models.length) := by
        rw [← total_map (fun c : Counters => f c.report) Prod.fst, zip_counters, total_map]

theorem UsageSummary.snapshot_peak {u : UsageSummary} {f : UsageTotals → Nat}
    (idle : ∀ model, (u.state.counters (some model)).requests.started = 0 →
      f (u.state.counters (some model)).report = 0) :
    (u.snapshot.models.map fun model => f model.totals).foldr max 0 =
      peak (fun model => f (u.state.counters (some model)).report) (List.finRange Catalog.models.length) := by
  calc peak (fun model : ModelUsageReport => f model.totals) u.snapshot.models
      = peak (fun entry => f entry.1.report) (u.state.models.toList.zip Catalog.models) := by
        rw [snapshot_models, peak_filterMap]
        exact peak_congr fun entry inside => kept_report idle inside
    _ = peak (fun model => f (u.state.counters (some model)).report) (List.finRange Catalog.models.length) := by
        rw [← peak_map (fun c : Counters => f c.report) Prod.fst, zip_counters, peak_map]

theorem mem_reported {u : UsageSummary} {report : ModelUsageReport} (inside : report ∈ u.snapshot.models) :
    ∃ model, report.totals = (u.state.counters (some model)).report := by
  rw [UsageSummary.snapshot_models, List.mem_filterMap] at inside
  obtain ⟨entry, entered, kept⟩ := inside
  obtain ⟨model, same⟩ := mem_zip entered
  simp only at kept
  split at kept
  next =>
    cases kept
    exact ⟨model, by rw [same]⟩
  next => cases kept

/-- What the counters of a snapshot have to do with each other. -/
structure UsageReport.Conserves (report : UsageReport) : Prop where
  balanced : report.totals.Balanced
  models : ∀ model ∈ report.models, model.totals.Balanced
  sums : ∀ counter, report.totals.get counter = (report.models.map fun model => model.totals.get counter).sum
  inFlight : report.totals.requests.inFlight = (report.models.map fun model => model.totals.requests.inFlight).sum
  peak : report.totals.durationMs.max = (report.models.map fun model => model.totals.durationMs.max).foldr max 0

theorem mem_finRange_models (o : Counted) : o.model ∈ List.finRange Catalog.models.length := List.mem_finRange _

theorem within_none (history : List Counted) : within none history = history := List.filter_eq_self.2 fun _ _ => rfl

theorem within_some (model : ModelIndex) (history : List Counted) :
    within (some model) history = ofClass Counted.model model history := rfl

namespace Tracker

variable {u : Tracker} {history : List Counted}

theorem Conserved.get_models (conserved : u.Conserved history) (counter : Counter) :
    (u.summary.snapshot.models.map fun model => model.totals.get counter).sum = total counter.adds history := by
  rw [UsageSummary.snapshot_total (f := (·.get counter)) fun model idle =>
    ((u.summary.state.counters (some model)).report_get counter).trans ((conserved.default idle).1 counter)]
  have shares : ∀ model ∈ List.finRange Catalog.models.length,
      (u.summary.state.counters (some model)).report.get counter =
        total counter.adds (ofClass Counted.model model history) := by
    intro model _
    rw [Counters.report_get, (conserved.tallies _).sums, within_some]
  rw [total_congr shares]
  exact total_classes Counted.model counter.adds (List.nodup_finRange _) fun o _ => mem_finRange_models o

theorem Conserved.get_totals (conserved : u.Conserved history) (counter : Counter) :
    u.summary.snapshot.totals.get counter = total counter.adds history := by
  have tallies := (conserved.tallies none).sums counter
  rw [within_none] at tallies
  exact (u.summary.state.total.report_get counter).trans tallies

theorem Conserved.reported_balanced (conserved : u.Conserved history) :
    ∀ model ∈ u.summary.snapshot.models, model.totals.Balanced := by
  intro report inside
  obtain ⟨model, same⟩ := mem_reported inside
  rw [same]
  exact conserved.balanced (some model)

theorem Conserved.inFlight_models (conserved : u.Conserved history) :
    u.summary.snapshot.totals.requests.inFlight =
      total (fun model => model.totals.requests.inFlight) u.summary.snapshot.models := by
  have sum (counter : Counter) : total (fun model => model.totals.get counter) u.summary.snapshot.models =
      u.summary.snapshot.totals.get counter := (conserved.get_models counter).trans (conserved.get_totals counter).symm
  have started := sum .started
  have completed := sum .completed
  have failed := sum .failed
  have cancelled := sum .cancelled
  have parts := total_congr fun model inside => (conserved.reported_balanced model inside).requests
  have balanced : u.summary.snapshot.totals.Balanced := conserved.balanced none
  have whole := balanced.requests
  rw [total_add, total_add, total_add] at parts
  simp only [UsageTotals.get] at started completed failed cancelled
  omega

theorem Conserved.conserves (conserved : u.Conserved history) : u.summary.snapshot.Conserves where
  balanced := conserved.balanced none
  models := conserved.reported_balanced
  sums := fun counter => (conserved.get_totals counter).trans (conserved.get_models counter).symm
  inFlight := conserved.inFlight_models
  peak := by
    rw [UsageSummary.snapshot_peak (f := (·.durationMs.max)) fun model idle => (conserved.default idle).2.2]
    have whole := (conserved.tallies none).peak
    rw [within_none] at whole
    have shares : ∀ model ∈ List.finRange Catalog.models.length,
        (u.summary.state.counters (some model)).report.durationMs.max =
          peak Counted.durationMs (ofClass Counted.model model history) := by
      intro model _
      exact (conserved.tallies (some model)).peak
    rw [peak_congr shares, peak_classes Counted.model Counted.durationMs fun o _ => mem_finRange_models o]
    exact whole

end Tracker

/-- As long as no counter saturates, a snapshot of any run conserves the requests. -/
theorem usage_conserves_requests (since : Str) (actions : List Action)
    (exact : ∀ visit ∈ visits Tracker.step (.new since) actions, visit.1.Exact visit.2) :
    let run := runAll Tracker.step (.new since) actions
    let report := run.1.summary.snapshot
    report.Conserves ∧ (∀ counter, report.totals.get counter = (run.2.map counter.adds).sum) ∧
      (∀ guard slot, run.1.guards[guard]? = some slot →
        run.2.countP (Counted.ends guard) = if slot.isOpen then 0 else 1) ∧
      report.totals.requests.inFlight = run.1.guards.countP Slot.isOpen := by
  intro run report
  have conserved : run.1.Conserved run.2 := Tracker.run_conserved (Tracker.new_conserved since) exact
  refine ⟨conserved.conserves, conserved.get_totals, ?_, ?_⟩
  · intro guard slot there
    rw [conserved.once, Tracker.settled, there]
    cases open_ : slot.isOpen <;> simp [open_]
  · have scopes : Slot.inScope none = Slot.isOpen := funext Slot.inScope_none
    exact (conserved.inFlight none).trans (by rw [Tracker.openIn, scopes])

def Counter.all : List Counter := [
  .started, .completed, .failed, .cancelled, .reportedInput, .reportedOutput, .cacheRead, .cacheWrite,
  .estimatedInput, .estimatedOutput, .duration, .retries] ++ UsageErrorKind.all.map .error

theorem Counter.mem_all (counter : Counter) : counter ∈ all := by
  cases counter with
  | error kind => exact List.mem_append_right _ (List.mem_map_of_mem kind.mem_all)
  | _ => simp [all]

instance (c : Counters) (o : Counted) : Decidable (c.Fits o) :=
  decidable_of_iff (∀ counter ∈ Counter.all, c.get counter + counter.adds o ≤ u64Max)
    ⟨fun fits counter => fits counter counter.mem_all, fun fits counter _ => fits counter⟩

instance (u : Tracker) (action : Action) : Decidable (u.Exact action) :=
  inferInstanceAs (Decidable (∀ o ∈ (u.step action).2, ∀ scope : Scope, scope.covers o.model = true →
    (u.summary.state.counters scope).Fits o))

def sampleActions : List Action :=
  let sonnet : ModelKey := .route ⟨5, by decide⟩ true
  let haiku : ModelKey := .route ⟨8, by decide⟩ false
  [.begin sonnet, .record 0 3, .begin haiku, .update 0 ⟨⟨7, 5, 0, 1⟩, ⟨0, 0⟩⟩ 64, .fail 0 .transport 20, .complete 0 21,
    .lock 0, .fail 0 .protocol 22, .drop 1 9, .lock 1, .drop 0 30]

theorem usage_conserves_requests_sample :
    let run := runAll Tracker.step (.new []) sampleActions
    let report := run.1.summary.snapshot
    report.totals.requests.started = 2 ∧ report.totals.retries = 2 ∧ report.Conserves := by
  have exact : ∀ visit ∈ visits Tracker.step (.new []) sampleActions, visit.1.Exact visit.2 := by decide +kernel
  have conserves := (usage_conserves_requests [] sampleActions exact).1
  exact ⟨by decide +kernel, by decide +kernel, conserves⟩

end KiroTrust.Server.Tracking
