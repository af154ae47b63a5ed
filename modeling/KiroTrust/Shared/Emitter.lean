import Mathlib.Data.List.Basic

set_option autoImplicit false

namespace Emitter

variable {S O X : Type}

/-! State changes that hand out outputs in order. -/

def seq (first second : S → S × List O) (state : S) : S × List O :=
  let before := first state
  let after := second before.1
  (after.1, before.2 ++ after.2)

def quiet (change : S → S) (state : S) : S × List O := (change state, [])

def runAll (step : S → X → S × List O) : S → List X → S × List O
  | state, [] => (state, [])
  | state, input :: rest =>
    let first := step state input
    let later := runAll step first.1 rest
    (later.1, first.2 ++ later.2)

@[simp] theorem runAll_nil (step : S → X → S × List O) (state : S) :
    runAll step state [] = (state, []) := rfl

theorem runAll_cons (step : S → X → S × List O) (state : S) (input : X) (rest : List X) :
    runAll step state (input :: rest) =
      ((runAll step (step state input).1 rest).1,
        (step state input).2 ++ (runAll step (step state input).1 rest).2) := rfl

theorem runAll_append (step : S → X → S × List O) (state : S) (left right : List X) :
    runAll step state (left ++ right) =
      ((runAll step (runAll step state left).1 right).1,
        (runAll step state left).2 ++ (runAll step (runAll step state left).1 right).2) := by
  induction left generalizing state with
  | nil => rfl
  | cons input rest ih => simp [runAll_cons, ih]

/-- Pre- and postcondition of a change, over the state and everything handed out so far. -/
def Triple (Before : S → List O → Prop) (change : S → S × List O) (After : S → List O → Prop) : Prop :=
  ∀ state out, Before state out → After (change state).1 (out ++ (change state).2)

theorem Triple.seq {Before Between After : S → List O → Prop} {first second : S → S × List O}
    (front : Triple Before first Between) (back : Triple Between second After) :
    Triple Before (Emitter.seq first second) After := by
  intro state out holds
  have next := back _ _ (front state out holds)
  simpa only [Emitter.seq, List.append_assoc] using next

theorem Triple.quiet {Before After : S → List O → Prop} {change : S → S}
    (leads : ∀ state out, Before state out → After (change state) out) :
    Triple Before (Emitter.quiet change) After := by
  intro state out holds
  simpa [Emitter.quiet] using leads state out holds

abbrev Preserves (Inv : S → List O → Prop) (change : S → S × List O) : Prop := Triple Inv change Inv

theorem Preserves.runAllOf {Inv : S → List O → Prop} {step : S → X → S × List O} {inputs : List X}
    (keeps : ∀ input ∈ inputs, Preserves Inv (fun state => step state input)) :
    Preserves Inv (fun state => Emitter.runAll step state inputs) := by
  induction inputs with
  | nil => intro state out holds; simpa using holds
  | cons input rest ih =>
    intro state out holds
    have later := ih fun input inside => keeps input (List.mem_cons_of_mem _ inside)
    have next := later _ _ (keeps input (List.mem_cons_self ..) state out holds)
    simpa only [runAll_cons, List.append_assoc] using next

theorem Preserves.runAll {Inv : S → List O → Prop} {step : S → X → S × List O}
    (keeps : ∀ input, Preserves Inv (fun state => step state input)) (inputs : List X) :
    Preserves Inv (fun state => Emitter.runAll step state inputs) :=
  Preserves.runAllOf fun input _ => keeps input

structure Moment (S O : Type) where
  before : S
  after : S
  out : List O

def all : List (S → S × List O) → S → S × List O
  | [], state => (state, [])
  | change :: rest, state => seq change (all rest) state

def trail : List (S → S × List O) → S → List (Moment S O)
  | [], _ => []
  | change :: rest, state =>
    ⟨state, (change state).1, (change state).2⟩ :: trail rest (change state).1

/-- The moments lead from one state to another and hand out these outputs. -/
inductive Splits : S → List (Moment S O) → S → List O → Prop where
  | done (state : S) : Splits state [] state []
  | next (moment : Moment S O) {rest : List (Moment S O)} {last : S} {out : List O}
      (later : Splits moment.after rest last out) :
      Splits moment.before (moment :: rest) last (moment.out ++ out)

theorem trail_splits (changes : List (S → S × List O)) (state : S) :
    Splits state (trail changes state) (all changes state).1 (all changes state).2 := by
  induction changes generalizing state with
  | nil => exact .done state
  | cons change rest ih => exact .next ⟨state, _, _⟩ (ih (change state).1)

theorem Splits.append {first middle last : S} {front back : List (Moment S O)} {out later : List O}
    (splits : Splits first front middle out) (continues : Splits middle back last later) :
    Splits first (front ++ back) last (out ++ later) := by
  induction splits with
  | done state => exact continues
  | next moment _ ih =>
    rw [List.cons_append, List.append_assoc]
    exact .next moment (ih continues)

def visits (step : S → X → S × List O) : S → List X → List (S × X)
  | _, [] => []
  | state, input :: rest => (state, input) :: visits step (step state input).1 rest

theorem visits_append (step : S → X → S × List O) (state : S) (left right : List X) :
    visits step state (left ++ right) =
      visits step state left ++ visits step (runAll step state left).1 right := by
  induction left generalizing state with
  | nil => rfl
  | cons input rest ih => simp [visits, runAll_cons, ih]

theorem mem_visits {step : S → X → S × List O} {state : S} {inputs : List X} {visit : S × X}
    (visited : visit ∈ visits step state inputs) :
    ∃ before after, inputs = before ++ visit.2 :: after ∧ visit.1 = (runAll step state before).1 := by
  induction inputs generalizing state with
  | nil => cases visited
  | cons input rest ih =>
    rcases List.mem_cons.1 visited with rfl | later
    · exact ⟨[], rest, rfl, rfl⟩
    · obtain ⟨before, after, rfl, reached⟩ := ih later
      exact ⟨input :: before, after, rfl, reached⟩

def runMoments (step : S → X → S × List O) (moments : S → X → List (Moment S O)) :
    S → List X → List (Moment S O)
  | _, [] => []
  | state, input :: rest => moments state input ++ runMoments step moments (step state input).1 rest

theorem runMoments_splits {step : S → X → S × List O} {moments : S → X → List (Moment S O)}
    (splits : ∀ state input, Splits state (moments state input) (step state input).1 (step state input).2)
    (state : S) (inputs : List X) :
    Splits state (runMoments step moments state inputs) (runAll step state inputs).1
      (runAll step state inputs).2 := by
  induction inputs generalizing state with
  | nil => exact .done state
  | cons input rest ih => exact (splits state input).append (ih (step state input).1)

theorem runMoments_iff {step : S → X → S × List O} {moments : S → X → List (Moment S O)}
    {Inv : S → Prop} {Good : Moment S O → Prop} {Condition : S → X → Prop}
    (keeps : ∀ state input, Inv state → Inv (step state input).1)
    (exactly : ∀ state input, Inv state → ((∀ moment ∈ moments state input, Good moment) ↔ Condition state input))
    (state : S) (inputs : List X) (holds : Inv state) :
    (∀ moment ∈ runMoments step moments state inputs, Good moment) ↔
      ∀ visit ∈ visits step state inputs, Condition visit.1 visit.2 := by
  induction inputs generalizing state with
  | nil => simp [runMoments, visits]
  | cons input rest ih =>
    have now := exactly state input holds
    have later := ih (step state input).1 (keeps state input holds)
    simp only [runMoments, visits, List.forall_mem_append, List.forall_mem_cons, now, later]

end Emitter
