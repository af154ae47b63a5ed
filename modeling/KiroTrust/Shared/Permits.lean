import KiroTrust.Shared.Emitter
import Mathlib.Data.List.Basic

set_option autoImplicit false

namespace Permits

open Emitter

/-! A counting semaphore, and clients that take turns: one permit each, and nothing else in common. -/

variable {C X O : Type}

/-- Whether a client holds a permit, and its turn, which is told whether a permit is free. -/
structure Clients (C X O : Type) where
  holds : C → Bool
  turn : Bool → C → X → C × List O

structure Pool (C : Type) where
  available : Nat
  clients : List C

inductive Event (C X : Type) where
  | join (c : C)
  | turn (index : Nat) (input : X)

namespace Pool

def free (p : Pool C) : Bool := decide (0 < p.available)

variable (m : Clients C X O)

def held (p : Pool C) : Nat := p.clients.countP m.holds

/-- No permit is lost, and none is made up. -/
def Full (capacity : Nat) (p : Pool C) : Prop := p.available + p.held m = capacity

def put (p : Pool C) (index : Nat) (before after : C) : Pool C where
  available := p.available + (m.holds before).toNat - (m.holds after).toNat
  clients := p.clients.set index after

def step (p : Pool C) : Event C X → Pool C × List (Nat × O)
  | .join c => ({ p with clients := p.clients ++ [c] }, [])
  | .turn index input =>
    match p.clients[index]? with
    | some c =>
      let moved := m.turn p.free c input
      (p.put m index c moved.1, moved.2.map (Prod.mk index))
    | none => (p, [])

end Pool

/-- Nobody takes a permit that is not there, and nobody brings one along. -/
structure Honest (m : Clients C X O) (first : C → Prop) : Prop where
  turn : ∀ free c input, m.holds (m.turn free c input).1 = true → m.holds c = true ∨ free = true
  join : ∀ c, first c → m.holds c = false

def Event.Allowed (first : C → Prop) : Event C X → Prop
  | .join c => first c
  | .turn _ _ => True

namespace Pool

variable {m : Clients C X O} {p : Pool C} {capacity : Nat}

theorem Full.held_le (full : p.Full m capacity) : p.held m ≤ capacity := by
  unfold Full at full
  omega

theorem Full.spent (full : p.Full m capacity) : p.free = false ↔ p.held m = capacity := by
  unfold Full at full
  simp only [free, decide_eq_false_iff_not]
  omega

theorem Full.idle (full : p.Full m capacity) (idle : ∀ c ∈ p.clients, m.holds c = false) : p.available = capacity := by
  have none : p.held m = 0 := List.countP_eq_zero.2 fun c inside => by simp [idle c inside]
  unfold Full at full
  omega

theorem Full.count_le (full : p.Full m capacity) {busy : C → Bool}
    (holding : ∀ c ∈ p.clients, busy c = true → m.holds c = true) : p.clients.countP busy ≤ capacity :=
  Nat.le_trans (List.countP_mono_left holding) full.held_le

theorem put_full {index : Nat} {before after : C} (full : p.Full m capacity) (there : p.clients[index]? = some before)
    (honest : m.holds after = true → m.holds before = true ∨ p.free = true) :
    (p.put m index before after).Full m capacity := by
  obtain ⟨inside, found⟩ := List.getElem?_eq_some_iff.1 there
  have counted : (p.clients.set index after).countP m.holds =
      p.clients.countP m.holds - (m.holds before).toNat + (m.holds after).toNat := by
    rw [List.countP_set inside, found]
    cases m.holds before <;> cases m.holds after <;> rfl
  have among : m.holds before = true → 0 < p.clients.countP m.holds := fun held =>
    List.countP_pos_iff.2 ⟨before, List.mem_of_getElem? there, held⟩
  unfold Full held at full ⊢
  simp only [put, counted]
  simp only [free, decide_eq_true_eq] at honest
  cases here : m.holds before with
  | true =>
    have one := among here
    cases m.holds after <;> simp only [Bool.toNat_true, Bool.toNat_false] <;> omega
  | false =>
    cases later : m.holds after with
    | true =>
      have positive : 0 < p.available := (honest later).resolve_left (by simp [here])
      simp only [Bool.toNat_true, Bool.toNat_false]
      omega
    | false =>
      simp only [Bool.toNat_false]
      omega

theorem step_full {first : C → Prop} {e : Event C X} (honest : Honest m first) (full : p.Full m capacity)
    (allowed : e.Allowed first) : (p.step m e).1.Full m capacity := by
  cases e with
  | join c =>
    have none := honest.join c allowed
    simpa [Full, held, step, none] using full
  | turn index input =>
    simp only [step]
    split
    next c there => exact put_full full there fun held => honest.turn _ c input held
    next => exact full

theorem run_full {first : C → Prop} (honest : Honest m first) (full : p.Full m capacity) {events : List (Event C X)}
    (allowed : ∀ e ∈ events, e.Allowed first) : (runAll (step m) p events).1.Full m capacity := by
  induction events generalizing p with
  | nil => exact full
  | cons e rest ih =>
    obtain ⟨here, later⟩ := List.forall_mem_cons.1 allowed
    exact ih (step_full honest full here) later

theorem step_clients {Inv first : C → Prop} (starts : ∀ c, first c → Inv c)
    (keeps : ∀ free c input, Inv c → Inv (m.turn free c input).1) (all : ∀ c ∈ p.clients, Inv c)
    {e : Event C X} (allowed : e.Allowed first) : ∀ c ∈ (p.step m e).1.clients, Inv c := by
  cases e with
  | join c => exact List.forall_mem_append.2 ⟨all, List.forall_mem_singleton.2 (starts c allowed)⟩
  | turn index input =>
    simp only [step]
    split
    next c there =>
      intro other inside
      obtain old | rfl := List.mem_or_eq_of_mem_set inside
      · exact all other old
      · exact keeps _ c input (all c (List.mem_of_getElem? there))
    next => exact all

def turnOf (index : Nat) (visit : Pool C × Event C X) : Option (Bool × X) :=
  match visit.2 with
  | .turn other input => if other = index then some (visit.1.free, input) else none
  | .join _ => none

variable (m) in
def turnsOf (index : Nat) (p : Pool C) (events : List (Event C X)) : List (Bool × X) :=
  (visits (step m) p events).filterMap (turnOf index)

def shownBy (index : Nat) (out : List (Nat × O)) : List O :=
  out.filterMap fun shown => if shown.1 = index then some shown.2 else none

theorem shownBy_append (index : Nat) (left right : List (Nat × O)) :
    shownBy index (left ++ right) = shownBy index left ++ shownBy index right := List.filterMap_append

theorem shownBy_same (index : Nat) (out : List O) : shownBy index (out.map (Prod.mk index)) = out := by
  simp [shownBy, List.filterMap_map]

theorem shownBy_other {index other : Nat} (differ : other ≠ index) (out : List O) :
    shownBy index (out.map (Prod.mk other)) = [] := by
  simp [shownBy, List.filterMap_map, differ]

theorem run_client {index : Nat} {c : C} (there : p.clients[index]? = some c) (events : List (Event C X)) :
    let run := runAll (step m) p events
    let alone := runAll (fun c (turn : Bool × X) => m.turn turn.1 c turn.2) c (turnsOf m index p events)
    run.1.clients[index]? = some alone.1 ∧ shownBy index run.2 = alone.2 := by
  induction events generalizing p c with
  | nil => exact ⟨there, rfl⟩
  | cons e rest ih =>
    simp only [runAll_cons, shownBy_append, turnsOf, visits, List.filterMap_cons]
    cases e with
    | join other =>
      have still : (p.clients ++ [other])[index]? = some c := by
        rw [List.getElem?_append_left (List.getElem?_eq_some_iff.1 there).1, there]
      exact ih still
    | turn other input =>
      by_cases same : other = index
      · subst same
        have set : (p.put m other c (m.turn p.free c input).1).clients[other]? = some (m.turn p.free c input).1 := by
          simp only [put, List.getElem?_set_self (List.getElem?_eq_some_iff.1 there).1]
        simp only [step, there, turnOf, if_true, runAll_cons]
        obtain ⟨moved, shown⟩ := ih set
        exact ⟨moved, by rw [shownBy_same, shown]; rfl⟩
      · simp only [turnOf, same, if_false]
        simp only [step]
        split
        next before here =>
          have still : (p.put m other before (m.turn p.free before input).1).clients[index]? = some c := by
            simp only [put, List.getElem?_set_ne same, there]
          rw [shownBy_other same]
          exact ih still
        next => exact ih there

def inputsOf (index : Nat) (events : List (Event C X)) : List X :=
  events.filterMap fun
    | .turn other input => if other = index then some input else none
    | .join _ => none

theorem turnsOf_inputs (index : Nat) (p : Pool C) (events : List (Event C X)) :
    (turnsOf m index p events).map Prod.snd = inputsOf index events := by
  induction events generalizing p with
  | nil => rfl
  | cons e rest ih =>
    simp only [turnsOf, inputsOf, visits, List.filterMap_cons] at ih ⊢
    cases e with
    | join c => exact ih _
    | turn other input =>
      by_cases same : other = index
      · simp only [turnOf, same, if_true, List.map_cons, ih]
      · simp only [turnOf, same, if_false, ih]

theorem step_length (e : Event C X) :
    (p.step m e).1.clients.length = match e with
      | .join _ => p.clients.length + 1
      | .turn _ _ => p.clients.length := by
  cases e with
  | join c => simp [step]
  | turn index input =>
    simp only [step]
    split
    · simp [put]
    · rfl

theorem step_absent {index : Nat} (absent : p.clients.length ≤ index) (e : Event C X) :
    shownBy index (p.step m e).2 = [] := by
  cases e with
  | join c => rfl
  | turn other input =>
    simp only [step]
    split
    next there =>
      have inside := (List.getElem?_eq_some_iff.1 there).1
      exact shownBy_other (by omega) _
    next => rfl

theorem run_joined {index : Nat} {last : C} (absent : p.clients.length ≤ index) {events : List (Event C X)}
    (there : (runAll (step m) p events).1.clients[index]? = some last) :
    ∃ c front back turns, events = front ++ .join c :: back ∧ turns.map Prod.snd = inputsOf index back ∧
      let alone := runAll (fun c (turn : Bool × X) => m.turn turn.1 c turn.2) c turns
      last = alone.1 ∧ shownBy index (runAll (step m) p events).2 = alone.2 := by
  induction events generalizing p with
  | nil =>
    rw [runAll_nil, List.getElem?_eq_none absent] at there
    cases there
  | cons e rest ih =>
    have length := step_length (m := m) (p := p) e
    by_cases still : (p.step m e).1.clients.length ≤ index
    · obtain ⟨c, front, back, turns, split, inputs, same, shown⟩ := ih still there
      refine ⟨c, e :: front, back, turns, by rw [split, List.cons_append], inputs, same, ?_⟩
      rw [runAll_cons, shownBy_append, step_absent absent, List.nil_append, shown]
    · cases e with
      | turn other input => exact absurd (Nat.le_trans (Nat.le_of_eq length) absent) still
      | join c =>
        obtain rfl : index = p.clients.length := by
          simp only at length
          omega
        have joined : (p.step m (.join c)).1.clients[p.clients.length]? = some c := by simp [step]
        obtain ⟨moved, shown⟩ := run_client (m := m) joined rest
        let turns := turnsOf m p.clients.length (p.step m (.join c)).1 rest
        refine ⟨c, [], rest, turns, rfl, turnsOf_inputs _ _ _, ?_, ?_⟩
        · exact Option.some.inj (there.symm.trans moved)
        · rw [runAll_cons, shownBy_append, step_absent absent, List.nil_append, shown]

theorem run_length (inputs : List (Nat × X)) :
    (runAll (step m) p (inputs.map fun turn => .turn turn.1 turn.2)).1.clients.length = p.clients.length := by
  induction inputs generalizing p with
  | nil => rfl
  | cons turn rest ih => exact ih.trans (step_length (.turn turn.1 turn.2))

theorem inputsOf_range (index count : Nat) (input : X) :
    inputsOf (C := C) index ((List.range count).map (.turn · input)) = if index < count then [input] else [] := by
  induction count with
  | zero => rfl
  | succ count ih =>
    rw [inputsOf] at ih ⊢
    rw [List.range_succ, List.map_append, List.filterMap_append, ih]
    simp only [List.map_cons, List.map_nil, List.filterMap_cons, List.filterMap_nil]
    by_cases before : index < count
    · simp [before, show count ≠ index by omega, show index < count + 1 by omega]
    · by_cases here : count = index
      · simp [here]
      · simp [before, here, show ¬index < count + 1 by omega]

theorem run_everyone {Inv first : C → Prop} (honest : Honest m first) (full : p.Full m capacity)
    (all : ∀ c ∈ p.clients, Inv c) (input : X) (leaves : ∀ free c, Inv c → m.holds (m.turn free c input).1 = false) :
    (runAll (step m) p ((List.range p.clients.length).map (.turn · input))).1.available = capacity := by
  have turns : ∀ e ∈ (List.range p.clients.length).map (Event.turn · input), e.Allowed first := by
    rw [List.forall_mem_map]
    exact fun _ _ => trivial
  refine (run_full honest full turns).idle fun c inside => ?_
  obtain ⟨index, there⟩ := List.getElem?_of_mem inside
  have length := run_length (m := m) (p := p) ((List.range p.clients.length).map (·, input))
  rw [List.map_map] at length
  have before : index < p.clients.length := Nat.lt_of_lt_of_eq (List.getElem?_eq_some_iff.1 there).1 length
  obtain ⟨moved, -⟩ := run_client (m := m) (List.getElem?_eq_getElem before)
    ((List.range p.clients.length).map (.turn · input))
  have inputs := turnsOf_inputs (m := m) index p ((List.range p.clients.length).map (.turn · input))
  rw [inputsOf_range, if_pos before] at inputs
  obtain ⟨⟨free, given⟩, single, rfl⟩ := List.map_eq_singleton_iff.1 inputs
  rw [there, single] at moved
  cases moved
  exact leaves free _ (all _ (List.getElem_mem before))

end Pool

end Permits
