import Mathlib.Data.List.Forall2

set_option autoImplicit false

namespace Walk

variable {S X O E A B : Type}

/-! Loops over a list that thread a state, collect outputs and may stop with an error. -/

theorem bind_ok {source : Except E A} {next : A → Except E B} {result : B} :
    source >>= next = .ok result ↔ ∃ value, source = .ok value ∧ next value = .ok result := by
  cases source with
  | error error => simp [bind, Except.bind]
  | ok value => simp [bind, Except.bind]

theorem map_ok {source : Except E A} {f : A → B} {result : B} :
    source.map f = .ok result ↔ ∃ value, source = .ok value ∧ f value = result := by
  cases source with
  | error error => simp [Except.map]
  | ok value => simp [Except.map]

def walk (step : S → X → Except E (O × S)) : S → List X → Except E (List O × S)
  | state, [] => .ok ([], state)
  | state, input :: rest => do
    let (output, state) ← step state input
    let (outputs, state) ← walk step state rest
    return (output :: outputs, state)

variable {step : S → X → Except E (O × S)}

theorem walk_cons {state last : S} {input : X} {rest : List X} {outputs : List O} :
    walk step state (input :: rest) = .ok (outputs, last) ↔
      ∃ output next later,
        step state input = .ok (output, next) ∧ walk step next rest = .ok (later, last) ∧ outputs = output :: later := by
  rw [walk, bind_ok]
  constructor
  · rintro ⟨⟨output, next⟩, stepped, continues⟩
    obtain ⟨⟨later, last'⟩, walked, same⟩ := bind_ok.1 continues
    cases same
    exact ⟨output, next, later, stepped, walked, rfl⟩
  · rintro ⟨output, next, later, stepped, walked, rfl⟩
    exact ⟨(output, next), stepped, bind_ok.2 ⟨(later, last), walked, rfl⟩⟩

theorem walk_rule (Inv : List X → S → Prop) (Rel : X → O → Prop) (each : ∀ seen state input output next,
    Inv seen state → step state input = .ok (output, next) → Inv (seen ++ [input]) next ∧ Rel input output)
    (seen : List X) {inputs : List X} {state last : S} {outputs : List O} (holds : Inv seen state)
    (walked : walk step state inputs = .ok (outputs, last)) :
    Inv (seen ++ inputs) last ∧ List.Forall₂ Rel inputs outputs := by
  induction inputs generalizing seen state outputs with
  | nil =>
    cases walked
    exact ⟨by simpa using holds, .nil⟩
  | cons input rest ih =>
    obtain ⟨output, next, later, stepped, continues, rfl⟩ := walk_cons.1 walked
    obtain ⟨kept, related⟩ := each seen state input output next holds stepped
    obtain ⟨ends, all⟩ := ih (seen ++ [input]) kept continues
    exact ⟨by simpa using ends, .cons related all⟩

theorem walk_map {project : O → A} {expected : X → A} (each : ∀ state input output next,
    step state input = .ok (output, next) → project output = expected input) {state last : S} {inputs : List X}
    {outputs : List O} (walked : walk step state inputs = .ok (outputs, last)) :
    outputs.map project = inputs.map expected := by
  have pairs : List.Forall₂ (fun input output => project output = expected input) inputs outputs :=
    (walk_rule (fun _ _ => True) (fun input output => project output = expected input)
      (fun _ state input output next _ stepped => ⟨trivial, each state input output next stepped⟩) [] trivial walked).2
  clear walked
  induction pairs with
  | nil => rfl
  | cons same _ ih => rw [List.map_cons, List.map_cons, same, ih]

end Walk
