import Mathlib.Data.List.Chain

set_option autoImplicit false

namespace Alternating

/-! Two sides that take turns: the first opens, the other one has the last word. -/

structure Turns (sides : List Bool) : Prop where
  chain : sides.IsChain (· ≠ ·)
  opens : ∀ side ∈ sides.head?, side = true
  closes : ∀ side ∈ sides.getLast?, side = false

theorem side_at {sides : List Bool} (chain : sides.IsChain (· ≠ ·)) {first side : Bool}
    (opens : ∀ side ∈ sides.head?, side = first) {index : Nat} (there : sides[index]? = some side) :
    side = (first == decide (index % 2 = 0)) := by
  induction sides generalizing first index with
  | nil => simp at there
  | cons head rest ih =>
    obtain rfl : head = first := opens head rfl
    cases index with
    | zero =>
      obtain rfl : head = side := by simpa using there
      simp
    | succ index =>
      have other : ∀ next ∈ rest.head?, next = !head := by
        intro next found
        have differs : head ≠ next := chain.rel_head? found
        clear chain opens ih
        revert differs
        cases head <;> cases next <;> decide
      have later := ih (List.isChain_cons.1 chain).2 other (by simpa using there)
      rw [later]
      obtain even | odd := Nat.mod_two_eq_zero_or_one index
      · have next : (index + 1) % 2 = 1 := by omega
        simp [even, next]
      · have next : (index + 1) % 2 = 0 := by omega
        simp [odd, next]

theorem Turns.at {sides : List Bool} (turns : Turns sides) {index : Nat} {side : Bool}
    (there : sides[index]? = some side) : side = decide (index % 2 = 0) := by
  simpa using side_at turns.chain turns.opens there

theorem Turns.even {sides : List Bool} (turns : Turns sides) : sides.length % 2 = 0 := by
  cases last : sides.getLast? with
  | none => simp [List.getLast?_eq_none_iff.1 last]
  | some side =>
    have ends := turns.closes side last
    have side := turns.at (List.getLast?_eq_getElem? ▸ last)
    have nonempty : sides ≠ [] := by
      rintro rfl
      simp at last
    have positive := List.length_pos_iff.2 nonempty
    rw [ends] at side
    have odd : (sides.length - 1) % 2 ≠ 0 := by simpa using side
    omega

theorem Turns.nil : Turns [] := ⟨.nil, by simp, by simp⟩

theorem Turns.pair {sides : List Bool} (turns : Turns sides) : Turns (true :: false :: sides) where
  chain := by
    refine List.isChain_cons.2 ⟨by simp, List.isChain_cons.2 ⟨?_, turns.chain⟩⟩
    intro side found
    simp [turns.opens side found]
  opens := by simp
  closes := by
    intro side found
    cases sides with
    | nil => simpa using found.symm
    | cons head rest => exact turns.closes side (by simpa using found)

end Alternating
