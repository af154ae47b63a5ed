import Mathlib.Data.Set.Insert

set_option autoImplicit false

namespace Ledger

/-! Keys that may be spent once, booked by one writer that may still owe the last one. -/

section Histories

variable {O : Type}

def Always (Justified : List O → O → Prop) (history : List O) : Prop :=
  ∀ before entry after, history = before ++ entry :: after → Justified before entry

theorem always_nil (Justified : List O → O → Prop) : Always Justified [] := by
  intro before entry after split
  simp at split

theorem Always.concat {Justified : List O → O → Prop} {history : List O} {last : O}
    (always : Always Justified history) (justified : Justified history last) :
    Always Justified (history ++ [last]) := by
  intro before entry after split
  obtain rfl | ⟨front, final, rfl⟩ := List.eq_nil_or_concat after
  · obtain ⟨rfl, rfl⟩ : history = before ∧ last = entry := by simpa using split
    exact justified
  · have parts : history ++ [last] = (before ++ entry :: front) ++ [final] := by simpa using split
    exact always before entry front (List.append_inj' parts rfl).1

end Histories

variable {K : Type}

structure Book (K : Type) where
  spent : Set K
  owed : Option K

inductive Entry (K : Type) where
  | sent (key : K)
  | accepted (key : K)
  | refused (key : K)

inductive Move : Book K → List (Entry K) → Book K → Prop where
  | quiet (book : Book K) : Move book [] book
  | send (book : Book K) (key : K) (fresh : key ∉ book.spent) (clear : book.owed = none) :
    Move book [.sent key] book
  | refuse (book : Book K) (key : K) (spent : key ∈ book.spent) : Move book [.refused key] book
  | accept (book : Book K) (key : K) (clear : book.owed = none) :
    Move book [.accepted key] { book with owed := some key }
  | settle (book : Book K) (key : K) (owes : book.owed = some key) :
    Move book [] ⟨insert key book.spent, none⟩

def Balanced (book : Book K) (history : List (Entry K)) : Prop :=
  ∀ key, .accepted key ∈ history ↔ key ∈ book.spent ∨ book.owed = some key

/-- A key is sent only before it is accepted, and refused only after that. -/
def Honest : List (Entry K) → Prop :=
  Always fun before entry =>
    match entry with
    | .sent key => .accepted key ∉ before
    | .refused key => .accepted key ∈ before
    | .accepted _ => True

theorem Honest.never_resent {history earlier later : List (Entry K)} {key : K} (honest : Honest history)
    (accepted : history = earlier ++ .accepted key :: later) : .sent key ∉ later := by
  intro resent
  obtain ⟨front, back, rfl⟩ := List.append_of_mem resent
  have fresh := honest (earlier ++ .accepted key :: front) (.sent key) back (by simp [accepted])
  simp at fresh

theorem Move.balanced {book after : Book K} {entries history : List (Entry K)} (move : Move book entries after)
    (balanced : Balanced book history) : Balanced after (history ++ entries) := by
  intro key
  have before := balanced key
  cases move with
  | quiet => simpa using before
  | send | refuse => simpa using before
  | accept other clear =>
    simp only [clear] at before
    simp [before, eq_comm]
  | settle other owes =>
    simp only [owes] at before
    simp [before, eq_comm, or_comm]

theorem Move.honest {book after : Book K} {entries history : List (Entry K)} (move : Move book entries after)
    (balanced : Balanced book history) (honest : Honest history) : Honest (history ++ entries) := by
  cases move with
  | quiet => simpa using honest
  | send key fresh clear =>
    apply honest.concat
    have unspent := balanced key
    simp_all
  | refuse key spent =>
    apply honest.concat
    exact (balanced key).2 (.inl spent)
  | accept key clear => exact honest.concat trivial
  | settle key owes => simpa using honest

end Ledger
