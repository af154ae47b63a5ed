import Mathlib.Data.List.Induction
import Mathlib.Data.List.Nodup
import Mathlib.Order.Nat

set_option autoImplicit false

namespace Distinct

/-! One element for each key: the heaviest, then the first. -/

variable {A K : Type}

section Keys

variable [BEq K] [LawfulBEq K]

theorem eraseDups_concat (keys : List K) (k : K) :
    (keys ++ [k]).eraseDups = if k ∈ keys then keys.eraseDups else keys.eraseDups ++ [k] := by
  rw [List.eraseDups_append]
  by_cases present : k ∈ keys <;> simp [present, List.removeAll, List.eraseDups_cons]

theorem nodup_eraseDups (keys : List K) : keys.eraseDups.Nodup := by
  induction keys using List.reverseRecOn with
  | nil => exact List.nodup_nil
  | append_singleton keys k ih =>
    rw [eraseDups_concat]
    split
    · exact ih
    next absent =>
      have outside : k ∉ keys.eraseDups := fun inside => absent (List.mem_eraseDups.1 inside)
      exact List.nodup_append.2 ⟨ih, List.nodup_singleton k, fun a held b new => by
        cases List.mem_singleton.1 new
        exact fun same => outside (same ▸ held)⟩

end Keys

variable [DecidableEq K] (key : A → K) (weight : A → Nat)

def place : List A → A → List A
  | [], a => [a]
  | held :: rest, a =>
    if key held = key a then (if weight held < weight a then a else held) :: rest
    else held :: place rest a

def heaviest (all : List A) : List A := all.foldl (place key weight) []

def IsHeaviest (all : List A) (a : A) : Prop :=
  ∃ before after, all = before ++ a :: after ∧
    (∀ b ∈ before, key b = key a → weight b < weight a) ∧ ∀ b ∈ after, key b = key a → weight b ≤ weight a

def firsts : List K → List A → List A
  | _, [] => []
  | seen, a :: rest => if key a ∈ seen then firsts seen rest else a :: firsts (seen ++ [key a]) rest

section Heaviest

variable {key weight}

theorem place_keys (held : List A) (a : A) :
    (place key weight held a).map key =
      if key a ∈ held.map key then held.map key else held.map key ++ [key a] := by
  induction held with
  | nil => rfl
  | cons first rest ih =>
    by_cases same : key first = key a
    · by_cases lighter : weight first < weight a <;> simp [place, same, lighter]
    · by_cases present : key a ∈ rest.map key
      · rw [if_pos present] at ih
        simp [place, same, ih, List.mem_cons_of_mem _ present]
      · rw [if_neg present] at ih
        have absent : key a ∉ (first :: rest).map key := by
          rw [List.map_cons, List.mem_cons]
          exact not_or.2 ⟨Ne.symm same, present⟩
        rw [if_neg absent, place, if_neg same, List.map_cons, ih, List.map_cons, List.cons_append]

theorem heaviest_concat (all : List A) (a : A) :
    heaviest key weight (all ++ [a]) = place key weight (heaviest key weight all) a := by
  simp [heaviest]

theorem heaviest_keys [BEq K] [LawfulBEq K] (all : List A) :
    (heaviest key weight all).map key = (all.map key).eraseDups := by
  induction all using List.reverseRecOn with
  | nil => rfl
  | append_singleton all a ih =>
    rw [heaviest_concat, place_keys, ih, List.map_append, List.map_singleton, eraseDups_concat]
    simp only [List.mem_eraseDups]

theorem heaviest_nodup (all : List A) : ((heaviest key weight all).map key).Nodup := by
  rw [heaviest_keys]
  exact nodup_eraseDups _

theorem mem_place {held : List A} (distinct : (held.map key).Nodup) {a b : A}
    (inside : b ∈ place key weight held a) :
    (b ∈ held ∧ key b ≠ key a) ∨ (b = a ∧ ∀ c ∈ held, key c = key a → weight c < weight a) ∨
      (b ∈ held ∧ weight a ≤ weight b) := by
  induction held with
  | nil => exact .inr (.inl ⟨List.mem_singleton.1 inside, List.forall_mem_nil _⟩)
  | cons first rest ih =>
    obtain ⟨alone, distinct⟩ := List.nodup_cons.1 distinct
    rw [place] at inside
    split at inside
    next same =>
      have others (c : A) (inRest : c ∈ rest) : key c ≠ key a := fun equal =>
        alone (List.mem_map.2 ⟨c, inRest, equal.trans same.symm⟩)
      obtain rfl | inRest := List.mem_cons.1 inside
      · split
        next lighter =>
          refine .inr (.inl ⟨rfl, ?_⟩)
          intro c inHeld equal
          obtain rfl | inRest := List.mem_cons.1 inHeld
          · exact lighter
          · exact absurd equal (others c inRest)
        next heavier => exact .inr (.inr ⟨List.mem_cons_self, Nat.le_of_not_lt heavier⟩)
      · exact .inl ⟨List.mem_cons_of_mem _ inRest, others b inRest⟩
    next differs =>
      obtain rfl | inRest := List.mem_cons.1 inside
      · exact .inl ⟨List.mem_cons_self, differs⟩
      · obtain ⟨held, other⟩ | ⟨rfl, heaviest⟩ | ⟨held, heavier⟩ := ih distinct inRest
        · exact .inl ⟨List.mem_cons_of_mem _ held, other⟩
        · refine .inr (.inl ⟨rfl, ?_⟩)
          intro c inHeld equal
          obtain rfl | inRest := List.mem_cons.1 inHeld
          · exact absurd equal differs
          · exact heaviest c inRest equal
        · exact .inr (.inr ⟨List.mem_cons_of_mem _ held, heavier⟩)

omit [DecidableEq K] in
theorem IsHeaviest.le {all : List A} {a : A} (best : IsHeaviest key weight all a) {b : A} (inside : b ∈ all)
    (same : key b = key a) : weight b ≤ weight a := by
  obtain ⟨before, after, rfl, lighter, bounded⟩ := best
  obtain inFront | inBack := List.mem_append.1 inside
  · exact (lighter b inFront same).le
  · obtain rfl | inBack := List.mem_cons.1 inBack
    · exact le_refl _
    · exact bounded b inBack same

omit [DecidableEq K] in
theorem IsHeaviest.concat {all : List A} {a b : A} (best : IsHeaviest key weight all a)
    (bounded : key b = key a → weight b ≤ weight a) : IsHeaviest key weight (all ++ [b]) a := by
  obtain ⟨before, after, rfl, lighter, others⟩ := best
  refine ⟨before, after ++ [b], by simp, lighter, ?_⟩
  intro c inside same
  obtain inAfter | new := List.mem_append.1 inside
  · exact others c inAfter same
  · cases List.mem_singleton.1 new
    exact bounded same

theorem heaviest_sound (all : List A) : ∀ a ∈ heaviest key weight all, IsHeaviest key weight all a := by
  induction all using List.reverseRecOn with
  | nil => exact List.forall_mem_nil _
  | append_singleton all a ih =>
    intro b inside
    rw [heaviest_concat] at inside
    obtain ⟨held, other⟩ | ⟨rfl, heaviest⟩ | ⟨held, heavier⟩ := mem_place (heaviest_nodup all) inside
    · exact (ih b held).concat fun same => absurd same.symm other
    · refine ⟨all, [], rfl, ?_, List.forall_mem_nil _⟩
      intro c inAll same
      -- The element held for the key of `c` is at least as heavy as `c`.
      have present : key c ∈ (Distinct.heaviest key weight all).map key := by
        rw [heaviest_keys, List.mem_eraseDups]
        exact List.mem_map_of_mem inAll
      obtain ⟨held, inHeld, equal⟩ := List.mem_map.1 present
      exact ((ih held inHeld).le inAll equal.symm).trans_lt (heaviest held inHeld (equal.trans same))
    · exact (ih b held).concat fun _ => heavier

theorem place_of_absent {held : List A} {a : A} (absent : key a ∉ held.map key) :
    place key weight held a = held ++ [a] := by
  induction held with
  | nil => rfl
  | cons first rest ih =>
    obtain ⟨differs, absent⟩ := not_or.1 (List.mem_cons.not.1 absent)
    rw [place, if_neg (Ne.symm differs), ih absent, List.cons_append]

theorem heaviest_of_nodup {all : List A} (distinct : (all.map key).Nodup) : heaviest key weight all = all := by
  induction all using List.reverseRecOn with
  | nil => rfl
  | append_singleton all a ih =>
    rw [List.map_append, List.nodup_append] at distinct
    obtain ⟨distinct, -, apart⟩ := distinct
    rw [heaviest_concat, ih distinct]
    exact place_of_absent fun present => apart (key a) present (key a) (by simp) rfl

end Heaviest

section Firsts

variable {key}

theorem firsts_sublist (seen : List K) (all : List A) : (firsts key seen all).Sublist all := by
  induction all generalizing seen with
  | nil => exact .slnil
  | cons a rest ih =>
    rw [firsts]
    split
    · exact (ih seen).cons a
    · exact (ih _).cons_cons a

theorem firsts_unseen (seen : List K) (all : List A) : ∀ a ∈ firsts key seen all, key a ∉ seen := by
  induction all generalizing seen with
  | nil => exact List.forall_mem_nil _
  | cons first rest ih =>
    intro a inside
    rw [firsts] at inside
    split at inside
    · exact ih seen a inside
    next unseen =>
      obtain rfl | inRest := List.mem_cons.1 inside
      · exact unseen
      · exact fun present => ih _ a inRest (List.mem_append_left _ present)

theorem firsts_nodup (seen : List K) (all : List A) : ((firsts key seen all).map key).Nodup := by
  induction all generalizing seen with
  | nil => exact List.nodup_nil
  | cons a rest ih =>
    rw [firsts]
    split
    · exact ih seen
    · refine List.nodup_cons.2 ⟨?_, ih _⟩
      intro repeated
      obtain ⟨b, inside, same⟩ := List.mem_map.1 repeated
      exact firsts_unseen _ rest b inside (by simp [same])

theorem firsts_covers (seen : List K) {all front back : List A} {a : A}
    (split : all = front ++ a :: back) :
    a ∈ firsts key seen all ∨ key a ∈ seen ∨ ∃ b ∈ front, b ∈ firsts key seen all ∧ key b = key a := by
  induction front generalizing all seen with
  | nil =>
    subst split
    by_cases present : key a ∈ seen
    · exact .inr (.inl present)
    · exact .inl (by simp [firsts, present])
  | cons first front ih =>
    subst split
    rw [List.cons_append, firsts]
    split
    · obtain stays | known | ⟨b, inFront, stays, same⟩ := ih seen rfl
      · exact .inl stays
      · exact .inr (.inl known)
      · exact .inr (.inr ⟨b, List.mem_cons_of_mem _ inFront, stays, same⟩)
    · obtain stays | known | ⟨b, inFront, stays, same⟩ := ih (seen ++ [key first]) rfl
      · exact .inl (List.mem_cons_of_mem _ stays)
      · obtain known | new := List.mem_append.1 known
        · exact .inr (.inl known)
        · exact .inr (.inr ⟨first, List.mem_cons_self, List.mem_cons_self, (List.mem_singleton.1 new).symm⟩)
      · exact .inr (.inr ⟨b, List.mem_cons_of_mem _ inFront, List.mem_cons_of_mem _ stays, same⟩)

theorem firsts_of_nodup {seen : List K} {all : List A} (distinct : (all.map key).Nodup)
    (unseen : ∀ a ∈ all, key a ∉ seen) : firsts key seen all = all := by
  induction all generalizing seen with
  | nil => rfl
  | cons a rest ih =>
    obtain ⟨alone, distinct⟩ := List.nodup_cons.1 distinct
    rw [firsts, if_neg (unseen a List.mem_cons_self)]
    congr 1
    refine ih distinct fun b inRest present => ?_
    obtain known | new := List.mem_append.1 present
    · exact unseen b (List.mem_cons_of_mem _ inRest) known
    · exact alone (List.mem_map.2 ⟨b, inRest, List.mem_singleton.1 new⟩)

end Firsts

end Distinct
