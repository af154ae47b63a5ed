import Mathlib.Data.List.Basic
import Mathlib.Logic.Function.Basic

set_option autoImplicit false

namespace Files

/-! Files by their paths, the calls that change them, and a file that is replaced by way of another. -/

variable {P : Type} [DecidableEq P]

abbrev Store (P : Type) := P → Option (List UInt8)

inductive Op (P : Type) where
  | create (path : P)
  | append (path : P) (bytes : List UInt8)
  | rename (source target : P)
  | remove (path : P)

def Op.apply (store : Store P) : Op P → Store P
  | .create path => Function.update store path (some [])
  | .append path bytes => Function.update store path (some ((store path).getD [] ++ bytes))
  | .rename source target =>
    if source = target then store else Function.update (Function.update store target (store source)) source none
  | .remove path => Function.update store path none

/-- What a list of calls leaves; after a crash, a list of the first of them. -/
def after (store : Store P) (ops : List (Op P)) : Store P := ops.foldl Op.apply store

def Op.Touches (path : P) : Op P → Prop
  | .create other | .append other _ | .remove other => other = path
  | .rename source target => source = path ∨ target = path

@[simp] theorem after_nil (store : Store P) : after store [] = store := rfl

theorem after_cons (store : Store P) (op : Op P) (ops : List (Op P)) :
    after store (op :: ops) = after (op.apply store) ops := rfl

theorem after_append (store : Store P) (front back : List (Op P)) :
    after store (front ++ back) = after (after store front) back := List.foldl_append ..

theorem apply_untouched {op : Op P} {path : P} (apart : ¬ op.Touches path) (store : Store P) :
    op.apply store path = store path := by
  cases op with
  | create other | append other bytes | remove other => exact Function.update_of_ne (Ne.symm apart) ..
  | rename source target =>
    obtain ⟨notSource, notTarget⟩ := not_or.1 apart
    simp only [Op.apply]
    split
    · rfl
    · rw [Function.update_of_ne (Ne.symm notSource), Function.update_of_ne (Ne.symm notTarget)]

theorem after_untouched {ops : List (Op P)} {path : P} (apart : ∀ op ∈ ops, ¬ op.Touches path) (store : Store P) :
    after store ops path = store path := by
  induction ops generalizing store with
  | nil => rfl
  | cons op rest ih =>
    obtain ⟨here, later⟩ := List.forall_mem_cons.1 apart
    rw [after_cons, ih later, apply_untouched here]

theorem after_appends (store : Store P) (path : P) (held : List UInt8) (there : store path = some held)
    (pieces : List (List UInt8)) : after store (pieces.map (.append path)) path = some (held ++ pieces.flatten) := by
  induction pieces generalizing store held with
  | nil => simpa using there
  | cons piece rest ih =>
    have next : (Op.append path piece).apply store path = some (held ++ piece) := by
      simp [Op.apply, there]
    rw [List.map_cons, after_cons, ih _ (held ++ piece) next]
    simp

theorem prefix_cases {A : Type} {front first second : List A} (begun : front <+: first ++ second) :
    front <+: first ∨ ∃ rest, front = first ++ rest ∧ rest <+: second := by
  obtain ⟨rest, same⟩ := begun
  obtain ⟨more, rfl, -⟩ | ⟨more, rfl, split⟩ := List.append_eq_append_iff.1 same
  · exact .inl (List.prefix_append ..)
  · exact .inr ⟨more, rfl, rest, split.symm⟩

def Removes (path : P) (ops : List (Op P)) : Prop := ∀ op ∈ ops, op = .remove path

theorem Removes.after {path : P} {ops : List (Op P)} (removes : Removes path ops) (store : Store P) :
    Files.after store ops path = store path ∨ Files.after store ops path = none := by
  induction ops generalizing store with
  | nil => exact .inl rfl
  | cons op rest ih =>
    obtain ⟨rfl, later⟩ := List.forall_mem_cons.1 removes
    have gone : (Op.remove path).apply store path = none := Function.update_self ..
    obtain kept | gone' := ih later ((Op.remove path).apply store)
    · exact .inr (kept.trans gone)
    · exact .inr gone'

theorem Removes.after_mem {path : P} {ops : List (Op P)} (removes : Removes path ops) (some : .remove path ∈ ops)
    (store : Store P) : Files.after store ops path = none := by
  cases ops with
  | nil => exact absurd some List.not_mem_nil
  | cons op rest =>
    obtain ⟨rfl, later⟩ := List.forall_mem_cons.1 removes
    have gone : (Op.remove path).apply store path = none := Function.update_self ..
    obtain kept | gone' := Removes.after later ((Op.remove path).apply store)
    · exact kept.trans gone
    · exact gone'

section Replace

variable (temp target : P) (pieces : List (List UInt8))

def stage : List (Op P) := .create temp :: pieces.map (.append temp)

def replace : List (Op P) := stage temp pieces ++ [.rename temp target]

variable {temp target} {pieces}

omit [DecidableEq P] in
theorem stage_touches {op : Op P} (inside : op ∈ stage temp pieces) {path : P} (apart : temp ≠ path) :
    ¬ op.Touches path := by
  obtain rfl | appended := List.mem_cons.1 inside
  · exact apart
  · obtain ⟨piece, -, rfl⟩ := List.mem_map.1 appended
    exact apart

theorem stage_holds (store : Store P) : after store (stage temp pieces) temp = some pieces.flatten := by
  have created : (Op.create temp).apply store temp = some [] := Function.update_self ..
  have held := after_appends _ temp [] created pieces
  rwa [List.nil_append] at held

theorem replace_target (apart : temp ≠ target) (store : Store P) :
    after store (replace temp target pieces) target = some pieces.flatten := by
  rw [replace, after_append, after_cons, after_nil, Op.apply, if_neg apart, Function.update_of_ne apart.symm,
    Function.update_self, stage_holds]

theorem replace_atomic (apart : temp ≠ target) (store : Store P) {front : List (Op P)}
    (begun : front <+: replace temp target pieces) :
    after store front target = store target ∨ after store front target = some pieces.flatten := by
  obtain whole | partly := List.prefix_concat_iff.1 begun
  · rw [whole, ← replace]
    exact .inr (replace_target apart store)
  · exact .inl (after_untouched (fun op inside => stage_touches (partly.subset inside) apart) store)

theorem replace_removed (apart : temp ≠ target) (store : Store P) {removals front : List (Op P)}
    (removes : Removes target removals) (begun : front <+: replace temp target pieces ++ removals) :
    after store front target = store target ∨ after store front target = none ∨
      after store front target = some pieces.flatten := by
  obtain early | ⟨rest, rfl, later⟩ := prefix_cases begun
  · exact (replace_atomic apart store early).imp_right .inr
  · have some : Removes target rest := fun op inside => removes op (later.subset inside)
    rw [after_append]
    obtain kept | gone := some.after (after store (replace temp target pieces))
    · exact .inr (.inr (kept.trans (replace_target apart store)))
    · exact .inr (.inl gone)

end Replace

end Files
