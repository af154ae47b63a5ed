import Mathlib.Data.List.Basic

set_option autoImplicit false

namespace Panics

variable {A B E : Type}

/-! Operations that panic outside of their bounds, and computations that fail or panic. -/

inductive Panic where
  | index
  | slice
  | split
  | underflow
  | unwrap
  deriving DecidableEq

def index (data : List A) (place : Nat) : Except Panic A :=
  match data[place]? with
  | some value => .ok value
  | none => .error .index

def slice (data : List A) (first last : Nat) : Except Panic (List A) :=
  if first ≤ last ∧ last ≤ data.length then .ok ((data.drop first).take (last - first)) else .error .slice

def sliceFrom (data : List A) (first : Nat) : Except Panic (List A) :=
  if first ≤ data.length then .ok (data.drop first) else .error .slice

def splitAt (data : List A) (place : Nat) : Except Panic (List A × List A) :=
  if place ≤ data.length then .ok (data.take place, data.drop place) else .error .split

def sub (left right : Nat) : Except Panic Nat :=
  if right ≤ left then .ok (left - right) else .error .underflow

/-- `try_into().unwrap()` to an array. -/
def unwrapArray (width : Nat) (data : List A) : Except Panic (Vector A width) :=
  if fits : data.length = width then .ok ⟨data.toArray, by simpa using fits⟩ else .error .unwrap

theorem index_ok {data : List A} {place : Nat} (inside : place < data.length) :
    index data place = .ok data[place] := by
  rw [index, List.getElem?_eq_getElem inside]

theorem slice_ok {data : List A} {first last : Nat} (ordered : first ≤ last) (inside : last ≤ data.length) :
    slice data first last = .ok ((data.drop first).take (last - first)) := if_pos ⟨ordered, inside⟩

theorem sliceFrom_ok {data : List A} {first : Nat} (inside : first ≤ data.length) :
    sliceFrom data first = .ok (data.drop first) := if_pos inside

theorem splitAt_ok {data : List A} {place : Nat} (inside : place ≤ data.length) :
    splitAt data place = .ok (data.take place, data.drop place) := if_pos inside

theorem sub_ok {left right : Nat} (inside : right ≤ left) : sub left right = .ok (left - right) := if_pos inside

theorem unwrapArray_ok {width : Nat} {data : List A} (fits : data.length = width) :
    ∃ array, unwrapArray width data = .ok array ∧ array.toList = data :=
  ⟨⟨data.toArray, by simpa using fits⟩, dif_pos fits, rfl⟩

/-- A computation that returns a value, fails with an error or panics. -/
abbrev Run (E A : Type) := ExceptT E (Except Panic) A

def returns (result : Except E A) : Run E A := ExceptT.mk (.ok result)

def bounded (result : Except Panic A) : Run E A := ExceptT.lift result

theorem returns_bind (value : A) (next : A → Run E B) : (returns (.ok value) >>= next) = next value := rfl

theorem ok_bind (value : A) (next : A → Except E B) : ((.ok value : Except E A) >>= next) = next value := rfl

theorem bounded_bind (value : A) (next : A → Run E B) : (bounded (.ok value) >>= next) = next value := rfl

end Panics
