import Mathlib.Data.List.Basic
import Mathlib.Logic.Function.Basic

set_option autoImplicit false

namespace Base64

/-! Bytes in groups of three, written as digits of six bits, without padding. -/

variable {D : Type} (digit : Fin 64 → D)

def sextet (value : Nat) : D := digit (Fin.ofNat 64 value)

def encode : List UInt8 → List D
  | [] => []
  | [a] => [sextet digit (a.toNat / 4), sextet digit (a.toNat * 16)]
  | [a, b] =>
    let value := a.toNat * 256 + b.toNat
    [sextet digit (value / 1024), sextet digit (value / 16), sextet digit (value * 4)]
  | a :: b :: c :: rest =>
    let value := a.toNat * 65536 + b.toNat * 256 + c.toNat
    [sextet digit (value / 262144), sextet digit (value / 4096), sextet digit (value / 64), sextet digit value] ++
      encode rest

theorem encode_length (bytes : List UInt8) : (encode digit bytes).length = (bytes.length * 4 + 2) / 3 := by
  induction bytes using encode.induct with
  | case1 => rfl
  | case2 a | case3 a b => simp [encode]
  | case4 a b c rest ih =>
    simp only [encode, List.length_append, List.length_cons, List.length_nil, ih]
    omega

theorem encode_digits (bytes : List UInt8) : ∀ d ∈ encode digit bytes, ∃ n, digit n = d := by
  have digits (value : Nat) : ∃ n, digit n = sextet digit value := ⟨_, rfl⟩
  induction bytes using encode.induct with
  | case1 => simp [encode]
  | case2 a => simp [encode, digits]
  | case3 a b => simp [encode, digits]
  | case4 a b c rest ih =>
    simp only [encode, List.forall_mem_append]
    exact ⟨by simp [digits], ih⟩

variable {digit}

theorem sextet_inj (distinct : Function.Injective digit) {value other : Nat} :
    sextet digit value = sextet digit other ↔ value % 64 = other % 64 := by
  simp [sextet, distinct.eq_iff, Fin.ext_iff, Fin.ofNat]

theorem encode_injective (distinct : Function.Injective digit) : Function.Injective (encode digit) := by
  intro bytes others same
  induction bytes using encode.induct generalizing others with
  | case1 => rcases others with _ | ⟨a', _ | ⟨b', _ | ⟨c', rest'⟩⟩⟩ <;> simp_all [encode]
  | case2 a =>
    rcases others with _ | ⟨a', _ | ⟨b', _ | ⟨c', rest'⟩⟩⟩ <;>
      simp only [encode, List.cons_append, List.nil_append, List.cons.injEq, sextet_inj distinct, reduceCtorEq,
        and_true, and_false] at same
    have bounds := And.intro a.toNat_lt a'.toNat_lt
    have bytes : a.toNat = a'.toNat := by omega
    rw [UInt8.toNat.inj bytes]
  | case3 a b =>
    rcases others with _ | ⟨a', _ | ⟨b', _ | ⟨c', rest'⟩⟩⟩ <;>
      simp only [encode, List.cons_append, List.nil_append, List.cons.injEq, sextet_inj distinct, reduceCtorEq,
        and_true, and_false] at same
    have bounds := And.intro (And.intro a.toNat_lt b.toNat_lt) (And.intro a'.toNat_lt b'.toNat_lt)
    have bytes : a.toNat = a'.toNat ∧ b.toNat = b'.toNat := by omega
    rw [UInt8.toNat.inj bytes.1, UInt8.toNat.inj bytes.2]
  | case4 a b c rest ih =>
    rcases others with _ | ⟨a', _ | ⟨b', _ | ⟨c', rest'⟩⟩⟩ <;>
      simp only [encode, List.cons_append, List.nil_append, List.cons.injEq, sextet_inj distinct, reduceCtorEq,
        and_false] at same
    obtain ⟨first, second, third, fourth, later⟩ := same
    have bounds := And.intro (And.intro a.toNat_lt b.toNat_lt) (And.intro a'.toNat_lt b'.toNat_lt)
    have last := And.intro c.toNat_lt c'.toNat_lt
    have bytes : a.toNat = a'.toNat ∧ b.toNat = b'.toNat ∧ c.toNat = c'.toNat := by omega
    rw [UInt8.toNat.inj bytes.1, UInt8.toNat.inj bytes.2.1, UInt8.toNat.inj bytes.2.2, ih later]

end Base64
