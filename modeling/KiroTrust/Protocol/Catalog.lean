import Mathlib.Algebra.GroupWithZero.Nat
import Mathlib.Data.Fintype.Basic
import Mathlib.Data.List.FinRange
import KiroTrust.Protocol.Text

set_option autoImplicit false

namespace KiroTrust.Catalog

/-! `catalog.rs`: the rows, and the slots of their context tiers. -/

structure Row where
  anthropic : Str
  kiro1m : Option Str
  always1m : Bool

def row (anthropic : String) (kiro1m : Option String) (always1m : Bool) : Row :=
  ⟨anthropic.toList, kiro1m.map String.toList, always1m⟩

def rows : List Row := [
  row "claude-opus-5" none true,
  row "claude-opus-4-8" none true,
  row "claude-opus-4-7" none true,
  row "claude-opus-4-6" none true,
  row "claude-sonnet-5" none true,
  row "claude-sonnet-4-6" (some "claude-sonnet-4.6-1m") false,
  row "claude-sonnet-4-5" (some "claude-sonnet-4.5-1m") false,
  row "claude-opus-4-5" none false,
  row "claude-haiku-4-5" none false]

def Row.offers (row : Row) (context1m : Bool) : Bool :=
  if context1m then row.always1m || row.kiro1m.isSome else !row.always1m

/-- A row and a context tier that it offers: nothing else is ever constructed. -/
structure ModelKey where
  row : Fin rows.length
  context1m : Bool
  offered : rows[row].offers context1m = true
  deriving DecidableEq

namespace ModelKey

/-- The key that `resolve` gives, once it has found the row. -/
def route (row : Fin rows.length) (want1m : Bool) : ModelKey where
  row
  context1m := rows[row].always1m || want1m && rows[row].kiro1m.isSome
  offered := by
    cases always : rows[row].always1m <;> cases separate : rows[row].kiro1m.isSome <;> cases want1m <;>
      simp_all [Row.offers]

def catalogIndex (key : ModelKey) : Nat :=
  ((rows.take key.row).map fun row => if row.always1m || row.kiro1m.isNone then 1 else 2).sum +
    (key.context1m && !rows[key.row].always1m).toNat

end ModelKey

structure ModelInfo where
  key : ModelKey
  id : Str

def modelInfo (key : ModelKey) : ModelInfo :=
  ⟨key, rows[key.row].anthropic ++ if key.context1m then "[1m]".toList else []⟩

def models : List ModelInfo :=
  (List.finRange rows.length).flatMap fun index =>
    if rows[index].always1m then [modelInfo (.route index true)]
    else
      modelInfo (.route index false) ::
        if rows[index].kiro1m.isSome then [modelInfo (.route index true)] else []

theorem models_catalogIndex (key : ModelKey) : (models[key.catalogIndex]?).map ModelInfo.key = some key := by
  obtain ⟨row, context1m, offered⟩ := key
  revert context1m
  revert row
  decide

theorem ModelKey.catalogIndex_lt (key : ModelKey) : key.catalogIndex < models.length := by
  obtain ⟨info, found, -⟩ := Option.map_eq_some_iff.1 (models_catalogIndex key)
  exact (List.getElem?_eq_some_iff.1 found).1

end KiroTrust.Catalog
