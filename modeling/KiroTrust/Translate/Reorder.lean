import KiroTrust.Shared.Matching
import KiroTrust.Translate.Content

set_option autoImplicit false

namespace KiroTrust.Translate

open Kiro (ToolResult)

/-! `reorder_tool_results`: where each result goes. -/

def matchedResults (results : List ToolResult) (ids : List Str) : List ToolResult :=
  Matching.matched ToolResult.toolUseId results [] ids

def unmatchedResults (results : List ToolResult) (ids : List Str) : List ToolResult :=
  Matching.unmatched ToolResult.toolUseId ids [] results

theorem reorderBy_eq (ids : List Str) (results : List ToolResult) :
    reorderBy ids results = Matching.takeEach ToolResult.toolUseId ids results := by
  induction ids generalizing results with
  | nil => rfl
  | cons id ids ih =>
    rw [reorderBy, Matching.takeEach]
    cases results.find? fun r => r.toolUseId = id with
    | some r => exact congrArg (r :: ·) (ih _)
    | none => exact ih results

theorem reorderToolResults_eq (results : List ToolResult) (ids : List Str) :
    reorderToolResults results ids = reorderBy ids results := by
  rw [reorderToolResults]
  split
  next few =>
    obtain short | rfl := few
    · cases results with
      | nil => exact (List.perm_nil.1 (reorderBy_perm ids [])).symm
      | cons r rest =>
        have alone : rest = [] := List.eq_nil_of_length_eq_zero (by simpa using short)
        rw [alone]
        exact (List.perm_singleton.1 (reorderBy_perm ids [r])).symm
    · rfl
  next => rfl

theorem reorderToolResults_exact (results : List ToolResult) (ids : List Str) :
    (reorderToolResults results ids).Perm results ∧
      reorderToolResults results ids = matchedResults results ids ++ unmatchedResults results ids := by
  refine ⟨reorderToolResults_perm results ids, ?_⟩
  rw [reorderToolResults_eq, reorderBy_eq]
  exact Matching.takeEach_eq ToolResult.toolUseId ids results

end KiroTrust.Translate
