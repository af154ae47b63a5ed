import KiroTrust.Shared.Distinct
import KiroTrust.Translate.Response

set_option autoImplicit false

namespace KiroTrust.Translate

/-! `dedupe_tool_calls`: which of the calls come out. -/

def callKey (serde : Serde) (call : ToolCall) : Str × Str := (call.name, normalizedInput serde call.input)

def inputLen (call : ToolCall) : Nat := call.input.byteLen

def firstIds (calls : List ToolCall) : List Str := (calls.map ToolCall.id).eraseDups

/-- The first of the calls with its id that have the longest input. -/
def IsLongest (calls : List ToolCall) (call : ToolCall) : Prop :=
  ∃ before after, calls = before ++ call :: after ∧
    (∀ other ∈ before, other.id = call.id → other.input.byteLen < call.input.byteLen) ∧
    ∀ other ∈ after, other.id = call.id → other.input.byteLen ≤ call.input.byteLen

structure Deduplicated (serde : Serde) (calls kept : List ToolCall) : Prop where
  ids : (kept.map ToolCall.id).Nodup
  keys : (kept.map (callKey serde)).Nodup
  order : (kept.map ToolCall.id).Sublist (firstIds calls)
  longest : ∀ call ∈ kept, IsLongest calls call
  dropped : ∀ id ∈ calls.map ToolCall.id, id ∉ kept.map ToolCall.id →
    ∃ call earlier, call.id = id ∧ IsLongest calls call ∧ earlier ∈ kept ∧
      [earlier.id, id].Sublist (firstIds calls) ∧ callKey serde earlier = callKey serde call
  nonempty : kept ≠ [] ↔ calls ≠ []

theorem keepLongest_eq (held : List ToolCall) (call : ToolCall) :
    keepLongest held call = Distinct.place ToolCall.id inputLen held call := by
  induction held with
  | nil => rfl
  | cons existing rest ih => rw [keepLongest, Distinct.place, ih]; rfl

theorem foldl_keepLongest (calls : List ToolCall) :
    calls.foldl keepLongest [] = Distinct.heaviest ToolCall.id inputLen calls := by
  rw [Distinct.heaviest, funext fun held => funext (keepLongest_eq held)]

theorem dropRepeats_eq (serde : Serde) (seen : List (Str × Str)) (calls : List ToolCall) :
    dropRepeats serde seen calls = Distinct.firsts (callKey serde) seen calls := by
  induction calls generalizing seen with
  | nil => rfl
  | cons call rest ih =>
    by_cases known : callKey serde call ∈ seen <;>
      simp only [callKey] at known <;> simp [dropRepeats, Distinct.firsts, callKey, known, ih]

theorem dedupeToolCalls_eq (serde : Serde) (calls : List ToolCall) :
    dedupeToolCalls serde calls =
      Distinct.firsts (callKey serde) [] (Distinct.heaviest ToolCall.id inputLen calls) := by
  rw [dedupeToolCalls, foldl_keepLongest, dropRepeats_eq]

theorem dedupeToolCalls_sublist (serde : Serde) (calls : List ToolCall) :
    (dedupeToolCalls serde calls).Sublist (Distinct.heaviest ToolCall.id inputLen calls) := by
  rw [dedupeToolCalls_eq]
  exact Distinct.firsts_sublist [] _

theorem dedupeToolCalls_ids (serde : Serde) (calls : List ToolCall) :
    ((dedupeToolCalls serde calls).map ToolCall.id).Nodup :=
  (Distinct.heaviest_nodup calls).sublist ((dedupeToolCalls_sublist serde calls).map _)

theorem dedupeToolCalls_keys (serde : Serde) (calls : List ToolCall) :
    ((dedupeToolCalls serde calls).map (callKey serde)).Nodup := by
  rw [dedupeToolCalls_eq]
  exact Distinct.firsts_nodup [] _

theorem dedupeToolCalls_order (serde : Serde) (calls : List ToolCall) :
    ((dedupeToolCalls serde calls).map ToolCall.id).Sublist (firstIds calls) := by
  have order := (dedupeToolCalls_sublist serde calls).map ToolCall.id
  rw [Distinct.heaviest_keys] at order
  exact order

theorem dedupeToolCalls_longest (serde : Serde) (calls : List ToolCall) :
    ∀ call ∈ dedupeToolCalls serde calls, IsLongest calls call := fun call inside =>
  Distinct.heaviest_sound calls call ((dedupeToolCalls_sublist serde calls).subset inside)

theorem dedupeToolCalls_dropped (serde : Serde) (calls : List ToolCall) (id : Str)
    (present : id ∈ calls.map ToolCall.id) (missing : id ∉ (dedupeToolCalls serde calls).map ToolCall.id) :
    ∃ call earlier, call.id = id ∧ IsLongest calls call ∧ earlier ∈ dedupeToolCalls serde calls ∧
      [earlier.id, id].Sublist (firstIds calls) ∧ callKey serde earlier = callKey serde call := by
  have ids : (Distinct.heaviest ToolCall.id inputLen calls).map ToolCall.id = firstIds calls :=
    Distinct.heaviest_keys calls
  rw [← List.mem_eraseDups, ← firstIds, ← ids] at present
  obtain ⟨call, survives, rfl⟩ := List.mem_map.1 present
  obtain ⟨front, back, split⟩ := List.append_of_mem survives
  have covered : call ∈ dedupeToolCalls serde calls ∨ callKey serde call ∈ [] ∨
      ∃ earlier ∈ front, earlier ∈ dedupeToolCalls serde calls ∧ callKey serde earlier = callKey serde call := by
    rw [dedupeToolCalls_eq]
    exact Distinct.firsts_covers [] split
  obtain stays | known | ⟨earlier, inFront, stays, same⟩ := covered
  · exact absurd (List.mem_map_of_mem stays) missing
  · exact absurd known List.not_mem_nil
  · refine ⟨call, earlier, rfl, Distinct.heaviest_sound calls call survives, stays, ?_, same⟩
    rw [← ids, split, List.map_append, List.map_cons]
    have first : [earlier.id].Sublist (front.map ToolCall.id) :=
      List.singleton_sublist.2 (List.mem_map_of_mem inFront)
    exact first.append (List.singleton_sublist.2 List.mem_cons_self)

theorem dedupeToolCalls_nonempty (serde : Serde) (calls : List ToolCall) :
    dedupeToolCalls serde calls ≠ [] ↔ calls ≠ [] := by
  constructor
  · rintro nonempty rfl
    exact nonempty rfl
  · intro nonempty nothing
    obtain ⟨first, inside⟩ := List.exists_mem_of_ne_nil calls nonempty
    obtain ⟨-, earlier, -, -, stays, -⟩ :=
      dedupeToolCalls_dropped serde calls first.id (List.mem_map_of_mem inside) (by simp [nothing])
    rw [nothing] at stays
    exact List.not_mem_nil stays

theorem dedupeToolCalls_of_nodup {serde : Serde} {calls : List ToolCall} (ids : (calls.map ToolCall.id).Nodup)
    (keys : (calls.map (callKey serde)).Nodup) : dedupeToolCalls serde calls = calls := by
  rw [dedupeToolCalls_eq, Distinct.heaviest_of_nodup ids]
  exact Distinct.firsts_of_nodup keys fun _ _ => List.not_mem_nil

theorem dedupeToolCalls_exact (serde : Serde) (calls : List ToolCall) :
    Deduplicated serde calls (dedupeToolCalls serde calls) ∧
      dedupeToolCalls serde (dedupeToolCalls serde calls) = dedupeToolCalls serde calls :=
  ⟨{ ids := dedupeToolCalls_ids serde calls
     keys := dedupeToolCalls_keys serde calls
     order := dedupeToolCalls_order serde calls
     longest := dedupeToolCalls_longest serde calls
     dropped := dedupeToolCalls_dropped serde calls
     nonempty := dedupeToolCalls_nonempty serde calls },
    dedupeToolCalls_of_nodup (dedupeToolCalls_ids serde calls) (dedupeToolCalls_keys serde calls)⟩

end KiroTrust.Translate
