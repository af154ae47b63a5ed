import Mathlib.Data.List.Basic
import KiroTrust.Shared.Emitter

set_option autoImplicit false

namespace Chunked

/-! Machines that are fed a stream in chunks, and decoders that keep what they cannot read yet. -/

section Feeds

variable {S A B : Type}

/-- Cutting a chunk in two changes neither the outputs nor the state reached. -/
structure Additive (feed : S → List A → S × List B) (Settled : S → Prop) : Prop where
  settles : ∀ state chunk, Settled state → Settled (feed state chunk).1
  nil : ∀ state, Settled state → feed state [] = (state, [])
  append : ∀ state left right, Settled state →
    feed state (left ++ right) =
      ((feed (feed state left).1 right).1,
        (feed state left).2 ++ (feed (feed state left).1 right).2)

theorem Additive.runAll_flatten {feed : S → List A → S × List B} {Settled : S → Prop}
    (additive : Additive feed Settled) (state : S) (settled : Settled state)
    (chunks : List (List A)) :
    Emitter.runAll feed state chunks = feed state chunks.flatten := by
  induction chunks generalizing state with
  | nil => exact (additive.nil state settled).symm
  | cons chunk rest ih =>
    have next := ih (feed state chunk).1 (additive.settles state chunk settled)
    simp only [Emitter.runAll_cons, next, List.flatten_cons,
      additive.append state chunk rest.flatten settled]

end Feeds

inductive Step (M F E : Type) where
  | more
  | fail (error : E)
  | item (value : F) (size : Nat) (mode : M)

/-- One decoding step, stable when more input arrives behind what it has read. -/
structure Decoder (M A F E : Type) where
  next : M → List A → Step M F E
  item_pos : ∀ {mode data value size after},
    next mode data = .item value size after → 0 < size
  item_le : ∀ {mode data value size after},
    next mode data = .item value size after → size ≤ data.length
  item_append : ∀ {mode data value size after} (later : List A),
    next mode data = .item value size after → next mode (data ++ later) = .item value size after
  fail_append : ∀ {mode data error} (later : List A),
    next mode data = .fail error → next mode (data ++ later) = .fail error

structure Position (M A E : Type) where
  mode : M
  rest : List A
  error : Option E

namespace Decoder

variable {M A F E : Type}

def drain (decoder : Decoder M A F E) (mode : M) (data : List A) : Position M A E × List F :=
  match _found : decoder.next mode data with
  | .more => (⟨mode, data, none⟩, [])
  | .fail error => (⟨mode, data, some error⟩, [])
  | .item value size after =>
    let later := drain decoder after (data.drop size)
    (later.1, value :: later.2)
termination_by data.length
decreasing_by
  have positive := decoder.item_pos _found
  have bounded := decoder.item_le _found
  simp only [List.length_drop]
  omega

theorem drain_more {decoder : Decoder M A F E} {mode : M} {data : List A}
    (found : decoder.next mode data = .more) :
    decoder.drain mode data = (⟨mode, data, none⟩, []) := by
  rw [drain]
  split <;> simp_all

theorem drain_fail {decoder : Decoder M A F E} {mode : M} {data : List A} {error : E}
    (found : decoder.next mode data = .fail error) :
    decoder.drain mode data = (⟨mode, data, some error⟩, []) := by
  rw [drain]
  split <;> simp_all

theorem drain_item {decoder : Decoder M A F E} {mode after : M} {data : List A} {value : F}
    {size : Nat} (found : decoder.next mode data = .item value size after) :
    decoder.drain mode data =
      ((decoder.drain after (data.drop size)).1,
        value :: (decoder.drain after (data.drop size)).2) := by
  rw [drain]
  split
  · simp_all
  · simp_all
  · next value' size' after' found' =>
    rw [found] at found'
    cases found'
    rfl

theorem drain_induction (decoder : Decoder M A F E) {motive : M → List A → Prop}
    (more : ∀ mode data, decoder.next mode data = .more → motive mode data)
    (fail : ∀ mode data error, decoder.next mode data = .fail error → motive mode data)
    (item : ∀ mode data value size after, decoder.next mode data = .item value size after →
      motive after (data.drop size) → motive mode data)
    (mode : M) (data : List A) : motive mode data := by
  induction length : data.length using Nat.strongRecOn generalizing mode data with
  | _ n ih =>
    cases found : decoder.next mode data with
    | more => exact more mode data found
    | fail error => exact fail mode data error found
    | item value size after =>
      have positive := decoder.item_pos found
      have bounded := decoder.item_le found
      have shorter : (data.drop size).length < n := by
        simp only [List.length_drop]
        omega
      exact item mode data value size after found (ih _ shorter after (data.drop size) rfl)

theorem drain_append (decoder : Decoder M A F E) (mode : M) (data later : List A) :
    decoder.drain mode (data ++ later) =
      let first := decoder.drain mode data
      let second := decoder.drain first.1.mode (first.1.rest ++ later)
      (second.1, first.2 ++ second.2) := by
  induction mode, data using decoder.drain_induction with
  | more mode data found => simp [drain_more found]
  | fail mode data error found =>
    simp [drain_fail found, drain_fail (decoder.fail_append later found)]
  | item mode data value size after found ih =>
    have bounded := decoder.item_le found
    rw [drain_item (decoder.item_append later found), drain_item found,
      List.drop_append_of_le_length bounded, ih]
    simp

theorem drain_drained (decoder : Decoder M A F E) (mode : M) (data : List A) :
    decoder.drain (decoder.drain mode data).1.mode (decoder.drain mode data).1.rest =
      ((decoder.drain mode data).1, []) := by
  induction mode, data using decoder.drain_induction with
  | more mode data found => simp [drain_more found]
  | fail mode data error found => simp [drain_fail found]
  | item mode data value size after found ih => rw [drain_item found, ih]

theorem drain_error (decoder : Decoder M A F E) (mode : M) (data : List A) :
    (match (decoder.drain mode data).1.error with
      | none => decoder.next (decoder.drain mode data).1.mode (decoder.drain mode data).1.rest = .more
      | some error =>
        decoder.next (decoder.drain mode data).1.mode (decoder.drain mode data).1.rest = .fail error) := by
  induction mode, data using decoder.drain_induction with
  | more mode data found => simpa [drain_more found] using found
  | fail mode data error found => simpa [drain_fail found] using found
  | item mode data value size after found ih => rwa [drain_item found]

def feed (decoder : Decoder M A F E) (position : Position M A E) (chunk : List A) :
    Position M A E × List F :=
  decoder.drain position.mode (position.rest ++ chunk)

def Settled (decoder : Decoder M A F E) (position : Position M A E) : Prop :=
  decoder.drain position.mode position.rest = (position, [])

theorem feed_additive (decoder : Decoder M A F E) : Additive decoder.feed decoder.Settled where
  settles position chunk _ := decoder.drain_drained position.mode (position.rest ++ chunk)
  nil position settled := by rw [feed, List.append_nil]; exact settled
  append position left right _ := by
    simp only [feed]
    rw [← List.append_assoc, drain_append]

theorem feed_failed {decoder : Decoder M A F E} {position : Position M A E} {error : E}
    (settled : decoder.Settled position) (failed : position.error = some error) (chunk : List A) :
    decoder.feed position chunk = (⟨position.mode, position.rest ++ chunk, some error⟩, []) := by
  have stuck := drain_error decoder position.mode position.rest
  rw [settled, failed] at stuck
  exact drain_fail (decoder.fail_append chunk stuck)

theorem runAll_feed_failed {decoder : Decoder M A F E} {position : Position M A E} {error : E}
    (settled : decoder.Settled position) (failed : position.error = some error)
    (chunks : List (List A)) : (Emitter.runAll decoder.feed position chunks).1.error = some error := by
  rw [(feed_additive decoder).runAll_flatten position settled, feed_failed settled failed]

section Pipes

variable {S B : Type}

def readings (read : Position M A E × List F) : List (Except E F) :=
  read.2.map .ok ++ read.1.error.toList.map .error

def pipe (decoder : Decoder M A F E) (absorb : S → Except E F → S × List B) (state : Position M A E × S)
    (chunk : List A) : (Position M A E × S) × List B :=
  let read := decoder.feed state.1 chunk
  let taken := Emitter.runAll absorb state.2 (readings read)
  ((read.1, taken.1), taken.2)

def Deaf (absorb : S → Except E F → S × List B) (state : S) : Prop :=
  ∀ reading, absorb state reading = (state, [])

theorem runAll_deaf {absorb : S → Except E F → S × List B} {state : S} (deaf : Deaf absorb state)
    (readings : List (Except E F)) : Emitter.runAll absorb state readings = (state, []) := by
  induction readings with
  | nil => rfl
  | cons reading rest ih => simp [Emitter.runAll_cons, deaf reading, ih]

theorem pipe_additive (decoder : Decoder M A F E) {absorb : S → Except E F → S × List B}
    (deafens : ∀ state error, Deaf absorb (absorb state (.error error)).1) :
    Additive (decoder.pipe absorb) fun state =>
      decoder.Settled state.1 ∧ (state.1.error.isSome = true → Deaf absorb state.2) where
  -- After a failure every chunk meets the error again, and a deaf machine does not take it in.
  settles state chunk settled := by
    refine ⟨decoder.feed_additive.settles state.1 chunk settled.1, fun failed => ?_⟩
    obtain ⟨error, same⟩ := Option.isSome_iff_exists.1 failed
    have ends : readings (decoder.feed state.1 chunk) =
        (decoder.feed state.1 chunk).2.map .ok ++ [.error error] := by
      have error : (decoder.feed state.1 chunk).1.error = some error := same
      simp [readings, error]
    simp only [pipe, ends, Emitter.runAll_append, Emitter.runAll_cons, Emitter.runAll_nil]
    exact deafens _ error
  nil state settled := by
    have same := decoder.feed_additive.nil state.1 settled.1
    simp only [pipe, same, readings, List.map_nil, List.nil_append]
    cases failed : state.1.error with
    | none => simp
    | some error =>
      have deaf := settled.2 (by simp [failed])
      simp [runAll_deaf deaf]
  append state left right settled := by
    have parts := decoder.feed_additive.append state.1 left right settled.1
    have settles := decoder.feed_additive.settles state.1 left settled.1
    simp only [pipe, parts, readings, Emitter.runAll_append, List.map_append]
    cases failed : (decoder.feed state.1 left).1.error with
    | none => simp
    | some error =>
      -- The left part has failed: the right part yields nothing, and the error is met twice.
      have again := feed_failed settles failed right
      have deaf := deafens (Emitter.runAll absorb state.2 ((decoder.feed state.1 left).2.map .ok)).1 error
      simp [again, runAll_deaf deaf, Emitter.runAll_cons]

end Pipes

end Decoder

end Chunked
