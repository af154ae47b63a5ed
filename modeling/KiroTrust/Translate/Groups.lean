import Mathlib.Data.List.SplitBy
import KiroTrust.Translate.Normalize

set_option autoImplicit false

namespace KiroTrust.Translate

open Anthropic

/-! What normalization makes of the messages: groups of neighbours, and entries of its own between them. -/

def prepareMessages (serde : Serde) (msgs : List Message) (hasTools : Bool) : List Message :=
  normalizeRoles (if hasTools then textualizeOrphanToolResults none msgs else textualizeAllToolContent serde msgs)

def mergeable (a b : Message) : Bool := a.role = b.role && isPlainText a.content && isPlainText b.content

/-- One message stays as it is; several are plain text of one role. -/
inductive Joins : List Message → Message → Prop where
  | alone (m : Message) : Joins [m] m
  | run {group : List Message} {role : Role} (several : 1 < group.length)
      (same : ∀ m ∈ group, m.role = role ∧ isPlainText m.content) :
      Joins group
        { role, content := .text (List.intercalate "\n".toList (group.map fun m => extractText m.content)) }

structure Grouped (msgs merged : List Message) (groups : List (List Message)) : Prop where
  partition : groups.flatten = msgs
  joined : List.Forall₂ Joins groups merged
  apart : groups.IsChain fun g h => ∀ a ∈ g.getLast?, ∀ b ∈ h.head?, ¬ mergeable a b

inductive Placed where
  | given (m : Message)
  | synthetic (role : Role)

def Placed.message : Placed → Message
  | .given m => m
  | .synthetic role => emptyMessage role

theorem mergeable_iff {a b : Message} :
    mergeable a b ↔ a.role = b.role ∧ isPlainText a.content ∧ isPlainText b.content := by
  simp [mergeable, and_assoc]

theorem mergeable_trans {a b c : Message} (front : mergeable a b) (back : mergeable b c) : mergeable a c := by
  obtain ⟨sameFront, plain, -⟩ := mergeable_iff.1 front
  obtain ⟨sameBack, -, plainBack⟩ := mergeable_iff.1 back
  exact mergeable_iff.2 ⟨sameFront.trans sameBack, plain, plainBack⟩

theorem mergeable_symm {a b : Message} (there : mergeable a b) : mergeable b a := by
  obtain ⟨same, plain, plainBack⟩ := mergeable_iff.1 there
  exact mergeable_iff.2 ⟨same.symm, plainBack, plain⟩

theorem joinRun_joins {first : Message} {run : List Message} (same : ∀ m ∈ run, mergeable first m) :
    Joins (first :: run) (joinRun first run) := by
  rw [joinRun]
  split
  next alone =>
    subst alone
    exact .alone first
  next several =>
    obtain ⟨m, inside⟩ := List.exists_mem_of_ne_nil run several
    have plain := (mergeable_iff.1 (same m inside)).2.1
    refine .run (by simpa using List.length_pos_iff.2 several) (List.forall_mem_cons.2 ⟨⟨rfl, plain⟩, ?_⟩)
    intro m inside
    obtain ⟨sameRole, -, plain⟩ := mergeable_iff.1 (same m inside)
    exact ⟨sameRole.symm, plain⟩

theorem run_chain {first : Message} {run : List Message} (same : ∀ m ∈ run, mergeable first m) :
    (first :: run).IsChain fun a b => mergeable a b := by
  apply List.Pairwise.isChain
  refine List.pairwise_cons.2 ⟨same, ?_⟩
  exact List.pairwise_of_forall_mem_list fun a inA b inB =>
    mergeable_trans (mergeable_symm (same a inA)) (same b inB)

theorem mergeFrom_joins (first : Message) (run : List Message) (same : ∀ m ∈ run, mergeable first m)
    (msgs : List Message) :
    List.Forall₂ Joins ((first :: run ++ msgs).splitBy mergeable) (mergeFrom first run msgs) := by
  induction msgs generalizing first run with
  | nil =>
    rw [List.append_nil, List.splitBy_of_isChain (List.cons_ne_nil _ _) (run_chain same)]
    exact .cons (joinRun_joins same) .nil
  | cons m rest ih =>
    rw [mergeFrom]
    split
    next joins =>
      obtain ⟨plain, sameRole, plainNext⟩ := joins
      have grown : ∀ x ∈ run ++ [m], mergeable first x := by
        intro x inside
        obtain inRun | new := List.mem_append.1 inside
        · exact same x inRun
        · cases List.mem_singleton.1 new
          exact mergeable_iff.2 ⟨sameRole.symm, plain, plainNext⟩
      have split : first :: run ++ m :: rest = first :: (run ++ [m]) ++ rest := by simp
      rw [split]
      exact ih first (run ++ [m]) grown
    next ends =>
      -- The run's last message merges with exactly what its first one merges with.
      have closes : ∀ x ∈ (first :: run).getLast?, mergeable x m = false := by
        intro x last
        by_contra merges
        have merges : mergeable x m := by simpa using merges
        have fromFirst : mergeable first m := by
          obtain rfl | inRun := List.mem_cons.1 (List.mem_of_getLast? last)
          · exact merges
          · exact mergeable_trans (same x inRun) merges
        obtain ⟨sameRole, plain, plainNext⟩ := mergeable_iff.1 fromFirst
        exact ends ⟨plain, sameRole.symm, plainNext⟩
      rw [List.splitBy_append_cons rest closes,
        List.splitBy_of_isChain (List.cons_ne_nil _ _) (run_chain same)]
      exact .cons (joinRun_joins same) (ih m [] (List.forall_mem_nil _))

theorem mergeAdjacentSameRole_grouped (msgs : List Message) :
    Grouped msgs (mergeAdjacentSameRole msgs) (msgs.splitBy mergeable) where
  partition := List.flatten_splitBy mergeable msgs
  joined := by
    cases msgs with
    | nil => exact .nil
    | cons first rest => exact mergeFrom_joins first [] (List.forall_mem_nil _) rest
  apart := by
    refine (List.isChain_getLast_head_splitBy mergeable msgs).imp ?_
    rintro g h ⟨nonempty, nonemptyNext, differ⟩ a last b first
    rw [List.getLast_of_mem_getLast? last, List.head_of_mem_head? first] at differ
    simp [differ]

end KiroTrust.Translate
