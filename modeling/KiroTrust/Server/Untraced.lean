import KiroTrust.Server.Replay

set_option autoImplicit false

namespace KiroTrust.Kiro.Generate

/-! The counter of posts steers nothing. -/

variable {x : Externals}

def forget (g : Generate) : Generate := { g with progress := none }

end KiroTrust.Kiro.Generate

namespace KiroTrust.Server

open Emitter Translate
open Tracking (RequestUsageGuard Outcome Transition noUsage)

def forgetGuard (g : RequestUsageGuard) : RequestUsageGuard := { g with progress := 0 }

def Stage.forget : Stage → Stage
  | .generating g => .generating g.forget
  | stage => stage

def Seen.forget : Seen → Seen
  | .settled t => .settled { t with retries := 0 }
  | o => o

structure Alike (h other : Handling) : Prop where
  payload : h.payload = other.payload
  replayed : h.replayed = other.replayed
  usage : forgetGuard h.usage = forgetGuard other.usage
  stage : h.stage.forget = other.stage.forget

structure Agree (moved other : Handling × List Seen) : Prop where
  alike : Alike moved.1 other.1
  seen : moved.2.map Seen.forget = other.2.map Seen.forget

theorem update_forget {g other : RequestUsageGuard} (same : forgetGuard g = forgetGuard other)
    (usage : UsageSnapshot) (outputBytes : Nat) :
    forgetGuard (g.update usage outputBytes) = forgetGuard (other.update usage outputBytes) :=
  congrArg (fun g : RequestUsageGuard => g.update usage outputBytes) same

theorem settle_forget {g other : RequestUsageGuard} (same : forgetGuard g = forgetGuard other) (outcome : Outcome)
    (elapsed : Nat) :
    forgetGuard (settle g outcome elapsed).1 = forgetGuard (settle other outcome elapsed).1 ∧
      (settle g outcome elapsed).2.map Seen.forget = (settle other outcome elapsed).2.map Seen.forget := by
  obtain ⟨modelIndex, usage, outputBytes, progress, terminal⟩ := g
  obtain ⟨_, _, _, _, _⟩ := other
  cases same
  rw [settle_eq, settle_eq]
  cases terminal <;> exact ⟨rfl, rfl⟩

theorem Alike.put {h other : Handling} (alike : Alike h other) {usage changed : RequestUsageGuard}
    (same : forgetGuard usage = forgetGuard changed) (stage : Stage) :
    Alike { h with usage, stage } { other with usage := changed, stage } :=
  ⟨alike.payload, alike.replayed, same, rfl⟩

theorem Alike.observed {h other : Handling} (alike : Alike h other) (snapshot : UsageSnapshot) (outputBytes : Nat) :
    Alike { h with usage := h.usage.update snapshot outputBytes }
      { other with usage := other.usage.update snapshot outputBytes } :=
  ⟨alike.payload, alike.replayed, update_forget alike.usage snapshot outputBytes, alike.stage⟩

theorem Alike.settles {h other : Handling} (alike : Alike h other) {g changed : RequestUsageGuard}
    (same : forgetGuard g = forgetGuard changed) (outcome : Outcome) (elapsed : Nat) (stage : Stage) (rest : List Seen) :
    Agree ({ h with usage := (settle g outcome elapsed).1, stage }, (settle g outcome elapsed).2 ++ rest)
      ({ other with usage := (settle changed outcome elapsed).1, stage }, (settle changed outcome elapsed).2 ++ rest) := by
  obtain ⟨guards, seen⟩ := settle_forget same outcome elapsed
  refine ⟨alike.put guards stage, ?_⟩
  rw [List.map_append, List.map_append, seen]

theorem Agree.after {moved other : Handling × List Seen} (agree : Agree moved other) (out : List Seen) :
    Agree (moved.1, out ++ moved.2) (other.1, out ++ other.2) where
  alike := agree.alike
  seen := by rw [List.map_append, List.map_append, agree.seen]

namespace Handling

variable {r : Route} {h other : Handling}

end Handling

def visible (out : List Seen) : List Seen := (out.filter Seen.shown).map Seen.forget

namespace Handling

theorem Factors.calls {r : Route} {payload : Kiro.Payload} {modelIndex : Tracking.ModelIndex} {turns : List Turn}
    {made : List Kiro.Payload} {run last : Handling × List Seen}
    (factors : Factors r payload modelIndex turns made run last) :
    Server.calls run.2 = made ++ [withoutConversation payload] ∧
      ∃ f, (primings run.2).head? = some (.failed f) ∧ retryable f = true := by
  obtain ⟨earlier, elapsed, late, later, completed, split, rfl⟩ := factors.alone
  obtain ⟨silent, f, rfl, unshown, made, failed, again⟩ := factors.run
  refine ⟨?_, f, ?_, again⟩
  · rw [calls_append, made, handle_calls]
  · rw [primings_append, failed]
    rfl

end Handling

end KiroTrust.Server
