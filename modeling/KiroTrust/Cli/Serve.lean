import KiroTrust.Cli.Token
import KiroTrust.Server.Traffic

set_option autoImplicit false

namespace KiroTrust.Cli

open Files (Op Removes Store after replace)
open Server (sampleConfig sampleContents sampleHost)

/-! `serve.rs`: what a server does to its token file, from its start to its end. -/

/-- How serving ends: with an error, or by a signal, and then with the last connection or at the deadline. -/
inductive Ending where
  | failed
  | drained (ok : Bool)
  | deadline

/-- How everything outside turns out, from `Client::new` on. -/
structure ServeTurns where
  client : Bool
  random : Vector UInt8 32
  write : WriteTurns
  salt : Bool
  bind : Bool
  ending : Ending
  -- Whether the file can be removed, where that is tried once or first, and the second time.
  remove : Bool
  removeAgain : Bool

inductive Event where
  | file (op : Op Str)
  | listening
  | stopping
  | exited (ok : Bool)

def Event.op : Event → Option (Op Str)
  | .file op => some op
  | _ => none

def fileOps (events : List Event) : List (Op Str) := events.filterMap Event.op

variable (host : Host) (paths : Paths) (pid : Nat) (store : Store Str) (cfg : ServeConfig) (turns : ServeTurns)

def localToken : Str := cfg.explicitToken.getD (generate turns.random)

def provide : Bool × List (Op Str) :=
  match cfg.explicitToken with
  | some _ => (true, [])
  | none => writeTokenFile paths pid store turns.write cfg.tokenFile (generate turns.random)

def cleanUp (works : Bool) : List Event :=
  if cfg.explicitToken.isNone then (removeTokenFile works cfg.tokenFile).map .file else []

def serving : List Event :=
  match turns.ending with
  | .failed => cleanUp cfg turns.remove ++ [.exited false]
  | .drained ok => .stopping :: cleanUp cfg turns.remove ++ cleanUp cfg turns.removeAgain ++ [.exited ok]
  | .deadline => .stopping :: cleanUp cfg turns.remove ++ [.exited true]

/-- `run` -/
def serve : List Event :=
  match readCredentials host cfg.dbPath with
  | .error _ => [.exited false]
  | .ok _ =>
    if !turns.client then [.exited false]
    else
      let provided := provide paths pid store cfg turns
      let written := provided.2.map Event.file
      if !provided.1 then written ++ [.exited false]
      else if !turns.salt || !turns.bind then written ++ cleanUp cfg turns.remove ++ [.exited false]
      else written ++ .listening :: serving cfg turns

theorem fileOps_append (front back : List Event) : fileOps (front ++ back) = fileOps front ++ fileOps back :=
  List.filterMap_append

theorem fileOps_files (ops : List (Op Str)) : fileOps (ops.map .file) = ops := by
  simp [fileOps, List.filterMap_map, Function.comp_def, Event.op]

theorem fileOps_first {front events : List Event} (begun : front <+: events) : fileOps front <+: fileOps events := by
  obtain ⟨rest, rfl⟩ := begun
  rw [fileOps_append]
  exact List.prefix_append _ _

variable {host} {paths} {pid} {store} {cfg} {turns}

variable (cfg) in
theorem cleanUp_removes (works : Bool) : Removes cfg.tokenFile (fileOps (cleanUp cfg works)) := by
  unfold cleanUp
  split
  · rw [fileOps_files]
    unfold removeTokenFile
    split
    · exact List.forall_mem_singleton.2 rfl
    · exact List.forall_mem_nil _
  · exact List.forall_mem_nil _

theorem serving_removes : Removes cfg.tokenFile (fileOps (serving cfg turns)) := by
  have once := cleanUp_removes cfg
  have last : ∀ ok, fileOps [.exited ok] = [] := fun _ => rfl
  have signal : ∀ rest, fileOps (.stopping :: rest) = fileOps rest := fun _ => rfl
  intro op inside
  unfold serving at inside
  split at inside <;>
    simp only [List.cons_append, signal, fileOps_append, last, List.append_nil, List.mem_append] at inside
  next => exact once _ op inside
  next =>
    obtain first | second := inside
    · exact once _ op first
    · exact once _ op second
  next => exact once _ op inside

theorem serve_given {token : Str} (given : cfg.explicitToken = some token) :
    fileOps (serve host paths pid store cfg turns) = [] := by
  have none : ∀ works, cleanUp cfg works = [] := fun works => by simp [cleanUp, given]
  have quiet : fileOps (serving cfg turns) = [] := by
    unfold serving
    split <;> simp [none, fileOps, Event.op]
  unfold serve provide
  simp only [given, none]
  split
  next => rfl
  next =>
    split
    next => rfl
    next =>
      simp only [List.map_nil, List.nil_append]
      split
      next => rfl
      next => split <;> first | rfl | exact quiet

variable (host) (store) (turns) in
theorem serve_cases (apart : paths.Apart pid cfg.tokenFile) (own : cfg.explicitToken = none) :
    (∃ ops : List (Op Str), (∀ op ∈ ops, ¬ op.Touches cfg.tokenFile) ∧
        serve host paths pid store cfg turns = ops.map .file ++ [.exited false]) ∨
      ∃ tmp pieces, tmp ≠ cfg.tokenFile ∧ pieces.flatten = (localToken cfg turns).bytes ∧
        ∃ rest, serve host paths pid store cfg turns = (replace tmp cfg.tokenFile pieces).map .file ++ rest ∧
          (rest = cleanUp cfg turns.remove ++ [.exited false] ∨ rest = .listening :: serving cfg turns) := by
  have untouched : ∀ op ∈ ([] : List (Op Str)), ¬ op.Touches cfg.tokenFile := List.forall_mem_nil _
  have token : localToken cfg turns = generate turns.random := by simp [localToken, own]
  unfold serve provide
  simp only [own, token]
  split
  next => exact .inl ⟨[], untouched, rfl⟩
  next =>
    split
    next => exact .inl ⟨[], untouched, rfl⟩
    next =>
      obtain ⟨tmp, pieces, other, whole, written⟩ | ⟨ops, alone, failed⟩ :=
        writeTokenFile_cases store turns.write (generate turns.random) apart
      · rw [written]
        refine .inr ⟨tmp, pieces, other, whole, ?_⟩
        simp only [Bool.not_true, Bool.false_eq_true, if_false]
        split
        next => exact ⟨_, List.append_assoc .., .inl rfl⟩
        next => exact ⟨_, rfl, .inr rfl⟩
      · rw [failed]
        exact .inl ⟨ops, alone, rfl⟩

theorem cleanUp_own (own : cfg.explicitToken = none) : cleanUp cfg true = [.file (.remove cfg.tokenFile)] := by
  simp [cleanUp, removeTokenFile, own]

theorem serving_signal (own : cfg.explicitToken = none) (works : turns.remove = true) :
    (∃ rest, serving cfg turns = .stopping :: .file (.remove cfg.tokenFile) :: rest) ∨
      .stopping ∉ serving cfg turns ∧ .file (.remove cfg.tokenFile) ∈ serving cfg turns := by
  unfold serving
  rw [works, cleanUp_own own]
  split
  next => exact .inr (by simp)
  next => exact .inl ⟨_, rfl⟩
  next => exact .inl ⟨_, rfl⟩

theorem serving_stopped (own : cfg.explicitToken = none) (works : turns.remove = true) {front : List Event}
    {event : Event} (stopped : .stopping ∈ front) (begun : front ++ [event] <+: serving cfg turns) :
    .remove cfg.tokenFile ∈ fileOps (front ++ [event]) := by
  obtain ⟨rest, signal⟩ | ⟨never, -⟩ := serving_signal own works
  · rw [signal] at begun
    cases front with
    | nil => cases stopped
    | cons first more =>
      rw [List.cons_append, List.cons_prefix_cons] at begun
      obtain ⟨rfl, begun⟩ := begun
      obtain empty | ⟨after, same, -⟩ := List.prefix_cons_iff.1 begun
      · simp at empty
      · rw [List.cons_append, same]
        exact List.mem_cons_self
  · exact absurd (begun.subset (List.mem_append_left _ stopped)) never

variable (store) (cfg) in
/-- What the token file holds after these events; a crash can follow each of them. -/
def tokenFileAfter (events : List Event) : Option (List UInt8) := after store (fileOps events) cfg.tokenFile

variable (store) (cfg) (turns) in
structure Kept (events : List Event) : Prop where
  whole : ∀ front, front <+: events →
    tokenFileAfter store cfg front = store cfg.tokenFile ∨ tokenFileAfter store cfg front = none ∨
      tokenFileAfter store cfg front = some (localToken cfg turns).bytes
  listening : ∀ front, front ++ [.listening] <+: events →
    tokenFileAfter store cfg front = some (localToken cfg turns).bytes
  -- The first thing that happens behind the signal is that the file goes.
  stopped : turns.remove = true → ∀ front event, .stopping ∈ front → front ++ [event] <+: events →
    tokenFileAfter store cfg (front ++ [event]) = none
  ended : turns.remove = true →
    tokenFileAfter store cfg events = none ∨
      tokenFileAfter store cfg events = store cfg.tokenFile ∧ .listening ∉ events

theorem not_file {event : Event} (other : event.op = none) (ops : List (Op Str)) : event ∉ ops.map .file := by
  intro inside
  obtain ⟨op, -, rfl⟩ := List.mem_map.1 inside
  cases other

theorem kept_quiet {ops : List (Op Str)} (alone : ∀ op ∈ ops, ¬ op.Touches cfg.tokenFile) :
    Kept store cfg turns (ops.map .file ++ [.exited false]) := by
  have same : fileOps (ops.map .file ++ [.exited false]) = ops := by
    rw [fileOps_append, fileOps_files]
    exact List.append_nil ops
  have silent : ∀ event : Event, event.op = none → event ≠ .exited false →
      event ∉ ops.map .file ++ [.exited false] := by
    intro event other going inside
    obtain file | last := List.mem_append.1 inside
    · exact not_file other ops file
    · exact going (List.mem_singleton.1 last)
  have unchanged : ∀ front, front <+: ops.map .file ++ [.exited false] →
      tokenFileAfter store cfg front = store cfg.tokenFile := by
    intro front begun
    have first := fileOps_first begun
    rw [same] at first
    exact Files.after_untouched (fun op inside => alone op (first.subset inside)) store
  constructor
  case whole => exact fun front begun => .inl (unchanged front begun)
  case listening => exact fun front begun => absurd (begun.subset (by simp)) (silent .listening rfl (by simp))
  case stopped =>
    intro _ front event stopped begun
    exact absurd (begun.subset (List.mem_append_left _ stopped)) (silent .stopping rfl (by simp))
  case ended => exact fun _ => .inr ⟨unchanged _ (List.prefix_refl _), silent _ rfl (by simp)⟩

theorem behind_files {ops : List (Op Str)} {rest front : List Event} (begun : front <+: ops.map .file ++ rest)
    {event : Event} (other : event.op = none) (inside : event ∈ front) :
    ∃ more, front = ops.map .file ++ more ∧ more <+: rest ∧ event ∈ more := by
  obtain early | ⟨more, rfl, later⟩ := Files.prefix_cases begun
  · exact absurd (early.subset inside) (not_file other ops)
  · exact ⟨more, rfl, later, (List.mem_append.1 inside).resolve_left (not_file other ops)⟩

variable (cfg) in
theorem cleanUp_silent {event : Event} (other : event.op = none) (works : Bool) : event ∉ cleanUp cfg works := by
  unfold cleanUp
  split
  · exact not_file other _
  · exact List.not_mem_nil

theorem serving_listening : .listening ∉ serving cfg turns := by
  have silent := cleanUp_silent cfg (rfl : Event.listening.op = none)
  unfold serving
  split <;> simp [silent]

theorem kept_replaced (own : cfg.explicitToken = none) {tmp : Str} {pieces : List (List UInt8)}
    (other : tmp ≠ cfg.tokenFile) (token : pieces.flatten = (localToken cfg turns).bytes) {rest : List Event}
    (follows : rest = cleanUp cfg turns.remove ++ [.exited false] ∨ rest = .listening :: serving cfg turns) :
    Kept store cfg turns ((replace tmp cfg.tokenFile pieces).map .file ++ rest) := by
  have removes : Removes cfg.tokenFile (fileOps rest) := by
    obtain rfl | rfl := follows
    · rw [fileOps_append]
      exact List.forall_mem_append.2 ⟨cleanUp_removes cfg turns.remove, List.forall_mem_nil _⟩
    · exact serving_removes
  have split : ∀ more, tokenFileAfter store cfg ((replace tmp cfg.tokenFile pieces).map .file ++ more) =
      after (after store (replace tmp cfg.tokenFile pieces)) (fileOps more) cfg.tokenFile := by
    intro more
    rw [tokenFileAfter, fileOps_append, fileOps_files, Files.after_append]
  constructor
  case whole =>
    intro front begun
    have first := fileOps_first begun
    rw [fileOps_append, fileOps_files] at first
    rw [← token]
    exact Files.replace_removed other store removes first
  case listening =>
    intro front begun
    obtain ⟨more, same, later, inside⟩ := behind_files begun (rfl : Event.listening.op = none) (by simp)
    obtain rfl | rfl := follows
    · obtain clean | last := List.mem_append.1 (later.subset inside)
      · exact absurd clean (cleanUp_silent cfg rfl turns.remove)
      · cases List.mem_singleton.1 last
    · obtain rfl | ⟨behind, rfl, served⟩ := List.prefix_cons_iff.1 later
      · cases inside
      · obtain rfl | ⟨first, last, rfl⟩ := List.eq_nil_or_concat behind
        · have front : front = (replace tmp cfg.tokenFile pieces).map .file := List.append_cancel_right same
          subst front
          have held := split []
          rw [List.append_nil] at held
          rw [held, ← token]
          exact Files.replace_target other store
        · have final : last = .listening := by
            simpa [List.getLast?_cons] using (congrArg List.getLast? same).symm
          subst final
          exact absurd (served.subset (by simp)) serving_listening
  case stopped =>
    intro works front event stopped begun
    have earlier := (List.prefix_append front [event]).trans begun
    obtain ⟨more, rfl, -, inside⟩ := behind_files earlier (rfl : Event.stopping.op = none) stopped
    rw [List.append_assoc] at begun ⊢
    have later := (List.prefix_append_right_inj _).1 begun
    have gone : .remove cfg.tokenFile ∈ fileOps (more ++ [event]) := by
      obtain rfl | rfl := follows
      · have never := cleanUp_silent cfg (rfl : Event.stopping.op = none) turns.remove
        have inside := later.subset (List.mem_append_left _ inside)
        simp [never] at inside
      · cases more with
        | nil => cases inside
        | cons first behind =>
          rw [List.cons_append, List.cons_prefix_cons] at later
          obtain ⟨rfl, served⟩ := later
          have stopped : .stopping ∈ behind := by simpa using inside
          have removed := serving_stopped own works stopped served
          exact removed
    rw [split]
    exact Removes.after_mem (fun op called => removes op ((fileOps_first later).subset called)) gone _
  case ended =>
    intro works
    have called : .file (.remove cfg.tokenFile) ∈ rest := by
      obtain rfl | rfl := follows
      · rw [works, cleanUp_own own]
        exact List.mem_cons_self
      · obtain ⟨rest, signal⟩ | ⟨-, removed⟩ := serving_signal own works
        · simp [signal]
        · exact List.mem_cons_of_mem _ removed
    have gone : .remove cfg.tokenFile ∈ fileOps rest := List.mem_filterMap.2 ⟨_, called, rfl⟩
    rw [split]
    exact .inl (removes.after_mem gone _)

theorem serve_listens {creds : Auth.Credentials} (read : readCredentials host cfg.dbPath = .ok creds) {ops : List (Op Str)}
    (provided : provide paths pid store cfg turns = (true, ops))
    (works : turns.client = true ∧ turns.salt = true ∧ turns.bind = true) :
    serve host paths pid store cfg turns = ops.map .file ++ .listening :: serving cfg turns := by
  simp [serve, read, provided, works]

variable (host) (store) (turns) in
theorem serve_kept (apart : paths.Apart pid cfg.tokenFile) (own : cfg.explicitToken = none) :
    Kept store cfg turns (serve host paths pid store cfg turns) := by
  obtain ⟨ops, alone, quiet⟩ | ⟨tmp, pieces, other, token, rest, run, follows⟩ :=
    serve_cases host store turns apart own
  · rw [quiet]
    exact kept_quiet alone
  · rw [run]
    exact kept_replaced own other token follows

/-- Only a token of the server's own making is ever in the file, whole or not at all, and it goes with the server. -/
theorem token_file_lifecycle (apart : paths.Apart pid cfg.tokenFile) :
    (∀ token, cfg.explicitToken = some token → fileOps (serve host paths pid store cfg turns) = []) ∧
      (cfg.explicitToken = none → Kept store cfg turns (serve host paths pid store cfg turns)) :=
  ⟨fun _ given => serve_given given, serve_kept host store turns apart⟩

def samplePaths : Paths where
  parent path := if path = "/run/user/1000/kiro-trust/token".toList then some "/run/user/1000/kiro-trust".toList else none
  join dir name := dir ++ '/' :: name

def sampleTurns : ServeTurns where
  client := true
  random := Vector.replicate 32 7
  write := ⟨true, true, [(generate (Vector.replicate 32 7)).bytes], true, true, true⟩
  salt := true
  bind := true
  ending := .drained true
  remove := true
  removeAgain := true

theorem samplePaths_directory : samplePaths.parent sampleConfig.tokenFile = some "/run/user/1000/kiro-trust".toList := rfl

theorem samplePaths_apart : samplePaths.Apart 4242 sampleConfig.tokenFile := by
  intro dir parent
  rw [samplePaths_directory] at parent
  cases parent
  decide +kernel

theorem token_file_lifecycle_sample :
    Kept (fun _ => none) sampleConfig sampleTurns
      (serve (sampleHost.holding sampleContents) samplePaths 4242 (fun _ => none) sampleConfig sampleTurns) :=
  (token_file_lifecycle samplePaths_apart).2 rfl

end KiroTrust.Cli
