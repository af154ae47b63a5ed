import KiroTrust.Cli.Env
import KiroTrust.Cli.Serve
import KiroTrust.Server.Admission
import KiroTrust.Server.Balance

set_option autoImplicit false

namespace KiroTrust.Cli

open Files (Store after replace)
open Server (sampleConfig sampleContents sampleContents_read sampleHost)
open Server (Headers Incoming Service admits apiKey authorization bearer presentedToken toStr)
open ShellWords (Mark Shell Token fish posix tokens)
open Translate (isWhitespace)

/-! `env_cmd.rs` and `exec_cmd.rs`: how a client comes by the token. -/

structure EnvArgs where
  listen : Str
  tokenFile : Option Str
  shell : Str

/-- `cmd` is not empty: clap requires a first value. -/
structure ExecArgs where
  listen : Str
  tokenFile : Option Str
  program : List UInt8
  rest : List (List UInt8)

structure Failure where
  code : Nat
  message : Str

/-- What `execvp` is called with, and what is set in the environment before. -/
structure Launch where
  program : List UInt8
  args : List (List UInt8)
  env : List (Str × Str)

variable (host : Host) (store : Store Str)

def commandPrefix (command : Str) : Str := "kiro-trust ".toList ++ command ++ ": ".toList

def clientToken (command : Str) (given : Option Str) : Except Failure Str := do
  let path ← (resolveTokenFile host given).mapError fun e =>
    ⟨2, commandPrefix command ++ e.display host.readers.debug⟩
  let token ← (readTokenFile store path).mapError fun e =>
    ⟨1, commandPrefix command ++ "cannot read token file ".toList ++ path ++ " (".toList ++ e ++
      "); is `kiro-trust serve` running?".toList⟩
  if tokenShapeIsValid token then return token
  else throw ⟨1, commandPrefix command ++ "token file ".toList ++ path ++
    " does not contain a well-formed token".toList⟩

def envRun (args : EnvArgs) : Except Failure (List Str) := do
  let token ← clientToken host store "env".toList args.tokenFile
  return exports args.shell args.listen token

def clientEnv (listen token : Str) : List (Str × Str) :=
  [("ANTHROPIC_BASE_URL".toList, "http://".toList ++ listen), ("ANTHROPIC_AUTH_TOKEN".toList, token)]

def execRun (args : ExecArgs) : Except Failure Launch := do
  let listen ← (parseListen host args.listen).mapError fun e =>
    ⟨2, commandPrefix "exec".toList ++ e.display host.readers.debug⟩
  let token ← clientToken host store "exec".toList args.tokenFile
  return ⟨args.program, args.rest, clientEnv listen.shown token⟩

def isActive : Mark → Bool
  | .active _ => true
  | _ => false

def wordText (marks : List Mark) : Option Str :=
  if marks.any isActive then none else some (marks.map Mark.char)

/-- The commands, a line each; other operators are not read. -/
def commandLines : List Str → List Token → Option (List (List Str))
  | words, [] => some (if words = [] then [] else [words])
  | words, .word marks :: rest => (wordText marks).bind fun text => commandLines (words ++ [text]) rest
  | words, .operator c :: rest =>
    if c = '\n' then (commandLines [] rest).map ((if words = [] then [] else [words]) ++ ·) else none

def exported (shell : Str) : List Str → Option (Str × Str)
  | [command, flag, name, value] =>
    if shell = "fish".toList ∧ command = "set".toList ∧ flag = "-gx".toList then some (name, value) else none
  | [command, assignment] =>
    if shell ≠ "fish".toList ∧ command = "export".toList ∧ '=' ∈ assignment then
      some (assignment.takeWhile (· ≠ '='), (assignment.dropWhile (· ≠ '=')).drop 1)
    else none
  | _ => none

def evaluate (shell text : Str) : Option (List (Str × Str)) := do
  let read ← tokens (if shell = "fish".toList then fish else posix) text
  let commands ← commandLines [] read
  commands.mapM (exported shell)

theorem literal_active {marks : List Mark} (literal : ∀ mark ∈ marks, mark.Literal) :
    marks.any isActive = false := by
  rw [List.any_eq_false]
  intro mark inside
  have taken := literal mark inside
  cases mark with
  | plain c | active c => exact taken.elim
  | escaped c | quoted c => simp [isActive]

theorem wordText_marks {marks : List Mark} (literal : ∀ mark ∈ marks, mark.Literal) (name : Str) :
    wordText (name.map .plain ++ marks) = some (name ++ marks.map Mark.char) := by
  have inactive : (name.map Mark.plain).any isActive = false := by simp [isActive, Function.comp_def]
  have chars : (name.map Mark.plain).map Mark.char = name := by simp [Function.comp_def, Mark.char]
  simp [wordText, inactive, literal_active literal, chars, -List.map_map]

theorem commandLines_word {marks : List Mark} {text : Str} (spelled : wordText marks = some text) (words : List Str)
    (rest : List Token) : commandLines words (.word marks :: rest) = commandLines (words ++ [text]) rest := by
  rw [commandLines, spelled, Option.bind_some]

theorem commandLines_plain (text : Str) (words : List Str) (rest : List Token) :
    commandLines words (plainWord text :: rest) = commandLines (words ++ [text]) rest := by
  have plain := wordText_marks (List.forall_mem_nil Mark.Literal) text
  rw [List.append_nil, List.map_nil, List.append_nil] at plain
  exact commandLines_word plain words rest

theorem commandLines_newline (words : List Str) (text : Str) (rest : List Token) :
    commandLines (words ++ [text]) (.operator '\n' :: rest) =
      (commandLines [] rest).map ((words ++ [text]) :: ·) := by
  rw [commandLines, if_pos rfl, if_neg (List.append_ne_nil_of_right_ne_nil _ (List.cons_ne_nil _ _))]
  rfl

theorem commandLines_export (name value : Str) (rest : List Token) :
    commandLines [] (plainWord "export".toList :: .word (name.map .plain ++ posixMarks value) :: .operator '\n' :: rest) =
      (commandLines [] rest).map (["export".toList, name ++ value] :: ·) := by
  have marks := wordText_marks (posixMarks_literal value) name
  rw [posixMarks_char] at marks
  rw [commandLines_plain, commandLines_word marks, commandLines_newline]
  rfl

theorem commandLines_set (name value : Str) (rest : List Token) :
    commandLines []
        (plainWord "set".toList :: plainWord "-gx".toList :: plainWord name :: .word (fishMarks value) ::
          .operator '\n' :: rest) =
      (commandLines [] rest).map (["set".toList, "-gx".toList, name, value] :: ·) := by
  have marks : wordText (fishMarks value) = some value := by
    have read := wordText_marks (fishMarks_literal value) []
    rwa [fishMarks_char] at read
  rw [commandLines_plain, commandLines_plain, commandLines_plain, commandLines_word marks,
    commandLines_newline]
  rfl

theorem exported_posix {shell : Str} (other : shell ≠ "fish".toList) {name : Str} (plain : '=' ∉ name) (value : Str) :
    exported shell ["export".toList, name ++ '=' :: value] = some (name, value) := by
  have outside : ∀ c ∈ name, decide (c ≠ '=') = true := by
    intro c inside
    exact decide_eq_true fun same => plain (same ▸ inside)
  rw [exported, if_pos ⟨other, rfl, List.mem_append_right _ List.mem_cons_self⟩, List.takeWhile_append_of_pos outside,
    List.dropWhile_append_of_pos outside]
  simp

theorem exported_fish (name value : Str) :
    exported "fish".toList ["set".toList, "-gx".toList, name, value] = some (name, value) := by
  rw [exported, if_pos ⟨rfl, rfl, rfl⟩]

theorem evaluate_exports (shell listen token : Str) :
    evaluate shell (printed (exports shell listen token)) = some (clientEnv listen token) := by
  unfold evaluate
  by_cases same : shell = "fish".toList
  · subst same
    rw [if_pos rfl, exports_fish, Option.bind_eq_bind, Option.bind_some, commandLines_set, commandLines_set]
    simp only [commandLines, if_true, Option.map_some, Option.bind_eq_bind, Option.bind_some, List.mapM_cons,
      exported_fish, List.mapM_nil]
    rfl
  · have url : "ANTHROPIC_BASE_URL=".toList = "ANTHROPIC_BASE_URL".toList ++ ['='] := by decide
    have auth : "ANTHROPIC_AUTH_TOKEN=".toList = "ANTHROPIC_AUTH_TOKEN".toList ++ ['='] := by decide
    rw [if_neg same, exports_posix same, Option.bind_eq_bind, Option.bind_some, commandLines_export,
      commandLines_export, url, auth]
    simp only [commandLines, if_true, Option.map_some, Option.bind_eq_bind, Option.bind_some, List.mapM_cons,
      List.append_assoc, List.singleton_append, List.mapM_nil]
    rw [exported_posix same (by decide), exported_posix same (by decide)]
    rfl

theorem byte_char {c : Char} (single : c.utf8Size = 1) : Char.ofNat c.val.toUInt8.toNat = c := by
  have small : c.val.toNat ≤ 127 := UInt32.le_iff_toNat_le.1 (Char.utf8Size_eq_one_iff.1 single)
  have code : c.val.toUInt8.toNat = c.val.toNat := by
    rw [UInt32.toNat_toUInt8]
    omega
  rw [code]
  exact Char.ofNat_toNat c

theorem bytes_chars {text : Str} (single : ∀ c ∈ text, c.utf8Size = 1) :
    text.bytes.map (fun b => Char.ofNat b.toNat) = text := by
  induction text with
  | nil => rfl
  | cons c rest ih =>
    obtain ⟨here, later⟩ := List.forall_mem_cons.1 single
    rw [Str.bytes, List.flatMap_cons, String.utf8EncodeChar_eq_singleton here, List.singleton_append, List.map_cons,
      byte_char here]
    exact congrArg (c :: ·) (ih later)

def isVisible (b : UInt8) : Bool := (32 ≤ b && b < 127) || b = 9

theorem isVisible_of_range {b : UInt8} (above : 32 ≤ b.toNat) (below : b.toNat < 127) : isVisible b = true := by
  have low : (32 : UInt8) ≤ b := UInt8.le_iff_toNat_le.2 above
  have high : b < 127 := UInt8.lt_iff_toNat_lt.2 below
  simp [isVisible, low, high]

theorem isVisible_ascii (b : UInt8) (visible : isVisible b = true) : b.toNat < 128 := by
  simp only [isVisible, Bool.or_eq_true, Bool.and_eq_true, decide_eq_true_eq] at visible
  obtain ⟨-, below⟩ | rfl := visible
  · exact (UInt8.lt_iff_toNat_lt.1 below).trans (by decide)
  · decide

theorem isTokenByte_visible {b : UInt8} (token : isTokenByte b = true) : isVisible b = true := by
  simp only [isTokenByte, isAsciiAlphanumeric, Bool.or_eq_true, Bool.and_eq_true, decide_eq_true_eq] at token
  rcases token with (((digit | lower) | ⟨above, upper⟩) | rfl) | rfl
  · have range := (Net.isAsciiDigit_iff b).1 digit
    exact isVisible_of_range (by omega) (by omega)
  · have range := (Net.isAsciiLowercase_iff b).1 lower
    exact isVisible_of_range (by omega) (by omega)
  · exact isVisible_of_range ((by decide : 32 ≤ 0x41).trans (UInt8.le_iff_toNat_le.1 above))
      ((UInt8.le_iff_toNat_le.1 upper).trans_lt (by decide))
  · decide
  · decide

theorem toStr_bytes {text : Str} (visible : ∀ c ∈ text, c.utf8Size = 1 ∧ isVisible c.val.toUInt8 = true) :
    toStr text.bytes = some text := by
  have all : text.bytes.all isVisible = true := (Net.bytes_all isVisible_ascii text).2 visible
  exact (if_pos all).trans (congrArg some (bytes_chars fun c inside => (visible c inside).1))

theorem bearer_visible : ∀ c ∈ bearer, c.utf8Size = 1 ∧ isVisible c.val.toUInt8 = true := Str.forall_of_all (by decide)

theorem generate_visible (random : Vector UInt8 32) :
    ∀ c ∈ generate random, c.utf8Size = 1 ∧ isVisible c.val.toUInt8 = true := by
  intro c inside
  obtain ⟨single, token, -⟩ := generate_chars random c inside
  exact ⟨single, isTokenByte_visible token⟩

def Carries (headers : Headers) (token : Str) : Prop :=
  headers.get authorization = some (bearer ++ token).bytes ∨
    headers.get authorization = none ∧ headers.get apiKey = some token.bytes

theorem carries_presented {headers : Headers} {random : Vector UInt8 32} (carries : Carries headers (generate random)) :
    presentedToken headers = some (generate random) := by
  have itself : Trimming.Padded isWhitespace (generate random) (generate random) :=
    ⟨[], [], List.forall_mem_nil _, List.forall_mem_nil _, by simp⟩
  refine Server.presentedToken_iff.2 ⟨generate_nonempty random, generate_solid random, ?_⟩
  obtain here | ⟨absent, here⟩ := carries
  · refine .inl ⟨generate random, ?_, itself⟩
    rw [Headers.text, here, Option.bind_some,
      toStr_bytes (List.forall_mem_append.2 ⟨bearer_visible, generate_visible random⟩)]
  · refine .inr ⟨fun rest => ?_, generate random, ?_, itself⟩
    · simp [Headers.text, absent]
    · rw [Headers.text, here, Option.bind_some, toStr_bytes (generate_visible random)]

variable {host} {paths : Paths} {pid : Nat} {store} {cfg : ServeConfig} {turns : ServeTurns}

theorem clientToken_generated {given : Option Str} (located : resolveTokenFile host given = .ok cfg.tokenFile)
    {random : Vector UInt8 32} (held : store cfg.tokenFile = some (generate random).bytes) (command : Str) :
    clientToken host store command given = .ok (generate random) := by
  have read := readTokenFile_token held (generate_solid random) (generate_nonempty random)
  simp only [clientToken, located, Except.mapError, read, bind, Except.bind, generate_valid, if_true]
  rfl

theorem clientToken_missing {given : Option Str} (located : resolveTokenFile host given = .ok cfg.tokenFile)
    (gone : store cfg.tokenFile = none) (command : Str) :
    ∃ failure, clientToken host store command given = .error failure ∧ failure.code = 1 := by
  simp [clientToken, located, Except.mapError, readTokenFile, gone, bind, Except.bind]

/-- The way of the token: whoever comes by it while the server listens is let in, and both commands fail later. -/
theorem clients_admitted (apart : paths.Apart pid cfg.tokenFile) (own : cfg.explicitToken = none) {given : Option Str}
    (located : resolveTokenFile host given = .ok cfg.tokenFile) {x : Service}
    (serves : x.localToken = localToken cfg turns) :
    (∀ front, front ++ [.listening] <+: serve host paths pid store cfg turns →
        (∀ listen shell, ∃ lines, envRun host (after store (fileOps front)) ⟨listen, given, shell⟩ = .ok lines ∧
          evaluate shell (printed lines) = some (clientEnv listen x.localToken)) ∧
        ∀ listen addr program rest, parseListen host listen = .ok addr →
          execRun host (after store (fileOps front)) ⟨listen, given, program, rest⟩ =
            .ok ⟨program, rest, clientEnv addr.shown x.localToken⟩) ∧
      (∀ incoming, Carries incoming.headers x.localToken → admits x incoming = true) ∧
      (∀ random incoming, random ≠ turns.random → Carries incoming.headers (generate random) →
        incoming.path ≠ Server.healthPath → admits x incoming = false) ∧
      (turns.remove = true → ∀ front event, .stopping ∈ front →
        front ++ [event] <+: serve host paths pid store cfg turns →
          (∀ listen shell, ∃ failure,
            envRun host (after store (fileOps (front ++ [event]))) ⟨listen, given, shell⟩ = .error failure ∧
              failure.code = 1) ∧
          ∀ listen addr program rest, parseListen host listen = .ok addr → ∃ failure,
            execRun host (after store (fileOps (front ++ [event]))) ⟨listen, given, program, rest⟩ = .error failure ∧
              failure.code = 1) := by
  have kept := serve_kept host store turns apart own
  have token : x.localToken = generate turns.random := by simp [serves, localToken, own]
  rw [token]
  refine ⟨fun front listening => ?_, fun incoming carries => ?_, fun random incoming other carries guarded => ?_,
    fun works front event stopped begun => ?_⟩
  · have held := kept.listening front listening
    rw [← serves, token] at held
    have read := clientToken_generated located held
    refine ⟨fun listen shell => ⟨exports shell listen (generate turns.random), ?_, evaluate_exports ..⟩,
      fun listen addr program rest parsed => ?_⟩
    · simp only [envRun, read, bind, Except.bind]
      rfl
    · simp only [execRun, parsed, Except.mapError, read, bind, Except.bind]
      rfl
  · simp [admits, token, carries_presented carries]
  · have refused : generate random ≠ generate turns.random := fun same => other (generate_injective same)
    simp [admits, guarded, token, carries_presented carries, refused]
  · have missing := clientToken_missing located (kept.stopped works front event stopped begun)
    refine ⟨fun listen shell => ?_, fun listen addr program rest parsed => ?_⟩
    · obtain ⟨failure, none, code⟩ := missing "env".toList
      exact ⟨failure, by simp only [envRun, none, bind, Except.bind], code⟩
    · obtain ⟨failure, none, code⟩ := missing "exec".toList
      exact ⟨failure, by simp only [execRun, parsed, Except.mapError, none, bind, Except.bind], code⟩

def clientService : Service := { Server.AppState.sampleService with localToken := generate sampleTurns.random }

def sampleTemp : Str := samplePaths.join "/run/user/1000/kiro-trust".toList (tempName 4242)

def sampleFront : List Event := (replace sampleTemp sampleConfig.tokenFile sampleTurns.write.pieces).map .file

theorem sample_provided :
    provide samplePaths 4242 (fun _ => none) sampleConfig sampleTurns =
      (true, replace sampleTemp sampleConfig.tokenFile sampleTurns.write.pieces) := by
  have own : sampleConfig.explicitToken = none := rfl
  have whole : sampleTurns.write.pieces.flatten = (generate sampleTurns.random).bytes := List.append_nil _
  have turns : sampleTurns.write.mkdir = true ∧ sampleTurns.write.create = true ∧ sampleTurns.write.sync = true ∧
      sampleTurns.write.rename = true := ⟨rfl, rfl, rfl, rfl⟩
  simp [provide, own, writeTokenFile, samplePaths_directory, writeTempFile, whole, turns, replace, sampleTemp]

theorem sampleFront_listening :
    sampleFront ++ [.listening] <+:
      serve (sampleHost.holding sampleContents) samplePaths 4242 (fun _ => none) sampleConfig sampleTurns := by
  have works : sampleTurns.client = true ∧ sampleTurns.salt = true ∧ sampleTurns.bind = true := ⟨rfl, rfl, rfl⟩
  rw [serve_listens (sampleContents_read _) sample_provided works]
  exact ⟨serving sampleConfig sampleTurns, List.append_assoc ..⟩

theorem clients_admitted_sample :
    let files := after (fun _ => none) (fileOps sampleFront)
    let incoming : Incoming :=
      ⟨.post, "/v1/messages".toList, [(authorization, (bearer ++ generate sampleTurns.random).bytes)], ⟨[], true⟩⟩
    (∃ lines,
      envRun (sampleHost.holding sampleContents) files ⟨"127.0.0.1:3456".toList, none, "fish".toList⟩ = .ok lines ∧
        evaluate "fish".toList (printed lines) =
          some (clientEnv "127.0.0.1:3456".toList (generate sampleTurns.random))) ∧
      admits clientService incoming = true := by
  intro files incoming
  have given : resolveTokenFile (sampleHost.holding sampleContents) none = .ok sampleConfig.tokenFile := rfl
  have serves : clientService.localToken = localToken sampleConfig sampleTurns := rfl
  obtain ⟨provided, admitted, -, -⟩ := clients_admitted samplePaths_apart rfl given serves
  exact ⟨(provided sampleFront sampleFront_listening).1 _ _, admitted incoming (.inl rfl)⟩

end KiroTrust.Cli
