import KiroTrust.Protocol.Text
import KiroTrust.Shared.ShellWords

set_option autoImplicit false

namespace KiroTrust.Cli

open ShellWords

/-! `env_cmd.rs`: the exports that a shell evaluates. -/

def posixChar (c : Char) : Str := if c = '\'' then "'\\''".toList else [c]

def quotePosix (s : Str) : Str := '\'' :: s.flatMap posixChar ++ ['\'']

def fishChar (c : Char) : Str := if c = '\'' ∨ c = '\\' then ['\\', c] else [c]

def quoteFish (s : Str) : Str := '\'' :: s.flatMap fishChar ++ ['\'']

/-- The lines of `run`, with what the token file holds. -/
def exports (shell listen token : Str) : List Str :=
  let base := "http://".toList ++ listen
  if shell = "fish".toList then
    ["set -gx ANTHROPIC_BASE_URL ".toList ++ quoteFish base,
      "set -gx ANTHROPIC_AUTH_TOKEN ".toList ++ quoteFish token]
  else
    ["export ANTHROPIC_BASE_URL=".toList ++ quotePosix base,
      "export ANTHROPIC_AUTH_TOKEN=".toList ++ quotePosix token]

def posixMarks (s : Str) : List Mark := s.map fun c => if c = '\'' then .escaped c else .quoted c

def fishMarks (s : Str) : List Mark := s.map .quoted

theorem posixMarks_char (s : Str) : (posixMarks s).map Mark.char = s := by
  rw [posixMarks, List.map_map]
  refine List.map_id'' (fun c => ?_) s
  by_cases quote : c = '\'' <;> simp [quote, Mark.char]

theorem fishMarks_char (s : Str) : (fishMarks s).map Mark.char = s := by
  rw [fishMarks, List.map_map]
  exact List.map_id s

theorem posixMarks_literal (s : Str) : ∀ mark ∈ posixMarks s, mark.Literal := by
  intro mark inside
  obtain ⟨c, -, rfl⟩ := List.mem_map.1 inside
  by_cases quote : c = '\'' <;> simp [quote, Mark.Literal]

theorem fishMarks_literal (s : Str) : ∀ mark ∈ fishMarks s, mark.Literal := by
  intro mark inside
  obtain ⟨c, -, rfl⟩ := List.mem_map.1 inside
  trivial

theorem lex_posixBody (word : List Mark) (s rest : Str) :
    lex posix .single (some word) (s.flatMap posixChar ++ rest) =
      lex posix .single (some (word ++ posixMarks s)) rest := by
  induction s generalizing word with
  | nil => simp [posixMarks]
  | cons c s ih =>
    rw [List.flatMap_cons, List.append_assoc]
    by_cases quote : c = '\''
    · subst quote
      have closed : posixChar '\'' = ['\'', '\\', '\'', '\''] := by decide
      rw [closed]
      simp only [List.cons_append, List.nil_append]
      rw [lex_closing, lex_escaped (by decide), lex_opening, add, Option.getD_some, Option.getD_some, ih]
      simp [posixMarks]
    · rw [posixChar, if_neg quote, List.singleton_append, lex_quoted quote fun _ => rfl, add, ih]
      simp [posixMarks, quote]

theorem lex_fishBody (word : List Mark) (s rest : Str) :
    lex fish .single (some word) (s.flatMap fishChar ++ rest) =
      lex fish .single (some (word ++ fishMarks s)) rest := by
  induction s generalizing word with
  | nil => simp [fishMarks]
  | cons c s ih =>
    rw [List.flatMap_cons, List.append_assoc]
    by_cases escaped : c = '\'' ∨ c = '\\'
    · rw [fishChar, if_pos escaped]
      simp only [List.cons_append, List.nil_append]
      rw [lex_singleEscaped rfl escaped, add, ih]
      simp [fishMarks]
    · obtain ⟨quote, backslash⟩ := not_or.1 escaped
      rw [fishChar, if_neg escaped, List.singleton_append, lex_quoted quote fun same => absurd same backslash, add, ih]
      simp [fishMarks]

theorem lex_quotePosix (word : Option (List Mark)) (s rest : Str) :
    lex posix .unquoted word (quotePosix s ++ rest) =
      lex posix .unquoted (some (word.getD [] ++ posixMarks s)) rest := by
  rw [quotePosix, List.cons_append, List.cons_append, List.append_assoc, lex_opening, lex_posixBody]
  exact lex_closing _ rest

theorem lex_quoteFish (word : Option (List Mark)) (s rest : Str) :
    lex fish .unquoted word (quoteFish s ++ rest) =
      lex fish .unquoted (some (word.getD [] ++ fishMarks s)) rest := by
  rw [quoteFish, List.cons_append, List.cons_append, List.append_assoc, lex_opening, lex_fishBody]
  exact lex_closing _ rest

/-- `input` is one word, every character of which is taken as it stands, and these spell `value`. -/
def OneWord (shell : Shell) (input value : Str) : Prop :=
  ∃ marks, tokens shell input = some [.word marks] ∧ marks.map Mark.char = value ∧ ∀ mark ∈ marks, mark.Literal

theorem quote_one_word (s : Str) : OneWord posix (quotePosix s) s ∧ OneWord fish (quoteFish s) s := by
  constructor
  · refine ⟨posixMarks s, ?_, posixMarks_char s, posixMarks_literal s⟩
    have read := lex_quotePosix none s []
    rwa [List.append_nil] at read
  · refine ⟨fishMarks s, ?_, fishMarks_char s, fishMarks_literal s⟩
    have read := lex_quoteFish none s []
    rwa [List.append_nil] at read

def printed (lines : List Str) : Str := lines.flatMap (· ++ ['\n'])

def plainWord (text : Str) : Token := .word (text.map .plain)

theorem lex_export {name : Str} (nonempty : name ≠ []) (ordinary : ∀ c ∈ name, Ordinary posix c)
    (value rest : Str) :
    lex posix .unquoted none ("export ".toList ++ (name ++ (quotePosix value ++ '\n' :: rest))) =
      (lex posix .unquoted none rest).map
        ([plainWord "export".toList, .word (name.map .plain ++ posixMarks value), .operator '\n'] ++ ·) := by
  have command : "export ".toList = "export".toList ++ [' '] := by decide
  rw [command, List.append_assoc, lex_word (by decide) (Str.forall_of_all (by decide)), List.singleton_append, lex_blank,
    lex_word nonempty ordinary, lex_quotePosix, lex_newline (by decide), Option.map_map]
  rfl

theorem lex_set {name : Str} (nonempty : name ≠ []) (ordinary : ∀ c ∈ name, Ordinary fish c) (value rest : Str) :
    lex fish .unquoted none ("set -gx ".toList ++ (name ++ (' ' :: (quoteFish value ++ '\n' :: rest)))) =
      (lex fish .unquoted none rest).map
        ([plainWord "set".toList, plainWord "-gx".toList, plainWord name, .word (fishMarks value),
          .operator '\n'] ++ ·) := by
  have command : "set -gx ".toList = "set".toList ++ (' ' :: ("-gx".toList ++ [' '])) := by decide
  rw [command, List.append_assoc, lex_word (by decide) (Str.forall_of_all (by decide)), List.cons_append, lex_blank,
    List.append_assoc, lex_word (by decide) (Str.forall_of_all (by decide)), List.singleton_append, lex_blank,
    lex_word nonempty ordinary, lex_blank, lex_quoteFish, lex_newline (by decide)]
  simp only [Option.map_map]
  rfl

theorem exports_posix {shell : Str} (other : shell ≠ "fish".toList) (listen token : Str) :
    tokens posix (printed (exports shell listen token)) =
      some
        [plainWord "export".toList,
          .word ("ANTHROPIC_BASE_URL=".toList.map .plain ++ posixMarks ("http://".toList ++ listen)),
          .operator '\n', plainWord "export".toList,
          .word ("ANTHROPIC_AUTH_TOKEN=".toList.map .plain ++ posixMarks token), .operator '\n'] := by
  have base : "export ANTHROPIC_BASE_URL=".toList = "export ".toList ++ "ANTHROPIC_BASE_URL=".toList := by decide
  have auth : "export ANTHROPIC_AUTH_TOKEN=".toList = "export ".toList ++ "ANTHROPIC_AUTH_TOKEN=".toList := by
    decide
  rw [tokens, exports, if_neg other, base, auth]
  simp only [printed, List.flatMap_cons, List.flatMap_nil, List.append_assoc, List.singleton_append]
  rw [lex_export (by decide) (Str.forall_of_all (by decide)), lex_export (by decide) (Str.forall_of_all (by decide))]
  rfl

theorem exports_fish (listen token : Str) :
    tokens fish (printed (exports "fish".toList listen token)) =
      some
        [plainWord "set".toList, plainWord "-gx".toList, plainWord "ANTHROPIC_BASE_URL".toList,
          .word (fishMarks ("http://".toList ++ listen)), .operator '\n', plainWord "set".toList,
          plainWord "-gx".toList, plainWord "ANTHROPIC_AUTH_TOKEN".toList, .word (fishMarks token),
          .operator '\n'] := by
  have base : "set -gx ANTHROPIC_BASE_URL ".toList =
      "set -gx ".toList ++ ("ANTHROPIC_BASE_URL".toList ++ [' ']) := by decide
  have auth : "set -gx ANTHROPIC_AUTH_TOKEN ".toList =
      "set -gx ".toList ++ ("ANTHROPIC_AUTH_TOKEN".toList ++ [' ']) := by decide
  rw [tokens, exports, if_pos rfl, base, auth]
  simp only [printed, List.flatMap_cons, List.flatMap_nil, List.append_assoc, List.cons_append,
    List.nil_append]
  rw [lex_set (by decide) (Str.forall_of_all (by decide)), lex_set (by decide) (Str.forall_of_all (by decide))]
  rfl

end KiroTrust.Cli
