import Mathlib.Data.List.Basic

set_option autoImplicit false

namespace ShellWords

/-! How a shell cuts its input into words, as far as unquoted text, backslashes and single quotes go. -/

structure Shell where
  -- Whether a backslash between single quotes escapes a quote or a backslash.
  escapes : Bool
  operators : List Char
  -- What begins an expansion, a pattern or a double-quoted part; none of these is read further.
  active : List Char

def posix : Shell where
  escapes := false
  operators := "\n;&|<>()".toList
  active := "$`\"*?[~".toList

def fish : Shell where
  escapes := true
  operators := "\n;&|<>()".toList
  active := "$\"*?\x7b\x7d[~".toList

inductive Mark where
  | plain (c : Char)
  | active (c : Char)
  | escaped (c : Char)
  | quoted (c : Char)
  deriving DecidableEq

def Mark.char : Mark → Char
  | .plain c | .active c | .escaped c | .quoted c => c

def Mark.Literal : Mark → Prop
  | .plain _ | .active _ => False
  | .escaped _ | .quoted _ => True

inductive Token where
  | word (marks : List Mark)
  | operator (c : Char)
  deriving DecidableEq

inductive Mode where
  | unquoted
  | backslash
  | single
  | singleBackslash
  | comment

def ended : Option (List Mark) → List Token
  | none => []
  | some marks => [.word marks]

def add (word : Option (List Mark)) (mark : Mark) : Option (List Mark) := some (word.getD [] ++ [mark])

variable (shell : Shell)

/-- `word` is what was read of the current word; nothing is returned where a quote stays open. -/
def lex : Mode → Option (List Mark) → List Char → Option (List Token)
  | .unquoted, word, [] => some (ended word)
  | .comment, _, [] => some []
  | _, _, [] => none
  | .unquoted, word, c :: rest =>
    if c = '\'' then lex .single (some (word.getD [])) rest
    else if c = '\\' then lex .backslash word rest
    else if c = '#' ∧ word = none then lex .comment none rest
    else if c = ' ' ∨ c = '\t' then (lex .unquoted none rest).map (ended word ++ ·)
    else if c ∈ shell.operators then (lex .unquoted none rest).map (ended word ++ .operator c :: ·)
    else if c ∈ shell.active then lex .unquoted (add word (.active c)) rest
    else lex .unquoted (add word (.plain c)) rest
  | .backslash, word, c :: rest =>
    -- A backslash takes the end of its line away.
    if c = '\n' then lex .unquoted word rest else lex .unquoted (add word (.escaped c)) rest
  | .single, word, c :: rest =>
    if c = '\'' then lex .unquoted word rest
    else if c = '\\' ∧ shell.escapes then lex .singleBackslash word rest
    else lex .single (add word (.quoted c)) rest
  | .singleBackslash, word, c :: rest =>
    if c = '\'' ∨ c = '\\' then lex .single (add word (.quoted c)) rest
    else lex .single (add (add word (.quoted '\\')) (.quoted c)) rest
  | .comment, _, c :: rest =>
    if c = '\n' then (lex .unquoted none rest).map (.operator c :: ·) else lex .comment none rest

def tokens (input : List Char) : Option (List Token) := lex shell .unquoted none input

def Ordinary (c : Char) : Prop :=
  c ≠ '\'' ∧ c ≠ '\\' ∧ c ≠ '#' ∧ c ≠ ' ' ∧ c ≠ '\t' ∧ c ∉ shell.operators ∧ c ∉ shell.active

instance (c : Char) : Decidable (Ordinary shell c) := inferInstanceAs (Decidable (_ ∧ _))

variable {shell}

theorem lex_unquoted (word : Option (List Mark)) (c : Char) (rest : List Char) :
    lex shell .unquoted word (c :: rest) =
      if c = '\'' then lex shell .single (some (word.getD [])) rest
      else if c = '\\' then lex shell .backslash word rest
      else if c = '#' ∧ word = none then lex shell .comment none rest
      else if c = ' ' ∨ c = '\t' then (lex shell .unquoted none rest).map (ended word ++ ·)
      else if c ∈ shell.operators then (lex shell .unquoted none rest).map (ended word ++ .operator c :: ·)
      else if c ∈ shell.active then lex shell .unquoted (add word (.active c)) rest
      else lex shell .unquoted (add word (.plain c)) rest := rfl

theorem lex_backslash (word : Option (List Mark)) (c : Char) (rest : List Char) :
    lex shell .backslash word (c :: rest) =
      if c = '\n' then lex shell .unquoted word rest else lex shell .unquoted (add word (.escaped c)) rest := rfl

theorem lex_single (word : Option (List Mark)) (c : Char) (rest : List Char) :
    lex shell .single word (c :: rest) =
      if c = '\'' then lex shell .unquoted word rest
      else if c = '\\' ∧ shell.escapes then lex shell .singleBackslash word rest
      else lex shell .single (add word (.quoted c)) rest := rfl

theorem lex_singleBackslash (word : Option (List Mark)) (c : Char) (rest : List Char) :
    lex shell .singleBackslash word (c :: rest) =
      if c = '\'' ∨ c = '\\' then lex shell .single (add word (.quoted c)) rest
      else lex shell .single (add (add word (.quoted '\\')) (.quoted c)) rest := rfl

theorem lex_opening (word : Option (List Mark)) (rest : List Char) :
    lex shell .unquoted word ('\'' :: rest) = lex shell .single (some (word.getD [])) rest := by
  rw [lex_unquoted, if_pos rfl]

theorem lex_closing (word : Option (List Mark)) (rest : List Char) :
    lex shell .single word ('\'' :: rest) = lex shell .unquoted word rest := by
  rw [lex_single, if_pos rfl]

theorem lex_escaped {c : Char} (continues : c ≠ '\n') (word : Option (List Mark)) (rest : List Char) :
    lex shell .unquoted word ('\\' :: c :: rest) = lex shell .unquoted (add word (.escaped c)) rest := by
  rw [lex_unquoted, if_neg (by decide), if_pos rfl, lex_backslash, if_neg continues]

theorem lex_quoted {c : Char} (inside : c ≠ '\'') (literal : c = '\\' → shell.escapes = false)
    (word : Option (List Mark)) (rest : List Char) :
    lex shell .single word (c :: rest) = lex shell .single (add word (.quoted c)) rest := by
  have read : ¬ (c = '\\' ∧ shell.escapes) := fun ⟨same, escapes⟩ => by simp [literal same] at escapes
  rw [lex_single, if_neg inside, if_neg read]

theorem lex_singleEscaped (escapes : shell.escapes) {c : Char} (escaped : c = '\'' ∨ c = '\\')
    (word : Option (List Mark)) (rest : List Char) :
    lex shell .single word ('\\' :: c :: rest) = lex shell .single (add word (.quoted c)) rest := by
  rw [lex_single, if_neg (by decide), if_pos ⟨rfl, escapes⟩, lex_singleBackslash, if_pos escaped]

theorem lex_ordinary {c : Char} (ordinary : Ordinary shell c) (word : Option (List Mark)) (rest : List Char) :
    lex shell .unquoted word (c :: rest) = lex shell .unquoted (add word (.plain c)) rest := by
  obtain ⟨quote, backslash, hash, blank, tab, operator, active⟩ := ordinary
  simp [lex_unquoted, quote, backslash, hash, blank, tab, operator, active]

theorem lex_ordinaries {text : List Char} (ordinary : ∀ c ∈ text, Ordinary shell c) (word : List Mark)
    (rest : List Char) :
    lex shell .unquoted (some word) (text ++ rest) = lex shell .unquoted (some (word ++ text.map .plain)) rest := by
  induction text generalizing word with
  | nil => simp
  | cons c text ih =>
    obtain ⟨here, later⟩ := List.forall_mem_cons.1 ordinary
    rw [List.cons_append, lex_ordinary here, add, ih later]
    simp

theorem lex_word {text : List Char} (nonempty : text ≠ []) (ordinary : ∀ c ∈ text, Ordinary shell c)
    (rest : List Char) :
    lex shell .unquoted none (text ++ rest) = lex shell .unquoted (some (text.map .plain)) rest := by
  obtain ⟨c, text, rfl⟩ := List.exists_cons_of_ne_nil nonempty
  obtain ⟨here, later⟩ := List.forall_mem_cons.1 ordinary
  rw [List.cons_append, lex_ordinary here, add, lex_ordinaries later]
  rfl

theorem lex_newline (operator : '\n' ∈ shell.operators) (word : Option (List Mark)) (rest : List Char) :
    lex shell .unquoted word ('\n' :: rest) =
      (lex shell .unquoted none rest).map (ended word ++ .operator '\n' :: ·) := by
  simp [lex_unquoted, operator]

theorem lex_blank (word : Option (List Mark)) (rest : List Char) :
    lex shell .unquoted word (' ' :: rest) = (lex shell .unquoted none rest).map (ended word ++ ·) := by
  simp [lex_unquoted]

end ShellWords
