import KiroTrust.Cli.Config
import KiroTrust.Shared.Base64
import KiroTrust.Shared.Files
import KiroTrust.Shared.Trimming
import KiroTrust.Translate.Request

set_option autoImplicit false

namespace KiroTrust.Cli

open EventStream (decimal)
open Files (Op Store after replace stage)
open Translate (isWhitespace trim)
open Trimming (Solid)

/-! `token.rs` -/

/-- The digits of `URL_SAFE_NO_PAD`. -/
def urlSafe (n : Fin 64) : Char :=
  if n.val < 26 then Char.ofNat ('A'.toNat + n.val)
  else if n.val < 52 then Char.ofNat ('a'.toNat + (n.val - 26))
  else if n.val < 62 then Char.ofNat ('0'.toNat + (n.val - 52))
  else if n.val = 62 then '-'
  else '_'

/-- What `generate` makes of 32 random bytes. -/
def generate (random : Vector UInt8 32) : Str := Base64.encode urlSafe random.toList

def isAsciiAlphanumeric (b : UInt8) : Bool :=
  Net.isAsciiDigit b || Net.isAsciiLowercase b || (0x41 ≤ b && b ≤ 0x5a)

def isTokenByte (b : UInt8) : Bool := isAsciiAlphanumeric b || b = 0x2d || b = 0x5f

def tokenShapeIsValid (t : Str) : Bool := t.byteLen = 43 && t.bytes.all isTokenByte

/-- `Path::parent` and `Path::join` -/
structure Paths where
  parent : Str → Option Str
  join : Str → Str → Str

/-- How the calls of a write turn out, and in which pieces `write_all` gets how far. -/
structure WriteTurns where
  mkdir : Bool
  create : Bool
  pieces : List (List UInt8)
  sync : Bool
  rename : Bool
  removeTemp : Bool

def tempName (pid : Nat) : Str := ".token.".toList ++ decimal pid ++ ".tmp".toList

def writeTempFile (store : Store Str) (turns : WriteTurns) (tmp token : Str) : Bool × List (Op Str) :=
  -- `create_new`
  if !turns.create || (store tmp).isSome then (false, [])
  else (turns.pieces.flatten = token.bytes && turns.sync, stage tmp turns.pieces)

def writeTokenFile (paths : Paths) (pid : Nat) (store : Store Str) (turns : WriteTurns) (path token : Str) :
    Bool × List (Op Str) :=
  match paths.parent path with
  | none => (false, [])
  | some dir =>
    if !turns.mkdir then (false, [])
    else
      let tmp := paths.join dir (tempName pid)
      let cleanup := if turns.removeTemp then [Op.remove tmp] else []
      let written := writeTempFile store turns tmp token
      if !written.1 || !turns.rename then (false, written.2 ++ cleanup)
      else (true, written.2 ++ [.rename tmp path])

def readTokenFile (store : Store Str) (path : Str) : Except Str Str :=
  match store path with
  | none => .error "No such file or directory (os error 2)".toList
  | some bytes =>
    match Str.fromUtf8 bytes with
    | none => .error "stream did not contain valid UTF-8".toList
    | some raw => if trim raw = [] then .error "token file is empty".toList else .ok (trim raw)

/-- A file that is not there counts as removed. -/
def removeTokenFile (works : Bool) (path : Str) : List (Op Str) := if works then [.remove path] else []

theorem urlSafe_digit (n : Fin 64) :
    (urlSafe n).utf8Size = 1 ∧ isTokenByte (urlSafe n).val.toUInt8 = true ∧ isWhitespace (urlSafe n) = false := by
  revert n
  decide +kernel

theorem urlSafe_injective : Function.Injective urlSafe := by
  intro n m same
  revert n m
  decide +kernel

theorem isTokenByte_ascii (b : UInt8) (token : isTokenByte b) : b.toNat < 128 := by
  simp only [isTokenByte, isAsciiAlphanumeric, Bool.or_eq_true, Bool.and_eq_true, decide_eq_true_eq] at token
  rcases token with (((digit | lower) | ⟨-, upper⟩) | rfl) | rfl
  · exact Net.isAsciiDigit_ascii b digit
  · exact Net.isAsciiLowercase_ascii b lower
  · exact (UInt8.le_iff_toNat_le.1 upper).trans_lt (by decide)
  · decide
  · decide

theorem generate_chars (random : Vector UInt8 32) :
    ∀ c ∈ generate random, c.utf8Size = 1 ∧ isTokenByte c.val.toUInt8 = true ∧ isWhitespace c = false := by
  intro c inside
  obtain ⟨n, rfl⟩ := Base64.encode_digits urlSafe _ c inside
  exact urlSafe_digit n

theorem generate_length (random : Vector UInt8 32) : (generate random).length = 43 := by
  simp [generate, Base64.encode_length]

theorem generate_valid (random : Vector UInt8 32) : tokenShapeIsValid (generate random) = true := by
  have single : ∀ c ∈ generate random, c.utf8Size = 1 := fun c inside => (generate_chars random c inside).1
  have bytes : (generate random).bytes.all isTokenByte = true :=
    (Net.bytes_all isTokenByte_ascii _).2 fun c inside =>
      ⟨single c inside, (generate_chars random c inside).2.1⟩
  simp [tokenShapeIsValid, Net.byteLen_of_single single, generate_length, bytes]

theorem generate_solid (random : Vector UInt8 32) : Solid isWhitespace (generate random) :=
  .of_all fun c inside => (generate_chars random c inside).2.2

theorem generate_nonempty (random : Vector UInt8 32) : generate random ≠ [] := by
  intro empty
  have long := generate_length random
  rw [empty] at long
  cases long

theorem generate_injective : Function.Injective generate := by
  intro random other same
  exact Vector.toList_inj.1 (Base64.encode_injective urlSafe_injective same)

theorem readTokenFile_token {store : Store Str} {path token : Str} (held : store path = some token.bytes)
    (solid : Solid isWhitespace token) (nonempty : token ≠ []) : readTokenFile store path = .ok token := by
  have trimmed : trim token = token :=
    Trimming.trim_iff.2 ⟨solid, [], [], List.forall_mem_nil _, List.forall_mem_nil _, by simp⟩
  simp [readTokenFile, held, Str.fromUtf8_bytes, trimmed, nonempty]

section Write

variable {paths : Paths} {pid : Nat} {store : Store Str} {turns : WriteTurns} {path token : Str}

def Paths.Apart (paths : Paths) (pid : Nat) (path : Str) : Prop :=
  ∀ dir, paths.parent path = some dir → paths.join dir (tempName pid) ≠ path

theorem writeTempFile_cases (store : Store Str) (turns : WriteTurns) (tmp token : Str) :
    writeTempFile store turns tmp token = (false, []) ∨
      writeTempFile store turns tmp token =
        (decide (turns.pieces.flatten = token.bytes) && turns.sync, stage tmp turns.pieces) := by
  unfold writeTempFile
  split
  · exact .inl rfl
  · exact .inr rfl

variable (store) (turns) (token) in
theorem writeTokenFile_cases (apart : paths.Apart pid path) :
    (∃ tmp pieces, tmp ≠ path ∧ pieces.flatten = token.bytes ∧
      writeTokenFile paths pid store turns path token = (true, replace tmp path pieces)) ∨
      ∃ ops, (∀ op ∈ ops, ¬ op.Touches path) ∧ writeTokenFile paths pid store turns path token = (false, ops) := by
  have none : ∀ op ∈ ([] : List (Op Str)), ¬ op.Touches path := List.forall_mem_nil _
  unfold writeTokenFile
  split
  next => exact .inr ⟨[], none, rfl⟩
  next dir parent =>
    have other := apart dir parent
    generalize paths.join dir (tempName pid) = tmp at other
    split
    next => exact .inr ⟨[], none, rfl⟩
    next =>
      have cleanup : ∀ op ∈ (if turns.removeTemp then [Op.remove tmp] else []), ¬ op.Touches path := by
        split
        · exact List.forall_mem_singleton.2 other
        · exact none
      obtain failed | staged := writeTempFile_cases store turns tmp token
      · simp only [failed]
        exact .inr ⟨_, cleanup, rfl⟩
      · simp only [staged]
        split
        next =>
          refine .inr ⟨_, List.forall_mem_append.2 ⟨fun op inside => ?_, cleanup⟩, rfl⟩
          exact Files.stage_touches inside other
        next fine =>
          have whole : turns.pieces.flatten = token.bytes := by
            by_contra partly
            simp [partly] at fine
          exact .inl ⟨tmp, turns.pieces, other, whole, rfl⟩

end Write

end KiroTrust.Cli
