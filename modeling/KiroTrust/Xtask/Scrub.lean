import KiroTrust.Protocol.Json
import KiroTrust.Shared.Replace
import KiroTrust.Translate.Request
import Mathlib.Data.List.DropRight

set_option autoImplicit false

namespace KiroTrust.Xtask

/-! The fixture scrubber of `xtask`. -/

def fixtureArn : Str := "arn:aws:codewhisperer:us-east-1:000000000000:profile/FIXTURE".toList
def fixtureConversationId : Str := "00000000-0000-4000-8000-00000000c0ff".toList

structure ScrubRules where
  home : Str
  hostname : Str
  conversationIds : List Str
  name : Option Str

def needle : Str := "arn:aws:codewhisperer:".toList

def closesArn (c : Char) : Bool :=
  c = '"' || c = '\'' || Translate.isWhitespace c || c = ',' || c = '\x7d'

def arnEnd (candidate : Str) : Nat := (candidate.findIdx? closesArn).getD candidate.length

theorem arnEnd_pos {candidate : Str} (found : needle <+: candidate) : 0 < arnEnd candidate := by
  obtain ⟨rest, rfl⟩ := found
  have opens : closesArn 'a' = false := by decide
  have first : needle ++ rest = 'a' :: (needle.drop 1 ++ rest) := rfl
  rw [arnEnd, first, List.findIdx?_cons, opens]
  cases (needle.drop 1 ++ rest).findIdx? closesArn <;> simp

def replaceArns (input : Str) : Str :=
  match _found : Search.find needle input with
  | none => input
  | some rel =>
    let candidate := input.drop rel
    input.take rel ++ (fixtureArn ++ replaceArns (candidate.drop (arnEnd candidate)))
termination_by input.length
decreasing_by
  have here := (Search.find_some _found).1
  have bound := here.bound
  have positive := arnEnd_pos here.2
  have long : needle.length = 22 := rfl
  simp only [List.length_drop]
  omega

section Tokens

-- `char::is_alphanumeric`, with the tables of Unicode behind it.
variable (isAlphanumeric : Char → Bool)

def isWordChar (c : Char) : Bool := isAlphanumeric c

/-- The loop of `replace_hostname_token` and of `replace_name_token`. -/
def replaceToken (placeholder input token : Str) : Str :=
  if token = [] then input
  else
    match _found : Search.find token input with
    | none => input
    | some rel =>
      let front := input.take rel
      let beforeOk := !front.getLast?.any (isWordChar isAlphanumeric)
      let after := input.drop (rel + token.length)
      let afterOk := !after.head?.any (isWordChar isAlphanumeric)
      front ++ ((if beforeOk && afterOk then placeholder else token) ++ replaceToken placeholder after token)
termination_by input.length
decreasing_by
  have bound := (Search.find_some _found).1.bound
  have positive : 0 < token.length := List.length_pos_of_ne_nil (by assumption)
  rw [List.length_drop]
  omega

def standsAlone (before after : Str) : Bool :=
  !before.getLast?.any (isWordChar isAlphanumeric) && !after.head?.any (isWordChar isAlphanumeric)

theorem replaceToken_eq (placeholder front input token : Str) :
    replaceToken isAlphanumeric placeholder input token =
      Replace.written (fun found => if standsAlone isAlphanumeric found.gap found.back then placeholder else token)
        (Replace.scan token front input) := by
  by_cases empty : token = []
  · rw [replaceToken, if_pos empty, Replace.scan, if_pos empty]
    rfl
  induction input using Replace.scan_induction empty generalizing front with
  | ends text none =>
    rw [Replace.scan_none front none, replaceToken, if_neg empty]
    split
    next => rfl
    next rel found => cases none.symm.trans found
  | finds gap back first ih =>
    rw [Replace.scan_found empty front first, Replace.written_cons, ← ih, replaceToken, if_neg empty]
    split
    next none => cases none.symm.trans first
    next rel found =>
      cases found.symm.trans first
      simp only [List.take_left, Replace.drop_behind]
      rfl

def replaceHostnameToken (input hostname : Str) : Str :=
  replaceToken isAlphanumeric "host".toList input hostname

def replaceNameToken (input name : Str) : Str :=
  replaceToken isAlphanumeric "operator".toList input name

def hostnameCandidates (hostname : Str) : List Str :=
  if hostname = [] then []
  else
    let label := hostname.takeWhile (· ≠ '.')
    if '.' ∈ hostname ∧ label ≠ [] then [hostname, label] else [hostname]

def replaceId (out id : Str) : Str := if id ≠ [] then Replace.replace id fixtureConversationId out else out

def isSeparator (c : Char) : Bool := c = '/' || c = '\\'

def ScrubRules.homePath (rules : ScrubRules) : Str := rules.home.rdropWhile isSeparator

def replaceHome (home out : Str) : Str :=
  if home ≠ [] then Replace.replace home "/home/user".toList out else out

def scrubString (rules : ScrubRules) (s : Str) : Str :=
  let out := replaceArns s
  let out := rules.conversationIds.foldl replaceId out
  let out := replaceHome rules.homePath out
  let out := (hostnameCandidates rules.hostname).foldl (replaceHostnameToken isAlphanumeric) out
  match rules.name with
  | some name => replaceNameToken isAlphanumeric out name
  | none => out

mutual

def scrubValue (rules : ScrubRules) : Value → Value
  | .string s => .string (scrubString isAlphanumeric rules s)
  | .array a => .array (scrubItems rules a)
  | .object m => .object (scrubEntries rules m)
  | .null => .null
  | .bool value => .bool value
  | .number value => .number value

def scrubItems (rules : ScrubRules) : List Value → List Value
  | [] => []
  | x :: rest => scrubValue rules x :: scrubItems rules rest

def scrubEntries (rules : ScrubRules) : List (Str × Value) → List (Str × Value)
  | [] => []
  -- The key is copied as it is.
  | (k, x) :: rest => (k, scrubValue rules x) :: scrubEntries rules rest

end

end Tokens

/-! `collect_conversation_and_utterance_ids`. -/

def isIdKey (k : Str) : Bool := k = "conversationId".toList || k = "utteranceId".toList

def idUnder (k : Str) (val : Value) : List Str :=
  match val.asStr with
  | some s => if isIdKey k ∧ s ≠ [] then [s] else []
  | none => []

mutual

def collectIds : Value → List Str
  | .object m => collectEntries m
  | .array a => collectItems a
  | .null | .bool _ | .number _ | .string _ => []

def collectEntries : List (Str × Value) → List Str
  | [] => []
  | (k, val) :: rest => idUnder k val ++ (collectIds val ++ collectEntries rest)

def collectItems : List Value → List Str
  | [] => []
  | item :: rest => collectIds item ++ collectItems rest

end

def captureRules (request payload : Value) (home hostname : Str) (name : Option Str) : ScrubRules where
  home := home
  hostname := hostname
  conversationIds := collectIds request ++ collectIds payload
  name := name.filter (· ≠ [])

end KiroTrust.Xtask
