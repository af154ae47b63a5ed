import KiroTrust.Xtask.Scrub

set_option autoImplicit false

namespace KiroTrust.Xtask

open Replace (Apart Spliced)

/-! What a scrubbed value still tells of its owner. -/

inductive Place where
  | value
  | key
  deriving DecidableEq

mutual

def texts : Value → List (Place × Str)
  | .string s => [(.value, s)]
  | .array a => itemTexts a
  | .object m => entryTexts m
  | .null | .bool _ | .number _ => []

def itemTexts : List Value → List (Place × Str)
  | [] => []
  | x :: rest => texts x ++ itemTexts rest

def entryTexts : List (Str × Value) → List (Place × Str)
  | [] => []
  | (k, x) :: rest => (.key, k) :: (texts x ++ entryTexts rest)

end

def placeholders : List Str :=
  [fixtureArn, fixtureConversationId, "/home/user".toList, "host".toList, "operator".toList]

def ScrubRules.secrets (rules : ScrubRules) : List Str := rules.homePath :: rules.conversationIds

/-- No secret has anything in common with what is written in its place. -/
def ScrubRules.Distinct (rules : ScrubRules) : Prop :=
  ∀ secret ∈ rules.secrets, ∀ holder ∈ placeholders, Apart secret holder

def Leaks (rules : ScrubRules) (text : Str) : Prop := ∃ secret ∈ rules.secrets, secret <:+: text

instance (rules : ScrubRules) (text : Str) : Decidable (Leaks rules text) :=
  inferInstanceAs (Decidable (∃ secret ∈ rules.secrets, secret <:+: text))

section Strings

variable (isAlphanumeric : Char → Bool)

theorem replaceToken_spliced (placeholder input token : Str) :
    Spliced placeholder input (replaceToken isAlphanumeric placeholder input token) := by
  rw [replaceToken_eq isAlphanumeric placeholder [] input token]
  refine Replace.rewrite_spliced (fun found => ?_) input
  split
  · exact .inl rfl
  · exact .inr rfl

theorem replaceId_spliced (out id : Str) : Spliced fixtureConversationId out (replaceId out id) := by
  unfold replaceId
  split
  · exact Replace.replace_spliced _ _
  · exact .whole _

theorem replaceHome_spliced (home out : Str) : Spliced "/home/user".toList out (replaceHome home out) := by
  unfold replaceHome
  split
  · exact Replace.replace_spliced _ _
  · exact .whole _

theorem foldl_absent {secret holder : Str} (apart : Apart secret holder) {step : Str → Str → Str}
    (spliced : ∀ out item, Spliced holder out (step out item)) (items : List Str) {out : Str}
    (absent : ¬ secret <:+: out) : ¬ secret <:+: items.foldl step out := by
  induction items generalizing out with
  | nil => exact absent
  | cons item rest ih => exact ih ((spliced out item).absent apart absent)

theorem replaceIds_removes {secret : Str} (apart : Apart secret fixtureConversationId) {ids : List Str}
    (inside : secret ∈ ids) (out : Str) : ¬ secret <:+: ids.foldl replaceId out := by
  induction ids generalizing out with
  | nil => cases inside
  | cons id rest ih =>
    obtain rfl | later := List.mem_cons.1 inside
    · refine foldl_absent apart replaceId_spliced rest ?_
      rw [replaceId, if_pos apart.nonempty]
      exact Replace.replace_absent apart out
    · exact ih later (replaceId out id)

theorem scrubString_removes {rules : ScrubRules} (distinct : rules.Distinct) (s : Str) :
    ¬ Leaks rules (scrubString isAlphanumeric rules s) := by
  rintro ⟨secret, inside, leaked⟩
  revert leaked
  have apart := distinct secret inside
  have apartId : Apart secret fixtureConversationId := apart _ (by simp [placeholders])
  have apartHome : Apart secret "/home/user".toList := apart _ (by simp [placeholders])
  have apartHost : Apart secret "host".toList := apart _ (by simp [placeholders])
  have apartName : Apart secret "operator".toList := apart _ (by simp [placeholders])
  have clean : ¬ secret <:+: replaceHome rules.homePath (rules.conversationIds.foldl replaceId (replaceArns s)) := by
    obtain rfl | among := List.mem_cons.1 inside
    · rw [replaceHome, if_pos apartHome.nonempty]
      exact Replace.replace_absent apartHome _
    · exact (replaceHome_spliced _ _).absent apartHome (replaceIds_removes apartId among _)
  have hidden := foldl_absent apartHost (replaceToken_spliced isAlphanumeric "host".toList)
    (hostnameCandidates rules.hostname) clean
  unfold scrubString
  split
  next name named => exact (replaceToken_spliced isAlphanumeric _ _ name).absent apartName hidden
  next => exact hidden

def scrubText (rules : ScrubRules) : Place × Str → Place × Str
  | (.value, s) => (.value, scrubString isAlphanumeric rules s)
  | (.key, k) => (.key, k)

mutual

theorem texts_scrubValue (rules : ScrubRules) (v : Value) :
    texts (scrubValue isAlphanumeric rules v) = (texts v).map (scrubText isAlphanumeric rules) := by
  match v with
  | .string s => rfl
  | .array a => exact itemTexts_scrubItems rules a
  | .object m => exact entryTexts_scrubEntries rules m
  | .null | .bool _ | .number _ => rfl

theorem itemTexts_scrubItems (rules : ScrubRules) (a : List Value) :
    itemTexts (scrubItems isAlphanumeric rules a) = (itemTexts a).map (scrubText isAlphanumeric rules) := by
  match a with
  | [] => rfl
  | x :: rest =>
    rw [scrubItems, itemTexts, itemTexts, texts_scrubValue rules x, itemTexts_scrubItems rules rest, List.map_append]

theorem entryTexts_scrubEntries (rules : ScrubRules) (m : List (Str × Value)) :
    entryTexts (scrubEntries isAlphanumeric rules m) = (entryTexts m).map (scrubText isAlphanumeric rules) := by
  match m with
  | [] => rfl
  | (k, x) :: rest =>
    rw [scrubEntries, entryTexts, entryTexts, texts_scrubValue rules x, entryTexts_scrubEntries rules rest,
      List.map_cons, List.map_append, scrubText]

end

theorem scrubbed_iff (rules : ScrubRules) (distinct : rules.Distinct) (v : Value) :
    (∀ text ∈ texts (scrubValue isAlphanumeric rules v), ¬ Leaks rules text.2) ↔
      ∀ key, (.key, key) ∈ texts v → ¬ Leaks rules key := by
  rw [texts_scrubValue]
  constructor
  · intro clean key inside
    exact clean (.key, key) (List.mem_map.2 ⟨_, inside, rfl⟩)
  · intro keys text inside
    obtain ⟨⟨place, text⟩, source, rfl⟩ := List.mem_map.1 inside
    cases place with
    | value => exact scrubString_removes isAlphanumeric distinct text
    | key => exact keys text source

end Strings

inductive Holds : Value → Str → Value → Prop where
  | entry {m : List (Str × Value)} {k : Str} {x : Value} (inside : (k, x) ∈ m) : Holds (.object m) k x
  | within {m : List (Str × Value)} {k other : Str} {x y : Value} (inside : (other, y) ∈ m) (deeper : Holds y k x) :
      Holds (.object m) k x
  | item {a : List Value} {k : Str} {x y : Value} (inside : y ∈ a) (deeper : Holds y k x) : Holds (.array a) k x

theorem idUnder_string {k s : Str} (idKey : isIdKey k = true) (nonempty : s ≠ []) : s ∈ idUnder k (.string s) := by
  simp [idUnder, Value.asStr, idKey, nonempty]

theorem collectEntries_mem {m : List (Str × Value)} {k id : Str} {x : Value} (inside : (k, x) ∈ m)
    (found : id ∈ idUnder k x ∨ id ∈ collectIds x) : id ∈ collectEntries m := by
  induction m with
  | nil => cases inside
  | cons entry rest ih =>
    obtain ⟨key, val⟩ := entry
    simp only [collectEntries, List.mem_append]
    rcases List.mem_cons.1 inside with here | later
    · cases here
      rcases found with under | deeper
      · exact .inl under
      · exact .inr (.inl deeper)
    · exact .inr (.inr (ih later))

theorem collectItems_mem {a : List Value} {id : Str} {x : Value} (inside : x ∈ a) (found : id ∈ collectIds x) :
    id ∈ collectItems a := by
  induction a with
  | nil => cases inside
  | cons item rest ih =>
    rw [collectItems, List.mem_append]
    rcases List.mem_cons.1 inside with rfl | later
    · exact .inl found
    · exact .inr (ih later)

theorem collectIds_complete {v : Value} {k id : Str} (idKey : isIdKey k = true) (nonempty : id ≠ [])
    (holds : Holds v k (.string id)) : id ∈ collectIds v := by
  generalize named : Value.string id = x at holds
  induction holds with
  | entry inside =>
    subst named
    exact collectEntries_mem inside (.inl (idUnder_string idKey nonempty))
  | within inside _ ih => exact collectEntries_mem inside (.inr (ih idKey named))
  | item inside _ ih => exact collectItems_mem inside (ih idKey named)

/-- No string value that `scrub_value` writes contains an id of the request or the payload it was recorded for. -/
theorem capture_hides (isAlphanumeric : Char → Bool) (request payload : Value) (home hostname : Str)
    (name : Option Str) (distinct : (captureRules request payload home hostname name).Distinct) {k id : Str}
    (idKey : isIdKey k = true) (nonempty : id ≠ [])
    (recorded : Holds request k (.string id) ∨ Holds payload k (.string id))
    (v : Value) {s : Str}
    (inside : (.value, s) ∈ texts (scrubValue isAlphanumeric (captureRules request payload home hostname name) v)) :
    ¬ id <:+: s := by
  rw [texts_scrubValue] at inside
  obtain ⟨⟨place, text⟩, -, scrubbed⟩ := List.mem_map.1 inside
  have collected : id ∈ (captureRules request payload home hostname name).secrets := by
    refine List.mem_cons_of_mem _ (List.mem_append.2 ?_)
    exact recorded.imp (collectIds_complete idKey nonempty) (collectIds_complete idKey nonempty)
  cases place with
  | key => cases scrubbed
  | value =>
    cases scrubbed
    exact fun contained => scrubString_removes isAlphanumeric distinct text ⟨id, collected, contained⟩

def aliceRules : ScrubRules :=
  ⟨"/home/alice/".toList, "laptop".toList, ["conv-1".toList], none⟩

theorem aliceRules_distinct : aliceRules.Distinct := by
  intro secret inside holder among
  revert holder
  revert secret
  decide

def aliceRequest : Value := .object [("conversationId".toList, .string "conv-1".toList)]

theorem collectIds_alice : collectIds aliceRequest = ["conv-1".toList] := by
  have idKey : isIdKey "conversationId".toList = true := by decide +kernel
  simp only [aliceRequest, collectIds, collectEntries, idUnder, Value.asStr, idKey]
  rfl

theorem captureRules_alice :
    captureRules aliceRequest .null "/home/alice/".toList "laptop".toList none = aliceRules := by
  rw [captureRules, collectIds_alice]
  rfl

theorem capture_hides_conversation :
    let rules := captureRules aliceRequest .null "/home/alice/".toList "laptop".toList none
    ∃ s, (.value, s) ∈ texts (scrubValue Char.isAlphanum rules (.string "in conv-1".toList)) ∧
      ¬ "conv-1".toList <:+: s := by
  intro rules
  have inside : (.value, scrubString Char.isAlphanum rules "in conv-1".toList) ∈
      texts (scrubValue Char.isAlphanum rules (.string "in conv-1".toList)) := by
    rw [scrubValue, texts]
    exact List.mem_singleton_self _
  have distinct : rules.Distinct := by
    rw [show rules = aliceRules from captureRules_alice]
    exact aliceRules_distinct
  have recorded : Holds aliceRequest "conversationId".toList (.string "conv-1".toList) := .entry List.mem_cons_self
  exact ⟨_, inside, capture_hides _ _ _ _ _ _ distinct (by decide +kernel) (by decide) (.inl recorded) _ inside⟩

theorem scrubbed_sample :
    scrubString Char.isAlphanum aliceRules "/home/alice/x".toList = "/home/user/x".toList ∧
      ∀ text ∈ texts
          (scrubValue Char.isAlphanum aliceRules (.object [("cwd".toList, .string "/home/alice/x".toList)])),
        ¬ Leaks aliceRules text.2 := by
  refine ⟨by decide +kernel, (scrubbed_iff Char.isAlphanum aliceRules aliceRules_distinct _).2 ?_⟩
  intro key inside
  have named : key = "cwd".toList := by simpa [texts, entryTexts] using inside
  subst named
  decide

/-- A tool's input that has a path for a key keeps the home directory. -/
theorem key_leaks :
    aliceRules.Distinct ∧ aliceRules.secrets.Pairwise Apart ∧
      ∃ text ∈ texts (scrubValue Char.isAlphanum aliceRules (.object [("/home/alice/notes".toList, .bool true)])),
        Leaks aliceRules text.2 :=
  ⟨aliceRules_distinct, by decide, (.key, "/home/alice/notes".toList), List.mem_cons_self, by decide⟩

end KiroTrust.Xtask
