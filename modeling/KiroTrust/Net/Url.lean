import KiroTrust.Net.Region

set_option autoImplicit false

namespace KiroTrust.Net

/-! `destination.rs`, and where a request of `client.rs` goes. -/

inductive Destination where
  | oidc (ssoRegion : Region)
  | runtime (region : RuntimeRegion)

def Destination.host : Destination → Str
  | .oidc ssoRegion => "oidc.".toList ++ ssoRegion.str ++ ".amazonaws.com".toList
  | .runtime region => "runtime.".toList ++ region.region.str ++ ".kiro.dev".toList

structure Policy where
  loopbackPort : Option Nat

def Policy.production : Policy := ⟨none⟩

inductive NetError where
  | badPath (host : Str)

/-- What the URL type of the HTTP library shows of a URL. -/
structure ParsedUrl where
  username : Str
  password : Option Str
  hostStr : Option Str
  portOrKnownDefault : Option Nat

section Client

-- `reqwest::Url::parse`
variable (parseUrl : Str → Option ParsedUrl) (policy : Policy)

def url (dest : Destination) (path : Str) : Str :=
  match policy.loopbackPort with
  | some port => "http://127.0.0.1:".toList ++ (toString port).toList ++ path
  | none => "https://".toList ++ dest.host ++ path

def expected (dest : Destination) : Str × Nat :=
  match policy.loopbackPort with
  | some port => ("127.0.0.1".toList, port)
  | none => (dest.host, 443)

def pathAllowed (path : Str) : Bool :=
  "/".toList.isPrefixOf path && !"//".toList.isPrefixOf path && !path.any (· ∈ "@?#\\".toList)

def checkedUrl (dest : Destination) (path : Str) : Except NetError ParsedUrl :=
  let bad := NetError.badPath dest.host
  if ¬ pathAllowed path then .error bad
  else
    match parseUrl (url policy dest path) with
    | none => .error bad
    | some url =>
      let (expectedHost, expectedPort) := expected policy dest
      if url.username ≠ [] ∨ url.password.isSome ∨ url.hostStr ≠ some expectedHost ∨
          url.portOrKnownDefault ≠ some expectedPort then .error bad
      else .ok url

end Client

def authority (text : Str) : Option Str :=
  if "https://".toList <+: text then some ((text.drop 8).takeWhile (· ∉ "/?#\\".toList)) else none

def HostChar (c : Char) : Prop := c ∈ letters ∨ c ∈ figures ∨ c = '.' ∨ c = '-'

structure KnownHost (host : Str) : Prop where
  chars : ∀ c ∈ host, HostChar c
  noUserinfo : '@' ∉ host
  noPort : ':' ∉ host
  family : ".amazonaws.com".toList <:+ host ∨ ".kiro.dev".toList <:+ host

instance (c : Char) : Decidable (HostChar c) := inferInstanceAs (Decidable (_ ∨ _))

theorem Region.parse_ok {s : Str} {r : Region} : Region.parse s = .ok r ↔ r.str = s := by
  constructor
  · intro parsed
    rw [Region.parse] at parsed
    split at parsed
    · cases parsed
      rfl
    · cases parsed
  · rintro rfl
    rw [Region.parse]
    split
    · rfl
    next e failed => simp [r.checked] at failed

theorem Region.parse_iff (s : Str) :
    (∃ r, Region.parse s = .ok r ∧ r.str = s) ↔ s.byteLen ≤ 32 ∧ s ∈ regionPattern.matches' := by
  rw [← checkRegion_iff]
  constructor
  · rintro ⟨r, -, rfl⟩
    exact r.checked
  · intro checked
    exact ⟨⟨s, checked⟩, Region.parse_ok.2 rfl, rfl⟩

theorem RuntimeRegion.parse_iff (s : Str) :
    (∃ r, RuntimeRegion.parse s = .ok r ∧ r.region.str = s) ↔
      (s.byteLen ≤ 32 ∧ s ∈ regionPattern.matches') ∧ s ∈ runtimeAllowlist := by
  rw [← Region.parse_iff]
  constructor
  · rintro ⟨r, -, rfl⟩
    exact ⟨⟨r.region, Region.parse_ok.2 rfl, rfl⟩, r.served⟩
  · rintro ⟨⟨r, parsed, rfl⟩, served⟩
    refine ⟨⟨r, served⟩, ?_, rfl⟩
    rw [RuntimeRegion.parse, parsed]
    exact dif_pos served

theorem Region.hostChars (r : Region) : ∀ c ∈ r.str, HostChar c := by
  obtain ⟨-, inPattern⟩ := (checkRegion_iff r.str).1 r.checked
  obtain ⟨a, b, gov, c, tail, n, split, letterA, letterB, government, letterC, letterTail, figure⟩ :=
    (mem_regionPattern r.str).1 inPattern
  have govChars : ∀ c ∈ gov, HostChar c := by
    obtain rfl | rfl := government
    · exact List.forall_mem_nil _
    · exact Str.forall_of_all (by decide)
  have dashChars : ∀ c ∈ "-".toList, HostChar c := Str.forall_of_all (by decide)
  rw [split]
  simp only [List.forall_mem_append, List.forall_mem_singleton]
  exact ⟨⟨⟨⟨⟨⟨.inl letterA, .inl letterB⟩, govChars⟩, dashChars⟩, .inl letterC, fun c inside => .inl (letterTail c inside)⟩,
    dashChars⟩, .inr (.inl figure)⟩

theorem Destination.hostChars (dest : Destination) : ∀ c ∈ dest.host, HostChar c := by
  cases dest with
  | oidc ssoRegion =>
    exact List.forall_mem_append.2 ⟨List.forall_mem_append.2 ⟨Str.forall_of_all (by decide), ssoRegion.hostChars⟩,
      Str.forall_of_all (by decide)⟩
  | runtime region =>
    exact List.forall_mem_append.2 ⟨List.forall_mem_append.2 ⟨Str.forall_of_all (by decide), region.region.hostChars⟩,
      Str.forall_of_all (by decide)⟩

theorem Destination.host_known (dest : Destination) : KnownHost dest.host where
  chars := dest.hostChars
  noUserinfo inside := absurd (dest.hostChars '@' inside) (by decide)
  noPort inside := absurd (dest.hostChars ':' inside) (by decide)
  family := by
    cases dest with
    | oidc ssoRegion => exact .inl (List.suffix_append _ _)
    | runtime region => exact .inr (List.suffix_append _ _)

theorem authority_url (dest : Destination) {path : Str} (allowed : pathAllowed path) :
    authority (url .production dest path) = some dest.host := by
  have absolute : "/".toList <+: path := by
    simp only [pathAllowed, Bool.and_eq_true] at allowed
    exact List.isPrefixOf_iff_prefix.1 allowed.1.1
  obtain ⟨rest, rfl⟩ := absolute
  have text : url .production dest ("/".toList ++ rest) = "https://".toList ++ (dest.host ++ ("/".toList ++ rest)) :=
    List.append_assoc _ _ _
  have ends : ("/".toList ++ rest).takeWhile (fun c => decide (c ∉ "/?#\\".toList)) = [] := rfl
  rw [text, authority, if_pos (List.prefix_append _ _)]
  have dropped : ("https://".toList ++ (dest.host ++ ("/".toList ++ rest))).drop 8 = dest.host ++ ("/".toList ++ rest) :=
    List.drop_left' rfl
  rw [dropped, List.takeWhile_append_of_pos, ends, List.append_nil]
  intro c inside
  have delimiters : ∀ c ∈ "/?#\\".toList, ¬ HostChar c := Str.forall_of_all (by decide)
  exact decide_eq_true fun delimiter => delimiters c delimiter (dest.hostChars c inside)

theorem checkedUrl_production {parseUrl : Str → Option ParsedUrl} {dest : Destination} {path : Str}
    {parsed : ParsedUrl} (ok : checkedUrl parseUrl .production dest path = .ok parsed) :
    parseUrl (url .production dest path) = some parsed ∧ authority (url .production dest path) = some dest.host ∧
      parsed = ⟨[], none, some dest.host, some 443⟩ := by
  by_cases allowed : pathAllowed path
  · cases parses : parseUrl (url .production dest path) with
    | none => simp [checkedUrl, allowed, parses] at ok
    | some found =>
      simp only [checkedUrl, allowed, not_true, if_false, parses] at ok
      split at ok
      next => cases ok
      next same =>
        cases ok
        simp only [not_or, not_not] at same
        obtain ⟨username, password, host, port⟩ := same
        refine ⟨rfl, authority_url dest allowed, ?_⟩
        cases parsed
        simp_all [expected, Policy.production]
  · simp [checkedUrl, allowed] at ok

/-- Whatever is sent goes to a host of the two families: regions match their pattern, and a path that passes the
checks leaves the authority as it is. -/
theorem bearer_hosts :
    (∀ s, (∃ r, Region.parse s = .ok r ∧ r.str = s) ↔ s.byteLen ≤ 32 ∧ s ∈ regionPattern.matches') ∧
      (∀ s, (∃ r, RuntimeRegion.parse s = .ok r ∧ r.region.str = s) ↔
        (s.byteLen ≤ 32 ∧ s ∈ regionPattern.matches') ∧ s ∈ runtimeAllowlist) ∧
      ∀ dest path, pathAllowed path →
        authority (url .production dest path) = some dest.host ∧ KnownHost dest.host :=
  ⟨Region.parse_iff, RuntimeRegion.parse_iff, fun dest _ allowed => ⟨authority_url dest allowed, dest.host_known⟩⟩

theorem bearer_hosts_sample :
    let region : RuntimeRegion := ⟨⟨"us-gov-west-1".toList, by decide +kernel⟩, by decide⟩
    authority (url .production (.runtime region) "/generateAssistantResponse".toList) =
      some "runtime.us-gov-west-1.kiro.dev".toList :=
  (bearer_hosts.2.2 _ _ (by decide +kernel)).1

end KiroTrust.Net
