import KiroTrust.Auth.Adoption
import KiroTrust.Server.Requests

set_option autoImplicit false

namespace KiroTrust.Kiro.Generate

/-! What a call of `generate_inner` keeps from one await to the next. -/

variable {x : Externals}

def awaitsToken : Phase → Bool
  | .headers _ => true
  | _ => false

structure Quiet (g : Generate) (moved : Generate × List Observation) : Prop where
  payload : moved.1.payload = g.payload
  phase : awaitsToken moved.1.phase = false
  posts : moved.2.any Observation.isPost = false

theorem Quiet.note {g : Generate} {moved : Generate × List Observation} {o : Observation} (quiet : g.Quiet moved)
    (other : o.isPost = false) : g.Quiet (moved.1, o :: moved.2) where
  payload := quiet.payload
  phase := quiet.phase
  posts := by simp [other, quiet.posts]

theorem not_headers {phase : Phase} (none : awaitsToken phase = false) (identity : Identity) :
    phase ≠ .headers identity := by
  rintro rfl
  cases none

theorem Quiet.noPosts {g : Generate} {moved : Generate × List Observation} (quiet : g.Quiet moved) (p : Post) :
    .post p ∉ moved.2 := by
  intro inside
  have found : moved.2.any Observation.isPost = true := List.any_eq_true.2 ⟨_, inside, rfl⟩
  rw [quiet.posts] at found
  cases found

theorem fail_quiet (g : Generate) (error : Server.UpstreamError) : g.Quiet (g.fail error, []) := ⟨rfl, rfl, rfl⟩

theorem pause_quiet (g : Generate) (pause : Pause) : g.Quiet (g.pause pause) := ⟨rfl, rfl, rfl⟩

theorem onResponse_quiet (g : Generate) (now : Auth.Time) (resp : Response) : g.Quiet (g.onResponse x now resp) := by
  unfold onResponse
  split
  · split <;> exact ⟨rfl, rfl, rfl⟩
  · split
    · split <;> exact ⟨rfl, rfl, rfl⟩
    · split <;> exact ⟨rfl, rfl, rfl⟩

theorem onPost_quiet (g : Generate) (now : Auth.Time) (post : Except NetError Response) :
    g.Quiet (g.onPost x now post) := by
  refine Quiet.note ?_ rfl
  cases post with
  | ok resp =>
    obtain ⟨payload, phase, posts⟩ := onResponse_quiet (x := x) { g with
      attempts := saturatingAdd g.attempts 1, progress := g.progress.map (recordCompleted · 1) } now resp
    exact ⟨payload, phase, posts⟩
  | error e =>
    cases e with
    | redirect status => exact ⟨rfl, rfl, rfl⟩
    | _ =>
      simp only
      split <;> exact ⟨rfl, rfl, rfl⟩

theorem onException_quiet (g : Generate) (read : Except NetError (List UInt8)) : g.Quiet (g.onException x read) := by
  refine Quiet.note ?_ rfl
  cases read with
  | error e => exact fail_quiet g _
  | ok raw =>
    simp only
    split
    · exact pause_quiet g _
    · exact fail_quiet g _

theorem onThrottled_quiet (g : Generate) (status : Nat) (delay : RetryDelay) (read : Except NetError (List UInt8)) :
    g.Quiet (g.onThrottled x status delay read) := by
  refine Quiet.note ?_ rfl
  split
  · exact fail_quiet g _
  · cases delay with
    | stop delay => exact fail_quiet g _
    | wait delay | fallback =>
      simp only
      split
      · exact fail_quiet g _
      · exact pause_quiet g _

theorem onRefused_quiet (g : Generate) (status : Nat) (read : Except NetError (List UInt8)) :
    g.Quiet (g.onRefused x status read) := ⟨rfl, rfl, rfl⟩

theorem headers_bearer {token : Except Auth.AuthError Str} {attempt : Nat} {invocationId : Str} {h : List (Str × Str)}
    (made : headers x token attempt invocationId = .ok h) :
    ∃ t, token = .ok t ∧ h.head? = some ("authorization".toList, "Bearer ".toList ++ t) := by
  unfold headers at made
  split at made
  next => cases made
  next t =>
    split at made
    next =>
      cases made
      exact ⟨t, rfl, rfl⟩
    next => cases made

theorem onHeaders_posts {g : Generate} {identity : Identity} {token : Except Auth.AuthError Str} {p : Post}
    (posted : .post p ∈ (g.onHeaders x identity token).2) :
    p.region = identity.runtimeRegion ∧ p.payload = g.payload ∧
      ∃ t, token = .ok t ∧ p.headers.head? = some ("authorization".toList, "Bearer ".toList ++ t) := by
  unfold onHeaders at posted
  split at posted
  next => cases posted
  next made =>
    obtain rfl : p = _ := Observation.post.inj (List.mem_singleton.1 posted)
    exact ⟨rfl, rfl, headers_bearer made⟩

theorem onHeaders_payload (g : Generate) (identity : Identity) (token : Except Auth.AuthError Str) :
    (g.onHeaders x identity token).1.payload = g.payload ∧
      awaitsToken (g.onHeaders x identity token).1.phase = false := by
  unfold onHeaders
  split <;> exact ⟨rfl, rfl⟩

end KiroTrust.Kiro.Generate

namespace KiroTrust.Server

open Auth (AuthError Credentials Cached World)
open Emitter
open Kiro (Generate Post)
open Translate (Primitives buildPayload_parts)

def SameLogin (c other : Credentials) : Prop := c.profileArn = other.profileArn ∧ c.runtimeRegion = other.runtimeRegion

structure From (p : Post) (c : Credentials) : Prop where
  region : p.region = c.runtimeRegion
  token : p.headers.head? = some ("authorization".toList, "Bearer ".toList ++ c.accessToken)
  profile : p.payload.profileArn = some c.profileArn

def Handler.IsGenerating : Handler → Prop
  | .generating _ _ _ => True
  | _ => False

variable (parse : List UInt8 → Option Auth.TokenResponse) (prims : Primitives) (x : Kiro.Externals)

namespace System

/-- The call of `current` that an action resumes. -/
def resumes (s : System) : Act → Option (Nat × World)
  | .resume request w => (s.requests request).call.map fun call => (call, w)
  | .other (.resume call w) => some (call, w)
  | _ => none

/-- The step does not replace the cached credential by one of another login while a request is in `generate`. -/
def Steady (s : System) (act : Act) : Prop :=
  match s.resumes act with
  | some (call, w) =>
    match s.tokens.source.adopts parse w (s.tokens.calls call), s.tokens.source.cached with
    | some c, some held => (∃ request, (s.requests request).IsGenerating) → SameLogin c held.creds
    | _, _ => True
  | none => True

end System

def Uses (g : Generate) (c : Credentials) : Prop :=
  g.payload.profileArn = some c.profileArn ∧ ∀ identity, g.phase = .headers identity → identity.runtimeRegion = c.runtimeRegion

def Handler.Agrees (cached : Option Cached) : Handler → Prop
  | .generating _ _ g => ∃ held, cached = some held ∧ Uses g held.creds
  | _ => True

theorem no_posts {Q : Post → Prop} : ∀ p, .post p ∈ ([] : List Kiro.Observation) → Q p :=
  fun _ inside => absurd inside List.not_mem_nil

theorem Uses.same {g : Generate} {c other : Credentials} (uses : Uses g other) (same : SameLogin c other) : Uses g c :=
  ⟨by rw [uses.1, same.1], fun identity phase => by rw [uses.2 identity phase, same.2]⟩

theorem Uses.quiet {g : Generate} {c : Credentials} {moved : Generate × List Kiro.Observation} (uses : Uses g c)
    (quiet : g.Quiet moved) : Uses moved.1 c :=
  ⟨by rw [quiet.payload, uses.1], fun identity phase => absurd phase (Generate.not_headers quiet.phase identity)⟩

theorem goOn_agrees {cached : Option Cached} {replayed : Bool} {g : Generate} {held : Cached}
    (there : cached = some held) (uses : Uses g held.creds) : (Handler.goOn replayed g).Agrees cached := by
  unfold Handler.goOn
  split
  · trivial
  · trivial
  · exact ⟨held, there, uses⟩

theorem start_uses {payload : Kiro.Payload} {c : Credentials} (invocationId : Str) (progress : Option Nat)
    (profile : payload.profileArn = some c.profileArn) : Uses (.start x payload invocationId progress) c := by
  unfold Generate.start
  split <;> exact ⟨profile, fun identity phase => absurd phase (Generate.not_headers rfl identity)⟩

theorem deliver_agrees {h : Handler} {cached : Option Cached} {result : Except AuthError Credentials}
    (agrees : h.Agrees cached) (current : ∀ c, result = .ok c → ∃ minted, cached = some ⟨c, minted⟩) :
    (h.deliver prims x result).1.Agrees cached ∧
      ∀ p, .post p ∈ (h.deliver prims x result).2 → ∃ c, result = .ok c ∧ From p c := by
  cases h with
  | idle | ended => exact ⟨trivial, no_posts⟩
  | identifying admission call =>
    cases result with
    | error e => exact ⟨trivial, no_posts⟩
    | ok c =>
      obtain ⟨minted, there⟩ := current c rfl
      simp only [Handler.deliver]
      split
      next => exact ⟨trivial, no_posts⟩
      next built made =>
        obtain ⟨parts⟩ := buildPayload_parts made
        exact ⟨goOn_agrees there (start_uses x _ _ parts.profileArn), no_posts⟩
  | generating replayed call g =>
    obtain ⟨held, there, uses⟩ := agrees
    simp only [Handler.deliver]
    cases phase : g.phase with
    | identity =>
      simp only
      cases result with
      | error e =>
        have quiet := Generate.fail_quiet g (Kiro.authError e g.attempts)
        simp only [Except.map, Generate.step, phase]
        exact ⟨goOn_agrees there (uses.quiet quiet), no_posts⟩
      | ok c =>
        obtain ⟨minted, same⟩ := current c rfl
        obtain rfl : held = ⟨c, minted⟩ := Option.some.inj (there.symm.trans same)
        simp only [Except.map, Generate.step, phase]
        refine ⟨goOn_agrees there ⟨uses.1, fun identity read => ?_⟩, no_posts⟩
        cases read
        rfl
    | headers identity =>
      simp only [Generate.step, phase]
      have payload := Generate.onHeaders_payload (x := x) g identity (result.map Credentials.accessToken)
      refine ⟨goOn_agrees there ⟨payload.1 ▸ uses.1, fun other read => absurd read (Generate.not_headers payload.2 other)⟩, ?_⟩
      intro p posted
      obtain ⟨region, sent, t, token, bearer⟩ := Generate.onHeaders_posts posted
      cases result with
      | error e => cases token
      | ok c =>
        obtain ⟨minted, same⟩ := current c rfl
        obtain rfl : held = ⟨c, minted⟩ := Option.some.inj (there.symm.trans same)
        cases token
        exact ⟨c, rfl, region.trans (uses.2 identity phase), bearer, sent ▸ uses.1⟩
    | _ =>
      simp only [Generate.step, phase]
      exact ⟨goOn_agrees there uses, no_posts⟩

namespace System

structure Steadied (s : System) (out : List Happening) : Prop where
  faithful : s.tokens.Faithful
  agrees : ∀ request, (s.requests request).Agrees s.tokens.source.cached
  posts : ∀ request p, .client request (.post p) ∈ out → ∃ c, .credential request c ∈ out ∧ From p c

def Keeps (s : System) (action : Auth.Action) : Prop :=
  ∀ call w c held, action = .resume call w → s.tokens.source.adopts parse w (s.tokens.calls call) = some c →
    s.tokens.source.cached = some held → (∃ request, (s.requests request).IsGenerating) → SameLogin c held.creds

theorem keeps_of_steady {s : System} {action : Auth.Action} (steady : s.Steady parse (.other action)) :
    s.Keeps parse action := by
  rintro call w c held rfl adopts there generating
  simp only [Steady, resumes, adopts, there] at steady
  exact steady generating

theorem keeps_other {s : System} {action : Auth.Action} (other : ∀ call w, action ≠ .resume call w) :
    s.Keeps parse action :=
  fun call w _ _ same => absurd same (other call w)

variable {parse} {x}

theorem Handler.Agrees.ofCached {h : Handler} {cached after : Option Cached} (agrees : h.Agrees cached)
    (kept : h.IsGenerating → ∀ held, cached = some held → ∃ now, after = some now ∧ SameLogin now.creds held.creds) :
    h.Agrees after := by
  cases h with
  | generating replayed call g =>
    obtain ⟨held, there, uses⟩ := agrees
    obtain ⟨now, found, same⟩ := kept trivial held there
    exact ⟨now, found, uses.same same⟩
  | _ => trivial

theorem tokens_steadied {s : System} {out : List Happening} {action : Auth.Action} (owner : Nat → Option Nat)
    (keeps : s.Keeps parse action) (steadied : s.Steadied out) :
    ({ s with tokens := (s.tokens.step parse action).1, owner } : System).Steadied out where
  faithful := Auth.State.stepped_faithful parse steadied.faithful (Auth.State.step_stepped parse _ _)
  agrees := by
    intro request
    refine Handler.Agrees.ofCached (steadied.agrees request) fun generating held there => ?_
    have stepped := Auth.State.step_stepped parse s.tokens action
    obtain same | ⟨call, w, c, resumed, adopts, minted, found⟩ := Auth.State.stepped_cached parse stepped
    · exact ⟨held, same.trans there, rfl, rfl⟩
    · exact ⟨⟨c, minted⟩, found, keeps call w c held resumed adopts there ⟨request, generating⟩⟩
  posts := steadied.posts

theorem put_steadied {s : System} (request : Nat) {h : Handler} {before : List Happening}
    {out : List Kiro.Observation} (steadied : s.Steadied before) (agrees : h.Agrees s.tokens.source.cached)
    (posts : ∀ p, .post p ∈ out → ∃ c, .credential request c ∈ before ∧ From p c) :
    (s.put parse request h out).1.Steadied (before ++ (s.put parse request h out).2) := by
  have same : (s.put parse request h out).1.tokens.source.cached = s.tokens.source.cached := by
    simp only [put]
    split <;> rfl
  refine ⟨?_, fun other => ?_, fun other p inside => ?_⟩
  · simp only [put]
    split
    · exact Auth.State.stepped_faithful parse steadied.faithful (Auth.State.step_stepped parse _ _)
    · exact steadied.faithful
  · rw [same]
    by_cases here : other = request
    · simpa only [put, here, Function.update_self] using agrees
    · simpa only [put, Function.update_of_ne here] using steadied.agrees other
  · obtain earlier | now := List.mem_append.1 inside
    · obtain ⟨c, given, sent⟩ := steadied.posts other p earlier
      exact ⟨c, List.mem_append_left _ given, sent⟩
    · obtain ⟨o, posted, same⟩ := List.mem_map.1 now
      cases same
      obtain ⟨c, given, sent⟩ := posts p posted
      exact ⟨c, List.mem_append_left _ given, sent⟩

theorem await_agrees {h : Handler} {cached : Option Cached} (call : Nat) (agrees : h.Agrees cached) :
    (h.await call).Agrees cached := by
  cases h <;> exact agrees

theorem replay_agrees {h : Handler} {cached : Option Cached} (invocationId : Str) (agrees : h.Agrees cached) :
    (h.replay x invocationId).Agrees cached := by
  unfold Handler.replay
  split
  next g =>
    obtain ⟨held, there, uses⟩ := agrees
    split
    · exact goOn_agrees there (start_uses x _ _ uses.1)
    · exact ⟨held, there, uses⟩
  next => exact agrees

end System

theorem post_uses {g : Generate} {c : Credentials} (uses : Uses g c) (now : Auth.Time)
    (result : Except Kiro.NetError Kiro.Response) :
    Uses (g.step x (.post now result)).1 c ∧ ∀ p, .post p ∉ (g.step x (.post now result)).2 := by
  simp only [Generate.step]
  split
  · exact ⟨uses.quiet (Generate.onPost_quiet g now result), (Generate.onPost_quiet g now result).noPosts⟩
  · exact ⟨uses, no_posts⟩

theorem bytes_uses {g : Generate} {c : Credentials} (uses : Uses g c) (result : Except Kiro.NetError (List UInt8)) :
    Uses (g.step x (.bytes result)).1 c ∧ ∀ p, .post p ∉ (g.step x (.bytes result)).2 := by
  simp only [Generate.step]
  split
  · exact ⟨uses.quiet (Generate.onException_quiet g result), (Generate.onException_quiet g result).noPosts⟩
  · exact ⟨uses.quiet (Generate.onThrottled_quiet g _ _ result), (Generate.onThrottled_quiet g _ _ result).noPosts⟩
  · exact ⟨uses.quiet (Generate.onRefused_quiet g _ result), (Generate.onRefused_quiet g _ result).noPosts⟩
  · exact ⟨uses, no_posts⟩

theorem wake_uses {g : Generate} {c : Credentials} (uses : Uses g c) :
    Uses (g.step x .wake).1 c ∧ ∀ p, .post p ∉ (g.step x .wake).2 := by
  simp only [Generate.step]
  split
  · exact ⟨⟨uses.1, fun identity phase => absurd phase (Generate.not_headers rfl identity)⟩, no_posts⟩
  · exact ⟨uses, no_posts⟩

namespace System

variable {parse} {prims} {x}

theorem resume_steadied {s : System} {out : List Happening} (request : Nat) (w : World)
    (steady : s.Steady parse (.resume request w)) (steadied : s.Steadied out) :
    (s.step parse prims x (.resume request w)).1.Steadied (out ++ (s.step parse prims x (.resume request w)).2) := by
  simp only [step]
  split
  next call awaits =>
    have keeps : s.Keeps parse (.resume call w) := by
      rintro _ _ c held ⟨⟩ adopts there generating
      have found : s.resumes (.resume request w) = some (call, w) := by simp [resumes, awaits]
      simp only [Steady, found, adopts, there] at steady
      exact steady generating
    have moved := tokens_steadied s.owner keeps steadied
    split
    next =>
      rw [List.append_nil]
      exact steadied
    next result returned fresh =>
      have current : ∀ c, result = .ok c → ∃ minted,
          (s.tokens.step parse (.resume call w)).1.source.cached = some ⟨c, minted⟩ := by
        rintro c rfl
        exact Auth.State.stepped_returns parse steadied.faithful (Auth.State.step_stepped parse _ _)
          (fun result => fresh result) returned
      obtain ⟨agrees, posts⟩ := deliver_agrees prims x (moved.agrees request) current
      rw [← List.append_assoc]
      refine put_steadied request ⟨moved.faithful, moved.agrees, fun other p inside => ?_⟩ agrees fun p posted => ?_
      · obtain earlier | given := List.mem_append.1 inside
        · obtain ⟨c, there, sent⟩ := moved.posts other p earlier
          exact ⟨c, List.mem_append_left _ there, sent⟩
        · cases result <;> simp [Except.toOption] at given
      · obtain ⟨c, rfl, sent⟩ := posts p posted
        exact ⟨c, by simp [Except.toOption], sent⟩
    next =>
      rw [List.append_nil]
      exact moved
  next =>
    rw [List.append_nil]
    exact steadied

theorem ask_steadied {s : System} {out : List Happening} (request call : Nat) (steadied : s.Steadied out) :
    (s.step parse prims x (.ask request call)).1.Steadied (out ++ (s.step parse prims x (.ask request call)).2) := by
  simp only [step]
  split
  · split
    · have moved := tokens_steadied (Function.update s.owner call (some request))
        (keeps_other parse (fun _ _ => Auth.Action.noConfusion) : s.Keeps parse (.call call)) steadied
      exact put_steadied request moved (await_agrees call (moved.agrees request)) no_posts
    · rw [List.append_nil]
      exact steadied
  · rw [List.append_nil]
    exact steadied

theorem input_steadied {s : System} {out : List Happening} (request : Nat) (input : Kiro.Input)
    (steadied : s.Steadied out) :
    (s.step parse prims x (.input request input)).1.Steadied (out ++ (s.step parse prims x (.input request input)).2) := by
  have same : s.Steadied (out ++ []) := by
    rw [List.append_nil]
    exact steadied
  simp only [step]
  split
  next replayed g generating =>
    have agrees := steadied.agrees request
    rw [generating] at agrees
    obtain ⟨held, there, uses⟩ := agrees
    have network (quiet : Uses (g.step x input).1 held.creds ∧ ∀ p, .post p ∉ (g.step x input).2) :
        (s.put parse request (.goOn replayed (g.step x input).1) (g.step x input).2).1.Steadied
          (out ++ (s.put parse request (.goOn replayed (g.step x input).1) (g.step x input).2).2) :=
      put_steadied request steadied (goOn_agrees there quiet.1) fun p posted => absurd posted (quiet.2 p)
    cases input with
    | identity result | token result | cancel => exact same
    | post now result => exact network (post_uses x uses now result)
    | bytes result => exact network (bytes_uses x uses result)
    | wake => exact network (wake_uses x uses)
  next => exact same

theorem other_step (s : System) (action : Auth.Action) :
    s.step parse prims x (.other action) = (s, []) ∨
      s.step parse prims x (.other action) = ({ s with tokens := (s.tokens.step parse action).1 }, []) := by
  cases action with
  | invalidate => exact .inr rfl
  | call call | resume call w | cancel call =>
    simp only [step]
    split
    · exact .inr rfl
    · exact .inl rfl

theorem drop_steadied {s : System} {out : List Happening} (request : Nat) (steadied : s.Steadied out) :
    (s.step parse prims x (.drop request)).1.Steadied (out ++ (s.step parse prims x (.drop request)).2) := by
  simp only [step]
  split
  next call awaits =>
    split
    · have moved := tokens_steadied s.owner
        (keeps_other parse (fun _ _ => Auth.Action.noConfusion) : s.Keeps parse (.cancel call)) steadied
      exact put_steadied request moved trivial no_posts
    · rw [List.append_nil]
      exact steadied
  next => exact put_steadied request steadied trivial no_posts

theorem step_steadied {s : System} {out : List Happening} (act : Act) (steady : s.Steady parse act)
    (steadied : s.Steadied out) :
    (s.step parse prims x act).1.Steadied (out ++ (s.step parse prims x act).2) := by
  have same : s.Steadied (out ++ []) := by
    rw [List.append_nil]
    exact steadied
  cases act with
  | resume request w => exact resume_steadied request w steady steadied
  | ask request call => exact ask_steadied request call steadied
  | input request input => exact input_steadied request input steadied
  | drop request => exact drop_steadied request steadied
  | arrive request admission =>
    simp only [step]
    split
    · exact put_steadied request steadied trivial no_posts
    · exact same
  | primed request =>
    simp only [step]
    split
    · split
      · exact put_steadied request steadied trivial no_posts
      · exact same
    · exact same
  | replay request invocationId =>
    exact put_steadied request steadied (replay_agrees invocationId (steadied.agrees request)) no_posts
  | other action =>
    obtain still | after := @other_step parse prims x s action
    · rw [still]
      exact same
    · rw [after, List.append_nil]
      exact tokens_steadied s.owner (keeps_of_steady parse steady) steadied

theorem new_steadied (source : Auth.TokenSource) : (new source).Steadied [] where
  faithful := Auth.State.new_faithful source
  agrees := fun _ => trivial
  posts := fun _ _ inside => absurd inside List.not_mem_nil

theorem run_steadied {s : System} {out : List Happening} {acts : List Act} (steadied : s.Steadied out)
    (steady : ∀ visit ∈ visits (step parse prims x) s acts, visit.1.Steady parse visit.2) :
    (runAll (step parse prims x) s acts).1.Steadied (out ++ (runAll (step parse prims x) s acts).2) := by
  induction acts generalizing s out with
  | nil => simpa using steadied
  | cons act rest ih =>
    obtain ⟨now, later⟩ := List.forall_mem_cons.1 steady
    have moved := ih (step_steadied act now steadied) later
    rwa [List.append_assoc] at moved

end System

/-- In a run whose steps keep the login that requests have read, each post is made with one credential, which its
request was given. -/
theorem one_credential_per_post (source : Auth.TokenSource) (acts : List Act)
    (steady : ∀ visit ∈ visits (System.step parse prims x) (System.new source) acts, visit.1.Steady parse visit.2) :
    let run := runAll (System.step parse prims x) (System.new source) acts
    ∀ request p, .client request (.post p) ∈ run.2 → ∃ c, .credential request c ∈ run.2 ∧ From p c := by
  have steadied := System.run_steadied (System.new_steadied source) steady
  exact steadied.posts

def System.calm (s : System) (act : Act) : Bool :=
  match s.resumes act with
  | some (call, w) =>
    (s.tokens.source.adopts parse w (s.tokens.calls call)).isNone || s.tokens.source.cached.isNone
  | none => true

theorem System.steady_of_calm {s : System} {act : Act} (calm : s.calm parse act = true) : s.Steady parse act := by
  unfold System.calm at calm
  unfold System.Steady
  split
  next call w resumed =>
    simp only [resumed] at calm
    split
    next adopts there => simp [adopts, there] at calm
    next => trivial
  next => trivial

def sampleExternals : Kiro.Externals where
  serde := ⟨fun _ => none, fun _ => none, fun _ => []⟩
  encode := fun _ => .ok (Str.bytes ("\x7b\"conversationState\":\x7b\"conversationId\":\"c\"," ++
    "\"chatTriggerType\":\"MANUAL\",\"agentTaskType\":\"vibe\",\"currentMessage\":\x7b\"userInputMessage\":" ++
    "\x7b\"content\":\"hi\",\"modelId\":\"m\",\"origin\":\"KIRO_CLI\"\x7d\x7d\x7d,\"profileArn\":\"arn-a\"\x7d").toList)
  headerValue := fun _ => true
  httpDate := fun _ => none
  shareContent := false

def samplePrimitives : Primitives where
  decodeBase64 := fun _ => none
  v5 := fun _ => []
  sha256 := fun _ => Vector.replicate 32 0
  serde := ⟨fun _ => none, fun _ => none, fun _ => []⟩

def sampleActs (row : Credentials) : List Act :=
  let w : World := ⟨9, .ok row, .timedOut, .timedOut⟩
  let admission : Admission :=
    { req := { messages := [⟨.user, .text "hi".toList⟩], system := none, tools := [] }
      modelId := "m".toList
      conversationId := some "c".toList
      effort := none
      invocationId := "3f2504e0-4f89-41d3-9a0c-0305e82c3301".toList }
  [.arrive 0 admission, .ask 0 0] ++ List.replicate 7 (.resume 0 w) ++ [.ask 0 1, .resume 0 w, .resume 0 w] ++
    [.ask 0 2, .resume 0 w, .resume 0 w]

def Happening.isPost : Happening → Bool
  | .client _ o => o.isPost
  | .credential _ _ => false

theorem Happening.posts {happening : Happening} (post : happening.isPost = true) :
    ∃ request p, happening = .client request (.post p) := by
  cases happening with
  | credential request creds => cases post
  | client request o =>
    cases o with
    | post p => exact ⟨request, p, rfl⟩
    | _ => cases post

def sampleRow : Credentials :=
  ⟨"a".toList, [], [], [], 1000 * Auth.second, "us-east-1".toList, "us-east-1".toList, "arn-a".toList⟩

theorem one_credential_per_post_sample :
    let run := runAll (System.step (fun _ => none) samplePrimitives sampleExternals)
      (System.new (Auth.TokenSource.new none)) (sampleActs sampleRow)
    ∃ request p, .client request (.post p) ∈ run.2 ∧ ∃ c, .credential request c ∈ run.2 ∧ From p c := by
  intro run
  have calm : (visits (System.step (fun _ => none) samplePrimitives sampleExternals)
      (System.new (Auth.TokenSource.new none)) (sampleActs sampleRow)).all
      (fun visit => visit.1.calm (fun _ => none) visit.2) = true := by decide +kernel
  have posts : run.2.any Happening.isPost = true := by decide +kernel
  have each := one_credential_per_post (fun _ => none) samplePrimitives sampleExternals (Auth.TokenSource.new none)
    (sampleActs sampleRow) fun visit inside => System.steady_of_calm _ (List.all_eq_true.1 calm visit inside)
  obtain ⟨happening, inside, post⟩ := List.any_eq_true.1 posts
  obtain ⟨request, p, rfl⟩ := Happening.posts post
  exact ⟨request, p, inside, each request p inside⟩

def switchedActs (row other : Credentials) : List Act :=
  let w : World := ⟨9, .ok other, .timedOut, .timedOut⟩
  sampleActs row ++ [.input 0 (.post 9 (.ok ⟨403, none, none, []⟩)), .ask 0 3] ++ List.replicate 6 (.resume 0 w) ++
    [.ask 0 4, .resume 0 w, .resume 0 w]

def otherRow : Credentials :=
  ⟨"b".toList, [], [], [], 2000 * Auth.second, "us-east-1".toList, "eu-central-1".toList, "arn-b".toList⟩

def Happening.destination : Happening → Option (Str × Option Str)
  | .client _ (.post p) => some (p.region, p.payload.profileArn)
  | _ => none

def Happening.login : Happening → Option (Str × Option Str)
  | .credential _ c => some (c.runtimeRegion, some c.profileArn)
  | _ => none

theorem From.given {out : List Happening} {request : Nat} {p : Post} {c : Credentials} (sent : From p c)
    (given : .credential request c ∈ out) : (p.region, p.payload.profileArn) ∈ out.filterMap Happening.login := by
  refine List.mem_filterMap.2 ⟨_, given, ?_⟩
  rw [Happening.login, sent.region, sent.profile]

/-- The post after the 403 goes to the new region with the new token, and with the old profile. -/
theorem profile_outlives_login :
    let run := runAll (System.step (fun _ => none) samplePrimitives sampleExternals)
      (System.new (Auth.TokenSource.new none)) (switchedActs sampleRow otherRow)
    ∃ request p, .client request (.post p) ∈ run.2 ∧ ¬ ∃ c, .credential request c ∈ run.2 ∧ From p c := by
  intro run
  have sent : ("eu-central-1".toList, some "arn-a".toList) ∈ run.2.filterMap Happening.destination := by decide +kernel
  have stray : ("eu-central-1".toList, some "arn-a".toList) ∉ run.2.filterMap Happening.login := by decide +kernel
  obtain ⟨happening, inside, destination⟩ := List.mem_filterMap.1 sent
  unfold Happening.destination at destination
  split at destination
  next request p =>
    refine ⟨request, p, inside, ?_⟩
    rintro ⟨c, given, drawn⟩
    rw [← Option.some.inj destination] at stray
    exact stray (drawn.given given)
  next => cases destination

end KiroTrust.Server
