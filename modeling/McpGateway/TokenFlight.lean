import Mathlib
import McpGateway.PyText
import McpGateway.PyDict
import McpGateway.StepRun
import McpGateway.AuthProviders

/-!
# Concurrent requests for one token

Any number of tasks ask one client credentials provider for headers. A task
suspends while it waits for the lock and while its token request is under way,
and only then does time pass. The lock admits its waiters in order of arrival.
The token is read after the lock has been given back, but in the same turn of
its task.
-/

namespace McpGateway.TokenFlight

open PyText PyDict StepRun AuthProviders

/-- The client secret a fetch begins with, or its exception. -/
def secretFor (p : OAuth2ClientCredentialsProvider) (environ : Environ) :
    Except ProviderException String :=
  match p.clientSecretEnv with
  | none => .error (.other "str expected, not NoneType")
  | some name =>
    if present (environ name)=true then .ok (orText (environ name) "")
    else .error (.auth ("OAuth2 client secret env var '"++name++"' unset"))

/-- The token a fetch ends with, or its exception. -/
def readToken (answered : ℚ) : TokenReply→Except ProviderException TokenCache
  | .raised error => .error error
  | .body accessToken expiresIn =>
    if present accessToken=true then .ok ⟨orText accessToken "",answered+expiresIn.getD 3600⟩
    else .error (.auth "OAuth2 response missing access_token")

/-- A fetch is the two parts around its request. -/
theorem fetch_parts (p : OAuth2ClientCredentialsProvider) (w : World) :
    p.fetch w=match secretFor p w.environ with
      | .error error => .error error
      | .ok secret => readToken w.answered (w.tokenEndpoint p.tokenUrl (p.form secret)) := by
  unfold OAuth2ClientCredentialsProvider.fetch secretFor readToken
  cases p.clientSecretEnv with
  | none => rfl
  | some name =>
    dsimp only
    by_cases hs : present (w.environ name)=true
    · rewrite [if_pos hs,if_pos hs]
      rfl
    · rw [if_neg hs,if_neg hs]

/-- A provider with the tasks that ask it for headers. -/
structure TokenState where
  /-- The provider with its cached token. -/
  provider : OAuth2ClientCredentialsProvider
  /-- Monotonic clock. -/
  clock : ℚ
  /-- Whether `_lock` is held. -/
  locked : Bool := false
  /-- Tasks waiting for `_lock`, the first one first. -/
  waiters : List ℕ := []
  /-- Tasks whose token request is under way. -/
  inFlight : List ℕ := []

/-- What happens next. -/
inductive Action where
  /-- A task calls `get_headers`. -/
  | call (task : ℕ) (environ : Environ)
  /-- The first waiter runs again. -/
  | resume (environ : Environ)
  /-- The token request of a task ends. -/
  | reply (task : ℕ) (answer : TokenReply)
  /-- A suspended task is cancelled. -/
  | cancel (task : ℕ)
  /-- Time passes. -/
  | wait (elapsed : ℚ)

/-- What can be seen of a step. -/
inductive Event where
  /-- A task sends a token request with the form fields. -/
  | fetchStarted (task : ℕ) (form : Dict String (Option String))
  /-- `get_headers` returns. -/
  | returned (task : ℕ) (headers : Headers)
  /-- `get_headers` raises. -/
  | raised (task : ℕ) (error : ProviderException)

/-- The last line of `get_headers`, behind the lock. -/
def finish (s : TokenState) (task : ℕ) : TokenState×Option Event :=
  match s.provider.cache with
  | none => (s,some (.raised task (.other "'NoneType' object has no attribute 'access_token'")))
  | some cache => (s,some (.returned task (s.provider.bearer cache)))

/-- A task that has just acquired the lock runs until it suspends or ends. -/
def enter (s : TokenState) (task : ℕ) (environ : Environ) : TokenState×Option Event :=
  if s.provider.expired s.clock=true then
    match secretFor s.provider environ with
    | .error error => ({s with locked := false},some (.raised task error))
    | .ok secret => ({s with locked := true,inFlight := s.inFlight++[task]},
        some (.fetchStarted task (s.provider.form secret)))
  else finish {s with locked := false} task

/-- One step of the tasks. Actions of tasks that are not in the state for them
do nothing. -/
def step (s : TokenState) : Action→TokenState×Option Event
  | .call task environ =>
    if task∈s.waiters ∨ task∈s.inFlight then (s,none)
    else if s.locked=false ∧ s.waiters=[] then enter s task environ
    else ({s with waiters := s.waiters++[task]},none)
  | .resume environ =>
    match s.waiters with
    | [] => (s,none)
    | task::rest =>
      if s.locked=true then (s,none) else enter {s with waiters := rest} task environ
  | .reply task answer =>
    if task∈s.inFlight then
      let released := {s with locked := false,inFlight := s.inFlight.erase task}
      match readToken s.clock answer with
      | .error error => (released,some (.raised task error))
      | .ok cache => finish {released with provider := {s.provider with cache := some cache}} task
    else (s,none)
  | .cancel task =>
    if task∈s.inFlight then
      ({s with locked := false,inFlight := s.inFlight.erase task},none)
    else ({s with waiters := s.waiters.erase task},none)
  | .wait elapsed => ({s with clock := s.clock+elapsed},none)

/-- The clock does not go back and tokens have a lifetime. -/
def Lawful : Action→Prop
  | .reply _ (.body _ expiresIn) => 0<expiresIn.getD 3600
  | .wait elapsed => 0≤elapsed
  | _ => True

/-- The lock is held by the one task whose request is under way. -/
structure Guarded (s : TokenState) : Prop where
  /-- There is one such task while the lock is held and none otherwise. -/
  single : s.inFlight.length=if s.locked=true then 1 else 0
  /-- Tokens are replaced before they expire. -/
  buffer : 0≤ s.provider.buffer

/-- What a step may do to the token and what it may hand out. -/
structure Sound (s : TokenState) (a : Action) : Prop where
  /-- A request is sent without a token or with one about to expire. -/
  started : ∀ task form, (step s a).2=some (.fetchStarted task form)→
    ∀ cache, s.provider.cache=some cache→cache.expiresAt-s.provider.buffer≤ s.clock
  /-- The one returned header is a bearer with the cached token, which expires in
  the future. -/
  returned : ∀ task headers, (step s a).2=some (.returned task headers)→
    ∃ cache, (step s a).1.provider.cache=some cache ∧
      headers.items=[(s.provider.header,"Bearer "++cache.accessToken)] ∧
      headers.get? s.provider.header=some ("Bearer "++cache.accessToken) ∧
      (step s a).1.clock<cache.expiresAt
  /-- A failure leaves the token. -/
  failed : ∀ task error, (step s a).2=some (.raised task error)→
    (step s a).1.provider=s.provider
  /-- So does a cancellation. -/
  cancelled : ∀ task, a=.cancel task→(step s a).1.provider=s.provider

/-- The headers of a token: one, with the token behind the scheme. -/
theorem bearer_header (p : OAuth2ClientCredentialsProvider) (cache : TokenCache) :
    (p.bearer cache).items=[(p.header,"Bearer "++cache.accessToken)] ∧
      (p.bearer cache).get? p.header=some ("Bearer "++cache.accessToken) := by
  have hitems : (p.bearer cache).items=[(p.header,"Bearer "++cache.accessToken)] := rfl
  exact ⟨hitems,Dict.get?_set_self _ _ _⟩

section Entering

variable {s : TokenState} (task : ℕ) (environ : Environ)

/-- Leaving the lock changes nothing. -/
theorem finish_state (s : TokenState) (task : ℕ) : (finish s task).1=s := by
  unfold finish
  split <;> rfl

/-- A task that enters keeps the provider and either sends the only request or
gives the lock back. -/
theorem enter_state (s : TokenState) (task : ℕ) (environ : Environ) :
    (enter s task environ).1.provider=s.provider ∧ (enter s task environ).1.clock=s.clock ∧
    (((enter s task environ).1.locked=true ∧
        (enter s task environ).1.inFlight=s.inFlight++[task]) ∨
      ((enter s task environ).1.locked=false ∧
        (enter s task environ).1.inFlight=s.inFlight)) := by
  unfold enter
  split
  · split
    · exact ⟨rfl,rfl,Or.inr ⟨rfl,rfl⟩⟩
    · exact ⟨rfl,rfl,Or.inl ⟨rfl,rfl⟩⟩
  · rw [finish_state]
    exact ⟨rfl,rfl,Or.inr ⟨rfl,rfl⟩⟩

/-- An unexpired token is there and expires behind the buffer. -/
theorem unexpired {p : OAuth2ClientCredentialsProvider} {now : ℚ} (h : ¬p.expired now=true) :
    ∃ cache, p.cache=some cache ∧ now<cache.expiresAt-p.buffer := by
  unfold OAuth2ClientCredentialsProvider.expired at h
  cases hc : p.cache with
  | none => rw [hc] at h; exact absurd rfl h
  | some cache =>
    rw [hc] at h
    exact ⟨cache,rfl,not_le.mp fun hle => h (decide_eq_true hle)⟩

/-- A task that sends a request has found no token or one about to expire. -/
theorem enter_started {sender : ℕ} {form : Dict String (Option String)}
    (h : (enter s task environ).2=some (.fetchStarted sender form)) (cache : TokenCache)
    (hc : s.provider.cache=some cache) : cache.expiresAt-s.provider.buffer≤ s.clock := by
  unfold enter at h
  split at h
  · rename_i hexpired
    unfold OAuth2ClientCredentialsProvider.expired at hexpired
    rw [hc] at hexpired
    exact of_decide_eq_true hexpired
  · unfold finish at h
    split at h <;> cases h

/-- A task that returns at once hands out an unexpired token. -/
theorem enter_returned {caller : ℕ} {headers : Headers}
    (h : (enter s task environ).2=some (.returned caller headers)) :
    ∃ cache, s.provider.cache=some cache ∧ headers=s.provider.bearer cache ∧
      s.clock<cache.expiresAt-s.provider.buffer := by
  unfold enter at h
  split at h
  · split at h <;> cases h
  · rename_i hexpired
    obtain ⟨cache,hc,hfresh⟩ := unexpired hexpired
    have hfinish : finish {s with locked := false} task=
        ({s with locked := false},some (.returned task (s.provider.bearer cache))) := by
      unfold finish
      dsimp only
      rw [hc]
    rw [hfinish] at h
    cases h
    exact ⟨cache,hc,rfl,hfresh⟩

end Entering

/-- A task that enters after the others have left keeps the lock guarded. -/
theorem guarded_enter {s : TokenState} (h : Guarded s) (hfree : s.locked=false) (task : ℕ)
    (environ : Environ) : Guarded (TokenFlight.enter s task environ).1 := by
  obtain ⟨hprovider,-,hlock⟩ := enter_state s task environ
  have hnone : s.inFlight.length=0 := by
    rw [h.single,hfree]
    rfl
  refine ⟨?_,hprovider.symm ▸ h.buffer⟩
  rcases hlock with ⟨hheld,hflight⟩ | ⟨hheld,hflight⟩
  · rw [hheld,hflight,List.length_append,hnone]
    rfl
  · rw [hheld,hflight,hnone]
    rfl

/-- The only request under way ends. -/
theorem Guarded.erase {s : TokenState} (h : Guarded s) {task : ℕ} (ht : task∈s.inFlight) :
    (s.inFlight.erase task).length=0 := by
  have hlength := List.length_erase_of_mem ht
  have hsingle := h.single
  have hpos := List.length_pos_of_mem ht
  split at hsingle <;> omega

/-- Every step keeps the lock guarded. -/
theorem guarded_step {s : TokenState} (h : Guarded s) (a : Action) :
    Guarded (TokenFlight.step s a).1 := by
  cases a with
  | call task environ =>
    unfold TokenFlight.step
    dsimp only
    split
    · exact h
    · split
      · rename_i hfree
        exact guarded_enter h hfree.1 task environ
      · exact ⟨h.single,h.buffer⟩
  | resume environ =>
    unfold TokenFlight.step
    dsimp only
    split
    · exact h
    · rename_i task rest hwaiters
      split
      · exact h
      · rename_i hfree
        have hdequeued : Guarded {s with waiters := rest} := ⟨h.single,h.buffer⟩
        exact guarded_enter hdequeued (Bool.eq_false_iff.mpr hfree) task environ
  | reply task answer =>
    unfold TokenFlight.step
    dsimp only
    split
    · rename_i ht
      split
      · exact ⟨h.erase ht,h.buffer⟩
      · rw [finish_state]
        exact ⟨h.erase ht,h.buffer⟩
    · exact h
  | cancel task =>
    unfold TokenFlight.step
    dsimp only
    split
    · rename_i ht
      exact ⟨h.erase ht,h.buffer⟩
    · exact ⟨h.single,h.buffer⟩
  | wait elapsed => exact ⟨h.single,h.buffer⟩

/-- A read token expires in the future. -/
theorem readToken_fresh {answered : ℚ} {task : ℕ} {answer : TokenReply}
    (hl : Lawful (.reply task answer)) {cache : TokenCache}
    (h : readToken answered answer=.ok cache) : answered<cache.expiresAt := by
  unfold readToken at h
  split at h
  · cases h
  · split at h
    · cases h
      exact lt_add_of_pos_right _ hl
    · cases h

/-- A step without a visible event is sound when it leaves the provider. -/
theorem Sound.of_silent {s : TokenState} {a : Action} (he : (step s a).2=none)
    (hp : (step s a).1.provider=s.provider) : Sound s a := by
  refine ⟨fun _ _ h => ?_,fun _ _ h => ?_,fun _ _ _ => hp,fun _ _ => hp⟩
  · rw [he] at h
    cases h
  · rw [he] at h
    cases h

/-- A step in which a task enters is sound. -/
theorem Sound.of_enter {s entered : TokenState} {a : Action} {task : ℕ} {environ : Environ}
    (hs : step s a=enter entered task environ) (hp : entered.provider=s.provider)
    (hc : entered.clock=s.clock) (hb : 0≤ s.provider.buffer) : Sound s a := by
  obtain ⟨hprovider,hclock,-⟩ := enter_state entered task environ
  have hkept : (step s a).1.provider=s.provider := by rw [hs,hprovider,hp]
  refine ⟨fun sender form h cache hcache => ?_,fun caller headers h => ?_,fun _ _ _ => hkept,
    fun _ _ => hkept⟩
  · rw [hs] at h
    have hstart := enter_started task environ h cache (hp.symm ▸ hcache)
    rwa [hp,hc] at hstart
  · rw [hs] at h
    obtain ⟨cache,hcache,hheaders,hfresh⟩ := enter_returned task environ h
    rw [hs,hprovider,hclock]
    obtain ⟨hitems,hget⟩ := bearer_header entered.provider cache
    rw [←hheaders,hp] at hitems hget
    refine ⟨cache,hcache,hitems,hget,?_⟩
    rw [hp] at hfresh
    linarith

section Soundness

variable {s : TokenState}

/-- A call is sound. -/
theorem sound_call (h : Guarded s) (task : ℕ) (environ : Environ) :
    Sound s (.call task environ) := by
  by_cases hknown : task∈s.waiters ∨ task∈s.inFlight
  · have hs : step s (.call task environ)=(s,none) := if_pos hknown
    exact .of_silent (by rw [hs]) (by rw [hs])
  · by_cases hfree : s.locked=false ∧ s.waiters=[]
    · have hs : step s (.call task environ)=enter s task environ :=
        (if_neg hknown).trans (if_pos hfree)
      exact .of_enter hs rfl rfl h.buffer
    · have hs : step s (.call task environ)=({s with waiters := s.waiters++[task]},none) :=
        (if_neg hknown).trans (if_neg hfree)
      exact .of_silent (by rw [hs]) (by rw [hs])

/-- Admitting the first waiter is sound. -/
theorem sound_resume (h : Guarded s) (environ : Environ) : Sound s (.resume environ) := by
  cases hw : s.waiters with
  | nil =>
    have hs : step s (.resume environ)=(s,none) := by
      unfold TokenFlight.step
      dsimp only
      rw [hw]
    exact .of_silent (by rw [hs]) (by rw [hs])
  | cons task rest =>
    have hs : step s (.resume environ)=
        if s.locked=true then (s,none) else enter {s with waiters := rest} task environ := by
      unfold TokenFlight.step
      dsimp only
      rw [hw]
    by_cases hheld : s.locked=true
    · rw [if_pos hheld] at hs
      exact .of_silent (by rw [hs]) (by rw [hs])
    · rw [if_neg hheld] at hs
      exact .of_enter hs rfl rfl h.buffer

/-- The answer to a token request, read by the task that sent it. -/
theorem step_reply {task : ℕ} (ht : task∈s.inFlight) (answer : TokenReply) :
    step s (.reply task answer)=match readToken s.clock answer with
      | .error error =>
        ({s with locked := false,inFlight := s.inFlight.erase task},some (.raised task error))
      | .ok cache =>
        ({s with
            provider := {s.provider with cache := some cache}
            locked := false
            inFlight := s.inFlight.erase task},
          some (.returned task (s.provider.bearer cache))) := by
  unfold TokenFlight.step
  dsimp only
  rw [if_pos ht]
  cases readToken s.clock answer <;> rfl

/-- An answer is sound. -/
theorem sound_reply {task : ℕ} {answer : TokenReply} (hl : Lawful (.reply task answer)) :
    Sound s (.reply task answer) := by
  by_cases ht : task∈s.inFlight
  · have hs := step_reply ht answer
    cases hr : readToken s.clock answer with
    | error error =>
      rw [hr] at hs
      refine ⟨fun _ _ he => ?_,fun _ _ he => ?_,fun _ _ _ => ?_,fun _ he => (by cases he)⟩
      · rw [hs] at he
        cases he
      · rw [hs] at he
        cases he
      · rw [hs]
    | ok cache =>
      rw [hr] at hs
      have hfresh := readToken_fresh hl hr
      refine ⟨fun _ _ he => ?_,fun _ _ he => ?_,fun _ _ he => ?_,fun _ he => (by cases he)⟩
      · rw [hs] at he
        cases he
      · rw [hs] at he ⊢
        cases he
        obtain ⟨hitems,hget⟩ := bearer_header s.provider cache
        exact ⟨cache,rfl,hitems,hget,hfresh⟩
      · rw [hs] at he
        cases he
  · have hs : step s (.reply task answer)=(s,none) := if_neg ht
    exact .of_silent (by rw [hs]) (by rw [hs])

/-- A cancellation is sound. -/
theorem sound_cancel (task : ℕ) : Sound s (.cancel task) := by
  by_cases ht : task∈s.inFlight
  · have hs : step s (.cancel task)=
        ({s with locked := false,inFlight := s.inFlight.erase task},none) := if_pos ht
    exact .of_silent (by rw [hs]) (by rw [hs])
  · have hs : step s (.cancel task)=({s with waiters := s.waiters.erase task},none) :=
      if_neg ht
    exact .of_silent (by rw [hs]) (by rw [hs])

/-- Every step of a guarded state is sound. -/
theorem sound_step (h : Guarded s) {a : Action} (hl : Lawful a) : Sound s a := by
  cases a with
  | call task environ => exact sound_call h task environ
  | resume environ => exact sound_resume h environ
  | reply task answer => exact sound_reply hl
  | cancel task => exact sound_cancel task
  | wait elapsed => exact .of_silent rfl rfl

end Soundness

/-- A provider that nobody has asked yet, or that was asked before. -/
def start (p : OAuth2ClientCredentialsProvider) (clock : ℚ) : TokenState :=
  {provider := p,clock := clock}

/-- What the token endpoint answers to the request of a lone task. -/
def answerTo (p : OAuth2ClientCredentialsProvider) (w : World) : TokenReply :=
  match secretFor p w.environ with
  | .error error => .raised error
  | .ok secret => w.tokenEndpoint p.tokenUrl (p.form secret)

/-- A task that is alone gets what an uninterrupted `get_headers` computes. -/
theorem alone_getHeaders (p : OAuth2ClientCredentialsProvider) (w : World) (task : ℕ) :
    (run step (start p w.now) [.call task w.environ,.wait (w.answered-w.now),
      .reply task (answerTo p w)]).1.provider=(p.getHeaders w).1 ∧
    (run step (start p w.now) [.call task w.environ,.wait (w.answered-w.now),
      .reply task (answerTo p w)]).2.getLast?=some (match (p.getHeaders w).2 with
        | .ok headers => .returned task headers
        | .error error => .raised task error) := by
  have hcall : step (start p w.now) (.call task w.environ)=
      enter (start p w.now) task w.environ := rfl
  have hquiet : ∀ (s : TokenState) (answer : TokenReply), s.inFlight=[]→
      step s (.reply task answer)=(s,none) := fun s answer h => if_neg (by rw [h]; simp)
  by_cases hexpired : p.expired w.now=true
  · have hcurrent : p.current w=p.fetch w := by
      unfold OAuth2ClientCredentialsProvider.current
      split
      · rfl
      · rw [if_pos hexpired]
    have henter : enter (start p w.now) task w.environ=
        match secretFor p w.environ with
        | .error error => (start p w.now,some (.raised task error))
        | .ok secret => ({start p w.now with locked := true,inFlight := [task]},
            some (.fetchStarted task (p.form secret))) := if_pos hexpired
    rw [OAuth2ClientCredentialsProvider.getHeaders,hcurrent,fetch_parts,answerTo]
    simp only [run,hcall,henter]
    cases secretFor p w.environ with
    | error error => exact ⟨rfl,rfl⟩
    | ok secret =>
      have hclock : w.now+(w.answered-w.now)=w.answered := by ring
      cases hr : readToken w.answered (w.tokenEndpoint p.tokenUrl (p.form secret)) with
      | error error => simp [step,start,hclock,hr]
      | ok cache =>
        simp [step,start,hclock,hr,finish,OAuth2ClientCredentialsProvider.bearer]
  · obtain ⟨cache,hc,-⟩ := unexpired hexpired
    have hcurrent : p.current w=.ok cache := by
      unfold OAuth2ClientCredentialsProvider.current
      rw [hc]
      exact if_neg hexpired
    have henter : enter (start p w.now) task w.environ=
        (start p w.now,some (.returned task (p.bearer cache))) := by
      refine (if_neg hexpired).trans ?_
      unfold finish
      rw [show (start p w.now).provider.cache=some cache from hc]
      rfl
    have hsame : {p with cache := some cache}=p := by rw [←hc]
    rw [OAuth2ClientCredentialsProvider.getHeaders,hcurrent]
    simp only [run,hcall,henter]
    rw [hquiet _ _ rfl,hsame]
    exact ⟨rfl,rfl⟩

/-- In every interleaving at most one token request is under way at any
time. One is sent only without a token or with one within the buffer of its
expiry, a returned header is a bearer with the cached token, which expires
later, and a failed or cancelled request leaves the token as it was. -/
theorem single_flight {p : OAuth2ClientCredentialsProvider} (hb : 0≤p.buffer) (clock : ℚ)
    (actions : List Action) :
    (run step (start p clock) actions).1.inFlight.length≤1 ∧
    ∀ a, Lawful a→Sound (run step (start p clock) actions).1 a := by
  have hguarded : Guarded (run step (start p clock) actions).1 := by
    have hstart : Guarded (start p clock) := ⟨rfl,hb⟩
    rw [run_state]
    exact final_invariant (I:=Guarded) (fun s a h => guarded_step h a) hstart actions
  refine ⟨?_,fun a hl => sound_step hguarded hl⟩
  rw [hguarded.single]
  split <;> omega

/-- A grant with the default buffer. -/
def gatewayGrant : OAuth2ClientCredentialsProvider where
  header := "Authorization"
  tokenUrl := some "https://auth.example.com/token"
  clientId := some "gateway"
  clientSecretEnv := some "CLIENT_SECRET"
  scope := none
  extraParams := Dict.empty
  buffer := 60

theorem single_flight_grant :
    (run step (start gatewayGrant 0)
      [.call 0 (fun _ => some "secret"),.call 1 (fun _ => some "secret")]).1.inFlight.length≤1 ∧
    ∀ a, Lawful a→Sound (run step (start gatewayGrant 0)
      [.call 0 (fun _ => some "secret"),.call 1 (fun _ => some "secret")]).1 a :=
  single_flight (by decide +kernel) 0 _

end McpGateway.TokenFlight
