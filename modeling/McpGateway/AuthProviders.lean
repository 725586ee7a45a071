import Mathlib
import McpGateway.PyText
import McpGateway.PyDict
import McpGateway.GatewaySettings
import McpGateway.RegexMatch

/-!
# Credentials of upstream servers

A provider turns its configuration, the environment and, for a client
credentials grant, a token endpoint into one header. Environment and endpoint
are read anew for every request of headers, so each request carries a world of
its own. A fetched token is kept until shortly before it expires.
-/

namespace McpGateway.AuthProviders

open PyText PyDict GatewaySettings RegexMatch

/-- Headers by name. -/
abbrev Headers := Dict String String

/-- `os.environ.get`. -/
abbrev Environ := String→Option String

/-- An exception while headers are obtained. -/
inductive ProviderException where
  /-- `AuthProviderError`. -/
  | auth (message : String)
  /-- A transport error, connection error or timeout. -/
  | transport (text : String)
  /-- Any other exception. -/
  | other (text : String)

/-- What the token endpoint's answer comes to. -/
inductive TokenReply where
  /-- The request, its status check or the reading of its body raised. -/
  | raised (error : ProviderException)
  /-- `access_token` and `expires_in` of the body. -/
  | body (accessToken : Option String) (expiresIn : Option ℚ)

/-- What a provider can read while it obtains headers. -/
structure World where
  /-- Environment variables. -/
  environ : Environ
  /-- Monotonic clock at the request. -/
  now : ℚ
  /-- The token endpoint, by address and form fields. -/
  tokenEndpoint : Option String→Dict String (Option String)→TokenReply
  /-- Monotonic clock at the endpoint's answer. -/
  answered : ℚ

/-- `TokenCache`. -/
structure TokenCache where
  /-- The token. -/
  accessToken : String
  /-- Monotonic clock at its expiry. -/
  expiresAt : ℚ

/-- A fixed header. -/
structure StaticAuthProvider where
  /-- Header name. -/
  header : String
  /-- Expanded token. -/
  token : String

/-- A header whose value is an environment variable. -/
structure EnvVarAuthProvider where
  /-- Header name. -/
  header : String
  /-- Variable name. -/
  envVar : String

/-- A header with a token from a client credentials grant. -/
structure OAuth2ClientCredentialsProvider where
  /-- Header name. -/
  header : String
  /-- Token endpoint. -/
  tokenUrl : Option String
  /-- Client id. -/
  clientId : Option String
  /-- Variable that holds the client secret. -/
  clientSecretEnv : Option String
  /-- Requested scope. -/
  scope : Option String
  /-- Further form fields. -/
  extraParams : Dict String String
  /-- Seconds before expiry at which a token is replaced. -/
  buffer : ℚ
  /-- `_cache`. -/
  cache : Option TokenCache := none

/-- A provider of one of the three kinds. -/
inductive AuthProvider where
  /-- A fixed header. -/
  | static (provider : StaticAuthProvider)
  /-- An environment variable. -/
  | env (provider : EnvVarAuthProvider)
  /-- A client credentials grant. -/
  | oauth2 (provider : OAuth2ClientCredentialsProvider)

/-- `\$\{([^}]+)\}`. -/
def envReference : Regex :=
  .seq (.one (fun c => decide (c = '$'))) (.seq (.one (fun c => decide (c = '\x7b')))
    (.seq (.rep 1 none true (.one (fun c => decide (c≠ '\x7d'))))
      (.one (fun c => decide (c = '\x7d')))))

/-- `_resolve_env`. A variable that is not set expands to nothing. -/
def resolveEnv (environ : Environ) (value : String) : String :=
  let expand := fun found : List Char =>
    ((environ (String.ofList ((found.drop 2).dropLast))).getD "").toList
  String.ofList (subn (fun _ => false) envReference expand value.toList).1

/-- The constructor expands the token once. -/
def StaticAuthProvider.new (environ : Environ) (header token : String) : StaticAuthProvider :=
  ⟨header,resolveEnv environ token⟩

/-- `get_headers` of an environment variable. -/
def EnvVarAuthProvider.getHeaders (p : EnvVarAuthProvider) (environ : Environ) :
    Except ProviderException Headers :=
  let token := environ p.envVar
  if present token=true then .ok (Dict.ofItems [(p.header,orText token "")])
  else .error (.auth ("env var '"++p.envVar++"' is empty or unset"))

namespace OAuth2ClientCredentialsProvider

/-- `_expired`. -/
def expired (p : OAuth2ClientCredentialsProvider) (now : ℚ) : Bool :=
  match p.cache with
  | none => true
  | some cache => decide (cache.expiresAt-p.buffer≤now)

/-- The form fields of a token request. Extra fields override the common ones,
and a scope overrides an extra field of that name. -/
def form (p : OAuth2ClientCredentialsProvider) (secret : String) : Dict String (Option String) :=
  let common := [("grant_type",some "client_credentials"),("client_id",p.clientId),
    ("client_secret",some secret)]
  let extra := p.extraParams.items.map (fun field => (field.1,some field.2))
  let scope := if present p.scope=true then [("scope",p.scope)] else []
  Dict.ofItems (common++extra++scope)

/-- `_fetch`. -/
def fetch (p : OAuth2ClientCredentialsProvider) (w : World) :
    Except ProviderException TokenCache :=
  match p.clientSecretEnv with
  | none => .error (.other "str expected, not NoneType")
  | some name =>
    let secret := w.environ name
    if present secret=true then
      match w.tokenEndpoint p.tokenUrl (p.form (orText secret "")) with
      | .raised error => .error error
      | .body accessToken expiresIn =>
        if present accessToken=true then
          .ok ⟨orText accessToken "",w.answered+expiresIn.getD 3600⟩
        else .error (.auth "OAuth2 response missing access_token")
    else .error (.auth ("OAuth2 client secret env var '"++name++"' unset"))

/-- The header of a token. -/
def bearer (p : OAuth2ClientCredentialsProvider) (cache : TokenCache) : Headers :=
  Dict.ofItems [(p.header,"Bearer "++cache.accessToken)]

/-- The kept token, replaced when it is absent or about to expire. -/
def current (p : OAuth2ClientCredentialsProvider) (w : World) :
    Except ProviderException TokenCache :=
  match p.cache with
  | none => p.fetch w
  | some cache => if p.expired w.now=true then p.fetch w else .ok cache

/-- `get_headers`: a failed fetch keeps the old token. -/
def getHeaders (p : OAuth2ClientCredentialsProvider) (w : World) :
    OAuth2ClientCredentialsProvider×Except ProviderException Headers :=
  match p.current w with
  | .error error => (p,.error error)
  | .ok cache => ({p with cache := some cache},.ok (p.bearer cache))

end OAuth2ClientCredentialsProvider

/-- `build_auth_provider` on a present configuration. -/
def buildAuthProvider (environ : Environ) (cfg : ServerAuthConfig) : Option AuthProvider :=
  match cfg.strategy with
  | .static =>
    if present cfg.header=true ∧ present cfg.token=true then
      some (.static (.new environ (orText cfg.header "") (orText cfg.token "")))
    else none
  | .env =>
    if present cfg.header=true ∧ present cfg.envVar=true then
      some (.env ⟨orText cfg.header "",orText cfg.envVar ""⟩)
    else none
  | .oauth2 => some (.oauth2 {
      header := orText cfg.header "Authorization"
      tokenUrl := cfg.oauth2TokenUrl
      clientId := cfg.oauth2ClientId
      clientSecretEnv := cfg.oauth2ClientSecretEnv
      scope := cfg.oauth2Scope
      extraParams := cfg.oauth2ExtraParams
      buffer := cfg.oauth2RefreshBuffer})

namespace AuthProvider

/-- `get_headers`. -/
def getHeaders (p : AuthProvider) (w : World) : AuthProvider×Except ProviderException Headers :=
  match p with
  | .static fixed => (p,.ok (Dict.ofItems [(fixed.header,fixed.token)]))
  | .env named => (p,named.getHeaders w.environ)
  | .oauth2 grant =>
    let obtained := grant.getHeaders w
    (.oauth2 obtained.1,obtained.2)

/-- The header a provider sets. -/
def header : AuthProvider→String
  | .static provider => provider.header
  | .env provider => provider.header
  | .oauth2 provider => provider.header

end AuthProvider

/-- A grant keeps the name of its header and returns the header of the token
it keeps. -/
theorem grant_getHeaders (p : OAuth2ClientCredentialsProvider) (w : World) :
    (p.getHeaders w).1.header=p.header ∧ ∀ headers, (p.getHeaders w).2=.ok headers→
      ∃ cache, (p.getHeaders w).1.cache=some cache ∧ headers=p.bearer cache := by
  unfold OAuth2ClientCredentialsProvider.getHeaders
  cases p.current w with
  | error error => exact ⟨rfl,fun _ h => (by cases h)⟩
  | ok cache => exact ⟨rfl,fun _ h => ⟨cache,rfl,(Except.ok.inj h).symm⟩⟩

/-- Obtaining headers keeps the name of the header, and what is obtained is
one value under that name. -/
theorem getHeaders_header (p : AuthProvider) (w : World) :
    (p.getHeaders w).1.header=p.header ∧ ∀ headers, (p.getHeaders w).2=.ok headers→
      ∃ token, headers=Dict.ofItems [(p.header,token)] := by
  cases p with
  | static fixed => exact ⟨rfl,fun _ h => ⟨fixed.token,(Except.ok.inj h).symm⟩⟩
  | env named =>
    refine ⟨rfl,?_⟩
    intro headers h
    simp only [AuthProvider.getHeaders,EnvVarAuthProvider.getHeaders] at h
    split at h
    · exact ⟨_,(Except.ok.inj h).symm⟩
    · cases h
  | oauth2 grant =>
    obtain ⟨hname,hvalue⟩ := grant_getHeaders grant w
    refine ⟨hname,?_⟩
    intro headers h
    obtain ⟨cache,-,hheaders⟩ := hvalue headers h
    exact ⟨_,hheaders⟩

example : resolveEnv (fun name => if name="TOKEN" then some "abc" else none)
    "Bearer $\x7bTOKEN\x7d$\x7bNONE\x7d!"="Bearer abc!" := by decide +kernel

end McpGateway.AuthProviders
