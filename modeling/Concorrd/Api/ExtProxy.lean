import Concorrd.Lib.JsonText
import Concorrd.Lib.Run
import Concorrd.Api.ExtensionPipelines

/-!
# The proxy of extensions

A request of an extension is sent on to a provider with credentials that the operator has set for the
extension. The gate looks the manifest up and lets pass what has none, so that it is closed for an
extension exactly when the lookup finds what it should (`gate_closed_iff`). Tokens are kept by provider
and not by extension, so that each is given its own only while no other is kept
(`credentials_isolated`).
-/

namespace Concorrd.Api

open Machine

/-- The credentials that a provider asks for, and where. -/
structure ClientCredentials where
  tokenUrl : String
  clientIdKey : String
  clientSecretKey : String
  deriving DecidableEq, Repr

/-- Where requests go: to an address, or to one that is built of the secrets. -/
inductive Upstream where
  | base (url : String)
  | sentinel
  deriving DecidableEq, Repr

/-- The methods of the route. -/
inductive Method where
  | get
  | post
  | put
  | delete
  | head
  | options
  deriving DecidableEq, Repr

def Method.text : Method → String
  | .get => "GET"
  | .post => "POST"
  | .put => "PUT"
  | .delete => "DELETE"
  | .head => "HEAD"
  | .options => "OPTIONS"

structure Provider where
  upstream : Upstream
  credentials : Option ClientCredentials := none
  methods : List Method := [.get]
  deriving DecidableEq, Repr

/-- `PROVIDERS` -/
def providers : Dict String Provider :=
  [("opensky", {
      upstream := .base "https://opensky-network.org/api"
      credentials := some ⟨"https://auth.opensky-network.org/auth/realms/opensky-network/protocol/" ++
        "openid-connect/token", "opensky_client_id", "opensky_client_secret"⟩ }),
    ("sentinel", {
      upstream := .sentinel
      credentials := some ⟨"https://services.sentinel-hub.com/auth/realms/main/protocol/" ++
        "openid-connect/token", "sentinel_client_id", "sentinel_client_secret"⟩ }),
    ("nycdot", { upstream := .base "https://webcams.nyctmc.org/api" }),
    ("military-legacy", { upstream := .base "https://api.airplanes.live" }),
    ("airplanes-live", { upstream := .base "https://api.airplanes.live" }),
    ("cloudflare-radar", { upstream := .base "https://api.cloudflare.com" }),
    ("wsdot", { upstream := .base "https://wsdot.wa.gov" }),
    ("511ny", { upstream := .base "https://511ny.org" }),
    ("massdot", { upstream := .base "https://mass511.com" }),
    ("firms", { upstream := .base "https://firms.modaps.eosdis.nasa.gov" }),
    ("launchlib", { upstream := .base "https://ll.thespacedevs.com" })]

/-- What the endpoint of a provider answers when it is asked for a token. -/
inductive TokenAnswer where
  | unreachable (reason : String)
  | refused (status : Nat) (text : String)
  | answered (payload : Json)

/-- A request of an extension, and whether its bucket has a token left. -/
structure ProxyRequest where
  extId : String
  provider : String
  path : String := ""
  query : String := ""
  method : Method := .get
  body : String := ""
  withinRate : Bool := true

/-- What is sent to the provider. -/
structure UpstreamRequest where
  extId : String
  provider : String
  method : Method
  url : String
  authorization : Option String
  body : Option String
  deriving DecidableEq, Repr

/-- The rows, the static catalog, the settings file and the tokens that are kept, with the time they
end. Times are in microseconds. -/
structure Proxy where
  rows : Dict String ExtensionRow := []
  catalog : List ExtensionDef := []
  doc : Document := []
  tokenCache : Dict String (String × Int) := []

def seconds (n : Int) : Int := n * 1000000

/-- Without the slashes at the end. -/
def rstripSlashes (url : String) : String :=
  String.ofList (url.toList.reverse.dropWhile (· = '/')).reverse

def upstreamUrl (cfg : Provider) (secrets : Dict String String) (path query : String) : String :=
  let url := match cfg.upstream with
    | .base url => rstripSlashes (url ++ "/" ++ path)
    | .sentinel => rstripSlashes ("https://services.sentinel-hub.com/ogc/wms/" ++
        (secrets.get "sentinel_instance_id").getD "" ++ "/" ++ path)
  if query = "" then url else url ++ "?" ++ query

/-- The request as it is sent on. -/
def ProxyRequest.sent (r : ProxyRequest) (cfg : Provider) (secrets : Dict String String)
    (authorization : Option String) : UpstreamRequest where
  extId := r.extId
  provider := r.provider
  method := r.method
  url := upstreamUrl cfg secrets r.path r.query
  authorization
  body := if r.method = .post ∨ r.method = .put then some r.body else none

namespace Proxy

variable (rt : Runtime) (s : Proxy)

/-! ## The gate -/

/-- The manifest of an extension, where its id is sound, it has a row, and the row's manifest can be
read. -/
def getExtensionManifest (extId : String) : Option Json :=
  if isValidExtensionId rt extId then
    ((s.rows.get extId).bind ExtensionRow.manifest).filter fun manifest => manifest ≠ .null
  else none

def permissionDenied (extId : String) : HttpError :=
  ⟨403, Json.write (.obj [("error", .str "permission_denied"), ("permission", .str "fetch:external"),
    ("extension_id", .str extId)]), none⟩

/-- A manifest that is there must declare the permission. One that is no object raises. -/
def manifestGate (extId : String) : Except HttpError Unit :=
  match s.getExtensionManifest rt extId with
  | none => .ok ()
  | some manifest =>
    if Json.isObj manifest = false then .error .internal
    else if manifestHasPermission manifest "fetch:external" then .ok ()
    else .error (permissionDenied extId)

/-- What stands between a request and its provider. -/
def gate (r : ProxyRequest) : Except HttpError Provider := do
  let cfg ← found (providers.get r.provider)
    ⟨404, "Unknown provider " ++ rt.repr (.str r.provider), none⟩
  refuse (r.method ∉ cfg.methods)
    ⟨405, "Method " ++ r.method.text ++ " not allowed for " ++ r.provider, none⟩
  let _ ← s.manifestGate rt r.extId
  refuse (r.withinRate = false) ⟨429, r.provider ++ ": server-side rate limit exceeded", none⟩
  return cfg

/-! ## The token and the request -/

/-- A token as it stands in the header. -/
def tokenText : Json → String
  | .str text => text
  | value => rt.repr value

/-- The token and its lifetime in seconds, as the endpoint answered. -/
def readToken (provider : String) : TokenAnswer → Except HttpError (String × Int)
  | .unreachable reason =>
    .error ⟨502, provider ++ ": token endpoint unreachable: " ++ reason, none⟩
  | .refused status text =>
    .error ⟨502, provider ++ ": token exchange " ++ toString status ++ ": " ++
      String.ofList (text.toList.take 200), none⟩
  | .answered (.obj members) => do
    let token ← found ((Dict.get members "access_token").filter truthy)
      ⟨502, provider ++ ": token endpoint returned no access_token", none⟩
    let lifetime ← match (Dict.get members "expires_in").filter truthy with
      | none => pure 300
      | some value => found (rt.int value) .internal
    return (tokenText rt token, lifetime)
  | .answered _ => .error .internal

/-- The token that is kept for a provider, while it has more than a minute left. -/
def cached (provider : String) (now : Int) : Option String :=
  ((s.tokenCache.get provider).filter fun entry => now < entry.2 - seconds 60).map Prod.fst

def notConfigured (provider : String) : HttpError :=
  ⟨503, provider ++ ": client_id / client_secret not configured. Set them in Admin → Integrations → " ++
    provider ++ ".", none⟩

/-- The client id and secret of an extension, where both are set. -/
def clientOf (credentials : ClientCredentials) (secrets : Dict String String) :
    Option (String × String) :=
  let clientId := (secrets.get credentials.clientIdKey).getD ""
  let clientSecret := (secrets.get credentials.clientSecretKey).getD ""
  if clientId = "" ∨ clientSecret = "" then none else some (clientId, clientSecret)

/-- The token for a request, and the tokens that are kept then. `exchange` is what the endpoint answers
to an id and a secret. -/
def getOauthToken (exchange : String → String → TokenAnswer) (now : Int) (provider : String)
    (credentials : ClientCredentials) (secrets : Dict String String) :
    Except HttpError (String × Dict String (String × Int)) :=
  match s.cached provider now with
  | some token => .ok (token, s.tokenCache)
  | none => do
    let client ← found (clientOf credentials secrets) (notConfigured provider)
    let (token, lifetime) ← readToken rt provider (exchange client.1 client.2)
    return (token, s.tokenCache.set provider (token, now + seconds lifetime))

/-- The header for a request, where the provider asks for one. -/
def authorize (exchange : String → String → TokenAnswer) (now : Int) (provider : String)
    (cfg : Provider) (secrets : Dict String String) :
    Except HttpError (Option String × Dict String (String × Int)) :=
  match cfg.credentials with
  | none => .ok (none, s.tokenCache)
  | some credentials =>
    (s.getOauthToken rt exchange now provider credentials secrets).map fun found =>
      (some ("Bearer " ++ found.1), found.2)

/-- What is sent to the provider, and the tokens that are kept then. -/
def extProxy (exchange : String → String → TokenAnswer) (now : Int) (r : ProxyRequest) :
    Except HttpError (UpstreamRequest × Dict String (String × Int)) := do
  let cfg ← s.gate rt r
  let secrets := s.doc.extSecrets r.extId
  let (authorization, tokenCache) ← s.authorize rt exchange now r.provider cfg secrets
  return (r.sent cfg secrets authorization, tokenCache)

/-! ## The gate is closed -/

/-- The extension is installed and enabled, and what stands in its row declares the permission. -/
def Admits (extId : String) : Prop :=
  match s.rows.get extId with
  | some row => row.enabled = true ∧ ∃ manifest, row.manifest = some manifest ∧
      manifestHasPermission manifest "fetch:external" = true
  | none => ∃ e ∈ s.catalog, e.id = extId ∧ e.enabled = true

/-- The extension has a sound id and a row with a manifest that can be read and does not declare the
permission. -/
def Denied (extId : String) : Prop :=
  ∃ manifest, s.getExtensionManifest rt extId = some manifest ∧
    manifestHasPermission manifest "fetch:external" = false

variable {rt : Runtime} {s : Proxy} {r : ProxyRequest} {extId : String} {cfg : Provider}

theorem manifestGate_ok : s.manifestGate rt extId = .ok () ↔
    ∀ manifest, s.getExtensionManifest rt extId = some manifest →
      manifestHasPermission manifest "fetch:external" = true := by
  unfold manifestGate
  cases s.getExtensionManifest rt extId with
  | none => exact iff_of_true rfl (by rintro manifest ⟨⟩)
  | some manifest =>
    simp only [Option.some.injEq, forall_eq']
    cases manifest with
    | obj members =>
      simp only [Json.isObj, Bool.true_eq_false, if_false]
      split <;> simp_all only [reduceCtorEq]
    | null | bool | num | float | str | arr => exact iff_of_false (by rintro ⟨⟩) (by rintro ⟨⟩)

theorem manifestGate_bind {k : Unit → Except HttpError Provider} :
    (s.manifestGate rt extId >>= k) = .ok cfg ↔ s.manifestGate rt extId = .ok () ∧ k () = .ok cfg := by
  rw [except_bind_eq_ok]
  constructor
  · rintro ⟨⟨⟩, passes, rest⟩
    exact ⟨passes, rest⟩
  · exact fun both => ⟨(), both⟩

theorem gate_ok : s.gate rt r = .ok cfg ↔ providers.get r.provider = some cfg ∧
    r.method ∈ cfg.methods ∧ s.manifestGate rt r.extId = .ok () ∧ r.withinRate = true := by
  simp only [gate, found_bind, refuse_bind, manifestGate_bind, not_not, pure_eq_ok,
    Bool.not_eq_false]
  constructor
  · rintro ⟨cfg', there, method, passes, rate, rfl⟩
    exact ⟨there, method, passes, rate⟩
  · rintro ⟨there, method, passes, rate⟩
    exact ⟨cfg, there, method, passes, rate, rfl⟩

/-- For every state and every id: each request of the id that is sent on comes from an extension that is
installed, enabled and declares the permission, exactly when the id is such an extension or its manifest
is found and does not declare it. -/
theorem gate_closed_iff (rt : Runtime) (s : Proxy) (extId : String) :
    (∀ (exchange : String → String → TokenAnswer) (now : Int) (r : ProxyRequest), r.extId = extId →
      (∃ sent, s.extProxy rt exchange now r = .ok sent) → s.Admits extId) ↔
    s.Admits extId ∨ s.Denied rt extId := by
  constructor
  · intro closed
    by_contra neither
    rw [not_or] at neither
    have passes : s.manifestGate rt extId = .ok () := by
      refine manifestGate_ok.mpr fun manifest found => ?_
      by_contra denied
      exact neither.2 ⟨manifest, found, Bool.eq_false_iff.mpr denied⟩
    -- a provider that asks for no token
    have known : providers.get "nycdot" = some { upstream := .base "https://webcams.nyctmc.org/api" } := by
      decide
    have opens : s.gate rt { extId, provider := "nycdot" } =
        .ok { upstream := .base "https://webcams.nyctmc.org/api" } :=
      gate_ok.mpr ⟨known, List.mem_cons_self, passes, rfl⟩
    refine neither.1 (closed (fun _ _ => .unreachable "") 0 { extId, provider := "nycdot" } rfl ?_)
    rw [extProxy, opens]
    exact ⟨_, rfl⟩
  · rintro (admits | ⟨manifest, found, denied⟩) exchange now r rfl ⟨sent, done⟩
    · exact admits
    · obtain ⟨cfg, passes, -⟩ := except_bind_eq_ok.mp done
      have declares := manifestGate_ok.mp (gate_ok.mp passes).2.2.1 manifest found
      rw [denied] at declares
      cases declares

/-- Nobody has installed the extension, and its request is sent on. -/
theorem unknown_id_forwarded : ∃ (rt : Runtime) (s : Proxy) (exchange : String → String → TokenAnswer)
    (now : Int) (r : ProxyRequest), s.rows = [] ∧ s.catalog = [] ∧
      (∃ sent, s.extProxy rt exchange now r = .ok sent) ∧ ¬s.Admits r.extId := by
  refine ⟨{}, {}, fun _ _ => .unreachable "", 0, { extId := "nobody", provider := "nycdot" }, rfl, rfl,
    ⟨_, rfl⟩, ?_⟩
  rintro ⟨e, ⟨⟩, -⟩

end Proxy

/-! ## Runs of the proxy -/

/-- A token that was obtained: for which extension, and with which id and secret. -/
structure Exchange where
  extId : String
  provider : String
  clientId : String
  clientSecret : String
  authorization : String
  deriving DecidableEq, Repr

/-- The proxy at a time. `issued` says which exchange the token that is kept for a provider came from. -/
structure ProxyRun extends Proxy where
  now : Int := 0
  exchanges : List Exchange := []
  issued : Dict String Exchange := []
  sent : List UpstreamRequest := []

/-- Time goes by, secrets are set, or an extension asks for something. -/
inductive ProxyEvent where
  | tick (microseconds : Nat)
  | setSecrets (extId : String) (body : List (String × Option String))
  | request (serial : Nat) (r : ProxyRequest)

namespace ProxyRun

variable (rt : Runtime) (exchange : Nat → String → String → TokenAnswer) (s : ProxyRun)

/-- The id and secret that are set for an extension. -/
def client (extId provider : String) : Option (String × String) :=
  ((providers.get provider).bind Provider.credentials).bind fun credentials =>
    Proxy.clientOf credentials (s.doc.extSecrets extId)

/-- The exchange that a request has made. -/
def exchanged (r : ProxyRequest) (u : UpstreamRequest) : Option Exchange :=
  match s.cached r.provider s.now, s.client r.extId r.provider, u.authorization with
  | none, some client, some authorization =>
    some ⟨r.extId, r.provider, client.1, client.2, authorization⟩
  | _, _, _ => none

def request (serial : Nat) (r : ProxyRequest) : ProxyRun :=
  match s.extProxy rt (exchange serial) s.now r with
  | .error _ => s
  | .ok (u, tokenCache) =>
    let new := s.exchanged r u
    { s with
      tokenCache
      exchanges := s.exchanges ++ new.toList
      issued := new.elim s.issued fun x => s.issued.set r.provider x
      sent := s.sent ++ [u] }

def step : ProxyEvent → ProxyRun
  | .tick d => { s with now := s.now + d }
  | .setSecrets extId body => { s with doc := s.doc.setExtensionSecrets extId body }
  | .request serial r => s.request rt exchange serial r

/-- The header that is sent for an extension holds a token that was obtained with the id and secret that
are set for it now. -/
def SendsOwn : ProxyEvent → Prop
  | .request serial r => ∀ u tokenCache,
    s.extProxy rt (exchange serial) s.now r = .ok (u, tokenCache) →
      ∀ authorization ∈ u.authorization, ∃ x ∈ (s.request rt exchange serial r).exchanges,
        x.provider = r.provider ∧ x.authorization = authorization ∧
          s.client r.extId r.provider = some (x.clientId, x.clientSecret)
  | .tick _ | .setSecrets .. => True

/-- A request that needs a token finds none that is kept, or one that the extension has obtained itself
with the id and secret that are set for it now. -/
def Own : ProxyEvent → Prop
  | .request _ r => ∀ cfg, s.gate rt r = .ok cfg → cfg.credentials ≠ none →
    s.cached r.provider s.now ≠ none → ∃ x, s.issued.get r.provider = some x ∧ x.extId = r.extId ∧
      s.client r.extId r.provider = some (x.clientId, x.clientSecret)
  | .tick _ | .setSecrets .. => True

/-- What is sent for an extension. -/
def sentFor (extId : String) : List UpstreamRequest := s.sent.filter fun u => u.extId = extId

end ProxyRun

/-- The events differ in the secrets of other extensions at most. -/
def Alike (extId : String) (e e' : ProxyEvent) : Prop :=
  e = e' ∨ ∃ other other' body body', other ≠ extId ∧ other' ≠ extId ∧
    e = .setSecrets other body ∧ e' = .setSecrets other' body'

namespace Proxy

section

variable {rt : Runtime} {s : Proxy} {r : ProxyRequest} {cfg : Provider}
  {exchange : String → String → TokenAnswer} {now : Int} {credentials : ClientCredentials}
  {token : String}

theorem extProxy_error {e : HttpError} (refused : s.gate rt r = .error e) :
    s.extProxy rt exchange now r = .error e := by
  rw [extProxy, refused]
  rfl

theorem extProxy_open (passes : s.gate rt r = .ok cfg) (open' : cfg.credentials = none) :
    s.extProxy rt exchange now r =
      .ok (r.sent cfg (s.doc.extSecrets r.extId) none, s.tokenCache) := by
  simp only [extProxy, passes, ok_bind, authorize, open']
  rfl

theorem extProxy_kept (passes : s.gate rt r = .ok cfg) (asks : cfg.credentials = some credentials)
    (kept : s.cached r.provider now = some token) :
    s.extProxy rt exchange now r =
      .ok (r.sent cfg (s.doc.extSecrets r.extId) (some ("Bearer " ++ token)), s.tokenCache) := by
  simp only [extProxy, passes, ok_bind, authorize, asks, getOauthToken, kept]
  rfl

theorem extProxy_asks (passes : s.gate rt r = .ok cfg) (asks : cfg.credentials = some credentials)
    (none' : s.cached r.provider now = none) :
    s.extProxy rt exchange now r = (do
      let client ← found (clientOf credentials (s.doc.extSecrets r.extId)) (notConfigured r.provider)
      let answer ← readToken rt r.provider (exchange client.1 client.2)
      return (r.sent cfg (s.doc.extSecrets r.extId) (some ("Bearer " ++ answer.1)),
        s.tokenCache.set r.provider (answer.1, now + seconds answer.2))) := by
  simp only [extProxy, passes, ok_bind, authorize, asks, getOauthToken, none']
  cases clientOf credentials (s.doc.extSecrets r.extId) with
  | none => rfl
  | some client =>
    cases answered : readToken rt r.provider (exchange client.1 client.2) with
    | error e => simp only [found, ok_bind, answered]; rfl
    | ok answer => simp only [found, ok_bind, answered]; rfl

end

end Proxy

namespace ProxyRun

variable {rt : Runtime} {exchange : Nat → String → String → TokenAnswer} {s s' : ProxyRun}
  {r : ProxyRequest} {cfg : Provider} {extId provider : String} {serial : Nat}

theorem client_eq (passes : s.gate rt r = .ok cfg) {credentials : ClientCredentials}
    (asks : cfg.credentials = some credentials) : s.client r.extId r.provider =
      Proxy.clientOf credentials (s.doc.extSecrets r.extId) := by
  rw [client, (Proxy.gate_ok.mp passes).1, Option.bind_some, asks, Option.bind_some]

/-- What a request can do. -/
inductive Requests (rt : Runtime) (exchange : Nat → String → String → TokenAnswer) (s : ProxyRun)
    (serial : Nat) (r : ProxyRequest) : ProxyRun → Prop where
  | refused (none' : ∀ sent, s.extProxy rt (exchange serial) s.now r ≠ .ok sent) :
      Requests rt exchange s serial r s
  | bare (cfg : Provider) (passes : s.gate rt r = .ok cfg) (open' : cfg.credentials = none) :
      Requests rt exchange s serial r
        { s with sent := s.sent ++ [r.sent cfg (s.doc.extSecrets r.extId) none] }
  | kept (cfg : Provider) (token : String) (passes : s.gate rt r = .ok cfg)
      (asks : cfg.credentials ≠ none) (valid : s.cached r.provider s.now = some token) :
      Requests rt exchange s serial r
        { s with sent := s.sent ++
            [r.sent cfg (s.doc.extSecrets r.extId) (some ("Bearer " ++ token))] }
  | fresh (cfg : Provider) (client : String × String) (answer : String × Int)
      (passes : s.gate rt r = .ok cfg) (asks : cfg.credentials ≠ none)
      (expired : s.cached r.provider s.now = none)
      (own : s.client r.extId r.provider = some client)
      (answered : Proxy.readToken rt r.provider (exchange serial client.1 client.2) = .ok answer) :
      Requests rt exchange s serial r
        { s with
          tokenCache := s.tokenCache.set r.provider (answer.1, s.now + seconds answer.2)
          exchanges := s.exchanges ++
            [⟨r.extId, r.provider, client.1, client.2, "Bearer " ++ answer.1⟩]
          issued := s.issued.set r.provider
            ⟨r.extId, r.provider, client.1, client.2, "Bearer " ++ answer.1⟩
          sent := s.sent ++
            [r.sent cfg (s.doc.extSecrets r.extId) (some ("Bearer " ++ answer.1))] }

theorem exchanged_of_open {u : UpstreamRequest} (bare : u.authorization = none) :
    s.exchanged r u = none := by
  unfold exchanged
  split
  · rename_i header
    rw [bare] at header
    cases header
  · rfl

theorem exchanged_of_kept {u : UpstreamRequest} {token : String}
    (kept : s.cached r.provider s.now = some token) : s.exchanged r u = none := by
  unfold exchanged
  rw [kept]

theorem request_open (passes : s.gate rt r = .ok cfg) (open' : cfg.credentials = none) :
    s.request rt exchange serial r =
      { s with sent := s.sent ++ [r.sent cfg (s.doc.extSecrets r.extId) none] } := by
  rw [request, Proxy.extProxy_open passes open']
  dsimp only
  rw [exchanged_of_open rfl, Option.toList_none, List.append_nil]
  rfl

theorem request_kept {token : String} (passes : s.gate rt r = .ok cfg) (asks : cfg.credentials ≠ none)
    (valid : s.cached r.provider s.now = some token) : s.request rt exchange serial r =
      { s with sent := s.sent ++
          [r.sent cfg (s.doc.extSecrets r.extId) (some ("Bearer " ++ token))] } := by
  obtain ⟨credentials, asks⟩ := Option.ne_none_iff_exists'.mp asks
  rw [request, Proxy.extProxy_kept passes asks valid]
  dsimp only
  rw [exchanged_of_kept valid, Option.toList_none, List.append_nil]
  rfl

theorem extProxy_fresh {client : String × String} {answer : String × Int}
    (passes : s.gate rt r = .ok cfg) (asks : cfg.credentials ≠ none)
    (expired : s.cached r.provider s.now = none) (own : s.client r.extId r.provider = some client)
    (answered : Proxy.readToken rt r.provider (exchange serial client.1 client.2) = .ok answer) :
    s.extProxy rt (exchange serial) s.now r =
      .ok (r.sent cfg (s.doc.extSecrets r.extId) (some ("Bearer " ++ answer.1)),
        s.tokenCache.set r.provider (answer.1, s.now + seconds answer.2)) := by
  obtain ⟨credentials, asks⟩ := Option.ne_none_iff_exists'.mp asks
  rw [Proxy.extProxy_asks passes asks expired, ← client_eq passes asks, own]
  simp only [found, ok_bind, answered]
  rfl

theorem request_fresh {client : String × String} {answer : String × Int}
    (passes : s.gate rt r = .ok cfg) (asks : cfg.credentials ≠ none)
    (expired : s.cached r.provider s.now = none) (own : s.client r.extId r.provider = some client)
    (answered : Proxy.readToken rt r.provider (exchange serial client.1 client.2) = .ok answer) :
    s.request rt exchange serial r =
      { s with
        tokenCache := s.tokenCache.set r.provider (answer.1, s.now + seconds answer.2)
        exchanges := s.exchanges ++
          [⟨r.extId, r.provider, client.1, client.2, "Bearer " ++ answer.1⟩]
        issued := s.issued.set r.provider
          ⟨r.extId, r.provider, client.1, client.2, "Bearer " ++ answer.1⟩
        sent := s.sent ++
          [r.sent cfg (s.doc.extSecrets r.extId) (some ("Bearer " ++ answer.1))] } := by
  rw [request, extProxy_fresh passes asks expired own answered]
  have new : s.exchanged r (r.sent cfg (s.doc.extSecrets r.extId) (some ("Bearer " ++ answer.1))) =
      some ⟨r.extId, r.provider, client.1, client.2, "Bearer " ++ answer.1⟩ := by
    rw [exchanged, expired, own]
    rfl
  dsimp only
  rw [new]
  rfl

theorem request_refused (none' : ∀ sent, s.extProxy rt (exchange serial) s.now r ≠ .ok sent) :
    s.request rt exchange serial r = s := by
  rw [request]
  cases done : s.extProxy rt (exchange serial) s.now r with
  | error e => rfl
  | ok sent => exact absurd done (none' sent)

theorem request_requests : Requests rt exchange s serial r (s.request rt exchange serial r) := by
  have refused {e : HttpError} (fails : s.extProxy rt (exchange serial) s.now r = .error e) :
      Requests rt exchange s serial r (s.request rt exchange serial r) := by
    have none' : ∀ sent, s.extProxy rt (exchange serial) s.now r ≠ .ok sent := by
      rintro sent done
      cases fails.symm.trans done
    rw [request_refused none']
    exact .refused none'
  cases passes : s.gate rt r with
  | error e => exact refused (Proxy.extProxy_error passes)
  | ok cfg =>
    by_cases asks : cfg.credentials = none
    · rw [request_open passes asks]
      exact .bare cfg passes asks
    cases kept : s.cached r.provider s.now with
    | some token =>
      rw [request_kept passes asks kept]
      exact .kept cfg token passes asks kept
    | none =>
      obtain ⟨credentials, asks'⟩ := Option.ne_none_iff_exists'.mp asks
      have outcome : s.extProxy rt (exchange serial) s.now r = _ :=
        Proxy.extProxy_asks passes asks' kept
      rw [← client_eq passes asks'] at outcome
      cases own : s.client r.extId r.provider with
      | none =>
        rw [own] at outcome
        exact refused outcome
      | some client =>
        rw [own] at outcome
        cases answered : Proxy.readToken rt r.provider (exchange serial client.1 client.2) with
        | error e =>
          simp only [found, ok_bind, answered] at outcome
          exact refused outcome
        | ok answer =>
          rw [request_fresh passes asks kept own answered]
          exact .fresh cfg client answer passes asks kept own answered

/-! ### Each extension is given its own -/

/-- What is said of a token that is kept is so. -/
def Sound (s : ProxyRun) : Prop := ∀ provider x, s.issued.get provider = some x →
  x ∈ s.exchanges ∧ x.provider = provider ∧
    ∃ token ends, s.tokenCache.get provider = some (token, ends) ∧ x.authorization = "Bearer " ++ token

theorem sound_step (h : s.Sound) (e : ProxyEvent) : (s.step rt exchange e).Sound := by
  cases e with
  | tick | setSecrets => exact h
  | request serial r =>
    show (s.request rt exchange serial r).Sound
    have requests : Requests rt exchange s serial r (s.request rt exchange serial r) :=
      request_requests
    generalize s.request rt exchange serial r = s' at requests
    cases requests with
    | refused | bare | kept => exact h
    | fresh cfg client answer =>
      intro provider x found
      by_cases own : provider = r.provider
      · subst own
        cases Dict.get_set_self.symm.trans found
        exact ⟨List.mem_append_right _ List.mem_cons_self, rfl, answer.1, _, Dict.get_set_self, rfl⟩
      · obtain ⟨there, same, token, ends, kept, header⟩ :=
          h provider x ((Dict.get_set_of_ne own).symm.trans found)
        exact ⟨List.mem_append_left _ there, same, token, ends,
          (Dict.get_set_of_ne own).trans kept, header⟩

/-- A token that is kept is the one of its entry. -/
theorem cached_eq {now : Int} {token : String} (kept : s.cached provider now = some token) :
    ∃ ends, s.tokenCache.get provider = some (token, ends) := by
  obtain ⟨entry, found, rfl⟩ := Option.map_eq_some_iff.mp kept
  exact ⟨entry.2, (Option.filter_eq_some_iff.mp found).1⟩

theorem sendsOwn_of_own (h : s.Sound) {e : ProxyEvent} (own : s.Own rt e) :
    s.SendsOwn rt exchange e := by
  cases e with
  | tick | setSecrets => trivial
  | request serial r =>
    intro u tokenCache done authorization header
    cases passes : s.gate rt r with
    | error e => cases (Proxy.extProxy_error passes).symm.trans done
    | ok cfg =>
      cases asks : cfg.credentials with
      | none =>
        cases (Proxy.extProxy_open passes asks).symm.trans done
        cases header
      | some credentials =>
        cases kept : s.cached r.provider s.now with
        | some token =>
          cases (Proxy.extProxy_kept passes asks kept).symm.trans done
          cases header
          obtain ⟨x, issued, -, client⟩ := own cfg passes
            (by rw [asks]; exact Option.some_ne_none credentials)
            (by rw [kept]; exact Option.some_ne_none token)
          obtain ⟨there, same, token', ends', entry', header⟩ := h r.provider x issued
          obtain ⟨ends, entry⟩ := cached_eq kept
          cases entry.symm.trans entry'
          refine ⟨x, ?_, same, header, client⟩
          rw [request, Proxy.extProxy_kept passes asks kept]
          exact List.mem_append_left _ there
        | none =>
          have outcome : s.extProxy rt (exchange serial) s.now r = _ :=
            Proxy.extProxy_asks passes asks kept
          rw [← client_eq passes asks, done] at outcome
          obtain ⟨client, own', outcome⟩ := found_bind.mp outcome.symm
          obtain ⟨answer, answered, outcome⟩ := except_bind_eq_ok.mp outcome
          cases outcome
          cases header
          refine ⟨⟨r.extId, r.provider, client.1, client.2, "Bearer " ++ answer.1⟩, ?_, rfl, rfl, own'⟩
          rw [request, done]
          refine List.mem_append_right _ ?_
          rw [exchanged, kept, own']
          exact List.mem_cons_self

/-! ### Other extensions change nothing -/

/-- The token that is kept for a provider at a time, where the extension has obtained it itself. -/
def ownToken (s : ProxyRun) (extId provider : String) (t : Int) : Option String :=
  if (s.issued.get provider).any fun x => x.extId = extId then s.cached provider t else none

/-- Two runs are the same for an extension. -/
structure SameFor (extId : String) (s s' : ProxyRun) : Prop where
  rows : s.rows = s'.rows
  now : s.now = s'.now
  secrets : s.doc.extSecrets extId = s'.doc.extSecrets extId
  sent : s.sentFor extId = s'.sentFor extId
  kept : ∀ provider t, s.now ≤ t → s.ownToken extId provider t = s'.ownToken extId provider t

/-- What has ended stays ended. -/
theorem cached_later {now t : Int} (ended : s.cached provider now = none) (later : now ≤ t) :
    s.cached provider t = none := by
  rw [Proxy.cached, Option.map_eq_none_iff, Option.filter_eq_none_iff] at ended ⊢
  intro entry found valid
  refine ended entry found ?_
  rw [decide_eq_true_eq] at valid ⊢
  omega

theorem ownToken_eq_cached {now : Int} (own : s.cached provider now ≠ none →
    ∃ x, s.issued.get provider = some x ∧ x.extId = extId) :
    s.ownToken extId provider now = s.cached provider now := by
  unfold ownToken
  split
  · rfl
  · rename_i foreign
    by_contra valid
    obtain ⟨x, issued, same⟩ := own (Ne.symm valid)
    rw [issued] at foreign
    exact foreign (decide_eq_true same)

theorem ownToken_set_of_ne {provider' : String} {entry : String × Int} {x : Exchange} {t : Int}
    {exchanges : List Exchange} {sent : List UpstreamRequest} (apart : provider ≠ provider') :
    ownToken { s with
      tokenCache := s.tokenCache.set provider' entry
      exchanges
      issued := s.issued.set provider' x
      sent } extId provider t = s.ownToken extId provider t := by
  have issued : (s.issued.set provider' x).get provider = s.issued.get provider :=
    Dict.get_set_of_ne apart
  have entries : (s.tokenCache.set provider' entry).get provider = s.tokenCache.get provider :=
    Dict.get_set_of_ne apart
  simp only [ownToken, Proxy.cached, issued, entries]

theorem ownToken_set_self {entry : String × Int} {x : Exchange} {t : Int}
    {exchanges : List Exchange} {sent : List UpstreamRequest} :
    ownToken { s with
      tokenCache := s.tokenCache.set provider entry
      exchanges
      issued := s.issued.set provider x
      sent } extId provider t =
        if x.extId = extId then ((some entry).filter fun entry => t < entry.2 - seconds 60).map Prod.fst
        else none := by
  simp only [ownToken, Proxy.cached, Dict.get_set_self, Option.any_some, decide_eq_true_eq]

/-- A request of another extension takes no token away that the extension could still be given. -/
theorem ownToken_request_of_ne (apart : r.extId ≠ extId) {t : Int} (later : s.now ≤ t) :
    (s.request rt exchange serial r).ownToken extId provider t = s.ownToken extId provider t := by
  have requests : Requests rt exchange s serial r (s.request rt exchange serial r) := request_requests
  generalize s.request rt exchange serial r = s' at requests
  cases requests with
  | refused | bare | kept => rfl
  | fresh cfg client answer passes asks expired =>
    by_cases here : provider = r.provider
    · subst here
      rw [ownToken_set_self, if_neg apart, ownToken, cached_later expired later, ite_self]
    · exact ownToken_set_of_ne here

theorem sentFor_concat {u : UpstreamRequest} :
    (s.sent ++ [u]).filter (fun u => u.extId = extId) =
      s.sentFor extId ++ if u.extId = extId then [u] else [] := by
  simp only [List.filter_append, sentFor, List.filter_singleton, Bool.cond_decide]

theorem sentFor_request_of_ne (apart : r.extId ≠ extId) :
    (s.request rt exchange serial r).sentFor extId = s.sentFor extId := by
  have requests : Requests rt exchange s serial r (s.request rt exchange serial r) := request_requests
  generalize s.request rt exchange serial r = s' at requests
  cases requests with
  | refused => rfl
  | bare | kept | fresh =>
    refine sentFor_concat.trans ?_
    rw [if_neg (show ¬(ProxyRequest.sent r _ _ _).extId = extId from apart), List.append_nil]

variable (rt exchange s r serial) in
/-- A request changes neither the rows, nor the time, nor the settings. -/
theorem request_frame : (s.request rt exchange serial r).rows = s.rows ∧
    (s.request rt exchange serial r).now = s.now ∧ (s.request rt exchange serial r).doc = s.doc := by
  have requests : Requests rt exchange s serial r (s.request rt exchange serial r) := request_requests
  generalize s.request rt exchange serial r = s' at requests
  cases requests with
  | refused | bare | kept | fresh => exact ⟨rfl, rfl, rfl⟩

theorem gate_congr (rows : s.rows = s'.rows) : s.gate rt r = s'.gate rt r := by
  simp only [Proxy.gate, Proxy.manifestGate, Proxy.getExtensionManifest, rows]

theorem client_congr (secrets : s.doc.extSecrets extId = s'.doc.extSecrets extId) :
    s.client extId provider = s'.client extId provider := by
  simp only [client, secrets]

namespace SameFor

/-- The other run may make requests of other extensions. -/
theorem request_of_ne (h : SameFor extId s s') (apart : r.extId ≠ extId) :
    SameFor extId (s.request rt exchange serial r) (s'.request rt exchange serial r) := by
  obtain ⟨rows, now, doc⟩ := request_frame rt exchange s r serial
  obtain ⟨rows', now', doc'⟩ := request_frame rt exchange s' r serial
  refine ⟨?_, ?_, ?_, ?_, fun p t later => ?_⟩
  · rw [rows, rows', h.rows]
  · rw [now, now', h.now]
  · rw [doc, doc', h.secrets]
  · rw [sentFor_request_of_ne apart, sentFor_request_of_ne apart, h.sent]
  · rw [now] at later
    rw [ownToken_request_of_ne apart later, ownToken_request_of_ne apart (h.now ▸ later),
      h.kept p t later]

/-- Where both runs give the extension its own token only, they give it the same. -/
theorem cached_eq (h : SameFor r.extId s s') (passes : s.gate rt r = .ok cfg)
    (asks : cfg.credentials ≠ none) (own : s.Own rt (.request serial r))
    (own' : s'.Own rt (.request serial r)) :
    s.cached r.provider s.now = s'.cached r.provider s'.now := by
  have passes' : s'.gate rt r = .ok cfg := (gate_congr h.rows).symm.trans passes
  have mine : s.ownToken r.extId r.provider s.now = s.cached r.provider s.now :=
    ownToken_eq_cached fun valid =>
      let ⟨x, issued, same, _⟩ := own cfg passes asks valid
      ⟨x, issued, same⟩
  have mine' : s'.ownToken r.extId r.provider s'.now = s'.cached r.provider s'.now :=
    ownToken_eq_cached fun valid =>
      let ⟨x, issued, same, _⟩ := own' cfg passes' asks valid
      ⟨x, issued, same⟩
  rw [← mine, ← mine', ← h.now]
  exact h.kept r.provider s.now le_rfl

/-- What is sent, where the extension asks for something itself. -/
theorem sent_concat (h : SameFor extId s s') (u : UpstreamRequest) :
    (s.sent ++ [u]).filter (fun u => u.extId = extId) =
      (s'.sent ++ [u]).filter fun u => u.extId = extId := by
  rw [sentFor_concat, sentFor_concat, h.sent]

theorem request (h : SameFor r.extId s s') (own : s.Own rt (.request serial r))
    (own' : s'.Own rt (.request serial r)) :
    SameFor r.extId (s.request rt exchange serial r) (s'.request rt exchange serial r) := by
  have requests : Requests rt exchange s serial r (s.request rt exchange serial r) := request_requests
  generalize s.request rt exchange serial r = t at requests
  have gate : s.gate rt r = s'.gate rt r := gate_congr h.rows
  have client : s.client r.extId r.provider = s'.client r.extId r.provider := client_congr h.secrets
  cases requests with
  | refused none' =>
    -- what the other run sends, this one would have sent
    have requests' : Requests rt exchange s' serial r (s'.request rt exchange serial r) :=
      request_requests
    generalize s'.request rt exchange serial r = t' at requests'
    cases requests' with
    | refused => exact h
    | bare cfg passes open' =>
      exact absurd (Proxy.extProxy_open (gate.trans passes) open') (none' _)
    | kept cfg token passes asks valid =>
      have valid := (h.cached_eq (gate.trans passes) asks own own').trans valid
      obtain ⟨credentials, asks⟩ := Option.ne_none_iff_exists'.mp asks
      exact absurd (Proxy.extProxy_kept (gate.trans passes) asks valid) (none' _)
    | fresh cfg client' answer passes asks expired own'' answered =>
      have expired := (h.cached_eq (gate.trans passes) asks own own').trans expired
      exact absurd (extProxy_fresh (gate.trans passes) asks expired (client.trans own'') answered)
        (none' _)
  | bare cfg passes open' =>
    rw [request_open (gate.symm.trans passes) open', ← h.secrets]
    exact ⟨h.rows, h.now, h.secrets, h.sent_concat _, h.kept⟩
  | kept cfg token passes asks valid =>
    have valid' := (h.cached_eq passes asks own own').symm.trans valid
    rw [request_kept (gate.symm.trans passes) asks valid', ← h.secrets]
    exact ⟨h.rows, h.now, h.secrets, h.sent_concat _, h.kept⟩
  | fresh cfg client' answer passes asks expired own'' answered =>
    have expired' := (h.cached_eq passes asks own own').symm.trans expired
    rw [request_fresh (gate.symm.trans passes) asks expired' (client.symm.trans own'') answered,
      ← h.secrets]
    refine ⟨h.rows, h.now, h.secrets, h.sent_concat _, fun p t later => ?_⟩
    by_cases here : p = r.provider
    · subst here
      rw [ownToken_set_self, ownToken_set_self, h.now]
    · rw [ownToken_set_of_ne here, ownToken_set_of_ne here]
      exact h.kept p t later

/-- Events that differ in the secrets of other extensions keep the runs the same. -/
theorem step (h : SameFor extId s s') {e e' : ProxyEvent} (alike : Alike extId e e')
    (own : s.Own rt e) (own' : s'.Own rt e') :
    SameFor extId (s.step rt exchange e) (s'.step rt exchange e') := by
  obtain rfl | ⟨other, other', body, body', apart, apart', rfl, rfl⟩ := alike
  · cases e with
    | tick d => exact ⟨h.rows, congrArg (· + (d : Int)) h.now, h.secrets, h.sent,
        fun p t later => h.kept p t ((Int.le_add_of_nonneg_right (Int.natCast_nonneg d)).trans later)⟩
    | setSecrets other body =>
      refine ⟨h.rows, h.now, ?_, h.sent, h.kept⟩
      show (s.doc.setExtensionSecrets other body).extSecrets extId =
        (s'.doc.setExtensionSecrets other body).extSecrets extId
      by_cases mine : extId = other
      · subst mine
        exact Document.extSecrets_setExtensionSecrets_congr body h.secrets
      · rw [Document.extSecrets_setExtensionSecrets_of_ne _ body mine,
          Document.extSecrets_setExtensionSecrets_of_ne _ body mine, h.secrets]
    | request serial r =>
      by_cases mine : r.extId = extId
      · subst mine
        exact h.request own own'
      · exact h.request_of_ne mine
  · refine ⟨h.rows, h.now, ?_, h.sent, h.kept⟩
    show (s.doc.setExtensionSecrets other body).extSecrets extId =
      (s'.doc.setExtensionSecrets other' body').extSecrets extId
    rw [Document.extSecrets_setExtensionSecrets_of_ne _ body apart.symm,
      Document.extSecrets_setExtensionSecrets_of_ne _ body' apart'.symm, h.secrets]

theorem run {es es' : List ProxyEvent} (h : SameFor extId s s') (alike : List.Forall₂ (Alike extId) es es')
    (own : Along (ProxyRun.step rt exchange) (Own rt) s es)
    (own' : Along (ProxyRun.step rt exchange) (Own rt) s' es') :
    SameFor extId (Machine.run (ProxyRun.step rt exchange) s es)
      (Machine.run (ProxyRun.step rt exchange) s' es') := by
  induction alike generalizing s s' with
  | nil => exact h
  | cons first _ ih => exact ih (h.step first own.1 own'.1) own.2 own'.2

end SameFor

/-- Nothing has been asked for yet. -/
structure Fresh (s : ProxyRun) : Prop where
  tokenCache : s.tokenCache = []
  issued : s.issued = []

theorem Fresh.sound (h : s.Fresh) : s.Sound := by
  rintro provider x found
  rw [h.issued] at found
  cases found

/-- In every run from a proxy that keeps no token, in which each request that needs a token finds none
kept or its own: what is sent for an extension holds a token that was obtained with the id and secret
that are set for it now, so nothing is sent with a token for one that has none set; and in any other such
run that differs in the secrets of other extensions only, the same is sent for it. -/
theorem credentials_isolated (rt : Runtime) (exchange : Nat → String → String → TokenAnswer)
    (s : ProxyRun) (start : s.Fresh) (es : List ProxyEvent)
    (own : Along (step rt exchange) (Own rt) s es) :
    Along (step rt exchange) (SendsOwn rt exchange) s es ∧
      ∀ extId es', List.Forall₂ (Alike extId) es es' → Along (step rt exchange) (Own rt) s es' →
        (run (step rt exchange) s es).sentFor extId = (run (step rt exchange) s es').sentFor extId := by
  refine ⟨?_, fun extId es' alike own' => ?_⟩
  · exact own.of_invariant Sound (fun s e _ h => sound_step h e) (fun s e own h => sendsOwn_of_own h own)
      start.sound
  · exact (SameFor.run ⟨rfl, rfl, rfl, rfl, fun _ _ _ => rfl⟩ alike own own').sent

/-- Two extensions that may ask the outside. -/
def demoProxy : ProxyRun where
  rows :=
    let row := ⟨"1", "free", true, none, some (.obj [("permissions", .arr [.str "fetch:external"])])⟩
    [("com.a", row), ("com.b", row)]

/-- The endpoint answers a token that names whom it is for. -/
def demoExchange (_ : Nat) (clientId _ : String) : TokenAnswer :=
  .answered (.obj [("access_token", .str ("token of " ++ clientId)), ("expires_in", .num 3600)])

def demoSecrets (extId clientId : String) : ProxyEvent :=
  .setSecrets extId [("opensky_client_id", some clientId), ("opensky_client_secret", some "secret")]

def demoRequest (serial : Nat) (extId : String) : ProxyEvent :=
  .request serial { extId, provider := "opensky", path := "states" }

/-- One extension asks twice while another sets its secrets. -/
theorem isolated_two_requests :
    let es := [demoSecrets "com.a" "a", demoRequest 0 "com.a", demoSecrets "com.b" "b",
      demoRequest 1 "com.a"]
    let es' := [demoSecrets "com.a" "a", demoRequest 0 "com.a", demoSecrets "com.b" "c",
      demoRequest 1 "com.a"]
    Along (step {} demoExchange) (SendsOwn {} demoExchange) demoProxy es ∧
      (run (step {} demoExchange) demoProxy es).sentFor "com.a" =
        (run (step {} demoExchange) demoProxy es').sentFor "com.a" := by
  intro es es'
  have fresh {s : ProxyRun} {serial : Nat} {r : ProxyRequest}
      (none' : s.cached r.provider s.now = none) : s.Own {} (.request serial r) :=
    fun cfg _ _ valid => absurd none' valid
  have kept {s : ProxyRun} {serial : Nat} {r : ProxyRequest} (x : Exchange)
      (issued : s.issued.get r.provider = some x) (same : x.extId = r.extId)
      (client : s.client r.extId r.provider = some (x.clientId, x.clientSecret)) :
      s.Own {} (.request serial r) :=
    fun _ _ _ _ => ⟨x, issued, same, client⟩
  have own : Along (step {} demoExchange) (Own {}) demoProxy es := by
    refine ⟨trivial, fresh ?_, trivial, kept ⟨"com.a", "opensky", "a", "secret",
      "Bearer token of a"⟩ ?_ rfl ?_, trivial⟩ <;> decide
  have own' : Along (step {} demoExchange) (Own {}) demoProxy es' := by
    refine ⟨trivial, fresh ?_, trivial, kept ⟨"com.a", "opensky", "a", "secret",
      "Bearer token of a"⟩ ?_ rfl ?_, trivial⟩ <;> decide
  obtain ⟨sends, same⟩ := credentials_isolated {} demoExchange demoProxy ⟨rfl, rfl⟩ es own
  refine ⟨sends, same "com.a" es' ?_ own'⟩
  have apart : "com.b" ≠ "com.a" := by decide
  exact .cons (.inl rfl) (.cons (.inl rfl)
    (.cons (.inr ⟨"com.b", "com.b", _, _, apart, apart, rfl, rfl⟩) (.cons (.inl rfl) .nil)))

/-- An extension that has no secrets is given the token of another. -/
theorem token_shared :
    let es := [demoSecrets "com.a" "a", demoRequest 0 "com.a", demoRequest 1 "com.b"]
    let s := run (step {} demoExchange) demoProxy es
    s.doc.extSecrets "com.b" = [] ∧
      (s.sentFor "com.b").map UpstreamRequest.authorization = [some "Bearer token of a"] ∧
        ¬Along (step {} demoExchange) (SendsOwn {} demoExchange) demoProxy es := by
  intro es s
  refine ⟨by decide, by decide, ?_⟩
  rintro ⟨-, -, sends, -⟩
  -- the second request is answered from what the first has left
  let before := run (step {} demoExchange) demoProxy [demoSecrets "com.a" "a", demoRequest 0 "com.a"]
  have passes : before.gate {} { extId := "com.b", provider := "opensky", path := "states" } =
      .ok ((providers.get "opensky").get (by decide)) :=
    Proxy.gate_ok.mpr ⟨by decide, by decide, by decide, rfl⟩
  have valid : before.cached "opensky" before.now = some "token of a" := by decide
  obtain ⟨x, -, -, -, client⟩ := sends _ _ (Proxy.extProxy_kept passes rfl valid) _ rfl
  have none' : before.client "com.b" "opensky" = none := by decide
  cases none'.symm.trans client

end ProxyRun

end Concorrd.Api
