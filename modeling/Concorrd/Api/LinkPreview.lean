import Concorrd.Lib.Dict
import Concorrd.Lib.Ip
import Concorrd.Porch.Error
import Concorrd.Api.Document

/-!
# Link previews

A preview is fetched from the URL that a user gives, once its host was looked up and found to be public.
The client looks the host up again and follows what the servers redirect it to, and neither is checked:
nothing internal is contacted exactly when the URL is refused or each URL the client comes to would pass
the check with what the client finds (`previews_external_iff`).
-/

namespace Concorrd.Api

/-- What the language makes of texts: lower case, and whether a network location has characters that
stand for a delimiter of URLs. -/
structure UrlRuntime where
  lower : String → String := fun text => String.ofList (text.toList.map Char.toLower)
  hidesDelimiter : List Char → Bool := fun _ => false

namespace Preview

/-! ## The parts of a URL -/

structure ParsedUrl where
  scheme : String
  netloc : String
  hostname : Option String
  deriving DecidableEq, Repr

/-- What stands before a character, and what after it. -/
def partition (c : Char) (text : List Char) : List Char × Option (List Char) :=
  (text.takeWhile (· ≠ c), (text.dropWhile (· ≠ c)).tail?)

/-- The scheme, where the text starts with one, and what follows it. -/
def splitScheme (rt : UrlRuntime) (url : List Char) : String × List Char :=
  match partition ':' url with
  | (c :: cs, some rest) =>
    if c.isAlpha ∧ (c :: cs).all fun c => c.isAlphanum || c = '+' || c = '-' || c = '.' then
      (rt.lower (String.ofList (c :: cs)), rest)
    else ("", url)
  | _ => ("", url)

def splitNetloc : List Char → List Char
  | '/' :: '/' :: rest => rest.takeWhile fun c => c ≠ '/' ∧ c ≠ '?' ∧ c ≠ '#'
  | _ => []

/-- What follows the user at the start of a network location. -/
def hostAndPort (netloc : List Char) : List Char := (netloc.reverse.takeWhile (· ≠ '@')).reverse

/-- The host in it, with or without brackets. -/
def hostOf (netloc : List Char) : List Char :=
  let info := hostAndPort netloc
  match partition '[' info with
  | (_, some bracketed) => (partition ']' bracketed).1
  | (_, none) => (partition ':' info).1

/-- What stands in brackets is an IPv6 address or one of a future version. -/
def checkBracketedHost (host : List Char) : Bool :=
  match host with
  | 'v' :: rest =>
    match partition '.' rest with
    | (version, some (_ :: _)) => version ≠ [] && version.all Ip.isHexDigit
    | _ => false
  | _ =>
    match Ip.read (String.ofList host) with
    | some (.v6 _) => true
    | _ => false

def checkBrackets (netloc : List Char) : Bool :=
  if '[' ∉ netloc ∧ ']' ∉ netloc then true
  else if '[' ∉ netloc ∨ ']' ∉ netloc then false
  else
    let info := hostAndPort netloc
    let around := match partition '[' info with
      | (before, some bracketed) =>
        before.isEmpty && (((partition ']' bracketed).2.getD []).head?.all (· = ':'))
      | (_, none) => true
    around && checkBracketedHost (hostOf netloc)

/-- The host in lower case; the zone of an IPv6 address is left as it is. -/
def hostname (rt : UrlRuntime) (netloc : List Char) : Option String :=
  match hostOf netloc with
  | [] => none
  | host =>
    match partition '%' host with
    | (address, none) => some (rt.lower (String.ofList address))
    | (address, some zone) =>
      some (rt.lower (String.ofList address) ++ "%" ++ String.ofList zone)

/-- `urlparse`, as far as the route reads it; `none` where it raises. -/
def urlparse (rt : UrlRuntime) (url : String) : Option ParsedUrl :=
  let url := url.toList.dropWhile fun c => c.toNat ≤ 32
  let url := url.filter fun c => c ≠ '\t' ∧ c ≠ '\r' ∧ c ≠ '\n'
  let (scheme, rest) := splitScheme rt url
  let netloc := splitNetloc rest
  if checkBrackets netloc = false ∨ rt.hidesDelimiter netloc then none
  else some { scheme, netloc := String.ofList netloc, hostname := hostname rt netloc }

/-! ## The check -/

/-- What a lookup of a host gives: addresses, a failure that is caught, or another exception. -/
inductive Lookup where
  | addresses (ips : List Ip)
  | failed
  | raised
  deriving DecidableEq, Repr

/-- `_BLOCKED_HOSTNAMES` -/
def blockedHostnames : List String :=
  ["conduwuit", "concord-api", "livekit", "web", "cloudflared", "localhost",
    "metadata.google.internal"]

/-- Whether a host is an internal address or is found to have one. -/
def isPrivateIp (lookup : String → Lookup) (host : String) : Except HttpError Bool :=
  match Ip.read host with
  | some ip => .ok ip.isInternal
  | none =>
    match lookup host with
    | .addresses ips => .ok (ips.any Ip.isInternal)
    | .failed => .ok false
    | .raised => .error .internal

/-- Refuse a host that is blocked or internal. -/
def checkHost (rt : UrlRuntime) (lookup : String → Lookup) (host : String) :
    Except HttpError Unit := do
  let internal : HttpError :=
    ⟨400, "URLs pointing to private or internal addresses are not allowed", none⟩
  refuse (rt.lower host ∈ blockedHostnames) internal
  let isPrivate ← isPrivateIp lookup host
  refuse (isPrivate = true) internal

def checkUrl (rt : UrlRuntime) (lookup : String → Lookup) (url : String) :
    Except HttpError ParsedUrl := do
  let parsed ← found (urlparse rt url) ⟨400, "Invalid URL", none⟩
  refuse (parsed.scheme ≠ "http" ∧ parsed.scheme ≠ "https")
    ⟨400, "Only HTTP/HTTPS URLs are supported", none⟩
  refuse (parsed.netloc = "") ⟨400, "Invalid URL", none⟩
  let _ ← checkHost rt lookup (parsed.hostname.getD "")
  return parsed

/-! ## The page -/

/-- What the parser of pages reports. -/
inductive HtmlEvent where
  | starttag (tag : String) (attrs : List (String × Option String))
  | endtag (tag : String)
  | data (text : String)

structure OGParser where
  og : Dict String String := []
  inTitle : Bool := false
  titleBuf : String := ""

namespace OGParser

def setdefault (p : OGParser) (key content : String) : OGParser :=
  if p.og.get key = none then { p with og := p.og.set key content } else p

/-- A property without a value raises. -/
def handleStarttag (p : OGParser) (tag : String) (attrs : List (String × Option String)) :
    Except HttpError OGParser :=
  if tag = "meta" then do
    let attrs := attrs.foldl (fun d e => Dict.set d e.1 e.2) []
    let prop ← found ((attrs.get "property").getD (some "")) .internal
    let name := (attrs.get "name").getD (some "")
    let content := ((attrs.get "content").getD (some "")).getD ""
    if "og:".toList <+: prop.toList ∧ content ≠ "" then
      return p.setdefault (String.ofList (prop.toList.drop 3)) content
    else if content = "" then return p
    else match name with
      | some "description" => return p.setdefault "description" content
      | some "twitter:title" => return p.setdefault "title" content
      | some "twitter:description" => return p.setdefault "description" content
      | some "twitter:image" => return p.setdefault "image" content
      | _ => return p
  else if tag = "title" then return { p with inTitle := true }
  else return p

def handle (p : OGParser) : HtmlEvent → Except HttpError OGParser
  | .starttag tag attrs => p.handleStarttag tag attrs
  | .endtag tag => .ok (if tag = "title" then { p with inTitle := false } else p)
  | .data text => .ok (if p.inTitle then { p with titleBuf := p.titleBuf ++ text } else p)

def title (p : OGParser) : String :=
  match p.og.get "title" with
  | none | some "" => Document.strip p.titleBuf
  | some title => title

end OGParser

/-! ## The client -/

/-- The status of an answer, where it redirects to, what it holds, and what the parser of pages reports of
its first 50000 characters. -/
structure Response where
  status : Nat := 200
  location : Option String := none
  contentType : String := ""
  page : List HtmlEvent := []

/-- Why the client gives up: an error of the request, which is caught, or another exception. -/
inductive ClientError where
  | request
  | other
  deriving DecidableEq, Repr

/-- The library that sends requests: the host that it reads of a URL, and the URL that it makes of a
redirect. -/
structure HttpClient where
  target : String → Except ClientError String
  join : String → String → Except ClientError String
  maxRedirects : Nat := 20

/-- What the lookups answer, in the order they are made, and the servers at the addresses, in the order
they are asked. -/
structure Web where
  lookup : Nat → String → Lookup
  respond : Nat → String → Ip → Response

/-- A request that is sent: to which host, at which address. -/
structure Sent where
  host : String
  ip : Ip
  deriving DecidableEq, Repr

variable (rt : UrlRuntime) (client : HttpClient) (web : Web)

/-- The addresses that the client finds for a host. The first lookup was the one of the check. -/
def addresses (k : Nat) (host : String) : Except ClientError (List Ip) :=
  match Ip.read host with
  | some ip => .ok [ip]
  | none =>
    match web.lookup (k + 1) host with
    | .addresses ips => .ok ips
    | .failed => .error .request
    | .raised => .error .other

/-- Send a request for a URL. `choice` says which of the addresses that are found answers; where there is
none the connection fails. -/
def contact (choice : Nat → Nat) (k : Nat) (url : String) : Except ClientError Sent := do
  let host ← client.target url
  let ips ← addresses web k host
  match ips[choice k]? with
  | none => .error .request
  | some ip => .ok ⟨host, ip⟩

/-- Get a URL and what it redirects to, so many times at most. -/
def follow (choice : Nat → Nat) : Nat → Nat → String → List Sent × Except ClientError Response
  | left, k, url =>
    match contact client web choice k url with
    | .error e => ([], .error e)
    | .ok sent =>
      match (web.respond k url sent.ip).location.map (client.join url) with
      | none => ([sent], .ok (web.respond k url sent.ip))
      | some (.error e) => ([sent], .error e)
      | some (.ok url) =>
        match left with
        | 0 => ([sent], .error .request)
        | left + 1 =>
          let rest := follow choice left (k + 1) url
          (sent :: rest.1, rest.2)

/-! ## The route -/

structure LinkPreview where
  url : String
  title : String
  description : Option String
  image : Option String
  deriving DecidableEq, Repr

def clientError : ClientError → HttpError
  | .request => ⟨502, "Failed to fetch URL", none⟩
  | .other => .internal

def orElse (a b : String) : String := if a = "" then b else a

def readPage (url : String) (parsed : ParsedUrl) (response : Response) :
    Except HttpError LinkPreview := do
  refuse (400 ≤ response.status) ⟨502, "URL returned " ++ toString response.status, none⟩
  if "text/html".toList <:+: response.contentType.toList then
    let p ← response.page.foldlM OGParser.handle {}
    return ⟨url, orElse p.title parsed.netloc, p.og.get "description", p.og.get "image"⟩
  else return ⟨url, parsed.netloc, none, none⟩

/-- The requests that are sent for a preview, and what the user is given. -/
def getLinkPreview (choice : Nat → Nat) (url : String) : List Sent × Except HttpError LinkPreview :=
  match checkUrl rt (web.lookup 0) url with
  | .error e => ([], .error e)
  | .ok parsed =>
    let done := follow client web choice client.maxRedirects 0 url
    (done.1, done.2.mapError clientError >>= readPage url parsed)

/-! ## Nothing internal is contacted -/

/-- The request goes to a blocked host or to an internal address. -/
def Sent.Internal (x : Sent) : Prop := rt.lower x.host ∈ blockedHostnames ∨ x.ip.isInternal = true

/-- The host passes the check of the route with what the client finds at its lookup. -/
def Passes (k : Nat) (host : String) : Prop := checkHost rt (web.lookup (k + 1)) host = .ok ()

/-- Where the client finds an address for the URL, its host passes the check, and so does each URL that
it is redirected to. -/
def ChecksOut : Nat → Nat → String → Prop
  | left, k, url => ∀ host ips, client.target url = .ok host → addresses web k host = .ok ips →
    ips ≠ [] → Passes rt web k host ∧
      ∀ ip ∈ ips, ∀ location ∈ (web.respond k url ip).location, ∀ url',
        client.join url location = .ok url' →
        match left with
        | 0 => True
        | left + 1 => ChecksOut left (k + 1) url'

variable {rt : UrlRuntime} {client : HttpClient} {web : Web} {choice choice' : Nat → Nat}
  {left k : Nat} {url host : String} {ips : List Ip} {x : Sent}

theorem refuse_ok {c : Prop} [Decidable c] {e : HttpError} : refuse c e = .ok () ↔ ¬c := by
  rw [refuse]
  split
  · rename_i holds
    exact iff_of_false (by rintro ⟨⟩) (not_not_intro holds)
  · rename_i fails
    exact iff_of_true rfl fails

theorem checkHost_ok {lookup : String → Lookup} : checkHost rt lookup host = .ok () ↔
    rt.lower host ∉ blockedHostnames ∧ isPrivateIp lookup host = .ok false := by
  simp only [checkHost, except_bind_eq_ok, refuse_ok, Bool.not_eq_true]
  constructor
  · rintro ⟨⟨⟩, named, isPrivate, read, rfl⟩
    exact ⟨refuse_ok.mp named, read⟩
  · rintro ⟨named, read⟩
    exact ⟨(), refuse_ok.mpr named, false, read, rfl⟩

/-- A host that passes has no internal address at the lookup it was checked with. -/
theorem passes_iff (found : addresses web k host = .ok ips) : Passes rt web k host ↔
    rt.lower host ∉ blockedHostnames ∧ ∀ ip ∈ ips, ip.isInternal = false := by
  rw [Passes, checkHost_ok]
  refine and_congr_right fun _ => ?_
  unfold addresses at found
  unfold isPrivateIp
  cases literal : Ip.read host with
  | some ip =>
    simp only [literal, Except.ok.injEq] at found ⊢
    rw [← found, List.forall_mem_singleton]
  | none =>
    simp only [literal] at found ⊢
    cases answer : web.lookup (k + 1) host with
    | addresses ips' =>
      simp only [answer, Except.ok.injEq] at found ⊢
      rw [found, List.any_eq_false]
      exact forall₂_congr fun ip _ => Bool.not_eq_true _ ▸ Iff.rfl
    | failed | raised => simp only [answer, reduceCtorEq] at found

/-! ### The loop of redirects -/

theorem contact_ok : contact client web choice k url = .ok x ↔
    ∃ ips, client.target url = .ok x.host ∧ addresses web k x.host = .ok ips ∧
      ips[choice k]? = some x.ip := by
  simp only [contact, except_bind_eq_ok]
  constructor
  · rintro ⟨host, target, ips, found, done⟩
    cases answers : ips[choice k]? with
    | none =>
      rw [answers] at done
      cases done
    | some ip =>
      rw [answers] at done
      cases done
      exact ⟨ips, target, found, answers⟩
  · rintro ⟨ips, target, found, answers⟩
    exact ⟨x.host, target, ips, found, by rw [answers]⟩

/-- What the loop sends from a URL on. -/
inductive Follows (client : HttpClient) (web : Web) (choice : Nat → Nat) :
    Nat → Nat → String → List Sent → Prop where
  | nothing (left k : Nat) (url : String) : Follows client web choice left k url []
  | last (left k : Nat) (url : String) (x : Sent)
      (contacted : contact client web choice k url = .ok x) :
      Follows client web choice left k url [x]
  | redirected (left k : Nat) (url location url' : String) (x : Sent)
      (contacted : contact client web choice k url = .ok x)
      (leads : (web.respond k url x.ip).location = some location)
      (joined : client.join url location = .ok url') :
      Follows client web choice (left + 1) k url
        (x :: (follow client web choice left (k + 1) url').1)

theorem follow_follows (left k : Nat) (url : String) :
    Follows client web choice left k url (follow client web choice left k url).1 := by
  unfold follow
  cases contacted : contact client web choice k url with
  | error e => exact .nothing left k url
  | ok x =>
    cases leads : (web.respond k url x.ip).location with
    | none =>
      simp only [leads, Option.map_none]
      exact .last left k url x contacted
    | some location =>
      cases joined : client.join url location with
      | error e =>
        simp only [leads, Option.map_some, joined]
        exact .last left k url x contacted
      | ok url' =>
        simp only [leads, Option.map_some, joined]
        cases left with
        | zero => exact .last 0 k url x contacted
        | succ left => exact .redirected left k url location url' x contacted leads joined

theorem mem_follow_head (contacted : contact client web choice k url = .ok x) :
    x ∈ (follow client web choice left k url).1 := by
  unfold follow
  rw [contacted]
  dsimp only
  split
  · exact List.mem_cons_self
  · exact List.mem_cons_self
  · cases left <;> exact List.mem_cons_self

theorem mem_follow_tail (contacted : contact client web choice k url = .ok x)
    {location url' : String} (leads : (web.respond k url x.ip).location = some location)
    (joined : client.join url location = .ok url') {y : Sent}
    (mem : y ∈ (follow client web choice left (k + 1) url').1) :
    y ∈ (follow client web choice (left + 1) k url).1 := by
  unfold follow
  simp only [contacted, leads, Option.map_some, joined]
  exact List.mem_cons_of_mem x mem

/-- The loop reads the choices from its turn on. -/
theorem follow_congr (same : ∀ j, k ≤ j → choice j = choice' j) :
    follow client web choice left k url = follow client web choice' left k url := by
  have first : contact client web choice k url = contact client web choice' k url := by
    rw [contact, contact, same k le_rfl]
  induction left generalizing k url with
  | zero =>
    unfold follow
    rw [first]
  | succ left ih =>
    have later {url : String} : follow client web choice left (k + 1) url =
        follow client web choice' left (k + 1) url := by
      refine ih (fun j le => same j (Nat.le_of_succ_le le)) ?_
      rw [contact, contact, same (k + 1) (Nat.le_succ k)]
    unfold follow
    simp only [first, later]

theorem external_of_checksOut (out : ChecksOut rt client web left k url) :
    ∀ x ∈ (follow client web choice left k url).1, ¬x.Internal rt := by
  have external {left k : Nat} {url : String} (out : ChecksOut rt client web left k url) {x : Sent}
      (contacted : contact client web choice k url = .ok x) : ¬x.Internal rt := by
    obtain ⟨ips, target, found, answers⟩ := contact_ok.mp contacted
    have mem := List.mem_of_getElem? answers
    unfold ChecksOut at out
    obtain ⟨named, public'⟩ := (passes_iff found).mp (out x.host ips target found
      (List.ne_nil_of_mem mem)).1
    rintro (blocked | internal)
    · exact named blocked
    · exact absurd internal (by rw [public' x.ip mem]; exact Bool.false_ne_true)
  induction left generalizing k url with
  | zero =>
    have follows : Follows client web choice 0 k url (follow client web choice 0 k url).1 :=
      follow_follows 0 k url
    generalize (follow client web choice 0 k url).1 = sent at follows
    cases follows with
    | nothing => exact fun x mem => absurd mem List.not_mem_nil
    | last _ _ _ x contacted => exact List.forall_mem_singleton.mpr (external out contacted)
  | succ left ih =>
    have follows : Follows client web choice (left + 1) k url
      (follow client web choice (left + 1) k url).1 := follow_follows (left + 1) k url
    generalize (follow client web choice (left + 1) k url).1 = sent at follows
    cases follows with
    | nothing => exact fun x mem => absurd mem List.not_mem_nil
    | last _ _ _ x contacted => exact List.forall_mem_singleton.mpr (external out contacted)
    | redirected _ _ _ location url' x contacted leads joined =>
      refine List.forall_mem_cons.mpr ⟨external out contacted, ih ?_⟩
      obtain ⟨ips, target, found, answers⟩ := contact_ok.mp contacted
      have mem := List.mem_of_getElem? answers
      unfold ChecksOut at out
      exact (out x.host ips target found (List.ne_nil_of_mem mem)).2 x.ip mem location leads url' joined

theorem checksOut_of_external
    (external : ∀ choice, ∀ x ∈ (follow client web choice left k url).1, ¬x.Internal rt) :
    ChecksOut rt client web left k url := by
  have contacts {k : Nat} {url host : String} {ips : List Ip} (target : client.target url = .ok host)
      (found : addresses web k host = .ok ips) {ip : Ip} (mem : ip ∈ ips) :
      ∃ i, ∀ choice : Nat → Nat, choice k = i → contact client web choice k url = .ok ⟨host, ip⟩ := by
    obtain ⟨i, answers⟩ := List.mem_iff_getElem?.mp mem
    exact ⟨i, fun choice here => contact_ok.mpr ⟨ips, target, found, by rw [here, answers]⟩⟩
  have passes {left k : Nat} {url host : String} {ips : List Ip}
      (external : ∀ choice, ∀ x ∈ (follow client web choice left k url).1, ¬x.Internal rt)
      (target : client.target url = .ok host) (found : addresses web k host = .ok ips)
      (some' : ips ≠ []) : Passes rt web k host := by
    have each (ip : Ip) (mem : ip ∈ ips) : ¬Sent.Internal rt ⟨host, ip⟩ := by
      obtain ⟨i, contacts⟩ := contacts target found mem
      exact external (fun _ => i) _ (mem_follow_head (contacts _ rfl))
    obtain ⟨ip, mem⟩ := List.exists_mem_of_ne_nil ips some'
    refine (passes_iff found).mpr ⟨fun blocked => each ip mem (.inl blocked), fun ip mem => ?_⟩
    exact Bool.eq_false_iff.mpr fun internal => each ip mem (.inr internal)
  induction left generalizing k url with
  | zero =>
    unfold ChecksOut
    exact fun host ips target found some' => ⟨passes external target found some',
      fun _ _ _ _ _ _ => trivial⟩
  | succ left ih =>
    unfold ChecksOut
    refine fun host ips target found some' => ⟨passes external target found some',
      fun ip mem location leads url' joined => ih fun choice x mem' => ?_⟩
    obtain ⟨i, contacts⟩ := contacts target found mem
    -- the same choices later, and this address now
    let choice' := Function.update choice k i
    have later : follow client web choice left (k + 1) url' =
        follow client web choice' left (k + 1) url' :=
      follow_congr fun j le => (Function.update_of_ne (by omega) i choice).symm
    exact external choice' x (mem_follow_tail (contacts choice' (Function.update_self ..)) leads joined
      (later ▸ mem'))

/-- For every URL, whatever the lookups answer, wherever the servers redirect to and however the client
reads URLs: no request is sent to a blocked host or an internal address exactly when the route refuses
the URL, or each URL the client comes to passes the check with what the client finds there. -/
theorem previews_external_iff (rt : UrlRuntime) (client : HttpClient) (web : Web) (url : String) :
    (∀ choice, ∀ x ∈ (getLinkPreview rt client web choice url).1, ¬x.Internal rt) ↔
      (∃ e, checkUrl rt (web.lookup 0) url = .error e) ∨
        ChecksOut rt client web client.maxRedirects 0 url := by
  unfold getLinkPreview
  cases checkUrl rt (web.lookup 0) url with
  | error e => exact iff_of_true (fun choice x mem => absurd mem List.not_mem_nil) (.inl ⟨e, rfl⟩)
  | ok parsed =>
    rw [or_iff_right (by rintro ⟨e, ⟨⟩⟩)]
    exact ⟨checksOut_of_external, fun out choice => external_of_checksOut out⟩

/-- The servers at a public address send the client on to an internal one. -/
def demoWeb : Web where
  lookup _ _ := .addresses [.v4 (BitVec.ofNat 32 (Ip.quad 93 184 216 34))]
  respond k _ _ :=
    if k = 0 then { status := 302, location := some "http://169.254.169.254/latest/meta-data/" } else {}

def demoClient : HttpClient where
  target url := match (urlparse {} url).bind ParsedUrl.hostname with
    | some host => .ok host
    | none => .error .other
  join _ location := .ok location

theorem redirected_inside : ¬∀ choice, ∀ x ∈ (getLinkPreview {} demoClient demoWeb choice
    "http://blog.example/").1, ¬x.Internal {} := by
  have sent : (getLinkPreview {} demoClient demoWeb (fun _ => 0) "http://blog.example/").1 =
      [⟨"blog.example", .v4 (BitVec.ofNat 32 (Ip.quad 93 184 216 34))⟩,
        ⟨"169.254.169.254", .v4 (BitVec.ofNat 32 (Ip.quad 169 254 169 254))⟩] := by decide
  have internal : (Ip.v4 (BitVec.ofNat 32 (Ip.quad 169 254 169 254))).isInternal = true := by decide
  exact fun external => external (fun _ => 0) _ (sent ▸ List.mem_cons_of_mem _ List.mem_cons_self)
    (.inr internal)

end Preview

end Concorrd.Api
