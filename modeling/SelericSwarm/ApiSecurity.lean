import SelericSwarm.SlidingWindow
import SelericSwarm.Submission
import SelericSwarm.Machine
import Mathlib.Algebra.Order.Field.Rat
import Mathlib.Algebra.Order.Floor.Ring
import Mathlib.Data.Rat.Floor

/-! The API middleware: who a request is, and how many requests of a client are let through. -/
open List

namespace SelericSwarm.Api
open Keyed

inductive PrincipalAuthMethod where
  | anonymous | sharedApiKey | service
  deriving DecidableEq, Repr

/-- The principal of a request, and how it was authenticated. -/
structure RequestPrincipal extends Principal where
  authMethod : PrincipalAuthMethod := .anonymous

/-- `header` looks a header up, whatever the case of its name; `settingsApiKey` is the key
of the live settings, where they can be read. -/
structure HttpRequest where
  time : Rat
  method : String
  path : String
  host : Option String
  header : String → Option String
  settingsApiKey : Option String := none

/-- `ApiSecurityMiddleware.__init__`. -/
structure Security where
  apiKey : String := ""
  rateLimitPerMinute : Int := 60
  rateLimitEnabled : Bool := true
  defaultWorkspaceId : String := "default"
  defaultUserId : String := "default"
  trustXForwardedFor : Bool := false
  trustIdentityHeaders : Bool := false
  principalProvider : Option (HttpRequest → Option RequestPrincipal) := none
  authenticator : Option (HttpRequest → Option RequestPrincipal) := none
  trustedProxy : Option (HttpRequest → Bool) := none

/-- What `str` and `hmac` provide: `str.lower`, and `compare_digest`, which raises on texts
beyond ASCII. -/
structure SecurityTexts where
  lower : String → String
  compareDigest : String → String → Option Bool

/-- `normalized.startswith(opening)`. -/
def opens (opening text : String) : Bool := opening.toList.isPrefixOf text.toList

/-- `path.rstrip("/") or "/"`. -/
def normalizedPath (path : String) : String :=
  let stripped := String.ofList (path.toList.reverse.dropWhile (· = '/')).reverse
  if stripped = "" then "/" else stripped

def exemptPaths : List String := ["/", "/health", "/readyz", "/docs", "/openapi.json", "/redoc", "/v1/voice/dev"]

def isExempt (path : String) : Bool :=
  normalizedPath path = "/ui" || opens "/ui/" (normalizedPath path) || normalizedPath path ∈ exemptPaths

/-- `text.split(",")[0].strip()`. -/
def firstEntry (text : String) : String := strip (String.ofList (text.toList.takeWhile (· ≠ ',')))

def clientKey (trustXForwardedFor : Bool) (r : HttpRequest) : String :=
  let apiKey := (r.header "x-api-key").getD ""
  let forwarded := if trustXForwardedFor then (r.header "x-forwarded-for").getD "" else ""
  if apiKey ≠ "" then "key:" ++ String.ofList (apiKey.toList.take 16)
  else if firstEntry forwarded ≠ "" then "ip:" ++ firstEntry forwarded
  else "ip:" ++ r.host.getD "unknown"

def identityHeader (r : HttpRequest) (names : List String) (default : String) : String :=
  ((names.map fun name => strip ((r.header name).getD "")).find? (· ≠ "")).getD (strip default)

def orDefault (text : String) : String := if strip text = "" then "default" else strip text

/-- `text.split(",")`. -/
def splitCommas (text : String) : List String := (text.toList.splitOn ',').map String.ofList

namespace Security
variable (texts : SecurityTexts) (config : Security)

/-- The key of the live settings, or that of the boot. -/
def keyFor (r : HttpRequest) : String :=
  let live := strip (r.settingsApiKey.getD "")
  if live = "" then strip config.apiKey else live

def bearer (r : HttpRequest) : String :=
  let auth := strip ((r.header "authorization").getD "")
  if opens "bearer " (texts.lower auth) then strip (String.ofList (auth.toList.drop 7)) else ""

/-- `provided and compare_digest(provided, api_key)`; nothing where it raises. -/
def matches? (credential key : String) : Option Bool :=
  if credential = "" then some false else texts.compareDigest credential key

def candidate (r : HttpRequest) : Option RequestPrincipal :=
  ((config.authenticator.bind (· r)).or (config.principalProvider.bind (· r)))

def externallyAuthenticated (r : HttpRequest) : Bool := (config.candidate r).any (·.authenticated)

/-- `configured_authenticator`. -/
def external : Bool := config.principalProvider.isSome || config.authenticator.isSome

/-- Whether the request is authenticated; nothing where comparing its credentials raises. -/
def authenticated (r : HttpRequest) : Option Bool :=
  if config.externallyAuthenticated r || (config.keyFor r = "" && !config.external) then some true
  else
    match matches? texts (strip ((r.header "x-api-key").getD "")) (config.keyFor r) with
    | some false => matches? texts (bearer texts r) (config.keyFor r)
    | matched => matched

/-- Headers say who the request is. -/
def trustsIdentity (r : HttpRequest) (authenticated : Bool) : Bool :=
  authenticated && config.trustIdentityHeaders && (config.trustedProxy.map (· r)).getD true

/-- The principal that `dispatch` attaches. -/
def principal (r : HttpRequest) (authenticated : Bool) : RequestPrincipal :=
  match (config.candidate r).filter (·.authenticated) with
  | some candidate => candidate
  | none =>
    let trusted := config.trustsIdentity r authenticated
    let workspaceId := if trusted then
      identityHeader r ["x-workspace-id", "x-seleric-workspace-id"] config.defaultWorkspaceId
      else config.defaultWorkspaceId
    let userId := orDefault (if trusted then
      identityHeader r ["x-user-id", "x-seleric-user-id"] config.defaultUserId else config.defaultUserId)
    { principalId := if trusted then identityHeader r ["x-principal-id"] userId else userId
      workspaceId := orDefault workspaceId
      userId
      authenticated
      authMethod := if config.keyFor r ≠ "" && authenticated then .sharedApiKey
        else if authenticated then .service else .anonymous
      roles := (splitCommas (if trusted then identityHeader r ["x-roles", "x-seleric-roles"] "" else "")).filterMap
        fun role => if strip role = "" then none else some (texts.lower (strip role)) }

def limit : Nat := (max 1 config.rateLimitPerMinute).toNat

def limits : Bool := config.rateLimitEnabled && decide (0 < config.rateLimitPerMinute)

end Security

/-- What becomes of a request. -/
inductive Verdict where
  | exempt
  | raised
  | unauthorized (detail : String)
  | limited (retryAfter : Int)
  | letThrough (principal : RequestPrincipal) (remaining : Option Nat)

/-- A request that is let through to a path that is not exempt. -/
structure Passage where
  host : Option String
  bucket : String
  time : Rat

/-- The limiter's hits; `passages` are the requests that have been let through. -/
structure ApiTraffic where
  now : Rat
  hits : Dict String (List Rat) := .empty
  passages : List Passage := []

def windowSeconds : Rat := 60

/-- The request is neither to an exempt path nor a preflight. -/
def guarded (r : HttpRequest) : Bool := !(isExempt r.path || decide (r.method = "OPTIONS"))

namespace ApiTraffic
variable (texts : SecurityTexts) (config : Security)

def allow (s : ApiTraffic) (key : String) (time : Rat) : Bool × ApiTraffic :=
  let hits := SlidingWindow.offer config.limit windowSeconds time (s.hits.getD key [])
  (hits.1, { s with hits := s.hits.set key hits.2 })

/-- `int(max(1, window_s - (ts - q[0])))`. -/
def retryAfter (s : ApiTraffic) (key : String) (time : Rat) : Int :=
  ⌊max 1 (windowSeconds - (time - ((s.hits.getD key []).head?.getD time)))⌋

/-- `_rate_limited`, for a request that is not exempt. -/
def rateLimited (s : ApiTraffic) (r : HttpRequest) (principal : RequestPrincipal) : Verdict × ApiTraffic :=
  let key := clientKey config.trustXForwardedFor r
  let passage := { host := r.host, bucket := key, time := r.time }
  if config.limits then
    let (allowed, s) := s.allow config key r.time
    if allowed then
      (.letThrough principal (some (config.limit - (s.hits.getD key []).length)),
        { s with passages := s.passages ++ [passage] })
    else (.limited (s.retryAfter key r.time), s)
  else (.letThrough principal none, { s with passages := s.passages ++ [passage] })

def dispatch (s : ApiTraffic) (r : HttpRequest) : Verdict × ApiTraffic :=
  if !guarded r then (.exempt, s)
  else
    match config.authenticated texts r with
    | none => (.raised, s)
    | some false =>
      (.unauthorized (if config.keyFor r = "" then "Authentication required" else "Missing or invalid API key"), s)
    | some true => s.rateLimited config r (config.principal texts r true)

/-- Requests come at non-decreasing times. -/
def step (s : ApiTraffic) (r : HttpRequest) : Option ApiTraffic :=
  if r.time < s.now then none else some { (s.dispatch texts config r).2 with now := r.time }

/-- The requests of a host that have been let through in the window from `start` on. -/
def letThrough (s : ApiTraffic) (host : Option String) (start : Rat) : Nat :=
  s.passages.countP fun p => p.host = host ∧ start ≤ p.time ∧ p.time < start + windowSeconds

/-! Every bucket is a sliding window of its own. -/

def bucketTimes (s : ApiTraffic) (key : String) : List Rat :=
  (s.passages.filter fun p => p.bucket = key).map Passage.time

def Windows (limit : Nat) (s : ApiTraffic) : Prop :=
  ∀ key, SlidingWindow.Tracks limit windowSeconds s.now (s.bucketTimes key) (s.hits.getD key [])

variable {texts config}
variable {s : ApiTraffic}

theorem Windows.later {limit : Nat} (h : s.Windows limit) {time : Rat} (htime : s.now ≤ time) :
    Windows limit { s with now := time } := fun key => (h key).later htime

/-- What the limiter says to the request. -/
abbrev admission (config : Security) (s : ApiTraffic) (r : HttpRequest) : Bool × List Rat :=
  SlidingWindow.offer config.limit windowSeconds r.time (s.hits.getD (clientKey config.trustXForwardedFor r) [])

theorem rateLimited_hits (hlimits : config.limits = true) (r : HttpRequest) (principal : RequestPrincipal) :
    (s.rateLimited config r principal).2.hits =
      s.hits.set (clientKey config.trustXForwardedFor r) (admission config s r).2 := by
  by_cases hok : (admission config s r).1 = true <;> simp [ApiTraffic.rateLimited, hlimits, allow, hok]

theorem rateLimited_passages (hlimits : config.limits = true) (r : HttpRequest) (principal : RequestPrincipal) :
    (s.rateLimited config r principal).2.passages =
      if (admission config s r).1 then
        s.passages ++ [{ host := r.host, bucket := clientKey config.trustXForwardedFor r, time := r.time }]
      else s.passages := by
  by_cases hok : (admission config s r).1 = true <;> simp [ApiTraffic.rateLimited, hlimits, allow, hok]

theorem Windows.rateLimited (h : s.Windows config.limit) (hlimits : config.limits = true) {r : HttpRequest}
    (htime : s.now ≤ r.time) (principal : RequestPrincipal) :
    Windows config.limit { (s.rateLimited config r principal).2 with now := r.time } := by
  intro key
  have hadmit := (h (clientKey config.trustXForwardedFor r)).offer (by norm_num [windowSeconds]) htime
  simp only [rateLimited_hits hlimits, bucketTimes, rateLimited_passages hlimits]
  by_cases hkey : clientKey config.trustXForwardedFor r = key
  · subst hkey
    rw [Dict.getD_set, if_pos rfl]
    split at hadmit
    next hok => simpa [hok, bucketTimes] using hadmit
    next hok => simpa [hok, bucketTimes] using hadmit
  · rw [Dict.getD_set, if_neg hkey]
    have hlater := (h key).later htime
    split
    · simpa [hkey, bucketTimes] using hlater
    · exact hlater

theorem Windows.dispatch (h : s.Windows config.limit) (hlimits : config.limits = true) {r : HttpRequest}
    (htime : s.now ≤ r.time) : Windows config.limit { (s.dispatch texts config r).2 with now := r.time } := by
  unfold ApiTraffic.dispatch
  split
  · exact h.later htime
  · split
    · exact h.later htime
    · exact h.later htime
    · exact h.rateLimited hlimits htime _

theorem dispatch_passages (texts : SecurityTexts) (s : ApiTraffic) (r : HttpRequest) (hlimits : config.limits = true) :
    (s.dispatch texts config r).2.passages = s.passages ∨
      (guarded r = true ∧ config.authenticated texts r = some true ∧
        (s.dispatch texts config r).2.passages =
          s.passages ++ [{ host := r.host, bucket := clientKey config.trustXForwardedFor r, time := r.time }]) := by
  cases hguarded : guarded r with
  | false => exact Or.inl (by simp [ApiTraffic.dispatch, hguarded])
  | true =>
    cases hauth : config.authenticated texts r with
    | none => exact Or.inl (by simp [ApiTraffic.dispatch, hguarded, hauth])
    | some authenticated =>
      cases authenticated with
      | false => exact Or.inl (by simp [ApiTraffic.dispatch, hguarded, hauth])
      | true =>
        have hdispatch : (s.dispatch texts config r).2 =
            (s.rateLimited config r (config.principal texts r true)).2 := by
          simp [ApiTraffic.dispatch, hguarded, hauth]
        rw [hdispatch, rateLimited_passages hlimits]
        split
        · exact Or.inr ⟨rfl, rfl, rfl⟩
        · exact Or.inl rfl

def OneBucket (host : Option String) (bucket : String) (s : ApiTraffic) : Prop :=
  ∀ p ∈ s.passages, p.host = host → p.bucket = bucket

theorem letThrough_le {limit : Nat} {host : Option String} {bucket : String} (hwindows : s.Windows limit)
    (hone : s.OneBucket host bucket) (start : Rat) : s.letThrough host start ≤ limit := by
  refine le_trans ?_ ((hwindows bucket).bounded start)
  rw [letThrough, SlidingWindow.within, bucketTimes, countP_map, countP_filter]
  refine countP_mono_left fun p hp hin => ?_
  obtain ⟨hhost, hwindow⟩ := of_decide_eq_true hin
  simp [hone p hp hhost, hwindow]

theorem principal_eq (texts : SecurityTexts) (hprovider : config.principalProvider = none) (hauthenticator : config.authenticator = none)
    (htrust : config.trustIdentityHeaders = false) (r : HttpRequest) (authenticated : Bool) :
    (config.principal texts r authenticated).toPrincipal =
      { principalId := orDefault config.defaultUserId
        workspaceId := orDefault config.defaultWorkspaceId
        userId := orDefault config.defaultUserId
        authenticated
        roles := [] } := by
  have hcandidate : config.candidate r = none := by simp [Security.candidate, hprovider, hauthenticator]
  have htrusts : config.trustsIdentity r authenticated = false := by simp [Security.trustsIdentity, htrust]
  have hroles : (splitCommas "").filterMap (fun role => if strip role = "" then none else
      some (texts.lower (strip role))) = [] := by
    have hsplit : splitCommas "" = [""] := by decide
    have hblank : strip "" = "" := by decide
    simp [hsplit, hblank]
  simp [Security.principal, hcandidate, htrusts, hroles]

def Keeps (texts : SecurityTexts) (config : Security) (host : Option String) (bucket : String) (r : HttpRequest) :
    Prop :=
  r.host = host → guarded r = true → config.authenticated texts r = some true →
    clientKey config.trustXForwardedFor r = bucket

theorem step_oneBucket {host : Option String} {bucket : String} {s' : ApiTraffic} {r : HttpRequest}
    (hlimits : config.limits = true) (h : s.Windows config.limit ∧ s.OneBucket host bucket)
    (hr : Keeps texts config host bucket r) (ha : step texts config s r = some s') :
    s'.Windows config.limit ∧ s'.OneBucket host bucket := by
  unfold step at ha
  split at ha
  · cases ha
  next htime =>
    obtain rfl := Option.some.inj ha
    refine ⟨h.1.dispatch hlimits (not_lt.mp htime), ?_⟩
    intro p hp hhost
    obtain heq | ⟨hguarded, hauth, heq⟩ := s.dispatch_passages texts r hlimits
    · exact h.2 p (heq ▸ hp) hhost
    · simp only [heq] at hp
      obtain hp | hp := mem_append.mp hp
      · exact h.2 p hp hhost
      · obtain rfl := mem_singleton.mp hp
        exact hr hhost hguarded hauth

theorem rate_limited_and_unforged (texts : SecurityTexts) (config : Security)
    (hprovider : config.principalProvider = none) (hauthenticator : config.authenticator = none)
    (htrust : config.trustIdentityHeaders = false) (start : Rat) (host : Option String) (bucket : String) (requests : List HttpRequest)
    (hlimits : config.limits = true)
    (hone : ∀ r ∈ requests, Keeps texts config host bucket r) :
    (∀ before after s, requests = before ++ after →
      Machine.exec (step texts config) { now := start } before = some s →
        ∀ from', s.letThrough host from' ≤ config.limit) ∧
    ∀ r r' authenticated authenticated',
      let principal := config.principal texts r authenticated
      let principal' := config.principal texts r' authenticated'
      principal.workspaceId = principal'.workspaceId ∧ principal.userId = principal'.userId ∧
        principal.principalId = principal'.principalId ∧ principal.roles = principal'.roles := by
  constructor
  · rintro before after s rfl he
    have hstart : Windows config.limit { now := start } ∧ OneBucket host bucket { now := start } :=
      ⟨fun key => .empty _ _ _, by simp [OneBucket]⟩
    have hkeeps : Machine.Along (step texts config) (fun _ r => Keeps texts config host bucket r)
        { now := start } (before ++ after) := Machine.along_of_forall _ hone _
    obtain ⟨hwindows, hbucket⟩ := Machine.invariant_along
      (I := fun s => s.Windows config.limit ∧ s.OneBucket host bucket)
      (fun _ _ _ h hr ha => step_oneBucket hlimits h hr ha) hstart (Machine.along_append.mp hkeeps).1 he
    exact letThrough_le hwindows hbucket
  · intro r r' authenticated authenticated'
    have hp := principal_eq texts hprovider hauthenticator htrust r authenticated
    have hp' := principal_eq texts hprovider hauthenticator htrust r' authenticated'
    simp [hp, hp']

/-! One client that sends no key, and one that makes a new one up for every request. -/

def plainSecurityTexts : SecurityTexts where
  lower := id
  compareDigest a b := some (a = b)

def onePerMinute : Security where
  rateLimitPerMinute := 1

def askedWith (apiKey : Option String) (time : Rat) : HttpRequest where
  time := time
  method := "POST"
  path := "/v1/missions"
  host := some "10.0.0.1"
  header name := if name = "x-api-key" then apiKey else none

def keyless : List HttpRequest := [askedWith none 0, askedWith none 1]

theorem keyless_limited :
    ∃ s, Machine.exec (step plainSecurityTexts onePerMinute) { now := 0 } keyless = some s ∧
      s.letThrough (some "10.0.0.1") 0 ≤ 1 ∧
      (onePerMinute.principal plainSecurityTexts (askedWith none 0) true).userId =
        (onePerMinute.principal plainSecurityTexts (askedWith (some "key") 0) true).userId := by
  obtain ⟨hlimited, hunforged⟩ := rate_limited_and_unforged plainSecurityTexts onePerMinute rfl rfl rfl 0
    (some "10.0.0.1") "ip:10.0.0.1" keyless rfl (by
      intro r hr _ _ _
      simp only [keyless, mem_cons, not_mem_nil, or_false] at hr
      obtain rfl | rfl := hr <;> decide)
  have hrun : (Machine.exec (step plainSecurityTexts onePerMinute) { now := 0 } keyless).isSome = true := by
    decide
  obtain ⟨s, he⟩ := Option.isSome_iff_exists.mp hrun
  exact ⟨s, he, hlimited keyless [] s (by simp) he 0, (hunforged _ _ true true).2.1⟩

def inventive : List HttpRequest := [askedWith (some "a") 0, askedWith (some "b") 1]

theorem inventive_not_limited :
    ¬∀ before after s, inventive = before ++ after →
      Machine.exec (step plainSecurityTexts onePerMinute) { now := 0 } before = some s →
        ∀ start, s.letThrough (some "10.0.0.1") start ≤ onePerMinute.limit := by
  intro h
  have hrun : ((Machine.exec (step plainSecurityTexts onePerMinute) { now := 0 } inventive).any fun s =>
      s.letThrough (some "10.0.0.1") 0 = 2) = true := by decide +kernel
  obtain ⟨s, he, hs⟩ := (Option.any_eq_true _ _).mp hrun
  have hle := h inventive [] s (by simp) he 0
  rw [of_decide_eq_true hs] at hle
  exact absurd hle (by decide)

end ApiTraffic

end SelericSwarm.Api
