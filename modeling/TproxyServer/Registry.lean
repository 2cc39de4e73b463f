import TproxyServer.Base64
import TproxyServer.Configuration

/-! # Bootstraps and sessions

The part of `Manager` that knows which tokens there are: `IssueBootstrap`, `Create`,
`HasBootstrap`, `Get`, `CloseToken`, `sessionFinished`, the expiry of `cleanupLoop` and the
closing of `Shutdown`, each a function on one record, as each runs under the manager's mutex.

Time is a reading of the clock in nanoseconds, given to the operation; successive readings
need not increase.  The random bytes of `newToken` are given too (`none` where the source of
randomness fails), as is the order in which a loop over a map meets its keys where the
result depends on it.  The token buckets compute with `float64`, of which only the operations
appear (`Float64`).  A `*Session` is the number it was created under. -/

namespace TproxyServer

/-! ### Rates -/

/-- The `float64` operations of `takeRate`. -/
class Float64 (F : Type) where
  ofInt : ℤ → F
  add : F → F → F
  sub : F → F → F
  mul : F → F → F
  div : F → F → F
  lt : F → F → Bool
  /-- `Duration.Seconds`. -/
  seconds : ℤ → F

/-- Exact arithmetic. -/
instance exactArithmetic : Float64 ℚ where
  ofInt n := n
  add a b := a + b
  sub a b := a - b
  mul a b := a * b
  div a b := a / b
  lt a b := decide (a < b)
  seconds d := d / 10 ^ 9

/-- `rateState`; `last` is `none` where the time is zero. -/
structure RateState (F : Type) where
  tokens : F
  last : Option ℤ := none

section
variable {F : Type} [Float64 F]

def RateState.zero : RateState F := { tokens := Float64.ofInt 0 }

def RateState.refilled (state : RateState F) (now : ℤ) (perMinute burstLimit : Int64) : F :=
  let burst : F := Float64.ofInt burstLimit.toInt
  match state.last with
  | none => burst
  | some last =>
      let perSecond := Float64.div (Float64.ofInt perMinute.toInt) (Float64.ofInt 60)
      let tokens := Float64.add state.tokens (Float64.mul (Float64.seconds (now - last)) perSecond)
      if Float64.lt burst tokens then burst else tokens

def takeRate (state : RateState F) (now : ℤ) (perMinute burstLimit : Int64) :
    RateState F × Bool :=
  let tokens := state.refilled now perMinute burstLimit
  if Float64.lt tokens (Float64.ofInt 1) then (⟨tokens, some now⟩, false)
  else (⟨Float64.sub tokens (Float64.ofInt 1), some now⟩, true)

/-- `allowProfileRateLocked`: both buckets are charged or neither. -/
def allowProfileRate (global : RateState F) (profiles : Table String (RateState F))
    (profile : String) (now : ℤ) (globalPerMinute globalBurst profilePerMinute
    profileBurst : Int64) : Option (RateState F × Table String (RateState F)) :=
  let updatedGlobal := takeRate global now globalPerMinute globalBurst
  let updatedProfile := takeRate ((profiles.get profile).getD .zero) now profilePerMinute
    profileBurst
  if updatedGlobal.2 = false ∨ updatedProfile.2 = false then none
  else some (updatedGlobal.1, profiles.put profile updatedProfile.1)

end

/-! ### The registry -/

inductive ManagerError where
  | authentication
  | limit
  | protocol
  | closed
  /-- The source of randomness failed. -/
  | random
deriving DecidableEq, Repr

structure Bootstrap where
  expires : ℤ
  profile : Profile
  issuanceIP : String
  bodyDigest : Bytes := zeroDigest
  sessionToken : String := ""
  session : Option ℕ := none
  used : Bool := false

def Bootstrap.consumed (entry : Bootstrap) (bodyDigest : Bytes) (sessionToken : String)
    (session : ℕ) : Bootstrap :=
  { entry with used := true, bodyDigest, sessionToken, session := some session }

/-- What `sessionFinished` reads of a `*Session`. -/
structure LiveSession where
  session : ℕ
  clientIP : String
  profile : Profile
deriving DecidableEq

/-- `Manager`, as far as tokens go. -/
structure Registry (F : Type) where
  config : Config
  bootstraps : Table Bytes Bootstrap := .nil
  bootstrapsPerIP : Table String ℤ := .nil
  sessions : Table Bytes LiveSession := .nil
  closedTokens : Table Bytes ℤ := .nil
  sessionsPerIP : Table String ℤ := .nil
  sessionsPerProfile : Table String ℤ := .nil
  bootstrapRate : RateState F
  sessionRate : RateState F
  profileSessionRates : Table String (RateState F) := .nil
  closed : Bool := false
  sessionsCreated : ℕ := 0
  sessionsClosed : ℕ := 0
  limitHits : ℕ := 0
  nextSession : ℕ := 0

/-- `frame.ParseHello` finds nothing wrong. -/
def parseHello (input : Bytes) : Bool :=
  match parseAll input maxPayload with
  | .error _ => false
  | .ok [f] => f.type = .hello && f.streamID = 0 && f.payload = [1]
  | .ok _ => false

/-- `newToken` on the random bytes it drew. -/
def newToken (sha256 : Bytes → Bytes) (input : Bytes) : String × Bytes :=
  (Base64.encode input, sha256 input)

def tokenHash (sha256 : Bytes → Bytes) (token : String) : Option Bytes :=
  match Base64.decode token with
  | none => none
  | some decoded =>
      if decoded.length ≠ 32 ∨ Base64.encode decoded ≠ token then none
      else some (sha256 decoded)

/-- The hash of a new token is what the token is found under. -/
theorem tokenHash_newToken (sha256 : Bytes → Bytes) {input : Bytes} (h : input.length = 32) :
    tokenHash sha256 (newToken sha256 input).1 = some (newToken sha256 input).2 := by
  unfold tokenHash newToken
  rw [Base64.decode_encode]
  simp [h]

def newRegistry {F : Type} [Float64 F] (config : Config) : Registry F :=
  { config, bootstrapRate := .zero, sessionRate := .zero }

namespace Registry

variable {F : Type}

/-- `MatchCapability`: the last profile with this capability. -/
def matchCapability (r : Registry F) (value : Bytes) : Option Profile :=
  if value.length ≠ 32 then none
  else r.config.profiles.reverse.find? fun p => p.capability = value

def releaseUnusedBootstrapLocked (r : Registry F) (value : Bootstrap) : Registry F :=
  if value.used then r
  else { r with bootstrapsPerIP := r.bootstrapsPerIP.decrement (· ≤ 0) value.issuanceIP }

def removeBootstrapLocked (r : Registry F) (hash : Bytes) (value : Bootstrap) : Registry F :=
  let r := r.releaseUnusedBootstrapLocked value
  { r with bootstraps := r.bootstraps.del hash }

/-- Remove the bootstraps that `gone` holds of. -/
def removeBootstraps (r : Registry F) (gone : Bootstrap → Bool) : Registry F :=
  r.bootstraps.entries.foldl
    (fun r e => if gone e.2 then r.removeBootstrapLocked e.1 e.2 else r) r

def removeExpiredBootstrapsLocked (r : Registry F) (now : ℤ) : Registry F :=
  let r := r.removeBootstraps fun value => value.expires < now
  let closedTokens := r.closedTokens.entries.foldl
    (fun t e => if e.2 < now then t.del e.1 else t) r.closedTokens
  { r with closedTokens }

/-- One turn of the search of `evictOldestUnusedBootstrapLocked`. -/
def olderUnused (r : Registry F) (oldest : Option (Bytes × Bootstrap)) (hash : Bytes) :
    Option (Bytes × Bootstrap) :=
  match r.bootstraps.get hash with
  | none => oldest
  | some value =>
      if value.used then oldest
      else match oldest with
        | none => some (hash, value)
        | some best => if value.expires < best.2.expires then some (hash, value) else oldest

/-- The search of `evictOldestUnusedBootstrapLocked`, meeting the keys in this order. -/
def oldestUnused (r : Registry F) (order : List Bytes) : Option (Bytes × Bootstrap) :=
  order.foldl r.olderUnused none

def evictOldestUnusedBootstrapLocked (r : Registry F) (order : List Bytes) :
    Option (Registry F) :=
  (r.oldestUnused order).map fun oldest => r.removeBootstrapLocked oldest.1 oldest.2

section
variable [Float64 F] (sha256 : Bytes → Bytes)

/-- `IssueBootstrap` once it has its token. -/
def addBootstrap (r : Registry F) (profile : Profile) (clientIP : String) (now : ℤ)
    (input : Bytes) (order : List Bytes) : Registry F × Except ManagerError String :=
  if r.closed then (r, .error .closed)
  else
    let limits := r.config.limits
    let r := r.removeExpiredBootstrapsLocked now
    if limits.maxBootstrapsPerIP ≠ 0 ∧
        limits.maxBootstrapsPerIP.toInt ≤ r.bootstrapsPerIP.count clientIP then
      ({ r with limitHits := r.limitHits + 1 }, .error .limit)
    else
      let rate := takeRate r.bootstrapRate now limits.newBootstrapsPerMinute
        limits.newBootstrapsBurst
      let r := { r with bootstrapRate := rate.1 }
      if rate.2 = false then ({ r with limitHits := r.limitHits + 1 }, .error .limit)
      else
        let room := if limits.maxBootstrapsGlobal.toInt ≤ r.bootstraps.size then
          r.evictOldestUnusedBootstrapLocked order else some r
        match room with
        | none => ({ r with limitHits := r.limitHits + 1 }, .error .limit)
        | some r =>
            let (token, hash) := newToken sha256 input
            ({ r with
                bootstraps := r.bootstraps.put hash {
                  expires := now + r.config.bootstrapLifetime
                  profile
                  issuanceIP := clientIP }
                bootstrapsPerIP := r.bootstrapsPerIP.increment clientIP }, .ok token)

def issueBootstrap (r : Registry F) (profile : Option Profile) (clientIP : String) (now : ℤ)
    (random : Option Bytes) (order : List Bytes) : Registry F × Except ManagerError String :=
  match profile.bind fun p => r.matchCapability p.capability with
  | none => (r, .error .authentication)
  | some profile =>
      match random with
      | none => (r, .error .random)
      | some input => r.addBootstrap sha256 profile clientIP now input order

structure CreateResult where
  token : String
  welcome : Bytes
  session : ℕ
deriving DecidableEq, Repr

/-- Whether a limit on sessions is reached. -/
def sessionLimitReached (r : Registry F) (profile : Profile) (clientIP : String) : Prop :=
  r.closed = true ∨
    r.config.limits.maxSessionsGlobal.toInt ≤ r.sessions.size ∨
    (r.config.profileLimits profile).maxSessions.toInt ≤
      r.sessionsPerProfile.count profile.name ∨
    (r.config.limits.maxSessionsPerIP ≠ 0 ∧
      r.config.limits.maxSessionsPerIP.toInt ≤ r.sessionsPerIP.count clientIP)

instance (r : Registry F) (profile : Profile) (clientIP : String) :
    Decidable (r.sessionLimitReached profile clientIP) := by
  unfold sessionLimitReached
  exact inferInstance

/-- The end of `Create`: the session is entered and the bootstrap consumed. -/
def consume (r : Registry F) (hash : Bytes) (entry : Bootstrap) (clientIP : String)
    (bodyDigest input : Bytes) : Registry F × CreateResult :=
  let (sessionToken, sessionHash) := newToken sha256 input
  let created := r.nextSession
  let r := { r with
    sessions := r.sessions.put sessionHash ⟨created, clientIP, entry.profile⟩
    sessionsPerIP := r.sessionsPerIP.increment clientIP
    sessionsPerProfile := r.sessionsPerProfile.increment entry.profile.name }
  let r := r.releaseUnusedBootstrapLocked entry
  ({ r with
      bootstraps := r.bootstraps.put hash (entry.consumed bodyDigest sessionToken created)
      sessionsCreated := r.sessionsCreated + 1
      nextSession := created + 1 },
    ⟨sessionToken, encode .welcome 0 [], created⟩)

/-- `Create` from an entry that has not been used. -/
def createSession (r : Registry F) (hash : Bytes) (entry : Bootstrap) (clientIP : String)
    (body : Bytes) (now : ℤ) (random : Option Bytes) :
    Registry F × Except ManagerError CreateResult :=
  if r.sessionLimitReached entry.profile clientIP then
    ({ r with limitHits := r.limitHits + 1 }, .error .limit)
  else
    let profile := r.config.profileLimits entry.profile
    match allowProfileRate r.sessionRate r.profileSessionRates entry.profile.name now
        r.config.limits.newSessionsPerMinute r.config.limits.newSessionsBurst
        profile.newSessionsPerMinute profile.newSessionsBurst with
    | none => ({ r with limitHits := r.limitHits + 1 }, .error .limit)
    | some (sessionRate, profileSessionRates) =>
        let r := { r with sessionRate, profileSessionRates }
        match random with
        | none => (r, .error .random)
        | some input =>
            let (r, result) := r.consume sha256 hash entry clientIP (sha256 body) input
            (r, .ok result)

def create (r : Registry F) (token clientIP : String) (body : Bytes) (now : ℤ)
    (random : Option Bytes) : Registry F × Except ManagerError CreateResult :=
  if parseHello body = false then (r, .error .protocol)
  else
    match tokenHash sha256 token with
    | none => (r, .error .authentication)
    | some hash =>
        match r.bootstraps.get hash with
        | none => (r, .error .authentication)
        | some entry =>
            if entry.expires < now then (r, .error .authentication)
            else if entry.used then
              match entry.session with
              | none => (r, .error .authentication)
              | some session =>
                  if entry.bodyDigest ≠ sha256 body then (r, .error .authentication)
                  else (r, .ok ⟨entry.sessionToken, encode .welcome 0 [], session⟩)
            else r.createSession sha256 hash entry clientIP body now random

def hasBootstrap (r : Registry F) (token : String) (now : ℤ) : Bool :=
  match (tokenHash sha256 token).bind r.bootstraps.get with
  | none => false
  | some entry => !(entry.expires < now)

def get (r : Registry F) (token : String) : Except ManagerError ℕ :=
  match (tokenHash sha256 token).bind r.sessions.get with
  | none => .error .authentication
  | some live => .ok live.session

/-- `CloseToken`: the session to close, if there is one. -/
def closeToken (r : Registry F) (token : String) : Except ManagerError (Option ℕ) :=
  match tokenHash sha256 token with
  | none => .error .authentication
  | some hash =>
      match r.sessions.get hash with
      | some live => .ok (some live.session)
      | none => if r.closedTokens.get hash = none then .error .authentication else .ok none

end

/-- The closed token that makes room, meeting the keys in this order. -/
def oldestClosed (r : Registry F) (order : List Bytes) : Option (Bytes × ℤ) :=
  order.foldl (fun oldest hash =>
    match r.closedTokens.get hash with
    | none => oldest
    | some expires =>
        match oldest with
        | none => some (hash, expires)
        | some best => if expires < best.2 then some (hash, expires) else oldest) none

/-- The first loop of `sessionFinished`, at the entry it finds. -/
def dropSession (r : Registry F) (hash : Bytes) (live : LiveSession) (now : ℤ)
    (order : List Bytes) : Registry F :=
  let closedTokens :=
    if r.config.limits.maxSessionsGlobal.toInt * 16 ≤ r.closedTokens.size then
      match r.oldestClosed order with
      | none => r.closedTokens
      | some oldest => r.closedTokens.del oldest.1
    else r.closedTokens
  { r with
    sessions := r.sessions.del hash
    closedTokens := closedTokens.put hash (now + r.config.bootstrapLifetime)
    sessionsPerIP := r.sessionsPerIP.decrement (· = 0) live.clientIP
    sessionsPerProfile := r.sessionsPerProfile.decrement (· = 0) live.profile.name }

def sessionFinished (r : Registry F) (value : ℕ) (now : ℤ) (order : List Bytes) :
    Registry F :=
  let r := match r.sessions.entries.find? fun e => e.2.session = value with
    | none => r
    | some e => r.dropSession e.1 e.2 now order
  let r := r.removeBootstraps fun current => current.session = some value
  { r with sessionsClosed := r.sessionsClosed + 1 }

/-- The registry after `Shutdown` has locked; closing the sessions is theirs. -/
def shutdown (r : Registry F) : Registry F := { r with closed := true }

end Registry

end TproxyServer
