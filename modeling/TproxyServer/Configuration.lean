import TproxyServer.State

/-! # Configurations

`config.Limits` and `config.ProfileLimits`, whose `int` fields are `Int64` here, with the
limit checks of `Config.validate`, `validateProfileLimits`, `ProfileLimits.WithDefaults` and
`session.ValidateBudget`.  A `Config` is what start-up lets through: the three checks are its
fields, so everything that runs under a configuration may rely on them.

`Config.validate` also checks host names, addresses, directories and timeouts; they have no
bearing on the limits and are left out. -/

namespace TproxyServer

namespace Config

structure Limits where
  maxHeaderBytes : Int64
  maxBodyBytes : Int64
  maxFramePayload : Int64
  carrierBatchBytes : Int64
  maxStreamsPerSession : Int64
  maxClosedStreamIDs : Int64
  maxPendingPerSession : Int64
  maxPendingGlobal : Int64
  maxPendingItemsPerSession : Int64
  maxPendingItemsGlobal : Int64
  maxSessionsPerIP : Int64
  maxSessionsGlobal : Int64
  maxStreamsGlobal : Int64
  maxBackendDialsInFlight : Int64
  newSessionsPerMinute : Int64
  newSessionsBurst : Int64
  newStreamsPerMinute : Int64
  newStreamsBurst : Int64
  maxBootstrapsPerIP : Int64
  maxBootstrapsGlobal : Int64
  newBootstrapsPerMinute : Int64
  newBootstrapsBurst : Int64
  maxProfiles : Int64

/-- The limits of `config.Defaults`. -/
def defaults : Limits where
  maxHeaderBytes := 16 * 1024
  maxBodyBytes := 2 * 1024 * 1024
  maxFramePayload := 1024 * 1024
  carrierBatchBytes := 2 * 1024 * 1024
  maxStreamsPerSession := 128
  maxClosedStreamIDs := 4096
  maxPendingPerSession := 32 * 1024 * 1024
  maxPendingGlobal := 512 * 1024 * 1024
  maxPendingItemsPerSession := 16 * 1024
  maxPendingItemsGlobal := 256 * 1024
  maxSessionsPerIP := 0
  maxSessionsGlobal := 128
  maxStreamsGlobal := 4096
  maxBackendDialsInFlight := 256
  newSessionsPerMinute := 600
  newSessionsBurst := 128
  newStreamsPerMinute := 6000
  newStreamsBurst := 512
  maxBootstrapsPerIP := 0
  maxBootstrapsGlobal := 512
  newBootstrapsPerMinute := 1200
  newBootstrapsBurst := 256
  maxProfiles := 32

def maxCarrierBatchBytes : Int64 := 2 * 1024 * 1024

/-- The limits that `Config.validate` wants positive. -/
def Limits.positive (l : Limits) : List Int64 :=
  [l.maxStreamsPerSession, l.maxClosedStreamIDs,
    l.maxPendingPerSession, l.maxPendingGlobal,
    l.maxPendingItemsPerSession, l.maxPendingItemsGlobal,
    l.maxSessionsGlobal, l.maxStreamsGlobal,
    l.maxBackendDialsInFlight,
    l.newSessionsPerMinute, l.newSessionsBurst,
    l.newStreamsPerMinute, l.newStreamsBurst,
    l.maxBootstrapsGlobal,
    l.newBootstrapsPerMinute, l.newBootstrapsBurst,
    l.maxProfiles]

/-- The limit checks of `Config.validate`. -/
def Limits.validate (l : Limits) : Except String Unit :=
  if l.maxHeaderBytes < 4096 ∨ l.maxBodyBytes < 1024 ∨ l.maxFramePayload ≤ 0 ∨
      1024 * 1024 < l.maxFramePayload ∨ l.carrierBatchBytes < 256 * 1024 ∨
      l.maxBodyBytes < l.carrierBatchBytes then
    .error "invalid HTTP or frame limits"
  else if maxCarrierBatchBytes < l.carrierBatchBytes then
    .error "carrier_batch_bytes must not exceed the 2 MiB desktop loopback message cap"
  else if ∃ value ∈ l.positive, value ≤ 0 then
    .error "all resource limits must be positive"
  else if l.maxSessionsPerIP < 0 ∨ l.maxBootstrapsPerIP < 0 then
    .error "per-IP limits must not be negative"
  else if l.maxPendingGlobal < l.maxPendingPerSession ∨
      l.maxPendingItemsGlobal < l.maxPendingItemsPerSession ∨
      l.maxSessionsGlobal < l.maxSessionsPerIP ∨
      l.maxStreamsGlobal < l.maxStreamsPerSession ∨
      l.maxStreamsGlobal < l.maxBackendDialsInFlight ∨
      l.maxBootstrapsGlobal < l.maxBootstrapsPerIP then
    .error "global limits must not be smaller than per-session or per-IP limits"
  else .ok ()

/-- `config.ProfileLimits`; a zero stands for the global limit. -/
structure ProfileLimits where
  maxSessions : Int64 := 0
  maxStreams : Int64 := 0
  maxBackendDialsInFlight : Int64 := 0
  newSessionsPerMinute : Int64 := 0
  newSessionsBurst : Int64 := 0
  newStreamsPerMinute : Int64 := 0
  newStreamsBurst : Int64 := 0
  maxStreamsPerSession : Int64 := 0
  maxPendingPerSession : Int64 := 0
deriving DecidableEq

def minInt (first second : Int64) : Int64 := if first < second then first else second

/-- A limit that is not given falls back. -/
def orElse (value fallback : Int64) : Int64 := if value = 0 then fallback else value

def ProfileLimits.withDefaults (limits : ProfileLimits) (global : Limits) : ProfileLimits :=
  let maxStreams := orElse limits.maxStreams global.maxStreamsGlobal
  { maxSessions := orElse limits.maxSessions global.maxSessionsGlobal
    maxStreams
    maxBackendDialsInFlight := orElse limits.maxBackendDialsInFlight
      (minInt global.maxBackendDialsInFlight maxStreams)
    newSessionsPerMinute := orElse limits.newSessionsPerMinute global.newSessionsPerMinute
    newSessionsBurst := orElse limits.newSessionsBurst global.newSessionsBurst
    newStreamsPerMinute := orElse limits.newStreamsPerMinute global.newStreamsPerMinute
    newStreamsBurst := orElse limits.newStreamsBurst global.newStreamsBurst
    maxStreamsPerSession := orElse limits.maxStreamsPerSession
      (minInt global.maxStreamsPerSession maxStreams)
    maxPendingPerSession := orElse limits.maxPendingPerSession global.maxPendingPerSession }

/-- One row of the table of `validateProfileLimits`. -/
structure LimitCheck where
  name : String
  value : Int64
  limit : Int64

def profileChecks (value : ProfileLimits) (global : Limits) : List LimitCheck :=
  [⟨"max_sessions", value.maxSessions, global.maxSessionsGlobal⟩,
    ⟨"max_streams", value.maxStreams, global.maxStreamsGlobal⟩,
    ⟨"max_backend_dials_in_flight", value.maxBackendDialsInFlight,
      global.maxBackendDialsInFlight⟩,
    ⟨"new_sessions_per_minute", value.newSessionsPerMinute, global.newSessionsPerMinute⟩,
    ⟨"new_sessions_burst", value.newSessionsBurst, global.newSessionsBurst⟩,
    ⟨"new_streams_per_minute", value.newStreamsPerMinute, global.newStreamsPerMinute⟩,
    ⟨"new_streams_burst", value.newStreamsBurst, global.newStreamsBurst⟩,
    ⟨"max_streams_per_session", value.maxStreamsPerSession, global.maxStreamsPerSession⟩,
    ⟨"max_pending_per_session", value.maxPendingPerSession, global.maxPendingPerSession⟩]

def LimitCheck.fails (check : LimitCheck) : Bool := check.value < 0 || check.limit < check.value

def validateProfileLimits (value : ProfileLimits) (global : Limits) : Except String Unit :=
  match (profileChecks value global).find? LimitCheck.fails with
  | some check =>
      .error (check.name ++ " must be between 0 and " ++ toString check.limit.toInt)
  | none =>
      let resolved := value.withDefaults global
      if resolved.maxStreams < resolved.maxStreamsPerSession then
        .error "max_streams_per_session must not exceed max_streams"
      else if resolved.maxStreams < resolved.maxBackendDialsInFlight then
        .error "max_backend_dials_in_flight must not exceed max_streams"
      else .ok ()

/-! ### What start-up accepts -/

theorem Limits.validate_positive {l : Limits} (h : l.validate = .ok ()) :
    ∀ value ∈ l.positive, 0 < value := by
  unfold validate at h
  split_ifs at h with _ _ hpos _
  intro value hv
  by_contra hle
  exact hpos ⟨value, hv, Int64.not_lt.mp hle⟩

/-- An accepted limit as a natural number. -/
theorem toNatClampNeg_pos {value : Int64} (h : 0 < value) : 0 < value.toNatClampNeg := by
  have := Int64.lt_iff_toInt_lt.mp h
  rw [Int64.toInt_zero] at this
  unfold Int64.toNatClampNeg
  omega

/-- The limits as a session reads them, with the streams and the budget of its profile. -/
def Limits.session (l : Limits) (h : l.validate = .ok ()) (maxStreamsPerSession
    maxPendingPerSession : Int64) : TproxyServer.Limits where
  maxBodyBytes := l.maxBodyBytes.toNatClampNeg
  maxFramePayload := l.maxFramePayload.toNatClampNeg
  carrierBatchBytes := l.carrierBatchBytes.toNatClampNeg
  maxStreamsPerSession := maxStreamsPerSession.toNatClampNeg
  maxClosedStreamIDs := l.maxClosedStreamIDs.toNatClampNeg
  maxPendingPerSession := maxPendingPerSession.toNatClampNeg
  maxPendingItemsPerSession := l.maxPendingItemsPerSession.toNatClampNeg
  maxPendingGlobal := l.maxPendingGlobal.toNatClampNeg
  maxPendingItemsGlobal := l.maxPendingItemsGlobal.toNatClampNeg
  maxSessionsGlobal := l.maxSessionsGlobal.toNatClampNeg
  maxClosedStreamIDs_pos :=
    toNatClampNeg_pos (Limits.validate_positive h _ (by simp [Limits.positive]))

/-- The limits of the process. -/
def Limits.global (l : Limits) (h : l.validate = .ok ()) : TproxyServer.Limits :=
  l.session h l.maxStreamsPerSession l.maxPendingPerSession

end Config

def validateBudget (limits : Limits) : Except String Unit :=
  let reserve := pendingControlReserve limits
  if limits.maxPendingGlobal / limits.maxSessionsGlobal < reserve.1 then
    .error "per-session control reserve times max_sessions_global exhausts max_pending_global"
  else if limits.maxPendingItemsGlobal / limits.maxSessionsGlobal < reserve.2 then
    .error
      "per-session control reserve times max_sessions_global exhausts max_pending_items_global"
  else .ok ()

/-- `config.Profile`, with the limits as they are given; the backend's address is left out. -/
structure Profile where
  name : String
  carrierMode : CarrierMode := .https
  capability : Bytes
  limits : Config.ProfileLimits := {}
deriving DecidableEq

/-- A configuration that `Load` and `ValidateBudget` have accepted; of its timeouts only the
one of a bootstrap, in nanoseconds. -/
structure Config where
  limits : Config.Limits
  bootstrapLifetime : ℤ
  profiles : List Profile
  valid : limits.validate = .ok ()
  profilesValid : ∀ p ∈ profiles, Config.validateProfileLimits p.limits limits = .ok ()
  budgetValid : validateBudget (limits.global valid) = .ok ()

namespace Config

theorem defaults_valid : defaults.validate = .ok () := by decide +kernel

theorem defaults_budgetValid : validateBudget (defaults.global defaults_valid) = .ok () := by
  decide +kernel

/-- The limits of a profile once `NewManager` has filled in the defaults. -/
def profileLimits (c : Config) (p : Profile) : ProfileLimits := p.limits.withDefaults c.limits

/-- The limits `Manager.Create` gives to a session of a profile. -/
def sessionLimits (c : Config) (p : Profile) : TproxyServer.Limits :=
  c.limits.session c.valid (c.profileLimits p).maxStreamsPerSession
    (c.profileLimits p).maxPendingPerSession

end Config

end TproxyServer
