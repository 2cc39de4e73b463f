import TproxyServer.BootstrapAccounting
import TproxyServer.Admission

/-! # The sessions, streams and dials of a process

`Manager` with the sessions it has created and the backends they run.  `Registry` is its part
that knows tokens; `StreamCounters` the part that `acquireStream`, `backendDialFinished` and
`streamFinished` keep.  A session runs one section at a time under its own mutex, and the
sections of different sessions interleave wherever one of them calls the manager.  A backend is
created by the section that admits its OPEN, starts once that section has ended
(`runBackend`), dials, and finishes; what its loops do to the session in between are sections
like any others.

The answers of `changePendingBudget` are left open.  `streamsOpened` and the other metrics are
left out; nothing reads them back. -/

namespace TproxyServer

open Interaction Prog

variable {F : Type}

/-! ### Counting streams and dials -/

/-- `Manager`, as far as streams go. -/
structure StreamCounters (F : Type) where
  streamsLive : ℤ := 0
  backendDialsInFlight : ℤ := 0
  streamsPerProfile : Table String ℤ := .nil
  dialsPerProfile : Table String ℤ := .nil
  streamRate : RateState F
  profileStreamRates : Table String (RateState F) := .nil

inductive StreamPanic where
  /-- "invalid backend dial accounting". -/
  | dial
  /-- "invalid stream accounting". -/
  | stream

namespace StreamCounters

/-- Whether a limit on streams or dials is reached. -/
def limitReached (m : StreamCounters F) (config : Config) (closed : Bool) (profile : Profile) :
    Prop :=
  closed = true ∨
    config.limits.maxStreamsGlobal.toInt ≤ m.streamsLive ∨
    config.limits.maxBackendDialsInFlight.toInt ≤ m.backendDialsInFlight ∨
    (config.profileLimits profile).maxStreams.toInt ≤ m.streamsPerProfile.count profile.name ∨
    (config.profileLimits profile).maxBackendDialsInFlight.toInt ≤
      m.dialsPerProfile.count profile.name

instance (m : StreamCounters F) (config : Config) (closed : Bool) (profile : Profile) :
    Decidable (m.limitReached config closed profile) := by
  unfold limitReached
  exact inferInstance

/-- `acquireStream`; `none` is a refusal, which changes nothing. -/
def acquireStream [Float64 F] (m : StreamCounters F) (config : Config) (closed : Bool)
    (profile : Profile) (now : ℤ) : Option (StreamCounters F) :=
  if m.limitReached config closed profile then none
  else
    let limits := config.profileLimits profile
    (allowProfileRate m.streamRate m.profileStreamRates profile.name now
      config.limits.newStreamsPerMinute config.limits.newStreamsBurst
      limits.newStreamsPerMinute limits.newStreamsBurst).map fun rates =>
        { streamsLive := m.streamsLive + 1
          backendDialsInFlight := m.backendDialsInFlight + 1
          streamsPerProfile := m.streamsPerProfile.increment profile.name
          dialsPerProfile := m.dialsPerProfile.increment profile.name
          streamRate := rates.1
          profileStreamRates := rates.2 }

def backendDialFinished (m : StreamCounters F) (profile : Profile) :
    Except StreamPanic (StreamCounters F) :=
  if m.backendDialsInFlight ≤ 0 ∨ m.dialsPerProfile.count profile.name ≤ 0 then .error .dial
  else .ok { m with
    backendDialsInFlight := m.backendDialsInFlight - 1
    dialsPerProfile := m.dialsPerProfile.decrement (· = 0) profile.name }

def streamFinished (m : StreamCounters F) (profile : Profile) :
    Except StreamPanic (StreamCounters F) :=
  if m.streamsLive ≤ 0 ∨ m.streamsPerProfile.count profile.name ≤ 0 then .error .stream
  else .ok { m with
    streamsLive := m.streamsLive - 1
    streamsPerProfile := m.streamsPerProfile.decrement (· = 0) profile.name }

end StreamCounters

/-! ### The process -/

/-- Where a backend is, as far as the manager's counters go. -/
inductive Phase where
  /-- The section that admitted its OPEN is still under way. -/
  | created
  | dialling
  /-- The dial has completed, whether it succeeded, failed or was cancelled. -/
  | dialled
deriving DecidableEq

/-- A backend whose run has not finished. -/
structure Backend where
  session : ℕ
  profile : Profile
  phase : Phase

/-- A session of the process. -/
inductive Tenancy where
  /-- Nobody holds the session's mutex. -/
  | idle (σ : Traced)
  /-- A section is under way: the history so far, and the rest of the section. -/
  | running (trace : List Event) (rest : Act (Session × Reply))

def Tenancy.trace : Tenancy → List Event
  | idle σ => σ.trace
  | running t _ => t

structure Tenant where
  profile : Profile
  state : Tenancy

structure Fleet (F : Type) where
  run : Registry.Run F
  counters : StreamCounters F
  sessions : Table ℕ Tenant := .nil
  backends : Table ℕ Backend := .nil
  nextBackend : ℕ := 0

/-- `NewManager`. -/
def newFleet [Float64 F] (config : Config) : Fleet F :=
  { run := { registry := newRegistry config }, counters := { streamRate := .zero } }

namespace Fleet

def registry (W : Fleet F) : Registry F := W.run.registry

def config (W : Fleet F) : Config := W.registry.config

def set (W : Fleet F) (k : ℕ) (profile : Profile) (state : Tenancy) : Fleet F :=
  { W with sessions := W.sessions.put k ⟨profile, state⟩ }

/-- A backend is created in session `k`. -/
def create (W : Fleet F) (k : ℕ) (profile : Profile) : Fleet F :=
  { W with backends := W.backends.put W.nextBackend ⟨k, profile, .created⟩
           nextBackend := W.nextBackend + 1 }

def setBackend (W : Fleet F) (n : ℕ) (backend : Backend) : Fleet F :=
  { W with backends := W.backends.put n backend }

variable [Float64 F] (sha256 : Bytes → Bytes)

/-- One thing happens in the process. -/
inductive Step : Fleet F → Fleet F → Prop
  /-- The manager works on its tokens and creates no session. -/
  | manage {W : Fleet F} {op : Registry.Op}
      (hfresh : ∀ x ∈ op.random, x.length = 32 ∧ x ∉ W.run.drawn)
      (hold : op.creation sha256 W.registry = none)
      (hfinished : ∀ k now order, op = .sessionFinished k now order →
        ∃ x, W.sessions.get k = some x ∧ .finished ∈ x.state.trace) :
      Step W { W with run := W.run.after sha256 op }
  /-- `Create` adds a session. -/
  | create {W : Fleet F} {op : Registry.Op} {hash : Bytes} {live : LiveSession}
      (hfresh : ∀ x ∈ op.random, x.length = 32 ∧ x ∉ W.run.drawn)
      (hlive : (W.run.after sha256 op).registry.sessions.get hash = some live)
      (hnew : live.session = W.registry.nextSession) :
      Step W ({ W with run := W.run.after sha256 op }.set live.session live.profile
        (.idle ⟨newSession (W.config.sessionLimits live.profile) live.profile.carrierMode, []⟩))
  | begin {W : Fleet F} {k : ℕ} {p : Profile} {σ : Traced}
      (h : W.sessions.get k = some ⟨p, .idle σ⟩) (c : Section) (hc : c.Callable σ.session) :
      Step W (W.set k p (.running σ.trace (c.exec sha256 σ.session)))
  | note {W : Fleet F} {k : ℕ} {p : Profile} {t : List Event} {e : Event}
      {rest : Act (Session × Reply)} (h : W.sessions.get k = some ⟨p, .running t (.note e rest)⟩)
      (he : e.opens = false) :
      Step W (W.set k p (.running (t ++ [e]) rest))
  | budget {W : Fleet F} {k : ℕ} {p : Profile} {t : List Event} {cost items : ℤ}
      {cls : PendingClass} {next : Bool → Act (Session × Reply)}
      (h : W.sessions.get k = some ⟨p, .running t (.ask (.budget cost items cls) next)⟩)
      (granted : Bool) :
      Step W (W.set k p (.running t (next granted)))
  /-- `acquireStream` admits an OPEN, and the section creates its backend. -/
  | acquire {W : Fleet F} {k : ℕ} {p : Profile} {t : List Event} {e : Event}
      {next : Bool → Act (Session × Reply)} {rest : Act (Session × Reply)} {now : ℤ}
      {m : StreamCounters F}
      (h : W.sessions.get k = some ⟨p, .running t (.ask .acquireStream next)⟩)
      (hm : W.counters.acquireStream W.config W.registry.closed p now = some m)
      (hnext : next true = .note e rest) (he : e.opens = true) :
      Step W (({ W with counters := m }.create k p).set k p (.running (t ++ [e]) rest))
  | reject {W : Fleet F} {k : ℕ} {p : Profile} {t : List Event}
      {next : Bool → Act (Session × Reply)} {now : ℤ}
      (h : W.sessions.get k = some ⟨p, .running t (.ask .acquireStream next)⟩)
      (hm : W.counters.acquireStream W.config W.registry.closed p now = none) :
      Step W (W.set k p (.running t (next false)))
  | finish {W : Fleet F} {k : ℕ} {p : Profile} {t : List Event} {s : Session} {r : Reply}
      (h : W.sessions.get k = some ⟨p, .running t (.done (s, r))⟩) :
      Step W (W.set k p (.idle ⟨s, t⟩))
  /-- `runBackend`: the section that created the backend has ended. -/
  | start {W : Fleet F} {n k : ℕ} {p : Profile} {x : Tenant} {σ : Traced}
      (h : W.backends.get n = some ⟨k, p, .created⟩) (hx : W.sessions.get k = some x)
      (hidle : x.state = .idle σ) :
      Step W (W.setBackend n ⟨k, p, .dialling⟩)
  | dialFinished {W : Fleet F} {n k : ℕ} {p : Profile} {m : StreamCounters F}
      (h : W.backends.get n = some ⟨k, p, .dialling⟩)
      (hm : W.counters.backendDialFinished p = .ok m) :
      Step W ({ W with counters := m }.setBackend n ⟨k, p, .dialled⟩)
  | streamFinished {W : Fleet F} {n k : ℕ} {p : Profile} {m : StreamCounters F}
      (h : W.backends.get n = some ⟨k, p, .dialled⟩)
      (hm : W.counters.streamFinished p = .ok m) :
      Step W { W with counters := m, backends := W.backends.del n }

/-- The states that a process can reach. -/
inductive Reachable (config : Config) : Fleet F → Prop
  | start : Reachable config (newFleet config)
  | step {W W' : Fleet F} : Reachable config W → Step sha256 W W' → Reachable config W'

/-- Session `k` goes on by one step of its section, the pending budget granting what is asked. -/
def advance (k : ℕ) (now : ℤ) (W : Fleet F) : Option (Fleet F) :=
  match W.sessions.get k with
  | none | some ⟨_, .idle _⟩ | some ⟨_, .running _ (.panic _)⟩ => none
  | some ⟨p, .running t (.done (s, _))⟩ => some (W.set k p (.idle ⟨s, t⟩))
  | some ⟨p, .running t (.note e rest)⟩ =>
      if e.opens then none else some (W.set k p (.running (t ++ [e]) rest))
  | some ⟨p, .running t (.ask (.budget _ _ _) next)⟩ =>
      some (W.set k p (.running t (next true)))
  | some ⟨p, .running t (.ask .acquireStream next)⟩ =>
      match W.counters.acquireStream W.config W.registry.closed p now, next true with
      | none, _ => some (W.set k p (.running t (next false)))
      | some m, .note e rest =>
          if e.opens then
            some (({ W with counters := m }.create k p).set k p (.running (t ++ [e]) rest))
          else none
      | some _, _ => none

/-- What a session goes on to is a step, and none of the registry's. -/
theorem advance_step {W W' : Fleet F} {k : ℕ} {now : ℤ} (ha : W.advance k now = some W') :
    Step sha256 W W' ∧ W'.run = W.run := by
  unfold Fleet.advance at ha
  split at ha
  · cases ha
  · cases ha
  · cases ha
  · next hget =>
      cases ha
      exact ⟨.finish hget, rfl⟩
  · next hget =>
      split_ifs at ha with he
      cases ha
      exact ⟨.note hget (by simpa using he), rfl⟩
  · next hget =>
      cases ha
      exact ⟨.budget hget true, rfl⟩
  · next hget =>
      split at ha
      · next hm =>
          cases ha
          exact ⟨.reject hget hm, rfl⟩
      · next hm hnext =>
          split_ifs at ha with he
          cases ha
          exact ⟨.acquire hget hm hnext he, rfl⟩
      · cases ha

/-- What a session goes on to is reached. -/
theorem Reachable.advance {config : Config} {W W' : Fleet F} {k : ℕ} {now : ℤ}
    (h : Reachable sha256 config W) (ha : W.advance k now = some W') :
    Reachable sha256 config W' := h.step (advance_step sha256 ha).1

end Fleet

end TproxyServer
