import TproxyServer.Uplink
import TproxyServer.Polling
import TproxyServer.Backends

/-! # A session as a transition system

Everything a session does under its mutex is one of the critical sections below.  A step of
the session system runs one section against an environment that answers as it likes; which
goroutine runs it, and in which order, is left open here, so the reachable states include
those of every interleaving of any number of callers. -/

namespace TproxyServer

open Interaction Prog

/-- The critical sections of a session. -/
inductive Section where
  | acquireWebSocket
  | acquireWebSocketLane (laneID : ℕ)
  | releaseWebSocketLane (laneID : ℕ)
  | laneProtocolFailure (laneID : ℕ)
  | close
  | processUpBegin (sequence : ℕ) (body : Bytes)
  | processUpCommit (sequence : ℕ) (body : Bytes)
  | processUpLane (laneID sequence : ℕ) (body : Bytes)
  | poll (cursor : ℕ)
  | pollLane (laneID cursor : ℕ)
  | pollResume (q : QueueRef) (cursor mine : ℕ) (wake : Wake)
  | takeToken (q : QueueRef)
  | nextWrite (id : ℕ)
  | backendDrained (id amount : ℕ)
  | backendWriteFinished (id : ℕ)
  | nextReadAllowance (id : ℕ)
  | backendData (id : ℕ) (data : Bytes)
  | backendClosed (id backend : ℕ)

inductive Reply where
  | none
  | flag (ok : Bool)
  | up (r : UpReply)
  | poll (r : PollReply)
  | write (r : WriteReply)
  | read (r : ReadReply)
deriving DecidableEq, Repr

def Section.exec (sha256 : Bytes → Bytes) (s : Session) : Section → Act (Session × Reply)
  | acquireWebSocket =>
      let r := TproxyServer.acquireWebSocket s
      pure (r.1, .flag r.2)
  | acquireWebSocketLane laneID =>
      let r := TproxyServer.acquireWebSocketLane s laneID
      pure (r.1, .flag r.2)
  | releaseWebSocketLane laneID => do
      let s ← TproxyServer.releaseWebSocketLane s laneID
      pure (s, .none)
  | laneProtocolFailure laneID => do
      let s ← TproxyServer.laneProtocolFailure s laneID
      pure (s, .none)
  | close => do
      let s ← closeLocked s
      pure (s, .none)
  | processUpBegin sequence body =>
      let r := TproxyServer.processUpBegin sha256 s sequence body
      pure (r.1, .up r.2)
  | processUpCommit sequence body => do
      let r ← TproxyServer.processUpCommit sha256 s sequence body
      pure (r.1, .up r.2)
  | processUpLane laneID sequence body => do
      let r ← TproxyServer.processUpLane sha256 s laneID sequence body
      pure (r.1, .up r.2)
  | poll cursor => do
      let r ← TproxyServer.poll s cursor
      pure (r.1, .poll r.2)
  | pollLane laneID cursor => do
      let r ← TproxyServer.pollLane s laneID cursor
      pure (r.1, .poll r.2)
  | pollResume q cursor mine wake => do
      let r ← TproxyServer.pollResume s q cursor mine wake
      pure (r.1, .poll r.2)
  | takeToken q => pure (TproxyServer.takeToken s q, .none)
  | nextWrite id =>
      let r := TproxyServer.nextWrite s id
      pure (r.1, .write r.2)
  | backendDrained id amount => do
      let r ← TproxyServer.backendDrained s id amount
      pure (r.1, .flag r.2)
  | backendWriteFinished id => do
      let r ← TproxyServer.backendWriteFinished s id
      pure (r.1, .flag r.2)
  | nextReadAllowance id => pure (s, .read (TproxyServer.nextReadAllowance s id))
  | backendData id data => do
      let r ← TproxyServer.backendData s id data
      pure (r.1, .flag r.2)
  | backendClosed id backend => do
      let s ← TproxyServer.backendClosed s id backend
      pure (s, .none)

/-- A session together with everything it has done so far. -/
structure Traced where
  session : Session
  trace : List Event

/-- `ProcessUp` comes to its second section only past its test of the carrier. -/
def Section.Callable (s : Session) : Section → Prop
  | .processUpCommit _ _ => s.usesCarrierLanes = false
  | _ => True

/-- One section of a session runs to its end, some answers being given. -/
inductive Step (sha256 : Bytes → Bytes) : Traced → Section → Reply → Traced → Prop
  | run {s s' : Session} {t es : List Event} {c : Section} {r : Reply} :
      c.Callable s → Runs (c.exec sha256 s) es (.ok (s', r)) →
      Step sha256 ⟨s, t⟩ c r ⟨s', t ++ es⟩

/-- The states a session with these limits and this carrier can reach. -/
inductive Reachable (sha256 : Bytes → Bytes) (limits : Limits) (carrier : CarrierMode) :
    Traced → Prop
  | start : Reachable sha256 limits carrier ⟨newSession limits carrier, []⟩
  | step {σ σ' : Traced} {c : Section} {r : Reply} :
      Reachable sha256 limits carrier σ → Step sha256 σ c r σ' →
      Reachable sha256 limits carrier σ'

instance (s : Session) (c : Section) : Decidable (c.Callable s) :=
  match c with
  | .processUpCommit _ _ => inferInstanceAs (Decidable (s.usesCarrierLanes = false))
  | .acquireWebSocket | .acquireWebSocketLane _ | .releaseWebSocketLane _
  | .laneProtocolFailure _ | .close | .processUpBegin _ _ | .processUpLane _ _ _ | .poll _
  | .pollLane _ _ | .pollResume _ _ _ _ | .takeToken _ | .nextWrite _ | .backendDrained _ _
  | .backendWriteFinished _ | .nextReadAllowance _ | .backendData _ _ | .backendClosed _ _ =>
      inferInstanceAs (Decidable True)

/-- Run one section against a list of answers; a panic is no result. -/
def attempt (sha256 : Bytes → Bytes) (σ : Traced) (c : Section) (answers : List Bool) :
    Option (Reply × Traced) :=
  if c.Callable σ.session then
    match (c.exec sha256 σ.session).run answers with
    | (es, .ok (s', r)) => some (r, ⟨s', σ.trace ++ es⟩)
    | (_, .error _) => none
  else none

theorem attempt_eq_some {sha256 : Bytes → Bytes} {σ σ' : Traced} {c : Section} {r : Reply}
    {answers : List Bool} (h : attempt sha256 σ c answers = some (r, σ')) :
    c.Callable σ.session ∧ ∃ es, (c.exec sha256 σ.session).run answers =
      (es, .ok (σ'.session, r)) ∧ σ'.trace = σ.trace ++ es := by
  unfold TproxyServer.attempt at h
  split_ifs at h with hc
  split at h
  · next es s' r' hrun =>
      cases h
      exact ⟨hc, es, hrun, rfl⟩
  · cases h

theorem Step.attempt {sha256 : Bytes → Bytes} {σ σ' : Traced} {c : Section} {r : Reply}
    {answers : List Bool} (h : attempt sha256 σ c answers = some (r, σ')) :
    Step sha256 σ c r σ' := by
  obtain ⟨hc, es, hrun, htrace⟩ := attempt_eq_some h
  obtain ⟨s', t'⟩ := σ'
  cases htrace
  exact .run hc (runs_of_run answers hrun)

/-- Every step is an attempt with some answers. -/
theorem Step.exists_attempt {sha256 : Bytes → Bytes} {σ σ' : Traced} {c : Section} {r : Reply}
    (h : Step sha256 σ c r σ') :
    ∃ answers, TproxyServer.attempt sha256 σ c answers = some (r, σ') := by
  cases h with
  | run hc hr =>
      obtain ⟨answers, hrun⟩ := exists_run hr
      refine ⟨answers, ?_⟩
      unfold TproxyServer.attempt
      rw [if_pos hc, hrun]

/-- Run sections one after the other, each against a list of answers. -/
def play (sha256 : Bytes → Bytes) : Traced → List (Section × List Bool) → Option Traced
  | σ, [] => some σ
  | σ, (c, answers) :: rest =>
      (attempt sha256 σ c answers).bind fun p => play sha256 p.2 rest

theorem Reachable.play {sha256 : Bytes → Bytes} {limits : Limits} {carrier : CarrierMode}
    {σ σ' : Traced} {script : List (Section × List Bool)}
    (h : Reachable sha256 limits carrier σ) (hp : play sha256 σ script = some σ') :
    Reachable sha256 limits carrier σ' := by
  induction script generalizing σ with
  | nil => cases hp; exact h
  | cons entry rest ih =>
      obtain ⟨p, hattempt, hrest⟩ := Option.bind_eq_some_iff.mp hp
      exact ih (h.step (.attempt hattempt)) hrest

/-- The reading of a section in which any answer may come and only events are remembered. -/
def observer : World Query Event Panic (List Event) where
  demands _ _ := True
  answers l _ _ l' := l' = l
  notes l e := l ++ [e]
  tolerates _ := True

theorem observer_open : observer.Open := fun _ _ _ => rfl

theorem observer_notes (t es : List Event) : es.foldl observer.notes t = t ++ es := by
  induction es generalizing t with
  | nil => simp
  | cons e es ih =>
      rw [List.foldl_cons, ih]
      simp [observer]

/-- What is proved of a section against the observer holds of every step that runs it. -/
theorem Step.of_wp {sha256 : Bytes → Bytes} {σ σ' : Traced} {c : Section} {r : Reply}
    (h : Step sha256 σ c r σ') {post : List Event → Session × Reply → Prop}
    (hw : c.Callable σ.session → wp observer (c.exec sha256 σ.session) post σ.trace) :
    post σ'.trace (σ'.session, r) := by
  cases h with
  | run hc hr =>
      have := wp_sound observer_open (hw hc) hr
      rwa [observer_notes] at this

end TproxyServer
