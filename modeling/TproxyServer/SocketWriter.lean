import TproxyServer.PollAnswers

/-! # The writer of a multiplexed WebSocket

`writeWebSocket` of `internal/server/server.go` in mode `websocket`, next to everything else that
works on the session: it polls with its own cursor, writes the body that it is given and counts on
once the body is written; a poll without frames is followed by a ping.

`AcquireWebSocket` lets one socket in, so that nothing else polls the session.  A socket that
cannot be written is one step that stops the writer; the end of the request wakes its poll. -/

namespace TproxyServer

open Interaction Prog

variable {limits : Limits} {sha256 : Bytes → Bytes}

/-! ### The loop -/

/-- Where the writer is. -/
inductive WriteLoop where
  /-- About to call `Poll`, or to write the ping before. -/
  | polling
  /-- In `Poll`. -/
  | waiting (w : Waiter)
  /-- It holds a body that is not written. -/
  | writing (body : Bytes) (next : ℕ)
  /-- `Poll` has failed and is about to close the session. -/
  | closing
  | finished

/-- The session and its writer.  Nothing reads `written`, the bodies of the messages. -/
structure SocketWriter where
  relay : Traced
  writer : WriteLoop := .polling
  cursor : ℕ := 0
  written : List Bytes := []

namespace SocketWriter

/-- A section of `Poll` has answered, or it goes on waiting. -/
def answered (X : SocketWriter) (σ : Traced) : PollReply → SocketWriter
  | .batch body next =>
      if body = [] then { X with relay := σ, writer := .polling }
      else { X with relay := σ, writer := .writing body next }
  | .empty _ => { X with relay := σ, writer := .polling }
  | .parked mine =>
      { X with relay := σ, writer := .waiting { q := .session, cursor := X.cursor, mine } }
  | .failing => { X with relay := σ, writer := .closing }
  | .laneClosed _ | .closed | .cancelled | .refused => { X with relay := σ, writer := .finished }

/-- One thing happens. -/
inductive Step (sha256 : Bytes → Bytes) : SocketWriter → SocketWriter → Prop
  | poll {X : SocketWriter} {r : PollReply} {σ : Traced} (h : X.writer = .polling)
      (hs : TproxyServer.Step sha256 X.relay (.poll X.cursor) (.poll r) σ) :
      Step sha256 X (X.answered σ r)
  /-- The `select` receives from another channel than `notify`. -/
  | wake {X : SocketWriter} {w : Waiter} {wake : Wake} (h : X.writer = .waiting w)
      (hblocked : w.wake = none) (hready : w.Ready X.relay.session wake)
      (hother : wake ≠ .notified) :
      Step sha256 X { X with writer := .waiting { w with wake := some wake } }
  | token {X : SocketWriter} {w : Waiter} {r : Reply} {σ : Traced} (h : X.writer = .waiting w)
      (hblocked : w.wake = none) (hready : w.Ready X.relay.session .notified)
      (hs : TproxyServer.Step sha256 X.relay (.takeToken w.q) r σ) :
      Step sha256 X { X with
        relay := σ, writer := .waiting { w with wake := some .notified } }
  | resume {X : SocketWriter} {w : Waiter} {wake : Wake} {r : PollReply} {σ : Traced}
      (h : X.writer = .waiting w) (hwake : w.wake = some wake)
      (hs : TproxyServer.Step sha256 X.relay (.pollResume w.q w.cursor w.mine wake) (.poll r) σ) :
      Step sha256 X (X.answered σ r)
  | write {X : SocketWriter} {body : Bytes} {next : ℕ} (h : X.writer = .writing body next) :
      Step sha256 X { X with
        writer := .polling, cursor := next, written := X.written ++ [body] }
  | stop {X : SocketWriter}
      (h : X.writer = .polling ∨ ∃ body next, X.writer = .writing body next) :
      Step sha256 X { X with writer := .finished }
  | close {X : SocketWriter} {r : Reply} {σ : Traced} (h : X.writer = .closing)
      (hs : TproxyServer.Step sha256 X.relay .close r σ) :
      Step sha256 X { X with relay := σ, writer := .finished }
  /-- The reader, the backends, the end of the session. -/
  | other {X : SocketWriter} {c : Section} {r : Reply} {σ : Traced} (hc : c.polling = false)
      (hs : TproxyServer.Step sha256 X.relay c r σ) : Step sha256 X { X with relay := σ }

/-- The runs of a session with these limits and of its one writer. -/
inductive Reachable (sha256 : Bytes → Bytes) (limits : Limits) : SocketWriter → Prop
  | start : Reachable sha256 limits { relay := ⟨newSession limits .webSocket, []⟩ }
  | step {X X' : SocketWriter} :
      Reachable sha256 limits X → Step sha256 X X' → Reachable sha256 limits X'

variable {X X' : SocketWriter}

/-! ### Its polls are those of a session -/

/-- The session and the poll that waits. -/
def polls (X : SocketWriter) : Polls where
  state := X.relay
  waiting := match X.writer with
    | .waiting w => [w]
    | _ => []

/-- The bodies that were taken for the client. -/
def bodies (X : SocketWriter) : List Bytes :=
  (deliveries X.relay.trace .session).map Prod.snd

/-- The bodies that were taken are written, but for the one in hand. -/
def InHand (X : SocketWriter) : Prop :=
  match X.writer with
  | .polling => X.bodies = X.written ∧ X.cursor = X.written.length
  | .waiting w => X.bodies = X.written ∧ X.cursor = X.written.length ∧
      w.q = .session ∧ w.cursor = X.cursor
  | .writing body next => X.bodies = X.written ++ [body] ∧ next = X.written.length + 1
  | _ => ∃ rest, X.bodies = X.written ++ rest ∧ rest.length ≤ 1

/-- The polls are a run of the session's, and what is in hand. -/
structure Turns (sha256 : Bytes → Bytes) (limits : Limits) (X : SocketWriter) : Prop where
  polls : Polls.Reachable sha256 limits .webSocket X.polls
  hand : X.InHand

theorem answered_polls (X : SocketWriter) (σ : Traced) (r : PollReply) :
    (X.answered σ r).polls = ⟨σ, r.waiter .session X.cursor⟩ := by
  cases r with
  | batch body next =>
      unfold answered
      dsimp only
      split_ifs <;> rfl
  | _ => rfl

/-- A poll takes the body after those that are written, or none. -/
theorem answered_hand {W : Polls} {r : PollReply} {σ : Traced}
    (h : Polls.Reachable sha256 limits .webSocket W) (hstate : W.state = X.relay)
    (hbodies : X.bodies = X.written) (hcursor : X.cursor = X.written.length)
    (hans : W.Answers sha256 .session X.cursor r σ) : (X.answered σ r).InHand := by
  obtain ⟨hreplied, -⟩ := hans.answered h.state h.invariant h.cursors
  rw [hstate] at hreplied
  have hlength : (deliveries X.relay.trace .session).length = X.cursor := by
    rw [hcursor, ← hbodies, bodies, List.length_map]
  have hrest : (∀ body next, r ≠ .batch body next) →
      (deliveries σ.trace .session).map Prod.snd = X.written := by
    intro hno
    rw [hreplied.rest hno]
    exact hbodies
  cases r with
  | batch body next =>
      obtain ⟨hnext, hget⟩ := h.batch hans
      have hne : body ≠ [] := by
        obtain ⟨W', hs, rfl⟩ := hans.step
        exact ((h.step hs).state.carried .session).nonempty _ (List.mem_of_getElem? hget)
      rcases hreplied.batch body next rfl with ⟨htrace, -⟩ | ⟨htrace, -⟩
      · -- A body that is replayed was taken before, but all of these are written.
        rw [htrace, List.getElem?_eq_none hlength.le] at hget
        cases hget
      · have hone : deliveries [.delivered .session X.cursor body] .session =
            [(X.cursor, body)] := by
          simp [deliveries]
        unfold answered
        dsimp only
        rw [if_neg hne]
        refine ⟨?_, ?_⟩
        · unfold bodies
          dsimp only
          rw [htrace, deliveries_append, hone, List.map_append]
          exact congrArg (· ++ [body]) hbodies
        · rw [hnext, hcursor]
  | empty c => exact ⟨hrest (by simp), hcursor⟩
  | parked m => exact ⟨hrest (by simp), hcursor, rfl, rfl⟩
  | laneClosed c => exact ⟨[], (hrest (by simp)).trans (List.append_nil _).symm, by simp⟩
  | closed => exact ⟨[], (hrest (by simp)).trans (List.append_nil _).symm, by simp⟩
  | cancelled => exact ⟨[], (hrest (by simp)).trans (List.append_nil _).symm, by simp⟩
  | refused => exact ⟨[], (hrest (by simp)).trans (List.append_nil _).symm, by simp⟩
  | failing => exact ⟨[], (hrest (by simp)).trans (List.append_nil _).symm, by simp⟩

/-- The writer has let go of what it had in hand. -/
theorem InHand.rest (h : X.InHand) : ∃ rest, X.bodies = X.written ++ rest ∧ rest.length ≤ 1 := by
  unfold InHand at h
  cases hwriter : X.writer with
  | polling =>
      rw [hwriter] at h
      exact ⟨[], h.1.trans (List.append_nil _).symm, by simp⟩
  | waiting w =>
      rw [hwriter] at h
      exact ⟨[], h.1.trans (List.append_nil _).symm, by simp⟩
  | writing body next =>
      rw [hwriter] at h
      exact ⟨[body], h.1, le_rfl⟩
  | closing =>
      rw [hwriter] at h
      exact h
  | finished =>
      rw [hwriter] at h
      exact h

theorem InHand.polling (h : X.InHand) (hw : X.writer = .polling) :
    X.bodies = X.written ∧ X.cursor = X.written.length := by
  unfold InHand at h
  rwa [hw] at h

theorem InHand.waiting {w : Waiter} (h : X.InHand) (hw : X.writer = .waiting w) :
    X.bodies = X.written ∧ X.cursor = X.written.length ∧ w.q = .session ∧
      w.cursor = X.cursor := by
  unfold InHand at h
  rwa [hw] at h

theorem InHand.writing {body : Bytes} {next : ℕ} (h : X.InHand)
    (hw : X.writer = .writing body next) :
    X.bodies = X.written ++ [body] ∧ next = X.written.length + 1 := by
  unfold InHand at h
  rwa [hw] at h

/-- A section that takes no body leaves the writer what it has. -/
theorem InHand.still {σ : Traced} (h : X.InHand)
    (hsame : deliveries σ.trace .session = deliveries X.relay.trace .session) :
    InHand { X with relay := σ } := by
  have hbodies : SocketWriter.bodies { X with relay := σ } = X.bodies := by
    unfold bodies
    rw [hsame]
  unfold InHand at h ⊢
  rw [hbodies]
  exact h

theorem polls_idle (hw : ∀ w, X.writer ≠ .waiting w) : X.polls = ⟨X.relay, []⟩ := by
  unfold polls
  cases hwriter : X.writer with
  | waiting w => exact absurd hwriter (hw w)
  | _ => rfl

theorem polls_waiting {w : Waiter} (hw : X.writer = .waiting w) :
    X.polls.waiting = [] ++ w :: [] := by
  unfold polls
  rw [hw]
  rfl

theorem Turns.start : Turns sha256 limits { relay := ⟨newSession limits .webSocket, []⟩ } where
  polls := .start
  hand := ⟨rfl, rfl⟩

theorem Turns.step (h : Turns sha256 limits X) (hs : Step sha256 X X') :
    Turns sha256 limits X' := by
  have hsound := h.polls.state.sound
  cases hs with
  | @poll r σ hw hstep =>
      obtain ⟨hbodies, hcursor⟩ := h.hand.polling hw
      have harrive : Section.pollsOn X.polls.session (.poll X.cursor) =
          some (.session, X.cursor) := rfl
      refine ⟨?_, answered_hand h.polls rfl hbodies hcursor (.arrive harrive hstep)⟩
      have hnext := h.polls.step (.arrive harrive hstep)
      rw [answered_polls]
      rwa [polls_idle (by simp [hw])] at hnext
  | @wake w wake hw hblocked hready hother =>
      obtain ⟨hbodies, hcursor, hq, hown⟩ := h.hand.waiting hw
      exact ⟨h.polls.step (.wake (polls_waiting hw) hblocked hready hother),
        ⟨hbodies, hcursor, hq, hown⟩⟩
  | @token w r σ hw hblocked hready hstep =>
      obtain ⟨hbodies, hcursor, hq, hown⟩ := h.hand.waiting hw
      refine ⟨h.polls.step (.token (polls_waiting hw) hblocked hready hstep),
        ⟨?_, hcursor, hq, hown⟩⟩
      rw [← hbodies]
      unfold bodies
      exact congrArg _ (hstep.delivers_nothing hsound rfl .session)
  | @resume w wake r σ hw hwake hstep =>
      obtain ⟨hbodies, hcursor, hq, hown⟩ := h.hand.waiting hw
      refine ⟨?_, answered_hand h.polls rfl hbodies hcursor
        (.resume (polls_waiting hw) hq hown hwake hstep)⟩
      have hnext := h.polls.step (.resume (polls_waiting hw) hwake hstep)
      rw [answered_polls]
      rwa [List.nil_append, List.append_nil, hq, hown] at hnext
  | @write body next hw =>
      obtain ⟨hbodies, hnext⟩ := h.hand.writing hw
      refine ⟨?_, ⟨hbodies, ?_⟩⟩
      · have hpolls := h.polls
        rwa [polls_idle (by simp [hw])] at hpolls
      · rw [hnext, List.length_append]
        rfl
  | stop hw =>
      refine ⟨?_, h.hand.rest⟩
      have hpolls := h.polls
      rwa [polls_idle (by rcases hw with hw | ⟨body, next, hw⟩ <;> simp [hw])] at hpolls
  | @close r σ hw hstep =>
      refine ⟨?_, (h.hand.still (hstep.delivers_nothing hsound rfl .session)).rest⟩
      have hnext := h.polls.step (.other rfl hstep)
      rwa [polls_idle (by simp [hw])] at hnext
  | @other c r σ hc hstep =>
      exact ⟨h.polls.step (.other hc hstep),
        h.hand.still (hstep.delivers_nothing hsound (Section.scope_polls hc) .session)⟩

theorem Reachable.turns (h : Reachable sha256 limits X) : Turns sha256 limits X := by
  induction h with
  | start => exact .start
  | step _ hs ih => exact ih.step hs

/-! ### The law -/

/-- What holds of a socket and what is written on it. -/
structure WritesOnce (X : SocketWriter) : Prop where
  /-- What was queued for the client is what was taken and what still waits, or is lost with the
  session, in its order. -/
  carried : Carried X.relay .session
  /-- The bodies that were taken are written once each and in order; the newest may be in hand,
  or lost with a socket that is given up. -/
  once : X.written <+: X.bodies ∧ X.bodies.length ≤ X.written.length + 1
  /-- A writer that polls has written all of them. -/
  idle : (X.writer = .polling ∨ ∃ w, X.writer = .waiting w) → X.bodies = X.written
  /-- The body in hand is the newest. -/
  newest : ∀ body next, X.writer = .writing body next → X.bodies = X.written ++ [body]

/-- **What is queued for the client of a WebSocket is written once and in order**, whatever else
goes on in the session. -/
theorem writes_once (h : Reachable sha256 limits X) : X.WritesOnce := by
  have hhand := h.turns.hand
  obtain ⟨rest, hrest, hlength⟩ := hhand.rest
  refine ⟨h.turns.polls.state.carried .session, ⟨⟨rest, hrest.symm⟩, ?_⟩, ?_,
    fun body next hw => (hhand.writing hw).1⟩
  · rw [hrest, List.length_append]
    omega
  · rintro (hw | ⟨w, hw⟩)
    · exact (hhand.polling hw).1
    · exact (hhand.waiting hw).1

/-- A poll waits, the backend of a stream sends and the poll goes on. -/
theorem writes_once_woken : ∃ X, Reachable id defaultLimits X ∧ X.writer = .polling ∧
    X.cursor = 1 ∧ X.written = [encode .data 1 [7]] ∧ X.bodies = [encode .data 1 [7]] ∧
    X.WritesOnce := by
  have hplay : ((attempt id ⟨newSession defaultLimits .webSocket, []⟩
        (.processUpBegin 1 (encode .open 1 [])) []).bind fun p₁ =>
      (attempt id p₁.2 (.processUpCommit 1 (encode .open 1 [])) [true]).bind fun p₂ =>
      (attempt id p₂.2 (.poll 0) []).bind fun p₃ =>
      (attempt id p₃.2 (.backendData 1 [7]) [true]).bind fun p₄ =>
      (attempt id p₄.2 (.takeToken .session) []).bind fun p₅ =>
      (attempt id p₅.2 (.pollResume .session 0 1 .notified) []).map fun p₆ =>
        ((p₃.1, (p₄.2.session.queue .session).notify, p₆.1),
          (deliveries p₆.2.trace .session).map Prod.snd)) =
      some ((.poll (.parked 1), true, .poll (.batch (encode .data 1 [7]) 1)),
        [encode .data 1 [7]]) := by
    decide +kernel
  obtain ⟨⟨r₁, σ₁⟩, h₁, hplay⟩ := Option.bind_eq_some_iff.mp hplay
  obtain ⟨⟨r₂, σ₂⟩, h₂, hplay⟩ := Option.bind_eq_some_iff.mp hplay
  obtain ⟨⟨r₃, σ₃⟩, h₃, hplay⟩ := Option.bind_eq_some_iff.mp hplay
  obtain ⟨⟨r₄, σ₄⟩, h₄, hplay⟩ := Option.bind_eq_some_iff.mp hplay
  obtain ⟨⟨r₅, σ₅⟩, h₅, hplay⟩ := Option.bind_eq_some_iff.mp hplay
  obtain ⟨⟨r₆, σ₆⟩, h₆, he⟩ := Option.map_eq_some_iff.mp hplay
  simp only [Prod.mk.injEq] at he
  obtain ⟨⟨rfl, hnotify, rfl⟩, hbodies⟩ := he
  have hX₁ := (@Reachable.start id defaultLimits).step (.other rfl (.attempt h₁))
  have hX₂ := hX₁.step (.other rfl (.attempt h₂))
  have hX₃ := hX₂.step (.poll rfl (.attempt h₃))
  have hX₄ := hX₃.step (.other rfl (.attempt h₄))
  have hX₅ := hX₄.step (.token rfl rfl hnotify (.attempt h₅))
  have hX₆ := hX₅.step (.resume rfl rfl (.attempt h₆))
  have hX₇ := hX₆.step (.write rfl)
  exact ⟨_, hX₇, rfl, rfl, rfl, hbodies, writes_once hX₇⟩

end SocketWriter

end TproxyServer
