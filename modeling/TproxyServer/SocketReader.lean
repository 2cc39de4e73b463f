import TproxyServer.UplinkOnce

/-! # The reader of a multiplexed WebSocket

`readWebSocket` of `internal/server/server.go` in mode `websocket`, next to everything else that
works on the session: it reads a message, offers it to `ProcessUp` under the next sequence, offers
it again as long as it is answered with backpressure, and counts on once it is acknowledged.

The deadlines, the end of the request and a socket that cannot be read are one step that stops the
reader; it can come wherever the code waits. -/

namespace TproxyServer

open Interaction Prog

variable {limits : Limits} {sha256 : Bytes → Bytes}

/-! ### The loop -/

/-- Where the reader is. -/
inductive ReadLoop where
  /-- In `ReadMessage`. -/
  | reading
  /-- It holds a message that has not been accepted. -/
  | offering (body : Bytes)
  /-- `ProcessUp` parses the message. -/
  | parsing (body : Bytes)
  /-- `ProcessUp` has failed and is about to close the session. -/
  | closing
  | finished

/-- The session and its reader.  Nothing reads `received`, the messages that were read. -/
structure SocketReader where
  relay : Traced
  reader : ReadLoop := .reading
  sequence : ℕ := 1
  received : List Bytes := []

namespace SocketReader

/-- A section of `ProcessUp` has answered, or it goes on. -/
def answered (R : SocketReader) (body : Bytes) (σ : Traced) : UpReply → SocketReader
  | .parsing => { R with relay := σ, reader := .parsing body }
  | .acked ack =>
      if ack = R.sequence then
        { R with relay := σ, reader := .reading, sequence := R.sequence + 1 }
      else { R with relay := σ, reader := .finished }
  | .backpressure => { R with relay := σ, reader := .offering body }
  | .failing | .aborting => { R with relay := σ, reader := .closing }
  | .closed | .concurrent | .refused => { R with relay := σ, reader := .finished }

/-- One thing happens. -/
inductive Step (sha256 : Bytes → Bytes) : SocketReader → SocketReader → Prop
  | receive {R : SocketReader} {body : Bytes} (h : R.reader = .reading) (hbody : body ≠ []) :
      Step sha256 R { R with reader := .offering body, received := R.received ++ [body] }
  | stop {R : SocketReader} (h : R.reader = .reading ∨ ∃ body, R.reader = .offering body) :
      Step sha256 R { R with reader := .finished }
  | begin {R : SocketReader} {body : Bytes} {r : UpReply} {σ : Traced}
      (h : R.reader = .offering body)
      (hs : TproxyServer.Step sha256 R.relay (.processUpBegin R.sequence body) (.up r) σ) :
      Step sha256 R (R.answered body σ r)
  | commit {R : SocketReader} {body : Bytes} {r : UpReply} {σ : Traced}
      (h : R.reader = .parsing body)
      (hs : TproxyServer.Step sha256 R.relay (.processUpCommit R.sequence body) (.up r) σ) :
      Step sha256 R (R.answered body σ r)
  | close {R : SocketReader} {r : Reply} {σ : Traced} (h : R.reader = .closing)
      (hs : TproxyServer.Step sha256 R.relay .close r σ) :
      Step sha256 R { R with relay := σ, reader := .finished }
  /-- The writer, the backends, the end of the session. -/
  | other {R : SocketReader} {c : Section} {r : Reply} {σ : Traced} (hc : c.ofProcessUp = false)
      (hs : TproxyServer.Step sha256 R.relay c r σ) : Step sha256 R { R with relay := σ }

/-- The runs of a session with these limits and of its one reader. -/
inductive Reachable (sha256 : Bytes → Bytes) (limits : Limits) : SocketReader → Prop
  | start : Reachable sha256 limits { relay := ⟨newSession limits .webSocket, []⟩ }
  | step {R R' : SocketReader} :
      Reachable sha256 limits R → Step sha256 R R' → Reachable sha256 limits R'

variable {R R' : SocketReader}

/-! ### Its calls are those of a session -/

/-- The call of `ProcessUp` that is under way. -/
def call (R : SocketReader) : Option Call :=
  match R.reader with
  | .parsing body => some (.parsing R.sequence body)
  | .closing => some .closing
  | _ => none

theorem answered_relay (R : SocketReader) (body : Bytes) (σ : Traced) (r : UpReply) :
    (R.answered body σ r).relay = σ := by
  cases r with
  | acked ack =>
      unfold answered
      dsimp only
      split_ifs <;> rfl
  | _ => rfl

theorem answered_call (R : SocketReader) (body : Bytes) (σ : Traced) (r : UpReply) :
    (R.answered body σ r).call = r.left R.sequence body := by
  cases r with
  | acked ack =>
      unfold answered
      dsimp only
      split_ifs <;> rfl
  | _ => rfl

theorem Reachable.calls (h : Reachable sha256 limits R) :
    ∃ C : Calls, Calls.Reachable sha256 limits .webSocket C ∧ C.state = R.relay ∧
      C.calls.get 0 = R.call := by
  induction h with
  | start => exact ⟨_, .start, rfl, rfl⟩
  | @step R R' _ hs ih =>
      obtain ⟨C, hC, hstate, hcall⟩ := ih
      cases hs with
      | receive hr =>
          refine ⟨C, hC, hstate, hcall.trans ?_⟩
          unfold call
          rw [hr]
      | stop hr =>
          refine ⟨C, hC, hstate, hcall.trans ?_⟩
          unfold call
          rcases hr with hr | ⟨body, hr⟩ <;> rw [hr]
      | @begin body r σ hr hstep =>
          have hnone : C.calls.get 0 = none := by
            rw [hcall]
            unfold call
            rw [hr]
          refine ⟨_, hC.step (.begin hnone (hstate ▸ hstep)), ?_, ?_⟩
          · rw [Calls.leave_state, answered_relay]
          · rw [Calls.leave_get, if_pos rfl, answered_call]
      | @commit body r σ hr hstep =>
          have hparsing : C.calls.get 0 = some (.parsing R.sequence body) := by
            rw [hcall]
            unfold call
            rw [hr]
          refine ⟨_, hC.step (.commit hparsing (hstate ▸ hstep)), ?_, ?_⟩
          · rw [Calls.leave_state, answered_relay]
          · rw [Calls.leave_get, if_pos rfl, answered_call]
      | @close r σ hr hstep =>
          have hclosing : C.calls.get 0 = some .closing := by
            rw [hcall]
            unfold call
            rw [hr]
          refine ⟨_, hC.step (.close hclosing (hstate ▸ hstep)), ?_, ?_⟩
          · rw [Calls.leave_state]
          · rw [Calls.leave_get, if_pos rfl]
            rfl
      | other hc hstep => exact ⟨_, hC.step (.other hc (hstate ▸ hstep)), rfl, hcall⟩

theorem Reachable.sound (h : Reachable sha256 limits R) : Sound limits .webSocket R.relay := by
  obtain ⟨C, hC, hstate, -⟩ := h.calls
  exact hstate ▸ hC.reachable.sound

theorem Reachable.ordered (h : Reachable sha256 limits R) :
    R.relay.session.usesCarrierLanes = false ∧
      (appliedBodies R.relay.trace).length =
        R.relay.session.lastUpSequence + (abandonments R.relay.trace).length ∧
      (abandonments R.relay.trace = [] →
        Serial limits (appliedBodies R.relay.trace) (uplinkEvents R.relay.trace)) := by
  obtain ⟨C, hC, hstate, -⟩ := h.calls
  obtain ⟨hlanes, hordered⟩ := hC.ordered (.inr rfl)
  rw [← hstate]
  exact ⟨hlanes, hordered.count, hordered.serial⟩

/-! ### What was read and what is applied -/

/-- The messages that were read are applied, but for the one in hand. -/
def InHand (R : SocketReader) (applied : List Bytes) : Prop :=
  match R.reader with
  | .reading => R.received = applied ∧ R.sequence = applied.length + 1
  | .offering body => R.received = applied ++ [body] ∧ R.sequence = applied.length + 1
  | .parsing body => R.received = applied ++ [body] ∧ R.sequence = applied.length + 1
  | _ => ∃ rest, R.received = applied ++ rest ∧ rest.length ≤ 1

/-- Only the reader makes the session parse, and its messages are applied in turn. -/
structure Turns (R : SocketReader) : Prop where
  active : R.relay.session.upActive = true → ∃ body, R.reader = .parsing body
  hand : abandonments R.relay.trace = [] → R.InHand (appliedBodies R.relay.trace)

/-- As long as nothing is being parsed, the session has no message under way. -/
theorem Turns.rests (h : Turns R) (hnot : ∀ body, R.reader ≠ .parsing body) :
    R.relay.session.upActive ≠ true := by
  intro hactive
  obtain ⟨body, hparsing⟩ := h.active hactive
  exact hnot body hparsing

theorem Turns.offering (h : Turns R) (habandoned : abandonments R.relay.trace = []) {body : Bytes}
    (hr : R.reader = .offering body) :
    R.received = appliedBodies R.relay.trace ++ [body] ∧
      R.sequence = (appliedBodies R.relay.trace).length + 1 := by
  have hhand := h.hand habandoned
  unfold InHand at hhand
  rwa [hr] at hhand

theorem Turns.parsing (h : Turns R) (habandoned : abandonments R.relay.trace = []) {body : Bytes}
    (hr : R.reader = .parsing body) :
    R.received = appliedBodies R.relay.trace ++ [body] ∧
      R.sequence = (appliedBodies R.relay.trace).length + 1 := by
  have hhand := h.hand habandoned
  unfold InHand at hhand
  rwa [hr] at hhand

theorem Turns.reading (h : Turns R) (habandoned : abandonments R.relay.trace = [])
    (hr : R.reader = .reading) :
    R.received = appliedBodies R.relay.trace ∧
      R.sequence = (appliedBodies R.relay.trace).length + 1 := by
  have hhand := h.hand habandoned
  unfold InHand at hhand
  rwa [hr] at hhand

theorem Turns.start : Turns { relay := ⟨newSession limits .webSocket, []⟩ } where
  active h := by
    have hidle : (newSession limits .webSocket).upActive = false := by
      unfold newSession
      split_ifs <;> rfl
    dsimp only at h
    rw [hidle] at h
    cases h
  hand _ := ⟨rfl, rfl⟩

/-- The first section lets the message of the reader pass, or the session is closed. -/
theorem Turns.begin (h : Turns R) (hr : Reachable sha256 limits R)
    (habandoned : abandonments R.relay.trace = []) {body : Bytes} {r : UpReply} {σ : Traced}
    (hoffer : R.reader = .offering body)
    (hs : TproxyServer.Step sha256 R.relay (.processUpBegin R.sequence body) (.up r) σ) :
    r = .parsing ∨ r = .closed := by
  obtain ⟨hlanes, hcount, -⟩ := hr.ordered
  have hhand := h.offering habandoned hoffer
  rw [habandoned] at hcount
  have hsequence : R.sequence = R.relay.session.lastUpSequence + 1 := by
    rw [hhand.2, hcount]
    rfl
  have hidle : R.relay.session.upActive = false :=
    Bool.eq_false_iff.mpr (h.rests fun _ => by simp [hoffer])
  have hresult := hs.processUpBegin.1
  unfold processUpBegin at hresult
  rw [hlanes, if_neg (by simp)] at hresult
  by_cases hclosed : R.relay.session.closed = true
  · rw [if_pos hclosed] at hresult
    exact .inr (Prod.mk.inj hresult).2.symm
  · rw [if_neg hclosed, if_neg (by omega), if_neg (by omega), hidle, if_neg (by simp)] at hresult
    exact .inl (Prod.mk.inj hresult).2.symm

/-- What is applied has grown by the message in hand, or by nothing. -/
theorem Turns.commit (h : Turns R) (hr : Reachable sha256 limits R) {body : Bytes} {r : UpReply}
    {σ : Traced} (hparsing : R.reader = .parsing body)
    (hs : TproxyServer.Step sha256 R.relay (.processUpCommit R.sequence body) (.up r) σ) :
    Turns (R.answered body σ r) := by
  have hresult := hs.processUpCommit hr.sound
  generalize hsession : σ.session = s' at hresult
  generalize htrace : σ.trace = t' at hresult
  cases hresult with
  | idle hidle =>
      refine ⟨fun hactive => ?_, fun habandoned => ?_⟩
      · rw [answered_relay, hsession] at hactive
        cases hactive
      · rw [answered_relay, htrace] at habandoned ⊢
        have hhand := h.parsing habandoned hparsing
        rcases hidle with rfl | rfl | rfl
        · exact ⟨[body], hhand.1, le_rfl⟩
        · exact ⟨[body], hhand.1, le_rfl⟩
        · exact hhand
  | acked hframes hg hbooks hup hab =>
      simp only [Session.books, Prod.mk.injEq] at hbooks
      refine ⟨fun hactive => ?_, fun habandoned => ?_⟩
      · rw [answered_relay, hsession, hbooks.2.2] at hactive
        cases hactive
      · rw [answered_relay, htrace] at habandoned ⊢
        rw [habandoned] at hab
        have hhand := h.parsing (List.eq_nil_of_length_eq_zero hab.symm) hparsing
        have hbodies : appliedBodies t' = appliedBodies R.relay.trace ++ [body] := by
          rw [← appliedBodies_uplinkEvents, hup, appliedBodies_append, appliedBodies_uplinkEvents]
          exact congrArg (fun l => _ ++ body :: l) hg.appliedBodies
        unfold answered InHand
        dsimp only
        rw [if_pos rfl, hbodies]
        refine ⟨hhand.1, ?_⟩
        rw [List.length_append, hhand.2]
        rfl
  | aborting hg hbooks hup hab =>
      simp only [Session.books, Prod.mk.injEq] at hbooks
      refine ⟨fun hactive => ?_, fun habandoned => ?_⟩
      · rw [answered_relay, hsession, hbooks.2.2] at hactive
        cases hactive
      · rw [answered_relay, htrace] at habandoned
        rw [habandoned] at hab
        cases hab

/-- The reader has let go of what it had in hand. -/
theorem InHand.rest {applied : List Bytes} (h : R.InHand applied) :
    ∃ rest, R.received = applied ++ rest ∧ rest.length ≤ 1 := by
  unfold InHand at h
  cases hreader : R.reader with
  | reading =>
      rw [hreader] at h
      exact ⟨[], by simpa using h.1, by simp⟩
  | offering body =>
      rw [hreader] at h
      exact ⟨[body], h.1, le_rfl⟩
  | parsing body =>
      rw [hreader] at h
      exact ⟨[body], h.1, le_rfl⟩
  | closing =>
      rw [hreader] at h
      exact h
  | finished =>
      rw [hreader] at h
      exact h

theorem Turns.step (h : Turns R) (hr : Reachable sha256 limits R) (hs : Step sha256 R R') :
    Turns R' := by
  cases hs with
  | @receive body hreading hbody =>
      refine ⟨fun hactive => ?_, fun habandoned => ?_⟩
      · exact absurd hactive (h.rests fun _ => by simp [hreading])
      · have hhand := h.reading habandoned hreading
        exact ⟨congrArg (· ++ [body]) hhand.1, hhand.2⟩
  | stop hwaits =>
      refine ⟨fun hactive => ?_, fun habandoned => (h.hand habandoned).rest⟩
      refine absurd hactive (h.rests fun _ => ?_)
      rcases hwaits with hwaits | ⟨body, hwaits⟩ <;> simp [hwaits]
  | @begin body r σ hoffer hstep =>
      have htrace : σ.trace = R.relay.trace := hstep.processUpBegin.2
      refine ⟨fun hactive => ?_, fun habandoned => ?_⟩
      · rw [answered_relay] at hactive
        rcases @processUpBegin_cases R.relay.session sha256 R.sequence body with
          ⟨hsame, -⟩ | ⟨heq, -⟩
        · rw [hstep.processUpBegin.1] at hsame
          dsimp only at hsame
          rw [hsame] at hactive
          exact absurd hactive (h.rests fun _ => by simp [hoffer])
        · rw [hstep.processUpBegin.1] at heq
          rw [(Prod.mk.inj heq).2]
          exact ⟨body, rfl⟩
      · rw [answered_relay, htrace] at habandoned ⊢
        have hhand := h.offering habandoned hoffer
        rcases h.begin hr habandoned hoffer hstep with rfl | rfl
        · exact hhand
        · exact ⟨[body], hhand.1, le_rfl⟩
  | commit hparsing hstep => exact h.commit hr hparsing hstep
  | @close r σ hclosing hstep =>
      obtain ⟨hbooks, hquiet⟩ := hstep.other hr.sound hr.ordered.1 rfl
      simp only [Session.books, Prod.mk.injEq] at hbooks
      refine ⟨fun hactive => ?_, fun habandoned => ?_⟩
      · dsimp only at hactive
        rw [hbooks.2.2] at hactive
        exact absurd hactive (h.rests fun _ => by simp [hclosing])
      · dsimp only at habandoned ⊢
        rw [hquiet.2] at habandoned
        rw [← appliedBodies_uplinkEvents, hquiet.1, appliedBodies_uplinkEvents]
        exact (h.hand habandoned).rest
  | @other c r σ hc hstep =>
      obtain ⟨hbooks, hquiet⟩ := hstep.other hr.sound hr.ordered.1 hc
      simp only [Session.books, Prod.mk.injEq] at hbooks
      refine ⟨fun hactive => ?_, fun habandoned => ?_⟩
      · dsimp only at hactive
        rw [hbooks.2.2] at hactive
        exact h.active hactive
      · dsimp only at habandoned ⊢
        rw [hquiet.2] at habandoned
        rw [← appliedBodies_uplinkEvents, hquiet.1, appliedBodies_uplinkEvents]
        exact h.hand habandoned

theorem Reachable.turns (h : Reachable sha256 limits R) : Turns R := by
  induction h with
  | start => exact .start
  | step hr hs ih => exact ih.step hr hs

/-! ### The law -/

/-- What holds of a reader whose messages were not cut short. -/
structure AppliesOnce (sha256 : Bytes → Bytes) (limits : Limits) (R : SocketReader) : Prop where
  /-- The messages are applied once each and in order, under the sequences 1, 2, ..., and each
  frame by frame; the newest may be under way. -/
  once : appliedBodies R.relay.trace <+: R.received ∧
    R.received.length ≤ (appliedBodies R.relay.trace).length + 1
  serial : Serial limits (appliedBodies R.relay.trace) (uplinkEvents R.relay.trace)
  /-- A reader that waits for a message has had all others applied. -/
  idle : R.reader = .reading → appliedBodies R.relay.trace = R.received
  /-- No message is turned down for its sequence, or because another is under way. -/
  passes : ∀ body r σ, R.reader = .offering body →
    TproxyServer.Step sha256 R.relay (.processUpBegin R.sequence body) (.up r) σ →
    r = .parsing ∨ r = .closed

/-- **What a WebSocket carries is applied once and in order**, however often a message has to be
offered, and whatever else goes on in the session. -/
theorem applies_once (h : Reachable sha256 limits R)
    (habandoned : ∀ id, Event.abandoned id ∉ R.relay.trace) : R.AppliesOnce sha256 limits := by
  have hnil : abandonments R.relay.trace = [] := by
    unfold abandonments
    rw [List.filterMap_eq_nil_iff]
    intro e he
    cases e with
    | abandoned id => exact absurd he (habandoned id)
    | _ => rfl
  have hhand := h.turns.hand hnil
  obtain ⟨rest, hrest, hlength⟩ := hhand.rest
  refine ⟨⟨⟨rest, hrest.symm⟩, ?_⟩, h.ordered.2.2 hnil, fun hreading => ?_,
    fun body r σ hoffer hs => h.turns.begin h hnil hoffer hs⟩
  · rw [hrest, List.length_append]
    omega
  · exact (h.turns.reading hnil hreading).1.symm

/-- A message is answered with backpressure once, and is then applied. -/
theorem applies_once_retried : ∃ R, Reachable id defaultLimits R ∧ R.reader = .reading ∧
    R.received = [encode .open 1 [], encode .data 1 [7]] ∧
    appliedBodies R.relay.trace = [encode .open 1 [], encode .data 1 [7]] ∧
    R.AppliesOnce id defaultLimits := by
  have hplay : ((attempt id ⟨newSession defaultLimits .webSocket, []⟩
        (.processUpBegin 1 (encode .open 1 [])) []).bind fun p₁ =>
      (attempt id p₁.2 (.processUpCommit 1 (encode .open 1 [])) [true]).bind fun p₂ =>
      (attempt id p₂.2 (.processUpBegin 2 (encode .data 1 [7])) []).bind fun p₃ =>
      (attempt id p₃.2 (.processUpCommit 2 (encode .data 1 [7])) [false]).bind fun p₄ =>
      (attempt id p₄.2 (.processUpBegin 2 (encode .data 1 [7])) []).bind fun p₅ =>
      (attempt id p₅.2 (.processUpCommit 2 (encode .data 1 [7])) [true]).map fun p₆ =>
        ((p₁.1, p₂.1, p₃.1), (p₄.1, p₅.1, p₆.1), p₆.2.trace)) =
      some ((.up .parsing, .up (.acked 1), .up .parsing),
        (.up .backpressure, .up .parsing, .up (.acked 2)),
        [.applying none 1 (encode .open 1 []), .opened 1 0, .cancelled [],
          .applying none 2 (encode .data 1 [7]), .dataApplied 1 [7], .cancelled []]) := by
    decide +kernel
  obtain ⟨⟨r₁, σ₁⟩, h₁, hplay⟩ := Option.bind_eq_some_iff.mp hplay
  obtain ⟨⟨r₂, σ₂⟩, h₂, hplay⟩ := Option.bind_eq_some_iff.mp hplay
  obtain ⟨⟨r₃, σ₃⟩, h₃, hplay⟩ := Option.bind_eq_some_iff.mp hplay
  obtain ⟨⟨r₄, σ₄⟩, h₄, hplay⟩ := Option.bind_eq_some_iff.mp hplay
  obtain ⟨⟨r₅, σ₅⟩, h₅, hplay⟩ := Option.bind_eq_some_iff.mp hplay
  obtain ⟨⟨r₆, σ₆⟩, h₆, he⟩ := Option.map_eq_some_iff.mp hplay
  simp only [Prod.mk.injEq] at he
  obtain ⟨⟨rfl, rfl, rfl⟩, ⟨rfl, rfl, rfl⟩, htrace⟩ := he
  have hR₁ := (@Reachable.start id defaultLimits).step
    (@Step.receive id _ (encode .open 1 []) rfl (by decide))
  have hR₂ := hR₁.step (.begin rfl (.attempt h₁))
  have hR₃ := hR₂.step (.commit rfl (.attempt h₂))
  have hR₄ := hR₃.step (@Step.receive id _ (encode .data 1 [7]) rfl (by decide))
  have hR₅ := hR₄.step (.begin rfl (.attempt h₃))
  have hR₆ := hR₅.step (.commit rfl (.attempt h₄))
  have hR₇ := hR₆.step (.begin rfl (.attempt h₅))
  have hR₈ := hR₇.step (.commit rfl (.attempt h₆))
  refine ⟨_, hR₈, rfl, rfl, ?_, applies_once hR₈ fun id hid => ?_⟩
  · rw [answered_relay, htrace]
    rfl
  · rw [answered_relay, htrace] at hid
    simp at hid

end SocketReader

end TproxyServer
