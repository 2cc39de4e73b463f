import TproxyServer.Effects

/-! # Calls of `ProcessUp`

`ProcessUp` is two critical sections with the parsing between them, and a third that closes
the session where the first two failed.  `Calls` is a session together with the calls that are
under way, so that the sections of any number of calls and of everything else the session does
interleave freely.

In a run in which no application is cut short, the bodies of sequences 1 to `lastUpSequence`
have been applied one after the other, each to its last frame, and nothing else has been. -/

namespace TproxyServer

open Interaction Prog

variable {limits : Limits} {carrier : CarrierMode} {s s' : Session} {t : List Event}
  {sha256 : Bytes → Bytes} {scope : Scope}

/-! ### The books of the uplink -/

/-- The last accepted sequence, its digest, and whether a call parses. -/
def Session.books (s : Session) : ℕ × Bytes × Bool := (s.lastUpSequence, s.lastUpDigest, s.upActive)

theorem setQueue_books (s : Session) (q : QueueRef) (d : Downlink) :
    (s.setQueue q d).books = s.books := by
  obtain ⟨down, lanes, released, he⟩ := s.setQueue_eq q d
  rw [he]
  rfl

theorem QueueResult.books {ty : FrameType} {id : ℕ} {payload : Bytes} {es : List Event}
    {ok : Bool} (h : QueueResult s ty id payload es s' ok) : s'.books = s.books := by
  cases h with
  | refused => rfl
  | accepted => exact setQueue_books _ _ _

theorem Change.books {σ σ' : Traced} (h : Change scope σ σ') (hscope : scope.uplink = false) :
    σ'.session.books = σ.session.books := by
  cases h with
  | drained _ _ _ _ _ _ h _ => exact h.books
  | read _ _ _ _ h _ => exact h.books
  | queueClose _ _ _ h _ _ _ => exact h.books
  | attend => exact setQueue_books _ _ _
  | acknowledge => exact setQueue_books _ _ _
  | deliver => exact setQueue_books _ _ _
  | uplink hup => rw [hscope] at hup; cases hup
  | laneUplink hup => rw [hscope] at hup; cases hup
  | _ => rfl

theorem Change.quiet {σ σ' : Traced} (h : Change scope σ σ') (hframes : scope.frames = false)
    (huplink : scope.uplink = false) : Quiet σ.trace σ'.trace := by
  cases h with
  | silent he hscope =>
      refine Quiet.mute ?_
      by_contra hn
      rw [hframes] at hscope
      exact absurd (hscope hn) (by simp)
  | openStream _ _ _ _ _ _ hscope => rw [hframes] at hscope; cases hscope
  | @stream s t es id st st' _ _ _ hscope =>
      have hes : es = [] := by
        by_contra hn
        rw [hframes] at hscope
        exact absurd (hscope.1 hn) (by simp)
      rw [hes]
      exact Quiet.mute ⟨rfl, rfl⟩
  | drained _ _ _ _ _ _ h _ => exact Quiet.mute h.mute
  | read _ _ _ _ h _ => exact Quiet.mute h.mute
  | queueClose _ _ _ h _ _ _ => exact Quiet.mute h.mute
  | rememberRoom => exact Quiet.mute ⟨rfl, rfl⟩
  | rememberFull =>
      rw [List.append_assoc]
      exact Quiet.mute ⟨rfl, rfl⟩
  | deliver => exact Quiet.mute ⟨rfl, rfl⟩
  | batch hup => rw [huplink] at hup; cases hup
  | _ => exact ⟨rfl, rfl⟩

/-! ### The calls -/

/-- A call of `ProcessUp` that is under way. -/
inductive Call where
  /-- It parses its body without the lock. -/
  | parsing (sequence : ℕ) (body : Bytes)
  /-- It has unlocked and is about to close the session. -/
  | closing
deriving DecidableEq

/-- What is left of a call once a section of it has answered. -/
def UpReply.left (sequence : ℕ) (body : Bytes) : UpReply → Option Call
  | .parsing => some (.parsing sequence body)
  | .failing | .aborting => some .closing
  | _ => none

/-- A session and the calls under way. -/
structure Calls where
  state : Traced
  calls : Table ℕ Call := .nil

/-- Call `k` has come to `left`. -/
def Calls.leave (W : Calls) (k : ℕ) (σ : Traced) : Option Call → Calls
  | some call => ⟨σ, W.calls.put k call⟩
  | none => ⟨σ, W.calls.del k⟩

/-- The two sections that only a call of `ProcessUp` comes to. -/
def Section.ofProcessUp : Section → Bool
  | .processUpBegin _ _ | .processUpCommit _ _ => true
  | _ => false

/-- One section of a call, or any section of anything else. -/
inductive Calls.Step (sha256 : Bytes → Bytes) : Calls → Calls → Prop
  | begin {W : Calls} {σ : Traced} {k sequence : ℕ} {body : Bytes} {r : UpReply}
      (hk : W.calls.get k = none)
      (h : TproxyServer.Step sha256 W.state (.processUpBegin sequence body) (.up r) σ) :
      Calls.Step sha256 W (W.leave k σ (r.left sequence body))
  | commit {W : Calls} {σ : Traced} {k sequence : ℕ} {body : Bytes} {r : UpReply}
      (hk : W.calls.get k = some (.parsing sequence body))
      (h : TproxyServer.Step sha256 W.state (.processUpCommit sequence body) (.up r) σ) :
      Calls.Step sha256 W (W.leave k σ (r.left sequence body))
  | close {W : Calls} {σ : Traced} {k : ℕ} {r : Reply} (hk : W.calls.get k = some .closing)
      (h : TproxyServer.Step sha256 W.state .close r σ) :
      Calls.Step sha256 W (W.leave k σ none)
  | other {W : Calls} {σ : Traced} {c : Section} {r : Reply} (hc : c.ofProcessUp = false)
      (h : TproxyServer.Step sha256 W.state c r σ) :
      Calls.Step sha256 W { W with state := σ }

/-- The runs of a session with these limits and this carrier. -/
inductive Calls.Reachable (sha256 : Bytes → Bytes) (limits : Limits) (carrier : CarrierMode) :
    Calls → Prop
  | start : Calls.Reachable sha256 limits carrier ⟨⟨newSession limits carrier, []⟩, .nil⟩
  | step {W W' : Calls} :
      Calls.Reachable sha256 limits carrier W → Calls.Step sha256 W W' →
      Calls.Reachable sha256 limits carrier W'

@[simp] theorem Calls.leave_state (W : Calls) (k : ℕ) (σ : Traced) (left : Option Call) :
    (W.leave k σ left).state = σ := by
  cases left <;> rfl

theorem Calls.leave_get (W : Calls) (k i : ℕ) (σ : Traced) (left : Option Call) :
    (W.leave k σ left).calls.get i = if i = k then left else W.calls.get i := by
  cases left with
  | none => exact Table.get_del _ _ _
  | some call => exact Table.get_put _ _ _ _

/-- The session's own states are those of its sections. -/
theorem Calls.Reachable.reachable {W : Calls} (h : Calls.Reachable sha256 limits carrier W) :
    TproxyServer.Reachable sha256 limits carrier W.state := by
  induction h with
  | start => exact .start
  | step _ hs ih =>
      cases hs with
      | begin _ h => exact (Calls.leave_state _ _ _ _) ▸ ih.step h
      | commit _ h => exact (Calls.leave_state _ _ _ _) ▸ ih.step h
      | close _ h => exact (Calls.leave_state _ _ _ _) ▸ ih.step h
      | other _ h => exact ih.step h

/-- A step of the calls, to be played. -/
inductive Calls.Move where
  | begin (k sequence : ℕ) (body : Bytes)
  | commit (k : ℕ)
  | close (k : ℕ)
  | other (c : Section)

/-- The state after an uplink section of call `k`. -/
def Calls.leaveUp (W : Calls) (k sequence : ℕ) (body : Bytes) : Reply × Traced → Option Calls
  | (.up r, σ) => some (W.leave k σ (r.left sequence body))
  | _ => none

/-- Make one step against a list of answers. -/
def Calls.move (sha256 : Bytes → Bytes) (W : Calls) (answers : List Bool) :
    Calls.Move → Option Calls
  | .begin k sequence body =>
      if W.calls.get k = none then
        (attempt sha256 W.state (.processUpBegin sequence body) answers).bind
          (W.leaveUp k sequence body)
      else none
  | .commit k =>
      match W.calls.get k with
      | some (.parsing sequence body) =>
          (attempt sha256 W.state (.processUpCommit sequence body) answers).bind
            (W.leaveUp k sequence body)
      | _ => none
  | .close k =>
      if W.calls.get k = some .closing then
        (attempt sha256 W.state .close answers).map fun p => W.leave k p.2 none
      else none
  | .other c =>
      if c.ofProcessUp = false then
        (attempt sha256 W.state c answers).map fun p => { W with state := p.2 }
      else none

/-- Make steps one after the other. -/
def Calls.play (sha256 : Bytes → Bytes) : Calls → List (Calls.Move × List Bool) → Option Calls
  | W, [] => some W
  | W, (m, answers) :: rest => (W.move sha256 answers m).bind fun W' => W'.play sha256 rest

theorem Calls.leaveUp_eq {W W' : Calls} {k sequence : ℕ} {body : Bytes} {p : Reply × Traced}
    (h : W.leaveUp k sequence body p = some W') :
    ∃ r, p.1 = .up r ∧ W' = W.leave k p.2 (r.left sequence body) := by
  obtain ⟨r, σ⟩ := p
  cases r with
  | up r =>
      cases h
      exact ⟨r, rfl, rfl⟩
  | _ => cases h

theorem Calls.Step.move {W W' : Calls} {answers : List Bool} {m : Calls.Move}
    (h : W.move sha256 answers m = some W') : Calls.Step sha256 W W' := by
  cases m with
  | begin k sequence body =>
      simp only [Calls.move] at h
      split_ifs at h with hk
      obtain ⟨⟨r, σ⟩, hattempt, hleave⟩ := Option.bind_eq_some_iff.mp h
      obtain ⟨r', hr, rfl⟩ := Calls.leaveUp_eq hleave
      dsimp only at hr
      subst hr
      exact .begin hk (.attempt hattempt)
  | commit k =>
      simp only [Calls.move] at h
      split at h
      · next sequence body hk =>
          obtain ⟨⟨r, σ⟩, hattempt, hleave⟩ := Option.bind_eq_some_iff.mp h
          obtain ⟨r', hr, rfl⟩ := Calls.leaveUp_eq hleave
          dsimp only at hr
          subst hr
          exact .commit hk (.attempt hattempt)
      · cases h
  | close k =>
      simp only [Calls.move] at h
      split_ifs at h with hk
      obtain ⟨⟨r, σ⟩, hattempt, rfl⟩ := Option.map_eq_some_iff.mp h
      exact .close hk (.attempt hattempt)
  | other c =>
      simp only [Calls.move] at h
      split_ifs at h with hc
      obtain ⟨⟨r, σ⟩, hattempt, rfl⟩ := Option.map_eq_some_iff.mp h
      exact .other hc (.attempt hattempt)

theorem Calls.Reachable.play {W W' : Calls} {script : List (Calls.Move × List Bool)}
    (h : Calls.Reachable sha256 limits carrier W) (hp : W.play sha256 script = some W') :
    Calls.Reachable sha256 limits carrier W' := by
  induction script generalizing W with
  | nil => cases hp; exact h
  | cons entry rest ih =>
      obtain ⟨W₁, hmove, hrest⟩ := Option.bind_eq_some_iff.mp hp
      exact ih (h.step (.move hmove)) hrest

/-! ### One section of a call -/

/-- What the first section does. -/
theorem processUpBegin_cases (sequence : ℕ) (body : Bytes) :
    ((processUpBegin sha256 s sequence body).1 = s ∧
        (processUpBegin sha256 s sequence body).2 ≠ .parsing) ∨
      (processUpBegin sha256 s sequence body = ({ s with upActive := true }, .parsing) ∧
        sequence = s.lastUpSequence + 1 ∧ s.upActive = false) := by
  unfold processUpBegin
  split_ifs with _ _ _ _ hseq hactive
  all_goals first
    | exact .inl ⟨rfl, (by simp)⟩
    | simp only [not_or, not_not] at hseq
      exact .inr ⟨rfl, hseq.1, by simpa using hactive⟩

/-- What the second section does. -/
inductive CommitResult (sha256 : Bytes → Bytes) (s : Session) (t : List Event) (sequence : ℕ)
    (body : Bytes) : List Event → Session × UpReply → Prop
  | idle {r : UpReply} (hr : r = .closed ∨ r = .failing ∨ r = .backpressure) :
      CommitResult sha256 s t sequence body t ({ s with upActive := false }, r)
  | acked {s' : Session} {t' g : List Event} {frames : List Frame}
      (hframes : clientFrames s.limits body = some frames) (hg : BatchEffect frames g)
      (hbooks : s'.books = (sequence, sha256 body, false))
      (hup : uplinkEvents t' = uplinkEvents t ++ .applying none sequence body :: g)
      (hab : (abandonments t').length = (abandonments t).length) :
      CommitResult sha256 s t sequence body t' (s', .acked sequence)
  | aborting {s' : Session} {t' g : List Event} {frames : List Frame} (hg : BatchEffect frames g)
      (hbooks : s'.books = (s.lastUpSequence, s.lastUpDigest, false))
      (hup : uplinkEvents t' = uplinkEvents t ++ .applying none sequence body :: g)
      (hab : (abandonments t').length = (abandonments t).length + 1) :
      CommitResult sha256 s t sequence body t' (s', .aborting)

theorem processUpCommit_result (hs : Sound limits carrier ⟨s, t⟩)
    (hlanes : s.usesCarrierLanes = false) (sequence : ℕ) (body : Bytes) :
    wp observer (processUpCommit sha256 s sequence body)
      (CommitResult sha256 s t sequence body) t := by
  unfold processUpCommit
  dsimp only
  split_ifs with hclosed
  · exact .idle (.inl rfl)
  · cases hf : clientFrames s.limits body with
    | none => exact .idle (.inr (.inl rfl))
    | some frames =>
        have hidle : Change .request ⟨s, t⟩ ⟨{ s with upActive := false }, t⟩ :=
          .uplink rfl s.lastUpSequence s.lastUpDigest false
        have hno : ∀ {p : Prop}, { s with upActive := false }.usesCarrierLanes = true → p := by
          intro p hu
          have hu' : s.usesCarrierLanes = true := hu
          rw [hlanes] at hu'
          cases hu'
        refine wp_seq (wp_and (commitBatch_obs 0 none (hidle.sound hs) (by simpa using hclosed)
          (fun hu => hno hu) (fun hu => hno hu) (fun f h => (clientFrames_bounds hf f h).2)
          (clientFrames_size hf) sequence body)
          (commitBatch_effects _ none sequence body frames)) ?_
        rintro t₁ ⟨s₁, outcome⟩ ⟨hc, heffect⟩
        cases hc with
        | unchanged h =>
            rcases h with rfl | rfl
            · exact .idle (.inr (.inl rfl))
            · exact .idle (.inr (.inr rfl))
        | changed h hc =>
            have hbooks := hc.invariant (I := fun τ =>
              τ.session.books = (s.lastUpSequence, s.lastUpDigest, false))
              (fun h hI => (h.books rfl).trans hI) rfl
            rcases h with rfl | rfl
            · obtain ⟨⟨g, hg, hup⟩, hab⟩ := heffect
              simp only [Session.books, Prod.mk.injEq] at hbooks
              exact .acked hf hg (by simp [Session.books, hbooks.2.2]) hup hab
            · obtain ⟨⟨done, rest, g, -, hg, hup⟩, hab⟩ := heffect
              exact .aborting hg hbooks hup hab

/-- The first section announces nothing. -/
theorem Step.processUpBegin {σ σ' : Traced} {sequence : ℕ} {body : Bytes} {r : UpReply}
    (h : Step sha256 σ (.processUpBegin sequence body) (.up r) σ') :
    processUpBegin sha256 σ.session sequence body = (σ'.session, r) ∧ σ'.trace = σ.trace := by
  cases h with
  | run hc hr =>
      obtain ⟨rfl, he⟩ := runs_pure.mp hr
      cases he
      exact ⟨rfl, List.append_nil _⟩

theorem Step.processUpBegin_reply {σ σ' : Traced} {sequence : ℕ} {body : Bytes} {r : Reply}
    (h : Step sha256 σ (.processUpBegin sequence body) r σ') : ∃ r', r = .up r' := by
  cases h with
  | run hc hr =>
      obtain ⟨-, he⟩ := runs_pure.mp hr
      cases he
      exact ⟨_, rfl⟩

theorem Step.processUpBegin_cases {σ σ' : Traced} {sequence : ℕ} {body : Bytes} {r : UpReply}
    (h : Step sha256 σ (.processUpBegin sequence body) (.up r) σ') :
    (σ' = σ ∧ r ≠ .parsing) ∨
      (σ' = ⟨{ σ.session with upActive := true }, σ.trace⟩ ∧ r = .parsing) := by
  obtain ⟨s', t'⟩ := σ'
  obtain ⟨hres, rfl⟩ := h.processUpBegin
  rcases @TproxyServer.processUpBegin_cases σ.session sha256 sequence body with
    ⟨hsame, hne⟩ | ⟨heq, -⟩
  · rw [hres] at hsame hne
    cases hsame
    exact .inl ⟨rfl, hne⟩
  · rw [hres] at heq
    cases heq
    exact .inr ⟨rfl, rfl⟩

theorem Step.processUpCommit {σ σ' : Traced} {sequence : ℕ} {body : Bytes} {r : UpReply}
    (hs : Sound limits carrier σ)
    (h : Step sha256 σ (.processUpCommit sequence body) (.up r) σ') :
    CommitResult sha256 σ.session σ.trace sequence body σ'.trace (σ'.session, r) := by
  obtain ⟨r', hr, hresult⟩ := @Step.of_wp sha256 _ _ _ _ h
    (fun t' p => ∃ r', p.2 = .up r' ∧
      CommitResult sha256 σ.session σ.trace sequence body t' (p.1, r'))
    fun hc =>
      wp_seq (processUpCommit_result hs hc sequence body) fun t' p hp => ⟨p.2, rfl, hp⟩
  cases hr
  exact hresult

/-- `ProcessUpLane` refuses a session without lanes. -/
theorem Step.processUpLane_refused {σ σ' : Traced} {laneID sequence : ℕ} {body : Bytes}
    {r : Reply} (hlanes : σ.session.usesCarrierLanes = false)
    (h : Step sha256 σ (.processUpLane laneID sequence body) r σ') : σ' = σ := by
  cases h with
  | @run s s' t es c r hc hr =>
      have hexec : (Section.processUpLane laneID sequence body).exec sha256 s =
          pure (s, .up .refused) := by
        show TproxyServer.processUpLane sha256 s laneID sequence body >>= _ = _
        rw [TproxyServer.processUpLane, if_pos (.inl hlanes)]
        rfl
      rw [hexec] at hr
      obtain ⟨rfl, he⟩ := runs_pure.mp hr
      cases he
      rw [List.append_nil]

/-- What is not a section of `ProcessUp` leaves the books and the uplink's events alone. -/
theorem Step.other {σ σ' : Traced} {c : Section} {r : Reply} (hs : Sound limits carrier σ)
    (hlanes : σ.session.usesCarrierLanes = false) (hc : c.ofProcessUp = false)
    (h : Step sha256 σ c r σ') :
    σ'.session.books = σ.session.books ∧ Quiet σ.trace σ'.trace := by
  have hscope : (c.scope.frames = false ∧ c.scope.uplink = false) ∨ σ' = σ := by
    cases c with
    | processUpBegin => cases hc
    | processUpCommit => cases hc
    | processUpLane => exact .inr (h.processUpLane_refused hlanes)
    | _ => exact .inl ⟨rfl, rfl⟩
  rcases hscope with ⟨hframes, huplink⟩ | rfl
  · refine (h.changes hs).invariant (I := fun τ =>
      τ.session.books = σ.session.books ∧ Quiet σ.trace τ.trace) ?_ ⟨rfl, rfl, rfl⟩
    rintro τ τ' hchange ⟨hb, hq⟩
    have hq' := hchange.quiet hframes huplink
    exact ⟨(hchange.books huplink).trans hb, hq'.1.trans hq.1, hq'.2.trans hq.2⟩
  · exact ⟨rfl, rfl, rfl⟩

end TproxyServer
