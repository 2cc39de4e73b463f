import TproxyServer.DownlinkOnce

/-! # What a poll is answered

A body that a poll returns for a cursor is the one that was delivered under that cursor, be it
taken now or replayed, and whichever of the calls that wait it is.  `laneClosed` says that
nothing is left of what was queued. -/

namespace TproxyServer

open Interaction Prog

variable {limits : Limits} {carrier : CarrierMode} {s s' : Session} {t : List Event}
  {sha256 : Bytes → Bytes} {q : QueueRef} {cursor mine : ℕ}

/-! ### One section of a poll -/

/-- What was unacknowledged still is, or its poll has acknowledged it. -/
def Unacked (s : Session) (q : QueueRef) (cursor : ℕ) (s' : Session) : Prop :=
  (s'.queue q).unacked = (s.queue q).unacked ∨
    cursor = (s.queue q).downCursor ∧ (s'.queue q).unacked = []

/-- What a section of a poll on `q` with this cursor leads to. -/
structure Replied (s : Session) (t : List Event) (q : QueueRef) (cursor : ℕ) (t' : List Event)
    (s' : Session) (r : PollReply) : Prop where
  /-- The body is replayed, or taken now and numbered by the cursor. -/
  batch : ∀ body next, r = .batch body next →
    t' = t ∧ s' = s ∧ body = (s.queue q).unacked ∧ body ≠ [] ∧
        cursor = (s.queue q).unackedBase ∧ next = (s.queue q).downCursor ∨
      t' = t ++ [.delivered q cursor body] ∧ cursor = (s.queue q).downCursor ∧
        next = cursor + 1 ∧ (s.queue q).pendingFrames ≠ [] ∧ (s'.queue q).unacked = body
  rest : (∀ body next, r ≠ .batch body next) → t' = t
  /-- Only the cursor of the queue acknowledges. -/
  acked : (∀ body next, r ≠ .batch body next) → Unacked s q cursor s'
  parked : ∀ m, r = .parked m → cursor = (s.queue q).downCursor ∧
    (s'.queue q).downCursor = cursor
  ended : ∀ c, r = .laneClosed c → (s'.queue q).pendingFrames = [] ∧ (s'.queue q).unacked = []

def Fresh (s : Session) (q : QueueRef) (r : PollReply) : Prop :=
  ∀ body next, r = .batch body next → (s.queue q).pendingFrames ≠ []

/-- An answer without frames from a section that does not wait. -/
theorem Replied.idle {r : PollReply} (hacked : Unacked s q cursor s')
    (hbatch : ∀ body next, r ≠ .batch body next)
    (hparked : ∀ m, r ≠ .parked m) (hended : ∀ c, r ≠ .laneClosed c) :
    Replied s t q cursor t s' r where
  batch body next h := absurd h (hbatch body next)
  rest _ := rfl
  acked _ := hacked
  parked m h := absurd h (hparked m)
  ended c h := absurd h (hended c)

/-- What the loop answers a poll whose cursor is that of the queue. -/
theorem pollLoop_answered {s₀ : Session} (ho : s.Objects) (hq : s.HasQueue q)
    (hcursor : (s.queue q).superseded = some mine →
      cursor = (s.queue q).downCursor ∧ (s.queue q).unacked = [])
    (hsame : (s.queue q).downCursor = (s₀.queue q).downCursor ∧
      (s.queue q).pendingFrames = (s₀.queue q).pendingFrames) (hacked : Unacked s₀ q cursor s) :
    wp observer (pollLoop s q cursor mine)
      (fun t' r => Replied s₀ t q cursor t' r.1 r.2 ∧ Fresh s₀ q r.2) t := by
  have hleave : (s.setQueue q (s.queue q).leave).queue q = (s.queue q).leave :=
    (Writes.setQueue ho hq _).here hq
  have hacked' : Unacked s₀ q cursor (s.setQueue q (s.queue q).leave) := by
    unfold Unacked
    rw [hleave]
    exact hacked
  unfold pollLoop
  dsimp only
  by_cases hmine : (s.queue q).superseded = some mine
  · obtain ⟨hcur, hunacked⟩ := hcursor hmine
    rw [if_neg (by simp [hmine])]
    by_cases hframes : (s.queue q).pendingFrames = []
    · rw [if_neg (by simp [hframes])]
      split_ifs
      · exact ⟨.idle hacked' (by simp) (by simp) (by simp), fun _ _ h => by cases h⟩
      · refine ⟨⟨by simp, fun _ => rfl, fun _ => hacked', by simp, fun c _ => ?_⟩,
          fun _ _ h => by cases h⟩
        dsimp only
        rw [hleave]
        exact ⟨hframes, hunacked⟩
      · refine ⟨⟨by simp, fun _ => rfl, fun _ => hacked, fun m _ => ?_, by simp⟩,
          fun _ _ h => by cases h⟩
        exact ⟨hcur.trans hsame.1, hcur.symm⟩
    · rw [if_pos hframes]
      refine ⟨⟨fun body next h => .inr ?_, fun h => absurd rfl (h _ _), fun h =>
        absurd rfl (h _ _), by simp, by simp⟩, fun _ _ _ => ?_⟩
      · cases h
        refine ⟨rfl, hcur.trans hsame.1, ?_, ?_, ?_⟩
        · rw [hcur]
          rfl
        · rw [← hsame.2]
          exact hframes
        · rw [(Writes.setQueue ho hq _).here hq]
          rfl
      · rw [← hsame.2]
        exact hframes
  · rw [if_pos hmine]
    exact ⟨.idle hacked (by simp) (by simp) (by simp), fun _ _ h => by cases h⟩

/-- What a poll is answered that takes over a queue of which everything is acknowledged. -/
theorem takeOver_answered {s₀ : Session} (ho : s.Objects) (hq : s.HasQueue q)
    (hcursor : cursor = (s.queue q).downCursor) (hunacked : (s.queue q).unacked = [])
    (hsame : (s.queue q).downCursor = (s₀.queue q).downCursor ∧
      (s.queue q).pendingFrames = (s₀.queue q).pendingFrames) (hacked : Unacked s₀ q cursor s) :
    wp observer (takeOver s q >>= fun p => pollLoop p.1 q cursor p.2)
      (fun t' r => Replied s₀ t q cursor t' r.1 r.2) t := by
  have hgo : ∀ s₁ : Session, s₁.down = s.down → s₁.carrierLanes = s.carrierLanes →
      s₁.releasedLanes = s.releasedLanes → s₁.closed = s.closed → s₁.limits = s.limits →
      s₁.nextObject = s.nextObject →
      wp observer (pollLoop ({ s₁ with nextObject := s₁.nextObject + 1 }.setQueue q
        { s.queue q with superseded := some s₁.nextObject, downActive := true }) q cursor
          s₁.nextObject) (fun t' r => Replied s₀ t q cursor t' r.1 r.2) t := by
    intro s₁ hdown hlanes hreleased hclosed hlimits hnext
    set s₂ : Session := { s₁ with nextObject := s₁.nextObject + 1 }
    have hw₂ : Writes s q (s.queue q) s₂ :=
      (Writes.refl ho hq).congr hdown hlanes hreleased hclosed hlimits
    have ho₂ : s₂.Objects := ho.of_eq hlanes hreleased (by
      show s.nextObject ≤ s₁.nextObject + 1
      omega)
    have hq₂ := (hw₂.has q).mpr hq
    have hw := hw₂.trans (.setQueue ho₂ hq₂
      { s.queue q with superseded := some s₁.nextObject, downActive := true })
    have hhere := hw.here hq
    have hloop := fun hcursor => @pollLoop_answered _ t q cursor s₁.nextObject s₀
      (ho₂.setQueue q _) ((hw.has q).mpr hq) hcursor (by rw [hhere]; exact hsame)
      (by unfold Unacked; rw [hhere]; exact hacked)
    refine wp_mono (hloop fun _ => ?_) fun _ _ h => h.1
    rw [hhere]
    exact ⟨hcursor, hunacked⟩
  unfold takeOver
  dsimp only
  cases hsup : (s.queue q).superseded with
  | none => exact hgo s rfl rfl rfl rfl rfl rfl
  | some channel =>
      dsimp only
      split_ifs
      · exact hgo s rfl rfl rfl rfl rfl rfl
      · trivial
      · exact hgo _ rfl rfl rfl rfl rfl rfl

/-- What a poll is answered with the session locked. -/
theorem pollOn_answered (ho : s.Objects) (hq : s.HasQueue q) :
    wp observer (pollOn s q cursor) (fun t' r => Replied s t q cursor t' r.1 r.2) t := by
  unfold pollOn
  dsimp only
  cases hcheck : (s.queue q).checkCursor cursor with
  | replay =>
      have hreplay : (s.queue q).unacked ≠ [] ∧ cursor = (s.queue q).unackedBase := by
        unfold Downlink.checkCursor at hcheck
        split_ifs at hcheck with hlength hbase
        exact ⟨fun he => hlength (by rw [he]; rfl), hbase⟩
      refine ⟨fun body next h => .inl ?_, fun h => absurd rfl (h _ _), fun h =>
        absurd rfl (h _ _), by simp, by simp⟩
      cases h
      exact ⟨rfl, rfl, rfl, hreplay.1, hreplay.2, rfl⟩
  | mismatch => exact .idle (.inl rfl) (by simp) (by simp) (by simp)
  | current =>
      obtain ⟨hunacked, hcursor⟩ := Downlink.checkCursor_current hcheck
      exact takeOver_answered ho hq hcursor hunacked ⟨rfl, rfl⟩ (.inl rfl)
  | acknowledge =>
      refine wp_seq (releasePendingLocked_obs s _ _) ?_
      rintro t₁ s₁ ⟨rfl, cost, items, notify, rfl⟩
      have hw₁ : Writes s q (s.queue q) (s.setPending cost items notify) :=
        (Writes.refl ho hq).congr rfl rfl rfl rfl rfl
      have ho₁ : (s.setPending cost items notify).Objects := ho.of_eq rfl rfl le_rfl
      have hw := hw₁.trans (.setQueue ho₁ ((hw₁.has q).mpr hq) (s.queue q).acknowledge)
      have hhere := hw.here hq
      have hcursor := (Downlink.checkCursor_acknowledge hcheck).2.1
      refine takeOver_answered (ho₁.setQueue q _) ((hw.has q).mpr hq) ?_ ?_ ?_ (.inr ⟨hcursor, ?_⟩)
      · rw [hhere]
        exact hcursor
      · rw [hhere]
        rfl
      · rw [hhere]
        exact ⟨rfl, rfl⟩
      · rw [hhere]
        rfl

/-- The section in which a poll arrives. -/
theorem arrival_answered {c : Section} (ho : s.Objects) (hc : c.pollsOn s = some (q, cursor)) :
    wp observer (c.exec sha256 s) (fun t' a => ∀ r, a.2 = .poll r →
      Replied s t q cursor t' a.1 r ∧ (∀ body next, r = .batch body next → s.Live q)) t := by
  have hreply : ∀ {p : Act (Session × PollReply)}, wp observer p (fun t' a =>
      Replied s t q cursor t' a.1 a.2 ∧ (∀ body next, a.2 = .batch body next → s.Live q)) t →
      wp observer (p >>= fun a => pure (a.1, Reply.poll a.2)) (fun t' a => ∀ r, a.2 = .poll r →
        Replied s t q cursor t' a.1 r ∧ (∀ body next, r = .batch body next → s.Live q)) t := by
    intro p hp
    refine wp_seq hp fun _ a ha r hr => ?_
    cases hr
    exact ha
  cases c with
  | poll cursor' =>
      cases hc
      apply hreply
      unfold TproxyServer.poll
      split_ifs with _ hclosed
      · exact ⟨.idle (.inl rfl) (by simp) (by simp) (by simp), by simp⟩
      · exact ⟨.idle (.inl rfl) (by simp) (by simp) (by simp), by simp⟩
      · refine wp_mono (pollOn_answered ho trivial) fun _ _ h => ⟨h, fun _ _ _ => ?_⟩
        exact ⟨by simpa using hclosed, trivial⟩
  | pollLane laneID cursor' =>
      cases hc
      apply hreply
      unfold TproxyServer.pollLane
      split_ifs with _ hclosed
      · exact ⟨.idle (.inl rfl) (by simp) (by simp) (by simp), by simp⟩
      · exact ⟨.idle (.inl rfl) (by simp) (by simp) (by simp), by simp⟩
      · cases hl : s.carrierLanes.get laneID with
        | none => exact ⟨.idle (.inl rfl) (by simp) (by simp) (by simp), by simp⟩
        | some lane =>
            refine wp_mono (pollOn_answered ho (Session.hasQueue_of_get hl)) fun _ _ h =>
              ⟨h, fun _ _ _ => ⟨by simpa using hclosed, ?_⟩⟩
            dsimp only [Option.map_some, Option.getD_some]
            rw [Session.attached_eq_some.mpr ⟨hl, rfl⟩]
            exact Option.some_ne_none _
  | _ => cases hc

theorem pollResume_answered {wake : Wake} (ho : s.Objects) (hq : s.HasQueue q)
    (hcursor : (s.queue q).superseded = some mine →
      cursor = (s.queue q).downCursor ∧ (s.queue q).unacked = []) :
    wp observer (pollResume s q cursor mine wake)
      (fun t' r => Replied s t q cursor t' r.1 r.2 ∧ Fresh s q r.2) t := by
  have hloop := pollLoop_answered (t := t) ho hq hcursor ⟨rfl, rfl⟩ (.inl rfl)
  have hset : ∀ d : Downlink, d.unacked = (s.queue q).unacked →
      Unacked s q cursor (s.setQueue q d) := by
    intro d hd
    left
    rw [(Writes.setQueue ho hq d).here hq]
    exact hd
  have hidle : ∀ (s' : Session) (r : PollReply), Unacked s q cursor s' →
      (∀ body next, r ≠ .batch body next) → r.Leaves → (∀ c, r ≠ .laneClosed c) →
      Replied s t q cursor t s' r ∧ Fresh s q r :=
    fun s' r hacked hbatch hleaves hended =>
      ⟨.idle hacked hbatch hleaves hended, fun body next h => absurd h (hbatch body next)⟩
  have hend : ∀ r : PollReply, (∀ body next, r ≠ .batch body next) → r.Leaves →
      (∀ c, r ≠ .laneClosed c) →
      Replied s t q cursor t (if (s.queue q).superseded = some mine then
        s.setQueue q (s.queue q).leave else s) r ∧ Fresh s q r := by
    intro r hbatch hleaves hended
    refine hidle _ r ?_ hbatch hleaves hended
    split_ifs
    · exact hset _ rfl
    · exact .inl rfl
  unfold pollResume
  cases wake with
  | cancelled => exact hend _ (by simp) (fun m h => by cases h) (by simp)
  | superseded => exact hidle _ _ (hset _ rfl) (by simp) (fun m h => by cases h) (by simp)
  | done => exact hend _ (by simp) (fun m h => by cases h) (by simp)
  | deadline =>
      dsimp only
      split_ifs
      · exact hidle _ _ (hset _ rfl) (by simp) (fun m h => by cases h) (by simp)
      · exact hloop
      · exact hidle _ _ (hset _ rfl) (by simp) (fun m h => by cases h) (by simp)
  | notified =>
      dsimp only
      split_ifs
      · have hw := Writes.setQueue ho hq (s.queue q).signal
        have hhere := hw.here hq
        refine pollLoop_answered (ho.setQueue q _) ((hw.has q).mpr hq) (fun hmine => ?_) ?_
          (hset _ rfl)
        · rw [hhere] at hmine ⊢
          exact hcursor hmine
        · rw [hhere]
          exact ⟨rfl, rfl⟩
      · exact hloop

/-- A section that is none of a poll's delivers nothing. -/
theorem Change.delivers_nothing {scope : Scope} {σ σ' : Traced} (h : Change scope σ σ')
    (hpolls : scope.polls = false) (q : QueueRef) :
    deliveries σ'.trace q = deliveries σ.trace q := by
  have haside : ∀ (t es : List Event), (∀ e ∈ es, e.aside = true) →
      deliveries (t ++ es) q = deliveries t q := by
    intro t es hes
    rw [deliveries_append, deliveries_aside hes, List.append_nil]
  have hresult : ∀ {s s' : Session} {ty : FrameType} {id : ℕ} {payload : Bytes} {ok : Bool}
      {es : List Event} (t : List Event), QueueResult s ty id payload es s' ok →
      deliveries (t ++ es) q = deliveries t q := by
    intro s s' ty id payload ok es t h
    rw [deliveries_append]
    cases h <;> exact List.append_nil _
  cases h with
  | silent he =>
      refine haside _ _ fun e he' => ?_
      rw [List.mem_singleton.mp he']
      exact Event.silent_aside he
  | openStream => exact haside _ _ (by simp [Event.aside])
  | stream _ _ h _ =>
      refine haside _ _ ?_
      cases h <;> simp [Event.aside]
  | drained _ _ _ _ _ _ h _ => exact hresult _ h
  | read _ _ _ _ h _ => exact hresult _ h
  | queueClose _ _ _ h _ _ _ => exact hresult _ h
  | rememberRoom => exact haside _ _ (by simp [Event.aside])
  | rememberFull =>
      rw [List.append_assoc]
      exact haside _ _ (by simp [Event.aside])
  | deliver _ _ _ hscope =>
      rw [hpolls] at hscope
      cases hscope
  | batch => exact haside _ _ (by simp [Event.aside])
  | _ => rfl

/-- Only a poll takes a body for the client. -/
theorem Step.delivers_nothing {σ σ' : Traced} {c : Section} {r : Reply}
    (h : Step sha256 σ c r σ') (hs : Sound limits carrier σ) (hpolls : c.scope.polls = false)
    (q : QueueRef) : deliveries σ'.trace q = deliveries σ.trace q := by
  refine (h.changes hs).invariant (I := fun τ => deliveries τ.trace q = deliveries σ.trace q)
    (fun hchange he => ?_) rfl
  rw [← he]
  exact hchange.delivers_nothing hpolls q

theorem Section.scope_polls {c : Section} (h : c.polling = false) : c.scope.polls = false := by
  cases c <;> first | rfl | cases h

theorem Session.down_setQueue {d : Downlink} (h : d.unacked = (s.queue q).unacked) :
    (s.setQueue q d).down.unacked = s.down.unacked := by
  cases q with
  | session => exact h
  | lane id object =>
      unfold Session.setQueue
      dsimp only
      obtain ⟨lanes, released, he⟩ := s.modifyLane_eq id object fun l => { l with down := d }
      rw [he]

/-- Nor does it acknowledge anything in a session that stays open. -/
theorem Change.keeps_unacked {scope : Scope} {σ σ' : Traced} (h : Change scope σ σ')
    (hpolls : scope.polls = false) (hopen : σ'.session.closed = false) :
    σ'.session.down.unacked = σ.session.down.unacked := by
  have hresult : ∀ {s s' : Session} {ty : FrameType} {id : ℕ} {payload : Bytes} {ok : Bool}
      {es : List Event}, QueueResult s ty id payload es s' ok →
      s'.down.unacked = s.down.unacked := by
    intro s s' ty id payload ok es h
    cases h with
    | refused => rfl
    | @accepted q d cost items notify _ henqueue =>
        refine Session.down_setQueue (s := s.setPending cost items notify) ?_
        have hqueue : (s.setPending cost items notify).queue q = s.queue q := by
          cases q <;> rfl
        rw [hqueue]
        generalize s.queue q = d₀ at henqueue
        cases henqueue <;> rfl
  cases h with
  | drained _ _ _ _ _ _ h _ => exact (hresult h).trans rfl
  | read _ _ _ _ h _ => exact (hresult h).trans rfl
  | queueClose _ _ _ h _ _ _ => exact hresult h
  | attend => exact Session.down_setQueue rfl
  | acknowledge _ _ hscope =>
      rw [hpolls] at hscope
      cases hscope
  | deliver _ _ _ hscope =>
      rw [hpolls] at hscope
      cases hscope
  | close => cases hopen
  | @laneUplink s t hup id object f hobject hdown hscope =>
      obtain ⟨lanes, released, he⟩ := s.modifyLane_eq id object f
      rw [he]
  | _ => rfl

/-- The call that goes on waiting waits with the cursor of its queue. -/
theorem Replied.waiter {q : QueueRef} {cursor : ℕ} {r : PollReply} {u : Waiter}
    {t' : List Event} (h : Replied s t q cursor t' s' r) (hu : u ∈ r.waiter q cursor) :
    u.cursor = (s'.queue u.q).downCursor := by
  cases r with
  | parked m =>
      rw [List.mem_singleton.mp hu]
      exact (h.parked m rfl).2.symm
  | _ => cases hu

/-! ### The calls of a session -/

namespace Polls

variable {W W' : Polls} {σ : Traced} {w : Waiter} {l₁ l₂ : List Waiter}

/-- A call on `q` with this cursor answers `r` and leaves the session at `σ`: it has just arrived,
or it has waited. -/
inductive Answers (sha256 : Bytes → Bytes) (W : Polls) (q : QueueRef) (cursor : ℕ) :
    PollReply → Traced → Prop
  | arrive {c : Section} {r : PollReply} {σ : Traced} (hc : c.pollsOn W.session = some (q, cursor))
      (h : TproxyServer.Step sha256 W.state c (.poll r) σ) : Answers sha256 W q cursor r σ
  | resume {l₁ l₂ : List Waiter} {w : Waiter} {wake : Wake} {r : PollReply} {σ : Traced}
      (hw : W.waiting = l₁ ++ w :: l₂) (hq : w.q = q) (hcursor : w.cursor = cursor)
      (hwake : w.wake = some wake)
      (h : TproxyServer.Step sha256 W.state (.pollResume w.q w.cursor w.mine wake) (.poll r) σ) :
      Answers sha256 W q cursor r σ

/-- Deliveries are numbered by their cursors, and the call that a queue is for waits with the
cursor of the queue. -/
structure Cursors (W : Polls) : Prop where
  numbered : ∀ (q : QueueRef) (i c : ℕ) (body : Bytes),
    (deliveries W.state.trace q)[i]? = some (c, body) → c = i
  waiting : ∀ w ∈ W.waiting, W.Current w → w.cursor = (W.session.queue w.q).downCursor

theorem Answers.answered {q : QueueRef} {cursor : ℕ} {r : PollReply}
    (h : Answers sha256 W q cursor r σ)
    (hr : TproxyServer.Reachable sha256 limits carrier W.state) (hi : W.Invariant)
    (hc : W.Cursors) :
    Replied W.session W.state.trace q cursor σ.trace σ.session r ∧
      ∀ body next, r = .batch body next → W.session.Live q := by
  cases h with
  | @arrive c r σ hc h =>
      exact @Step.of_wp _ _ _ _ _ h (fun t' a => ∀ r, a.2 = .poll r →
        Replied W.session W.state.trace q cursor t' a.1 r ∧
          (∀ body next, r = .batch body next → W.session.Live q))
        (fun _ => arrival_answered hr.objects hc) r rfl
  | @resume l₁ l₂ w wake r σ hw hq hcursor hwake h =>
      subst hq hcursor
      have hmem : w ∈ W.waiting := by
        rw [hw]
        simp
      have hwell : (W.session.queue w.q).Well := hr.represented.well.queue .new w.q
      have hboth : Replied W.session W.state.trace w.q w.cursor σ.trace σ.session r ∧
          Fresh W.session w.q r := by
        refine h.of_pollResume (pollResume_answered hr.objects (hi.here w hmem).2 fun hmine => ?_)
        refine ⟨hc.waiting w hmem hmine, hwell.parked fun hnone => ?_⟩
        have hsome : (W.session.queue w.q).superseded = some w.mine := hmine
        rw [hsome] at hnone
        cases hnone
      refine ⟨hboth.1, fun body next hbatch => ?_⟩
      by_contra hdead
      exact hboth.2 body next hbatch ((hr.carried w.q).empty hdead)

/-! ### Cursors number the deliveries -/

/-- What a step leaves to the calls that were waiting. -/
def Keeps (W : Polls) (s' : Session) : Prop :=
  ∀ u ∈ W.waiting, (s'.queue u.q).superseded = some u.mine →
    W.Current u ∧ (s'.queue u.q).downCursor = (W.session.queue u.q).downCursor

theorem Keeps.writes {d : Downlink} {s' : Session} (hi : W.Invariant) (ho : W.session.Objects)
    {q : QueueRef} (hq : W.session.HasQueue q) (hw : Writes W.session q d s')
    (hd : d.superseded = (W.session.queue q).superseded ∧
        d.downCursor = (W.session.queue q).downCursor ∨
      ∀ u ∈ W.waiting, d.superseded ≠ some u.mine) : W.Keeps s' := by
  intro u hu hmine
  have hhas := (hi.here u hu).2
  rw [hw.queue u.q hhas] at hmine ⊢
  by_cases hobject : q.object = u.q.object
  · rw [if_pos hobject] at hmine ⊢
    rcases hd with ⟨hsuperseded, hcursor⟩ | hother
    · rw [ho.queue_eq hq hhas hobject] at hsuperseded hcursor
      exact ⟨hsuperseded.symm.trans hmine, hcursor⟩
    · exact absurd hmine (hother u hu)
  · rw [if_neg hobject] at hmine ⊢
    exact ⟨hmine, rfl⟩

theorem Keeps.same {s' : Session} (h : s' = W.session) : W.Keeps s' := by
  intro u _ hmine
  rw [h] at hmine ⊢
  exact ⟨hmine, rfl⟩

theorem Keeps.rouses {s' : Session} (hi : W.Invariant) (hr : Rouses W.session s') :
    W.Keeps s' := by
  intro u hu hmine
  have hroused := (hr.kept u.q (hi.here u hu).2).2
  exact ⟨hroused.superseded.symm.trans hmine, hroused.cursor⟩

/-- A poll that takes over leaves no other current on its queue. -/
theorem Keeps.takesOver {s' : Session} {q : QueueRef} {r : PollReply} {d : Downlink}
    (hi : W.Invariant) (ho : W.session.Objects) (hq : W.session.HasQueue q)
    (ht : TakesOver W.session q s' r d) : W.Keeps s' := by
  refine .writes hi ho hq ht.writes (.inr fun u hu he => ?_)
  rcases ht.ends with ⟨-, hmine, -⟩ | ⟨-, hnone, -⟩
  · rw [hmine] at he
    have hlt := (hi.here u hu).1
    have heq := Option.some.inj he
    omega
  · rw [hnone] at he
    cases he

theorem Keeps.resume {wake : Wake} {r : PollReply} (hi : W.Invariant) (ho : W.session.Objects)
    (hw : w ∈ W.waiting) (hwake : w.wake = some wake)
    (h : TproxyServer.Step sha256 W.state (.pollResume w.q w.cursor w.mine wake) (.poll r) σ) :
    W.Keeps σ.session := by
  have hq := (hi.here w hw).2
  by_cases hc : W.Current w
  · have hwoken : wake ≠ .superseded := by
      rintro rfl
      exact (hi.newest w.q w.mine hc).1 (hi.superseded w hw hwake)
    obtain ⟨d, hwrites, -, -, hend⟩ := h.of_pollResume_sentry
      (Q := fun s' r => ∃ d, GoesOnOrLeaves W.session w.q w.mine s' r d)
      (pollResume_current ho hq hc hwoken)
    refine .writes hi ho hq hwrites ?_
    rcases hend with ⟨-, rfl, -⟩ | ⟨-, hnone, -⟩
    · exact .inl ⟨rfl, rfl⟩
    · refine .inr fun u _ he => ?_
      rw [hnone] at he
      cases he
  · have haside := h.of_pollResume_sentry
      (Q := fun s' r => StepsAside W.session w.q w.cursor wake s' r)
      (pollResume_superseded w.cursor wake ho hq hc)
    exact .writes hi ho hq haside.writes (.inl ⟨rfl, rfl⟩)

/-- What a call answers numbers its delivery. -/
theorem Cursors.answered {q : QueueRef} {cursor : ℕ} {r : PollReply} (hc : W.Cursors)
    (hr : TproxyServer.Reachable sha256 limits carrier W.state)
    (h : Replied W.session W.state.trace q cursor σ.trace σ.session r)
    (hlive : ∀ body next, r = .batch body next → W.session.Live q) :
    ∀ (q' : QueueRef) (i c : ℕ) (body : Bytes),
      (deliveries σ.trace q')[i]? = some (c, body) → c = i := by
  intro q' i c body hi
  by_cases hbatch : ∃ body next, r = .batch body next
  · obtain ⟨body', next, hbatch⟩ := hbatch
    rcases h.batch body' next hbatch with ⟨htrace, -⟩ | ⟨htrace, hcursor, -, -, -⟩
    · rw [htrace] at hi
      exact hc.numbered q' i c body hi
    · rw [htrace, deliveries_append] at hi
      by_cases hq : q = q'
      · subst hq
        have hcount := (hr.carried q).count (hlive body' next hbatch)
        rw [List.getElem?_append] at hi
        split_ifs at hi with hlt
        · exact hc.numbered q i c body hi
        · have hone : deliveries [.delivered q cursor body'] q = [(cursor, body')] := by
            simp [deliveries]
          rw [hone, List.getElem?_singleton] at hi
          split_ifs at hi with hzero
          have hpair := Option.some.inj hi
          simp only [Prod.mk.injEq] at hpair
          have hdown : cursor = (W.state.session.queue q).downCursor := hcursor
          omega
      · have hnone : deliveries [.delivered q cursor body'] q' = [] := by
          simp [deliveries, hq]
        rw [hnone, List.append_nil] at hi
        exact hc.numbered q' i c body hi
  · have htrace := h.rest fun body next he => hbatch ⟨body, next, he⟩
    rw [htrace] at hi
    exact hc.numbered q' i c body hi

theorem Cursors.start (limits : Limits) (carrier : CarrierMode) :
    Cursors { state := ⟨newSession limits carrier, []⟩ } :=
  ⟨fun q i c body hi => (by cases hi), fun w hw => (by cases hw)⟩

theorem Cursors.step (hc : W.Cursors) (hi : W.Invariant)
    (hr : TproxyServer.Reachable sha256 limits carrier W.state) (hs : Step sha256 W W') :
    W'.Cursors := by
  have ho : W.session.Objects := hr.objects
  have hold : ∀ {s' : Session} {u : Waiter}, W.Keeps s' → u ∈ W.waiting →
      (s'.queue u.q).superseded = some u.mine → u.cursor = (s'.queue u.q).downCursor := by
    intro s' u hkeeps hu hmine
    obtain ⟨hcurrent, hcursor⟩ := hkeeps u hu hmine
    rw [hcursor]
    exact hc.waiting u hu hcurrent
  cases hs with
  | @other c r σ hpolling hstep =>
      refine ⟨fun q i c' body hget => ?_, fun u hu hmine => ?_⟩
      · dsimp only at hget
        rw [hstep.delivers_nothing hr.sound (Section.scope_polls hpolling) q] at hget
        exact hc.numbered q i c' body hget
      · exact hold (.rouses hi (hstep.rouses hr hpolling)) hu hmine
  | @arrive c q cursor r σ hpolls hstep =>
      obtain ⟨hanswered, hlive⟩ := (Answers.arrive hpolls hstep).answered hr hi hc
      refine ⟨hc.answered hr hanswered hlive, fun u hu hmine => ?_⟩
      rcases List.mem_append.mp hu with hu | hu
      · have harrival := hstep.of_sentry (Q := fun a => ∀ r, a.2 = .poll r →
          a.1 = W.session ∧ r.Leaves ∨
            W.session.HasQueue q ∧ ∃ d, TakesOver W.session q a.1 r d) (hi.arrival ho hpolls _)
        rcases harrival r rfl with ⟨hs, -⟩ | ⟨hq, d, ht⟩
        · exact hold (.same hs) hu hmine
        · exact hold (.takesOver hi ho hq ht) hu hmine
      · exact hanswered.waiter hu
  | @wake l₁ l₂ w wake hw _ _ _ =>
      refine ⟨hc.numbered, fun u hu hmine => ?_⟩
      rcases mem_split.mp hu with rfl | hu
      · exact hc.waiting w (by rw [hw]; simp) hmine
      · exact hc.waiting u (by rw [hw]; exact mem_split.mpr (.inr hu)) hmine
  | @token l₁ l₂ w σ r hw _ _ hstep =>
      have hmem : w ∈ W.waiting := by
        rw [hw]
        simp
      have hq := (hi.here w hmem).2
      have hkeeps : W.Keeps σ.session := by
        apply Keeps.writes hi ho hq (receive_writes ho hq rfl hstep).1
        exact .inl ⟨rfl, rfl⟩
      refine ⟨fun q i c' body hget => ?_, fun u hu hmine => ?_⟩
      · dsimp only at hget
        rw [hstep.delivers_nothing hr.sound rfl q] at hget
        exact hc.numbered q i c' body hget
      · rcases mem_split.mp hu with rfl | hu
        · exact hold (u := w) hkeeps hmem hmine
        · exact hold hkeeps (by rw [hw]; exact mem_split.mpr (.inr hu)) hmine
  | @resume l₁ l₂ w wake r σ hw hwake hstep =>
      have hmem : w ∈ W.waiting := by
        rw [hw]
        simp
      obtain ⟨hanswered, hlive⟩ := (Answers.resume hw rfl rfl hwake hstep).answered hr hi hc
      refine ⟨hc.answered hr hanswered hlive, fun u hu hmine => ?_⟩
      have hkeeps := Keeps.resume hi ho hmem hwake hstep
      rcases List.mem_append.mp hu with hu | hu
      · rcases List.mem_append.mp hu with hu | hu
        · exact hold hkeeps (by rw [hw]; simp [hu]) hmine
        · exact hanswered.waiter hu
      · exact hold hkeeps (by rw [hw]; simp [hu]) hmine

theorem Reachable.cursors (h : Reachable sha256 limits carrier W) : W.Cursors := by
  induction h with
  | start => exact .start limits carrier
  | step hr hs ih => exact ih.step hr.invariant hr.state hs

/-! ### The law -/

theorem Answers.step {q : QueueRef} {cursor : ℕ} {r : PollReply}
    (h : Answers sha256 W q cursor r σ) :
    ∃ W', Step sha256 W W' ∧ W'.state = σ := by
  cases h with
  | arrive hc h => exact ⟨_, .arrive hc h, rfl⟩
  | resume hw _ _ hwake h => exact ⟨_, .resume hw hwake h, rfl⟩

structure DeliveredOnce (sha256 : Bytes → Bytes) (W : Polls) : Prop where
  /-- What was queued for the client is what was delivered and what still waits, or is lost with
  its queue, in its order. -/
  carried : ∀ q, Carried W.state q
  numbered : ∀ (q : QueueRef) (i c : ℕ) (body : Bytes),
    (deliveries W.state.trace q)[i]? = some (c, body) → c = i
  /-- A body is only ever the answer to its own cursor, also when it is asked for again. -/
  batch : ∀ q cursor body next σ, Answers sha256 W q cursor (.batch body next) σ →
    next = cursor + 1 ∧ (deliveries σ.trace q)[cursor]? = some (cursor, body)
  /-- Deliveries are never taken back. -/
  grows : ∀ W' q, Step sha256 W W' →
    deliveries W.state.trace q <+: deliveries W'.state.trace q
  /-- A lane that ends before it is evicted has been delivered whole, and all of it is
  acknowledged. -/
  ended : ∀ q cursor c σ, Answers sha256 W q cursor (.laneClosed c) σ →
    σ.session.Live q → Ledger σ.trace q [] ∧ (σ.session.queue q).unacked = []

theorem Step.deliveries_grow (hr : TproxyServer.Reachable sha256 limits carrier W.state)
    (hs : Step sha256 W W') (q : QueueRef) :
    deliveries W.state.trace q <+: deliveries W'.state.trace q := by
  have hgrow : ∀ {c : Section} {r : Reply} {σ : Traced}, TproxyServer.Step sha256 W.state c r σ →
      deliveries W.state.trace q <+: deliveries σ.trace q := by
    intro c r σ hstep
    refine (hstep.changes hr.sound).invariant (I := fun τ =>
      deliveries W.state.trace q <+: deliveries τ.trace q) (fun hchange hprefix => ?_)
      (List.prefix_refl _)
    obtain ⟨es, he⟩ := hchange.trace_append
    rw [he, deliveries_append]
    exact hprefix.trans (List.prefix_append _ _)
  cases hs with
  | other _ hstep => exact hgrow hstep
  | arrive _ hstep => exact hgrow hstep
  | wake => exact List.prefix_refl _
  | token _ _ _ hstep => exact hgrow hstep
  | resume _ _ hstep => exact hgrow hstep

/-- A body that is replayed is the last that was delivered. -/
theorem Cursors.replayed {q : QueueRef} (hc : W.Cursors) (hcarried : Carried W.state q)
    (hlive : W.session.Live q) (hne : (W.session.queue q).unacked ≠ []) :
    (deliveries W.state.trace q)[(W.session.queue q).unackedBase]? =
        some ((W.session.queue q).unackedBase, (W.session.queue q).unacked) ∧
      (W.session.queue q).downCursor = (W.session.queue q).unackedBase + 1 := by
  have hlast := (hcarried.last hlive).resolve_left hne
  have hcount : (deliveries W.state.trace q).length = (W.session.queue q).downCursor :=
    hcarried.count hlive
  have hget := hlast
  rw [List.getLast?_eq_getElem?] at hget
  have hbase := hc.numbered q _ _ _ hget
  have hbase' : (W.session.queue q).unackedBase = (deliveries W.state.trace q).length - 1 := hbase
  have hlt := (List.getElem?_eq_some_iff.mp hget).1
  rw [← hbase] at hget
  refine ⟨hget, ?_⟩
  omega

/-- A body that is returned is the one that was delivered under the cursor it is asked for. -/
theorem Reachable.batch (h : Reachable sha256 limits carrier W) {q : QueueRef} {cursor next : ℕ}
    {body : Bytes} (hans : Answers sha256 W q cursor (.batch body next) σ) :
    next = cursor + 1 ∧ (deliveries σ.trace q)[cursor]? = some (cursor, body) := by
  have hr := h.state
  obtain ⟨hanswered, hlive⟩ := hans.answered hr h.invariant h.cursors
  have hhere := hlive body next rfl
  rcases hanswered.batch body next rfl with
    ⟨htrace, -, rfl, hne, rfl, rfl⟩ | ⟨htrace, hcursor, rfl, -, -⟩
  · rw [htrace]
    obtain ⟨hget, hnext⟩ := h.cursors.replayed (hr.carried q) hhere hne
    exact ⟨hnext, hget⟩
  · refine ⟨rfl, ?_⟩
    have hcount : (deliveries W.state.trace q).length = (W.session.queue q).downCursor :=
      (hr.carried q).count hhere
    have hone : deliveries [.delivered q cursor body] q = [(cursor, body)] := by
      simp [deliveries]
    rw [htrace, deliveries_append, hone, hcursor, ← hcount, List.getElem?_append_right le_rfl,
      Nat.sub_self]
    rfl

/-- A lane that is reported to have ended, and was neither evicted nor released, has been delivered
whole. -/
theorem Reachable.ended (h : Reachable sha256 limits carrier W) {q : QueueRef} {cursor c : ℕ}
    (hans : Answers sha256 W q cursor (.laneClosed c) σ) (hlive : σ.session.Live q) :
    Ledger σ.trace q [] ∧ (σ.session.queue q).unacked = [] := by
  obtain ⟨hanswered, -⟩ := hans.answered h.state h.invariant h.cursors
  obtain ⟨hframes, hunacked⟩ := hanswered.ended c rfl
  obtain ⟨W', hs, rfl⟩ := hans.step
  obtain ⟨rest, hledger, hrest⟩ := ((h.step hs).state.carried q).ledger
  have hempty : rest = [] := by
    rw [hrest hlive]
    unfold Downlink.frames
    have hnone : (W'.state.session.queue q).pendingFrames = [] := hframes
    rw [hnone]
    rfl
  rw [hempty] at hledger
  exact ⟨hledger, hunacked⟩

/-- **Every frame for the client is delivered once**, in the order in which it was queued, however
often a poll is repeated, superseded, cancelled or left without an answer. -/
theorem delivered_once (h : Reachable sha256 limits carrier W) : W.DeliveredOnce sha256 := by
  have hr := h.state
  refine ⟨hr.carried, h.cursors.numbered, ?_, fun W' q hs => hs.deliveries_grow hr q, ?_⟩
  · exact fun q cursor body next σ hans => h.batch hans
  · exact fun q cursor c σ hans hlive => h.ended hans hlive

/-- A poll that is repeated is given the same body again. -/
theorem delivered_once_replay : ∃ W body σ, Reachable id defaultLimits .https W ∧
    deliveries W.state.trace .session = [(0, body)] ∧
    Answers id W .session 0 (.batch body 1) σ ∧ W.DeliveredOnce id := by
  have hplay : ((TproxyServer.play id ⟨newSession defaultLimits .https, []⟩
      [(.processUpBegin 1 (encode .open 1 []), []),
        (.processUpCommit 1 (encode .open 1 []), [true]),
        (.backendData 1 [7], [true])]).bind fun σ =>
      (attempt id σ (.poll 0) []).bind fun p₁ =>
      (attempt id p₁.2 (.poll 0) []).map fun p₂ =>
        (p₁.1, p₂.1, deliveries p₁.2.trace .session)) =
      some (.poll (.batch (encode .data 1 [7]) 1), .poll (.batch (encode .data 1 [7]) 1),
        [(0, encode .data 1 [7])]) := by
    decide +kernel
  obtain ⟨σ, h₀, hplay⟩ := Option.bind_eq_some_iff.mp hplay
  obtain ⟨⟨r₁, σ₁⟩, h₁, hplay⟩ := Option.bind_eq_some_iff.mp hplay
  obtain ⟨⟨r₂, σ₂⟩, h₂, he⟩ := Option.map_eq_some_iff.mp hplay
  simp only [Prod.mk.injEq] at he
  obtain ⟨rfl, rfl, hdeliveries⟩ := he
  have hW := Reachable.start.play (σ := σ) (by simp [Section.polling]) h₀
  have hW₁ := hW.step (.arrive (c := .poll 0) rfl (.attempt h₁))
  exact ⟨_, _, σ₂, hW₁, hdeliveries, .arrive (c := .poll 0) rfl (.attempt h₂),
    delivered_once hW₁⟩

/-! ### The answers of a run -/

abbrev Steps (sha256 : Bytes → Bytes) : Polls → Polls → Prop := Relation.ReflTransGen (Step sha256)

theorem Reachable.steps (h : Reachable sha256 limits carrier W) (hs : Steps sha256 W W') :
    Reachable sha256 limits carrier W' ∧ ∀ q,
      deliveries W.state.trace q <+: deliveries W'.state.trace q := by
  induction hs with
  | refl => exact ⟨h, fun _ => List.prefix_refl _⟩
  | tail _ hlast ih =>
      exact ⟨ih.1.step hlast, fun q => (ih.2 q).trans (hlast.deliveries_grow ih.1.state q)⟩

/-- What the client of a run is given, from `W` on. -/
structure AnsweredOnce (sha256 : Bytes → Bytes) (W : Polls) : Prop where
  /-- All answers with frames that lead on from one cursor of a queue are the same. -/
  identical : ∀ q cursor body next body' next' σ σ' W₁ W₂,
    Answers sha256 W q cursor (.batch body next) σ → Step sha256 W W₁ → W₁.state = σ →
    Steps sha256 W₁ W₂ → Answers sha256 W₂ q cursor (.batch body' next') σ' →
      body' = body ∧ next = cursor + 1 ∧ next' = cursor + 1
  /-- The bodies of the cursors up to that of the queue, and then the frames that wait, say what
  was queued: the bytes of DATA and the CLOSE frames in their order, and of each stream as much
  WINDOW. -/
  whole : ∀ q, W.session.Live q →
    (deliveries W.state.trace q).map Prod.fst = List.range (W.session.queue q).downCursor ∧
      Ledger W.state.trace q (W.session.queue q).frames
  ended : ∀ q cursor c σ, Answers sha256 W q cursor (.laneClosed c) σ →
    σ.session.Live q → Ledger σ.trace q [] ∧ (σ.session.queue q).unacked = []

end Polls

end TproxyServer
