import TproxyServer.Queues

/-! # The newest poll wins

Any number of `Poll` and `PollLane` calls wait on the queues of one session, each blocked in its
`select` or woken and about to lock again.  All calls that wait on a queue share its `notify`
channel, which holds one token, so a call that was superseded may take the token that was meant
for the one that took over; it hands it on when it has locked. -/

namespace TproxyServer

open Interaction Prog

variable {limits : Limits} {carrier : CarrierMode} {s s' : Session} {sha256 : Bytes → Bytes}

/-! ### Calls that wait -/

/-- A call of `Poll` or `PollLane` that has come to its `select`. -/
structure Waiter where
  q : QueueRef
  cursor : ℕ
  mine : ℕ
  /-- What the `select` has received from, unless it is still blocked. -/
  wake : Option Wake := none

structure Polls where
  state : Traced
  /-- In the order of their arrival. -/
  waiting : List Waiter := []

/-- The queue and the cursor of a poll that arrives. -/
def Section.pollsOn (s : Session) : Section → Option (QueueRef × ℕ)
  | .poll cursor => some (.session, cursor)
  | .pollLane laneID cursor =>
      some (.lane laneID (((s.carrierLanes.get laneID).map CarrierLane.object).getD 0), cursor)
  | _ => none

/-- The cases of the `select` that are ready. -/
def Waiter.Ready (s : Session) (w : Waiter) : Wake → Prop
  | .cancelled => True
  | .superseded => w.mine ∈ s.closedChannels
  | .done => s.closed = true ∧ w.q ≠ .session
  | .deadline => True
  | .notified => (s.queue w.q).notify = true

/-- The call goes on waiting. -/
def PollReply.waiter (q : QueueRef) (cursor : ℕ) : PollReply → List Waiter
  | .parked mine => [{ q, cursor, mine }]
  | _ => []

namespace Polls

def session (W : Polls) : Session := W.state.session

/-- One thing happens. -/
inductive Step (sha256 : Bytes → Bytes) : Polls → Polls → Prop
  /-- A section that is none of a poll's. -/
  | other {W : Polls} {c : Section} {r : Reply} {σ : Traced} (hc : c.polling = false)
      (h : TproxyServer.Step sha256 W.state c r σ) : Step sha256 W { W with state := σ }
  | arrive {W : Polls} {c : Section} {q : QueueRef} {cursor : ℕ} {r : PollReply} {σ : Traced}
      (hc : c.pollsOn W.session = some (q, cursor))
      (h : TproxyServer.Step sha256 W.state c (.poll r) σ) :
      Step sha256 W { state := σ, waiting := W.waiting ++ r.waiter q cursor }
  /-- The `select` of a call receives from another channel than `notify`. -/
  | wake {W : Polls} {l₁ l₂ : List Waiter} {w : Waiter} {wake : Wake}
      (hw : W.waiting = l₁ ++ w :: l₂) (hblocked : w.wake = none)
      (hready : w.Ready W.session wake) (hother : wake ≠ .notified) :
      Step sha256 W { W with waiting := l₁ ++ { w with wake := some wake } :: l₂ }
  /-- The `select` of a call takes the token of its queue. -/
  | token {W : Polls} {l₁ l₂ : List Waiter} {w : Waiter} {σ : Traced} {r : Reply}
      (hw : W.waiting = l₁ ++ w :: l₂) (hblocked : w.wake = none)
      (hready : w.Ready W.session .notified)
      (h : TproxyServer.Step sha256 W.state (.takeToken w.q) r σ) :
      Step sha256 W
        { state := σ, waiting := l₁ ++ { w with wake := some .notified } :: l₂ }
  /-- A call that was woken locks the session again. -/
  | resume {W : Polls} {l₁ l₂ : List Waiter} {w : Waiter} {wake : Wake} {r : PollReply}
      {σ : Traced} (hw : W.waiting = l₁ ++ w :: l₂) (hwake : w.wake = some wake)
      (h : TproxyServer.Step sha256 W.state (.pollResume w.q w.cursor w.mine wake) (.poll r) σ) :
      Step sha256 W { state := σ, waiting := l₁ ++ r.waiter w.q w.cursor ++ l₂ }

/-- The states that a session and its polls can reach. -/
inductive Reachable (sha256 : Bytes → Bytes) (limits : Limits) (carrier : CarrierMode) :
    Polls → Prop
  | start : Reachable sha256 limits carrier { state := ⟨newSession limits carrier, []⟩ }
  | step {W W' : Polls} :
      Reachable sha256 limits carrier W → Step sha256 W W' → Reachable sha256 limits carrier W'

/-- The call is the one that its queue is for. -/
def Current (W : Polls) (w : Waiter) : Prop := (W.session.queue w.q).superseded = some w.mine

/-- Something will wake the call: a token, the closed `done` channel, or a call that was
superseded and has yet to hand on the token that it took. -/
def Wakeable (W : Polls) (w : Waiter) : Prop :=
  (W.session.queue w.q).notify = true ∨ W.session.closed = true ∧ w.q ≠ .session ∨
    ∃ u ∈ W.waiting, u.q.object = w.q.object ∧ ¬ W.Current u ∧ u.wake = some .notified

/-! ### The invariant -/

structure Invariant (W : Polls) : Prop where
  /-- Channels are numbered in the order of arrival. -/
  sorted : W.waiting.Pairwise fun u w => u.mine < w.mine
  here : ∀ w ∈ W.waiting, w.mine < W.session.nextObject ∧ W.session.HasQueue w.q
  channels : ∀ c ∈ W.session.closedChannels, c < W.session.nextObject
  idle : ∀ q, (W.session.queue q).superseded = none → (W.session.queue q).downActive = false
  active : ∀ q, (W.session.queue q).superseded ≠ none → (W.session.queue q).downActive = true
  /-- The poll that a queue is for is the one that arrived last. -/
  newest : ∀ q m, (W.session.queue q).superseded = some m → m ∉ W.session.closedChannels ∧
    ∃ w ∈ W.waiting, w.mine = m ∧ w.q.object = q.object ∧
      ∀ u ∈ W.waiting, u.q.object = q.object → u.mine ≤ m
  superseded : ∀ w ∈ W.waiting, w.wake = some .superseded →
    w.mine ∈ W.session.closedChannels
  wakes : ∀ w ∈ W.waiting, w.wake = none → W.Current w →
    (W.session.queue w.q).pendingFrames ≠ [] ∨ W.session.closed = true → W.Wakeable w

end Polls

/-! ### What the sections of a poll do -/

/-- An environment that answers anything and forgives every panic but a `superseded` channel
that is closed twice. -/
def sentry : World Query Event Panic (List Event) :=
  { observer with tolerates := (· ≠ .closedTwice) }

theorem sentry_open : sentry.Open := fun _ _ _ => rfl

theorem Step.of_sentry {σ σ' : Traced} {c : Section} {r : Reply} (h : Step sha256 σ c r σ')
    {Q : Session × Reply → Prop}
    (hw : wp sentry (c.exec sha256 σ.session) (fun _ a => Q a) σ.trace) :
    Q (σ'.session, r) := by
  cases h with
  | run _ hr => exact wp_sound sentry_open hw hr

theorem Step.of_pollResume_sentry {σ σ' : Traced} {q : QueueRef} {cursor mine : ℕ} {wake : Wake}
    {r : PollReply} (h : Step sha256 σ (.pollResume q cursor mine wake) (.poll r) σ')
    {Q : Session → PollReply → Prop}
    (hw : wp sentry (pollResume σ.session q cursor mine wake) (fun _ a => Q a.1 a.2) σ.trace) :
    Q σ'.session r := by
  refine h.of_sentry (Q := fun a => ∀ r', a.2 = .poll r' → Q a.1 r') ?_ r rfl
  refine wp_seq hw fun _ a ha r' he => ?_
  cases he
  exact ha

/-- The call does not go on waiting. -/
def PollReply.Leaves (r : PollReply) : Prop := ∀ mine, r ≠ .parked mine

theorem PollReply.Leaves.waiter {r : PollReply} (h : r.Leaves) (q : QueueRef) (cursor : ℕ) :
    r.waiter q cursor = [] := by
  cases r with
  | parked mine => exact absurd rfl (h mine)
  | _ => rfl

/-- How the call `mine` that the queue is for leaves its loop. -/
def LoopEnd (s : Session) (mine : ℕ) (d d' : Downlink) (r : PollReply) : Prop :=
  (r = .parked mine ∧ d' = d ∧ d.pendingFrames = [] ∧ s.closed = false) ∨
    (r.Leaves ∧ d'.superseded = none ∧ d'.downActive = false)

section
variable {q : QueueRef} {cursor mine : ℕ} {t : List Event}

theorem Session.setQueue_rest (s : Session) (q : QueueRef) (d : Downlink) :
    (s.setQueue q d).nextObject = s.nextObject ∧
      (s.setQueue q d).closedChannels = s.closedChannels := by
  obtain ⟨down, lanes, released, he⟩ := s.setQueue_eq q d
  rw [he]
  exact ⟨rfl, rfl⟩

theorem pollLoop_writes (ho : s.Objects) (hq : s.HasQueue q)
    (hmine : (s.queue q).superseded = some mine) :
    wp sentry (pollLoop s q cursor mine) (fun _ r => ∃ d, Writes s q d r.1 ∧
      r.1.nextObject = s.nextObject ∧ r.1.closedChannels = s.closedChannels ∧
      LoopEnd s mine (s.queue q) d r.2) t := by
  have hset : ∀ d (r : PollReply), r.Leaves → d.superseded = none → d.downActive = false →
      ∃ d', Writes s q d' (s.setQueue q d) ∧ (s.setQueue q d).nextObject = s.nextObject ∧
        (s.setQueue q d).closedChannels = s.closedChannels ∧
        LoopEnd s mine (s.queue q) d' r := by
    intro d r hr hs ha
    obtain ⟨hnext, hchannels⟩ := s.setQueue_rest q d
    exact ⟨d, .setQueue ho hq d, hnext, hchannels, .inr ⟨hr, hs, ha⟩⟩
  unfold pollLoop
  dsimp only
  rw [if_neg (by simp [hmine])]
  split_ifs with hframes hclosed hended
  · exact hset _ _ (fun m h => by cases h) rfl rfl
  · exact hset _ _ (fun m h => by cases h) rfl rfl
  · exact hset _ _ (fun m h => by cases h) rfl rfl
  · refine ⟨_, .refl ho hq, rfl, rfl, .inl ⟨rfl, rfl, ?_, ?_⟩⟩
    · simpa using hframes
    · simpa using hclosed

/-- A poll has taken over the queue `q`, and left its loop with the downlink `d`. -/
structure TakesOver (s : Session) (q : QueueRef) (s' : Session) (r : PollReply) (d : Downlink) :
    Prop where
  writes : Writes s q d s'
  next : s'.nextObject = s.nextObject + 1
  channels : ∀ c, c ∈ s'.closedChannels ↔
    c ∈ s.closedChannels ∨ (s.queue q).superseded = some c
  ends : (r = .parked s.nextObject ∧ d.superseded = some s.nextObject ∧ d.downActive = true ∧
      d.pendingFrames = [] ∧ s.closed = false) ∨
    (r.Leaves ∧ d.superseded = none ∧ d.downActive = false)

/-- A poll takes over, and closes the channel of the one before. -/
theorem takeOver_arrives (ho : s.Objects) (hq : s.HasQueue q)
    (hactive : (s.queue q).superseded ≠ none → (s.queue q).downActive = true)
    (hopen : ∀ c, (s.queue q).superseded = some c → c ∉ s.closedChannels) :
    wp sentry (takeOver s q >>= fun p => pollLoop p.1 q cursor p.2)
      (fun _ r => ∃ d, TakesOver s q r.1 r.2 d) t := by
  have hgo : ∀ s₁ : Session, s₁.down = s.down → s₁.carrierLanes = s.carrierLanes →
      s₁.releasedLanes = s.releasedLanes → s₁.closed = s.closed → s₁.limits = s.limits →
      s₁.nextObject = s.nextObject →
      (∀ c, c ∈ s₁.closedChannels ↔ c ∈ s.closedChannels ∨ (s.queue q).superseded = some c) →
      wp sentry (pollLoop ({ s₁ with nextObject := s₁.nextObject + 1 }.setQueue q
        { s.queue q with superseded := some s₁.nextObject, downActive := true }) q cursor
          s₁.nextObject) (fun _ r => ∃ d, TakesOver s q r.1 r.2 d) t := by
    intro s₁ hdown hlanes hreleased hclosed hlimits hnext hchannels
    set s₂ : Session := { s₁ with nextObject := s₁.nextObject + 1 } with hs₂
    have hw₂ : Writes s q (s.queue q) s₂ :=
      (Writes.refl ho hq).congr hdown hlanes hreleased hclosed hlimits
    have ho₂ : s₂.Objects := ho.of_eq hlanes hreleased (by
      show s.nextObject ≤ s₁.nextObject + 1
      omega)
    set d : Downlink := { s.queue q with superseded := some s₁.nextObject, downActive := true }
      with hd
    have hq₂ := (hw₂.has q).mpr hq
    have hw₃ : Writes s q d (s₂.setQueue q d) := hw₂.trans (.setQueue ho₂ hq₂ d)
    obtain ⟨hnext₃, hchannels₃⟩ := s₂.setQueue_rest q d
    have hhere : (s₂.setQueue q d).queue q = d := hw₃.here hq
    refine wp_mono (pollLoop_writes (ho₂.setQueue q d) ((hw₃.has q).mpr hq) (by rw [hhere])) ?_
    rintro t' r ⟨d', hw, hnext', hchannels', hend⟩
    rw [hhere] at hend
    refine ⟨d', hw₃.trans hw, ?_, ?_, ?_⟩
    · rw [hnext', hnext₃, hs₂, hnext]
    · intro c
      rw [hchannels', hchannels₃]
      exact hchannels c
    · rcases hend with ⟨hr, rfl, hframes, hopen⟩ | hleaves
      · rw [hnext] at hr
        rw [hw₃.closed] at hopen
        exact .inl ⟨hr, by rw [hd, hnext], rfl, hframes, hopen⟩
      · exact .inr hleaves
  unfold takeOver
  dsimp only
  cases hsup : (s.queue q).superseded with
  | none => exact hgo s rfl rfl rfl rfl rfl rfl (by simp [hsup])
  | some channel =>
      dsimp only
      rw [if_neg (by simp [hactive (by simp [hsup])]), if_neg (hopen channel hsup)]
      apply hgo { s with closedChannels := insert channel s.closedChannels } rfl rfl rfl rfl rfl rfl
      intro c
      rw [hsup, Finset.mem_insert, Option.some.injEq, or_comm, eq_comm (a := c)]

theorem pollOn_arrives (ho : s.Objects) (hq : s.HasQueue q)
    (hactive : (s.queue q).superseded ≠ none → (s.queue q).downActive = true)
    (hopen : ∀ c, (s.queue q).superseded = some c → c ∉ s.closedChannels) :
    wp sentry (pollOn s q cursor)
      (fun _ r => r.1 = s ∧ r.2.Leaves ∨ ∃ d, TakesOver s q r.1 r.2 d) t := by
  unfold pollOn
  dsimp only
  cases (s.queue q).checkCursor cursor with
  | replay => exact .inl ⟨rfl, fun m h => by cases h⟩
  | mismatch => exact .inl ⟨rfl, fun m h => by cases h⟩
  | current => exact wp_mono (takeOver_arrives ho hq hactive hopen) fun _ _ => .inr
  | acknowledge =>
      have hgo : ∀ (t : List Event) (s₁ : Session), s.UpToPending s₁ →
          wp sentry (takeOver (s₁.setQueue q (s.queue q).acknowledge) q >>= fun p =>
            pollLoop p.1 q cursor p.2)
            (fun _ r => r.1 = s ∧ r.2.Leaves ∨ ∃ d, TakesOver s q r.1 r.2 d) t := by
        rintro t s₁ ⟨cost, items, notify, rfl⟩
        set s₁ := s.setPending cost items notify
        have hw₁ : Writes s q (s.queue q) s₁ := (Writes.refl ho hq).congr rfl rfl rfl rfl rfl
        have ho₁ : s₁.Objects := ho.of_eq rfl rfl le_rfl
        have hw₂ : Writes s q (s.queue q).acknowledge (s₁.setQueue q (s.queue q).acknowledge) :=
          hw₁.trans (.setQueue ho₁ ((hw₁.has q).mpr hq) _)
        obtain ⟨hnext, hchannels⟩ := s₁.setQueue_rest q (s.queue q).acknowledge
        have hhere := hw₂.here hq
        refine wp_mono (takeOver_arrives (ho₁.setQueue q _) ((hw₂.has q).mpr hq) ?_ ?_) ?_
        · rw [hhere]
          exact hactive
        · rw [hhere, hchannels]
          exact hopen
        · rintro t' r ⟨d, h⟩
          refine .inr ⟨d, hw₂.trans h.writes, h.next.trans (by rw [hnext]; rfl), ?_, ?_⟩
          · intro c
            rw [h.channels, hchannels, hhere]
            rfl
          · have hends := h.ends
            rw [hnext, hw₂.closed] at hends
            exact hends
      unfold releasePendingLocked
      split_ifs with hzero hinvalid
      · exact hgo t s (.refl s)
      · exact fun h => by cases h
      · refine ⟨trivial, fun b l' hl' => ?_⟩
        exact hgo l' _ ⟨_, _, _, rfl⟩

/-- The answer of a call that was superseded: no frames and its own cursor, with an error where its
context or the session has ended. -/
def PollReply.Empty (cursor : ℕ) (wake : Wake) (r : PollReply) : Prop :=
  r = .empty cursor ∨ r = .cancelled ∧ wake = .cancelled ∨ r = .closed ∧ wake = .done

theorem PollReply.Empty.leaves {wake : Wake} {r : PollReply} (h : r.Empty cursor wake) :
    r.Leaves := by
  rintro m rfl
  rcases h with h | ⟨h, -⟩ | ⟨h, -⟩ <;> cases h

/-- What a call leaves that was superseded: the token that it may have taken is back. -/
structure StepsAside (s : Session) (q : QueueRef) (cursor : ℕ) (wake : Wake) (s' : Session)
    (r : PollReply) : Prop where
  writes : Writes s q { s.queue q with notify := (s'.queue q).notify } s'
  token : (s.queue q).notify = true ∨ wake = .notified → (s'.queue q).notify = true
  next : s'.nextObject = s.nextObject
  channels : s'.closedChannels = s.closedChannels
  reply : r.Empty cursor wake

theorem pollResume_superseded (cursor : ℕ) (wake : Wake) (ho : s.Objects) (hq : s.HasQueue q)
    (hmine : (s.queue q).superseded ≠ some mine) :
    wp sentry (pollResume s q cursor mine wake)
      (fun _ r => StepsAside s q cursor wake r.1 r.2) t := by
  have hkeep : ∀ r : PollReply, r.Empty cursor wake → wake ≠ .notified →
      StepsAside s q cursor wake s r := by
    intro r hr hwake
    refine ⟨.refl ho hq, ?_, rfl, rfl, hr⟩
    rintro (h | h)
    · exact h
    · exact absurd h hwake
  have hsignal : ∀ r : PollReply, r.Empty cursor wake →
      StepsAside s q cursor wake (s.setQueue q (s.queue q).signal) r := by
    intro r hr
    have hw := Writes.setQueue ho hq (s.queue q).signal
    obtain ⟨hnext, hchannels⟩ := s.setQueue_rest q (s.queue q).signal
    have hhere := hw.here hq
    refine ⟨?_, fun _ => by rw [hhere]; rfl, hnext, hchannels, hr⟩
    rw [hhere]
    exact hw
  cases wake with
  | cancelled =>
      unfold pollResume
      dsimp only
      rw [if_neg hmine]
      exact hkeep _ (.inr (.inl ⟨rfl, rfl⟩)) (by decide)
  | superseded => exact hsignal _ (.inl rfl)
  | done =>
      unfold pollResume
      dsimp only
      rw [if_neg hmine]
      exact hkeep _ (.inr (.inr ⟨rfl, rfl⟩)) (by decide)
  | deadline =>
      unfold pollResume
      dsimp only
      rw [if_pos hmine]
      exact hsignal _ (.inl rfl)
  | notified =>
      unfold pollResume
      dsimp only
      rw [if_pos hmine]
      have hhere := (Writes.setQueue ho hq (s.queue q).signal).here hq
      unfold pollLoop
      dsimp only
      rw [hhere, if_pos (show (s.queue q).signal.superseded ≠ some mine from hmine)]
      exact hsignal _ (.inl rfl)

/-- What the call leaves that its queue is for. -/
structure GoesOnOrLeaves (s : Session) (q : QueueRef) (mine : ℕ) (s' : Session) (r : PollReply)
    (d : Downlink) : Prop where
  writes : Writes s q d s'
  next : s'.nextObject = s.nextObject
  channels : s'.closedChannels = s.closedChannels
  ends : LoopEnd s mine (s.queue q) d r

theorem pollResume_current {wake : Wake} (ho : s.Objects) (hq : s.HasQueue q)
    (hmine : (s.queue q).superseded = some mine) (hwake : wake ≠ .superseded) :
    wp sentry (pollResume s q cursor mine wake)
      (fun _ r => ∃ d, GoesOnOrLeaves s q mine r.1 r.2 d) t := by
  have hleave : ∀ r : PollReply, r.Leaves →
      ∃ d, GoesOnOrLeaves s q mine (s.setQueue q (s.queue q).leave) r d := by
    intro r hr
    obtain ⟨hnext, hchannels⟩ := s.setQueue_rest q (s.queue q).leave
    exact ⟨_, .setQueue ho hq _, hnext, hchannels, .inr ⟨hr, rfl, rfl⟩⟩
  have hloop : wp sentry (pollLoop s q cursor mine)
      (fun _ r => ∃ d, GoesOnOrLeaves s q mine r.1 r.2 d) t := by
    refine wp_mono (pollLoop_writes ho hq hmine) ?_
    rintro t' r ⟨d, hw, hnext, hchannels, hend⟩
    exact ⟨d, hw, hnext, hchannels, hend⟩
  cases wake with
  | cancelled =>
      unfold pollResume
      dsimp only
      rw [if_pos hmine]
      exact hleave _ fun m h => by cases h
  | superseded => exact absurd rfl hwake
  | done =>
      unfold pollResume
      dsimp only
      rw [if_pos hmine]
      exact hleave _ fun m h => by cases h
  | deadline =>
      unfold pollResume
      dsimp only
      rw [if_neg (by simp [hmine])]
      split_ifs
      · exact hloop
      · exact hleave _ fun m h => by cases h
  | notified =>
      unfold pollResume
      dsimp only
      rw [if_neg (by simp [hmine])]
      exact hloop

end

/-! ### The invariant holds -/

namespace Polls

variable {W W' : Polls} {σ : Traced}

theorem hasQueue_of_superseded {q : QueueRef} {m : ℕ}
    (h : (s.queue q).superseded = some m) : s.HasQueue q := by
  by_contra hq
  rw [Session.queue_of_not_hasQueue hq] at h
  cases h

theorem Invariant.start (limits : Limits) (carrier : CarrierMode) :
    Invariant { state := ⟨newSession limits carrier, []⟩ } := by
  have hnone : ∀ q, ((newSession limits carrier).queue q) = {} := by
    intro q
    unfold newSession
    split_ifs
    · cases q with
      | session => rfl
      | lane id object =>
          unfold Session.queue Session.attached
          dsimp only
          rw [Table.get_put]
          split_ifs with hid
          · by_cases ho : 0 = object <;> simp [Option.filter, ho]
          · rfl
    · cases q <;> rfl
  have hchannels : (newSession limits carrier).closedChannels = ∅ := by
    unfold newSession
    split_ifs <;> rfl
  constructor
  · exact .nil
  · exact fun w hw => by cases hw
  · intro c hc
    rw [show Polls.session { state := ⟨newSession limits carrier, []⟩ } =
      newSession limits carrier from rfl, hchannels] at hc
    cases hc
  · intro q _
    exact congrArg Downlink.downActive (hnone q)
  · intro q hn
    exact absurd (congrArg Downlink.superseded (hnone q)) hn
  · intro q m hm
    cases (congrArg Downlink.superseded (hnone q)).symm.trans hm
  · exact fun w hw => by cases hw
  · exact fun w hw => by cases hw

/-- What is no poll keeps the invariant. -/
theorem Invariant.other (h : W.Invariant) (hr : Rouses W.session σ.session) :
    Invariant { W with state := σ } := by
  have hold : ∀ q, σ.session.HasQueue q → (σ.session.queue q).superseded ≠ none ∨
      (σ.session.queue q).downActive = true → ∃ q₀, q₀.object = q.object ∧
        W.session.HasQueue q₀ ∧ (W.session.queue q₀).Roused (σ.session.queue q) := by
    intro q hq hn
    by_cases hq₀ : W.session.HasQueue q
    · exact ⟨q, rfl, hq₀, (hr.kept q hq₀).2⟩
    · rcases hr.moved q hq₀ hq with hmoved | ⟨hsuperseded, hactive⟩
      · exact hmoved
      · rcases hn with hn | hn
        · exact absurd hsuperseded hn
        · rw [hactive] at hn
          cases hn
  have hcurrent : ∀ w ∈ W.waiting, (Current { W with state := σ } w ↔ W.Current w) := by
    intro w hw
    have hsame := (hr.kept w.q (h.here w hw).2).2.superseded
    exact ⟨fun hc => hsame.symm.trans hc, fun hc => hsame.trans hc⟩
  constructor
  · exact h.sorted
  · intro w hw
    obtain ⟨hlt, hq⟩ := h.here w hw
    have hnext := hr.next
    exact ⟨by
      show w.mine < σ.session.nextObject
      omega, (hr.kept w.q hq).1⟩
  · intro c hc
    rw [show Polls.session { W with state := σ } = σ.session from rfl, hr.channels] at hc
    have hlt := h.channels c hc
    have hnext := hr.next
    show c < σ.session.nextObject
    omega
  · intro q hnone
    by_contra hactive
    rw [Bool.not_eq_false] at hactive
    have hq : σ.session.HasQueue q := by
      by_contra hq
      rw [show Polls.session { W with state := σ } = σ.session from rfl,
        Session.queue_of_not_hasQueue hq] at hactive
      cases hactive
    obtain ⟨q₀, -, -, hroused⟩ := hold q hq (.inr hactive)
    have hidle := h.idle q₀ (hroused.superseded.symm.trans hnone)
    rw [← hroused.active, show σ.session.queue q = Session.queue (Polls.session { W with state := σ }) q
      from rfl, hactive] at hidle
    cases hidle
  · intro q hn
    obtain ⟨m, hm⟩ := Option.ne_none_iff_exists'.mp hn
    obtain ⟨q₀, -, -, hroused⟩ := hold q (hasQueue_of_superseded hm) (.inl hn)
    exact hroused.active.trans (h.active q₀ fun hnone => hn (hroused.superseded.trans hnone))
  · intro q m hm
    obtain ⟨q₀, ho, -, hroused⟩ := hold q (hasQueue_of_superseded hm) (.inl (by
      rw [show σ.session.queue q = Session.queue (Polls.session { W with state := σ }) q from rfl, hm]
      simp))
    obtain ⟨hopen, w, hw, hmine, hobject, hlast⟩ := h.newest q₀ m (hroused.superseded.symm.trans hm)
    refine ⟨?_, w, hw, hmine, hobject.trans ho, fun u hu huo => hlast u hu (huo.trans ho.symm)⟩
    show m ∉ σ.session.closedChannels
    rw [hr.channels]
    exact hopen
  · intro w hw hwake
    show w.mine ∈ σ.session.closedChannels
    rw [hr.channels]
    exact h.superseded w hw hwake
  · intro w hw hblocked hc hready
    have hroused := (hr.kept w.q (h.here w hw).2).2
    have hwakes := h.wakes w hw hblocked ((hcurrent w hw).mp hc)
    have hkeep : W.Wakeable w → Wakeable { W with state := σ } w := by
      rintro (htoken | ⟨hclosed, hlane⟩ | ⟨u, hu, huo, hnot, huw⟩)
      · exact .inl (hroused.token htoken)
      · exact .inr (.inl ⟨hr.closed hclosed, hlane⟩)
      · exact .inr (.inr ⟨u, hu, huo, fun hcu => hnot ((hcurrent u hu).mp hcu), huw⟩)
    rcases hready with hframes | hclosed
    · rcases hroused.frames hframes with hframes | htoken
      · exact hkeep (hwakes (.inl hframes))
      · exact .inl htoken
    · rcases hr.closes hclosed with hclosed | htoken
      · exact hkeep (hwakes (.inr hclosed))
      · by_cases hq : w.q = .session
        · left
          rw [hq]
          exact htoken
        · exact .inr (.inl ⟨hclosed, hq⟩)

variable {l₁ l₂ : List Waiter} {w : Waiter}

theorem mem_split {u : Waiter} : u ∈ l₁ ++ w :: l₂ ↔ u = w ∨ u ∈ l₁ ++ l₂ := by
  simp only [List.mem_append, List.mem_cons]
  tauto

/-- The channels of two calls that wait are different. -/
theorem Invariant.mine_ne (h : W.Invariant) (hw : W.waiting = l₁ ++ w :: l₂) :
    ∀ u ∈ l₁ ++ l₂, u.mine ≠ w.mine := by
  have hsorted := h.sorted
  rw [hw, List.pairwise_append, List.pairwise_cons] at hsorted
  obtain ⟨-, ⟨hright, -⟩, hleft⟩ := hsorted
  intro u hu
  rcases List.mem_append.mp hu with hu | hu
  · have hlt := hleft u hu w List.mem_cons_self
    omega
  · have hlt := hright u hu
    omega

theorem Invariant.mine_inj (h : W.Invariant) {u v : Waiter} (hu : u ∈ W.waiting)
    (hv : v ∈ W.waiting) (he : u.mine = v.mine) : u = v := by
  obtain ⟨l₁, l₂, hw⟩ := List.append_of_mem hv
  rw [hw] at hu
  rcases mem_split.mp hu with hu | hu
  · exact hu
  · exact absurd he (h.mine_ne hw u hu)

/-- A call is woken, or goes on waiting. -/
theorem Invariant.rewake (h : W.Invariant) (ho : W.session.Objects)
    (hw : W.waiting = l₁ ++ w :: l₂) (w' : Waiter) (hmine' : w'.mine = w.mine) (hq' : w'.q = w.q)
    {d : Downlink} (hwrites : Writes W.session w.q d σ.session)
    (hd : d = { W.session.queue w.q with notify := d.notify })
    (hnotify : (W.session.queue w.q).notify = true → d.notify = true ∨ w'.wake = some .notified)
    (hnext : σ.session.nextObject = W.session.nextObject)
    (hchannels : σ.session.closedChannels = W.session.closedChannels)
    (hsuperseded : w'.wake = some .superseded → w.mine ∈ W.session.closedChannels)
    (hdebt : w.wake = some .notified → W.Current w)
    (hidle : w'.wake = none →
      (W.session.queue w.q).pendingFrames = [] ∧ W.session.closed = false) :
    Invariant { state := σ, waiting := l₁ ++ w' :: l₂ } := by
  have hmem : w ∈ W.waiting := by
    rw [hw]
    simp
  have hq := (h.here w hmem).2
  have hsup : ∀ q, (σ.session.queue q).superseded = (W.session.queue q).superseded :=
    hwrites.field Downlink.superseded ho hq (by rw [hd])
  have hact : ∀ q, (σ.session.queue q).downActive = (W.session.queue q).downActive :=
    hwrites.field Downlink.downActive ho hq (by rw [hd])
  have hpend : ∀ q, (σ.session.queue q).pendingFrames = (W.session.queue q).pendingFrames :=
    hwrites.field Downlink.pendingFrames ho hq (by rw [hd])
  -- the calls are the same, but for what one of them has received
  have hold : ∀ u ∈ l₁ ++ w' :: l₂, ∃ u₀ ∈ W.waiting,
      u₀.mine = u.mine ∧ u₀.q = u.q ∧ (u₀ = u ∧ u ∈ l₁ ++ l₂ ∨ u = w') := by
    intro u hu
    rcases mem_split.mp hu with rfl | hu
    · exact ⟨w, hmem, hmine'.symm, hq'.symm, .inr rfl⟩
    · refine ⟨u, ?_, rfl, rfl, .inl ⟨rfl, hu⟩⟩
      rw [hw]
      exact mem_split.mpr (.inr hu)
  have hnew : ∀ u ∈ W.waiting, ∃ u' ∈ l₁ ++ w' :: l₂,
      u'.mine = u.mine ∧ u'.q = u.q ∧ (u = w ∨ u' = u) := by
    intro u hu
    rw [hw] at hu
    rcases mem_split.mp hu with rfl | hu
    · exact ⟨w', mem_split.mpr (.inl rfl), hmine', hq', .inl rfl⟩
    · exact ⟨u, mem_split.mpr (.inr hu), rfl, rfl, .inr rfl⟩
  constructor
  · have hsorted := h.sorted
    rw [hw] at hsorted
    show (l₁ ++ w' :: l₂).Pairwise _
    rw [List.pairwise_append, List.pairwise_cons] at hsorted ⊢
    obtain ⟨hleft, hright, hcross⟩ := hsorted
    rw [← hmine'] at hright
    refine ⟨hleft, hright, fun u hu v hv => ?_⟩
    rcases List.mem_cons.mp hv with rfl | hv
    · rw [hmine']
      exact hcross u hu w List.mem_cons_self
    · exact hcross u hu v (List.mem_cons_of_mem _ hv)
  · intro u hu
    obtain ⟨u₀, hu₀, hmine, hqu, -⟩ := hold u hu
    obtain ⟨hlt, hhas⟩ := h.here u₀ hu₀
    rw [hmine] at hlt
    rw [hqu] at hhas
    exact ⟨hlt.trans_eq hnext.symm, (hwrites.has u.q).mpr hhas⟩
  · intro c hc
    exact (h.channels c (hchannels ▸ hc)).trans_eq hnext.symm
  · intro q hn
    exact (hact q).trans (h.idle q ((hsup q).symm.trans hn))
  · intro q hn
    exact (hact q).trans (h.active q fun hnone => hn ((hsup q).trans hnone))
  · intro q m hm
    obtain ⟨hopen, u, hu, hmine, hobject, hlast⟩ := h.newest q m ((hsup q).symm.trans hm)
    obtain ⟨u', hu', hmineu, hqu, -⟩ := hnew u hu
    refine ⟨fun hc => hopen (hchannels ▸ hc), u', hu', hmineu.trans hmine,
      (congrArg QueueRef.object hqu).trans hobject, ?_⟩
    intro v hv hvo
    obtain ⟨v₀, hv₀, hvm, hvq, -⟩ := hold v hv
    rw [← hvm]
    exact hlast v₀ hv₀ ((congrArg QueueRef.object hvq).trans hvo)
  · intro u hu huw
    show u.mine ∈ σ.session.closedChannels
    rw [hchannels]
    obtain ⟨u₀, hu₀, -, -, ⟨rfl, -⟩ | rfl⟩ := hold u hu
    · exact h.superseded u₀ hu₀ huw
    · rw [hmine']
      exact hsuperseded huw
  · intro u hu hub hc hready
    rcases mem_split.mp hu with rfl | hu
    · -- the call found nothing to read
      obtain ⟨hframes, hopen⟩ := hidle hub
      rcases hready with hready | hready
      · refine absurd ?_ hready
        exact (hpend u.q).trans (by rw [hq']; exact hframes)
      · have hclosed := hwrites.closed.symm.trans hready
        rw [hopen] at hclosed
        cases hclosed
    have hu₀ : u ∈ W.waiting := by
      rw [hw]
      exact mem_split.mpr (.inr hu)
    have hcu : W.Current u := (hsup u.q).symm.trans hc
    have hne := h.mine_ne hw u hu
    have hwakes := h.wakes u hu₀ hub hcu (hready.imp
      (fun hf => by rwa [← hpend u.q]) fun hclosed => by rwa [← hwrites.closed])
    rcases hwakes with htoken | ⟨hclosed, hlane⟩ | ⟨v, hv, hvo, hnot, hvw⟩
    · by_cases hobject : w.q.object = u.q.object
      · have hsame := ho.queue_eq hq (h.here u hu₀).2 hobject
        rcases hnotify (by rw [hsame]; exact htoken) with hd' | hwake
        · left
          show (σ.session.queue u.q).notify = true
          rw [hwrites.queue u.q (h.here u hu₀).2, if_pos hobject]
          exact hd'
        · -- the call that took the token was superseded
          refine .inr (.inr ⟨w', mem_split.mpr (.inl rfl), by rw [hq', hobject], ?_, hwake⟩)
          intro hcw
          have hcw' : (W.session.queue w'.q).superseded = some w'.mine :=
            (hsup w'.q).symm.trans hcw
          rw [hq', hmine', hsame, hcu] at hcw'
          exact hne (Option.some.inj hcw')
      · left
        show (σ.session.queue u.q).notify = true
        rw [hwrites.queue u.q (h.here u hu₀).2, if_neg hobject]
        exact htoken
    · exact .inr (.inl ⟨hwrites.closed.trans hclosed, hlane⟩)
    · obtain ⟨v', hv', hvm, hvq, rfl | rfl⟩ := hnew v hv
      · exact absurd (hdebt hvw) hnot
      · exact .inr (.inr ⟨v', hv', hvo, fun hcv => hnot ((hsup v'.q).symm.trans hcv), hvw⟩)

/-- A call returns. -/
theorem Invariant.returns (h : W.Invariant) (ho : W.session.Objects)
    (hw : W.waiting = l₁ ++ w :: l₂) {d : Downlink} (hwrites : Writes W.session w.q d σ.session)
    (hnext : σ.session.nextObject = W.session.nextObject)
    (hchannels : σ.session.closedChannels = W.session.closedChannels)
    (hd : W.Current w ∧ d.superseded = none ∧ d.downActive = false ∨
      ¬ W.Current w ∧ d = { W.session.queue w.q with notify := d.notify } ∧
        ((W.session.queue w.q).notify = true ∨ w.wake = some .notified → d.notify = true)) :
    Invariant { state := σ, waiting := l₁ ++ l₂ } := by
  have hmem : w ∈ W.waiting := by
    rw [hw]
    simp
  have hq := (h.here w hmem).2
  have hsub : ∀ u ∈ l₁ ++ l₂, u ∈ W.waiting := by
    intro u hu
    rw [hw]
    exact mem_split.mpr (.inr hu)
  -- the queues that are for a call are the old ones
  have hsup : ∀ q m, (σ.session.queue q).superseded = some m →
      (W.session.queue q).superseded = some m ∧ (¬ W.Current w ∨ q.object ≠ w.q.object) := by
    intro q m hm
    have hqs := (hwrites.has q).mp (hasQueue_of_superseded hm)
    rw [hwrites.queue q hqs] at hm
    split_ifs at hm with hobject
    · rcases hd with ⟨-, hnone, -⟩ | ⟨hnot, hd, -⟩
      · rw [hnone] at hm
        cases hm
      · rw [hd] at hm
        rw [← ho.queue_eq hq hqs hobject]
        exact ⟨hm, .inl hnot⟩
    · exact ⟨hm, .inr fun he => hobject he.symm⟩
  constructor
  · have hsorted := h.sorted
    rw [hw] at hsorted
    exact hsorted.sublist ((List.Sublist.refl l₁).append (List.sublist_cons_self w l₂))
  · intro u hu
    obtain ⟨hlt, hhas⟩ := h.here u (hsub u hu)
    exact ⟨hlt.trans_eq hnext.symm, (hwrites.has u.q).mpr hhas⟩
  · intro c hc
    exact (h.channels c (hchannels ▸ hc)).trans_eq hnext.symm
  · intro q hn
    show (σ.session.queue q).downActive = false
    have hn' : (σ.session.queue q).superseded = none := hn
    by_cases hqs : W.session.HasQueue q
    · rw [hwrites.queue q hqs] at hn' ⊢
      split_ifs at hn' ⊢ with hobject
      · rcases hd with ⟨-, -, hactive⟩ | ⟨-, hd, -⟩
        · exact hactive
        · rw [hd] at hn' ⊢
          exact h.idle w.q hn'
      · exact h.idle q hn'
    · rw [Session.queue_of_not_hasQueue fun hq' => hqs ((hwrites.has q).mp hq')]
  · intro q hn
    obtain ⟨m, hm⟩ := Option.ne_none_iff_exists'.mp hn
    obtain ⟨hold, hother⟩ := hsup q m hm
    show (σ.session.queue q).downActive = true
    have hqs := hasQueue_of_superseded hold
    rw [hwrites.queue q hqs]
    split_ifs with hobject
    · rcases hd with ⟨hc, -⟩ | ⟨-, hd, -⟩
      · exact absurd hobject.symm (hother.resolve_left (not_not.mpr hc))
      · rw [hd, ho.queue_eq hq hqs hobject]
        exact h.active q (by simp [hold])
    · exact h.active q (by simp [hold])
  · intro q m hm
    obtain ⟨hold, hother⟩ := hsup q m hm
    obtain ⟨hopen, u, hu, hmine, hobject, hlast⟩ := h.newest q m hold
    refine ⟨fun hc => hopen (hchannels ▸ hc), u, ?_, hmine, hobject,
      fun v hv hvo => hlast v (hsub v hv) hvo⟩
    rw [hw] at hu
    rcases mem_split.mp hu with rfl | hu
    · exfalso
      rcases hother with hnot | hother
      · apply hnot
        have hqs := hasQueue_of_superseded hold
        show (W.session.queue u.q).superseded = some u.mine
        rw [ho.queue_eq hq hqs hobject, hmine]
        exact hold
      · exact hother hobject.symm
    · exact hu
  · intro u hu huw
    show u.mine ∈ σ.session.closedChannels
    rw [hchannels]
    exact h.superseded u (hsub u hu) huw
  · intro u hu hub hc hready
    have hu₀ := hsub u hu
    have hhas := (h.here u hu₀).2
    obtain ⟨hcu, hother⟩ := hsup u.q u.mine hc
    have hframes : (σ.session.queue u.q).pendingFrames = (W.session.queue u.q).pendingFrames ∧
        ((W.session.queue u.q).notify = true → (σ.session.queue u.q).notify = true) := by
      rw [hwrites.queue u.q hhas]
      split_ifs with hobject
      · rcases hd with ⟨hcw, -⟩ | ⟨-, hd, htoken⟩
        · exact absurd hobject.symm (hother.resolve_left (not_not.mpr hcw))
        · rw [hd, ← ho.queue_eq hq hhas hobject]
          exact ⟨rfl, fun hn => htoken (.inl hn)⟩
      · exact ⟨rfl, fun hn => hn⟩
    have hwakes := h.wakes u hu₀ hub hcu (hready.imp
      (fun hf => by rwa [← hframes.1]) fun hclosed => by rwa [← hwrites.closed])
    rcases hwakes with htoken | ⟨hclosed, hlane⟩ | ⟨v, hv, hvo, hnot, hvw⟩
    · exact .inl (hframes.2 htoken)
    · exact .inr (.inl ⟨hwrites.closed.trans hclosed, hlane⟩)
    · rw [hw] at hv
      rcases mem_split.mp hv with rfl | hv
      · -- the call hands on the token that it took
        rcases hd with ⟨hcw, -⟩ | ⟨-, hd, htoken⟩
        · exact absurd hcw hnot
        · left
          show (σ.session.queue u.q).notify = true
          rw [hwrites.queue u.q hhas, if_pos hvo]
          exact htoken (.inr hvw)
      · refine .inr (.inr ⟨v, hv, hvo, fun hcv => hnot ?_, hvw⟩)
        exact (hsup v.q v.mine hcv).1

/-- The section in which a poll arrives: it closes no channel twice. -/
theorem Invariant.arrival (h : W.Invariant) (ho : W.session.Objects) {c : Section} {q : QueueRef}
    {cursor : ℕ} (hc : c.pollsOn W.session = some (q, cursor)) (t : List Event) :
    wp sentry (c.exec sha256 W.session) (fun _ a => ∀ r, a.2 = .poll r →
      a.1 = W.session ∧ r.Leaves ∨
        W.session.HasQueue q ∧ ∃ d, TakesOver W.session q a.1 r d) t := by
  have hon : ∀ q : QueueRef, W.session.HasQueue q → wp sentry (pollOn W.session q cursor)
      (fun _ a => a.1 = W.session ∧ a.2.Leaves ∨
        W.session.HasQueue q ∧ ∃ d, TakesOver W.session q a.1 a.2 d) t := by
    intro q hq
    refine wp_mono (pollOn_arrives ho hq (h.active q) fun m hm => (h.newest q m hm).1) ?_
    exact fun _ a ha => ha.imp_right fun ha => ⟨hq, ha⟩
  have hreply : ∀ {p : Act (Session × PollReply)}, wp sentry p
      (fun _ a => a.1 = W.session ∧ a.2.Leaves ∨
        W.session.HasQueue q ∧ ∃ d, TakesOver W.session q a.1 a.2 d) t →
      wp sentry (p >>= fun a => pure (a.1, Reply.poll a.2)) (fun _ a => ∀ r, a.2 = .poll r →
        a.1 = W.session ∧ r.Leaves ∨
          W.session.HasQueue q ∧ ∃ d, TakesOver W.session q a.1 r d) t := by
    intro p hp
    refine wp_seq hp fun _ a ha r hr => ?_
    cases hr
    exact ha
  cases c with
  | poll cursor' =>
      cases hc
      apply hreply
      unfold TproxyServer.poll
      split_ifs
      · exact .inl ⟨rfl, fun m h => by cases h⟩
      · exact .inl ⟨rfl, fun m h => by cases h⟩
      · exact hon .session trivial
  | pollLane laneID cursor' =>
      cases hc
      apply hreply
      unfold TproxyServer.pollLane
      split_ifs
      · exact .inl ⟨rfl, fun m h => by cases h⟩
      · exact .inl ⟨rfl, fun m h => by cases h⟩
      · cases hl : W.session.carrierLanes.get laneID with
        | none => exact .inl ⟨rfl, fun m h => by cases h⟩
        | some lane => exact hon _ (Session.hasQueue_of_get hl)
  | _ => cases hc

/-- A poll takes over a queue, and perhaps waits. -/
theorem Invariant.arrive (h : W.Invariant) {q : QueueRef} {cursor : ℕ}
    {r : PollReply} {d : Downlink} (hq : W.session.HasQueue q)
    (ht : TakesOver W.session q σ.session r d) :
    Invariant { state := σ, waiting := W.waiting ++ r.waiter q cursor } := by
  have hwrites := ht.writes
  have hnext := ht.next
  -- the calls that wait are the old ones, and perhaps the new one
  have hlist : ∀ u ∈ W.waiting ++ r.waiter q cursor, u ∈ W.waiting ∨
      u = { q, cursor, mine := W.session.nextObject } ∧ d.superseded = some u.mine ∧
        d.pendingFrames = [] ∧ W.session.closed = false := by
    intro u hu
    rcases List.mem_append.mp hu with hu | hu
    · exact .inl hu
    · rcases ht.ends with ⟨rfl, hmine, -, hframes, hopen⟩ | ⟨hleaves, -, -⟩
      · obtain rfl := List.mem_singleton.mp hu
        exact .inr ⟨rfl, hmine, hframes, hopen⟩
      · rw [hleaves.waiter] at hu
        cases hu
  have hkeep : ∀ u ∈ W.waiting, u ∈ W.waiting ++ r.waiter q cursor :=
    fun u hu => List.mem_append_left _ hu
  -- the other queues are the old ones
  have hother : ∀ q', q.object ≠ q'.object → σ.session.queue q' = W.session.queue q' := by
    intro q' hobject
    by_cases hq' : W.session.HasQueue q'
    · rw [hwrites.queue q' hq', if_neg hobject]
    · rw [Session.queue_of_not_hasQueue hq',
        Session.queue_of_not_hasQueue fun hq'' => hq' ((hwrites.has q').mp hq'')]
  have hsame : ∀ q', W.session.HasQueue q' → q.object = q'.object → σ.session.queue q' = d := by
    intro q' hq' hobject
    rw [hwrites.queue q' hq', if_pos hobject]
  have hold : ∀ q' m, (W.session.queue q').superseded = some m → m < W.session.nextObject := by
    intro q' m hm
    obtain ⟨-, u, hu, rfl, -⟩ := h.newest q' m hm
    exact (h.here u hu).1
  constructor
  · show (W.waiting ++ r.waiter q cursor).Pairwise _
    rw [List.pairwise_append]
    refine ⟨h.sorted, ?_, ?_⟩
    · cases r <;> first | exact .nil | exact List.pairwise_singleton _ _
    · intro u hu v hv
      rcases hlist v (List.mem_append_right _ hv) with hv' | ⟨rfl, -⟩
      · rcases ht.ends with ⟨rfl, -⟩ | ⟨hleaves, -, -⟩
        · obtain rfl := List.mem_singleton.mp hv
          exact (h.here u hu).1
        · rw [hleaves.waiter] at hv
          cases hv
      · exact (h.here u hu).1
  · intro u hu
    show u.mine < σ.session.nextObject ∧ σ.session.HasQueue u.q
    rw [hwrites.has, hnext]
    rcases hlist u hu with hu | ⟨rfl, -⟩
    · obtain ⟨hlt, hhas⟩ := h.here u hu
      exact ⟨by omega, hhas⟩
    · exact ⟨Nat.lt_succ_self _, hq⟩
  · intro c hc
    show c < σ.session.nextObject
    rcases (ht.channels c).mp hc with hc | hc
    · have hlt := h.channels c hc
      omega
    · have hlt := hold q c hc
      omega
  · intro q' hn
    have hn' : (σ.session.queue q').superseded = none := hn
    show (σ.session.queue q').downActive = false
    by_cases hobject : q.object = q'.object
    · by_cases hq' : W.session.HasQueue q'
      · rw [hsame q' hq' hobject] at hn' ⊢
        rcases ht.ends with ⟨-, hmine, -⟩ | ⟨-, -, hactive⟩
        · rw [hmine] at hn'
          cases hn'
        · exact hactive
      · rw [Session.queue_of_not_hasQueue fun hq'' => hq' ((hwrites.has q').mp hq'')]
    · rw [hother q' hobject] at hn' ⊢
      exact h.idle q' hn'
  · intro q' hn
    obtain ⟨m, hm⟩ := Option.ne_none_iff_exists'.mp hn
    have hm' : (σ.session.queue q').superseded = some m := hm
    show (σ.session.queue q').downActive = true
    by_cases hobject : q.object = q'.object
    · have hq' := (hwrites.has q').mp (hasQueue_of_superseded hm')
      rw [hsame q' hq' hobject] at hm' ⊢
      rcases ht.ends with ⟨-, -, hactive, -⟩ | ⟨-, hnone, -⟩
      · exact hactive
      · rw [hnone] at hm'
        cases hm'
    · rw [hother q' hobject] at hm' ⊢
      exact h.active q' (by simp [hm'])
  · intro q' m hm
    have hm' : (σ.session.queue q').superseded = some m := hm
    show m ∉ σ.session.closedChannels ∧ _
    rw [ht.channels]
    by_cases hobject : q.object = q'.object
    · have hq' := (hwrites.has q').mp (hasQueue_of_superseded hm')
      rw [hsame q' hq' hobject] at hm'
      rcases ht.ends with ⟨hr, hmine, -⟩ | ⟨-, hnone, -⟩
      · rw [hmine] at hm'
        obtain rfl := Option.some.inj hm'
        refine ⟨?_, { q, cursor, mine := W.session.nextObject }, ?_, rfl, hobject, ?_⟩
        · rintro (hc | hc)
          · exact Nat.lt_irrefl _ (h.channels _ hc)
          · exact Nat.lt_irrefl _ (hold q _ hc)
        · rw [hr]
          exact List.mem_append_right _ (List.mem_singleton_self _)
        · intro u hu _
          rcases hlist u hu with hu | ⟨rfl, -⟩
          · exact (h.here u hu).1.le
          · exact le_rfl
      · rw [hnone] at hm'
        cases hm'
    · rw [hother q' hobject] at hm'
      obtain ⟨hopen, w, hw, hmine, hwo, hlast⟩ := h.newest q' m hm'
      refine ⟨?_, w, hkeep w hw, hmine, hwo, ?_⟩
      · rintro (hc | hc)
        · exact hopen hc
        · -- one channel belongs to one call
          obtain ⟨-, v, hv, hvm, hvo, -⟩ := h.newest q m hc
          rw [h.mine_inj hv hw (hvm.trans hmine.symm)] at hvo
          exact hobject (hvo.symm.trans hwo)
      · intro u hu huo
        rcases hlist u hu with hu | ⟨rfl, -⟩
        · exact hlast u hu huo
        · exact absurd huo hobject
  · intro u hu huw
    show u.mine ∈ σ.session.closedChannels
    rw [ht.channels]
    rcases hlist u hu with hu | ⟨rfl, -⟩
    · exact .inl (h.superseded u hu huw)
    · cases huw
  · intro u hu hub hc hready
    rcases hlist u hu with hu | ⟨rfl, -, hframes, hopen⟩
    · have hhas := (h.here u hu).2
      by_cases hobject : q.object = u.q.object
      · have hc' : (σ.session.queue u.q).superseded = some u.mine := hc
        rw [hsame u.q hhas hobject] at hc'
        rcases ht.ends with ⟨-, hmine, -⟩ | ⟨-, hnone, -⟩
        · rw [hmine] at hc'
          have hlt := (h.here u hu).1
          have heq := Option.some.inj hc'
          omega
        · rw [hnone] at hc'
          cases hc'
      · have hqueue := hother u.q hobject
        have hcu : W.Current u := (congrArg Downlink.superseded hqueue).symm.trans hc
        have hwakes := h.wakes u hu hub hcu (hready.imp
          (fun hf => by rwa [← hqueue]) fun hclosed => by rwa [← hwrites.closed])
        rcases hwakes with htoken | ⟨hclosed, hlane⟩ | ⟨v, hv, hvo, hnot, hvw⟩
        · left
          show (σ.session.queue u.q).notify = true
          rw [hqueue]
          exact htoken
        · exact .inr (.inl ⟨hwrites.closed.trans hclosed, hlane⟩)
        · refine .inr (.inr ⟨v, hkeep v hv, hvo, fun hcv => hnot ?_, hvw⟩)
          exact (congrArg Downlink.superseded (hother v.q fun he =>
            hobject (he.trans hvo))).symm.trans hcv
    · rcases hready with hready | hready
      · exact absurd ((congrArg Downlink.pendingFrames (hwrites.here hq)).trans hframes) hready
      · have hclosed := hwrites.closed.symm.trans hready
        rw [hopen] at hclosed
        cases hclosed

/-! ### Runs -/

theorem receive_writes (ho : s.Objects) {q : QueueRef} (hq : s.HasQueue q) {σ σ' : Traced}
    {r : Reply} (hs : σ.session = s) (h : TproxyServer.Step sha256 σ (.takeToken q) r σ') :
    Writes s q { s.queue q with notify := false } σ'.session ∧
      σ'.session.nextObject = s.nextObject ∧ σ'.session.closedChannels = s.closedChannels := by
  subst hs
  have hstep : σ'.session = takeToken σ.session q := by
    refine h.of_sentry (Q := fun a => a.1 = takeToken σ.session q) ?_
    rfl
  rw [hstep]
  exact ⟨.setQueue ho hq _, Session.setQueue_rest ..⟩

/-- One step keeps the invariant. -/
theorem Invariant.step (h : W.Invariant)
    (hr : TproxyServer.Reachable sha256 limits carrier W.state) (hs : Step sha256 W W') :
    W'.Invariant := by
  have ho : W.session.Objects := hr.objects
  cases hs with
  | other hc hstep => exact h.other (hstep.rouses hr hc)
  | @arrive c q cursor r σ hc hstep =>
      have harrival := hstep.of_sentry (Q := fun a => ∀ r, a.2 = .poll r →
        a.1 = W.session ∧ r.Leaves ∨
          W.session.HasQueue q ∧ ∃ d, TakesOver W.session q a.1 r d) (h.arrival ho hc _)
      rcases harrival r rfl with ⟨hs, hleaves⟩ | ⟨hq, d, ht⟩
      · rw [hleaves.waiter, List.append_nil]
        have hsession : σ.session = W.session := hs
        have hkeep := h.other (σ := σ) (by rw [hsession]; exact .refl _)
        exact hkeep
      · exact h.arrive hq ht
  | @wake l₁ l₂ w wake hw hblocked hready hother =>
      have hmem : w ∈ W.waiting := by
        rw [hw]
        simp
      refine h.rewake ho hw { w with wake := some wake } rfl rfl
        (.refl ho (h.here w hmem).2) rfl .inl rfl rfl ?_ ?_ ?_
      · intro he
        cases he
        exact hready
      · intro he
        rw [hblocked] at he
        cases he
      · intro he
        cases he
  | @token l₁ l₂ w σ r hw hblocked hready hstep =>
      have hmem : w ∈ W.waiting := by
        rw [hw]
        simp
      obtain ⟨hwrites, hnext, hchannels⟩ := receive_writes ho (h.here w hmem).2 rfl hstep
      refine h.rewake ho hw { w with wake := some .notified } rfl rfl hwrites rfl
        (fun _ => .inr rfl) hnext hchannels ?_ ?_ ?_
      · intro he
        cases he
      · intro he
        rw [hblocked] at he
        cases he
      · intro he
        cases he
  | @resume l₁ l₂ w wake r σ hw hwake hstep =>
      have hmem : w ∈ W.waiting := by
        rw [hw]
        simp
      have hq := (h.here w hmem).2
      by_cases hc : W.Current w
      · have hne : wake ≠ .superseded := by
          rintro rfl
          exact (h.newest w.q w.mine hc).1 (h.superseded w hmem hwake)
        obtain ⟨d, hwrites, hnext, hchannels, hend⟩ := hstep.of_pollResume_sentry
          (Q := fun s' r => ∃ d, GoesOnOrLeaves W.session w.q w.mine s' r d)
          (pollResume_current ho hq hc hne)
        rcases hend with ⟨rfl, rfl, hframes, hopen⟩ | ⟨hleaves, hsup, hactive⟩
        · rw [List.append_assoc]
          exact h.rewake ho hw { q := w.q, cursor := w.cursor, mine := w.mine } rfl rfl
            hwrites rfl .inl hnext hchannels (fun he => by cases he) (fun _ => hc)
            fun _ => ⟨hframes, hopen⟩
        · rw [hleaves.waiter, List.append_nil]
          exact h.returns ho hw hwrites hnext hchannels (.inl ⟨hc, hsup, hactive⟩)
      · have haside := hstep.of_pollResume_sentry (pollResume_superseded w.cursor
          wake ho hq hc)
        rw [haside.reply.leaves.waiter, List.append_nil]
        refine h.returns ho hw haside.writes haside.next haside.channels (.inr ⟨hc, rfl, ?_⟩)
        intro hn
        apply haside.token
        exact hn.imp_right fun he => by
          rw [hwake] at he
          exact Option.some.inj he

theorem Reachable.state (h : Reachable sha256 limits carrier W) :
    TproxyServer.Reachable sha256 limits carrier W.state := by
  induction h with
  | start => exact .start
  | step _ hs ih =>
      cases hs with
      | other _ hstep => exact ih.step hstep
      | arrive _ hstep => exact ih.step hstep
      | wake => exact ih
      | token _ _ _ hstep => exact ih.step hstep
      | resume _ _ hstep => exact ih.step hstep

theorem Reachable.invariant (h : Reachable sha256 limits carrier W) : W.Invariant := by
  induction h with
  | start => exact .start limits carrier
  | step hr hs ih => exact ih.step hr.state hs

/-! ### The law -/

/-- What the calls that wait do to one another. -/
structure NewestWins (sha256 : Bytes → Bytes) (W : Polls) : Prop where
  /-- A poll that arrives closes no channel that is closed. -/
  once : ∀ (c : Section) q cursor es (p : Panic), c.pollsOn W.session = some (q, cursor) →
    Runs (c.exec sha256 W.session) es (.error p) → p ≠ .closedTwice
  active : ∀ q, (W.session.queue q).downActive = true ↔ (W.session.queue q).superseded ≠ none
  /-- A call that goes on is the last one of its queue that arrived, or else it returns no frames
  and its own cursor, and leaves the queues but for a token. -/
  resumes : ∀ l₁ w l₂ wake r σ, W.waiting = l₁ ++ w :: l₂ → w.wake = some wake →
    TproxyServer.Step sha256 W.state (.pollResume w.q w.cursor w.mine wake) (.poll r) σ →
    W.Current w ∧ (∀ u ∈ l₂, u.q.object ≠ w.q.object) ∨
      ¬ W.Current w ∧ r.Empty w.cursor wake ∧ ∀ q, W.session.HasQueue q →
        σ.session.queue q = { W.session.queue q with notify := (σ.session.queue q).notify }
  /-- Nobody else moves a cursor, but for a poll that arrives. -/
  moves : ∀ W' q, Step sha256 W W' → W.session.HasQueue q →
    (W'.session.queue q).downCursor ≠ (W.session.queue q).downCursor →
    (∃ (c : Section) (q' : QueueRef) (cursor : ℕ) (r : PollReply),
        c.pollsOn W.session = some (q', cursor) ∧ q'.object = q.object ∧
        TproxyServer.Step sha256 W.state c (.poll r) W'.state) ∨
      ∃ l₁ w l₂ wake r, W.waiting = l₁ ++ w :: l₂ ∧ w.wake = some wake ∧
        w.q.object = q.object ∧ W.Current w ∧ (∀ u ∈ l₂, u.q.object ≠ w.q.object) ∧
        TproxyServer.Step sha256 W.state (.pollResume w.q w.cursor w.mine wake) (.poll r) W'.state
  /-- The call that its queue is for is woken where there is something for it. -/
  wakes : ∀ w ∈ W.waiting, w.wake = none → W.Current w →
    (W.session.queue w.q).pendingFrames ≠ [] ∨ W.session.closed = true → W.Wakeable w

/-- The call that its queue is for arrived last. -/
theorem Invariant.last (h : W.Invariant) (hw : W.waiting = l₁ ++ w :: l₂) (hc : W.Current w) :
    ∀ u ∈ l₂, u.q.object ≠ w.q.object := by
  intro u hu hobject
  obtain ⟨-, -, -, -, -, hlast⟩ := h.newest w.q w.mine hc
  have hle := hlast u (by rw [hw]; simp [hu]) hobject
  have hsorted := h.sorted
  rw [hw, List.pairwise_append, List.pairwise_cons] at hsorted
  have hlt := hsorted.2.1.1 u hu
  omega

theorem Invariant.moves (h : W.Invariant)
    (hr : TproxyServer.Reachable sha256 limits carrier W.state) {q : QueueRef}
    (hs : Step sha256 W W') (hq : W.session.HasQueue q)
    (hne : (W'.session.queue q).downCursor ≠ (W.session.queue q).downCursor) :
    (∃ (c : Section) (q' : QueueRef) (cursor : ℕ) (r : PollReply),
        c.pollsOn W.session = some (q', cursor) ∧ q'.object = q.object ∧
        TproxyServer.Step sha256 W.state c (.poll r) W'.state) ∨
      ∃ l₁ w l₂ wake r, W.waiting = l₁ ++ w :: l₂ ∧ w.wake = some wake ∧
        w.q.object = q.object ∧ W.Current w ∧ (∀ u ∈ l₂, u.q.object ≠ w.q.object) ∧
        TproxyServer.Step sha256 W.state (.pollResume w.q w.cursor w.mine wake) (.poll r)
          W'.state := by
  have ho : W.session.Objects := hr.objects
  cases hs with
  | other hc hstep => exact absurd ((hstep.rouses hr hc).kept q hq).2.cursor hne
  | @arrive c q' cursor r σ hc hstep =>
      have harrival := hstep.of_sentry (Q := fun a => ∀ r, a.2 = .poll r →
        a.1 = W.session ∧ r.Leaves ∨
          W.session.HasQueue q' ∧ ∃ d, TakesOver W.session q' a.1 r d) (h.arrival ho hc _)
      rcases harrival r rfl with ⟨hs, -⟩ | ⟨-, d, ht⟩
      · exact absurd (congrArg (fun s : Session => (s.queue q).downCursor) hs) hne
      · by_cases hobject : q'.object = q.object
        · exact .inl ⟨c, q', cursor, r, hc, hobject, hstep⟩
        · refine absurd ?_ hne
          show (σ.session.queue q).downCursor = _
          rw [ht.writes.queue q hq, if_neg hobject]
  | wake => exact absurd rfl hne
  | @token l₁ l₂ w σ r hw _ _ hstep =>
      have hqw := (h.here w (by rw [hw]; simp)).2
      have hwrites := (receive_writes ho hqw rfl hstep).1
      exact absurd (hwrites.field Downlink.downCursor ho hqw rfl q) hne
  | @resume l₁ l₂ w wake r σ hw hwake hstep =>
      have hmem : w ∈ W.waiting := by
        rw [hw]
        simp
      have hqw := (h.here w hmem).2
      by_cases hc : W.Current w
      · by_cases hobject : w.q.object = q.object
        · exact .inr ⟨l₁, w, l₂, wake, r, hw, hwake, hobject, hc, h.last hw hc, hstep⟩
        · have hwoken : wake ≠ .superseded := by
            rintro rfl
            exact (h.newest w.q w.mine hc).1 (h.superseded w hmem hwake)
          obtain ⟨d, hwrites, -⟩ := hstep.of_pollResume_sentry
            (Q := fun s' r => ∃ d, GoesOnOrLeaves W.session w.q w.mine s' r d)
            (pollResume_current ho hqw hc hwoken)
          refine absurd ?_ hne
          show (σ.session.queue q).downCursor = _
          rw [hwrites.queue q hq, if_neg hobject]
      · have haside := hstep.of_pollResume_sentry
          (Q := fun s' r => StepsAside W.session w.q w.cursor wake s' r)
          (pollResume_superseded w.cursor wake ho hqw hc)
        exact absurd (haside.writes.field Downlink.downCursor ho hqw rfl q) hne

/-- **The newest poll wins**, no channel is closed twice and no wake-up is lost, in any order of
polls, wake-ups and other sections. -/
theorem newest_poll_wins (h : Reachable sha256 limits carrier W) : W.NewestWins sha256 := by
  have hinv := h.invariant
  have ho : W.session.Objects := h.state.objects
  constructor
  · intro c q cursor es p hc hrun
    exact wp_sound_panic sentry_open (hinv.arrival ho hc []) hrun
  · intro q
    constructor
    · intro hactive hnone
      rw [hinv.idle q hnone] at hactive
      cases hactive
    · exact hinv.active q
  · intro l₁ w l₂ wake r σ hw hwake hstep
    by_cases hc : W.Current w
    · exact .inl ⟨hc, hinv.last hw hc⟩
    · have hq := (hinv.here w (by rw [hw]; simp)).2
      have haside := hstep.of_pollResume_sentry
        (Q := fun s' r => StepsAside W.session w.q w.cursor wake s' r)
        (pollResume_superseded w.cursor wake ho hq hc)
      refine .inr ⟨hc, haside.reply, fun q hq' => ?_⟩
      rw [haside.writes.queue q hq']
      split_ifs with hobject
      · rw [ho.queue_eq hq hq' hobject]
      · rfl
  · exact fun W' q hs hq hne => hinv.moves h.state hs hq hne
  · exact hinv.wakes

/-- Sections that are none of a poll's, played one after the other. -/
theorem Reachable.play {σ : Traced} {script : List (Section × List Bool)}
    (h : Reachable sha256 limits carrier W) (hs : ∀ x ∈ script, x.1.polling = false)
    (hp : TproxyServer.play sha256 W.state script = some σ) :
    Reachable sha256 limits carrier { W with state := σ } := by
  induction script generalizing W with
  | nil =>
      cases hp
      exact h
  | cons entry rest ih =>
      obtain ⟨p, hattempt, hrest⟩ := Option.bind_eq_some_iff.mp hp
      have hstep := h.step (.other (hs entry (by simp)) (.attempt hattempt))
      exact ih (W := { W with state := p.2 }) hstep (fun x hx => hs x (by simp [hx])) hrest

/-- The second of two polls is the one that the queue is for when a byte comes, and the first has
taken the token. -/
theorem newest_poll_wins_token : ∃ W, Reachable id defaultLimits .https W ∧
    W.waiting.length = 2 ∧ W.session.down.notify = false ∧ W.session.down.pendingFrames ≠ [] ∧
    W.NewestWins id := by
  have hplay : ((attempt id ⟨newSession defaultLimits .https, []⟩ (.poll 0) []).bind fun p₁ =>
      (attempt id p₁.2 (.poll 0) []).bind fun p₂ =>
      (TproxyServer.play id p₂.2 [(.processUpBegin 1 (encode .open 1 []), []),
        (.processUpCommit 1 (encode .open 1 []), [true]),
        (.backendData 1 [7], [true])]).bind fun σ =>
      (attempt id σ (.takeToken .session) []).map fun p₃ =>
        (p₁.1, p₂.1, σ.session.down.notify, p₃.2.session.down.notify,
          p₃.2.session.down.pendingFrames.isEmpty)) =
      some (.poll (.parked 0), .poll (.parked 1), true, false, false) := by
    decide +kernel
  obtain ⟨⟨r₁, σ₁⟩, h₁, hplay⟩ := Option.bind_eq_some_iff.mp hplay
  obtain ⟨⟨r₂, σ₂⟩, h₂, hplay⟩ := Option.bind_eq_some_iff.mp hplay
  obtain ⟨σ₃, h₃, hplay⟩ := Option.bind_eq_some_iff.mp hplay
  obtain ⟨⟨r₃, σ₄⟩, h₄, he⟩ := Option.map_eq_some_iff.mp hplay
  simp only [Prod.mk.injEq] at he
  obtain ⟨rfl, rfl, htoken, hnone, hframes⟩ := he
  have hW₁ := Reachable.start.step (.arrive (c := .poll 0) rfl (.attempt h₁))
  have hW₂ := hW₁.step (.arrive (c := .poll 0) rfl (.attempt h₂))
  have hW₃ := hW₂.play (σ := σ₃) (by simp [Section.polling]) h₃
  have hW₄ := hW₃.step (.token (show _ = [] ++ (⟨.session, 0, 0, none⟩ : Waiter) :: _ from rfl) rfl
    htoken (.attempt h₄))
  refine ⟨_, hW₄, rfl, hnone, ?_, newest_poll_wins hW₄⟩
  intro hempty
  exact absurd hframes (by simp [show σ₄.session.down.pendingFrames = [] from hempty])

end Polls

end TproxyServer
