import TproxyServer.Places
import TproxyServer.BatchAgreement

/-! # Polling the lanes of an `https-lanes` session

`LanePolls` is a session together with its polls and a client that obeys the protocol: it polls
a lane with the cursor it was last given there, repeats a poll as long as the relay has not
processed the next one, and takes a response only while it waits for it.  Responses are lost,
doubled and reordered as the network likes.

A poll meets its lane as long as the lane's tombstone stands: then no poll of the client fails.
A poll that comes after the eviction finds no lane and is refused with `ErrProtocol`, where one
that is parked is told that the lane has closed (`lane_polls_served`). -/

namespace TproxyServer

open Interaction Prog

variable {limits : Limits} {s s' : Session} {t : List Event} {sha256 : Bytes → Bytes}

/-! ### A client that polls -/

def Section.ofPoll : Section → Bool
  | .poll _ | .pollLane _ _ | .pollResume _ _ _ _ => true
  | _ => false

/-- A parked `PollLane`. -/
structure ParkedPoll where
  laneID : ℕ
  object : ℕ
  cursor : ℕ
  mine : ℕ

structure LanePolls where
  state : Traced
  /-- The cursors the client was last given, zero where it was given none. -/
  cursors : Table ℕ ℕ := .nil
  /-- The lanes for which the relay has processed a poll with the current cursor. -/
  processed : Finset ℕ := ∅
  /-- Responses with frames on their way to the client: the lane, and the cursor asked with. -/
  responses : List (ℕ × ℕ) := []
  parked : Table ℕ ParkedPoll := .nil
  /-- The lanes for which `laneClosed` was reported. -/
  reported : Finset ℕ := ∅

namespace LanePolls

def cursor (W : LanePolls) (laneID : ℕ) : ℕ := (W.cursors.get laneID).getD 0

/-- The lane object that a poll finds under `laneID`. -/
def object (W : LanePolls) (laneID : ℕ) : ℕ :=
  ((W.state.session.carrierLanes.get laneID).map CarrierLane.object).getD 0

/-- A section of poll `k` has ended in `σ` with the reply `r`. -/
def leave (W : LanePolls) (k : ℕ) (σ : Traced) (laneID object cursor : ℕ) : PollReply → LanePolls
  | .parked mine =>
      { W with state := σ, parked := W.parked.put k ⟨laneID, object, cursor, mine⟩ }
  | .batch _ _ =>
      { W with state := σ, parked := W.parked.del k,
               responses := (laneID, cursor) :: W.responses }
  | .laneClosed _ =>
      { W with state := σ, parked := W.parked.del k, reported := insert laneID W.reported }
  | _ => { W with state := σ, parked := W.parked.del k }

/-- The client has the batch that moves its cursor. -/
def advance (W : LanePolls) (laneID : ℕ) : LanePolls :=
  { W with cursors := W.cursors.put laneID (W.cursor laneID + 1)
           processed := W.processed.erase laneID }

inductive Step (sha256 : Bytes → Bytes) : LanePolls → LanePolls → Prop
  /-- A section that is no poll. -/
  | other {W : LanePolls} {c : Section} {r : Reply} {σ : Traced} (hc : c.ofPoll = false)
      (h : TproxyServer.Step sha256 W.state c r σ) : Step sha256 W { W with state := σ }
  /-- A poll with the last returned cursor arrives. -/
  | poll {W : LanePolls} {k laneID : ℕ} {r : PollReply} {σ : Traced}
      (hk : W.parked.get k = none)
      (h : TproxyServer.Step sha256 W.state (.pollLane laneID (W.cursor laneID)) (.poll r) σ) :
      Step sha256 W ({ W with processed := insert laneID W.processed }.leave k σ laneID
        (W.object laneID) (W.cursor laneID) r)
  /-- A copy of the poll before arrives, none with the next cursor having been processed. -/
  | copy {W : LanePolls} {k laneID cursor : ℕ} {r : PollReply} {σ : Traced}
      (hk : W.parked.get k = none) (hcursor : W.cursor laneID = cursor + 1)
      (hfirst : laneID ∉ W.processed)
      (h : TproxyServer.Step sha256 W.state (.pollLane laneID cursor) (.poll r) σ) :
      Step sha256 W (W.leave k σ laneID (W.object laneID) cursor r)
  /-- A parked poll wakes up. -/
  | resume {W : LanePolls} {k : ℕ} {p : ParkedPoll} {wake : Wake} {r : PollReply} {σ : Traced}
      (hk : W.parked.get k = some p)
      (h : TproxyServer.Step sha256 W.state
        (.pollResume (.lane p.laneID p.object) p.cursor p.mine wake) (.poll r) σ) :
      Step sha256 W (W.leave k σ p.laneID p.object p.cursor r)
  /-- The client gets the response it waits for. -/
  | receive {W : LanePolls} {laneID : ℕ} (h : (laneID, W.cursor laneID) ∈ W.responses) :
      Step sha256 W (W.advance laneID)

/-- The states that a session with polls can reach. -/
inductive Reachable (sha256 : Bytes → Bytes) (limits : Limits) : LanePolls → Prop
  | start : Reachable sha256 limits { state := ⟨newSession limits .httpsLanes, []⟩ }
  | step {W W' : LanePolls} :
      Reachable sha256 limits W → Step sha256 W W' → Reachable sha256 limits W'

/-- What the polls of lane `laneID` get: a batch, an empty answer or `laneClosed`.  A poll that
is parked gets `ErrClosed` or the context's error only when the session or the caller has gone,
and it is parked no longer than until its deadline. -/
structure Served (sha256 : Bytes → Bytes) (W : LanePolls) (laneID : ℕ) : Prop where
  arriving : ∀ r σ, TproxyServer.Step sha256 W.state (.pollLane laneID (W.cursor laneID))
      (.poll r) σ →
    (∃ body, r = .batch body (W.cursor laneID + 1)) ∨ r = .laneClosed (W.cursor laneID) ∨
      ∃ mine, r = .parked mine
  parked : ∀ k p wake r σ, W.parked.get k = some p → p.laneID = laneID →
    TproxyServer.Step sha256 W.state
      (.pollResume (.lane p.laneID p.object) p.cursor p.mine wake) (.poll r) σ →
    (∃ body, r = .batch body (p.cursor + 1)) ∨ r = .empty p.cursor ∨ r = .laneClosed p.cursor ∨
      (r = .parked p.mine ∧ wake ≠ .deadline) ∨ r = .cancelled ∧ wake = .cancelled ∨
      r = .closed ∧ wake = .done

/-! ### The invariant -/

/-- A client at `cursor` and a lane's downlink: the client is up to date or one batch behind,
and that batch is kept for it. -/
structure InStep (cursor : ℕ) (processed : Prop) (p : Place) : Prop where
  linked : p.unacked ≠ [] → p.downCursor = p.unackedBase + 1
  next : p.downCursor = cursor ∨ p.downCursor = cursor + 1 ∧ p.unacked ≠ []
  kept : ¬ processed → cursor ≠ 0 → p.downCursor = cursor ∧ p.unacked ≠ []

/-- What holds of a lane whose end was not reported and whose tombstone was not evicted. -/
structure LaneInStep (W : LanePolls) (id : ℕ) : Prop where
  absent : W.state.session.carrierLanes.get id = none → W.cursor id = 0 ∧
    (∀ c, (id, c) ∉ W.responses) ∧ ∀ k p, W.parked.get k = some p → p.laneID ≠ id
  inStep : ∀ l, W.state.session.carrierLanes.get id = some l →
    InStep (W.cursor id) (id ∈ W.processed) l.down.place
  responses : ∀ l c, W.state.session.carrierLanes.get id = some l → (id, c) ∈ W.responses →
    c + 1 ≤ l.down.place.downCursor
  parked : ∀ l k p, W.state.session.carrierLanes.get id = some l → W.parked.get k = some p →
    p.laneID = id → p.object = l.object ∧ (l.down.place.superseded = some p.mine →
      l.down.place.downCursor = p.cursor ∧ l.down.place.unacked = [])

structure Invariant (W : LanePolls) : Prop where
  fresh : ∀ k p, W.parked.get k = some p → p.mine < W.state.session.nextObject
  lanes : W.state.session.closed = false → ∀ id, id ∉ W.reported →
    .evicted id ∉ W.state.trace → W.LaneInStep id

variable {W W' : LanePolls} {id : ℕ}

theorem InStep.start {p : Prop} : InStep 0 p .new :=
  ⟨fun h => absurd rfl h, .inl rfl, fun _ h => absurd rfl h⟩

/-- A lane that has stayed undisturbed, or is new. -/
theorem LaneInStep.same (h : W.LaneInStep id) {σ : Traced}
    (hl : SameLane id W.state.session σ.session) : { W with state := σ }.LaneInStep id := by
  have hnew : ∀ l', σ.session.carrierLanes.get id = some l' →
      (∃ l, W.state.session.carrierLanes.get id = some l ∧ l'.object = l.object ∧
        l'.down.place = l.down.place) ∨
      W.cursor id = 0 ∧ (∀ c, (id, c) ∉ W.responses) ∧
        (∀ k p, W.parked.get k = some p → p.laneID ≠ id) ∧ l'.down.place = .new := by
    intro l' hl'
    rcases hl.here l' hl' with hold | ⟨hnone, hplace⟩
    · exact .inl hold
    · obtain ⟨hc, hr, hp⟩ := h.absent hnone
      exact .inr ⟨hc, hr, hp, hplace⟩
  refine ⟨fun hnone => h.absent ?_, fun l' hl' => ?_, fun l' c hl' hc => ?_,
    fun l' k p hl' hk hid => ?_⟩
  · by_contra hn
    exact hl.kept hn hnone
  · rcases hnew l' hl' with ⟨l, hl, -, hplace⟩ | ⟨hc, -, -, hplace⟩
    · rw [hplace]
      exact h.inStep l hl
    · rw [hplace]
      show InStep (W.cursor id) _ _
      rw [hc]
      exact .start
  · rcases hnew l' hl' with ⟨l, hl, -, hplace⟩ | ⟨-, hr, -⟩
    · rw [hplace]
      exact h.responses l c hl hc
    · exact absurd hc (hr c)
  · rcases hnew l' hl' with ⟨l, hl, hobject, hplace⟩ | ⟨-, -, hp, -⟩
    · rw [hplace, hobject]
      exact h.parked l k p hl hk hid
    · exact absurd hid (hp k p hk)

/-- What is said of a lane does not depend on the other lanes. -/
theorem LaneInStep.congr (h : W.LaneInStep id)
    (hl : W'.state.session.carrierLanes.get id = W.state.session.carrierLanes.get id)
    (hc : W'.cursor id = W.cursor id) (hp : id ∈ W'.processed ↔ id ∈ W.processed)
    (hr : ∀ c, (id, c) ∈ W'.responses → (id, c) ∈ W.responses)
    (hk : ∀ k p, W'.parked.get k = some p → p.laneID = id → W.parked.get k = some p) :
    W'.LaneInStep id := by
  refine ⟨fun hnone => ?_, fun l hl' => ?_, fun l c hl' hm => ?_, fun l k p hl' hg hid => ?_⟩
  · rw [hl] at hnone
    obtain ⟨h0, hresp, hpark⟩ := h.absent hnone
    exact ⟨hc.trans h0, fun c hm => hresp c (hr c hm),
      fun k p hg hid => hpark k p (hk k p hg hid) hid⟩
  · rw [hl] at hl'
    have := h.inStep l hl'
    rw [hc]
    exact ⟨this.linked, this.next, fun hn => this.kept fun hm => hn (hp.mpr hm)⟩
  · rw [hl] at hl'
    exact h.responses l c hl' (hr c hm)
  · rw [hl] at hl'
    exact h.parked l k p hl' (hk k p hg hid) hid

/-! ### What a section of a poll leaves -/

section
variable (k : ℕ) (σ : Traced) (laneID object cursor : ℕ) (r : PollReply)

@[simp] theorem leave_state : (W.leave k σ laneID object cursor r).state = σ := by
  cases r <;> rfl

@[simp] theorem leave_cursor (i : ℕ) :
    (W.leave k σ laneID object cursor r).cursor i = W.cursor i := by
  cases r <;> rfl

@[simp] theorem leave_processed :
    (W.leave k σ laneID object cursor r).processed = W.processed := by
  cases r <;> rfl

end

variable {k : ℕ} {σ : Traced} {laneID object cursor : ℕ} {r : PollReply}

theorem mem_leave_responses {x : ℕ × ℕ}
    (h : x ∈ (W.leave k σ laneID object cursor r).responses) :
    x ∈ W.responses ∨ x = (laneID, cursor) ∧ ∃ body next, r = .batch body next := by
  cases r with
  | batch body next =>
      rcases List.mem_cons.mp h with h | h
      · exact .inr ⟨h, body, next, rfl⟩
      · exact .inl h
  | _ => exact .inl h

theorem get_leave_parked {i : ℕ} {p : ParkedPoll}
    (h : (W.leave k σ laneID object cursor r).parked.get i = some p) :
    i ≠ k ∧ W.parked.get i = some p ∨
      ∃ mine, r = .parked mine ∧ p = ⟨laneID, object, cursor, mine⟩ := by
  have hdel : (W.parked.del k).get i = some p → i ≠ k ∧ W.parked.get i = some p := by
    intro h
    rw [Table.get_del] at h
    split_ifs at h with hi
    exact ⟨hi, h⟩
  cases r with
  | parked mine =>
      have h' : (W.parked.put k ⟨laneID, object, cursor, mine⟩).get i = some p := h
      rw [Table.get_put] at h'
      split_ifs at h' with hi
      · cases h'
        exact .inr ⟨mine, rfl, rfl⟩
      · exact .inl ⟨hi, h'⟩
  | _ => exact .inl (hdel h)

theorem mem_leave_reported (i : ℕ) : i ∈ (W.leave k σ laneID object cursor r).reported ↔
    i ∈ W.reported ∨ i = laneID ∧ ∃ c, r = .laneClosed c := by
  cases r with
  | laneClosed c =>
      show i ∈ insert laneID W.reported ↔ _
      rw [Finset.mem_insert]
      constructor
      · intro h
        rcases h with h | h
        · exact .inr ⟨h, c, rfl⟩
        · exact .inl h
      · intro h
        rcases h with h | ⟨h, -⟩
        · exact .inr h
        · exact .inl h
  | _ => simp [leave]

/-- A poll of another lane. -/
theorem LaneInStep.leave_other (h : W.LaneInStep id) (hid : id ≠ laneID)
    (hl : σ.session.carrierLanes.get id = W.state.session.carrierLanes.get id) :
    (W.leave k σ laneID object cursor r).LaneInStep id := by
  refine h.congr (by rw [leave_state, hl]) (leave_cursor ..) (by rw [leave_processed])
    (fun c hm => ?_) fun i p hp hlane => ?_
  · rcases mem_leave_responses hm with hm | ⟨he, -⟩
    · exact hm
    · exact absurd (Prod.mk.inj he).1 hid
  · rcases get_leave_parked hp with ⟨-, hp⟩ | ⟨mine, -, rfl⟩
    · exact hp
    · exact absurd hlane.symm hid

/-- A poll of a lane that is not there. -/
theorem LaneInStep.leave_absent (h : W.LaneInStep laneID)
    (hnone : W.state.session.carrierLanes.get laneID = none)
    (hl : σ.session.carrierLanes.get laneID = none) (hr : r = .refused ∨ r = .closed) :
    (W.leave k σ laneID object cursor r).LaneInStep laneID := by
  obtain ⟨h0, hresp, hpark⟩ := h.absent hnone
  have hsome : ∀ l, (W.leave k σ laneID object cursor r).state.session.carrierLanes.get laneID
      ≠ some l := by
    intro l
    rw [leave_state, hl]
    simp
  refine ⟨fun _ => ⟨(leave_cursor ..).trans h0, fun c hm => ?_, fun i p hp hlane => ?_⟩,
    fun l hl' => absurd hl' (hsome l), fun l c hl' => absurd hl' (hsome l),
    fun l i p hl' => absurd hl' (hsome l)⟩
  · rcases mem_leave_responses hm with hm | ⟨-, body, next, he⟩
    · exact hresp c hm
    · rcases hr with rfl | rfl <;> cases he
  · rcases get_leave_parked hp with ⟨-, hp⟩ | ⟨mine, he, -⟩
    · exact hpark i p hp hlane
    · rcases hr with rfl | rfl <;> cases he

/-- A poll of a lane that is there, from what it makes of the lane's place. -/
theorem LaneInStep.leave_here {l l' : CarrierLane} (h : W.LaneInStep laneID)
    (hl : W.state.session.carrierLanes.get laneID = some l)
    (hl' : σ.session.carrierLanes.get laneID = some l') (hobject : l'.object = l.object)
    (hin : InStep (W.cursor laneID) (laneID ∈ W.processed) l'.down.place)
    (hgrow : l.down.place.downCursor ≤ l'.down.place.downCursor)
    (hbatch : ∀ body next, r = .batch body next → cursor + 1 ≤ l'.down.place.downCursor)
    (hother : ∀ i p, i ≠ k → W.parked.get i = some p → p.laneID = laneID →
      l'.down.place.superseded = some p.mine →
        l'.down.place.downCursor = p.cursor ∧ l'.down.place.unacked = [])
    (hparked : ∀ mine, r = .parked mine → object = l.object ∧
      (l'.down.place.superseded = some mine →
        l'.down.place.downCursor = cursor ∧ l'.down.place.unacked = [])) :
    (W.leave k σ laneID object cursor r).LaneInStep laneID := by
  have hhere : ∀ l₁, (W.leave k σ laneID object cursor r).state.session.carrierLanes.get laneID =
      some l₁ → l₁ = l' := by
    intro l₁ h₁
    rw [leave_state, hl'] at h₁
    exact (Option.some.inj h₁).symm
  refine ⟨fun hnone => ?_, fun l₁ h₁ => ?_, fun l₁ c h₁ hm => ?_, fun l₁ i p h₁ hp hlane => ?_⟩
  · rw [leave_state, hl'] at hnone
    cases hnone
  · rw [hhere l₁ h₁, leave_cursor, leave_processed]
    exact hin
  · rw [hhere l₁ h₁]
    rcases mem_leave_responses hm with hm | ⟨he, body, next, hr⟩
    · exact (h.responses l c hl hm).trans hgrow
    · rw [(Prod.mk.inj he).2]
      exact hbatch body next hr
  · rw [hhere l₁ h₁, hobject]
    rcases get_leave_parked hp with ⟨hi, hp⟩ | ⟨mine, hr, rfl⟩
    · exact ⟨(h.parked l i p hl hp hlane).1, hother i p hi hp hlane⟩
    · exact hparked mine hr

/-! ### The steps keep the invariant -/

theorem Invariant.other (h : W.Invariant) {c : Section} {r : Reply}
    (hs : Sound limits .httpsLanes W.state) (hc : c.ofPoll = false)
    (hstep : TproxyServer.Step sha256 W.state c r σ) : { W with state := σ }.Invariant := by
  have hchanges := hstep.changes hs
  have hpolls : c.scope.polls = false := by
    cases c <;> first | rfl | cases hc
  refine ⟨fun k p hk => (h.fresh k p hk).trans_le hchanges.nextObject_mono,
    fun hopen id hid hev => ?_⟩
  have hopen₀ : W.state.session.closed = false := by
    by_contra hn
    rw [Bool.not_eq_false] at hn
    have hclosed : σ.session.closed = true := hchanges.closed_mono hn
    exact absurd hclosed (by simp [show σ.session.closed = false from hopen])
  rcases hchanges.undisturbed hpolls hs id hopen with he | hsame
  · exact absurd he hev
  · exact (h.lanes hopen₀ id hid fun he => hev (hchanges.trace_mono he)).same hsame

/-- A poll with the current cursor is being processed. -/
theorem Invariant.process (h : W.Invariant) (laneID : ℕ) :
    { W with processed := insert laneID W.processed }.Invariant := by
  refine ⟨h.fresh, fun hopen id hid hev => ?_⟩
  have hl := h.lanes hopen id hid hev
  refine ⟨hl.absent, fun l hl' => ?_, hl.responses, hl.parked⟩
  have hin := hl.inStep l hl'
  exact ⟨hin.linked, hin.next, fun hn => hin.kept fun hm => hn (Finset.mem_insert_of_mem hm)⟩

/-- What the cursor of a poll meets. -/
theorem InStep.check {d : Downlink} {asked : ℕ} {processed : Prop}
    (h : InStep cursor processed d.place)
    (hasked : cursor = asked ∧ processed ∨ cursor = asked + 1 ∧ ¬ processed) :
    d.checkCursor asked = .replay ∧ d.unacked ≠ [] ∧ d.downCursor = asked + 1 ∨
      (d.checkCursor asked = .acknowledge ∨ d.checkCursor asked = .current) ∧
        cursor = asked ∧ processed ∧ d.downCursor = asked := by
  obtain ⟨hlinked, hnext, hkept⟩ := h
  simp only [Downlink.place] at hlinked hnext hkept
  by_cases hu : d.unacked = []
  · refine .inr ?_
    have hdown : d.downCursor = cursor := by
      rcases hnext with h | ⟨-, h⟩
      · exact h
      · exact absurd hu h
    rcases hasked with ⟨rfl, hp⟩ | ⟨he, hp⟩
    · refine ⟨.inr ?_, rfl, hp, hdown⟩
      simp [Downlink.checkCursor, hu, hdown]
    · exact absurd hu (hkept hp (by omega)).2
  · have hbase := hlinked hu
    have hlen : d.unacked.length ≠ 0 := fun h => hu (List.length_eq_zero_iff.mp h)
    by_cases hdown : d.downCursor = asked + 1
    · refine .inl ⟨?_, hu, hdown⟩
      rw [Downlink.checkCursor, if_pos hlen, if_pos (by omega)]
    · refine .inr ?_
      have hhere : d.downCursor = asked ∧ cursor = asked ∧ processed := by
        rcases hasked with ⟨rfl, hp⟩ | ⟨he, hp⟩
        · rcases hnext with h | ⟨h, -⟩
          · exact ⟨h, rfl, hp⟩
          · exact absurd h hdown
        · have := (hkept hp (by omega)).1
          omega
      refine ⟨.inl ?_, hhere.2.1, hhere.2.2, hhere.1⟩
      rw [Downlink.checkCursor, if_pos hlen, if_neg (by omega), if_neg (by omega)]

theorem Reachable.state {W : LanePolls} (h : Reachable sha256 limits W) :
    TproxyServer.Reachable sha256 limits .httpsLanes W.state := by
  induction h with
  | start => exact .start
  | step _ hs ih =>
      cases hs with
      | other _ h => exact ih.step h
      | poll _ h => rw [leave_state]; exact ih.step h
      | copy _ _ _ h => rw [leave_state]; exact ih.step h
      | resume _ h => rw [leave_state]; exact ih.step h
      | receive => exact ih

/-- A poll of a client that is in step with the lane `l`. -/
theorem InStep.poll {l : CarrierLane} {asked : ℕ}
    (hin : InStep (W.cursor laneID) (laneID ∈ W.processed) l.down.place)
    (hasked : W.cursor laneID = asked ∧ laneID ∈ W.processed ∨
      W.cursor laneID = asked + 1 ∧ laneID ∉ W.processed)
    (hr : TproxyServer.Reachable sha256 limits .httpsLanes W.state)
    (hopen : W.state.session.closed = false)
    (hl : W.state.session.carrierLanes.get laneID = some l)
    (hstep : TproxyServer.Step sha256 W.state (.pollLane laneID asked) (.poll r) σ) :
    σ.session = W.state.session ∧ r = .batch l.down.unacked (asked + 1) ∧
        l.down.downCursor = asked + 1 ∨
      W.cursor laneID = asked ∧ laneID ∈ W.processed ∧ l.down.downCursor = asked ∧
        Arrived laneID l asked W.state.session σ.session r := by
  have hlanes : W.state.session.usesCarrierLanes = true := by
    rw [hr.sound.usesCarrierLanes]
    rfl
  have hid : laneID ≤ maxStreamID := hr.ranged laneID (by simp [hl])
  have hresult := hstep.of_pollLane (pollLane_result hopen hlanes hid hl)
  rcases hin.check hasked with ⟨hcheck, -, hdown⟩ | ⟨hcheck, hcursor, hp, hdown⟩
  · rw [hcheck] at hresult
    obtain ⟨hs, hr⟩ := Prod.mk.inj hresult
    exact .inl ⟨hs, hdown ▸ hr, hdown⟩
  · rcases hcheck with hcheck | hcheck
    all_goals
      rw [hcheck] at hresult
      exact .inr ⟨hcursor, hp, hdown, hresult⟩

/-- The batch that a poll takes is kept for the client. -/
theorem InStep.taken {body : Bytes} {p : Prop} (hbody : body ≠ []) (hp : cursor ≠ 0 → p) :
    InStep cursor p ⟨cursor + 1, cursor, body, none⟩ :=
  ⟨fun _ => rfl, .inr ⟨rfl, hbody⟩, fun hn h0 => absurd (hp h0) hn⟩

theorem Invariant.pollLane (h : W.Invariant)
    (hr : TproxyServer.Reachable sha256 limits .httpsLanes W.state) {asked : ℕ}
    (hasked : W.cursor laneID = asked ∧ laneID ∈ W.processed ∨
      W.cursor laneID = asked + 1 ∧ laneID ∉ W.processed)
    (hstep : TproxyServer.Step sha256 W.state (.pollLane laneID asked) (.poll r) σ) :
    (W.leave k σ laneID (W.object laneID) asked r).Invariant := by
  have hchanges := hstep.changes hr.sound
  obtain ⟨hothers, hclosed, hparked⟩ := hstep.of_pollLane (pollLane_elsewhere _ laneID asked)
  refine ⟨fun i p hp => ?_, fun hopen id hid hev => ?_⟩
  · rw [leave_state]
    rcases get_leave_parked hp with ⟨-, hp⟩ | ⟨mine, hmine, rfl⟩
    · exact (h.fresh i p hp).trans_le hchanges.nextObject_mono
    · obtain ⟨rfl, hnext⟩ := hparked mine hmine
      have hnext' : σ.session.nextObject = W.state.session.nextObject + 1 := hnext
      rw [hnext']
      exact Nat.lt_succ_self _
  rw [leave_state] at hopen hev
  rw [mem_leave_reported, not_or] at hid
  have hopen₀ : W.state.session.closed = false := by rw [← hclosed]; exact hopen
  have hlane := h.lanes hopen₀ id hid.1 fun he => hev (hchanges.trace_mono he)
  by_cases hne : id ≠ laneID
  · exact hlane.leave_other hne (hothers id hne)
  obtain rfl := not_not.mp hne
  cases hl : W.state.session.carrierLanes.get id with
  | none =>
      obtain ⟨hs, hreply⟩ := hstep.of_pollLane (pollLane_idle fun _ _ _ => hl)
      have hs' : σ.session = W.state.session := hs
      exact hlane.leave_absent hl (by rw [hs', hl]) hreply
  | some l =>
      have hin := hlane.inStep l hl
      rcases hin.poll hasked hr hopen₀ hl hstep with ⟨hs, rfl, hdown⟩ |
        ⟨hcursor, hp, hdown, d₁, d', hplace, hframes, hnow, hend, -, hend_closed⟩
      · -- the batch before is repeated
        refine hlane.leave_here hl (hs ▸ hl) rfl hin (Nat.le_refl _) (fun _ _ _ => hdown.ge)
          (fun i p _ hp hlaneID => (hlane.parked l i p hl hp hlaneID).2) ?_
        rintro mine ⟨⟩
      · have hwell : ∀ f ∈ d₁.pendingFrames, f.Well := by
          rw [hframes]
          exact (hr.downlinks.lanes id l hl).frames
        have hobject : W.object id = l.object := by
          unfold object
          rw [hl]
          rfl
        rcases hend.place hplace rfl rfl with ⟨body, rfl, hne, hd'⟩ | ⟨hreply, -⟩ | ⟨rfl, hd'⟩
        · have hbody := @takeBatch_body_ne_nil W.state.session.limits d₁ hwell hne
          refine hlane.leave_here hl hnow.here rfl ?_ ?_ ?_ ?_ ?_
          · show InStep _ _ d'.place
            rw [hd', hcursor]
            exact .taken hbody fun _ => hp
          · show l.down.downCursor ≤ d'.place.downCursor
            rw [hd', hdown]
            exact Nat.le_succ asked
          · intro _ _ _
            show asked + 1 ≤ d'.place.downCursor
            rw [hd']
          · intro i p _ _ _ hsup
            have hnone : d'.place.superseded = some p.mine := hsup
            rw [hd'] at hnone
            cases hnone
          · intro mine hmine
            cases hmine
        · rcases hreply with rfl | rfl
          · exact absurd (hend_closed rfl) (by simp [hopen₀])
          · exact absurd ⟨rfl, _, rfl⟩ hid.2
        · refine hlane.leave_here hl hnow.here rfl ?_ ?_ ?_ ?_ ?_
          · show InStep _ _ d'.place
            rw [hd', hcursor]
            exact ⟨fun hn => absurd rfl hn, .inl rfl, fun hn => absurd hp hn⟩
          · show l.down.downCursor ≤ d'.place.downCursor
            rw [hd', hdown]
          · intro _ _ hbatch
            cases hbatch
          · intro i p _ hpark _ hsup
            have hmine : d'.place.superseded = some p.mine := hsup
            rw [hd'] at hmine
            have hfresh := h.fresh i p hpark
            rw [← Option.some.inj hmine] at hfresh
            exact absurd hfresh (Nat.lt_irrefl _)
          · intro mine _
            refine ⟨hobject, fun _ => ?_⟩
            show d'.place.downCursor = asked ∧ d'.place.unacked = []
            rw [hd']
            exact ⟨rfl, rfl⟩

theorem Invariant.resume (h : W.Invariant)
    (hr : TproxyServer.Reachable sha256 limits .httpsLanes W.state) {p : ParkedPoll}
    {wake : Wake} (hk : W.parked.get k = some p)
    (hstep : TproxyServer.Step sha256 W.state
      (.pollResume (.lane p.laneID p.object) p.cursor p.mine wake) (.poll r) σ) :
    (W.leave k σ p.laneID p.object p.cursor r).Invariant := by
  have hchanges := hstep.changes hr.sound
  obtain ⟨⟨hothers, hclosed, hnext⟩, hparked⟩ :=
    hstep.of_pollResume (pollResume_elsewhere _ p.laneID p.object p.cursor p.mine wake)
  refine ⟨fun i p' hp => ?_, fun hopen id hid hev => ?_⟩
  · rw [leave_state]
    rcases get_leave_parked hp with ⟨-, hp⟩ | ⟨mine, hmine, rfl⟩
    · exact (h.fresh i p' hp).trans_le hchanges.nextObject_mono
    · rw [hparked mine hmine]
      exact (h.fresh k p hk).trans_le hchanges.nextObject_mono
  rw [leave_state] at hopen hev
  rw [mem_leave_reported, not_or] at hid
  have hopen₀ : W.state.session.closed = false := by rw [← hclosed]; exact hopen
  have hlane := h.lanes hopen₀ id hid.1 fun he => hev (hchanges.trace_mono he)
  by_cases hne : id ≠ p.laneID
  · exact hlane.leave_other hne (hothers id hne)
  obtain rfl := not_not.mp hne
  cases hl : W.state.session.carrierLanes.get p.laneID with
  | none => exact absurd rfl ((hlane.absent hl).2.2 k p hk)
  | some l =>
      have hin := hlane.inStep l hl
      obtain ⟨hobject, hmine⟩ := hlane.parked l k p hl hk rfl
      rw [hobject] at hstep ⊢
      obtain ⟨d', hnow, hcases⟩ := hstep.of_pollResume (pollResume_result hl)
      have hother : ∀ i p', i ≠ k → W.parked.get i = some p' → p'.laneID = p.laneID →
          l.down.place.superseded = some p'.mine →
          l.down.place.downCursor = p'.cursor ∧ l.down.place.unacked = [] :=
        fun i p' _ hp' hlane' => (hlane.parked l i p' hl hp' hlane').2
      rcases hcases with ⟨hplace, hreply⟩ | ⟨hsup, ⟨d₁, hplace, hframes, hend⟩, hend_closed⟩
      · have hsame : InStep (W.cursor p.laneID) (p.laneID ∈ W.processed) d'.place ∧
            d'.place.downCursor = l.down.place.downCursor ∧
            (d'.place = l.down.place ∨ d'.place.superseded = none) := by
          rcases hplace with hplace | hplace
          · rw [hplace]
            exact ⟨hin, rfl, .inl rfl⟩
          · rw [hplace]
            exact ⟨⟨hin.linked, hin.next, hin.kept⟩, rfl, .inr rfl⟩
        refine hlane.leave_here hl hnow.here rfl hsame.1 hsame.2.1.ge ?_ ?_ ?_
        · intro body next hbatch
          rcases hreply with he | ⟨he, -⟩ | ⟨he, -⟩
          all_goals
            have he' : r = _ := he
            rw [hbatch] at he'
            cases he'
        · intro i p' hi hp' hlane' hsup
          rcases hsame.2.2 with he | he
          · have hsup' : d'.place.superseded = some p'.mine := hsup
            rw [he] at hsup'
            show d'.place.downCursor = _ ∧ d'.place.unacked = _
            rw [he]
            exact hother i p' hi hp' hlane' hsup'
          · have hsup' : d'.place.superseded = some p'.mine := hsup
            rw [he] at hsup'
            cases hsup'
        · intro mine hpark
          rcases hreply with he | ⟨he, -⟩ | ⟨he, -⟩
          all_goals
            have he' : r = _ := he
            rw [hpark] at he'
            cases he'
      · obtain ⟨hdown, hunacked⟩ := hmine hsup
        have hcursor : W.cursor p.laneID = p.cursor := by
          rcases hin.next with hn | ⟨-, hn⟩
          · exact hn.symm.trans hdown
          · exact absurd hunacked hn
        have hprocessed : W.cursor p.laneID ≠ 0 → p.laneID ∈ W.processed := by
          intro h0
          by_contra hn
          exact (hin.kept hn h0).2 hunacked
        rcases hend.place hplace hunacked hdown with ⟨body, rfl, hne, hd'⟩ | ⟨hreply, -⟩ |
          ⟨rfl, hd'⟩
        · have hwell : ∀ f ∈ d₁.pendingFrames, f.Well := by
            rw [hframes]
            exact (hr.downlinks.lanes p.laneID l hl).frames
          have hbody := @takeBatch_body_ne_nil W.state.session.limits d₁ hwell hne
          refine hlane.leave_here hl hnow.here rfl ?_ ?_ ?_ ?_ ?_
          · show InStep _ _ d'.place
            rw [hd', hcursor]
            exact .taken hbody fun h0 => hprocessed (hcursor ▸ h0)
          · show l.down.place.downCursor ≤ d'.place.downCursor
            rw [hd', hdown]
            exact Nat.le_succ p.cursor
          · intro _ _ _
            show p.cursor + 1 ≤ d'.place.downCursor
            rw [hd']
          · intro i p' _ _ _ hsup'
            have hnone : d'.place.superseded = some p'.mine := hsup'
            rw [hd'] at hnone
            cases hnone
          · intro mine hpark
            cases hpark
        · rcases hreply with rfl | rfl
          · exact absurd (hend_closed rfl) (by simp [hopen₀])
          · exact absurd ⟨rfl, _, rfl⟩ hid.2
        · refine hlane.leave_here hl hnow.here rfl ?_ ?_ ?_ ?_ ?_
          · show InStep _ _ d'.place
            rw [hd']
            exact hin
          · show l.down.place.downCursor ≤ d'.place.downCursor
            rw [hd']
          · intro _ _ hbatch
            cases hbatch
          · intro i p' hi hp' hlane' hsup'
            have hsup₁ : d'.place.superseded = some p'.mine := hsup'
            rw [hd'] at hsup₁
            show d'.place.downCursor = _ ∧ d'.place.unacked = _
            rw [hd']
            exact hother i p' hi hp' hlane' hsup₁
          · intro mine _
            refine ⟨rfl, fun _ => ?_⟩
            show d'.place.downCursor = p.cursor ∧ d'.place.unacked = []
            rw [hd']
            exact ⟨hdown, hunacked⟩

theorem Invariant.receive (h : W.Invariant) (hm : (laneID, W.cursor laneID) ∈ W.responses) :
    (W.advance laneID).Invariant := by
  refine ⟨h.fresh, fun hopen id hid hev => ?_⟩
  have hlane := h.lanes hopen id hid hev
  have hcursor : ∀ i, (W.advance laneID).cursor i =
      if i = laneID then W.cursor laneID + 1 else W.cursor i := by
    intro i
    unfold cursor advance
    dsimp only
    rw [Table.get_put]
    split_ifs <;> rfl
  by_cases hne : id ≠ laneID
  · refine hlane.congr rfl (by rw [hcursor, if_neg hne]) ?_ (fun _ hm => hm) fun _ _ hp _ => hp
    exact ⟨fun hp => Finset.mem_of_mem_erase hp, fun hp => Finset.mem_erase.mpr ⟨hne, hp⟩⟩
  obtain rfl := not_not.mp hne
  refine ⟨fun hnone => absurd hm ((hlane.absent hnone).2.1 _), fun l hl => ?_,
    hlane.responses, hlane.parked⟩
  have hin := hlane.inStep l hl
  have hkept : l.down.place.downCursor = W.cursor id + 1 ∧ l.down.place.unacked ≠ [] := by
    have hsent := hlane.responses l _ hl hm
    rcases hin.next with hn | hn
    · omega
    · exact hn
  rw [hcursor, if_pos rfl]
  exact ⟨hin.linked, .inl hkept.1, fun _ _ => hkept⟩

/-- The client stays in step with every lane whose tombstone was not evicted. -/
theorem Reachable.invariant (h : Reachable sha256 limits W) : W.Invariant := by
  induction h with
  | start =>
      refine ⟨by simp, fun _ id _ _ => ⟨fun _ => ⟨rfl, by simp, by simp⟩, fun l hl => ?_,
        by simp, by simp⟩⟩
      have hnew : l.down.place = .new := by
        unfold newSession at hl
        rw [if_pos rfl] at hl
        dsimp only at hl
        rw [Table.get_put] at hl
        split_ifs at hl
        · cases hl
          rfl
        · cases hl
      rw [hnew]
      exact .start
  | @step W W' hW hs ih =>
      cases hs with
      | other hc hstep => exact ih.other hW.state.sound hc hstep
      | @poll k laneID r σ _ hstep =>
          refine (ih.process laneID).pollLane hW.state (.inl ⟨rfl, ?_⟩) hstep
          exact Finset.mem_insert_self _ _
      | copy _ hcursor hfirst hstep => exact ih.pollLane hW.state (.inr ⟨hcursor, hfirst⟩) hstep
      | resume hk hstep => exact ih.resume hW.state hk hstep
      | receive hm => exact ih.receive hm

/-! ### No poll fails -/

/-- A poll of a lane whose end was not reported, as it arrives. -/
theorem Invariant.arriving (h : W.Invariant)
    (hr : TproxyServer.Reachable sha256 limits .httpsLanes W.state)
    (hopen : W.state.session.closed = false) (hreported : laneID ∉ W.reported)
    (hevicted : .evicted laneID ∉ W.state.trace) {l : CarrierLane}
    (hl : W.state.session.carrierLanes.get laneID = some l)
    (hstep : TproxyServer.Step sha256 W.state (.pollLane laneID (W.cursor laneID))
      (.poll r) σ) :
    (∃ body, r = .batch body (W.cursor laneID + 1)) ∨ r = .laneClosed (W.cursor laneID) ∨
      ∃ mine, r = .parked mine := by
  have hlane := (h.process laneID).lanes hopen laneID hreported hevicted
  have hprocessed : laneID ∈ insert laneID W.processed := Finset.mem_insert_self _ _
  rcases (hlane.inStep l hl).poll (.inl ⟨rfl, hprocessed⟩) hr hopen hl hstep with
    ⟨-, hbatch, -⟩ | ⟨-, -, -, d₁, d', hplace, -, -, hend, -, hclosed⟩
  · exact .inl ⟨_, hbatch⟩
  · rcases hend.place hplace rfl rfl with ⟨body, hbatch, -⟩ | ⟨hreply, -⟩ | ⟨hpark, -⟩
    · exact .inl ⟨body, hbatch⟩
    · rcases hreply with hreply | hreply
      · exact absurd (hclosed hreply) (by simp [hopen])
      · exact .inr (.inl hreply)
    · exact .inr (.inr ⟨_, hpark⟩)

/-- A poll of such a lane that was parked. -/
theorem Invariant.waking (h : W.Invariant) (hopen : W.state.session.closed = false)
    {p : ParkedPoll} {wake : Wake} (hk : W.parked.get k = some p)
    (hreported : p.laneID ∉ W.reported) (hevicted : .evicted p.laneID ∉ W.state.trace)
    (hstep : TproxyServer.Step sha256 W.state
      (.pollResume (.lane p.laneID p.object) p.cursor p.mine wake) (.poll r) σ) :
    (∃ body, r = .batch body (p.cursor + 1)) ∨ r = .empty p.cursor ∨ r = .laneClosed p.cursor ∨
      (r = .parked p.mine ∧ wake ≠ .deadline) ∨ r = .cancelled ∧ wake = .cancelled ∨
      r = .closed ∧ wake = .done := by
  have hlane := h.lanes hopen p.laneID hreported hevicted
  cases hl : W.state.session.carrierLanes.get p.laneID with
  | none => exact absurd rfl ((hlane.absent hl).2.2 k p hk)
  | some l =>
      obtain ⟨hobject, hmine⟩ := hlane.parked l k p hl hk rfl
      have hdeadline : wake = .deadline → ∀ m, r ≠ .parked m := by
        rintro rfl
        exact hstep.of_pollResume (pollResume_deadline _ _ _ _)
      rw [hobject] at hstep
      obtain ⟨d', -, ⟨-, hreply⟩ | ⟨hsup, ⟨d₁, hplace, -, hend⟩, hclosed⟩⟩ :=
        hstep.of_pollResume (pollResume_result hl)
      · rcases hreply with he | he | he
        · exact .inr (.inl he)
        · exact .inr (.inr (.inr (.inr (.inl he))))
        · exact .inr (.inr (.inr (.inr (.inr he))))
      · obtain ⟨hdown, hunacked⟩ := hmine hsup
        rcases hend.place hplace hunacked hdown with ⟨body, hbatch, -⟩ | ⟨hreply, -⟩ |
          ⟨hpark, -⟩
        · exact .inl ⟨body, hbatch⟩
        · rcases hreply with hreply | hreply
          · exact absurd (hclosed hreply) (by simp [hopen])
          · exact .inr (.inr (.inl hreply))
        · exact .inr (.inr (.inr (.inl ⟨hpark, fun hwake => hdeadline hwake _ hpark⟩)))

/-- A poll of a lane that is not there is refused. -/
theorem not_served (hopen : W.state.session.closed = false)
    (hl : W.state.session.carrierLanes.get laneID = none) : ¬ W.Served sha256 laneID := by
  intro hserved
  have hrefused : attempt sha256 W.state (.pollLane laneID (W.cursor laneID)) [] =
      some (.poll .refused, ⟨W.state.session, W.state.trace ++ []⟩) := by
    unfold attempt
    rw [if_pos (show Section.Callable _ (.pollLane _ _) from trivial)]
    have hpoll : TproxyServer.pollLane W.state.session laneID (W.cursor laneID) =
        pure (W.state.session, .refused) := by
      unfold TproxyServer.pollLane
      rw [hopen, if_neg Bool.false_ne_true, hl]
      split_ifs <;> rfl
    unfold Section.exec
    dsimp only
    rw [hpoll]
    rfl
  rcases hserved.arriving _ _ (.attempt hrefused) with ⟨_, h⟩ | h | ⟨_, h⟩
  all_goals cases h

end LanePolls

variable {W : LanePolls}

/-- Sections that are no polls, played one after the other. -/
theorem LanePolls.Reachable.play {σ : Traced} {script : List (Section × List Bool)}
    (h : LanePolls.Reachable sha256 limits W) (hs : ∀ x ∈ script, x.1.ofPoll = false)
    (hp : play sha256 W.state script = some σ) :
    LanePolls.Reachable sha256 limits { W with state := σ } := by
  induction script generalizing W with
  | nil =>
      cases hp
      exact h
  | cons entry rest ih =>
      obtain ⟨p, hattempt, hrest⟩ := Option.bind_eq_some_iff.mp hp
      have hstep := h.step (.other (hs entry (by simp)) (.attempt hattempt))
      have hreached := ih hstep (fun x hx => hs x (by simp [hx])) hrest
      exact hreached

/-- **The polls of a lane are served as long as its tombstone was not evicted**: whenever the
session is open and `laneClosed` was not yet reported for a lane that was opened, a poll with the
cursor that was last returned gets frames, an empty batch or `laneClosed`.  After the eviction
the lane is not there, and the poll is refused. -/
theorem lane_polls_served (h : LanePolls.Reachable sha256 limits W)
    (hopen : W.state.session.closed = false) {laneID : ℕ}
    (hopened : laneID ∈ openings W.state.trace) (hreported : laneID ∉ W.reported) :
    (.evicted laneID ∉ W.state.trace → W.Served sha256 laneID) ∧
      (W.state.session.carrierLanes.get laneID = none →
        .evicted laneID ∈ W.state.trace ∧ ¬ W.Served sha256 laneID) := by
  have hr := h.state
  refine ⟨fun hevicted => ⟨fun r σ hstep => ?_, fun k p wake r σ hk hid hstep => ?_⟩,
    fun hl => ⟨?_, LanePolls.not_served hopen hl⟩⟩
  · have hlane : W.state.session.carrierLanes.get laneID ≠ none := by
      rcases hr.laned hopened with hn | he
      · exact hn
      · exact absurd he hevicted
    obtain ⟨l, hl⟩ := Option.ne_none_iff_exists'.mp hlane
    exact h.invariant.arriving hr hopen hreported hevicted hl hstep
  · subst hid
    exact h.invariant.waking hopen hk hreported hevicted hstep
  · rcases hr.laned hopened with hn | he
    · exact absurd hl hn
    · exact he

theorem lane_polls_served_first : ∃ W, LanePolls.Reachable id defaultLimits W ∧
    1 ∈ openings W.state.trace ∧ W.Served id 1 := by
  have hplay : (play id ⟨newSession defaultLimits .httpsLanes, []⟩
      [(.processUpLane 1 1 (encode .open 1 []), [])]).map (fun σ =>
        (σ.session.closed, openings σ.trace, decide (.evicted 1 ∈ σ.trace))) =
      some (false, [1], false) := by
    decide +kernel
  obtain ⟨σ, hσ, he⟩ := Option.map_eq_some_iff.mp hplay
  simp only [Prod.mk.injEq, decide_eq_false_iff_not] at he
  obtain ⟨hopen, hopened, hevicted⟩ := he
  have hW := LanePolls.Reachable.start.play (σ := σ) (by simp [Section.ofPoll]) hσ
  have h1 : 1 ∈ openings σ.trace := by simp [hopened]
  exact ⟨_, hW, h1, (lane_polls_served hW hopen h1 (by simp)).1 hevicted⟩

/-- The client has the first batch of lane 1 when the backends of lanes 1 and 2 close.  With one
tombstone to a session the second of them takes lane 1 away, and the next poll of lane 1 is
refused, its end not having been reported. -/
theorem lane_polls_refused : ∃ W, LanePolls.Reachable id oneTombstone W ∧
    W.state.session.closed = false ∧ 1 ∈ openings W.state.trace ∧ 1 ∉ W.reported ∧
    W.cursor 1 = 1 ∧ ∃ σ, Step id W.state (.pollLane 1 (W.cursor 1)) (.poll .refused) σ := by
  have hplay : ((play id ⟨newSession oneTombstone .httpsLanes, []⟩
        [(.processUpLane 1 1 (encode .open 1 []), []), (.backendData 1 [7], [true])]).bind
      fun σ₁ => (attempt id σ₁ (.pollLane 1 0) [true]).bind
      fun p => (play id p.2 [(.backendClosed 1 2, [true]),
        (.processUpLane 2 1 (encode .open 2 []), []), (.backendClosed 2 5, [true])]).bind
      fun σ₂ => (attempt id σ₂ (.pollLane 1 1) []).map fun q =>
        (p.1, σ₂.session.closed, openings σ₂.trace, q.1)) =
      some (.poll (.batch (encode .data 1 [7]) 1), false, [1, 1, 2, 2], .poll .refused) := by
    decide +kernel
  obtain ⟨σ₁, h₁, hplay⟩ := Option.bind_eq_some_iff.mp hplay
  obtain ⟨⟨r₁, σ₂⟩, h₂, hplay⟩ := Option.bind_eq_some_iff.mp hplay
  obtain ⟨σ₃, h₃, hplay⟩ := Option.bind_eq_some_iff.mp hplay
  obtain ⟨⟨r₂, σ₄⟩, h₄, he⟩ := Option.map_eq_some_iff.mp hplay
  simp only [Prod.mk.injEq] at he
  obtain ⟨rfl, hopen, hopened, rfl⟩ := he
  have hW₁ := LanePolls.Reachable.start.play (σ := σ₁) (by simp [Section.ofPoll]) h₁
  have hW₂ := hW₁.step (.poll (k := 0) rfl (.attempt h₂))
  have hW₃ := hW₂.step (@LanePolls.Step.receive _ _ 1 (List.mem_cons_self ..))
  have hW₄ := hW₃.play (σ := σ₃) (by simp [Section.ofPoll]) h₃
  exact ⟨_, hW₄, hopen, by simp [hopened], by simp [LanePolls.advance, LanePolls.leave], rfl, σ₄,
    .attempt h₄⟩

end TproxyServer
