import TproxyServer.LaneSockets
import TproxyServer.Queues

/-! # Whose lane a release takes

`ReleaseWebSocketLane` takes the lane that is stored under its id, whoever acquired it.  A
connection whose lane is gone, after a protocol failure, releases that id once more when
`serveWebSocket` returns: the lane of a connection that has come in between goes with it
(`later_lane_released`). -/

namespace TproxyServer

open Interaction Prog

variable {limits : Limits} {s s' s'' : Session} {t : List Event} {sha256 : Bytes → Bytes}
  {object : ℕ}

/-! ### Lane objects stay with their ids -/

/-- The lane object is stored under no other id. -/
structure Session.Own (s : Session) (id object : ℕ) : Prop where
  old : object < s.nextObject
  only : ∀ i l, s.carrierLanes.get i = some l → l.object = object → i = id

theorem Change.own {scope : Scope} {σ σ' : Traced} {id : ℕ} (h : Change scope σ σ')
    (hown : σ.session.Own id object) : σ'.session.Own id object := by
  have hlanes : KeepsLanes CarrierLane.object σ.session σ'.session ∨
      scope.lanes = true ∧ ∃ i, σ'.session = (σ.session.createLane i).1 :=
    h.keeps_or_creates (fun _ _ => rfl) (fun _ _ _ ho _ => ho) fun _ _ _ ho _ => ho
  refine ⟨hown.old.trans_le h.nextObject_mono, fun i l' hl' ho => ?_⟩
  rcases hlanes with hkeep | ⟨-, j, hcreate⟩
  · obtain ⟨l, hl, hobject⟩ := hkeep i l' hl'
    exact hown.only i l hl (hobject.symm.trans ho)
  · have hget : (σ.session.carrierLanes.put j { object := σ.session.nextObject }).get i =
        some l' := by
      rw [hcreate] at hl'
      exact hl'
    rw [Table.get_put] at hget
    split_ifs at hget
    · cases hget
      exact absurd ho hown.old.ne'
    · exact hown.only i l' hget ho

/-! ### What a release leaves alone -/

/-- A lane object that is not stored stays as it was. -/
def Bypasses (object : ℕ) (s s' : Session) : Prop :=
  (∀ i l, s.carrierLanes.get i = some l → l.object ≠ object) →
    (∀ i l, s'.carrierLanes.get i = some l → l.object ≠ object) ∧
      s'.releasedLanes.get object = s.releasedLanes.get object

namespace Bypasses

theorem of_eq (hlanes : s'.carrierLanes = s.carrierLanes)
    (hreleased : s'.releasedLanes = s.releasedLanes) : Bypasses object s s' := by
  intro h
  rw [hlanes, hreleased]
  exact ⟨h, rfl⟩

theorem trans (h : Bypasses object s s') (h' : Bypasses object s' s'') :
    Bypasses object s s'' := by
  intro hno
  obtain ⟨hno', heq⟩ := h hno
  obtain ⟨hno'', heq'⟩ := h' hno'
  exact ⟨hno'', heq'.trans heq⟩

theorem putLane {id : ℕ} {l l' : CarrierLane} (hl : s.carrierLanes.get id = some l)
    (hobject : l'.object = l.object) : Bypasses object s (s.putLane id l') := by
  refine fun hno => ⟨fun i l₁ hl₁ => ?_, rfl⟩
  rw [Session.putLane_lanes, Table.get_put] at hl₁
  split_ifs at hl₁
  · cases hl₁
    exact hobject ▸ hno id l hl
  · exact hno i l₁ hl₁

/-- A lane is put among the released ones. -/
theorem of_del {id : ℕ} {l l' : CarrierLane} (hl : s.carrierLanes.get id = some l)
    (hlanes : s'.carrierLanes = s.carrierLanes.del id)
    (hreleased : s'.releasedLanes = s.releasedLanes.put l.object l') : Bypasses object s s' := by
  refine fun hno => ⟨fun i l₁ hl₁ => ?_, ?_⟩
  · rw [hlanes, Table.get_del] at hl₁
    split_ifs at hl₁
    exact hno i l₁ hl₁
  · rw [hreleased]
    exact Table.get_put_ne _ _ (hno id l hl).symm

theorem signalLane (s : Session) (id : ℕ) : Bypasses object s (s.signalLane id) := by
  unfold Session.signalLane
  cases hl : s.carrierLanes.get id with
  | none => exact of_eq rfl rfl
  | some lane => exact putLane hl rfl

end Bypasses

theorem rememberClosedLocked_bypasses (object : ℕ) (s : Session) (id : ℕ) :
    wp observer (rememberClosedLocked s id) (fun _ s' => Bypasses object s s') t := by
  refine wp_mono (rememberClosedLocked_room s id) ?_
  rintro t' s' ⟨es, s₁, -, -, ⟨-, hlanes⟩, hs'⟩
  have hroom : Bypasses object s s₁ := by
    rcases hlanes with ⟨hsame, hreleased⟩ | ⟨old, l, hl, hdel, hput⟩
    · exact .of_eq hsame hreleased
    · exact .of_del hl hdel hput
  rcases hs' with rfl | rfl
  · exact hroom
  · exact hroom.trans (.signalLane s₁ id)

theorem releaseWebSocketLane_bypasses (object : ℕ) (s : Session) (id : ℕ) :
    wp observer (releaseWebSocketLane s id) (fun _ s' => Bypasses object s s') t := by
  have hdrop : ∀ (s₁ : Session) (t₁ : List Event), Bypasses object s s₁ →
      wp observer (dropLane s₁ id) (fun _ s' => Bypasses object s s') t₁ := by
    intro s₁ t₁ h₁
    unfold dropLane
    cases hl : s₁.carrierLanes.get id with
    | none => exact h₁
    | some lane =>
        refine wp_seq (releaseLaneLocked_obs s₁ lane) ?_
        rintro t₂ ⟨s₂, lane₂⟩ ⟨rfl, ⟨cost, items, notify, rfl⟩, rfl⟩
        exact h₁.trans (.of_del hl rfl rfl)
  unfold releaseWebSocketLane
  split_ifs
  · exact .of_eq rfl rfl
  cases hl : s.carrierLanes.get id with
  | none => exact .of_eq rfl rfl
  | some lane =>
      have hput : Bypasses object s (s.putLane id { lane with websocketActive := false }) :=
        .putLane hl rfl
      dsimp only
      cases hst : s.streams.get id with
      | none =>
          simp only [Session.putLane_streams, hst, pure_bind']
          exact hdrop _ t hput
      | some state =>
          simp only [Session.putLane_streams, hst]
          refine wp_seq (releaseStreamWritesLocked_obs _ state) ?_
          rintro t₁ s₁ ⟨rfl, cost, items, notify, rfl⟩
          refine wp_seq (rememberClosedLocked_bypasses object _ id) ?_
          intro t₂ s₂ h₂
          simp only [announce_bind, wp_note]
          have hended : Bypasses object s (((s.putLane id { lane with
              websocketActive := false }).setPending cost items notify).delStream id) :=
            hput.trans (.of_eq rfl rfl)
          exact hdrop s₂ _ (hended.trans h₂)

/-! ### The lanes of the connections -/

namespace LaneConnection

/-- The connection releases its lane here: `serveWebSocket` returns, or one of the goroutines makes
its protocol failure known. -/
def Releases (c c' : LaneConnection) : Prop :=
  c.stage ≠ .released ∧ c'.stage = .released ∨ c.reader = .failing ∧ c'.reader ≠ .failing ∨
    c.writer = .failing ∧ c'.writer ≠ .failing

/-- The lane object that the connection acquired, its stream and its queue stay as they were. -/
structure Untouched (c : LaneConnection) (s s' : Session) : Prop where
  lane : s'.attached c.laneID c.object = s.attached c.laneID c.object
  stream : s.attached c.laneID c.object ≠ none → s'.streams.get c.laneID = s.streams.get c.laneID
  queue : s'.queue (.lane c.laneID c.object) = s.queue (.lane c.laneID c.object)

theorem not_releases {c c' : LaneConnection} (hstage : c'.stage = .released → c.stage = .released)
    (hreader : c.reader = .failing → c'.reader = .failing)
    (hwriter : c.writer = .failing → c'.writer = .failing) : ¬ c.Releases c' := by
  rintro (⟨h₁, h₂⟩ | ⟨h₁, h₂⟩ | ⟨h₁, h₂⟩)
  · exact h₁ (hstage h₂)
  · exact h₂ (hreader h₁)
  · exact h₂ (hwriter h₁)

theorem not_releases_self (c : LaneConnection) : ¬ c.Releases c :=
  not_releases (fun h => h) (fun h => h) fun h => h

theorem offered_keeps (c : LaneConnection) (body : Bytes) (r : UpReply) :
    (c.offered body r).stage = c.stage ∧ (c.offered body r).writer = c.writer := by
  cases r with
  | acked ack =>
      unfold offered
      dsimp only
      split_ifs <;> exact ⟨rfl, rfl⟩
  | _ => exact ⟨rfl, rfl⟩

theorem polled_keeps (c : LaneConnection) (q : QueueRef) (r : PollReply) :
    (c.polled q r).stage = c.stage ∧ (c.polled q r).reader = c.reader := by
  cases r with
  | batch body next =>
      unfold polled
      dsimp only
      split_ifs <;> exact ⟨rfl, rfl⟩
  | _ => exact ⟨rfl, rfl⟩

end LaneConnection

namespace LaneSockets

variable {L L' : LaneSockets}

/-- The connections are the same but for how far they are, or there is a new one. -/
theorem Step.connections {d : Option Section} (h : Step sha256 L d L') :
    ∀ c' ∈ L'.connections, (∃ c ∈ L.connections, c'.laneID = c.laneID ∧ c'.object = c.object) ∨
      TproxyServer.Step sha256 L.relay (.acquireWebSocketLane c'.laneID) (.flag true) L'.relay ∧
        c'.object = L'.relay.session.laneObject c'.laneID := by
  have hset : ∀ {k : ℕ} {c c₁ : LaneConnection} {σ : Traced}, L.connections[k]? = some c →
      c₁.laneID = c.laneID ∧ c₁.object = c.object → ∀ c' ∈ (L.set k c₁ σ).connections,
      (∃ c ∈ L.connections, c'.laneID = c.laneID ∧ c'.object = c.object) ∨
        TproxyServer.Step sha256 L.relay (.acquireWebSocketLane c'.laneID) (.flag true) σ ∧
          c'.object = σ.session.laneObject c'.laneID := by
    intro k c c₁ σ hc hsame c' hc'
    rcases List.mem_or_eq_of_mem_set hc' with hold | rfl
    · exact .inl ⟨c', hold, rfl, rfl⟩
    · exact .inl ⟨c, List.mem_of_getElem? hc, hsame⟩
  cases h with
  | refuse => exact fun c' hc' => .inl ⟨c', hc', rfl, rfl⟩
  | other => exact fun c' hc' => .inl ⟨c', hc', rfl, rfl⟩
  | acquire hd =>
      intro c' hc'
      rcases List.mem_append.mp hc' with hold | hnew
      · exact .inl ⟨c', hold, rfl, rfl⟩
      · rw [List.mem_singleton] at hnew
        subst hnew
        exact .inr ⟨hd, rfl⟩
  | upgrade hc => exact hset hc ⟨rfl, rfl⟩
  | dismiss hc => exact hset hc ⟨rfl, rfl⟩
  | release hc => exact hset hc ⟨rfl, rfl⟩
  | receive hc => exact hset hc ⟨rfl, rfl⟩
  | offer hc =>
      have hgoes := LaneConnection.goes_offered
      exact hset hc ⟨(hgoes _ _ _).1, (hgoes _ _ _).2.1⟩
  | failRead hc => exact hset hc ⟨rfl, rfl⟩
  | abort hc => exact hset hc ⟨rfl, rfl⟩
  | stopRead hc => exact hset hc ⟨rfl, rfl⟩
  | poll hc =>
      have hgoes := LaneConnection.goes_polled
      exact hset hc ⟨(hgoes _ _ _).1, (hgoes _ _ _).2.1⟩
  | resume hc =>
      have hgoes := LaneConnection.goes_polled
      exact hset hc ⟨(hgoes _ _ _).1, (hgoes _ _ _).2.1⟩
  | write hc => exact hset hc ⟨rfl, rfl⟩
  | failWrite hc => exact hset hc ⟨rfl, rfl⟩
  | stopWrite hc => exact hset hc ⟨rfl, rfl⟩

/-- A lane that is acquired is stored under its id, and its object under no other. -/
theorem acquired_own {σ σ' : Traced} {id : ℕ}
    (h : TproxyServer.Step sha256 σ (.acquireWebSocketLane id) (.flag true) σ')
    (ho : σ'.session.Objects) : σ'.session.Own id (σ'.session.laneObject id) := by
  obtain ⟨l, hl⟩ : ∃ l, σ'.session.carrierLanes.get id = some l := by
    have hacquired := acquired_of_step h
    generalize σ'.session = s' at hacquired
    cases hacquired with
    | attached => exact ⟨_, Table.get_put_self ..⟩
    | created => exact ⟨_, Table.get_put_self ..⟩
  have hobject : σ'.session.laneObject id = l.object := by
    unfold Session.laneObject
    rw [hl]
    rfl
  rw [hobject]
  exact ⟨ho.lanes id l hl, fun i l' hl' he => ho.once i id l' l hl' hl he⟩

/-- **The lane that a connection acquired is stored under no other id.** -/
theorem Reachable.owned (h : Reachable sha256 limits L) :
    ∀ c ∈ L.connections, L.relay.session.Own c.laneID c.object := by
  induction h with
  | start => exact fun c hc => by cases hc
  | @step L L' d hr hs ih =>
      have hkeep : ∀ {i o : ℕ}, L.relay.session.Own i o → L'.relay.session.Own i o := by
        intro i o hown
        rcases hs.relay with ⟨-, he⟩ | ⟨e, r, -, he⟩
        · rwa [he]
        · exact (he.changes hr.relay.sound).invariant (I := fun τ => τ.session.Own i o)
            (fun hc hI => hc.own hI) hown
      intro c' hc'
      rcases hs.connections c' hc' with ⟨c, hc, hid, hobject⟩ | ⟨hd, hobject⟩
      · rw [hid, hobject]
        exact hkeep (ih c hc)
      · rw [hobject]
        exact acquired_own hd (hr.step hs).relay.objects

/-! ### Releases -/

/-- Connection `k` releases its lane. -/
def ReleasedBy (k : ℕ) (L L' : LaneSockets) : Prop :=
  ∃ c c', L.connections[k]? = some c ∧ L'.connections[k]? = some c' ∧ c.Releases c'

theorem ReleasedBy.of_set {k j : ℕ} {c c₁ : LaneConnection} {σ : Traced}
    (h : ReleasedBy k L (L.set j c₁ σ)) (hj : L.connections[j]? = some c) :
    L.connections[k]? = some c ∧ c.Releases c₁ := by
  obtain ⟨e, e', he, he', hreleases⟩ := h
  have hset : (L.connections.set j c₁)[k]? = some e' := he'
  rw [List.getElem?_set] at hset
  split_ifs at hset with hkj hlt
  · cases hset
    rw [← hkj, hj] at he
    cases he
    exact ⟨hkj ▸ hj, hreleases⟩
  · rw [he] at hset
    cases hset
    exact absurd hreleases e.not_releases_self

/-- A connection that releases its lane runs a section that releases this id. -/
theorem Step.released {k : ℕ} {d : Option Section} (h : Step sha256 L d L')
    (hk : ReleasedBy k L L') : ∃ c e r, L.connections[k]? = some c ∧
      Section.Releases c.laneID e ∧ TproxyServer.Step sha256 L.relay e r L'.relay := by
  have hsame : ¬ ∀ c, L.connections[k]? = some c → L'.connections[k]? = some c := by
    intro hall
    obtain ⟨c, c', hc, hc', hreleases⟩ := hk
    rw [hall c hc] at hc'
    cases hc'
    exact c.not_releases_self hreleases
  -- the release is one of the four steps that release
  have hno : ∀ {j : ℕ} {c c₁ : LaneConnection} {σ : Traced}, L.connections[j]? = some c →
      (c₁.stage = .released → c.stage = .released) → (c.reader = .failing → c₁.reader = .failing) →
      (c.writer = .failing → c₁.writer = .failing) → ¬ ReleasedBy k L (L.set j c₁ σ) :=
    fun hc hstage hreader hwriter hk =>
      LaneConnection.not_releases hstage hreader hwriter (hk.of_set hc).2
  cases h with
  | refuse => exact absurd (fun c hc => hc) hsame
  | other => exact absurd (fun c hc => hc) hsame
  | acquire =>
      refine absurd (fun c hc => ?_) hsame
      exact (List.getElem?_append_left (List.getElem?_eq_some_iff.mp hc).1).trans hc
  | dismiss hc _ hd => exact ⟨_, _, _, (hk.of_set hc).1, .inl rfl, hd⟩
  | release hc _ _ hd => exact ⟨_, _, _, (hk.of_set hc).1, .inl rfl, hd⟩
  | failRead hc _ hd => exact ⟨_, _, _, (hk.of_set hc).1, .inr rfl, hd⟩
  | failWrite hc _ hd => exact ⟨_, _, _, (hk.of_set hc).1, .inr rfl, hd⟩
  | upgrade hc => exact absurd hk (hno hc (by simp) (fun h => h) fun h => h)
  | receive hc _ h => exact absurd hk (hno hc (fun h => h) (by simp [h]) fun h => h)
  | @offer _ c body r _ hc h =>
      obtain ⟨hstage, hwriter⟩ := c.offered_keeps body r
      exact absurd hk (hno hc (hstage ▸ fun h => h) (by simp [h]) (hwriter ▸ fun h => h))
  | abort hc h => exact absurd hk (hno hc (fun h => h) (by simp [h]) fun h => h)
  | stopRead hc _ h =>
      refine absurd hk (hno hc (fun h => h) (fun hf => ?_) fun h => h)
      rcases h with h | ⟨body, h⟩ <;> simp [h] at hf
  | @poll _ c r _ hc _ h =>
      obtain ⟨hstage, hreader⟩ :=
        c.polled_keeps (.lane c.laneID (L.relay.session.laneObject c.laneID)) r
      exact absurd hk (hno hc (hstage ▸ fun h => h) (hreader ▸ fun h => h) (by simp [h]))
  | @resume _ c q _ _ r _ hc h =>
      obtain ⟨hstage, hreader⟩ := c.polled_keeps q r
      exact absurd hk (hno hc (hstage ▸ fun h => h) (hreader ▸ fun h => h) (by simp [h]))
  | write hc h => exact absurd hk (hno hc (fun h => h) (fun h => h) (by simp [h]))
  | stopWrite hc _ h =>
      refine absurd hk (hno hc (fun h => h) (fun h => h) fun hf => ?_)
      rcases h with h | ⟨next, h⟩ <;> simp [h] at hf

/-- This connection has acquired the lane id of connection `k` after it. -/
def Later (k : ℕ) (L : LaneSockets) (c' : LaneConnection) : Prop :=
  ∃ c j, L.connections[k]? = some c ∧ k < j ∧ L.connections[j]? = some c' ∧ c'.laneID = c.laneID

/-- A release leaves what later connections have acquired under the same id. -/
def SparesLater (L L' : LaneSockets) : Prop :=
  ∀ k, ReleasedBy k L L' → ∀ c, Later k L c → c.Untouched L.relay.session L'.relay.session

/-- A release finds no lane under its id that a later connection acquired. -/
def FindsNoLater (L L' : LaneSockets) : Prop :=
  ∀ k, ReleasedBy k L L' → ∀ c, Later k L c →
    ∀ l, L.relay.session.carrierLanes.get c.laneID = some l → l.object ≠ c.object

theorem Step.untouched_iff {k : ℕ} {d : Option Section} {c : LaneConnection}
    (hr : Reachable sha256 limits L) (h : Step sha256 L d L') (hk : ReleasedBy k L L')
    (hlater : Later k L c) : c.Untouched L.relay.session L'.relay.session ↔
      ∀ l, L.relay.session.carrierLanes.get c.laneID = some l → l.object ≠ c.object := by
  obtain ⟨a, e, r, ha, he, hd⟩ := h.released hk
  obtain ⟨a', j, ha', -, hc, hid⟩ := hlater
  rw [ha] at ha'
  cases ha'
  have hsound := hr.relay.sound
  rw [← hid] at he
  constructor
  · rintro hun l hl hobject
    have hgone := hd.of_releases he hsound.carrier_eq
      (releaseWebSocketLane_released hsound.carrier_eq c.laneID)
    have hattached := hun.lane.trans (Session.attached_eq_some.mpr ⟨hl, hobject⟩)
    rw [Session.attached_eq_some, hgone.gone] at hattached
    cases hattached.1
  · intro hother
    have hown := hr.owned c (List.mem_of_getElem? hc)
    have hbypass := hd.of_releases he hsound.carrier_eq
      (releaseWebSocketLane_bypasses c.object L.relay.session c.laneID)
    have hno : ∀ i l, L.relay.session.carrierLanes.get i = some l → l.object ≠ c.object := by
      intro i l hl hobject
      have hi := hown.only i l hl hobject
      exact hother l (hi ▸ hl) hobject
    obtain ⟨hno', hreleased⟩ := hbypass hno
    have hnone : ∀ {s : Session}, (∀ i l, s.carrierLanes.get i = some l → l.object ≠ c.object) →
        s.attached c.laneID c.object = none := by
      intro s hs
      by_contra hsome
      obtain ⟨l, hl⟩ := Option.ne_none_iff_exists'.mp hsome
      obtain ⟨hl, hobject⟩ := Session.attached_eq_some.mp hl
      exact hs _ l hl hobject
    refine ⟨(hnone hno').trans (hnone hno).symm, fun hsome => absurd (hnone hno) hsome, ?_⟩
    unfold Session.queue
    dsimp only
    rw [hnone hno, hnone hno', hreleased]

/-- A run with the states before and after each of its steps. -/
inductive Run (sha256 : Bytes → Bytes) (limits : Limits) :
    List (LaneSockets × LaneSockets) → LaneSockets → Prop
  | start : Run sha256 limits [] { relay := ⟨newSession limits .webSocketLanes, []⟩ }
  | step {steps : List (LaneSockets × LaneSockets)} {L L' : LaneSockets} {d : Option Section} :
      Run sha256 limits steps L → Step sha256 L d L' → Run sha256 limits (steps ++ [(L, L')]) L'

variable {steps : List (LaneSockets × LaneSockets)}

theorem Run.reachable (h : Run sha256 limits steps L) : Reachable sha256 limits L := by
  induction h with
  | start => exact .start
  | step _ hs ih => exact ih.step hs

theorem Run.mem (h : Run sha256 limits steps L) {p : LaneSockets × LaneSockets} (hp : p ∈ steps) :
    Reachable sha256 limits p.1 ∧ ∃ d, Step sha256 p.1 d p.2 := by
  induction h with
  | start => cases hp
  | step hrun hs ih =>
      rcases List.mem_append.mp hp with hp | hp
      · exact ih hp
      · rw [List.mem_singleton] at hp
        subst hp
        exact ⟨hrun.reachable, _, hs⟩

end LaneSockets

end TproxyServer
