import TproxyServer.Downlinks

/-! # What a session holds is what it charged

`ledger` is the process as one session sees it: it keeps the cost and items it has granted to
the session, never takes back more than that, and tolerates every panic but the one of an
invalid release.  `Balanced e` says that the session's counters are the charges that its
queues, its unacknowledged batches and its streams hold, and `e` on top, which is what a
section has in hand at that moment.  Every primitive moves charges from one side to the other;
`Section.balanced` puts them together: a section that starts with nothing in hand ends so. -/

namespace TproxyServer

open Interaction Prog

/-- The process, from the side of one session. -/
def ledger : World Query Event Panic (ℤ × ℤ) where
  demands
    | l, .budget cost items _ =>
        (0 ≤ cost ∧ 0 ≤ items) ∨ (cost ≤ 0 ∧ items ≤ 0 ∧ 0 ≤ l.1 + cost ∧ 0 ≤ l.2 + items)
    | _, .acquireStream => True
  answers
    | l, .budget cost items _, b, l' =>
        (b = true ∧ l' = l + (cost, items)) ∨ (b = false ∧ l' = l ∧ (0 < cost ∨ 0 < items))
    | l, .acquireStream, _, l' => l' = l
  notes l _ := l
  tolerates w := w ≠ .invalidRelease

variable {limits : Limits} {carrier : CarrierMode} {s s' : Session} {t : List Event} {e : ℤ × ℤ}

/-! ### Charges held -/

/-- The charges of a stream's queued writes. -/
def StreamState.held (st : StreamState) : ℕ × ℕ := (st.pendingWriteCost, st.pendingWriteItems)

def CarrierLane.held (l : CarrierLane) : ℕ × ℕ := l.down.held

/-- The charges that a session's queues, unacknowledged batches, lanes and streams hold. -/
def Session.held (s : Session) : ℕ × ℕ :=
  s.down.held + Table.total CarrierLane.held s.carrierLanes +
    Table.total StreamState.held s.streams

/-- The session's own counters. -/
def Session.pending (s : Session) : ℤ × ℤ := (s.pendingCost, s.pendingItems)

/-- The counters are what is held, and `e` in hand. -/
def Balanced (e : ℤ × ℤ) (s : Session) : Prop :=
  (s.pendingCost : ℤ) = s.held.1 + e.1 ∧ (s.pendingItems : ℤ) = s.held.2 + e.2

@[simp] theorem held_setPending (s : Session) (cost items notify : ℕ) :
    (s.setPending cost items notify).held = s.held := rfl

theorem held_delStream {id : ℕ} {st : StreamState} (hst : s.streams.get id = some st) :
    s.held = st.held + (s.delStream id).held := by
  have h := Table.total_eq_get_add_del StreamState.held s.streams hst
  show _ + _ + Table.total StreamState.held s.streams = st.held + (_ + _ + _)
  rw [h]
  exact add_left_comm _ _ _

theorem held_putStream {id : ℕ} {st : StreamState} (st' : StreamState)
    (hst : s.streams.get id = some st) :
    st.held + (s.putStream id st').held = st'.held + s.held := by
  have h := Table.total_put_of_get StreamState.held s.streams (w := st') hst
  show st.held + (s.down.held + Table.total CarrierLane.held s.carrierLanes +
    Table.total StreamState.held (s.streams.put id st')) = _
  rw [add_left_comm, h]
  exact add_left_comm _ _ _

theorem held_newStream {id : ℕ} {st : StreamState} (hst : s.streams.get id = none)
    (h0 : st.held = 0) : (s.putStream id st).held = s.held := by
  have h := Table.total_put_of_none StreamState.held s.streams st hst
  show s.down.held + Table.total CarrierLane.held s.carrierLanes +
    Table.total StreamState.held (s.streams.put id st) = _
  rw [h, h0, zero_add]
  rfl

/-! ### Sums over the queues -/

section

variable {M : Type} [AddCancelCommMonoid M] {f : Downlink → M}

/-- What the queues of a session come to: its own and those of its lanes. -/
def Session.overQueues (f : Downlink → M) (s : Session) : M :=
  f s.down + Table.total (fun l : CarrierLane => f l.down) s.carrierLanes

theorem overQueues_putLane {id : ℕ} {l : CarrierLane} (l' : CarrierLane)
    (hl : s.carrierLanes.get id = some l) :
    f l.down + (s.putLane id l').overQueues f = f l'.down + s.overQueues f := by
  have h := Table.total_put_of_get (fun l : CarrierLane => f l.down) s.carrierLanes (w := l') hl
  show f l.down + (f s.down + Table.total _ (s.carrierLanes.put id l')) = _
  rw [add_left_comm, h]
  exact add_left_comm _ _ _

theorem overQueues_newLane {id : ℕ} (l : CarrierLane) (hl : s.carrierLanes.get id = none) :
    (s.putLane id l).overQueues f = f l.down + s.overQueues f := by
  have h := Table.total_put_of_none (fun l : CarrierLane => f l.down) s.carrierLanes l hl
  show f s.down + Table.total _ (s.carrierLanes.put id l) = _
  rw [h]
  exact add_left_comm _ _ _

theorem overQueues_delLane {id : ℕ} {l : CarrierLane} (l' : CarrierLane)
    (hl : s.carrierLanes.get id = some l) :
    f l.down + (s.delLane id l').overQueues f = s.overQueues f := by
  have h := Table.total_eq_get_add_del (fun l : CarrierLane => f l.down) s.carrierLanes hl
  show f l.down + (f s.down + Table.total _ (s.carrierLanes.del id)) = f s.down + _
  rw [h]
  exact add_left_comm _ _ _

/-- Writing a downlink moves the sum by what it comes to more, if the reference is to one of
the queues that count. -/
theorem overQueues_setQueue {q : QueueRef} (d : Downlink)
    (hq : ∀ id object, q = .lane id object → s.attached id object ≠ none) :
    f (s.queue q) + (s.setQueue q d).overQueues f = f d + s.overQueues f := by
  cases q with
  | session =>
      show f s.down + (f d + _) = f d + (f s.down + _)
      exact add_left_comm _ _ _
  | lane id object =>
      obtain ⟨l, hl⟩ := Option.ne_none_iff_exists'.mp (hq id object rfl)
      obtain ⟨hget, rfl⟩ := Session.attached_eq_some.mp hl
      rw [Session.setQueue_of_get hget, Session.queue_of_get hget]
      exact overQueues_putLane { l with down := d } hget

/-- A lane that is gone comes to nothing. -/
theorem overQueues_setQueue_detached {q : QueueRef} (d : Downlink)
    (hq : ¬ ∀ id object, q = .lane id object → s.attached id object ≠ none) :
    (s.setQueue q d).overQueues f = s.overQueues f := by
  push Not at hq
  obtain ⟨id, object, rfl, ha⟩ := hq
  simp only [Session.setQueue, Session.modifyLane, ha]
  cases s.releasedLanes.get object <;> rfl

/-- Wherever it is, a downlink may be rewritten to one that comes to the same. -/
theorem overQueues_setQueue_same {q : QueueRef} {d : Downlink} (h : f d = f (s.queue q)) :
    (s.setQueue q d).overQueues f = s.overQueues f := by
  by_cases hq : ∀ id object, q = .lane id object → s.attached id object ≠ none
  · have hput := overQueues_setQueue (f := f) d hq
    rw [h] at hput
    exact add_left_cancel hput
  · exact overQueues_setQueue_detached d hq

theorem overQueues_modifyLane {id object : ℕ} {g : CarrierLane → CarrierLane}
    (hg : ∀ l, (g l).down = l.down) :
    (s.modifyLane id object g).overQueues f = s.overQueues f := by
  unfold Session.modifyLane
  cases ha : s.attached id object with
  | some l =>
      obtain ⟨hl, -⟩ := Session.attached_eq_some.mp ha
      have h := overQueues_putLane (f := f) (g l) hl
      rw [hg] at h
      exact add_left_cancel h
  | none => cases s.releasedLanes.get object <;> rfl

/-- Lanes that are dropped come to nothing. -/
theorem overQueues_drop (h0 : ∀ d : Downlink, f d.drop = 0) (lanes : Table ℕ CarrierLane) :
    Table.total (fun l : CarrierLane => f l.down) (lanes.mapValues CarrierLane.drop) = 0 := by
  apply Table.total_eq_zero
  intro id l hl
  rw [Table.get_mapValues] at hl
  obtain ⟨l₀, -, rfl⟩ := Option.map_eq_some_iff.mp hl
  exact h0 l₀.down

end

/-! ### What the queues hold -/

theorem setQueue_streams (s : Session) (q : QueueRef) (d : Downlink) :
    (s.setQueue q d).streams = s.streams := by
  obtain ⟨down, lanes, released, he⟩ := s.setQueue_eq q d
  rw [he]

theorem Session.held_split (s : Session) : s.held =
    s.overQueues Downlink.held + Table.total StreamState.held s.streams := rfl

/-- Only the queues differ. -/
theorem held_of_overQueues {a b : ℕ × ℕ} (hstreams : s'.streams = s.streams)
    (h : a + s'.overQueues Downlink.held = b + s.overQueues Downlink.held) :
    a + s'.held = b + s.held := by
  rw [Session.held_split, Session.held_split, hstreams, ← add_assoc, h, add_assoc]

theorem held_putLane {id : ℕ} {l : CarrierLane} (l' : CarrierLane)
    (hl : s.carrierLanes.get id = some l) :
    l.held + (s.putLane id l').held = l'.held + s.held :=
  held_of_overQueues rfl (overQueues_putLane l' hl)

theorem held_newLane {id : ℕ} {l : CarrierLane} (hl : s.carrierLanes.get id = none)
    (h0 : l.held = 0) : (s.putLane id l).held = s.held := by
  have h : 0 + (s.putLane id l).held = l.held + s.held :=
    held_of_overQueues rfl (by rw [overQueues_newLane l hl, zero_add]; rfl)
  rwa [h0, zero_add, zero_add] at h

theorem held_delLane {id : ℕ} {l : CarrierLane} (l' : CarrierLane)
    (hl : s.carrierLanes.get id = some l) : l.held + (s.delLane id l').held = s.held := by
  have h : l.held + (s.delLane id l').held = 0 + s.held :=
    held_of_overQueues rfl ((overQueues_delLane l' hl).trans (zero_add _).symm)
  rwa [zero_add] at h

/-- Writing a downlink moves the sum by what it holds more, if the reference is to one of the
queues that count. -/
theorem held_setQueue {q : QueueRef} (d : Downlink)
    (hq : ∀ id object, q = .lane id object → s.attached id object ≠ none) :
    (s.queue q).held + (s.setQueue q d).held = d.held + s.held :=
  held_of_overQueues (setQueue_streams s q d) (overQueues_setQueue d hq)

/-- A lane that is gone holds nothing that counts. -/
theorem held_setQueue_detached {q : QueueRef} (d : Downlink)
    (hq : ¬ ∀ id object, q = .lane id object → s.attached id object ≠ none) :
    (s.setQueue q d).held = s.held := by
  rw [Session.held_split, Session.held_split, setQueue_streams, overQueues_setQueue_detached d hq]

/-- Wherever it is, a downlink may be rewritten to one that holds the same. -/
theorem held_setQueue_same {q : QueueRef} {d : Downlink} (h : d.held = (s.queue q).held) :
    (s.setQueue q d).held = s.held := by
  rw [Session.held_split, Session.held_split, setQueue_streams, overQueues_setQueue_same h]

theorem held_modifyLane {id object : ℕ} {f : CarrierLane → CarrierLane}
    (hf : ∀ l, (f l).down = l.down) : (s.modifyLane id object f).held = s.held := by
  obtain ⟨_, _, he⟩ := s.modifyLane_eq id object f
  have hstreams : (s.modifyLane id object f).streams = s.streams := by rw [he]
  rw [Session.held_split, Session.held_split, hstreams, overQueues_modifyLane hf]

theorem total_drop (lanes : Table ℕ CarrierLane) :
    Table.total CarrierLane.held (lanes.mapValues CarrierLane.drop) = 0 :=
  overQueues_drop (f := Downlink.held) (fun _ => rfl) lanes

/-! ### The primitives -/

theorem Balanced.of_held (h : Balanced e s) (hheld : s'.held = s.held)
    (hpending : s'.pending = s.pending) : Balanced e s' := by
  simp only [Session.pending, Prod.mk.injEq] at hpending
  unfold Balanced at *
  rw [hheld, hpending.1, hpending.2]
  exact h

/-- What the observer may not see: nobody else touches the counters. -/
theorem setQueue_pending (s : Session) (q : QueueRef) (d : Downlink) :
    (s.setQueue q d).pending = s.pending := by
  obtain ⟨down, lanes, released, he⟩ := s.setQueue_eq q d
  rw [he]
  rfl

theorem modifyLane_pending (s : Session) (id object : ℕ) (f : CarrierLane → CarrierLane) :
    (s.modifyLane id object f).pending = s.pending := by
  obtain ⟨lanes, released, he⟩ := s.modifyLane_eq id object f
  rw [he]
  rfl

/-- Counters went up by what is now in hand. -/
theorem Balanced.charged (hb : Balanced e s) (cost items : ℕ) :
    Balanced (e.1 + cost, e.2 + items) (s.charge cost items) := by
  obtain ⟨hc, hi⟩ := hb
  constructor
  · show ((s.pendingCost + cost : ℕ) : ℤ) = s.held.1 + (e.1 + cost)
    omega
  · show ((s.pendingItems + items : ℕ) : ℤ) = s.held.2 + (e.2 + items)
    omega

/-- What was in hand is held now. -/
theorem Balanced.spent {cost items : ℕ} (hb : Balanced e s)
    (hheld : s'.held = (cost, items) + s.held) (hpending : s'.pending = s.pending) :
    Balanced (e.1 - cost, e.2 - items) s' := by
  obtain ⟨hc, hi⟩ := hb
  simp only [Session.pending, Prod.mk.injEq] at hpending
  unfold Balanced
  rw [hheld, hpending.1, hpending.2, hc, hi]
  simp only [Prod.fst_add, Prod.snd_add]
  constructor <;> omega

theorem reservePendingLocked_ledger (s : Session) (cost items : ℕ) (cls : PendingClass) :
    wp ledger (reservePendingLocked s cost items cls)
      (fun l r => l = r.1.pending ∧ (r = (s, false) ∨ r = (s.charge cost items, true)))
      s.pending := by
  unfold reservePendingLocked
  dsimp only
  split_ifs
  · exact ⟨rfl, .inl rfl⟩
  · refine ⟨.inl ⟨by omega, by omega⟩, ?_⟩
    rintro b l' (⟨rfl, rfl⟩ | ⟨rfl, rfl, -⟩)
    · exact ⟨by simp [Session.pending, Session.charge], .inr rfl⟩
    · exact ⟨rfl, .inl rfl⟩

/-- A session after a release of `cost` and `items`. -/
structure Released (s : Session) (cost items : ℕ) (s' : Session) : Prop where
  same : s.UpToPending s'
  cost : s'.pendingCost + cost = s.pendingCost
  items : s'.pendingItems + items = s.pendingItems

theorem releasePendingLocked_ledger {cost items : ℕ} (hc : cost ≤ s.pendingCost)
    (hi : items ≤ s.pendingItems) :
    wp ledger (releasePendingLocked s cost items)
      (fun l s' => l = s'.pending ∧ Released s cost items s') s.pending := by
  unfold releasePendingLocked
  split_ifs with hzero hbad
  · exact ⟨rfl, .refl s, by omega, by omega⟩
  · omega
  · refine ⟨.inr ⟨by omega, by omega, ?_, ?_⟩, ?_⟩
    · show (0 : ℤ) ≤ s.pendingCost + -cost
      omega
    · show (0 : ℤ) ≤ s.pendingItems + -items
      omega
    · rintro b l' (⟨rfl, rfl⟩ | ⟨rfl, rfl, hpos⟩)
      · refine ⟨?_, ⟨_, _, _, rfl⟩, ?_, ?_⟩
        · simp only [Session.pending, Session.discharge, Int.toNat_natCast, Prod.mk_add_mk]
          rw [Int.ofNat_sub hc, Int.ofNat_sub hi]
          rfl
        · show s.pendingCost - Int.toNat cost + cost = s.pendingCost
          omega
        · show s.pendingItems - Int.toNat items + items = s.pendingItems
          omega
      · omega

/-- What was held is given back: `s₂` is the session without the holder of the charges. -/
theorem Released.balanced {cost items : ℕ} {s₁ s₂ : Session} (h : Released s cost items s₁)
    (hb : Balanced e s) (hheld : s.held = (cost, items) + s₂.held)
    (hpending : s₂.pending = s₁.pending) : Balanced e s₂ := by
  obtain ⟨hc, hi⟩ := hb
  obtain ⟨-, hcost, hitems⟩ := h
  simp only [Session.pending, Prod.mk.injEq] at hpending
  rw [hheld] at hc hi
  simp only [Prod.fst_add, Prod.snd_add] at hc hi
  constructor <;> omega

/-- What is held can be released. -/
theorem Balanced.covers (hb : Balanced e s) (he : 0 ≤ e.1 ∧ 0 ≤ e.2) {cost items : ℕ}
    {rest : ℕ × ℕ} (hheld : s.held = (cost, items) + rest) :
    cost ≤ s.pendingCost ∧ items ≤ s.pendingItems := by
  obtain ⟨hc, hi⟩ := hb
  rw [hheld] at hc hi
  simp only [Prod.fst_add, Prod.snd_add] at hc hi
  constructor <;> omega

/-- The charges of a stream go back before it is deleted. -/
theorem releaseStreamWritesLocked_ledger {id : ℕ} {st : StreamState} (he : 0 ≤ e.1 ∧ 0 ≤ e.2)
    (hb : Balanced e s) (hst : s.streams.get id = some st) :
    wp ledger (releaseStreamWritesLocked s st)
      (fun l s' => l = s'.pending ∧ s.UpToPending s' ∧ Balanced e (s'.delStream id))
      s.pending := by
  have hheld : s.held = (st.pendingWriteCost, st.pendingWriteItems) + (s.delStream id).held :=
    held_delStream hst
  unfold releaseStreamWritesLocked
  split_ifs with hany
  · obtain ⟨hc, hi⟩ := hb.covers he hheld
    refine wp_mono (releasePendingLocked_ledger hc hi) ?_
    rintro l s' ⟨rfl, hrel⟩
    refine ⟨rfl, hrel.same, hrel.balanced hb ?_ rfl⟩
    obtain ⟨cost, items, notify, rfl⟩ := hrel.same
    exact hheld
  · simp only [not_or, not_not] at hany
    refine ⟨rfl, .refl s, hb.of_held ?_ rfl⟩
    rw [hheld, hany.1, hany.2]
    exact (zero_add _).symm

/-- The charges of a lane go back before it is dropped. -/
theorem releaseLaneLocked_ledger {id : ℕ} {lane : CarrierLane} (he : 0 ≤ e.1 ∧ 0 ≤ e.2)
    (hb : Balanced e s) (hl : s.carrierLanes.get id = some lane) :
    wp ledger (releaseLaneLocked s lane)
      (fun l r => l = r.1.pending ∧ s.UpToPending r.1 ∧ r.2 = lane.drop ∧
        Balanced e (r.1.delLane id r.2)) s.pending := by
  have hheld : s.held = lane.down.held + (s.delLane id lane.drop).held :=
    (held_delLane lane.drop hl).symm
  unfold releaseLaneLocked
  generalize lane.down.held = charges at hheld ⊢
  obtain ⟨cost, items⟩ := charges
  dsimp only
  split_ifs with hany
  · obtain ⟨hc, hi⟩ := hb.covers he hheld
    refine wp_seq (releasePendingLocked_ledger hc hi) ?_
    rintro l s' ⟨rfl, hrel⟩
    refine ⟨rfl, hrel.same, rfl, hrel.balanced hb ?_ rfl⟩
    obtain ⟨cost, items, notify, rfl⟩ := hrel.same
    exact hheld
  · simp only [not_or, not_not] at hany
    refine ⟨rfl, .refl s, rfl, hb.of_held ?_ rfl⟩
    rw [hheld, hany.1, hany.2]
    exact (zero_add _).symm

/-! ### Queueing -/

theorem queueRef_attached {id : ℕ} {q : QueueRef} (hq : s.queueRef id = some q) :
    ∀ i object, q = .lane i object → s.attached i object ≠ none := by
  rintro i object rfl
  unfold Session.queueRef at hq
  split_ifs at hq
  · obtain ⟨l, hl, he⟩ := Option.map_eq_some_iff.mp hq
    cases he
    rw [Session.attached_eq_some.mpr ⟨hl, rfl⟩]
    simp
  · cases hq

/-- A frame is charged for and goes into a queue that holds it. -/
theorem charge_setQueue {q : QueueRef} {d : Downlink} {cost items : ℕ} (hb : Balanced e s)
    (hq : ∀ i object, q = .lane i object → s.attached i object ≠ none)
    (hd : d.held = (s.queue q).held + (cost, items)) :
    Balanced e ((s.charge cost items).setQueue q d) := by
  have hq' : ∀ i object, q = .lane i object → (s.charge cost items).attached i object ≠ none := hq
  have hput := held_setQueue d hq'
  have hsame : (s.charge cost items).queue q = s.queue q := by cases q <;> rfl
  rw [hsame, hd, add_assoc] at hput
  have hheld : ((s.charge cost items).setQueue q d).held = (cost, items) + s.held :=
    add_left_cancel hput
  obtain ⟨hc, hi⟩ := hb.charged cost items
  have hpending := setQueue_pending (s.charge cost items) q d
  simp only [Session.pending, Prod.mk.injEq] at hpending
  unfold Balanced
  rw [hheld, hpending.1, hpending.2, hc, hi]
  constructor
  · show (s.held.1 : ℤ) + (e.1 + cost) = ((cost + s.held.1 : ℕ) : ℤ) + e.1
    omega
  · show (s.held.2 : ℤ) + (e.2 + items) = ((items + s.held.2 : ℕ) : ℤ) + e.2
    omega

theorem extend_held {d : Downlink} {limits : Limits} {ty : FrameType} {id : ℕ}
    {payload : Bytes} {last : QueuedFrame} (h : d.extendable limits ty id payload = some last) :
    ({ d with pendingFrames := d.pendingFrames.dropLast ++ [last.extend payload] } :
      Downlink).held = d.held + (payload.length, 0) := by
  unfold Downlink.held
  conv_rhs => rw [(Downlink.extendable_eq h).1]
  simp only [List.map_append, List.map_cons, List.map_nil, List.sum_append, List.sum_cons,
    List.sum_nil, List.length_append, List.length_cons, List.length_nil, QueuedFrame.extend,
    Prod.mk_add_mk, Prod.mk.injEq]
  constructor <;> omega

theorem push_held {d d' : Downlink} (f : QueuedFrame)
    (hframes : d'.pendingFrames = d.pendingFrames ++ [f])
    (hcost : d'.unackedCost = d.unackedCost) (hitems : d'.unackedItems = d.unackedItems) :
    d'.held = d.held + (f.cost, 1) := by
  unfold Downlink.held
  rw [hframes, hcost, hitems]
  simp only [List.map_append, List.map_cons, List.map_nil, List.sum_append, List.sum_cons,
    List.sum_nil, List.length_append, List.length_cons, List.length_nil, Prod.mk_add_mk,
    Prod.mk.injEq]
  constructor <;> omega

theorem setAmount_held {d : Downlink} {index : ℕ} {f : QueuedFrame}
    (hf : d.pendingFrames[index]? = some f) (total : ℕ) :
    ({ d with pendingFrames := d.pendingFrames.set index (f.setAmount total) } :
      Downlink).held = d.held := by
  obtain ⟨hlt, rfl⟩ := List.getElem?_eq_some_iff.mp hf
  have hsame : (d.pendingFrames.map (·.cost)).set index d.pendingFrames[index].cost =
      d.pendingFrames.map (·.cost) := by
    have h := List.set_getElem_self
      (show index < (d.pendingFrames.map QueuedFrame.cost).length by simpa using hlt)
    rwa [List.getElem_map] at h
  unfold Downlink.held
  simp only [List.length_set, List.map_set]
  exact congrArg (fun l : List ℕ => (d.unackedCost + l.sum, _)) hsame

theorem pushFrame_balanced {q : QueueRef} {ty : FrameType} {id : ℕ} {payload : Bytes}
    (hb : Balanced e s)
    (hq : ∀ i object, q = .lane i object → s.attached i object ≠ none) :
    wp ledger (pushFrame s q ty id payload)
      (fun l r => l = r.1.pending ∧ Balanced e r.1) s.pending := by
  unfold pushFrame
  dsimp only
  cases hext : (s.queue q).extendable s.limits ty id payload with
  | some last =>
      refine wp_seq (reservePendingLocked_ledger s _ _ _) ?_
      rintro l r ⟨rfl, rfl | rfl⟩
      · exact ⟨rfl, hb⟩
      · exact ⟨(setQueue_pending _ q _).symm, charge_setQueue hb hq (extend_held hext)⟩
  | none =>
      refine wp_seq (reservePendingLocked_ledger s _ _ _) ?_
      rintro l r ⟨rfl, rfl | rfl⟩
      · exact ⟨rfl, hb⟩
      · have hpush := fun windows => charge_setQueue (e := e) hb hq (@push_held (s.queue q)
          ({ s.queue q with
            pendingFrames := (s.queue q).pendingFrames ++ [(⟨encode ty id payload, ty, id,
              (encode ty id payload).length + queueItemCost⟩ : QueuedFrame)]
            pendingWindows := windows } : Downlink).signal _ rfl rfl rfl)
        simp only [if_true, announce_bind, wp_note]
        split_ifs with hw
        · cases hpw : (s.queue q).pendingWindows with
          | none => rintro ⟨⟩
          | some w => exact ⟨(setQueue_pending _ q _).symm, hpush _⟩
        · exact ⟨(setQueue_pending _ q _).symm, hpush _⟩

theorem queueOn_balanced {q : QueueRef} {ty : FrameType} {id : ℕ} {payload : Bytes}
    (hb : Balanced e s)
    (hq : ∀ i object, q = .lane i object → s.attached i object ≠ none) :
    wp ledger (queueOn s q ty id payload)
      (fun l r => l = r.1.pending ∧ Balanced e r.1) s.pending := by
  unfold queueOn
  dsimp only
  cases hidx : (s.queue q).windowIndex ty id with
  | none => exact pushFrame_balanced hb hq
  | some index =>
      dsimp only
      cases hf : (s.queue q).pendingFrames[index]? with
      | none => rintro ⟨⟩
      | some f =>
          dsimp only
          split_ifs with htotal
          · exact ⟨(setQueue_pending _ q _).symm,
              hb.of_held (held_setQueue_same (setAmount_held hf _)) (setQueue_pending s q _)⟩
          · exact pushFrame_balanced hb hq

theorem queueFrameLocked_balanced (hb : Balanced e s) (ty : FrameType) (id : ℕ)
    (payload : Bytes) :
    wp ledger (queueFrameLocked s ty id payload)
      (fun l r => l = r.1.pending ∧ Balanced e r.1) s.pending := by
  unfold queueFrameLocked
  split_ifs with hu
  · unfold queueLaneFrameLocked
    cases hl : s.carrierLanes.get id with
    | none => exact ⟨rfl, hb⟩
    | some lane =>
        have hq : s.queueRef id = some (.lane id lane.object) := by
          rw [Session.queueRef, if_pos hu, hl]
          rfl
        exact queueOn_balanced hb (queueRef_attached hq)
  · exact queueOn_balanced hb (by simp)

/-! ### Tombstones and closing -/

theorem signalLane_balanced (hb : Balanced e s) (id : ℕ) : Balanced e (s.signalLane id) := by
  unfold Session.signalLane
  cases hl : s.carrierLanes.get id with
  | none => exact hb
  | some lane =>
      have h := @held_putLane s id lane { lane with down := lane.down.signal } hl
      exact hb.of_held (add_left_cancel h) rfl

theorem signalLane_pending (s : Session) (id : ℕ) : (s.signalLane id).pending = s.pending := by
  unfold Session.signalLane
  cases s.carrierLanes.get id <;> rfl

theorem evictOldest_balanced (he : 0 ≤ e.1 ∧ 0 ≤ e.2) (hb : Balanced e s) (id : ℕ) :
    wp ledger (evictOldest s id) (fun l s' => l = s'.pending ∧ Balanced e s') s.pending := by
  unfold evictOldest
  simp only [announce_bind, wp_note]
  cases hl : s.carrierLanes.get (s.closedOrder.getD s.closedStart 0) with
  | none => exact ⟨rfl, hb.of_held rfl rfl⟩
  | some lane =>
      have hb' : Balanced e { s with
        closedStreams := s.closedStreams.erase (s.closedOrder.getD s.closedStart 0) } :=
        hb.of_held rfl rfl
      refine wp_seq (releaseLaneLocked_ledger he hb' hl) ?_
      rintro l ⟨s₁, lane₁⟩ ⟨rfl, -, rfl, hb₁⟩
      exact ⟨rfl, hb₁.of_held rfl rfl⟩

theorem rememberClosedLocked_balanced (he : 0 ≤ e.1 ∧ 0 ≤ e.2) (hb : Balanced e s) (id : ℕ) :
    wp ledger (rememberClosedLocked s id)
      (fun l s' => l = s'.pending ∧ Balanced e s') s.pending := by
  have hsignal : ∀ s', Balanced e s' → wp ledger (pure (s'.signalLane id))
      (fun l s' => l = s'.pending ∧ Balanced e s') s'.pending :=
    fun s' hb' => ⟨(signalLane_pending s' id).symm, signalLane_balanced hb' id⟩
  unfold rememberClosedLocked
  split_ifs
  · exact ⟨rfl, hb⟩
  · dsimp only
    simp only [announce_bind, wp_note]
    split_ifs
    · exact hsignal _ (hb.of_held rfl rfl)
    · have hb' : Balanced e { s with closedStreams := insert id s.closedStreams } :=
        hb.of_held rfl rfl
      refine wp_seq (evictOldest_balanced he hb' id) ?_
      rintro l s₁ ⟨rfl, hb₁⟩
      exact hsignal s₁ hb₁

/-- Closing forgets all charges, and gives back what the counters say. -/
theorem closeLocked_balanced (hb : Balanced 0 s) :
    wp ledger (closeLocked s) (fun l s' => l = s'.pending ∧ Balanced 0 s') s.pending := by
  have hheld : ∀ s' : Session, s'.down = s.down.drop → s'.streams = Table.nil →
      s'.carrierLanes = s.carrierLanes.mapValues CarrierLane.drop → s'.pending = 0 →
      Balanced 0 s' := by
    intro s' hdown hstreams hlanes hpending
    have h0 : s'.held = 0 := by
      rw [Session.held, hdown, hstreams, hlanes, total_drop]
      rfl
    obtain ⟨hc, hi⟩ := Prod.mk.inj hpending
    refine ⟨?_, ?_⟩
    · rw [hc, h0]; rfl
    · rw [hi, h0]; rfl
  unfold closeLocked
  split_ifs with hclosed
  · exact ⟨rfl, hb⟩
  · simp only [announce_bind, wp_note]
    split_ifs with hany
    · refine ⟨.inr ⟨by simp, by simp, ?_, ?_⟩, ?_⟩
      · show (0 : ℤ) ≤ s.pendingCost + -s.pendingCost
        omega
      · show (0 : ℤ) ≤ s.pendingItems + -s.pendingItems
        omega
      · rintro b l' (⟨rfl, rfl⟩ | ⟨rfl, rfl, hpos⟩)
        · refine ⟨?_, hheld _ rfl rfl rfl rfl⟩
          show s.pending + (-(s.pendingCost : ℤ), -(s.pendingItems : ℤ)) = 0
          simp [Session.pending]
        · omega
    · simp only [not_or, not_not] at hany
      have h0 : s.pending = 0 := by simp [Session.pending, hany]
      exact ⟨rfl, hheld _ rfl rfl rfl h0⟩

end TproxyServer
