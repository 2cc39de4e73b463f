import TproxyServer.Places

/-! # Queues and who may write to them

The lane objects of a session are distinct, so a reference leads to one downlink at a time.
What is no poll leaves the waiting polls alone: it keeps `downActive`, `superseded` and the
cursor of every queue, and where it makes a queue worth reading it leaves a token in `notify`. -/

namespace TproxyServer

open Interaction Prog

variable {limits : Limits} {carrier : CarrierMode} {s s' s'' : Session} {t es : List Event}
  {sha256 : Bytes → Bytes} {scope : Scope}

/-! ### Lane objects -/

/-- The lane object behind a reference. -/
def QueueRef.object : QueueRef → Option ℕ
  | .session => none
  | .lane _ object => some object

/-- The lane objects are distinct, and older than the next one. -/
structure Session.Objects (s : Session) : Prop where
  lanes : ∀ id l, s.carrierLanes.get id = some l → l.object < s.nextObject
  released : ∀ o, s.releasedLanes.get o ≠ none → o < s.nextObject
  apart : ∀ id l, s.carrierLanes.get id = some l → s.releasedLanes.get l.object = none
  once : ∀ id id' l l', s.carrierLanes.get id = some l → s.carrierLanes.get id' = some l' →
    l.object = l'.object → id = id'

namespace Session.Objects

/-- The lanes are written, but neither added nor removed. -/
theorem of_map {f : ℕ → CarrierLane → CarrierLane} (h : s.Objects)
    (hlanes : ∀ id, s'.carrierLanes.get id = (s.carrierLanes.get id).map (f id))
    (hobject : ∀ id l, (f id l).object = l.object)
    (hreleased : ∀ o, s'.releasedLanes.get o ≠ none → s.releasedLanes.get o ≠ none)
    (hnext : s.nextObject ≤ s'.nextObject) : s'.Objects := by
  have hold : ∀ id l', s'.carrierLanes.get id = some l' →
      ∃ l, s.carrierLanes.get id = some l ∧ l.object = l'.object := by
    intro id l' hl'
    rw [hlanes] at hl'
    obtain ⟨l, hl, rfl⟩ := Option.map_eq_some_iff.mp hl'
    exact ⟨l, hl, (hobject id l).symm⟩
  constructor
  · intro id l' hl'
    obtain ⟨l, hl, ho⟩ := hold id l' hl'
    have hlt := h.lanes id l hl
    omega
  · intro o ho
    have hlt := h.released o (hreleased o ho)
    omega
  · intro id l' hl'
    obtain ⟨l, hl, ho⟩ := hold id l' hl'
    by_contra hn
    rw [← ho] at hn
    exact hreleased _ hn (h.apart id l hl)
  · intro id id' l₁ l₂ h₁ h₂ ho
    obtain ⟨l, hl, ho₁⟩ := hold id l₁ h₁
    obtain ⟨l', hl', ho₂⟩ := hold id' l₂ h₂
    exact h.once id id' l l' hl hl' (ho₁.trans (ho.trans ho₂.symm))

/-- Nothing about the lanes changes. -/
theorem of_eq (h : s.Objects) (hlanes : s'.carrierLanes = s.carrierLanes)
    (hreleased : s'.releasedLanes = s.releasedLanes) (hnext : s.nextObject ≤ s'.nextObject) :
    s'.Objects := by
  apply h.of_map (f := fun _ l => l) _ (fun _ _ => rfl) (by simp [hreleased]) hnext
  intro id
  rw [hlanes]
  simp

theorem modifyLane (h : s.Objects) (id object : ℕ) {f : CarrierLane → CarrierLane}
    (hobject : ∀ l, (f l).object = l.object) : (s.modifyLane id object f).Objects := by
  have hlanes := fun i => s.modifyLane_lanes id object i f
  have hreleased := fun i => s.modifyLane_released id object i f
  obtain ⟨lanes, released, he⟩ := s.modifyLane_eq id object f
  rw [he] at hlanes hreleased ⊢
  refine h.of_map hlanes ?_ ?_ le_rfl
  · intro i l
    split_ifs
    · exact hobject l
    · rfl
  · intro o ho
    rw [hreleased] at ho
    split_ifs at ho
    · simpa using ho
    · exact ho

theorem setQueue (h : s.Objects) (q : QueueRef) (d : Downlink) : (s.setQueue q d).Objects := by
  cases q with
  | session => exact h.of_eq rfl rfl le_rfl
  | lane id object => exact h.modifyLane id object fun _ => rfl

theorem putLane (h : s.Objects) {id : ℕ} {l l' : CarrierLane}
    (hl : s.carrierLanes.get id = some l) (ho : l'.object = l.object) :
    (s.putLane id l').Objects := by
  refine h.of_map (f := fun i l₁ => if i = id then { l' with object := l₁.object } else l₁)
    ?_ ?_ (fun _ hn => hn) le_rfl
  · intro i
    rw [Session.putLane_lanes, Table.get_put]
    split_ifs with hi
    · rw [hi, hl, Option.map_some, ← ho]
    · simp
  · intro i l₁
    split_ifs <;> rfl

/-- A lane is taken out of `carrierLanes`, its object kept or dropped. -/
theorem release (h : s.Objects) (id : ℕ) (hlanes : s'.carrierLanes = s.carrierLanes.del id)
    (hnext : s'.nextObject = s.nextObject)
    (hkept : ∀ o, s'.releasedLanes.get o ≠ none → s.releasedLanes.get o ≠ none ∨
      ∃ l, s.carrierLanes.get id = some l ∧ l.object = o) : s'.Objects := by
  have hold : ∀ i l, s'.carrierLanes.get i = some l → i ≠ id ∧ s.carrierLanes.get i = some l := by
    intro i l hl
    rw [hlanes, Table.get_del] at hl
    split_ifs at hl with hi
    exact ⟨hi, hl⟩
  constructor
  · intro i l hl
    have hlt := h.lanes i l (hold i l hl).2
    omega
  · intro o ho
    rw [hnext]
    rcases hkept o ho with ho | ⟨l, hl, rfl⟩
    · exact h.released o ho
    · exact h.lanes id l hl
  · intro i l hl
    obtain ⟨hi, hl⟩ := hold i l hl
    by_contra hn
    rcases hkept _ hn with hn | ⟨l', hl', ho⟩
    · exact hn (h.apart i l hl)
    · exact hi (h.once i id l l' hl hl' ho.symm)
  · intro i j l l' hl hl' ho
    exact h.once i j l l' (hold i l hl).2 (hold j l' hl').2 ho

/-- A lane is created. -/
theorem create (h : s.Objects) (id : ℕ) : (s.createLane id).1.Objects := by
  have hget : ∀ i, (s.createLane id).1.carrierLanes.get i =
      if i = id then some (s.createLane id).2 else s.carrierLanes.get i := by
    intro i
    exact Table.get_put ..
  have hobject : (s.createLane id).2.object = s.nextObject := rfl
  have hnext : (s.createLane id).1.nextObject = s.nextObject + 1 := rfl
  constructor
  · intro i l hl
    rw [hget] at hl
    split_ifs at hl
    · cases hl
      omega
    · have hlt := h.lanes i l hl
      omega
  · intro o ho
    have hlt : o < s.nextObject := h.released o ho
    omega
  · intro i l hl
    show s.releasedLanes.get l.object = none
    rw [hget] at hl
    split_ifs at hl
    · cases hl
      by_contra hn
      have hlt := h.released _ hn
      omega
    · exact h.apart i l hl
  · intro i j l l' hl hl' ho
    rw [hget] at hl hl'
    split_ifs at hl hl' with hi hj hj
    · exact hi.trans hj.symm
    · cases hl
      have hlt := h.lanes j l' hl'
      omega
    · cases hl'
      have hlt := h.lanes i l hl
      omega
    · exact h.once i j l l' hl hl' ho

end Session.Objects

/-- Changes keep the lane objects distinct. -/
theorem Change.objects {σ σ' : Traced} (h : Change scope σ σ') (ho : σ.session.Objects) :
    σ'.session.Objects := by
  have hqueue : ∀ {s s' : Session} {ty : FrameType} {i : ℕ} {payload : Bytes}
      {es : List Event} {ok : Bool}, QueueResult s ty i payload es s' ok → s.Objects →
      s'.Objects := by
    intro s s' ty i payload es ok h ho
    cases h with
    | refused => exact ho
    | @accepted q d cost items notify _ _ =>
        have hpending : (s.setPending cost items notify).Objects := ho.of_eq rfl rfl le_rfl
        exact hpending.setQueue q d
  cases h with
  | pending => exact ho.of_eq rfl rfl le_rfl
  | silent => exact ho
  | attachSocket => exact ho.of_eq rfl rfl le_rfl
  | openStream => exact ho.of_eq rfl rfl (Nat.le_succ _)
  | stream => exact ho.of_eq rfl rfl le_rfl
  | drained _ _ _ _ _ _ h _ => exact hqueue h (ho.of_eq rfl rfl le_rfl)
  | read _ _ _ _ h _ => exact hqueue h (ho.of_eq rfl rfl le_rfl)
  | queueClose _ _ _ h _ _ _ => exact hqueue h ho
  | endStream => exact ho.of_eq rfl rfl le_rfl
  | rememberRoom => exact ho.of_eq rfl rfl le_rfl
  | @rememberFull s t id old _ _ _ _ _ _ =>
      refine ho.release old rfl rfl fun o hn => ?_
      dsimp only at hn ⊢
      cases hl : s.carrierLanes.get old with
      | none =>
          rw [hl] at hn
          exact .inl hn
      | some l =>
          rw [hl] at hn
          dsimp only at hn
          rw [Table.get_put] at hn
          split_ifs at hn with hlo
          · exact .inr ⟨l, rfl, hlo.symm⟩
          · exact .inl hn
  | createLane => exact ho.create _
  | touchLane hl hobject _ _ _ _ => exact ho.putLane hl hobject
  | @dropLane s t id l hl _ _ _ =>
      refine ho.release id rfl rfl fun o hn => ?_
      change (s.releasedLanes.put l.object l.drop).get o ≠ none at hn
      rw [Table.get_put] at hn
      split_ifs at hn with hlo
      · exact .inr ⟨l, hl, hlo.symm⟩
      · exact .inl hn
  | closeChannel => exact ho.of_eq rfl rfl le_rfl
  | newObject => exact ho.of_eq rfl rfl (Nat.le_succ _)
  | attend => exact ho.setQueue _ _
  | acknowledge => exact ho.setQueue _ _
  | deliver => exact ho.setQueue _ _
  | close =>
      refine ho.of_map (f := fun _ => CarrierLane.drop) ?_ (fun _ _ => rfl) (fun _ hn => hn) le_rfl
      intro id
      exact Table.get_mapValues ..
  | batch => exact ho
  | uplink => exact ho.of_eq rfl rfl le_rfl
  | laneUplink _ id object f hobject _ _ => exact ho.modifyLane id object hobject

/-- The lane objects of a reachable session are distinct. -/
theorem Reachable.objects {σ : Traced} (h : Reachable sha256 limits carrier σ) :
    σ.session.Objects := by
  refine h.invariant (I := fun τ => τ.session.Objects) ?_ fun hc _ => hc.objects
  unfold newSession
  split_ifs with hmode
  · have hget : ∀ id l, (Table.nil.put 0 { object := 0 } : Table ℕ CarrierLane).get id = some l →
        id = 0 ∧ l.object = 0 := by
      intro id l hl
      rw [Table.get_put] at hl
      split_ifs at hl with hid
      · cases hl
        exact ⟨hid, rfl⟩
      · cases hl
    constructor
    · intro id l hl
      rw [(hget id l hl).2]
      exact Nat.zero_lt_one
    · exact fun o ho => absurd rfl ho
    · exact fun id l hl => rfl
    · intro id id' l l' hl hl' _
      rw [(hget id l hl).1, (hget id' l' hl').1]
  · constructor
    · exact fun id l hl => by cases hl
    · exact fun o ho => absurd rfl ho
    · exact fun id l hl => rfl
    · exact fun id id' l l' hl => by cases hl

/-! ### Where a reference leads -/

theorem Session.attached_setQueue (q : QueueRef) (d : Downlink) (i o : ℕ) :
    (s.setQueue q d).attached i o =
      (s.attached i o).map fun l => if q = .lane i o then { l with down := d } else l := by
  unfold Session.attached
  rw [s.setQueue_lanes]
  cases hl : s.carrierLanes.get i with
  | none => rfl
  | some l =>
      by_cases ho : l.object = o
      · subst ho
        by_cases hq : q = .lane i l.object <;> simp [hq, Option.filter]
      · by_cases hq : q = .lane i l.object <;> simp [hq, ho, Option.filter]

theorem Session.released_setQueue (q : QueueRef) (d : Downlink) (o : ℕ) :
    ((s.setQueue q d).releasedLanes.get o = none ↔ s.releasedLanes.get o = none) ∧
      (q.object ≠ some o → (s.setQueue q d).releasedLanes.get o = s.releasedLanes.get o) := by
  cases q with
  | session => exact ⟨Iff.rfl, fun _ => rfl⟩
  | lane id object =>
      rw [Session.setQueue, Session.modifyLane_released]
      constructor
      · split_ifs <;> simp
      · intro ho
        rw [if_neg]
        rintro ⟨-, rfl⟩
        exact ho rfl

theorem Session.hasQueue_setQueue (q q' : QueueRef) (d : Downlink) :
    (s.setQueue q d).HasQueue q' ↔ s.HasQueue q' := by
  cases q' with
  | session => exact Iff.rfl
  | lane i o =>
      unfold Session.HasQueue
      dsimp only
      rw [Session.attached_setQueue, Ne, Ne, (Session.released_setQueue q d o).1]
      simp

/-- A stored lane object is not among the released ones. -/
theorem Session.Objects.released_none (h : s.Objects) {i o : ℕ} (ha : s.attached i o ≠ none) :
    s.releasedLanes.get o = none := by
  obtain ⟨l, hl⟩ := Option.ne_none_iff_exists'.mp ha
  obtain ⟨hget, rfl⟩ := Session.attached_eq_some.mp hl
  exact h.apart i l hget

theorem Session.Objects.attached_once (h : s.Objects) {i j o : ℕ} (hi : s.attached i o ≠ none)
    (hj : s.attached j o ≠ none) : i = j := by
  obtain ⟨l, hl⟩ := Option.ne_none_iff_exists'.mp hi
  obtain ⟨l', hl'⟩ := Option.ne_none_iff_exists'.mp hj
  obtain ⟨hget, ho⟩ := Session.attached_eq_some.mp hl
  obtain ⟨hget', ho'⟩ := Session.attached_eq_some.mp hl'
  exact h.once i j l l' hget hget' (ho.trans ho'.symm)

/-- Two references to one object lead to one downlink. -/
theorem Session.Objects.queue_eq (h : s.Objects) {q q' : QueueRef} (hq : s.HasQueue q)
    (hq' : s.HasQueue q') (ho : q.object = q'.object) : s.queue q = s.queue q' := by
  cases q with
  | session =>
      cases q' with
      | session => rfl
      | lane j o => cases ho
  | lane i o =>
      cases q' with
      | session => cases ho
      | lane j o' =>
          cases ho
          by_cases hi : s.attached i o = none
          · by_cases hj : s.attached j o = none
            · simp [Session.queue, hi, hj]
            · exact absurd (h.released_none hj) (hq.resolve_left (by simp [hi]))
          · by_cases hj : s.attached j o = none
            · exact absurd (h.released_none hi) (hq'.resolve_left (by simp [hj]))
            · rw [h.attached_once hi hj]

/-- What a write to a queue leaves in the queues. -/
theorem Session.Objects.queue_setQueue (h : s.Objects) {q q' : QueueRef} (d : Downlink)
    (hq : s.HasQueue q) (hq' : s.HasQueue q') :
    (s.setQueue q d).queue q' = if q.object = q'.object then d else s.queue q' := by
  by_cases ho : q.object = q'.object
  · rw [if_pos ho]
    have hset := h.setQueue q d
    have hsame := hset.queue_eq ((s.hasQueue_setQueue q q' d).mpr hq') (hq.setQueue d).1 ho.symm
    exact hsame.trans (hq.setQueue d).2
  · rw [if_neg ho]
    cases q' with
    | session =>
        cases q with
        | session => exact absurd rfl ho
        | lane i o =>
            obtain ⟨lanes, released, he⟩ :=
              s.modifyLane_eq i o fun l => { l with down := d }
            show (s.modifyLane i o _).down = s.down
            rw [he]
    | lane j o =>
        have hne : ∀ i, q ≠ .lane i o := by
          rintro i rfl
          exact ho rfl
        unfold Session.queue
        dsimp only
        rw [Session.attached_setQueue, (Session.released_setQueue q d o).2 ho]
        cases ha : s.attached j o <;> simp [hne]

theorem Session.queue_of_not_hasQueue {q : QueueRef} (h : ¬ s.HasQueue q) : s.queue q = {} :=
  (Session.setQueue_of_not_hasQueue h {}).2

/-! ### What is no poll -/

/-- The queue is left to its polls, and what there is to read comes with a token. -/
structure Downlink.Roused (d d' : Downlink) : Prop where
  active : d'.downActive = d.downActive
  superseded : d'.superseded = d.superseded
  cursor : d'.downCursor = d.downCursor
  token : d.notify = true → d'.notify = true
  frames : d'.pendingFrames ≠ [] → d.pendingFrames ≠ [] ∨ d'.notify = true

namespace Downlink.Roused

variable {d d' d'' : Downlink}

theorem refl (d : Downlink) : d.Roused d := ⟨rfl, rfl, rfl, id, .inl⟩

theorem trans (h : d.Roused d') (h' : d'.Roused d'') : d.Roused d'' where
  active := h'.active.trans h.active
  superseded := h'.superseded.trans h.superseded
  cursor := h'.cursor.trans h.cursor
  token hn := h'.token (h.token hn)
  frames hf := (h'.frames hf).elim (fun hf => (h.frames hf).imp_right h'.token) .inr

/-- A token is left. -/
theorem of_token (hactive : d'.downActive = d.downActive)
    (hsuperseded : d'.superseded = d.superseded)
    (hcursor : d'.downCursor = d.downCursor) (hnotify : d'.notify = true) : d.Roused d' :=
  ⟨hactive, hsuperseded, hcursor, fun _ => hnotify, fun _ => .inr hnotify⟩

theorem drop (d : Downlink) : d.Roused d.drop := of_token rfl rfl rfl rfl

theorem enqueue {ty : FrameType} {id : ℕ} {payload : Bytes}
    (h : Enqueue limits d ty id payload d') :
    d.Roused d' := by
  cases h <;> exact of_token rfl rfl rfl rfl

end Downlink.Roused

/-- All queues are left to their polls. -/
structure Rouses (s s' : Session) : Prop where
  kept : ∀ q, s.HasQueue q → s'.HasQueue q ∧ (s.queue q).Roused (s'.queue q)
  /-- A reference that led nowhere finds an object that was released, or a new one. -/
  moved : ∀ q, ¬ s.HasQueue q → s'.HasQueue q →
    (∃ q₀, q₀.object = q.object ∧ s.HasQueue q₀ ∧ (s.queue q₀).Roused (s'.queue q)) ∨
      (s'.queue q).superseded = none ∧ (s'.queue q).downActive = false
  channels : s'.closedChannels = s.closedChannels
  next : s.nextObject ≤ s'.nextObject
  closed : s.closed = true → s'.closed = true
  closes : s'.closed = true → s.closed = true ∨ s'.down.notify = true

namespace Rouses

theorem trans (h : Rouses s s') (h' : Rouses s' s'') : Rouses s s'' where
  kept q hq := by
    obtain ⟨hq', hr⟩ := h.kept q hq
    obtain ⟨hq'', hr'⟩ := h'.kept q hq'
    exact ⟨hq'', hr.trans hr'⟩
  moved q hq hq'' := by
    by_cases hq' : s'.HasQueue q
    · have hr' := (h'.kept q hq').2
      rcases h.moved q hq hq' with ⟨q₀, ho, hq₀, hr⟩ | ⟨hsuperseded, hactive⟩
      · exact .inl ⟨q₀, ho, hq₀, hr.trans hr'⟩
      · exact .inr ⟨hr'.superseded.trans hsuperseded, hr'.active.trans hactive⟩
    · rcases h'.moved q hq' hq'' with ⟨q₁, ho₁, hq₁, hr'⟩ | hnew
      · by_cases hq₀ : s.HasQueue q₁
        · exact .inl ⟨q₁, ho₁, hq₀, (h.kept q₁ hq₀).2.trans hr'⟩
        · rcases h.moved q₁ hq₀ hq₁ with ⟨q₀, ho, hq₀, hr⟩ | ⟨hsuperseded, hactive⟩
          · exact .inl ⟨q₀, ho.trans ho₁, hq₀, hr.trans hr'⟩
          · exact .inr ⟨hr'.superseded.trans hsuperseded, hr'.active.trans hactive⟩
      · exact .inr hnew
  channels := h'.channels.trans h.channels
  next := h.next.trans h'.next
  closed hc := h'.closed (h.closed hc)
  closes hc := (h'.closes hc).elim
    (fun hc => (h.closes hc).imp_right fun hn => (h'.kept .session trivial).2.token hn) .inr

/-- The same references lead to queues. -/
theorem of_kept (hhas : ∀ q, s'.HasQueue q → s.HasQueue q)
    (hkept : ∀ q, s.HasQueue q → s'.HasQueue q ∧ (s.queue q).Roused (s'.queue q))
    (hchannels : s'.closedChannels = s.closedChannels) (hnext : s.nextObject ≤ s'.nextObject)
    (hclosed : s'.closed = s.closed ∨ s'.closed = true ∧ s'.down.notify = true) :
    Rouses s s' where
  kept := hkept
  moved q hq hq' := absurd (hhas q hq') hq
  channels := hchannels
  next := hnext
  closed hc := hclosed.elim (fun he => he.trans hc) (fun h => h.1)
  closes hc := hclosed.elim (fun he => .inl (he.symm.trans hc)) fun h => .inr h.2

/-- The lanes are written, but for their queues. -/
theorem of_map {f : ℕ → CarrierLane → CarrierLane} {g : CarrierLane → CarrierLane}
    (hdown : s'.down = s.down)
    (hlanes : ∀ id, s'.carrierLanes.get id = (s.carrierLanes.get id).map (f id))
    (hobject : ∀ id l, (f id l).object = l.object) (hf : ∀ id l, (f id l).down = l.down)
    (hreleased : ∀ o, s'.releasedLanes.get o = (s.releasedLanes.get o).map g ∨
      s'.releasedLanes.get o = s.releasedLanes.get o) (hg : ∀ l, (g l).down = l.down)
    (hchannels : s'.closedChannels = s.closedChannels) (hnext : s.nextObject ≤ s'.nextObject)
    (hclosed : s'.closed = s.closed) : Rouses s s' := by
  have hattached : ∀ i o, s'.attached i o = (s.attached i o).map (f i) := by
    intro i o
    unfold Session.attached
    rw [hlanes]
    cases s.carrierLanes.get i with
    | none => rfl
    | some l => by_cases ho : l.object = o <;> simp [Option.filter, ho, hobject]
  have hnone : ∀ o, s'.releasedLanes.get o = none ↔ s.releasedLanes.get o = none := by
    intro o
    rcases hreleased o with h | h <;> simp [h]
  have hhas : ∀ q, s'.HasQueue q ↔ s.HasQueue q := by
    intro q
    cases q with
    | session => exact Iff.rfl
    | lane i o =>
        unfold Session.HasQueue
        dsimp only
        rw [hattached, Ne, Ne, hnone]
        simp
  have hqueue : ∀ q, s'.queue q = s.queue q := by
    intro q
    cases q with
    | session => exact hdown
    | lane i o =>
        unfold Session.queue
        dsimp only
        rw [hattached]
        cases s.attached i o with
        | some l => exact hf i l
        | none =>
            rcases hreleased o with h | h
            · cases hr : s.releasedLanes.get o <;> simp [h, hr, hg]
            · simp [h]
  exact of_kept (fun q => (hhas q).mp) (fun q hq => ⟨(hhas q).mpr hq, by
    rw [hqueue]
    exact .refl _⟩) hchannels hnext (.inl hclosed)

/-- Nothing about the queues changes. -/
theorem of_eq (hdown : s'.down = s.down) (hlanes : s'.carrierLanes = s.carrierLanes)
    (hreleased : s'.releasedLanes = s.releasedLanes)
    (hchannels : s'.closedChannels = s.closedChannels) (hnext : s.nextObject ≤ s'.nextObject)
    (hclosed : s'.closed = s.closed) : Rouses s s' :=
  of_map (f := fun _ l => l) (g := id) hdown (by simp [hlanes]) (fun _ _ => rfl) (fun _ _ => rfl)
    (fun o => .inr (by rw [hreleased])) (fun _ => rfl) hchannels hnext hclosed

theorem refl (s : Session) : Rouses s s := of_eq rfl rfl rfl rfl le_rfl rfl

theorem setQueue (h : s.Objects) {q : QueueRef} {d : Downlink} (hq : s.HasQueue q)
    (hr : (s.queue q).Roused d) : Rouses s (s.setQueue q d) := by
  have hsame : (s.setQueue q d).closedChannels = s.closedChannels ∧
      (s.setQueue q d).nextObject = s.nextObject ∧ (s.setQueue q d).closed = s.closed := by
    obtain ⟨down, lanes, released, he⟩ := s.setQueue_eq q d
    rw [he]
    exact ⟨rfl, rfl, rfl⟩
  apply of_kept (fun q' => (s.hasQueue_setQueue q q' d).mp) _ hsame.1 hsame.2.1.ge (.inl hsame.2.2)
  intro q' hq'
  refine ⟨(s.hasQueue_setQueue q q' d).mpr hq', ?_⟩
  rw [h.queue_setQueue d hq hq']
  split_ifs with ho
  · rw [← h.queue_eq hq hq' ho]
    exact hr
  · exact .refl _

theorem queueResult {ty : FrameType} {id : ℕ} {payload : Bytes} {es : List Event} {ok : Bool}
    (ho : s.Objects) (h : QueueResult s ty id payload es s' ok) : Rouses s s' := by
  cases h with
  | refused => exact refl s
  | @accepted q d cost items notify hq h =>
      have hpending : Rouses s (s.setPending cost items notify) := of_eq rfl rfl rfl rfl le_rfl rfl
      have hqueue : (s.setPending cost items notify).queue q = s.queue q := by
        cases q <;> rfl
      have hobjects : (s.setPending cost items notify).Objects := ho.of_eq rfl rfl le_rfl
      have hhas := (hpending.kept q (Session.hasQueue_of_queueRef hq)).1
      exact hpending.trans (setQueue hobjects hhas (by
        rw [hqueue]
        exact .enqueue h))

/-- A lane is taken out, and its object dropped. -/
theorem release (h : s.Objects) (id : ℕ) (hdown : s'.down = s.down)
    (hlanes : s'.carrierLanes = s.carrierLanes.del id)
    (hreleased : s'.releasedLanes = match s.carrierLanes.get id with
      | none => s.releasedLanes
      | some l => s.releasedLanes.put l.object l.drop)
    (hchannels : s'.closedChannels = s.closedChannels) (hnext : s'.nextObject = s.nextObject)
    (hclosed : s'.closed = s.closed) : Rouses s s' := by
  have hattached : ∀ i o, s'.attached i o = if i = id then none else s.attached i o := by
    intro i o
    unfold Session.attached
    rw [hlanes, Table.get_del]
    split_ifs <;> rfl
  have hother : ∀ o, (∀ l, s.carrierLanes.get id = some l → l.object ≠ o) →
      s'.releasedLanes.get o = s.releasedLanes.get o := by
    intro o ho
    rw [hreleased]
    cases hl : s.carrierLanes.get id with
    | none => rfl
    | some l => exact Table.get_put_ne _ _ fun he => ho l hl he.symm
  have hhere : ∀ l, s.carrierLanes.get id = some l →
      s'.releasedLanes.get l.object = some l.drop := by
    intro l hl
    rw [hreleased, hl]
    exact Table.get_put_self _ _ _
  constructor
  · intro q hq
    cases q with
    | session => exact ⟨trivial, by rw [show s'.queue .session = s.queue .session from hdown]; exact .refl _⟩
    | lane i o =>
        by_cases ha : s.attached i o = none
        · have ho : s'.releasedLanes.get o = s.releasedLanes.get o := by
            apply hother
            rintro l hl rfl
            exact hq.resolve_left (by simp [ha]) (h.apart id l hl)
          have ha' : s'.attached i o = none := by
            rw [hattached]
            split_ifs
            · rfl
            · exact ha
          have hq' : s'.releasedLanes.get o ≠ none := by
            rw [ho]
            exact hq.resolve_left (by simp [ha])
          refine ⟨.inr hq', ?_⟩
          unfold Session.queue
          simp only [ha, ha', ho]
          exact .refl _
        · obtain ⟨l, hl⟩ := Option.ne_none_iff_exists'.mp ha
          obtain ⟨hget, hlo⟩ := Session.attached_eq_some.mp hl
          by_cases hi : i = id
          · subst hi
            subst hlo
            have ha' : s'.attached i l.object = none := by rw [hattached, if_pos rfl]
            refine ⟨.inr (by simp [hhere l hget]), ?_⟩
            unfold Session.queue
            simp only [hl, ha', hhere l hget]
            exact .drop _
          · have ha' : s'.attached i o = some l := by rw [hattached, if_neg hi, hl]
            refine ⟨.inl (by simp [ha']), ?_⟩
            unfold Session.queue
            simp only [hl, ha']
            exact .refl _
  · intro q hq hq'
    cases q with
    | session => exact absurd trivial hq
    | lane i o =>
        obtain ⟨hnone, hrel⟩ := not_or.mp hq
        have ha' : s'.attached i o = none := by
          rw [hattached, not_not.mp hnone]
          split_ifs <;> rfl
        have hrel' := hq'.resolve_left (by simp [ha'])
        have hmoved : ∃ l, s.carrierLanes.get id = some l ∧ l.object = o := by
          by_contra hn
          apply hrel'
          rw [hother o fun l hl he => hn ⟨l, hl, he⟩]
          exact not_not.mp hrel
        obtain ⟨l, hl, rfl⟩ := hmoved
        refine .inl ⟨.lane id l.object, rfl, Session.hasQueue_of_get hl, ?_⟩
        rw [Session.queue_of_get hl]
        unfold Session.queue
        simp only [ha', hhere l hl]
        exact .drop _
  · exact hchannels
  · exact hnext.ge
  · exact fun hc => hclosed.trans hc
  · exact fun hc => .inl (hclosed.symm.trans hc)

/-- A lane is created. -/
theorem create (h : s.Objects) {id : ℕ} (hnone : s.carrierLanes.get id = none) :
    Rouses s (s.createLane id).1 := by
  have hget : ∀ i o, (s.createLane id).1.attached i o =
      if i = id then (if s.nextObject = o then some (s.createLane id).2 else none)
      else s.attached i o := by
    intro i o
    unfold Session.attached
    rw [show (s.createLane id).1.carrierLanes.get i =
      if i = id then some (s.createLane id).2 else s.carrierLanes.get i from Table.get_put ..]
    have hobject : (s.createLane id).2.object = s.nextObject := rfl
    split_ifs with hi ho
    · simp [Option.filter, hobject, ho]
    · simp [Option.filter, hobject, ho]
    · rfl
  constructor
  · intro q hq
    cases q with
    | session => exact ⟨trivial, .refl _⟩
    | lane i o =>
        have ha' : (s.createLane id).1.attached i o = s.attached i o := by
          rw [hget]
          split_ifs with hi ho
          · exfalso
            rcases hq with hq | hq
            · obtain ⟨l, hl⟩ := Option.ne_none_iff_exists'.mp hq
              rw [hi] at hl
              rw [(Session.attached_eq_some.mp hl).1] at hnone
              cases hnone
            · have hlt := h.released o hq
              omega
          · subst hi
            unfold Session.attached
            rw [hnone]
            rfl
          · rfl
        refine ⟨?_, ?_⟩
        · unfold Session.HasQueue
          dsimp only
          rw [ha']
          exact hq
        · unfold Session.queue
          simp only [ha']
          exact .refl _
  · intro q hq hq'
    right
    cases q with
    | session => exact absurd trivial hq
    | lane i o =>
        obtain ⟨ha, hrel⟩ := not_or.mp hq
        have ha' := hq'.resolve_right hrel
        rw [hget] at ha'
        unfold Session.queue
        dsimp only
        rw [hget]
        split_ifs at ha' ⊢ with hi ho
        · exact ⟨rfl, rfl⟩
        · exact absurd rfl ha'
        · exact absurd ha' ha
  · rfl
  · exact Nat.le_succ _
  · exact fun hc => hc
  · exact fun hc => .inl hc

/-- The session is closed. -/
theorem close (s : Session) : Rouses s { s with
    closed := true
    carrierLanes := s.carrierLanes.mapValues CarrierLane.drop
    streams := .nil
    down := s.down.drop } := by
  have hattached : ∀ i o, Session.attached { s with
      closed := true
      carrierLanes := s.carrierLanes.mapValues CarrierLane.drop
      streams := .nil
      down := s.down.drop } i o = (s.attached i o).map CarrierLane.drop := by
    intro i o
    unfold Session.attached
    rw [Table.get_mapValues]
    cases s.carrierLanes.get i with
    | none => rfl
    | some l =>
        have hobject : l.drop.object = l.object := rfl
        by_cases ho : l.object = o <;> simp [Option.filter, ho, hobject]
  refine of_kept ?_ ?_ rfl le_rfl (.inr ⟨rfl, rfl⟩)
  · intro q hq
    cases q with
    | session => trivial
    | lane i o =>
        unfold Session.HasQueue at hq ⊢
        dsimp only at hq ⊢
        rw [hattached] at hq
        simpa using hq
  · intro q hq
    cases q with
    | session => exact ⟨trivial, .drop _⟩
    | lane i o =>
        refine ⟨?_, ?_⟩
        · unfold Session.HasQueue at hq ⊢
          dsimp only at hq ⊢
          rw [hattached]
          simpa using hq
        · unfold Session.queue
          simp only [hattached]
          cases s.attached i o with
          | none => exact .refl _
          | some l => exact .drop _

end Rouses

/-- A change that takes no part in a poll and takes no token. -/
theorem Change.rouses {σ σ' : Traced} (h : Change scope σ σ') (hpolls : scope.polls = false)
    (htokens : scope.tokens = false) (ho : σ.session.Objects) :
    Rouses σ.session σ'.session := by
  cases h with
  | pending => exact .of_eq rfl rfl rfl rfl le_rfl rfl
  | silent => exact .refl _
  | attachSocket => exact .of_eq rfl rfl rfl rfl le_rfl rfl
  | openStream => exact .of_eq rfl rfl rfl rfl (Nat.le_succ _) rfl
  | stream => exact .of_eq rfl rfl rfl rfl le_rfl rfl
  | @drained s _ _ _ id amount st _ _ _ _ _ _ _ h _ =>
      have hput : Rouses s (s.putStream id (st.drain amount)) := .of_eq rfl rfl rfl rfl le_rfl rfl
      exact hput.trans (.queueResult (ho.of_eq rfl rfl le_rfl) h)
  | @read s _ _ _ id st data _ _ _ _ _ h _ =>
      have hput : Rouses s (s.putStream id { st with
        sendCredit := st.sendCredit - data.length }) := .of_eq rfl rfl rfl rfl le_rfl rfl
      exact hput.trans (.queueResult (ho.of_eq rfl rfl le_rfl) h)
  | queueClose _ _ _ h _ _ _ => exact .queueResult ho h
  | endStream => exact .of_eq rfl rfl rfl rfl le_rfl rfl
  | rememberRoom => exact .of_eq rfl rfl rfl rfl le_rfl rfl
  | @rememberFull s _ _ old => exact .release ho old rfl rfl rfl rfl rfl rfl
  | createLane _ hnone _ _ => exact .create ho hnone
  | @touchLane s _ id l l' hl hobject hdown _ _ _ =>
      refine .of_map (f := fun i l₁ => if i = id then { l' with
          object := l₁.object, down := l₁.down } else l₁) (g := fun l => l) rfl ?_ ?_ ?_
        (fun _ => .inr rfl) (fun _ => rfl) rfl le_rfl rfl
      · intro i
        show (s.carrierLanes.put id l').get i = _
        rw [Table.get_put]
        split_ifs with hi
        · rw [hi, hl, Option.map_some, ← hobject, ← hdown]
        · simp
      · intro i l₁
        split_ifs <;> rfl
      · intro i l₁
        split_ifs <;> rfl
  | @dropLane s _ id l hl _ _ _ =>
      refine .release ho id rfl rfl ?_ rfl rfl rfl
      dsimp only
      rw [hl]
      rfl
  | closeChannel _ hscope =>
      rw [hpolls] at hscope
      cases hscope
  | newObject => exact .of_eq rfl rfl rfl rfl (Nat.le_succ _) rfl
  | attend hq active superseded notify _ hscope =>
      rcases hscope with hscope | ⟨rfl, rfl, hscope | rfl⟩
      · rw [hpolls] at hscope
        cases hscope
      · rw [htokens] at hscope
        cases hscope
      · exact .setQueue ho hq (.of_token rfl rfl rfl rfl)
  | acknowledge _ _ hscope =>
      rw [hpolls] at hscope
      cases hscope
  | deliver _ _ _ hscope =>
      rw [hpolls] at hscope
      cases hscope
  | close => exact .close _
  | batch => exact .refl _
  | uplink => exact .of_eq rfl rfl rfl rfl le_rfl rfl
  | @laneUplink s _ _ id object f hobject hdown _ =>
      have hlanes := fun i => s.modifyLane_lanes id object i f
      have hreleased := fun i => s.modifyLane_released id object i f
      obtain ⟨lanes, released, he⟩ := s.modifyLane_eq id object f
      dsimp only
      rw [he] at hlanes hreleased ⊢
      refine .of_map (g := f) rfl hlanes ?_ ?_ ?_ hdown rfl le_rfl rfl
      · intro i l
        split_ifs
        · exact hobject l
        · rfl
      · intro i l
        split_ifs
        · exact hdown l
        · rfl
      · intro o
        rw [hreleased]
        split_ifs
        · exact .inl rfl
        · exact .inr rfl

theorem Changes.rouses {σ σ' : Traced} (h : Changes scope σ σ') (hpolls : scope.polls = false)
    (htokens : scope.tokens = false) (ho : σ.session.Objects) :
    Rouses σ.session σ'.session := by
  have hboth : σ'.session.Objects ∧ Rouses σ.session σ'.session := by
    induction h with
    | refl => exact ⟨ho, .refl _⟩
    | tail _ hlast ih => exact ⟨hlast.objects ih.1, ih.2.trans (hlast.rouses hpolls htokens ih.1)⟩
  exact hboth.2

/-- The sections of polls. -/
def Section.polling : Section → Bool
  | .poll _ | .pollLane _ _ | .pollResume _ _ _ _ | .takeToken _ => true
  | _ => false

/-- A section that is none of a poll's leaves the queues to their polls. -/
theorem Step.rouses {σ σ' : Traced} {c : Section} {r : Reply} (h : Step sha256 σ c r σ')
    (hr : Reachable sha256 limits carrier σ) (hc : c.polling = false) :
    Rouses σ.session σ'.session := by
  apply (h.changes hr.sound).rouses _ _ hr.objects
  · cases c <;> first | rfl | cases hc
  · cases c <;> first | rfl | cases hc

/-! ### What one poll writes -/

/-- From `s` to `s'` the queue behind `q` has become `d`, and the others are as they were. -/
structure Writes (s : Session) (q : QueueRef) (d : Downlink) (s' : Session) : Prop where
  has : ∀ q', s'.HasQueue q' ↔ s.HasQueue q'
  queue : ∀ q', s.HasQueue q' → s'.queue q' = if q.object = q'.object then d else s.queue q'
  closed : s'.closed = s.closed
  limits : s'.limits = s.limits

namespace Writes

variable {q : QueueRef} {d d' : Downlink}

theorem refl (ho : s.Objects) (hq : s.HasQueue q) : Writes s q (s.queue q) s := by
  refine ⟨fun _ => Iff.rfl, ?_, rfl, rfl⟩
  intro q' hq'
  split_ifs with h
  · exact (ho.queue_eq hq hq' h).symm
  · rfl

theorem setQueue (ho : s.Objects) (hq : s.HasQueue q) (d : Downlink) :
    Writes s q d (s.setQueue q d) := by
  have hsame : (s.setQueue q d).closed = s.closed ∧ (s.setQueue q d).limits = s.limits := by
    obtain ⟨down, lanes, released, he⟩ := s.setQueue_eq q d
    rw [he]
    exact ⟨rfl, rfl⟩
  exact ⟨fun q' => s.hasQueue_setQueue q q' d, fun q' hq' => ho.queue_setQueue d hq hq',
    hsame.1, hsame.2⟩

/-- Fields outside the queues change. -/
theorem congr (h : Writes s q d s') (hdown : s''.down = s'.down)
    (hlanes : s''.carrierLanes = s'.carrierLanes) (hreleased : s''.releasedLanes = s'.releasedLanes)
    (hclosed : s''.closed = s'.closed) (hlimits : s''.limits = s'.limits) : Writes s q d s'' := by
  have hqueue : ∀ q', (s''.HasQueue q' ↔ s'.HasQueue q') ∧ s''.queue q' = s'.queue q' := by
    intro q'
    cases q' with
    | session => exact ⟨Iff.rfl, hdown⟩
    | lane i o =>
        unfold Session.HasQueue Session.queue Session.attached
        dsimp only
        rw [hlanes, hreleased]
        exact ⟨Iff.rfl, rfl⟩
  refine ⟨fun q' => (hqueue q').1.trans (h.has q'), fun q' hq' => ?_,
    hclosed.trans h.closed, hlimits.trans h.limits⟩
  rw [(hqueue q').2]
  exact h.queue q' hq'

theorem trans (h : Writes s q d s') (h' : Writes s' q d' s'') : Writes s q d' s'' := by
  refine ⟨fun q' => (h'.has q').trans (h.has q'), fun q' hq' => ?_, h'.closed.trans h.closed,
    h'.limits.trans h.limits⟩
  rw [h'.queue q' ((h.has q').mpr hq'), h.queue q' hq']
  split_ifs <;> rfl

/-- What the written queue keeps, all queues keep. -/
theorem field {β : Type} (f : Downlink → β) (h : Writes s q d s') (ho : s.Objects)
    (hq : s.HasQueue q) (hd : f d = f (s.queue q)) (q' : QueueRef) :
    f (s'.queue q') = f (s.queue q') := by
  by_cases hq' : s.HasQueue q'
  · rw [h.queue q' hq']
    split_ifs with hsame
    · rw [hd, ho.queue_eq hq hq' hsame]
    · rfl
  · rw [Session.queue_of_not_hasQueue hq',
      Session.queue_of_not_hasQueue fun hq'' => hq' ((h.has q').mp hq'')]

theorem here (h : Writes s q d s') (hq : s.HasQueue q) : s'.queue q = d := by
  rw [h.queue q hq, if_pos rfl]

end Writes

/-! ### What was queued and delivered -/

/-- The frames that were queued on `q`, in order. -/
def queuedOn (t : List Event) (q : QueueRef) : List Frame :=
  t.filterMap fun e => match e with
    | .queued q' ty id payload => if q' = q then some ⟨ty, id, payload⟩ else none
    | _ => none

/-- The bodies that polls took from `q`, each with its cursor, in order. -/
def deliveries (t : List Event) (q : QueueRef) : List (ℕ × Bytes) :=
  t.filterMap fun e => match e with
    | .delivered q' cursor body => if q' = q then some (cursor, body) else none
    | _ => none

theorem queuedOn_append (t es : List Event) (q : QueueRef) :
    queuedOn (t ++ es) q = queuedOn t q ++ queuedOn es q :=
  List.filterMap_append ..

theorem deliveries_append (t es : List Event) (q : QueueRef) :
    deliveries (t ++ es) q = deliveries t q ++ deliveries es q :=
  List.filterMap_append ..

/-- Events that concern no queue. -/
def Event.aside : Event → Bool
  | .queued _ _ _ _ | .delivered _ _ _ => false
  | _ => true

theorem Event.silent_aside {e : Event} (h : e.silent = true) : e.aside = true := by
  cases e <;> simp_all [Event.silent, Event.aside]

theorem queuedOn_aside (h : ∀ e ∈ es, e.aside = true) (q : QueueRef) : queuedOn es q = [] := by
  refine List.filterMap_eq_nil_iff.mpr fun e he => ?_
  have haside := h e he
  cases e <;> simp_all [Event.aside]

theorem deliveries_aside (h : ∀ e ∈ es, e.aside = true) (q : QueueRef) : deliveries es q = [] := by
  refine List.filterMap_eq_nil_iff.mpr fun e he => ?_
  have haside := h e he
  cases e <;> simp_all [Event.aside]

theorem Session.Objects.hasQueue_lt (ho : s.Objects) {q : QueueRef} {o : ℕ} (hq : s.HasQueue q)
    (hobject : q.object = some o) : o < s.nextObject := by
  cases q with
  | session => cases hobject
  | lane i o' =>
      cases hobject
      rcases hq with hattached | hreleased
      · obtain ⟨l, hl⟩ := Option.ne_none_iff_exists'.mp hattached
        obtain ⟨hget, rfl⟩ := Session.attached_eq_some.mp hl
        exact ho.lanes i l hget
      · exact ho.released o hreleased

/-- No queue has a history before its lane is made. -/
def Unwritten (σ : Traced) : Prop :=
  ∀ q o, q.object = some o → σ.session.nextObject ≤ o →
    queuedOn σ.trace q = [] ∧ deliveries σ.trace q = []

/-- The queue of a new object is not written before it is made. -/
theorem Unwritten.grow (hu : Unwritten ⟨s, t⟩) (hnext : s.nextObject ≤ s'.nextObject)
    (hes : ∀ q o, q.object = some o → s.nextObject ≤ o →
      queuedOn es q = [] ∧ deliveries es q = []) :
    Unwritten ⟨s', t ++ es⟩ := by
  intro q o hobject ho
  obtain ⟨hqueued, hdelivered⟩ := hu q o hobject (hnext.trans ho)
  obtain ⟨hqueued', hdelivered'⟩ := hes q o hobject (hnext.trans ho)
  dsimp only at hqueued hdelivered ⊢
  rw [queuedOn_append, deliveries_append, hqueued, hqueued', hdelivered, hdelivered']
  exact ⟨rfl, rfl⟩

theorem QueueResult.unwritten {ty : FrameType} {id : ℕ} {payload : Bytes} {ok : Bool}
    (h : QueueResult s ty id payload es s' ok) (ho : s.Objects) (q : QueueRef) (o : ℕ)
    (hobject : q.object = some o) (hnew : s.nextObject ≤ o) :
    queuedOn es q = [] ∧ deliveries es q = [] := by
  cases h with
  | refused => exact ⟨rfl, rfl⟩
  | @accepted q₀ d cost items notify hq₀ _ =>
      have hne : q₀ ≠ q := by
        rintro rfl
        have hlt := ho.hasQueue_lt (Session.hasQueue_of_queueRef hq₀) hobject
        omega
      exact ⟨by simp [queuedOn, hne], rfl⟩

theorem Change.unwritten {σ σ' : Traced} (h : Change scope σ σ') (ho : σ.session.Objects)
    (hu : Unwritten σ) : Unwritten σ' := by
  have hnext := h.nextObject_mono
  have haside : ∀ {s s' : Session} {t es : List Event}, Unwritten ⟨s, t⟩ →
      s.nextObject ≤ s'.nextObject → (∀ e ∈ es, e.aside = true) → Unwritten ⟨s', t ++ es⟩ :=
    fun hu hnext hes => hu.grow hnext fun q _ _ _ =>
      ⟨queuedOn_aside hes q, deliveries_aside hes q⟩
  have hpure : ∀ {s s' : Session} {t : List Event}, Unwritten ⟨s, t⟩ →
      s.nextObject ≤ s'.nextObject → Unwritten ⟨s', t⟩ := by
    intro s s' t hu hnext q o hobject hle
    exact hu q o hobject (hnext.trans hle)
  cases h with
  | silent he =>
      refine haside hu hnext fun e he' => ?_
      rw [List.mem_singleton.mp he']
      exact Event.silent_aside he
  | openStream => exact haside hu hnext (by simp [Event.aside])
  | stream _ _ h _ =>
      refine haside hu hnext ?_
      cases h <;> simp [Event.aside]
  | drained _ _ _ _ _ _ h _ =>
      exact hu.grow hnext (h.unwritten (ho.of_eq rfl rfl le_rfl))
  | read _ _ _ _ h _ =>
      exact hu.grow hnext (h.unwritten (ho.of_eq rfl rfl le_rfl))
  | queueClose _ _ _ h _ _ _ => exact hu.grow hnext (h.unwritten ho)
  | rememberRoom => exact haside hu hnext (by simp [Event.aside])
  | rememberFull =>
      rw [List.append_assoc]
      exact haside hu hnext (by simp [Event.aside])
  | @deliver s t q₀ cursor mine hq _ _ _ =>
      refine hu.grow hnext fun q o hobject hnew => ?_
      have hne : q₀ ≠ q := by
        rintro rfl
        exact absurd (ho.hasQueue_lt hq hobject) (not_lt.mpr hnew)
      exact ⟨rfl, by simp [deliveries, hne]⟩
  | batch => exact haside hu hnext (by simp [Event.aside])
  | _ => exact hpure hu hnext

theorem Reachable.unwritten {σ : Traced} (h : Reachable sha256 limits carrier σ) :
    Unwritten σ := by
  refine (h.invariant (I := fun τ => τ.session.Objects ∧ Unwritten τ) ?_ fun hc _ hI => ?_).2
  · exact ⟨(@Reachable.start sha256 limits carrier).objects, fun q o _ _ => ⟨rfl, rfl⟩⟩
  · exact ⟨hc.objects hI.1, hc.unwritten hI.1 hI.2⟩

end TproxyServer
