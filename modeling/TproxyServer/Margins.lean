import TproxyServer.ControlCharges
import TproxyServer.SectionAccounting

/-! # Control frames through a section

`margins` is the process from the side of one session, with what is known of the control frames
that the session is charged for.  A release does not say whose charges it gives back, so `control`
is a lower bound: what is released is taken off it, as far as it goes.  That is enough: the
bound never exceeds what the control frames are charged (`Kept`), and what the session is charged
beyond it was admitted as DATA, which leaves the control reserve alone (`Solvent`). -/

namespace TproxyServer

open Interaction Prog

/-! ### The process, as far as control frames go -/

/-- What is known of the control frames of a session in the middle of a section. -/
structure Margin where
  /-- Charges that are known to be those of control frames. -/
  control : ℕ × ℕ
  /-- The control frames charged when the section began, and those charged since. -/
  frames : ℕ
  /-- There was room whenever a control frame was asked for or refused. -/
  calm : Prop
  /-- No control frame was refused. -/
  clean : Prop

/-- A control frame is refused, or a batch is given up for it. -/
def Event.refusesControl : Event → Bool
  | .refused t _ _ => t ≠ .data
  | .abandoned _ => true
  | _ => false

/-- What a granted charge or a release makes of a margin. -/
def Margin.Moves (m : Margin) (cost items : ℤ) (cls : PendingClass) (granted : Bool)
    (m' : Margin) : Prop :=
  if 0 < cost then
    if cls = .control then
      if granted then m'.control = m.control + (cost.toNat, items.toNat) ∧
        m'.frames = m.frames + items.toNat
      else m'.control = m.control ∧ m'.frames = m.frames ∧ ¬ m'.calm
    else m'.control = m.control ∧ m'.frames = m.frames
  else m'.control = m.control - ((-cost).toNat, (-items).toNat) ∧ m'.frames = m.frames

/-- The process from the side of a session with these limits, which `isOpen` says is open.  It is
calm as long as the session is charged for fewer control frames than its reserve counts when one
is refused, and the process refuses none. -/
def margins (limits : Limits) (isOpen : Prop) : World Query Event Panic Margin where
  demands
    | m, .budget cost items .control => isOpen ∧ 0 < cost ∧ cost ≤ costPerItem ∧ items = 1 ∧
        m.control.1 + cost ≤ limits.maxPendingPerSession ∧
        m.control.2 + items ≤ limits.maxPendingItemsPerSession
    | _, _ => True
  answers m q granted m' :=
    m'.clean = m.clean ∧
      (m'.calm → m.calm) ∧
      match q with
      | .budget cost items cls => m.Moves cost items cls granted m'
      | .acquireStream => m'.control = m.control ∧ m'.frames = m.frames
  notes m e := { m with
    calm := m.calm ∧
      (e.refusesControl = true → isOpen → m.frames < (pendingControlReserve limits).2)
    clean := m.clean ∧ e.refusesControl = false }
  tolerates _ := True

/-- Where there was room to the end, there was room all the while. -/
theorem wp_calm {α : Type} {limits : Limits} {isOpen : Prop} {p : Act α}
    {post : Margin → α → Prop} {m : Margin} (h : wp (margins limits isOpen) p post m) :
    wp (margins limits isOpen) p (fun m' a => post m' a ∧ (m'.calm → m.calm)) m :=
  wp_relates (W := margins limits isOpen) (R := fun m m' => m'.calm → m.calm) (fun _ => id)
    (fun h h' => h ∘ h') (fun h => h.2.1) (fun _ _ => And.left) h

/-- The control reserve of a session is a reserve: it is within the session's limits, and its
bytes are enough for its items. -/
structure Limits.Reserved (limits : Limits) : Prop where
  cost : (pendingControlReserve limits).1 ≤ limits.maxPendingPerSession
  items : (pendingControlReserve limits).2 ≤ limits.maxPendingItemsPerSession
  covers : costPerItem * (pendingControlReserve limits).2 ≤ (pendingControlReserve limits).1

/-! ### What a margin is worth -/

/-- What a session is charged beyond the margin is within the partition that DATA has. -/
structure Solvent (limits : Limits) (isOpen : Prop) (m : Margin) (s : Session) : Prop where
  limits_eq : s.limits = limits
  reserved : limits.Reserved
  bound : s.pendingCost ≤ limits.maxPendingPerSession ∧
    s.pendingItems ≤ limits.maxPendingItemsPerSession
  part : m.control.1 ≤ s.pendingCost ∧ m.control.2 ≤ s.pendingItems
  rest : s.pendingCost ≤ (uplinkPendingLimits limits).1 + m.control.1 ∧
    s.pendingItems ≤ (uplinkPendingLimits limits).2 + m.control.2
  counted : m.control.1 ≤ costPerItem * m.frames ∧ m.control.2 ≤ m.frames
  calm : m.calm → m.clean

/-- The margin is a part of what the control frames of the session are charged. -/
structure Kept (limits : Limits) (isOpen : Prop) (m : Margin) (s : Session) : Prop
    extends Solvent limits isOpen m s where
  control : m.control ≤ s.controlHeld

variable {limits : Limits} {carrier : CarrierMode} {isOpen : Prop} {m m' : Margin}
  {s s' : Session} {t : List Event} {sha256 : Bytes → Bytes}

theorem Solvent.of_pending (h : Solvent limits isOpen m s) (hlimits : s'.limits = s.limits)
    (hpending : s'.pending = s.pending) : Solvent limits isOpen m s' := by
  simp only [Session.pending, Prod.mk.injEq, Nat.cast_inj] at hpending
  obtain ⟨hcost, hitems⟩ := hpending
  exact ⟨hlimits.trans h.limits_eq, h.reserved, by rw [hcost, hitems]; exact h.bound,
    by rw [hcost, hitems]; exact h.part, by rw [hcost, hitems]; exact h.rest, h.counted, h.calm⟩

theorem Kept.of_controls (h : Kept limits isOpen m s) (hlimits : s'.limits = s.limits)
    (hpending : s'.pending = s.pending) (hcontrols : s.controlHeld ≤ s'.controlHeld) :
    Kept limits isOpen m s' :=
  ⟨h.toSolvent.of_pending hlimits hpending, h.control.trans hcontrols⟩

theorem Solvent.note {e : Event} (h : Solvent limits isOpen m s)
    (he : ((margins limits isOpen).notes m e).calm → e.refusesControl = false) :
    Solvent limits isOpen ((margins limits isOpen).notes m e) s :=
  ⟨h.limits_eq, h.reserved, h.bound, h.part, h.rest, h.counted,
    fun hc => ⟨h.calm hc.1, he hc⟩⟩

theorem Kept.note {e : Event} (h : Kept limits isOpen m s)
    (he : ((margins limits isOpen).notes m e).calm → e.refusesControl = false) :
    Kept limits isOpen ((margins limits isOpen).notes m e) s :=
  ⟨h.toSolvent.note he, h.control⟩

/-- What leaves charges and queues alone keeps the margin, and so does what is told of it. -/
theorem Kept.noted {e : Event} (h : Kept limits isOpen m s)
    (he : ((margins limits isOpen).notes m e).calm → e.refusesControl = false)
    (hlimits : s'.limits = s.limits) (hpending : s'.pending = s.pending)
    (hcontrols : s.controlHeld ≤ s'.controlHeld) :
    Kept limits isOpen ((margins limits isOpen).notes m e) s' :=
  (h.of_controls hlimits hpending hcontrols).note he

/-- An answer that moves no charges. -/
theorem Solvent.answered (h : Solvent limits isOpen m s) (hcontrol : m'.control = m.control)
    (hframes : m'.frames = m.frames) (hcalm : m'.calm → m.calm) (hclean : m'.clean = m.clean) :
    Solvent limits isOpen m' s :=
  ⟨h.limits_eq, h.reserved, h.bound, hcontrol ▸ h.part, hcontrol ▸ h.rest,
    hcontrol ▸ hframes ▸ h.counted, fun hc => hclean ▸ h.calm (hcalm hc)⟩

/-! ### The budget -/

theorem uplinkPendingLimits_le (limits : Limits) :
    (uplinkPendingLimits limits).1 ≤ limits.maxPendingPerSession ∧
      (uplinkPendingLimits limits).2 ≤ limits.maxPendingItemsPerSession :=
  ⟨Nat.sub_le _ _, Nat.sub_le _ _⟩

theorem downlinkPendingLimits_le (limits : Limits) :
    (downlinkPendingLimits limits).1 ≤ (uplinkPendingLimits limits).1 ∧
      (downlinkPendingLimits limits).2 ≤ (uplinkPendingLimits limits).2 :=
  ⟨Nat.sub_le _ _, Nat.sub_le _ _⟩

/-- DATA is admitted within its partition. -/
theorem reservePendingLocked_data (h : Solvent limits isOpen m s) (cost items : ℕ)
    {cls : PendingClass} (hcls : cls ≠ .control) :
    wp (margins limits isOpen) (reservePendingLocked s cost items cls)
      (fun m' r => Solvent limits isOpen m' r.1 ∧ m'.control = m.control ∧
        (r = (s, false) ∨ r = (s.charge cost items, true))) m := by
  have hlimit : (pendingLimits s.limits cls).1 ≤ (uplinkPendingLimits limits).1 ∧
      (pendingLimits s.limits cls).2 ≤ (uplinkPendingLimits limits).2 := by
    rw [h.limits_eq]
    cases cls with
    | uplink => exact ⟨le_rfl, le_rfl⟩
    | downlink => exact downlinkPendingLimits_le limits
    | control => exact absurd rfl hcls
  unfold reservePendingLocked
  dsimp only
  split_ifs with hbad
  · exact ⟨h, rfl, .inl rfl⟩
  · simp only [not_or, not_lt] at hbad
    obtain ⟨hpos, hcost, hitems, hroom, hroomItems⟩ := hbad
    refine ⟨by cases cls <;> trivial, ?_⟩
    rintro granted m₁ ⟨hclean, hcalm, hmoves⟩
    have hgrant : (0 : ℤ) < cost := by omega
    simp only [Margin.Moves, hgrant, if_true, if_neg hcls] at hmoves
    obtain ⟨hcontrol, hframes⟩ := hmoves
    have h₁ := h.answered hcontrol hframes hcalm hclean
    cases granted with
    | false => exact ⟨h₁, hcontrol, .inl rfl⟩
    | true =>
        obtain ⟨hpart, hpartItems⟩ := h₁.part
        have hlimits := h.limits_eq
        have hbound := uplinkPendingLimits_le limits
        refine ⟨⟨h.limits_eq, h.reserved, ?_, ?_, ?_, h₁.counted, h₁.calm⟩, hcontrol, .inr rfl⟩
        · show s.pendingCost + cost ≤ _ ∧ s.pendingItems + items ≤ _
          omega
        · show _ ≤ s.pendingCost + cost ∧ _ ≤ s.pendingItems + items
          omega
        · show s.pendingCost + cost ≤ _ ∧ s.pendingItems + items ≤ _
          omega

/-- With fewer control frames than the reserve counts there is room for one more. -/
theorem Solvent.room (h : Solvent limits isOpen m s)
    (hfew : m.frames < (pendingControlReserve limits).2) {cost : ℕ} (hcost : cost ≤ costPerItem) :
    s.pendingCost + cost ≤ limits.maxPendingPerSession ∧
      s.pendingItems + 1 ≤ limits.maxPendingItemsPerSession := by
  obtain ⟨hrest, hrestItems⟩ := h.rest
  obtain ⟨hcounted, hcountedItems⟩ := h.counted
  obtain ⟨hwithin, hwithinItems, hcovers⟩ := h.reserved
  have hmul : costPerItem * (m.frames + 1) ≤ costPerItem * (pendingControlReserve limits).2 :=
    Nat.mul_le_mul_left _ hfew
  rw [Nat.mul_succ] at hmul
  simp only [uplinkPendingLimits, subtractPendingReserve] at hrest hrestItems
  omega

/-- A control frame is charged for, unless the process refuses or the reserve is used up. -/
theorem reservePendingLocked_control (h : Solvent limits isOpen m s) (hopen : isOpen) {cost : ℕ}
    (hpos : 0 < cost) (hcost : cost ≤ costPerItem) :
    wp (margins limits isOpen) (reservePendingLocked s cost 1 .control)
      (fun m' r => Solvent limits isOpen m' r.1 ∧
        ((r = (s, false) ∧ m'.control = m.control ∧
            (m'.calm → (pendingControlReserve limits).2 ≤ m'.frames)) ∨
          (r = (s.charge cost 1, true) ∧ m'.control = m.control + (cost, 1)))) m := by
  unfold reservePendingLocked pendingLimits
  dsimp only
  rw [h.limits_eq]
  split_ifs with hbad
  · refine ⟨h, .inl ⟨rfl, rfl, fun _ => ?_⟩⟩
    by_contra hfew
    have := h.room (not_le.mp hfew) hcost
    omega
  · simp only [not_or, not_lt] at hbad
    obtain ⟨hpart, hpartItems⟩ := h.part
    refine ⟨⟨hopen, by omega, by omega, rfl, by omega, by omega⟩, ?_⟩
    rintro granted m₁ ⟨hclean, hcalm, hmoves⟩
    have hgrant : (0 : ℤ) < cost := by omega
    simp only [Margin.Moves, hgrant, if_true, Int.toNat_natCast, Nat.cast_one] at hmoves
    cases granted with
    | false =>
        simp only [Bool.false_eq_true, if_false] at hmoves
        obtain ⟨hcontrol, hframes, hno⟩ := hmoves
        exact ⟨h.answered hcontrol hframes hcalm hclean,
          .inl ⟨rfl, hcontrol, fun hc => absurd hc hno⟩⟩
    | true =>
        simp only [if_true] at hmoves
        obtain ⟨hcontrol, hframes⟩ := hmoves
        have hcontrol₁ : m₁.control.1 = m.control.1 + cost := congrArg Prod.fst hcontrol
        have hcontrol₂ : m₁.control.2 = m.control.2 + 1 := congrArg Prod.snd hcontrol
        have hframes' : m₁.frames = m.frames + 1 := hframes
        obtain ⟨hrest, hrestItems⟩ := h.rest
        obtain ⟨hcounted, hcountedItems⟩ := h.counted
        refine ⟨⟨h.limits_eq, h.reserved, ?_, ?_, ?_, ?_, fun hc => hclean ▸ h.calm (hcalm hc)⟩,
          .inr ⟨rfl, hcontrol⟩⟩
        · show s.pendingCost + cost ≤ _ ∧ s.pendingItems + 1 ≤ _
          omega
        · show _ ≤ s.pendingCost + cost ∧ _ ≤ s.pendingItems + 1
          omega
        · show s.pendingCost + cost ≤ _ ∧ s.pendingItems + 1 ≤ _
          omega
        · rw [hframes', Nat.mul_succ]
          omega

/-- A release is taken off the margin as far as it goes. -/
theorem releasePendingLocked_kept (h : Solvent limits isOpen m s) (cost items : ℤ) :
    wp (margins limits isOpen) (releasePendingLocked s cost items)
      (fun m' s' => Solvent limits isOpen m' s' ∧ s.UpToPending s' ∧
        m'.control = m.control - (cost.toNat, items.toNat)) m := by
  unfold releasePendingLocked
  split_ifs with hzero hbad
  · obtain ⟨rfl, rfl⟩ := hzero
    exact ⟨h, .refl s, rfl⟩
  · trivial
  · simp only [not_or, not_lt] at hbad
    refine ⟨trivial, ?_⟩
    rintro granted m₁ ⟨hclean, hcalm, hmoves⟩
    have hrelease : ¬ 0 < -cost := by omega
    simp only [Margin.Moves, if_neg hrelease, neg_neg] at hmoves
    obtain ⟨hcontrol, hframes⟩ := hmoves
    have hcontrol₁ : m₁.control.1 = m.control.1 - cost.toNat := congrArg Prod.fst hcontrol
    have hcontrol₂ : m₁.control.2 = m.control.2 - items.toNat := congrArg Prod.snd hcontrol
    obtain ⟨hpart, hpartItems⟩ := h.part
    obtain ⟨hrest, hrestItems⟩ := h.rest
    obtain ⟨hcounted, hcountedItems⟩ := h.counted
    refine ⟨⟨h.limits_eq, h.reserved, ?_, ?_, ?_, ?_, fun hc => hclean ▸ h.calm (hcalm hc)⟩,
      ⟨_, _, _, rfl⟩, hcontrol⟩
    · obtain ⟨hbound, hboundItems⟩ := h.bound
      exact ⟨(Nat.sub_le _ _).trans hbound, (Nat.sub_le _ _).trans hboundItems⟩
    · show _ ≤ s.pendingCost - cost.toNat ∧ _ ≤ s.pendingItems - items.toNat
      omega
    · show s.pendingCost - cost.toNat ≤ _ ∧ s.pendingItems - items.toNat ≤ _
      omega
    · rw [hframes]
      omega

/-- What is released covers the control frames that go with it. -/
theorem Kept.released {charges : ℕ × ℕ} (h : Kept limits isOpen m s)
    (h' : Solvent limits isOpen m' s') (hcontrol : m'.control = m.control - charges)
    (hcovers : s.controlHeld ≤ charges + s'.controlHeld) : Kept limits isOpen m' s' := by
  refine ⟨h', ?_⟩
  rw [hcontrol]
  obtain ⟨h₁, h₂⟩ := h.control.trans hcovers
  refine ⟨?_, ?_⟩
  · show m.control.1 - charges.1 ≤ s'.controlHeld.1
    exact Nat.sub_le_iff_le_add'.mpr h₁
  · show m.control.2 - charges.2 ≤ s'.controlHeld.2
    exact Nat.sub_le_iff_le_add'.mpr h₂

/-- A release that leaves the queues alone. -/
theorem releasePendingLocked_writes (h : Kept limits isOpen m s) (cost items : ℤ) :
    wp (margins limits isOpen) (releasePendingLocked s cost items)
      (fun m' s' => Kept limits isOpen m' s' ∧ s.UpToPending s') m := by
  refine wp_mono (releasePendingLocked_kept h.toSolvent cost items) ?_
  rintro m₁ s₁ ⟨h₁, hsame, hcontrol⟩
  refine ⟨h.released h₁ hcontrol ?_, hsame⟩
  obtain ⟨_, _, _, rfl⟩ := hsame
  exact le_add_of_nonneg_left ⟨Nat.zero_le _, Nat.zero_le _⟩

/-! ### Queueing -/

theorem controlHeld_setQueue_same {q : QueueRef} {d : Downlink}
    (h : d.controlHeld = (s.queue q).controlHeld) : (s.setQueue q d).controlHeld = s.controlHeld :=
  overQueues_setQueue_same h

theorem setQueue_limits (s : Session) (q : QueueRef) (d : Downlink) :
    (s.setQueue q d).limits = s.limits := by
  obtain ⟨_, _, _, he⟩ := s.setQueue_eq q d
  rw [he]

theorem Kept.setQueue {q : QueueRef} {d : Downlink} (h : Kept limits isOpen m s)
    (hd : d.controlHeld = (s.queue q).controlHeld) : Kept limits isOpen m (s.setQueue q d) :=
  h.of_controls (setQueue_limits s q d) (setQueue_pending s q d) (controlHeld_setQueue_same hd).ge

/-- A frame goes into a queue for which it has been charged. -/
theorem Kept.queued {q : QueueRef} {d : Downlink} {charges : ℕ × ℕ} {cost items : ℕ}
    (h : Kept limits isOpen m s) (h' : Solvent limits isOpen m' (s.charge cost items))
    (hcontrol : m'.control = m.control + charges)
    (hq : ∀ id object, q = .lane id object → s.attached id object ≠ none)
    (hd : d.controlHeld = charges + (s.queue q).controlHeld) :
    Kept limits isOpen m' ((s.charge cost items).setQueue q d) := by
  refine ⟨h'.of_pending (setQueue_limits _ q d) (setQueue_pending _ q d), ?_⟩
  have hset : (s.queue q).controlHeld + ((s.charge cost items).setQueue q d).controlHeld =
      d.controlHeld + s.controlHeld := by
    have hput := overQueues_setQueue (f := Downlink.controlHeld) (s := s.charge cost items) d hq
    have hsame : (s.charge cost items).queue q = s.queue q := by cases q <;> rfl
    rw [hsame] at hput
    exact hput
  rw [hd, add_comm charges, add_assoc] at hset
  rw [hcontrol, add_left_cancel hset, add_comm]
  exact add_le_add_right h.control charges

theorem pushFrame_kept {q : QueueRef} {ty : FrameType} {id : ℕ} {payload : Bytes}
    (h : Kept limits isOpen m s)
    (hq : ∀ i object, q = .lane i object → s.attached i object ≠ none)
    (hcontrol : ty ≠ .data → isOpen ∧ payload.length ≤ 4) :
    wp (margins limits isOpen) (pushFrame s q ty id payload)
      (fun m' r => Kept limits isOpen m' r.1 ∧ (ty ≠ .data → m'.calm → r.2 = true)) m := by
  unfold pushFrame
  dsimp only
  cases hext : (s.queue q).extendable s.limits ty id payload with
  | some last =>
      obtain ⟨-, -, rfl, -⟩ := Downlink.extendable_eq hext
      refine wp_seq (reservePendingLocked_data h.toSolvent _ _ (by decide)) ?_
      rintro m₁ r ⟨h₁, hc₁, rfl | rfl⟩
      · have hkept : Kept limits isOpen m₁ s := ⟨h₁, hc₁ ▸ h.control⟩
        exact ⟨hkept.note fun _ => rfl, fun hne => absurd rfl hne⟩
      · refine ⟨Kept.note (h.queued h₁ (hc₁.trans (add_zero _).symm) hq ?_) fun _ => rfl,
          fun hne => absurd rfl hne⟩
        exact (controlHeld_extend hext).trans (zero_add _).symm
  | none =>
      dsimp only
      have hpush := fun windows => controlHeld_push (s.queue q)
        ⟨encode ty id payload, ty, id, (encode ty id payload).length + queueItemCost⟩ windows
      by_cases hdata : ty = .data
      · subst hdata
        refine wp_seq (reservePendingLocked_data h.toSolvent _ _ (by decide)) ?_
        rintro m₁ r ⟨h₁, hc₁, rfl | rfl⟩
        · have hkept : Kept limits isOpen m₁ s := ⟨h₁, hc₁ ▸ h.control⟩
          exact ⟨hkept.note fun _ => rfl, fun hne => absurd rfl hne⟩
        · refine ⟨Kept.note (h.queued h₁ (hc₁.trans (add_zero _).symm) hq ?_) fun _ => rfl,
            fun hne => absurd rfl hne⟩
          exact hpush (s.queue q).pendingWindows
      · obtain ⟨hopen, hlength⟩ := hcontrol hdata
        have hcost : (encode ty id payload).length + queueItemCost ≤ costPerItem := by
          rw [encode_length]
          unfold costPerItem
          omega
        rw [if_neg hdata]
        refine wp_seq (reservePendingLocked_control h.toSolvent hopen
          (by unfold queueItemCost; omega) hcost) ?_
        rintro m₁ r ⟨h₁, ⟨rfl, hc₁, hno⟩ | ⟨rfl, hc₁⟩⟩
        · have hkept : Kept limits isOpen m₁ s := ⟨h₁, hc₁ ▸ h.control⟩
          have hused : ¬ ((margins limits isOpen).notes m₁ (.refused ty id payload)).calm := by
            rintro ⟨hc, hfew⟩
            have hrefuses : (Event.refused ty id payload).refusesControl = true := by
              simpa [Event.refusesControl] using hdata
            exact absurd (hfew hrefuses hopen) (not_lt.mpr (hno hc))
          exact ⟨hkept.note fun hc => absurd hc hused, fun _ hc => absurd hc hused⟩
        · have hqueued : ∀ windows, Kept limits isOpen m₁ ((s.charge
              ((encode ty id payload).length + queueItemCost) 1).setQueue q
                ({ s.queue q with
                  pendingFrames := (s.queue q).pendingFrames ++ [(⟨encode ty id payload, ty, id,
                    (encode ty id payload).length + queueItemCost⟩ : QueuedFrame)]
                  pendingWindows := windows } : Downlink).signal) := by
            intro windows
            refine h.queued h₁ hc₁ hq ((hpush windows).trans ?_)
            rw [if_neg hdata]
            rfl
          simp only [if_true, announce_bind, wp_note]
          split_ifs with hw
          · cases hpw : (s.queue q).pendingWindows with
            | none => trivial
            | some w => exact ⟨(hqueued _).note fun _ => rfl, fun _ _ => rfl⟩
          · exact ⟨(hqueued _).note fun _ => rfl, fun _ _ => rfl⟩

theorem queueOn_kept {q : QueueRef} {ty : FrameType} {id : ℕ} {payload : Bytes}
    (h : Kept limits isOpen m s)
    (hq : ∀ i object, q = .lane i object → s.attached i object ≠ none)
    (hcontrol : ty ≠ .data → isOpen ∧ payload.length ≤ 4) :
    wp (margins limits isOpen) (queueOn s q ty id payload)
      (fun m' r => Kept limits isOpen m' r.1 ∧ (ty ≠ .data → m'.calm → r.2 = true)) m := by
  unfold queueOn
  dsimp only
  cases hidx : (s.queue q).windowIndex ty id with
  | none => exact pushFrame_kept h hq hcontrol
  | some index =>
      dsimp only
      cases hf : (s.queue q).pendingFrames[index]? with
      | none => trivial
      | some f =>
          dsimp only
          split_ifs with htotal
          · refine ⟨Kept.note (h.setQueue ?_) fun _ => rfl, fun _ _ => rfl⟩
            exact controlHeld_setAmount hf _
          · exact pushFrame_kept h hq hcontrol

/-- **Queueing keeps the margin**, and while there is room a control frame is accepted. -/
theorem queueFrameLocked_kept {ty : FrameType} {id : ℕ} {payload : Bytes}
    (h : Kept limits isOpen m s) (hcontrol : ty ≠ .data → isOpen ∧ payload.length ≤ 4)
    (hlane : ty ≠ .data → s.HasLane id) :
    wp (margins limits isOpen) (queueFrameLocked s ty id payload)
      (fun m' r => Kept limits isOpen m' r.1 ∧ (ty ≠ .data → m'.calm → r.2 = true)) m := by
  unfold queueFrameLocked
  split_ifs with hu
  · unfold queueLaneFrameLocked
    cases hl : s.carrierLanes.get id with
    | none =>
        have hdata : ty = .data := by
          by_contra hne
          exact hlane hne hu hl
        subst hdata
        exact ⟨h.note fun _ => rfl, fun hne => absurd rfl hne⟩
    | some lane =>
        have hq : s.queueRef id = some (.lane id lane.object) := by
          rw [Session.queueRef, if_pos hu, hl]
          rfl
        exact queueOn_kept h (queueRef_attached hq) hcontrol
  · exact queueOn_kept h (by simp) hcontrol

end TproxyServer
