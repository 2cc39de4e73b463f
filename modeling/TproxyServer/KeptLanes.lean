import TproxyServer.SectionChanges

/-! # Lanes that stay

Most changes create no lane.  Whatever they do to a lane, the part of it that they are not about
stays as it is: here that part is a function `key` of the lane. -/

namespace TproxyServer

open Interaction Prog

variable {s s' s'' : Session} {t : List Event} {α : Type} {key : CarrierLane → α}

/-- The lanes of `s'` are lanes of `s` with the same key; some may have gone. -/
def KeepsLanes (key : CarrierLane → α) (s s' : Session) : Prop :=
  ∀ id l', s'.carrierLanes.get id = some l' →
    ∃ l, s.carrierLanes.get id = some l ∧ key l' = key l

namespace KeepsLanes

theorem refl (s : Session) : KeepsLanes key s s := fun _ l h => ⟨l, h, rfl⟩

theorem trans (h : KeepsLanes key s s') (h' : KeepsLanes key s' s'') : KeepsLanes key s s'' := by
  intro id l'' hl''
  obtain ⟨l', hl', hkey'⟩ := h' id l'' hl''
  obtain ⟨l, hl, hkey⟩ := h id l' hl'
  exact ⟨l, hl, hkey'.trans hkey⟩

theorem of_eq (h : s'.carrierLanes = s.carrierLanes) : KeepsLanes key s s' := by
  intro id l hl
  rw [h] at hl
  exact ⟨l, hl, rfl⟩

theorem of_del {id : ℕ} (h : s'.carrierLanes = s.carrierLanes.del id) : KeepsLanes key s s' := by
  intro i l hl
  rw [h, Table.get_del] at hl
  split_ifs at hl
  exact ⟨l, hl, rfl⟩

theorem putStream (s : Session) (id : ℕ) (st : StreamState) :
    KeepsLanes key s (s.putStream id st) := of_eq rfl

theorem putLane {id : ℕ} {l l' : CarrierLane} (hl : s.carrierLanes.get id = some l)
    (hkey : key l' = key l) : KeepsLanes key s (s.putLane id l') := by
  intro i l₁ hl₁
  rw [Session.putLane_lanes, Table.get_put] at hl₁
  split_ifs at hl₁ with hi
  · cases hl₁
    exact ⟨l, hi ▸ hl, hkey⟩
  · exact ⟨l₁, hl₁, rfl⟩

/-- A write to the lanes that leaves the key of each. -/
theorem of_map {f : ℕ → CarrierLane → CarrierLane}
    (h : ∀ id, s'.carrierLanes.get id = (s.carrierLanes.get id).map (f id))
    (hkey : ∀ id l, key (f id l) = key l) : KeepsLanes key s s' := by
  intro id l' hl'
  rw [h] at hl'
  obtain ⟨l, hl, rfl⟩ := Option.map_eq_some_iff.mp hl'
  exact ⟨l, hl, hkey id l⟩

theorem modifyLane (s : Session) (id object : ℕ) {f : CarrierLane → CarrierLane}
    (hf : ∀ l, key (f l) = key l) : KeepsLanes key s (s.modifyLane id object f) := by
  refine of_map (fun i => s.modifyLane_lanes id object i f) fun i l => ?_
  split_ifs
  · exact hf l
  · rfl

variable (hdown : ∀ l d, key { l with down := d } = key l)
include hdown

theorem setQueue (s : Session) (q : QueueRef) (d : Downlink) :
    KeepsLanes key s (s.setQueue q d) := by
  refine of_map (fun id => s.setQueue_lanes id q d) fun id l => ?_
  split_ifs
  · exact hdown l d
  · rfl

theorem queueResult {ty : FrameType} {id : ℕ} {payload : Bytes} {es : List Event} {ok : Bool}
    (h : QueueResult s ty id payload es s' ok) : KeepsLanes key s s' := by
  cases h with
  | refused => exact refl s
  | @accepted q d cost items notify _ _ =>
      have hpending : KeepsLanes key s (s.setPending cost items notify) := of_eq rfl
      exact hpending.trans (setQueue hdown _ _ _)

theorem signalLane (s : Session) (id : ℕ) : KeepsLanes key s (s.signalLane id) := by
  unfold Session.signalLane
  cases hl : s.carrierLanes.get id with
  | none => exact refl s
  | some lane => exact putLane hl (hdown lane _)

end KeepsLanes

/-- A change keeps the lanes, up to the books and the sockets it is allowed to write, or it creates
one. -/
theorem Change.keeps_or_creates {scope : Scope} {σ σ' : Traced} (h : Change scope σ σ')
    (hdown : ∀ l d, key { l with down := d } = key l)
    (hsockets : scope.sockets = true → ∀ l l', l'.object = l.object →
      l'.lastUpSequence = l.lastUpSequence → key l' = key l)
    (huplink : scope.uplink = true → ∀ l l', l'.object = l.object →
      l'.websocketActive = l.websocketActive → key l' = key l) :
    KeepsLanes key σ.session σ'.session ∨
      scope.lanes = true ∧ ∃ id, σ'.session = (σ.session.createLane id).1 := by
  cases h with
  | drained _ _ _ _ _ _ h _ =>
      exact .inl ((KeepsLanes.putStream _ _ _).trans (.queueResult hdown h))
  | read _ _ _ _ h _ => exact .inl ((KeepsLanes.putStream _ _ _).trans (.queueResult hdown h))
  | queueClose _ _ _ h _ _ _ => exact .inl (.queueResult hdown h)
  | rememberFull => exact .inl (.of_del rfl)
  | createLane _ _ _ hscope => exact .inr ⟨hscope, _, rfl⟩
  | touchLane hl hobject _ hsequence _ hscope =>
      exact .inl (.putLane hl (hsockets hscope _ _ hobject hsequence))
  | dropLane => exact .inl (.of_del rfl)
  | attend => exact .inl (.setQueue hdown _ _ _)
  | acknowledge => exact .inl (.setQueue hdown _ _ _)
  | deliver => exact .inl (.setQueue hdown _ _ _)
  | close => exact .inl (.of_map (fun id => Table.get_mapValues ..) fun _ l => hdown l _)
  | laneUplink hscope id object f hobject _ hsocket =>
      exact .inl (.modifyLane _ _ _ fun l => huplink hscope _ _ (hobject l) (hsocket l))
  | _ => exact .inl (.of_eq rfl)

/-- What creates no lane keeps the lanes. -/
theorem Changes.keepsLanes {scope : Scope} {σ σ' : Traced} (h : Changes scope σ σ')
    (hdown : ∀ l d, key { l with down := d } = key l) (hlanes : scope.lanes = false)
    (hsockets : scope.sockets = true → ∀ l l', l'.object = l.object →
      l'.lastUpSequence = l.lastUpSequence → key l' = key l)
    (huplink : scope.uplink = true → ∀ l l', l'.object = l.object →
      l'.websocketActive = l.websocketActive → key l' = key l) :
    KeepsLanes key σ.session σ'.session := by
  refine h.invariant (I := fun τ => KeepsLanes key σ.session τ.session) (fun hc hI => ?_) (.refl _)
  rcases hc.keeps_or_creates hdown hsockets huplink with hkeep | ⟨hcreate, -⟩
  · exact hI.trans hkeep
  · rw [hlanes] at hcreate
    cases hcreate

/-! ### Tombstones -/

/-- What `rememberClosedLocked` does before it wakes the lane: at most one lane goes, the one whose
tombstone is evicted. -/
structure MakesRoom (s s' : Session) : Prop where
  streams : s'.streams = s.streams
  lanes : s'.carrierLanes = s.carrierLanes ∧ s'.releasedLanes = s.releasedLanes ∨
    ∃ old l, s.carrierLanes.get old = some l ∧ s'.carrierLanes = s.carrierLanes.del old ∧
      s'.releasedLanes = s.releasedLanes.put l.object l.drop

theorem evictOldest_room (s : Session) (id : ℕ) :
    wp observer (evictOldest s id) (fun t' s' =>
      (∃ old, t' = t ++ [.evicted old]) ∧ MakesRoom s s') t := by
  unfold evictOldest
  simp only [announce_bind, wp_note]
  cases hl : s.carrierLanes.get (s.closedOrder.getD s.closedStart 0) with
  | none => exact ⟨⟨_, rfl⟩, rfl, .inl ⟨rfl, rfl⟩⟩
  | some lane =>
      refine wp_seq (releaseLaneLocked_obs _ lane) ?_
      rintro t' ⟨s', lane'⟩ ⟨rfl, ⟨cost, items, notify, rfl⟩, rfl⟩
      exact ⟨⟨_, rfl⟩, rfl, .inr ⟨_, lane, hl, rfl, rfl⟩⟩

theorem rememberClosedLocked_room (s : Session) (id : ℕ) :
    wp observer (rememberClosedLocked s id) (fun t' s' => ∃ es s₁, t' = t ++ es ∧
      (∀ i b, .opened i b ∉ es) ∧ MakesRoom s s₁ ∧ (s' = s₁ ∨ s' = s₁.signalLane id)) t := by
  unfold rememberClosedLocked
  by_cases hmem : id ∈ s.closedStreams
  · rw [if_pos hmem]
    exact ⟨[], s, (List.append_nil t).symm, by simp, ⟨rfl, .inl ⟨rfl, rfl⟩⟩, .inl rfl⟩
  rw [if_neg hmem]
  dsimp only
  simp only [announce_bind, wp_note]
  split_ifs
  · refine ⟨[.remembered id], _, rfl, by simp, ?_, .inr rfl⟩
    exact ⟨rfl, .inl ⟨rfl, rfl⟩⟩
  · refine wp_seq (evictOldest_room _ id) ?_
    rintro t' s₁ ⟨⟨old, rfl⟩, hstreams, hlanes⟩
    exact ⟨[.remembered id, .evicted old], s₁, List.append_assoc t _ _, by simp,
      ⟨hstreams, hlanes⟩, .inr rfl⟩

theorem rememberClosedLocked_keepsLanes (key : CarrierLane → α)
    (hdown : ∀ l d, key { l with down := d } = key l) (s : Session) (id : ℕ) :
    wp observer (rememberClosedLocked s id) (fun _ s' => KeepsLanes key s s') t := by
  refine wp_mono (rememberClosedLocked_room s id) ?_
  rintro t' s' ⟨es, s₁, -, -, ⟨-, hlanes⟩, hs'⟩
  have hroom : KeepsLanes key s s₁ := by
    rcases hlanes with ⟨hsame, -⟩ | ⟨old, l, -, hdel, -⟩
    · exact .of_eq hsame
    · exact .of_del hdel
  rcases hs' with rfl | rfl
  · exact hroom
  · exact hroom.trans (.signalLane hdown s₁ id)

end TproxyServer
