import TproxyServer.Manager

/-! # The process budget is the sum of what its sessions hold

A closed session holds nothing, an idle session's counters are exactly the charges it holds,
and the manager's counters are the sum over the sessions.  The invariant of a session in the
middle of a section is the weakest precondition of the rest of that section. -/

namespace TproxyServer

open Interaction Prog

variable {limits : Limits} {carrier : CarrierMode} {s s' : Session} {t : List Event}
  {sha256 : Bytes → Bytes}

/-! ### Closed sessions -/

/-- Once closed, a session holds nothing. -/
def Session.Emptied (s : Session) : Prop := s.closed = true → s.held = 0

theorem Session.Emptied.of_held (h : s.Emptied) (hclosed : s'.closed = s.closed)
    (hheld : s'.held = s.held) : s'.Emptied := by
  intro hc
  rw [hheld]
  exact h (hclosed ▸ hc)

theorem Session.Emptied.of_open (h : s.closed = false) : s.Emptied := by
  intro hc
  rw [h] at hc
  cases hc

theorem setQueue_closed (s : Session) (q : QueueRef) (d : Downlink) :
    (s.setQueue q d).closed = s.closed := by
  obtain ⟨down, lanes, released, he⟩ := s.setQueue_eq q d
  rw [he]

theorem Change.emptied {scope : Scope} {σ σ' : Traced} (h : Change scope σ σ')
    (hs : Sound limits carrier σ) (hd : σ.session.Downlinks Downlink.Well)
    (hz : σ.session.Emptied) : σ'.session.Emptied := by
  cases h with
  | openStream hopen _ _ _ _ _ _ => exact .of_open hopen
  | stream hopen _ _ _ => exact .of_open hopen
  | drained hopen _ _ _ _ _ h _ => exact .of_open (h.closedStreams.2.2.trans hopen)
  | read hopen _ _ _ h _ => exact .of_open (h.closedStreams.2.2.trans hopen)
  | queueClose hopen _ _ h _ _ _ => exact .of_open (h.closedStreams.2.2.trans hopen)
  | @endStream s t id st hst _ _ =>
      intro hc
      have hended := hs.ended hc id
      rw [hst] at hended
      cases hended
  | rememberRoom hopen _ _ _ _ => exact .of_open hopen
  | rememberFull hopen _ _ _ _ _ => exact .of_open hopen
  | createLane hopen _ _ _ => exact .of_open hopen
  | @touchLane s t id l l' hl _ hdown _ _ _ =>
      have hput := held_putLane l' hl
      rw [CarrierLane.held, CarrierLane.held, hdown] at hput
      exact hz.of_held rfl (add_left_cancel hput)
  | @dropLane s t id l hl _ _ _ =>
      intro hc
      have hdel := held_delLane l.drop hl
      rw [hz hc] at hdel
      exact (add_eq_zero.mp hdel).2
  | attend => exact hz.of_held (setQueue_closed _ _ _) (held_setQueue_same rfl)
  | @acknowledge s t q hq _ _ =>
      intro hc
      have hzero : s.held = 0 := hz ((setQueue_closed s q _).symm.trans hc)
      by_cases hatt : ∀ id object, q = .lane id object → s.attached id object ≠ none
      · have hput := held_setQueue (s.queue q).acknowledge hatt
        show (s.setQueue q (s.queue q).acknowledge).held = 0
        rw [hzero] at hput
        generalize (s.setQueue q (s.queue q).acknowledge).held = rest at hput ⊢
        have hcost := congrArg Prod.fst hput
        have hitems := congrArg Prod.snd hput
        simp only [Downlink.held, Downlink.acknowledge, Prod.fst_add, Prod.snd_add,
          Prod.fst_zero, Prod.snd_zero] at hcost hitems
        refine Prod.ext ?_ ?_
        · exact Nat.eq_zero_of_le_zero (by omega)
        · exact Nat.eq_zero_of_le_zero (by omega)
      · rw [← hzero]
        exact held_setQueue_detached _ hatt
  | @deliver s t q cursor mine _ hmine hframes _ =>
      have hwell := hd.queue .new q
      have hparked : (s.queue q).superseded ≠ none := by rw [hmine]; simp
      obtain ⟨hcost, hitems⟩ := hwell.acknowledged (hwell.parked hparked)
      exact hz.of_held (setQueue_closed _ _ _)
        (held_setQueue_same (takeBatch_held s.limits cursor hcost hitems))
  | @close s t =>
      intro _
      show s.down.drop.held + Table.total CarrierLane.held
        (s.carrierLanes.mapValues CarrierLane.drop) + 0 = 0
      rw [total_drop]
      rfl
  | @laneUplink s t _ id object f _ hdown _ =>
      obtain ⟨lanes, released, he⟩ := s.modifyLane_eq id object f
      exact hz.of_held (by rw [he]) (held_modifyLane hdown)
  | _ => exact hz.of_held rfl rfl

/-- **A closed session holds nothing**, in every reachable state. -/
theorem Reachable.emptied {σ : Traced} (h : Reachable sha256 limits carrier σ) :
    σ.session.Emptied := by
  have hstart : (newSession limits carrier).Emptied := by
    refine .of_open ?_
    unfold newSession
    split_ifs <;> rfl
  exact (h.invariant (I := fun σ => σ.session.Downlinks Downlink.Well ∧ σ.session.Emptied)
    ⟨newSession_downlinks limits carrier, hstart⟩
    fun hc hs hI => ⟨hc.downlinks hI.1, hc.emptied hs hI.1 hI.2⟩).2

/-! ### The manager -/

theorem changePendingBudget_cases {m m' : Manager} {cost items : ℤ} {cls : PendingClass}
    {granted : Bool} (h : changePendingBudget m cost items cls = .ok (m', granted)) :
    (granted = true ∧ m'.pending = m.pending + (cost, items)) ∨
      (granted = false ∧ m'.pending = m.pending ∧ (0 < cost ∨ 0 < items)) := by
  unfold changePendingBudget at h
  dsimp only at h
  split_ifs at h with hlimit
  · cases h
    exact .inr ⟨rfl, rfl, hlimit.1⟩
  · cases h
    exact .inl ⟨rfl, rfl⟩

theorem changePendingBudget_ok {m : Manager} {cost items : ℤ} {cls : PendingClass}
    (h : 0 ≤ m.pending + (cost, items)) (w : ManagerPanic) :
    changePendingBudget m cost items cls ≠ .error w := by
  have hc : 0 ≤ m.pendingGlobalCost + cost := h.1
  have hi : 0 ≤ m.pendingGlobalItems + items := h.2
  unfold changePendingBudget
  dsimp only
  split_ifs with _ hbad
  · simp
  · omega
  · simp

/-! ### The invariant of the process -/

/-- A session at rest is balanced; one in the middle of a section will be at its end, whatever
the manager answers, and will have reached a state of its own system. -/
def Slot.Accounted (sha256 : Bytes → Bytes) : Slot → Prop
  | .idle σ => Balanced 0 σ.session ∧
      ∃ limits carrier, TproxyServer.Reachable sha256 limits carrier σ
  | .running t p g => 0 ≤ g ∧ wp ledger p Settled g ∧
      ∃ limits carrier, ∀ es s r, Runs p es (.ok (s, r)) →
        TproxyServer.Reachable sha256 limits carrier ⟨s, t ++ es⟩

theorem Slot.Accounted.nonneg {slot : Slot} (h : slot.Accounted sha256) : 0 ≤ slot.charge := by
  cases slot with
  | idle σ => exact ⟨Int.natCast_nonneg _, Int.natCast_nonneg _⟩
  | running t p g => exact h.1

namespace Process

/-- Every session keeps its books, and the manager's counters are their sum. -/
structure Accounted (sha256 : Bytes → Bytes) (P : Process) : Prop where
  slots : ∀ k slot, P.sessions.get k = some slot → slot.Accounted sha256
  total : P.manager.pending = Table.total Slot.charge P.sessions

variable {P P' : Process} {k : ℕ} {slot slot' : Slot}

theorem slots_set (h : ∀ k slot, P.sessions.get k = some slot → slot.Accounted sha256)
    (hslot : slot.Accounted sha256) :
    ∀ i slot', (P.set k slot).sessions.get i = some slot' → slot'.Accounted sha256 := by
  intro i slot' hi
  have hput : (P.sessions.put k slot).get i = some slot' := hi
  rw [Table.get_put] at hput
  split_ifs at hput
  · cases hput
    exact hslot
  · exact h i slot' hput

/-- A session moves on while the manager's counters stay. -/
theorem Accounted.set (h : P.Accounted sha256) (hget : P.sessions.get k = some slot)
    (hslot : slot'.Accounted sha256) (hcharge : slot'.charge = slot.charge) :
    (P.set k slot').Accounted sha256 where
  slots := slots_set h.slots hslot
  total := by
    have hput := Table.total_put_of_get Slot.charge P.sessions (w := slot') hget
    rw [hcharge] at hput
    exact h.total.trans (add_left_cancel hput).symm

/-- What one session was granted is at most what all were. -/
theorem Accounted.charge_le (h : P.Accounted sha256) (hget : P.sessions.get k = some slot) :
    slot.charge ≤ P.manager.pending := by
  rw [h.total, Table.total_eq_get_add_del Slot.charge P.sessions hget]
  refine le_add_of_nonneg_right (Table.total_nonneg _ _ fun e he => ?_)
  have hdel := Table.get_of_mem _ he
  rw [Table.get_del] at hdel
  split_ifs at hdel
  exact (h.slots e.1 e.2 hdel).nonneg

/-- A call the session may make does not drive the manager's counters below zero. -/
theorem Accounted.budget_ok (h : P.Accounted sha256) {t : List Event} {cost items : ℤ}
    {cls : PendingClass} {next : Bool → Act (Session × Reply)} {g : ℤ × ℤ}
    (hget : P.sessions.get k = some (.running t (.ask (.budget cost items cls) next) g)) :
    0 ≤ g + (cost, items) ∧ 0 ≤ P.manager.pending + (cost, items) := by
  obtain ⟨hg, ⟨hdemand, -⟩, -⟩ := h.slots k _ hget
  have hle : g ≤ P.manager.pending := h.charge_le hget
  have hown : 0 ≤ g + (cost, items) := by
    rcases hdemand with ⟨hc, hi⟩ | ⟨-, -, hc, hi⟩
    · exact add_nonneg hg ⟨hc, hi⟩
    · exact ⟨hc, hi⟩
  exact ⟨hown, hown.trans (add_le_add_left hle _)⟩

theorem Accounted.step (h : P.Accounted sha256) (hs : Step sha256 P P') :
    P'.Accounted sha256 := by
  cases hs with
  | @create k hnone limits carrier =>
      have hb : Balanced 0 (newSession limits carrier) := by
        unfold newSession
        split_ifs <;> exact ⟨rfl, rfl⟩
      have h0 : (newSession limits carrier).pending = 0 := by
        unfold newSession
        split_ifs <;> rfl
      refine ⟨slots_set h.slots ⟨hb, limits, carrier, .start⟩, ?_⟩
      have hput := Table.total_put_of_none Slot.charge P.sessions
        (.idle ⟨newSession limits carrier, []⟩) hnone
      have hcharge : Slot.charge (.idle ⟨newSession limits carrier, []⟩) = 0 := h0
      rw [hcharge, zero_add] at hput
      exact h.total.trans hput.symm
  | @begin k σ hget c hc =>
      obtain ⟨hb, limits, carrier, hr⟩ := h.slots k _ hget
      refine h.set hget ⟨⟨Int.natCast_nonneg _, Int.natCast_nonneg _⟩,
        Section.balanced sha256 hr.sound hr.downlinks hb c, limits, carrier, ?_⟩ rfl
      intro es s r hrun
      exact hr.step (.run hc hrun)
  | @note k t e p g hget =>
      obtain ⟨hg, hw, limits, carrier, hr⟩ := h.slots k _ hget
      refine h.set hget ⟨hg, hw, limits, carrier, fun es s r hrun => ?_⟩ rfl
      have := hr (e :: es) s r (.note hrun)
      rwa [List.append_cons] at this
  | @budget k t cost items cls next g m granted hget hm =>
      obtain ⟨hg, ⟨hdemand, hanswer⟩, limits, carrier, hr⟩ := h.slots k _ hget
      have hreach := fun es s r hrun => hr es s r (.ask granted hrun)
      rcases changePendingBudget_cases hm with ⟨rfl, hpending⟩ | ⟨rfl, hpending, hpos⟩
      · refine ⟨slots_set h.slots ⟨(h.budget_ok hget).1,
          hanswer true _ (.inl ⟨rfl, rfl⟩), limits, carrier, hreach⟩, ?_⟩
        show m.pending = Table.total Slot.charge (P.sessions.put k _)
        rw [hpending, h.total, Table.total_put,
          Table.total_eq_get_add_del Slot.charge P.sessions hget]
        exact add_right_comm _ _ _
      · have hsame := @Accounted.set sha256 P k _ (.running t (next false) g) h hget
          ⟨hg, hanswer false _ (.inr ⟨rfl, rfl, hpos⟩), limits, carrier, hreach⟩ rfl
        exact ⟨hsame.slots, hpending.trans hsame.total⟩
  | @acquire k t next g hget granted =>
      obtain ⟨hg, ⟨-, hanswer⟩, limits, carrier, hr⟩ := h.slots k _ hget
      exact h.set hget ⟨hg, hanswer granted g rfl, limits, carrier,
        fun es s r hrun => hr es s r (.ask granted hrun)⟩ rfl
  | @finish k t s r g hget =>
      obtain ⟨hg, ⟨hl, hb⟩, limits, carrier, hr⟩ := h.slots k _ hget
      refine h.set hget ⟨hb, limits, carrier, ?_⟩ hl.symm
      have := hr [] s r (.done (s, r))
      rwa [List.append_nil] at this

theorem Reachable.accounted (h : Reachable sha256 limits P) : P.Accounted sha256 := by
  induction h with
  | start => exact ⟨by rintro _ _ ⟨⟩, rfl⟩
  | step _ hs ih => exact ih.step hs

/-! ### The accounts -/

/-- The accounts of a process are exact. -/
structure Exact (P : Process) : Prop where
  /-- The counters of an idle session are the charges that its queues, its unacknowledged
  batches and its streams hold. -/
  sessions : ∀ k σ, P.sessions.get k = some (.idle σ) →
    (σ.session.pendingCost, σ.session.pendingItems) = σ.session.held
  /-- A closed session holds nothing. -/
  closed : ∀ k σ, P.sessions.get k = some (.idle σ) → σ.session.closed = true →
    σ.session.pendingCost = 0 ∧ σ.session.pendingItems = 0
  /-- The manager's counters are the sum over all sessions. -/
  global : P.manager.pending = Table.total Slot.charge P.sessions
  /-- No section comes to the panic of `releasePendingLocked`. -/
  release : ∀ k t g, P.sessions.get k ≠ some (.running t (.panic .invalidRelease) g)
  /-- No section comes to the panic of `changePendingBudget`. -/
  budget : ∀ k t cost items cls next g w,
    P.sessions.get k = some (.running t (.ask (.budget cost items cls) next) g) →
      changePendingBudget P.manager cost items cls ≠ .error w

/-- **Exact budget accounting**, in every reachable state of a process. -/
theorem budget_exact (h : Reachable sha256 limits P) : P.Exact := by
  have ha := h.accounted
  have hidle : ∀ k σ, P.sessions.get k = some (.idle σ) →
      (σ.session.pendingCost, σ.session.pendingItems) = σ.session.held := by
    intro k σ hk
    obtain ⟨⟨hc, hi⟩, -⟩ := ha.slots k _ hk
    refine Prod.ext ?_ ?_
    · simpa using hc
    · simpa using hi
  refine ⟨hidle, ?_, ha.total, ?_, ?_⟩
  · intro k σ hk hclosed
    obtain ⟨-, limits', carrier, hr⟩ := ha.slots k _ hk
    exact Prod.mk.inj ((hidle k σ hk).trans (hr.emptied hclosed))
  · intro k t g hk
    obtain ⟨-, hw, -⟩ := ha.slots k _ hk
    exact hw rfl
  · intro k t cost items cls next g w hk
    exact changePendingBudget_ok (ha.budget_ok hk).2 w

/-- One byte written to a freshly opened stream is charged 257 everywhere. -/
theorem budget_exact_one_write : ∃ P : Process, P.manager.pendingGlobalCost = 257 ∧ P.Exact := by
  let c : Section := .processUpCommit 1 (encode .open 1 [] ++ encode .data 1 [7])
  let P : Process := { manager := { limits := defaultLimits, sessions_pos := by decide } }
  let P₁ := P.set 0 (.idle ⟨newSession defaultLimits .https, []⟩)
  have hcreate : Reachable id defaultLimits P₁ := (Reachable.start (by decide)).step
    (.create rfl defaultLimits .https)
  have hcall : c.Callable (newSession defaultLimits .https) := by decide
  have hbegin := hcreate.step (.begin (k := 0) rfl c hcall)
  have hdrive : (drive 0 P₁ [] (c.exec id (newSession defaultLimits .https)) 0 []).map
      (·.manager.pendingGlobalCost) = some 257 := by decide +kernel
  obtain ⟨P', hP', hcost⟩ := Option.map_eq_some_iff.mp hdrive
  exact ⟨P', hcost, budget_exact (hbegin.drive hP')⟩

end Process

end TproxyServer
