import TproxyServer.BudgetAccounting
import TproxyServer.DataBudget
import TproxyServer.DataRoom
import TproxyServer.Representation
import TproxyServer.SectionMargins
import TproxyServer.SessionLimits

/-! # Headroom for control frames

`Watched` is the process with an eye on control frames: for every session it is known how many of
them are charged, for one at rest from its queues and unacknowledged batches, for one in the
middle of a section from the session it began on and what was granted since.  The sessions have
the limits of configured profiles; otherwise the steps are those of `Process`.

DATA is admitted only outside the control reserves of all sessions, so what the manager counts
beyond that is what some session is charged for control frames.  While no session has used up its
reserve, the next control frame is granted (`control_headroom`). -/

namespace TproxyServer

open Interaction Prog

variable {c : Config} {sha256 : Bytes → Bytes} {p : Profile}

/-! ### The process with its control frames -/

/-- What is known of a section under way. -/
structure Visit where
  call : Section
  /-- The session it began on. -/
  origin : Traced
  /-- The control frames that were charged when it began, and those charged since. -/
  frames : ℕ
  /-- Their charges, less what was released since. -/
  control : ℕ × ℕ
  /-- There was room whenever it asked for a control frame, or one was refused. -/
  calm : Prop

/-- A section begins. -/
def Visit.start (call : Section) (σ : Traced) : Visit where
  call
  origin := σ
  frames := σ.session.controlHeld.2
  control := σ.session.controlHeld
  calm := True

/-- The section has called for charges, or given some back. -/
def Visit.asks (v : Visit) (room : Prop) (cost items : ℤ) (cls : PendingClass) (granted : Bool) :
    Visit :=
  if 0 < cost then
    if cls = .control then
      if granted then { v with
        frames := v.frames + items.toNat
        control := v.control + (cost.toNat, items.toNat)
        calm := v.calm ∧ room }
      else { v with calm := v.calm ∧ room }
    else v
  else { v with control := v.control - ((-cost).toNat, (-items).toNat) }

theorem Visit.asks_released {v : Visit} {room : Prop} {cost items : ℤ} {cls : PendingClass}
    {granted : Bool} (h : ¬ 0 < cost) :
    v.asks room cost items cls granted =
      { v with control := v.control - ((-cost).toNat, (-items).toNat) } := if_neg h

def Visit.notes (v : Visit) (room : Prop) (e : Event) : Visit :=
  { v with calm := v.calm ∧ (e.refusesControl = true → room) }

/-- `Slot` with a visit. -/
inductive Watch where
  | idle (σ : Traced)
  | running (v : Visit) (trace : List Event) (rest : Act (Session × Reply)) (granted : ℤ × ℤ)

namespace Watch

def slot : Watch → Slot
  | idle σ => .idle σ
  | running _ t rest g => .running t rest g

/-- The session as it was found when nobody was at it. -/
def session : Watch → Session
  | idle σ => σ.session
  | running v _ _ _ => v.origin.session

/-- How many control frames the session is charged for. -/
def frames : Watch → ℕ
  | idle σ => σ.session.controlHeld.2
  | running v _ _ _ => v.frames

def control : Watch → ℕ × ℕ
  | idle σ => σ.session.controlHeld
  | running v _ _ _ => v.control

def isOpen (w : Watch) : Bool := !w.session.closed

end Watch

structure Watched where
  manager : Manager
  slots : Table ℕ Watch := .nil

namespace Watched

variable {W W' : Watched} {k : ℕ} {w w' : Watch}

def process (W : Watched) : Process where
  manager := W.manager
  sessions := W.slots.mapValues Watch.slot

def set (W : Watched) (k : ℕ) (w : Watch) : Watched := { W with slots := W.slots.put k w }

/-- No more sessions are open than the budget is shared among, and each open one is charged for
fewer control frames than its reserve counts. -/
structure Room (W : Watched) : Prop where
  sessions : Table.countP Watch.isOpen W.slots ≤ W.manager.limits.maxSessionsGlobal
  frames : ∀ k w, W.slots.get k = some w → w.session.closed = false →
    w.frames < (pendingControlReserve w.session.limits).2

/-- `Process.Step`, for sessions of the profiles of a configuration. -/
inductive Step (sha256 : Bytes → Bytes) (c : Config) : Watched → Watched → Prop
  | create {W : Watched} {k : ℕ} {p : Profile} (h : W.slots.get k = none) (hp : p ∈ c.profiles) :
      Step sha256 c W (W.set k (.idle ⟨newSession (c.sessionLimits p) p.carrierMode, []⟩))
  | begin {W : Watched} {k : ℕ} {σ : Traced} (h : W.slots.get k = some (.idle σ))
      (call : Section) (hc : call.Callable σ.session) :
      Step sha256 c W (W.set k
        (.running (.start call σ) σ.trace (call.exec sha256 σ.session) σ.session.pending))
  | note {W : Watched} {k : ℕ} {v : Visit} {t : List Event} {e : Event}
      {rest : Act (Session × Reply)} {g : ℤ × ℤ}
      (h : W.slots.get k = some (.running v t (.note e rest) g)) :
      Step sha256 c W (W.set k (.running (v.notes W.Room e) (t ++ [e]) rest g))
  | budget {W : Watched} {k : ℕ} {v : Visit} {t : List Event} {cost items : ℤ}
      {cls : PendingClass} {next : Bool → Act (Session × Reply)} {g : ℤ × ℤ} {m : Manager}
      {granted : Bool}
      (h : W.slots.get k = some (.running v t (.ask (.budget cost items cls) next) g))
      (hm : changePendingBudget W.manager cost items cls = .ok (m, granted)) :
      Step sha256 c W ({ W with manager := m }.set k
        (.running (v.asks W.Room cost items cls granted) t (next granted)
          (if granted then g + (cost, items) else g)))
  | acquire {W : Watched} {k : ℕ} {v : Visit} {t : List Event}
      {next : Bool → Act (Session × Reply)} {g : ℤ × ℤ}
      (h : W.slots.get k = some (.running v t (.ask .acquireStream next) g)) (granted : Bool) :
      Step sha256 c W (W.set k (.running v t (next granted) g))
  | finish {W : Watched} {k : ℕ} {v : Visit} {t : List Event} {s : Session} {r : Reply}
      {g : ℤ × ℤ} (h : W.slots.get k = some (.running v t (.done (s, r)) g)) :
      Step sha256 c W (W.set k (.idle ⟨s, t⟩))

theorem sessions_pos (c : Config) : 0 < (c.limits.global c.valid).maxSessionsGlobal := by
  have hlisted : c.limits.maxSessionsGlobal ∈ c.limits.positive := by simp [Config.Limits.positive]
  exact Config.toNatClampNeg_pos (Config.Limits.validate_positive c.valid _ hlisted)

/-- `NewManager`. -/
def newManager (c : Config) : Manager where
  limits := c.limits.global c.valid
  sessions_pos := sessions_pos c

/-- The states of the process of a configuration. -/
inductive Reachable (sha256 : Bytes → Bytes) (c : Config) : Watched → Prop
  | start : Reachable sha256 c { manager := newManager c }
  | step {W W' : Watched} : Reachable sha256 c W → Step sha256 c W W' → Reachable sha256 c W'

theorem set_set (W : Watched) (k : ℕ) (w w' : Watch) : (W.set k w).set k w' = W.set k w' := by
  simp only [set, Table.put_put_self]

/-! ### The process beneath -/

theorem process_get (h : W.slots.get k = some w) :
    W.process.sessions.get k = some w.slot := by
  show (W.slots.mapValues Watch.slot).get k = _
  rw [Table.get_mapValues, h]
  rfl

theorem process_set (W : Watched) (k : ℕ) (w : Watch) :
    (W.set k w).process = W.process.set k w.slot := by
  unfold process set Process.set
  dsimp only
  rw [Table.mapValues_put]

theorem Step.process (h : Step sha256 c W W') : Process.Step sha256 W.process W'.process := by
  cases h with
  | @create k p h hp =>
      rw [process_set]
      refine .create ?_ _ _
      show (W.slots.mapValues Watch.slot).get k = none
      rw [Table.get_mapValues, h]
      rfl
  | begin h call hc =>
      rw [process_set]
      exact .begin (process_get h) call hc
  | note h =>
      rw [process_set]
      exact .note (process_get h)
  | budget h hm =>
      rw [process_set]
      exact .budget (process_get h) hm
  | acquire h granted =>
      rw [process_set]
      exact .acquire (process_get h) granted
  | finish h =>
      rw [process_set]
      exact .finish (process_get h)

theorem Reachable.process (h : Reachable sha256 c W) :
    Process.Reachable sha256 (c.limits.global c.valid) W.process := by
  induction h with
  | start => exact .start (newManager c).sessions_pos
  | step _ hs ih => exact ih.step hs.process

/-- A section that is driven to its end in the process is watched to its end. -/
theorem Reachable.drive {v : Visit} {t : List Event} {rest : Act (Session × Reply)} {g : ℤ × ℤ}
    {answers : List Bool} {P : Process}
    (h : Reachable sha256 c (W.set k (.running v t rest g)))
    (hd : Process.drive k W.process t rest g answers = some P) :
    ∃ m σ, Reachable sha256 c ({ W with manager := m }.set k (.idle σ)) ∧
      P = ({ W with manager := m }.set k (.idle σ)).process := by
  have hget : ∀ (V : Watched) w, (V.set k w).slots.get k = some w :=
    fun V w => Table.get_put_self V.slots k w
  induction rest generalizing W v t g answers with
  | done r =>
      obtain ⟨s, r⟩ := r
      have hfinish := h.step (.finish (hget W _))
      rw [set_set] at hfinish
      refine ⟨W.manager, ⟨s, t⟩, hfinish, ?_⟩
      rw [process_set]
      exact (Option.some.inj hd).symm
  | ask q next ih =>
      cases q with
      | acquireStream =>
          have hstep := h.step (.acquire (hget W _) (answers.headD true))
          rw [set_set] at hstep
          exact ih _ hstep hd
      | budget cost items cls =>
          unfold Process.drive at hd
          split at hd
          · cases hd
          · next m granted hm =>
              have hstep := h.step (.budget (hget W _) hm)
              rw [show ({ W.set k _ with manager := m } : Watched) =
                { W with manager := m }.set k _ from rfl, set_set] at hstep
              exact @ih granted { W with manager := m } _ _ _ _ hstep hd
  | note e rest ih =>
      have hstep := h.step (.note (hget W _))
      rw [set_set] at hstep
      exact ih hstep hd
  | panic w => cases hd

end Watched

/-! ### The reserves -/

namespace Config

theorem orElse_le {value fallback limit : Int64} (h : ¬ limit < value) (h' : ¬ limit < fallback) :
    orElse value fallback ≤ limit := by
  unfold orElse
  split_ifs
  · exact Int64.not_lt.mp h'
  · exact Int64.not_lt.mp h

theorem toNatClampNeg_le {value limit : Int64} (h : value ≤ limit) :
    value.toNatClampNeg ≤ limit.toNatClampNeg :=
  Int.toNat_le_toNat (Int64.le_iff_toInt_le.mp h)

/-- The streams and the budget of a session are no more than the limits of the process say. -/
theorem sessionLimits_le (hp : p ∈ c.profiles) :
    (c.sessionLimits p).maxStreamsPerSession ≤
        (c.limits.global c.valid).maxStreamsPerSession ∧
      (c.sessionLimits p).maxPendingPerSession ≤
        (c.limits.global c.valid).maxPendingPerSession := by
  have hgiven : ∀ check ∈ profileChecks p.limits c.limits, ¬ check.limit < check.value := by
    intro check hcheck hlt
    have := profileChecks_pass hp check hcheck
    simp [LimitCheck.fails, hlt] at this
  have hmin : ¬ c.limits.maxStreamsPerSession < minInt c.limits.maxStreamsPerSession
      (orElse p.limits.maxStreams c.limits.maxStreamsGlobal) := by
    unfold minInt
    split_ifs with h
    · exact Int64.lt_irrefl
    · exact h
  refine ⟨toNatClampNeg_le (orElse_le ?_ hmin), toNatClampNeg_le (orElse_le ?_ Int64.lt_irrefl)⟩
  · exact hgiven ⟨"max_streams_per_session", _, c.limits.maxStreamsPerSession⟩
      (by simp [profileChecks])
  · exact hgiven ⟨"max_pending_per_session", _, c.limits.maxPendingPerSession⟩
      (by simp [profileChecks])

end Config

/-- What is within the reserve of a session is within the reserve that is set aside for one, when
its limits are no greater. -/
theorem pendingControlReserve_covers {limits large : Limits}
    (hstreams : limits.maxStreamsPerSession ≤ large.maxStreamsPerSession)
    (hcost : limits.maxPendingPerSession ≤ large.maxPendingPerSession)
    (hitems : limits.maxPendingItemsPerSession ≤ large.maxPendingItemsPerSession)
    (charges : ℕ × ℕ) {n : ℕ} (hn : n ≤ (pendingControlReserve limits).2)
    (hcounted : charges.1 ≤ costPerItem * n ∧ charges.2 ≤ n)
    (hwithin : charges.1 ≤ limits.maxPendingPerSession ∧
      charges.2 ≤ limits.maxPendingItemsPerSession) :
    charges.1 ≤ (pendingControlReserve large).1 ∧ charges.2 ≤ (pendingControlReserve large).2 := by
  have hfew : controlReserveExtraItems + limits.maxStreamsPerSession *
      controlReserveItemsPerStream ≤ controlReserveExtraItems + large.maxStreamsPerSession *
      controlReserveItemsPerStream := Nat.add_le_add_left (Nat.mul_le_mul_right _ hstreams) _
  have hall : charges.1 ≤ large.maxPendingPerSession ∧
      charges.2 ≤ large.maxPendingItemsPerSession :=
    ⟨hwithin.1.trans hcost, hwithin.2.trans hitems⟩
  unfold pendingControlReserve at hn ⊢
  dsimp only at hn ⊢
  by_cases hstreams' : (maxInt - controlReserveExtraItems) / controlReserveItemsPerStream <
      large.maxStreamsPerSession
  · rw [if_pos hstreams']
    exact hall
  rw [if_neg hstreams']
  by_cases hwide : maxInt / (queueItemCost + headerSize + 4) <
      controlReserveExtraItems + large.maxStreamsPerSession * controlReserveItemsPerStream
  · rw [if_pos hwide]
    exact hall
  -- the smaller reserve does not overflow either
  rw [if_neg fun h => hstreams' (h.trans_le hstreams),
    if_neg fun h => hwide (h.trans_le hfew)] at hn
  rw [if_neg hwide]
  have hmany := hn.trans hfew
  refine ⟨hcounted.1.trans ?_, hcounted.2.trans hmany⟩
  rw [mul_comm]
  exact Nat.mul_le_mul_right _ hmany

/-- The reserves of all sessions are taken from the budget. -/
theorem withoutReserve_add {limit reserve sessions : ℕ} (hpos : 0 < sessions)
    (h : ¬ limit / sessions < reserve) :
    withoutReserve limit reserve sessions + reserve * sessions ≤ limit := by
  unfold withoutReserve
  rw [if_neg h]
  have hle : reserve * sessions ≤ limit := (Nat.le_div_iff_mul_le hpos).mp (Nat.not_lt.mp h)
  omega

theorem globalPendingLimits_data {limits : Limits} {cls : PendingClass} (hcls : cls ≠ .control) :
    globalPendingLimits limits cls = globalPendingLimits limits .uplink := by
  cases cls with
  | control => exact absurd rfl hcls
  | _ => rfl

theorem changePendingBudget_limits {m m' : Manager} {cost items : ℤ} {cls : PendingClass}
    {granted : Bool} (h : changePendingBudget m cost items cls = .ok (m', granted)) :
    m'.limits = m.limits := by
  unfold changePendingBudget at h
  dsimp only at h
  split_ifs at h
  · cases h
    rfl
  · cases h
    rfl

/-- What is granted is within the limits of its class. -/
theorem changePendingBudget_within {m m' : Manager} {cost items : ℤ} {cls : PendingClass}
    (h : changePendingBudget m cost items cls = .ok (m', true)) (hpos : 0 < cost ∨ 0 < items) :
    m'.pendingGlobalCost ≤ (globalPendingLimits m.limits cls).1 ∧
      m'.pendingGlobalItems ≤ (globalPendingLimits m.limits cls).2 := by
  unfold changePendingBudget at h
  dsimp only at h
  split_ifs at h with hbad
  · cases h
  · cases h
    simp only [not_and, not_or, not_lt] at hbad
    obtain ⟨-, hcost, -, hitems⟩ := hbad hpos
    show m.pendingGlobalCost + cost ≤ _ ∧ m.pendingGlobalItems + items ≤ _
    omega

/-! ### The invariant -/

/-- What is known of a session at rest. -/
def Session.margin (s : Session) : Margin := ⟨s.controlHeld, s.controlHeld.2, True, True⟩

/-- How a section ends that began on this session: it keeps the margin, and has given up neither a
batch nor the session for want of room. -/
structure Section.Done (call : Section) (origin : Session) (limits : Limits) (m : Margin)
    (r : Session × Reply) : Prop where
  kept : Kept limits (origin.closed = false) m r.1
  reply : m.calm → r.2 ≠ .up .aborting
  closed : m.calm → ∀ id backend, call = .backendClosed id backend → r.1.closed = origin.closed

namespace Visit

/-- The margin of a section under way, after these events. -/
structure Reads (v : Visit) (es : List Event) (m : Margin) : Prop where
  control : m.control = v.control
  frames : m.frames = v.frames
  calm : v.calm → m.calm
  clean : m.clean → ∀ e ∈ es, e.refusesControl = false

structure Guarded (sha256 : Bytes → Bytes) (limits : Limits) (carrier : CarrierMode) (v : Visit)
    (t : List Event) (rest : Act (Session × Reply)) : Prop where
  origin : TproxyServer.Reachable sha256 limits carrier v.origin
  ends : ∀ es s r, Runs rest es (.ok (s, r)) →
    TproxyServer.Reachable sha256 limits carrier ⟨s, t ++ es⟩
  keeps : ∃ es m, t = v.origin.trace ++ es ∧ v.Reads es m ∧
    wp (margins limits (v.origin.session.closed = false)) rest
      (v.call.Done v.origin.session limits) m
  counted : v.control.1 ≤ costPerItem * v.frames ∧ v.control.2 ≤ v.frames
  within : v.control.1 ≤ limits.maxPendingPerSession ∧
    v.control.2 ≤ limits.maxPendingItemsPerSession
  closed : v.origin.session.closed = true → v.frames = 0

end Visit

/-- A session at rest is charged beyond its control frames for no more than DATA may have; one in
the middle of a section will be at its end. -/
def Watch.Guarded (sha256 : Bytes → Bytes) (c : Config) : Watch → Prop
  | .idle σ => ∃ p ∈ c.profiles,
      TproxyServer.Reachable sha256 (c.sessionLimits p) p.carrierMode σ ∧
      Kept (c.sessionLimits p) (σ.session.closed = false) σ.session.margin σ.session
  | .running v t rest _ => ∃ p ∈ c.profiles,
      v.Guarded sha256 (c.sessionLimits p) p.carrierMode t rest

/-- What the charges for the control frames of a session come to. -/
structure Watch.Bounded (limits : Limits) (w : Watch) : Prop where
  limits_eq : w.session.limits = limits
  counted : w.control.1 ≤ costPerItem * w.frames ∧ w.control.2 ≤ w.frames
  within : w.control.1 ≤ limits.maxPendingPerSession ∧
    w.control.2 ≤ limits.maxPendingItemsPerSession
  closed : w.session.closed = true → w.frames = 0

theorem maxFramePayload_le (c : Config) (p : Profile) :
    (c.sessionLimits p).maxFramePayload ≤ maxUint32 :=
  (Config.frame_limits c p).2.1.trans (show maxPayload ≤ maxUint32 by decide)

/-- What a session at rest is charged. -/
theorem Watch.idle_bounded {limits : Limits} {carrier : CarrierMode} {σ : Traced} {isOpen : Prop}
    (hr : Reachable sha256 limits carrier σ) (hbound : limits.maxFramePayload ≤ maxUint32)
    (hk : Kept limits isOpen σ.session.margin σ.session) :
    (Watch.idle σ).Bounded limits := by
  obtain ⟨hpart, hpartItems⟩ := hk.part
  obtain ⟨hcost, hitems⟩ := hk.bound
  refine ⟨hk.limits_eq, hk.counted, ⟨hpart.trans hcost, hpartItems.trans hitems⟩,
    fun hclosed => ?_⟩
  have hheld := Session.controlHeld_le_held (hr.prices hbound).priced
  rw [hr.emptied hclosed] at hheld
  exact Nat.eq_zero_of_le_zero hheld.2

theorem Watch.Guarded.bounded {w : Watch} (h : w.Guarded sha256 c) :
    ∃ p ∈ c.profiles, w.Bounded (c.sessionLimits p) := by
  cases w with
  | idle σ =>
      obtain ⟨p, hp, hr, hk⟩ := h
      exact ⟨p, hp, idle_bounded hr (maxFramePayload_le c p) hk⟩
  | running v t rest g =>
      obtain ⟨p, hp, hv⟩ := h
      exact ⟨p, hp, hv.origin.sound.limits_eq, hv.counted, hv.within, hv.closed⟩

namespace Visit.Guarded

variable {limits : Limits} {carrier : CarrierMode} {v : Visit} {t : List Event} {cost items : ℤ}
  {cls : PendingClass} {next : Bool → Act (Session × Reply)} {granted : Bool} {room : Prop}

/-- What a session asks for a control frame. -/
theorem demands
    (h : v.Guarded sha256 limits carrier t (.ask (.budget cost items .control) next)) :
    v.origin.session.closed = false ∧ items = 1 ∧ ∃ n : ℕ, cost = n ∧ 0 < n ∧ n ≤ costPerItem ∧
      v.control.1 + n ≤ limits.maxPendingPerSession ∧
      v.control.2 + 1 ≤ limits.maxPendingItemsPerSession := by
  obtain ⟨es, m, -, hreads, ⟨hopen, hpos, hcost, hitems, hfits, hfitsItems⟩, -⟩ := h.keeps
  obtain ⟨n, rfl⟩ := Int.eq_ofNat_of_zero_le hpos.le
  subst hitems
  rw [hreads.control] at hfits hfitsItems
  exact ⟨hopen, rfl, n, rfl, by omega, by omega, by omega, by omega⟩

/-- A section goes on with an answer; it is refused a control frame only if there is no room. -/
theorem asks (h : v.Guarded sha256 limits carrier t (.ask (.budget cost items cls) next))
    (hrefused : 0 < cost → cls = .control → granted = false → ¬ room) :
    (v.asks room cost items cls granted).Guarded sha256 limits carrier t (next granted) := by
  have hends := fun es s r hrun => h.ends es s r (.ask granted hrun)
  obtain ⟨es, m, ht, hreads, -, hanswer⟩ := h.keeps
  obtain ⟨hcounted, hcountedItems⟩ := h.counted
  obtain ⟨hwithin, hwithinItems⟩ := h.within
  by_cases hpos : 0 < cost
  · by_cases hcls : cls = .control
    · subst hcls
      obtain ⟨hopen, rfl, n, rfl, -, hn, hfits⟩ := h.demands
      cases granted with
      | true =>
          have hasks : v.asks room n 1 .control true = { v with
              frames := v.frames + 1, control := v.control + (n, 1), calm := v.calm ∧ room } := by
            unfold Visit.asks
            rw [if_pos hpos]
            rfl
          rw [hasks]
          refine ⟨h.origin, hends, ⟨es, { m with
              control := m.control + (n, 1), frames := m.frames + 1 }, ht,
            ⟨by rw [← hreads.control], by rw [← hreads.frames], fun hc => hreads.calm hc.1,
              hreads.clean⟩, hanswer true _ ⟨rfl, fun hm => hm, ?_⟩⟩, ⟨?_, ?_⟩, hfits,
            fun hclosed => ?_⟩
          · show Margin.Moves m n 1 .control true _
            rw [Margin.Moves, if_pos hpos]
            exact ⟨rfl, rfl⟩
          · show v.control.1 + n ≤ costPerItem * (v.frames + 1)
            rw [Nat.mul_succ]
            omega
          · exact Nat.succ_le_succ hcountedItems
          · rw [hopen] at hclosed
            cases hclosed
      | false =>
          have hasks : v.asks room n 1 .control false = { v with calm := v.calm ∧ room } := by
            unfold Visit.asks
            rw [if_pos hpos]
            rfl
          rw [hasks]
          refine ⟨h.origin, hends, ⟨es, { m with calm := False }, ht,
            ⟨hreads.control, hreads.frames,
              fun hc => absurd hc.2 (hrefused hpos rfl rfl), hreads.clean⟩,
            hanswer false _ ⟨rfl, False.elim, ?_⟩⟩, h.counted, h.within, h.closed⟩
          show Margin.Moves m n 1 .control false _
          rw [Margin.Moves, if_pos hpos]
          exact ⟨rfl, rfl, id⟩
    · have hasks : v.asks room cost items cls granted = v := by
        unfold Visit.asks
        rw [if_pos hpos, if_neg hcls]
      rw [hasks]
      refine ⟨h.origin, hends, ⟨es, m, ht, hreads, hanswer granted m ⟨rfl, fun hm => hm, ?_⟩⟩,
        h.counted, h.within, h.closed⟩
      show Margin.Moves m cost items cls granted m
      rw [Margin.Moves, if_pos hpos, if_neg hcls]
      exact ⟨rfl, rfl⟩
  · rw [Visit.asks_released hpos]
    refine ⟨h.origin, hends, ⟨es, { m with
        control := m.control - ((-cost).toNat, (-items).toNat) }, ht,
      ⟨by rw [← hreads.control], hreads.frames, hreads.calm, hreads.clean⟩,
      hanswer granted _ ⟨rfl, fun hm => hm, ?_⟩⟩, ⟨?_, ?_⟩, ⟨?_, ?_⟩, h.closed⟩
    · show Margin.Moves m cost items cls granted _
      rw [Margin.Moves, if_neg hpos]
      exact ⟨rfl, rfl⟩
    · exact (Nat.sub_le _ _).trans hcounted
    · exact (Nat.sub_le _ _).trans hcountedItems
    · exact (Nat.sub_le _ _).trans hwithin
    · exact (Nat.sub_le _ _).trans hwithinItems

end Visit.Guarded

/-- At rest a session is charged for its control frames and for no more than DATA may have
beside. -/
theorem Solvent.margin {limits : Limits} {carrier : CarrierMode} {isOpen isOpen' : Prop}
    {m : Margin} {σ : Traced} (h : Solvent limits isOpen m σ.session)
    (hr : Reachable sha256 limits carrier σ) (hbound : limits.maxFramePayload ≤ maxUint32)
    (hb : Balanced 0 σ.session) (hcontrol : m.control ≤ σ.session.controlHeld) :
    Kept limits isOpen' σ.session.margin σ.session := by
  have hpriced := (hr.prices hbound).priced
  obtain ⟨hheld, hheldItems⟩ := Session.controlHeld_le_held hpriced
  obtain ⟨hcontrol, hcontrolItems⟩ := hcontrol
  obtain ⟨hrest, hrestItems⟩ := h.rest
  obtain ⟨hcost, hitems⟩ := hb
  simp only [Prod.fst_zero, Prod.snd_zero] at hcost hitems
  refine ⟨⟨h.limits_eq, h.reserved, h.bound, ⟨?_, ?_⟩, ⟨?_, ?_⟩,
    ⟨Session.controlHeld_counted hpriced, le_rfl⟩, fun _ => trivial⟩, le_rfl⟩
  · show σ.session.controlHeld.1 ≤ _
    omega
  · show σ.session.controlHeld.2 ≤ _
    omega
  · show _ ≤ _ + σ.session.controlHeld.1
    omega
  · show _ ≤ _ + σ.session.controlHeld.2
    omega

namespace Watched

variable {W W' : Watched} {k : ℕ} {w w' : Watch}

/-- What the manager counts beyond the control frames is within what DATA may have. -/
structure Guarded (sha256 : Bytes → Bytes) (c : Config) (W : Watched) : Prop where
  accounted : W.process.Accounted sha256
  limits : W.manager.limits = c.limits.global c.valid
  slots : ∀ k w, W.slots.get k = some w → w.Guarded sha256 c
  cost : W.manager.pendingGlobalCost ≤ (globalPendingLimits W.manager.limits .uplink).1 +
    (Table.total (fun w => w.control.1) W.slots : ℕ)
  items : W.manager.pendingGlobalItems ≤ (globalPendingLimits W.manager.limits .uplink).2 +
    (Table.total (fun w => w.control.2) W.slots : ℕ)

/-- The control frames of a session with room, and one more, are within the reserve that is set
aside for it. -/
theorem Guarded.reserved (h : W.Guarded sha256 c) (hroom : W.Room)
    (hget : W.slots.get k = some w) (hopen : w.session.closed = false) (cost items : ℕ)
    (hcost : cost ≤ costPerItem * items) (hitems : items ≤ 1)
    (hfits : w.control.1 + cost ≤ w.session.limits.maxPendingPerSession ∧
      w.control.2 + items ≤ w.session.limits.maxPendingItemsPerSession) :
    w.control.1 + cost ≤ (pendingControlReserve W.manager.limits).1 ∧
      w.control.2 + items ≤ (pendingControlReserve W.manager.limits).2 := by
  obtain ⟨p, hp, hb⟩ := (h.slots k w hget).bounded
  obtain ⟨hstreams, hpending⟩ := Config.sessionLimits_le hp
  have hfew := hroom.frames k w hget hopen
  rw [hb.limits_eq] at hfew hfits
  rw [h.limits]
  refine pendingControlReserve_covers hstreams hpending le_rfl
    (w.control.1 + cost, w.control.2 + items) (n := w.frames + items) (by omega) ?_ hfits
  obtain ⟨hcounted, hcountedItems⟩ := hb.counted
  rw [mul_add]
  exact ⟨by omega, by omega⟩

/-- Only open sessions are charged for control frames, and none beyond the reserve. -/
theorem Guarded.control_le (h : W.Guarded sha256 c) (hroom : W.Room)
    (hget : W.slots.get k = some w) :
    w.control.1 ≤ (if w.isOpen then (pendingControlReserve W.manager.limits).1 else 0) ∧
      w.control.2 ≤ (if w.isOpen then (pendingControlReserve W.manager.limits).2 else 0) := by
  obtain ⟨p, -, hb⟩ := (h.slots k w hget).bounded
  cases hclosed : w.session.closed with
  | false =>
      have hopen : w.isOpen = true := by rw [Watch.isOpen, hclosed]; rfl
      rw [if_pos hopen, if_pos hopen]
      have hwithin := hb.within
      rw [← hb.limits_eq] at hwithin
      exact h.reserved hroom hget hclosed 0 0 (Nat.zero_le _) (Nat.zero_le _) hwithin
  | true =>
      have hshut : ¬ w.isOpen = true := by rw [Watch.isOpen, hclosed]; decide
      rw [if_neg hshut, if_neg hshut]
      have hcounted := hb.counted
      rw [hb.closed hclosed] at hcounted
      exact hcounted

/-- One limit of the manager: what DATA may have and a reserve for every session. -/
theorem fits {limit data reserve sessions own others cost : ℕ} {pending opened : ℤ}
    (hlimit : data + reserve * sessions ≤ limit) (hpending : pending ≤ data + (own + others : ℕ))
    (hown : own + cost ≤ reserve) (hothers : (others : ℤ) ≤ opened * reserve)
    (hopened : 1 + opened ≤ sessions) : pending + cost ≤ limit := by
  have hall : (1 + opened) * reserve ≤ sessions * reserve :=
    mul_le_mul_of_nonneg_right hopened (Int.natCast_nonneg _)
  have hlimit' : ((data + reserve * sessions : ℕ) : ℤ) ≤ limit := Int.ofNat_le.mpr hlimit
  have hown' : ((own + cost : ℕ) : ℤ) ≤ reserve := Int.ofNat_le.mpr hown
  rw [add_mul, one_mul] at hall
  push_cast at hlimit' hown' hpending
  rw [mul_comm (reserve : ℤ)] at hlimit'
  linarith

/-- **The manager has room for a control frame** of a session with room, whatever DATA is pending
in all sessions. -/
theorem Guarded.granted (h : W.Guarded sha256 c) (hroom : W.Room)
    (hget : W.slots.get k = some w) (hopen : w.session.closed = false) {cost : ℕ}
    (hpos : 0 < cost) (hcost : cost ≤ costPerItem)
    (hfits : w.control.1 + cost ≤ w.session.limits.maxPendingPerSession ∧
      w.control.2 + 1 ≤ w.session.limits.maxPendingItemsPerSession) :
    ∃ m, changePendingBudget W.manager cost 1 .control = .ok (m, true) := by
  have hvalid := c.budgetValid
  rw [← h.limits] at hvalid
  obtain ⟨hbytes, hitems⟩ := validateBudget_ok hvalid
  obtain ⟨hown, hownItems⟩ := h.reserved hroom hget hopen cost 1 (by omega) le_rfl hfits
  -- the other sessions
  have hrest : ∀ i v, (W.slots.del k).get i = some v → W.slots.get i = some v := by
    intro i v hv
    rw [Table.get_del] at hv
    split_ifs at hv
    exact hv
  have hothers : ((Table.total (fun v => v.control.1) (W.slots.del k) : ℕ) : ℤ) ≤
      Table.countP Watch.isOpen (W.slots.del k) * (pendingControlReserve W.manager.limits).1 :=
    Table.total_le_countP fun i v hv => (h.control_le hroom (hrest i v hv)).1
  have hothersItems : ((Table.total (fun v => v.control.2) (W.slots.del k) : ℕ) : ℤ) ≤
      Table.countP Watch.isOpen (W.slots.del k) * (pendingControlReserve W.manager.limits).2 :=
    Table.total_le_countP fun i v hv => (h.control_le hroom (hrest i v hv)).2
  have hcount := hroom.sessions
  rw [Table.countP_del_of_get Watch.isOpen W.slots hget, if_pos (by rw [Watch.isOpen, hopen]; rfl)]
    at hcount
  have hcost' := h.cost
  have hitems' := h.items
  rw [Table.total_eq_get_add_del (fun v : Watch => v.control.1) W.slots hget] at hcost'
  rw [Table.total_eq_get_add_del (fun v : Watch => v.control.2) W.slots hget] at hitems'
  have hdata := withoutReserve_add W.manager.sessions_pos hbytes
  have hdataItems := withoutReserve_add W.manager.sessions_pos hitems
  have hroomCost := fits hdata hcost' hown hothers hcount
  have hroomItems := fits hdataItems hitems' hownItems hothersItems hcount
  have hnonneg : 0 ≤ W.manager.pending := by
    rw [show W.manager.pending = _ from h.accounted.total]
    refine Table.total_nonneg _ _ fun e he => ?_
    exact (h.accounted.slots e.1 e.2 (Table.get_of_mem _ he)).nonneg
  obtain ⟨hnonneg₁, hnonneg₂⟩ : 0 ≤ W.manager.pendingGlobalCost ∧
      0 ≤ W.manager.pendingGlobalItems := hnonneg
  have hlimits : globalPendingLimits W.manager.limits .control =
      (W.manager.limits.maxPendingGlobal, W.manager.limits.maxPendingItemsGlobal) := rfl
  unfold changePendingBudget
  rw [hlimits]
  dsimp only
  rw [if_neg (by omega), if_neg (by omega)]
  exact ⟨_, rfl⟩

/-- A session moves on, and with it the manager. -/
theorem Guarded.set (h : W.Guarded sha256 c) (hget : W.slots.get k = some w) {m : Manager}
    (haccounted : ({ W with manager := m }.set k w').process.Accounted sha256)
    (hlimits : m.limits = W.manager.limits) (hw : w'.Guarded sha256 c)
    (hcost : m.pendingGlobalCost ≤ (globalPendingLimits W.manager.limits .uplink).1 ∨
      m.pendingGlobalCost + w.control.1 ≤ W.manager.pendingGlobalCost + w'.control.1)
    (hitems : m.pendingGlobalItems ≤ (globalPendingLimits W.manager.limits .uplink).2 ∨
      m.pendingGlobalItems + w.control.2 ≤ W.manager.pendingGlobalItems + w'.control.2) :
    ({ W with manager := m }.set k w').Guarded sha256 c := by
  have hput := Table.total_put_of_get (fun v : Watch => v.control.1) W.slots (w := w') hget
  have hputItems := Table.total_put_of_get (fun v : Watch => v.control.2) W.slots (w := w') hget
  have hcost' := h.cost
  have hitems' := h.items
  refine ⟨haccounted, hlimits.trans h.limits, fun i v hv => ?_, ?_, ?_⟩
  · have hv' : (W.slots.put k w').get i = some v := hv
    rw [Table.get_put] at hv'
    split_ifs at hv'
    · cases hv'
      exact hw
    · exact h.slots i v hv'
  · show m.pendingGlobalCost ≤ (globalPendingLimits m.limits .uplink).1 +
      ((Table.total (fun v : Watch => v.control.1) (W.slots.put k w') : ℕ) : ℤ)
    rw [hlimits]
    omega
  · show m.pendingGlobalItems ≤ (globalPendingLimits m.limits .uplink).2 +
      ((Table.total (fun v : Watch => v.control.2) (W.slots.put k w') : ℕ) : ℤ)
    rw [hlimits]
    omega

/-- What is granted beyond the control frames is within what DATA may have. -/
theorem asks_charges (v : Visit) (room : Prop) {cost items : ℤ} {cls : PendingClass}
    {granted : Bool} {m : Manager}
    (hm : changePendingBudget W.manager cost items cls = .ok (m, granted))
    (hsigns : (0 ≤ cost ∧ 0 ≤ items) ∨ (cost ≤ 0 ∧ items ≤ 0))
    (hcontrol : cls = .control → 0 < cost) :
    (m.pendingGlobalCost ≤ (globalPendingLimits W.manager.limits .uplink).1 ∨
        m.pendingGlobalCost + v.control.1 ≤
          W.manager.pendingGlobalCost + (v.asks room cost items cls granted).control.1) ∧
      (m.pendingGlobalItems ≤ (globalPendingLimits W.manager.limits .uplink).2 ∨
        m.pendingGlobalItems + v.control.2 ≤
          W.manager.pendingGlobalItems + (v.asks room cost items cls granted).control.2) := by
  rcases changePendingBudget_cases hm with ⟨rfl, hpending⟩ | ⟨rfl, hpending, hpos⟩
  · have hcost : m.pendingGlobalCost = W.manager.pendingGlobalCost + cost :=
      congrArg Prod.fst hpending
    have hitems : m.pendingGlobalItems = W.manager.pendingGlobalItems + items :=
      congrArg Prod.snd hpending
    by_cases hcls : cls = .control
    · have hpos := hcontrol hcls
      have hasks : (v.asks room cost items cls true).control =
          v.control + (cost.toNat, items.toNat) := by
        rw [Visit.asks, if_pos hpos, if_pos hcls]
        rfl
      rw [hasks, hcost, hitems]
      exact ⟨.inr (by show _ ≤ _ + ((v.control.1 + cost.toNat : ℕ) : ℤ); omega),
        .inr (by show _ ≤ _ + ((v.control.2 + items.toNat : ℕ) : ℤ); omega)⟩
    · by_cases hpos : 0 < cost ∨ 0 < items
      · have hwithin := changePendingBudget_within hm hpos
        rw [globalPendingLimits_data hcls] at hwithin
        exact ⟨.inl hwithin.1, .inl hwithin.2⟩
      · have hasks : v.asks room cost items cls true =
            { v with control := v.control - ((-cost).toNat, (-items).toNat) } :=
          Visit.asks_released fun h => hpos (.inl h)
        rw [hasks, hcost, hitems]
        exact ⟨.inr (by dsimp only [Prod.fst_sub]; omega),
          .inr (by dsimp only [Prod.snd_sub]; omega)⟩
  · have hcost : m.pendingGlobalCost = W.manager.pendingGlobalCost := congrArg Prod.fst hpending
    have hitems : m.pendingGlobalItems = W.manager.pendingGlobalItems :=
      congrArg Prod.snd hpending
    have hasks : (v.asks room cost items cls false).control = v.control := by
      by_cases hpos' : 0 < cost
      · rw [Visit.asks, if_pos hpos']
        by_cases hcls : cls = .control
        · rw [if_pos hcls]
          rfl
        · rw [if_neg hcls]
      · rw [Visit.asks_released hpos']
        have hzero : (-cost).toNat = 0 ∧ (-items).toNat = 0 := by omega
        rw [hzero.1, hzero.2]
        rfl
    rw [hasks, hcost, hitems]
    exact ⟨.inr le_rfl, .inr le_rfl⟩

/-- The same with the manager as it is. -/
theorem Guarded.stay (h : W.Guarded sha256 c) (hget : W.slots.get k = some w)
    (haccounted : (W.set k w').process.Accounted sha256) (hw : w'.Guarded sha256 c)
    (hcontrol : w.control ≤ w'.control) : (W.set k w').Guarded sha256 c := by
  obtain ⟨hcost, hitems⟩ := hcontrol
  exact h.set (m := W.manager) hget haccounted rfl hw (.inr (by omega)) (.inr (by omega))

theorem newSession_guarded (hreserved : (c.sessionLimits p).Reserved) (hp : p ∈ c.profiles) :
    Watch.Guarded sha256 c (.idle ⟨newSession (c.sessionLimits p) p.carrierMode, []⟩) := by
  have hr : TproxyServer.Reachable sha256 (c.sessionLimits p) p.carrierMode
      ⟨newSession (c.sessionLimits p) p.carrierMode, []⟩ := .start
  obtain ⟨hlimits, hcost, hitems⟩ := newSession_limits (c.sessionLimits p) p.carrierMode
  have hb : Balanced 0 (newSession (c.sessionLimits p) p.carrierMode) := by
    unfold newSession
    split_ifs <;> exact ⟨rfl, rfl⟩
  have hs : Solvent (c.sessionLimits p) True ⟨0, 0, True, True⟩
      (newSession (c.sessionLimits p) p.carrierMode) := by
    refine ⟨hlimits, hreserved, ?_, ⟨Nat.zero_le _, Nat.zero_le _⟩, ?_,
      ⟨Nat.zero_le _, Nat.zero_le _⟩, fun _ => trivial⟩
    · rw [hcost, hitems]
      exact ⟨Nat.zero_le _, Nat.zero_le _⟩
    · rw [hcost, hitems]
      exact ⟨Nat.zero_le _, Nat.zero_le _⟩
  exact ⟨p, hp, hr, hs.margin hr (maxFramePayload_le c p) hb ⟨Nat.zero_le _, Nat.zero_le _⟩⟩

theorem Guarded.step (hreserved : ∀ p ∈ c.profiles, (c.sessionLimits p).Reserved)
    (h : W.Guarded sha256 c) (hs : Step sha256 c W W') : W'.Guarded sha256 c := by
  have haccounted := h.accounted.step hs.process
  cases hs with
  | @create k p hnone hp =>
      have hput := Table.total_put_of_none (fun v : Watch => v.control.1) W.slots
        (.idle ⟨newSession (c.sessionLimits p) p.carrierMode, []⟩) hnone
      have hputItems := Table.total_put_of_none (fun v : Watch => v.control.2) W.slots
        (.idle ⟨newSession (c.sessionLimits p) p.carrierMode, []⟩) hnone
      have hcost := h.cost
      have hitems := h.items
      refine ⟨haccounted, h.limits, fun i v hv => ?_, ?_, ?_⟩
      · have hv' : (W.slots.put k _).get i = some v := hv
        rw [Table.get_put] at hv'
        split_ifs at hv'
        · cases hv'
          exact newSession_guarded (hreserved p hp) hp
        · exact h.slots i v hv'
      · show W.manager.pendingGlobalCost ≤ (globalPendingLimits W.manager.limits .uplink).1 +
          ((Table.total (fun v : Watch => v.control.1) (W.slots.put k _) : ℕ) : ℤ)
        omega
      · show W.manager.pendingGlobalItems ≤ (globalPendingLimits W.manager.limits .uplink).2 +
          ((Table.total (fun v : Watch => v.control.2) (W.slots.put k _) : ℕ) : ℤ)
        omega
  | @begin k σ hget call hc =>
      obtain ⟨p, hp, hr, hk⟩ := h.slots k _ hget
      have hbound := maxFramePayload_le c p
      have hb := Watch.idle_bounded hr hbound hk
      refine h.stay hget haccounted ⟨p, hp, hr, fun es s r hrun => hr.step (.run hc hrun),
        ⟨[], _, (List.append_nil _).symm, ⟨rfl, rfl, fun _ => trivial, by simp⟩,
          wp_mono (Section.kept hbound hr.sound (hr.prices hbound) call hc hk) ?_⟩,
        hb.counted, hb.within, hb.closed⟩ le_rfl
      rintro m r ⟨hkept, hcalm⟩
      exact ⟨hkept, fun hm => (hcalm hm).1, fun hm => (hcalm hm).2⟩
  | @note k v t e rest g hget =>
      obtain ⟨p, hp, hv⟩ := h.slots k _ hget
      obtain ⟨es, m, ht, hreads, hw⟩ := hv.keeps
      refine h.stay hget haccounted ⟨p, hp, hv.origin, fun es s r hrun => ?_,
        ⟨es ++ [e], (margins (c.sessionLimits p) (v.origin.session.closed = false)).notes m e,
          by rw [ht, List.append_assoc]; rfl, ⟨hreads.control, hreads.frames, ?_, ?_⟩, hw⟩,
        hv.counted, hv.within, hv.closed⟩ le_rfl
      · have := hv.ends (e :: es) s r (.note hrun)
        rwa [List.append_cons] at this
      · rintro ⟨hcalm, hroom⟩
        refine ⟨hreads.calm hcalm, fun hrefuses hopen => ?_⟩
        have hfew := (hroom hrefuses).frames k _ hget hopen
        have hlimits : v.origin.session.limits = c.sessionLimits p := hv.origin.sound.limits_eq
        rw [hreads.frames, ← hlimits]
        exact hfew
      · rintro ⟨hclean, he⟩ e' he'
        rcases List.mem_append.mp he' with he' | he'
        · exact hreads.clean hclean e' he'
        · rw [List.mem_singleton.mp he']
          exact he
  | @budget k v t cost items cls next g m granted hget hm =>
      obtain ⟨p, hp, hv⟩ := h.slots k _ hget
      have hlimits : v.origin.session.limits = c.sessionLimits p := hv.origin.sound.limits_eq
      have hrefused : 0 < cost → cls = .control → granted = false → ¬ W.Room := by
        rintro - rfl rfl hroom
        obtain ⟨hopen, rfl, n, rfl, hpos, hn, hfits⟩ := hv.demands
        rw [← hlimits] at hfits
        obtain ⟨m', hgranted⟩ := h.granted hroom hget hopen hpos hn hfits
        rw [hm] at hgranted
        cases hgranted
      obtain ⟨-, ⟨hsigns, -⟩, -⟩ := h.accounted.slots k _ (process_get hget)
      have hcharges := asks_charges v W.Room hm
        (hsigns.imp_right fun hneg => ⟨hneg.1, hneg.2.1⟩) fun hcls => by
          subst hcls
          obtain ⟨-, rfl, n, rfl, hpos, -⟩ := hv.demands
          exact Int.natCast_pos.mpr hpos
      exact h.set hget haccounted (changePendingBudget_limits hm) ⟨p, hp, hv.asks hrefused⟩
        hcharges.1 hcharges.2
  | @acquire k v t next g hget granted =>
      obtain ⟨p, hp, hv⟩ := h.slots k _ hget
      obtain ⟨es, m, ht, hreads, -, hanswer⟩ := hv.keeps
      exact h.stay hget haccounted ⟨p, hp, hv.origin,
        fun es s r hrun => hv.ends es s r (.ask granted hrun),
        ⟨es, m, ht, hreads, hanswer granted m ⟨rfl, fun hm => hm, rfl, rfl⟩⟩,
        hv.counted, hv.within, hv.closed⟩ le_rfl
  | @finish k v t s r g hget =>
      obtain ⟨p, hp, hv⟩ := h.slots k _ hget
      obtain ⟨es, m, ht, hreads, hdone⟩ := hv.keeps
      obtain ⟨-, ⟨-, hb⟩, -⟩ := h.accounted.slots k _ (process_get hget)
      have hr := hv.ends [] s r (.done (s, r))
      rw [List.append_nil] at hr
      have hkept := hdone.kept
      refine h.stay hget haccounted ⟨p, hp, hr,
        hkept.toSolvent.margin hr (maxFramePayload_le c p) hb hkept.control⟩ ?_
      have hcontrol := hkept.control
      rw [hreads.control] at hcontrol
      exact hcontrol

theorem Reachable.guarded (hreserved : ∀ p ∈ c.profiles, (c.sessionLimits p).Reserved)
    (h : Reachable sha256 c W) : W.Guarded sha256 c := by
  induction h with
  | start =>
      refine ⟨Reachable.start.process.accounted, rfl, by rintro _ _ ⟨⟩, ?_, ?_⟩
      · exact Int.natCast_nonneg _
      · exact Int.natCast_nonneg _
  | step _ hs ih => exact ih.step hreserved hs

end Watched

/-! ### Queueing one more -/

/-- The process as one session finds it while nothing else happens. -/
def serving : World Query Event Panic Manager where
  demands
    | m, .budget cost items cls => ∀ w, changePendingBudget m cost items cls ≠ .error w
    | _, .acquireStream => True
  answers
    | m, .budget cost items cls, b, m' => changePendingBudget m cost items cls = .ok (m', b)
    | m, .acquireStream, _, m' => m' = m
  notes m _ := m
  tolerates _ := False

theorem reservePendingLocked_granted {s : Session} {M : Manager} {cost : ℕ} (hpos : 0 < cost)
    (hroom : s.pendingCost + cost ≤ s.limits.maxPendingPerSession ∧
      s.pendingItems + 1 ≤ s.limits.maxPendingItemsPerSession)
    (hgranted : ∃ m, changePendingBudget M cost 1 .control = .ok (m, true)) :
    wp serving (reservePendingLocked s cost 1 .control) (fun _ r => r = (s.charge cost 1, true))
      M := by
  obtain ⟨m, hm⟩ := hgranted
  unfold reservePendingLocked pendingLimits
  dsimp only
  rw [if_neg (by omega)]
  refine ⟨fun w hw => ?_, fun b m' hb => ?_⟩
  · rw [Nat.cast_one, hm] at hw
    cases hw
  · have hb' : changePendingBudget M cost ((1 : ℕ) : ℤ) .control = .ok (m', b) := hb
    rw [Nat.cast_one, hm] at hb'
    cases hb'
    rfl

theorem pushFrame_granted {s : Session} {M : Manager} {q : QueueRef} {ty : FrameType} {id : ℕ}
    {payload : Bytes} (hdata : ty ≠ .data) (hsize : payload.length ≤ 4)
    (hwindows : (s.queue q).pendingWindows ≠ none)
    (hroom : ∀ cost : ℕ, 0 < cost → cost ≤ costPerItem →
      (s.pendingCost + cost ≤ s.limits.maxPendingPerSession ∧
        s.pendingItems + 1 ≤ s.limits.maxPendingItemsPerSession) ∧
      ∃ m, changePendingBudget M cost 1 .control = .ok (m, true)) :
    wp serving (pushFrame s q ty id payload) (fun _ r => r.2 = true) M := by
  unfold pushFrame
  dsimp only
  have hnone : (s.queue q).extendable s.limits ty id payload = none := by
    unfold Downlink.extendable
    rw [Option.filter_eq_none_iff]
    simp [hdata]
  rw [hnone]
  dsimp only
  have hcost : (encode ty id payload).length + queueItemCost ≤ costPerItem := by
    rw [encode_length]
    unfold costPerItem
    omega
  have hpos : 0 < (encode ty id payload).length + queueItemCost := by
    unfold queueItemCost
    omega
  obtain ⟨hfits, hgranted⟩ := hroom _ hpos hcost
  rw [if_neg hdata]
  refine wp_seq (reservePendingLocked_granted hpos hfits hgranted) ?_
  rintro m r rfl
  simp only [if_true, announce_bind, wp_note]
  split_ifs with hw
  · cases hpw : (s.queue q).pendingWindows with
    | none => exact absurd hpw hwindows
    | some w => rfl
  · rfl

theorem queueOn_granted {s : Session} {M : Manager} {q : QueueRef} {ty : FrameType} {id : ℕ}
    {payload : Bytes} (hwell : (s.queue q).Well) (hdata : ty ≠ .data)
    (hsize : payload.length ≤ 4) (hwindows : (s.queue q).pendingWindows ≠ none)
    (hroom : ∀ cost : ℕ, 0 < cost → cost ≤ costPerItem →
      (s.pendingCost + cost ≤ s.limits.maxPendingPerSession ∧
        s.pendingItems + 1 ≤ s.limits.maxPendingItemsPerSession) ∧
      ∃ m, changePendingBudget M cost 1 .control = .ok (m, true)) :
    wp serving (queueOn s q ty id payload) (fun _ r => r.2 = true) M := by
  unfold queueOn
  dsimp only
  cases hidx : (s.queue q).windowIndex ty id with
  | none => exact pushFrame_granted hdata hsize hwindows hroom
  | some index =>
      dsimp only
      cases hf : (s.queue q).pendingFrames[index]? with
      | none =>
          unfold Downlink.windowIndex at hidx
          split_ifs at hidx
          obtain ⟨windows, hw, hget⟩ := Option.bind_eq_some_iff.mp hidx
          obtain ⟨g, hg, -⟩ := hwell.indexed windows id index hw hget
          rw [hf] at hg
          cases hg
      | some f =>
          dsimp only
          split_ifs with htotal
          · rfl
          · exact pushFrame_granted hdata hsize hwindows hroom

theorem queueFrameLocked_granted {s : Session} {M : Manager} {ty : FrameType} {id : ℕ}
    {payload : Bytes} (hwell : s.Downlinks Downlink.Well)
    (hindexed : s.InUse fun d => d.pendingWindows ≠ none) (hlane : s.HasLane id)
    (hdata : ty ≠ .data) (hsize : payload.length ≤ 4)
    (hroom : ∀ cost : ℕ, 0 < cost → cost ≤ costPerItem →
      (s.pendingCost + cost ≤ s.limits.maxPendingPerSession ∧
        s.pendingItems + 1 ≤ s.limits.maxPendingItemsPerSession) ∧
      ∃ m, changePendingBudget M cost 1 .control = .ok (m, true)) :
    wp serving (queueFrameLocked s ty id payload) (fun _ r => r.2 = true) M := by
  unfold queueFrameLocked
  split_ifs with hu
  · unfold queueLaneFrameLocked
    cases hl : s.carrierLanes.get id with
    | none => exact absurd hl (hlane hu)
    | some lane =>
        have hq : s.queue (.lane id lane.object) = lane.down := Session.queue_of_get hl
        exact queueOn_granted (hwell.queue .new _) hdata hsize
          (by rw [hq]; exact hindexed.lanes id lane hl) hroom
  · exact queueOn_granted (hwell.queue .new .session) hdata hsize hindexed.own hroom

namespace Watched

/-- What room in the control reserves is good for. -/
structure Headroom (W : Watched) : Prop where
  /-- With room the process charges a session for the control frame it asks for, whatever DATA is
  pending in all sessions. -/
  granted : W.Room → ∀ k v t cost items next g,
    W.slots.get k = some (.running v t (.ask (.budget cost items .control) next) g) →
      ∃ m, changePendingBudget W.manager cost items .control = .ok (m, true)
  /-- With room a WINDOW or a CLOSE of a stream that is live, or that has its lane still, goes into
  the queue of an open session. -/
  queued : W.Room → ∀ k σ, W.slots.get k = some (.idle σ) → σ.session.closed = false →
    ∀ id ty payload, σ.session.streams.get id ≠ none ∨ σ.session.HasLane id →
      (ty = .window ∧ ∃ amount, payload = windowPayload amount) ∨ (ty = .close ∧ payload = []) →
        wp serving (queueFrameLocked σ.session ty id payload) (fun _ r => r.2 = true) W.manager
  /-- A section that had room for its control frames was refused none.  Its batch is not given up
  for a rejected OPEN, and the session does not close with its backend. -/
  kept : ∀ k v t s r g, W.slots.get k = some (.running v t (.done (s, r)) g) → v.calm →
    (∃ es, t = v.origin.trace ++ es ∧ ∀ e ∈ es, e.refusesControl = false) ∧
      r ≠ .up .aborting ∧
      ∀ id backend, v.call = .backendClosed id backend → s.closed = v.origin.session.closed

/-- **Control headroom**, in every reachable state of a process in which the control reserve of
each session is within its limits and is enough for the frames it counts. -/
theorem control_headroom {W : Watched}
    (hreserved : ∀ p ∈ c.profiles, (c.sessionLimits p).Reserved) (h : Reachable sha256 c W) :
    W.Headroom := by
  have hguarded := h.guarded hreserved
  refine ⟨?_, ?_, ?_⟩
  · intro hroom k v t cost items next g hget
    obtain ⟨p, hp, hv⟩ := hguarded.slots k _ hget
    obtain ⟨hopen, rfl, n, rfl, hpos, hn, hfits⟩ := hv.demands
    have hlimits : v.origin.session.limits = c.sessionLimits p := hv.origin.sound.limits_eq
    rw [← hlimits] at hfits
    exact hguarded.granted hroom hget hopen hpos hn hfits
  · intro hroom k σ hget hopen id ty payload hid hframe
    obtain ⟨p, hp, hr, hk⟩ := hguarded.slots k _ hget
    have hfew := hroom.frames k _ hget hopen
    have hlimits : σ.session.limits = c.sessionLimits p := hk.limits_eq
    have hlane : σ.session.HasLane id :=
      hid.elim (fun hlive hu => hr.sound.lanes hu id hlive) fun h => h
    have hsmall : ty ≠ .data ∧ payload.length ≤ 4 := by
      rcases hframe with ⟨rfl, amount, rfl⟩ | ⟨rfl, rfl⟩
      · exact ⟨by decide, le_rfl⟩
      · exact ⟨by decide, Nat.zero_le _⟩
    refine queueFrameLocked_granted hr.downlinks (hr.represented.windowed hopen) hlane hsmall.1
      hsmall.2 fun cost hpos hcost => ?_
    have hfits := hk.toSolvent.room (by rw [← hlimits]; exact hfew) hcost
    rw [← hlimits] at hfits
    obtain ⟨hpart, hpartItems⟩ := hk.part
    have hpart' : σ.session.controlHeld.1 ≤ σ.session.pendingCost := hpart
    have hpartItems' : σ.session.controlHeld.2 ≤ σ.session.pendingItems := hpartItems
    refine ⟨hfits, hguarded.granted hroom hget hopen hpos hcost ?_⟩
    show σ.session.controlHeld.1 + cost ≤ σ.session.limits.maxPendingPerSession ∧
      σ.session.controlHeld.2 + 1 ≤ σ.session.limits.maxPendingItemsPerSession
    omega
  · intro k v t s r g hget hcalm
    obtain ⟨p, hp, hv⟩ := hguarded.slots k _ hget
    obtain ⟨es, m, ht, hreads, hdone⟩ := hv.keeps
    have hm := hreads.calm hcalm
    exact ⟨⟨es, ht, hreads.clean (hdone.kept.calm hm)⟩, hdone.reply hm, hdone.closed hm⟩

/-! ### Witnesses -/

end Watched

/-- The session of a slot that nobody is at. -/
def Slot.atRest : Slot → Option Session
  | .idle σ => some σ.session
  | .running _ _ _ => none

namespace Watched

/-- A process of one session, at rest. -/
def single (m : Manager) (σ : Traced) : Watched where
  manager := m
  slots := Table.nil.put 0 (.idle σ)

theorem single_room {m : Manager} {σ : Traced}
    (hframes : σ.session.controlHeld.2 < (pendingControlReserve σ.session.limits).2) :
    (single m σ).Room := by
  refine ⟨?_, fun k w hget _ => ?_⟩
  · have hpos := m.sessions_pos
    have hone := Table.countP_put_of_none Watch.isOpen Table.nil (k := 0) (.idle σ) rfl
    have hle : (if (Watch.idle σ).isOpen then (1 : ℤ) else 0) ≤ 1 := by split_ifs <;> decide
    show Table.countP Watch.isOpen (Table.nil.put 0 (.idle σ)) ≤ m.limits.maxSessionsGlobal
    rw [hone, Table.countP_nil]
    omega
  · have hput : (Table.nil.put 0 (Watch.idle σ)).get k = some w := hget
    rw [Table.get_put] at hput
    split_ifs at hput
    · cases hput
      exact hframes
    · cases hput

/-- The manager and the only session after its first section. -/
def first (sha256 : Bytes → Bytes) (c : Config) (p : Profile) (call : Section) :
    Option (Manager × Session) :=
  let s := newSession (c.sessionLimits p) p.carrierMode
  (Process.drive 0 { manager := newManager c, sessions := Table.nil.put 0 (.idle ⟨s, []⟩) } []
    (call.exec sha256 s) s.pending []).bind fun P =>
      ((P.sessions.get 0).bind Slot.atRest).map fun s => (P.manager, s)

theorem Reachable.first (hp : p ∈ c.profiles) {call : Section}
    (hcall : call.Callable (newSession (c.sessionLimits p) p.carrierMode)) {m : Manager}
    {s : Session} (hd : first sha256 c p call = some (m, s)) :
    ∃ σ : Traced, σ.session = s ∧ Reachable sha256 c (single m σ) := by
  obtain ⟨P, hP, hs⟩ := Option.bind_eq_some_iff.mp hd
  have hstart : Reachable sha256 c { manager := newManager c } := .start
  have hcreate := hstart.step (.create (k := 0) rfl hp)
  have hbegin := hcreate.step (.begin (k := 0) rfl call hcall)
  obtain ⟨m', σ, hr, rfl⟩ := hbegin.drive hP
  have hsingle : ({ (({ manager := newManager c } : Watched).set 0
      (.idle ⟨newSession (c.sessionLimits p) p.carrierMode, []⟩)) with manager := m' } :
      Watched).set 0 (.idle σ) = single m' σ := by
    unfold set single
    dsimp only
    rw [Table.put_put_self]
  rw [hsingle] at hr hs
  cases hs
  exact ⟨σ, rfl, hr⟩

/-- One byte for a freshly opened stream waits for its backend. -/
theorem control_headroom_one_write : ∃ W σ, Reachable id Registry.oneProfile W ∧ W.Room ∧
    W.slots.get 0 = some (.idle σ) ∧ σ.session.closed = false ∧
    σ.session.streams.get 1 ≠ none ∧ W.manager.pendingGlobalCost = 257 ∧ W.Headroom := by
  let p : Profile := { name := "alpha", capability := zeroDigest }
  have hfirst : (first id Registry.oneProfile p
      (.processUpCommit 1 (encode .open 1 [] ++ encode .data 1 [7]))).map
      (fun r => (r.1.pendingGlobalCost, r.2.closed, (r.2.streams.get 1).isSome,
        decide (r.2.controlHeld.2 < (pendingControlReserve r.2.limits).2))) =
      some (257, false, true, true) := by
    decide +kernel
  obtain ⟨⟨m, s⟩, hd, hfacts⟩ := Option.map_eq_some_iff.mp hfirst
  obtain ⟨σ, rfl, hr⟩ := Reachable.first (List.mem_singleton.mpr rfl) (by decide) hd
  simp only [Prod.mk.injEq, decide_eq_true_eq, Option.isSome_iff_ne_none] at hfacts
  obtain ⟨hcost, hclosed, hlive, hframes⟩ := hfacts
  refine ⟨_, σ, hr, single_room hframes, rfl, hclosed, hlive, hcost,
    control_headroom (fun q hq => ?_) hr⟩
  rw [List.mem_singleton.mp hq]
  exact ⟨by decide +kernel, by decide +kernel, by decide +kernel⟩

end Watched

/-! ### A reserve that is no reserve -/

/-- So many streams that their reserve does not fit an `int`: it is the whole budget of a session,
256 bytes. -/
def overflowingReserve : Config where
  limits := { Config.defaults with maxStreamsPerSession := 2 ^ 62, maxStreamsGlobal := 2 ^ 62,
                                   maxPendingPerSession := 256, maxPendingItemsPerSession := 2048 }
  bootstrapLifetime := 120 * 10 ^ 9
  profiles := [{ name := "alpha", capability := zeroDigest }]
  valid := by decide +kernel
  profilesValid := by decide +kernel
  budgetValid := by decide +kernel

namespace Watched

/-- A CLOSE costs eight bytes and the price of an item. -/
theorem close_refused {s : Session} {M : Manager} {id : ℕ} (hown : s.usesCarrierLanes = false)
    (hpending : s.limits.maxPendingPerSession < headerSize + queueItemCost) :
    ¬ wp serving (queueFrameLocked s .close id []) (fun _ r => r.2 = true) M := by
  unfold queueFrameLocked
  rw [if_neg (by rw [hown]; decide)]
  unfold queueOn
  have hindex : (s.queue .session).windowIndex .close id = none := rfl
  dsimp only
  rw [hindex]
  dsimp only
  unfold pushFrame
  have hnone : (s.queue .session).extendable s.limits .close id [] = none := by
    unfold Downlink.extendable
    rw [Option.filter_eq_none_iff]
    simp
  dsimp only
  rw [hnone]
  dsimp only
  rw [if_neg (by decide)]
  unfold reservePendingLocked pendingLimits
  dsimp only
  rw [if_pos (by rw [encode_length]; exact .inr (.inl hpending))]
  exact Bool.false_ne_true

/-- With no control frame charged the first CLOSE of such a session is refused. -/
theorem control_refused : ∃ W σ,
    (∀ p ∈ overflowingReserve.profiles,
      (pendingControlReserve (overflowingReserve.sessionLimits p)).1 ≤
          (overflowingReserve.sessionLimits p).maxPendingPerSession ∧
        (pendingControlReserve (overflowingReserve.sessionLimits p)).2 ≤
          (overflowingReserve.sessionLimits p).maxPendingItemsPerSession) ∧
    Reachable id overflowingReserve W ∧ W.Room ∧ W.slots.get 0 = some (.idle σ) ∧
    σ.session.closed = false ∧ σ.session.streams.get 1 ≠ none ∧
    ¬ wp serving (queueFrameLocked σ.session .close 1 []) (fun _ r => r.2 = true) W.manager := by
  let p : Profile := { name := "alpha", capability := zeroDigest }
  have hfirst : (first id overflowingReserve p
      (.processUpCommit 1 (encode .open 1 []))).map
      (fun r => (r.2.closed, (r.2.streams.get 1).isSome,
        decide (r.2.controlHeld.2 < (pendingControlReserve r.2.limits).2),
        r.2.usesCarrierLanes, r.2.limits.maxPendingPerSession)) =
      some (false, true, true, false, 256) := by
    decide +kernel
  obtain ⟨⟨m, s⟩, hd, hfacts⟩ := Option.map_eq_some_iff.mp hfirst
  obtain ⟨σ, rfl, hr⟩ := Reachable.first (List.mem_singleton.mpr rfl) (by decide) hd
  simp only [Prod.mk.injEq, decide_eq_true_eq, Option.isSome_iff_ne_none] at hfacts
  obtain ⟨hclosed, hlive, hframes, hown, hpending⟩ := hfacts
  refine ⟨_, σ, fun q hq => ?_, hr, single_room hframes, rfl, hclosed, hlive,
    close_refused hown (by rw [hpending]; decide)⟩
  rw [List.mem_singleton.mp hq]
  exact ⟨by decide +kernel, by decide +kernel⟩

end Watched

end TproxyServer
