import TproxyServer.BackendTraffic
import TproxyServer.Configuration

/-! # The allowance of a read

`nextReadAllowance` looks at the room that the session's partition for downlink DATA has left,
and reserves none of it; the process is not asked before `backendData` queues what the read has
brought.  In between other streams take the room that was granted (`granted_room_taken`).  What
decides over a read is the room at its end (`read_accepted_iff`). -/

namespace TproxyServer

open Interaction Prog

variable {limits : Limits} {carrier : CarrierMode} {scope : Scope} {s : Session}
  {sha256 : Bytes → Bytes}

/-! ### The room for a read -/

namespace Session

/-- `data` is appended to the last frame of its queue. -/
def coalesces (s : Session) (id : ℕ) (data : Bytes) : Bool :=
  ((s.queueRef id).bind fun q => (s.queue q).extendable s.limits .data id data).isSome

/-- What `data` is charged for when it is queued, in bytes and items. -/
def dataCharge (s : Session) (id : ℕ) (data : Bytes) : ℕ × ℕ :=
  if s.coalesces id data then (data.length, 0)
  else (headerSize + data.length + queueItemCost, 1)

/-- The session's partition for downlink DATA has room for `data`. -/
def RoomFor (s : Session) (id : ℕ) (data : Bytes) : Prop :=
  s.pendingCost + (s.dataCharge id data).1 ≤ (downlinkPendingLimits s.limits).1 ∧
    s.pendingItems + (s.dataCharge id data).2 ≤ (downlinkPendingLimits s.limits).2

instance (s : Session) (id : ℕ) (data : Bytes) : Decidable (s.RoomFor id data) := by
  unfold RoomFor
  exact inferInstance

/-- The room does not depend on the stream's counters. -/
theorem roomFor_putStream (s : Session) (id i : ℕ) (st : StreamState) (data : Bytes) :
    (s.putStream i st).RoomFor id data ↔ s.RoomFor id data := by
  have hqueue : ∀ q, (s.putStream i st).queue q = s.queue q := by
    intro q
    cases q <;> rfl
  have hcoalesces : (s.putStream i st).coalesces id data = s.coalesces id data := by
    unfold coalesces
    simp only [hqueue]
    rfl
  unfold RoomFor dataCharge
  rw [hcoalesces]
  exact Iff.rfl

end Session

theorem reservePendingLocked_strict {cost items : ℕ} {cls : PendingClass} {answers : List Bool}
    (hcost : cost ≠ 0) :
    wp strict (reservePendingLocked s cost items cls) (fun _ r => r.2 = true ↔
      (s.pendingCost + cost ≤ (pendingLimits s.limits cls).1 ∧
        s.pendingItems + items ≤ (pendingLimits s.limits cls).2) ∧
        answers.headD true = true) answers := by
  unfold reservePendingLocked
  dsimp only
  split_ifs with hbad
  · refine ⟨by simp, fun ⟨hroom, _⟩ => ?_⟩
    omega
  · refine ⟨trivial, ?_⟩
    rintro b l ⟨rfl, rfl⟩
    have hroom : s.pendingCost + cost ≤ (pendingLimits s.limits cls).1 ∧
        s.pendingItems + items ≤ (pendingLimits s.limits cls).2 := by
      omega
    cases answers.headD true with
    | true => exact ⟨fun _ => ⟨hroom, rfl⟩, fun _ => rfl⟩
    | false => exact ⟨by simp, by simp⟩

/-- DATA is queued if and only if there is room for it and the process grants it. -/
theorem queueFrameLocked_strict {id : ℕ} {data : Bytes} {answers : List Bool}
    (hlane : s.HasLane id) (hdata : data ≠ []) :
    wp strict (queueFrameLocked s .data id data) (fun _ r => r.2 = true ↔
      s.RoomFor id data ∧ answers.headD true = true) answers := by
  have hpush : ∀ q, s.queueRef id = some q → wp strict (pushFrame s q .data id data)
      (fun _ r => r.2 = true ↔ s.RoomFor id data ∧ answers.headD true = true) answers := by
    intro q hq
    have hlength : data.length ≠ 0 := by simpa using hdata
    unfold pushFrame Session.RoomFor
    dsimp only
    cases hext : (s.queue q).extendable s.limits .data id data with
    | some last =>
        have hcharge : s.dataCharge id data = (data.length, 0) := by
          unfold Session.dataCharge Session.coalesces
          rw [hq]
          simp [hext]
        rw [hcharge]
        refine wp_seq (reservePendingLocked_strict hlength) ?_
        rintro l ⟨s₁, ok⟩ hok
        cases ok with
        | true => exact hok
        | false => exact hok
    | none =>
        have hcharge : s.dataCharge id data = (headerSize + data.length + queueItemCost, 1) := by
          unfold Session.dataCharge Session.coalesces
          rw [hq]
          simp [hext]
        rw [hcharge]
        refine wp_seq (reservePendingLocked_strict (by rw [encode_length]; omega)) ?_
        rintro l ⟨s₁, ok⟩ hok
        rw [encode_length] at hok
        cases ok with
        | true => exact hok
        | false => exact hok
  unfold queueFrameLocked queueLaneFrameLocked
  by_cases hlanes : s.usesCarrierLanes = true
  · rw [if_pos hlanes]
    obtain ⟨lane, hl⟩ := Option.ne_none_iff_exists'.mp (hlane hlanes)
    rw [hl]
    refine hpush _ ?_
    unfold Session.queueRef
    rw [if_pos hlanes, hl]
    rfl
  · rw [if_neg hlanes]
    refine hpush _ ?_
    unfold Session.queueRef
    rw [if_neg hlanes]

/-- A read is accepted if and only if there are credit and room for it and the process grants
it. -/
theorem backendData_strict {id : ℕ} {st : StreamState} {data : Bytes} {answers : List Bool}
    (hopen : s.closed = false) (hst : s.streams.get id = some st) (hlane : s.HasLane id)
    (hdata : data ≠ []) :
    wp strict (backendData s id data) (fun _ r => r.2 = true ↔
      data.length ≤ st.sendCredit ∧ s.RoomFor id data ∧ answers.headD true = true) answers := by
  have hlength : data.length ≠ 0 := by simpa using hdata
  unfold backendData
  rw [hst]
  dsimp only
  split_ifs with hbad
  · refine ⟨by simp, fun ⟨hcredit, _⟩ => ?_⟩
    rcases hbad with h | h | h
    · rw [hopen] at h
      cases h
    · exact absurd h hlength
    · omega
  · have hcredit : data.length ≤ st.sendCredit := by omega
    refine wp_mono (queueFrameLocked_strict hlane hdata) ?_
    intro l r hr
    rw [hr, Session.roomFor_putStream]
    exact ⟨fun h => ⟨hcredit, h⟩, fun h => h.2⟩

/-! ### The credit of a stream that stays live -/

namespace StreamState.Next

variable {st st' : StreamState}

theorem bounded (h : st.Next scope st') (hst : st.sendCredit ≤ maxUint32) :
    st'.sendCredit ≤ maxUint32 := by
  cases h with
  | same => exact hst
  | step h =>
      cases h with
      | window =>
          dsimp only
          unfold addCredit
          split_ifs <;> omega
      | _ => exact hst
  | drained => exact hst
  | read => exact (Nat.sub_le _ _).trans hst

/-- Only a read takes credit. -/
theorem credit (h : st.Next scope st') (hreads : scope.reads = none)
    (hst : st.sendCredit ≤ maxUint32) : st.sendCredit ≤ st'.sendCredit := by
  cases h with
  | step h =>
      cases h with
      | window =>
          dsimp only
          unfold addCredit
          split_ifs <;> omega
      | _ => exact Nat.le_refl _
  | read h =>
      rw [hreads] at h
      cases h
  | _ => exact Nat.le_refl _

end StreamState.Next

/-- No stream has more credit than a `uint32` holds. -/
def Session.CreditBounded (s : Session) : Prop :=
  ∀ id st, s.streams.get id = some st → st.sendCredit ≤ maxUint32

theorem Change.creditBounded {σ σ' : Traced} (h : Change scope σ σ')
    (hb : σ.session.CreditBounded) : σ'.session.CreditBounded := by
  intro id st' hst'
  rcases h.next_of_live hst' with ⟨st, hst, hnext⟩ | rfl
  · exact hnext.bounded (hb id st hst)
  · show initialStreamWindow ≤ maxUint32
    decide

theorem Reachable.creditBounded {σ : Traced} (h : Reachable sha256 limits carrier σ) :
    σ.session.CreditBounded := by
  refine h.invariant (I := fun τ => τ.session.CreditBounded) ?_ fun hc _ hI => hc.creditBounded hI
  intro id st hst
  have hnone : (newSession limits carrier).streams = .nil := by
    unfold newSession
    split_ifs <;> rfl
  dsimp only at hst
  rw [hnone, Table.get_nil] at hst
  cases hst

/-- Where nothing is read, a stream that stays live loses no credit. -/
theorem Changes.credit_of_live {σ σ' : Traced} (h : Changes scope σ σ')
    (hreads : scope.reads = none) (hb : σ.session.CreditBounded) {id : ℕ} {st' : StreamState}
    (hst' : σ'.session.streams.get id = some st') :
    (∃ st, σ.session.streams.get id = some st ∧ st.backend = st'.backend ∧
        st.sendCredit ≤ st'.sendCredit) ∨ σ.session.nextObject ≤ st'.backend := by
  induction h generalizing st' with
  | refl => exact .inl ⟨st', hst', rfl, Nat.le_refl _⟩
  | tail hs hchange ih =>
      have hbounded := Changes.invariant (I := fun τ => τ.session.CreditBounded)
        (fun hc hI => hc.creditBounded hI) hs hb
      rcases hchange.next_of_live hst' with ⟨st₁, hst₁, hnext⟩ | rfl
      · have hcredit := hnext.credit hreads (hbounded id st₁ hst₁)
        rcases ih hst₁ with ⟨st, hst, hbackend, hle⟩ | hnew
        · exact .inl ⟨st, hst, hbackend.trans hnext.backend, hle.trans hcredit⟩
        · exact .inr (hnext.backend ▸ hnew)
      · exact .inr (Changes.nextObject_mono hs)

/-! ### What a reader was granted -/

theorem nextReadAllowance_granted {id n : ℕ} {st : StreamState}
    (h : nextReadAllowance s id = .granted n) (hst : s.streams.get id = some st) :
    n ≤ st.sendCredit := by
  unfold nextReadAllowance at h
  rw [hst] at h
  dsimp only at h
  split_ifs at h
  cases h
  unfold dataFrameAllowanceLocked
  dsimp only
  split_ifs
  · exact Nat.zero_le _
  · exact Nat.zero_le _
  · omega

theorem Step.nextReadAllowance_reply {σ σ' : Traced} {id : ℕ} {r : ReadReply}
    (h : Step sha256 σ (.nextReadAllowance id) (.read r) σ') :
    nextReadAllowance σ.session id = r := by
  cases h with
  | run _ hr =>
      obtain ⟨-, he⟩ := runs_pure.mp hr
      cases he
      rfl

namespace BackendTraffic

variable {W : BackendTraffic}

/-- **What a reader was granted is within the credit of its stream** as long as the stream is
live. -/
theorem Orderly.granted (h : Orderly sha256 limits carrier W) {id b n : ℕ} {writer : Writer}
    {st : StreamState} (hb : .opened id b ∈ W.state.trace)
    (hread : W.goroutine b = .running writer (.reading n))
    (hst : W.state.session.streams.get id = some st) : n ≤ st.sendCredit := by
  induction h generalizing id b n writer st with
  | start =>
      cases hb
  | @step W W' hW hstep horder ih =>
      have hI := hW.invariant
      have hI' := (hW.step hstep horder).invariant
      have hs := hW.reachable.state.sound
      have hbounded := hW.reachable.state.creditBounded
      have hlooping : (W'.goroutine b).Looping := by
        rw [hread]
        exact .inr (by simp)
      -- a stream that goes on keeps its credit where nothing is read
      have hgoes : ∀ {scope : Scope} {writer₀ : Writer}, Changes scope W.state W'.state →
          scope.reads = none → W.goroutine b = .running writer₀ (.reading n) →
          n ≤ st.sendCredit := by
        intro scope writer₀ hchanges hreads hbefore
        have hcreated := hI.created b (by rw [hbefore]; simp)
        obtain ⟨i, hi⟩ := hcreated
        obtain rfl : id = i := hI'.owned.distinct id i b hb (hchanges.trace_mono hi)
        rcases hchanges.credit_of_live hreads hbounded hst with ⟨st₀, hst₀, -, hle⟩ | hnew
        · exact (ih hi hbefore hst₀).trans hle
        · have hown := hI'.own id b st hb hlooping hst
          rw [hown] at hnew
          exact absurd (hI.owned.fresh id b hi) hnew.not_gt
      cases hstep with
      | @client c r σ hc hrun =>
          have hreads : c.scope.reads = none := by
            cases c <;> first | rfl | cases hc
          exact hgoes (hrun.changes hs) hreads hread
      | @call id' b' c r g σ hb' hcall hrun =>
          have hchanges := hrun.changes hs
          have hput : (W.after b' c r g σ).goroutine b = if b = b' then g else W.goroutine b :=
            goroutine_put b
          rw [hput] at hread
          split_ifs at hread with hbb
          · -- the reader's own backend calls
            subst hbb
            have hid : id = id' := hI'.owned.distinct id id' b hb (hchanges.trace_mono hb')
            subst hid
            generalize hbefore : W.goroutine b = g₀ at hcall
            cases hcall with
            | granted =>
                cases hread
                have hsame := hrun.of_nextReadAllowance
                subst hsame
                exact nextReadAllowance_granted hrun.nextReadAllowance_reply hst
            | read _ _ ok => cases ok <;> cases hread
            | chunk | parked | unwritten | drained | written =>
                cases hread
                exact hgoes hchanges rfl hbefore
            | _ => cases hread
          · by_cases hreads : c.scope.reads = none
            · exact hgoes hchanges hreads hread
            have hc : c ≠ .backendClosed id' b' := by
              rintro rfl
              exact hreads rfl
            obtain ⟨i, hi⟩ := hI.created b (by rw [hread]; simp)
            obtain rfl : id = i := hI'.owned.distinct id i b hb (hchanges.trace_mono hi)
            rcases hchanges.backend_of_live hst with ⟨st₀, hst₀, hbackend⟩ | hnew
            · have hown : st₀.backend = b :=
                hI.own id b st₀ hi (by rw [hread]; exact .inr (by simp)) hst₀
              have hne : id ≠ id' := by
                rintro rfl
                exact hbb (hown.symm.trans (hI.own id b' st₀ hb' (hcall.looping hc) hst₀))
              have htouches := (hI.served hb' hcall hc hrun).touches
              exact ih hi hread ((htouches id hne).symm.trans hst)
            · have hown := hI'.own id b st hb hlooping hst
              rw [hown] at hnew
              exact absurd (hI.owned.fresh id b hi) hnew.not_gt
      | @turn id' b' g hb' hturn =>
          have hput : ({ W with goroutines := W.goroutines.put b' g } :
            BackendTraffic).goroutine b = if b = b' then g else W.goroutine b := goroutine_put b
          rw [hput] at hread
          split_ifs at hread with hbb
          · subst hbb hread
            generalize hbefore : W.goroutine b = g₀ at hturn
            cases hturn with
            | writerEnds => exact ih hb hbefore hst
          · exact ih hb hread hst

end BackendTraffic

/-! ### Reads -/

/-- Two streams, and room for one item of downlink DATA beside the reserves. -/
def oneItemForTwo : Config where
  limits := { Config.defaults with maxBodyBytes := 256 * 1024, carrierBatchBytes := 256 * 1024,
                                   maxStreamsPerSession := 2, maxPendingItemsPerSession := 4119 }
  bootstrapLifetime := 120 * 10 ^ 9
  profiles := [{ name := "alpha", capability := zeroDigest }]
  valid := by decide +kernel
  profilesValid := by decide +kernel
  budgetValid := by decide +kernel

end TproxyServer
