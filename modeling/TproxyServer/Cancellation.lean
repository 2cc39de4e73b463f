import TproxyServer.KeptLanes
import TproxyServer.Orphans
import TproxyServer.Places
import TproxyServer.SectionAccounting

/-! # No backend outlives its stream

A backend is created with its stream.  Whatever ends the stream of an open session, its backend is
cancelled in the same section. -/

namespace TproxyServer

open Interaction Prog

variable {limits : Limits} {carrier : CarrierMode} {s s' : Session} {t : List Event}
  {sha256 : Bytes → Bytes} {rest : List ℕ}

/-- The backends that were cancelled. -/
def cancellations (t : List Event) : List ℕ :=
  t.flatMap fun e => match e with
    | .cancelled backends => backends
    | _ => []

@[simp] theorem cancellations_append (t es : List Event) :
    cancellations (t ++ es) = cancellations t ++ cancellations es :=
  List.flatMap_append ..

/-- Every backend that was created serves its stream, was cancelled, or is one of `rest`. -/
def Tended (rest : List ℕ) (s : Session) (t : List Event) : Prop :=
  ∀ id b, .opened id b ∈ t →
    (∃ st, s.streams.get id = some st ∧ st.backend = b) ∨ b ∈ cancellations t ∨ b ∈ rest

namespace Tended

/-- Nothing is opened and no stream ends. -/
theorem grow (h : Tended rest s t) (hstreams : s'.streams = s.streams) {es : List Event}
    (hes : ∀ id b, .opened id b ∉ es) : Tended rest s' (t ++ es) := by
  intro id b hm
  rw [hstreams, cancellations_append]
  rcases h id b ((List.mem_append.mp hm).resolve_right (hes id b)) with hlive | hdone | hrest
  · exact .inl hlive
  · exact .inr (.inl (List.mem_append_left _ hdone))
  · exact .inr (.inr hrest)

theorem same (h : Tended rest s t) (hstreams : s'.streams = s.streams) : Tended rest s' t := by
  have hgrow : Tended rest s' (t ++ []) := h.grow hstreams (by simp)
  rwa [List.append_nil] at hgrow

/-- A stream is written and keeps its backend. -/
theorem put (h : Tended rest s t) {id : ℕ} {st : StreamState} (st' : StreamState)
    (hst : s.streams.get id = some st) (hbackend : st'.backend = st.backend) :
    Tended rest (s.putStream id st') t := by
  intro i b hm
  refine (h i b hm).imp_left fun ⟨st₁, hst₁, hb⟩ => ?_
  rw [Session.putStream_streams, Table.get_put]
  split_ifs with hi
  · rw [hi, hst] at hst₁
    cases hst₁
    exact ⟨st', rfl, hbackend.trans hb⟩
  · exact ⟨st₁, hst₁, hb⟩

/-- A new stream has a new backend. -/
theorem start (h : Tended rest s t) {id backend : ℕ} (hnone : s.streams.get id = none)
    (hstreams : s'.streams = s.streams.put id (newStream backend)) :
    Tended rest s' (t ++ [.opened id backend]) := by
  intro i b hm
  rw [hstreams, cancellations_append]
  rcases List.mem_append.mp hm with hm | hm
  · rcases h i b hm with ⟨st, hst, hb⟩ | hdone | hrest
    · refine .inl ⟨st, ?_, hb⟩
      rw [Table.get_put_ne]
      · exact hst
      · rintro rfl
        rw [hnone] at hst
        cases hst
    · exact .inr (.inl (List.mem_append_left _ hdone))
    · exact .inr (.inr hrest)
  · rw [List.mem_singleton] at hm
    cases hm
    exact .inl ⟨newStream backend, Table.get_put_self .., rfl⟩

/-- A stream ends and leaves its backend to be cancelled. -/
theorem del (h : Tended rest s t) {id : ℕ} {st : StreamState}
    (hst : s.streams.get id = some st) : Tended (rest ++ [st.backend]) (s.delStream id) t := by
  intro i b hm
  rcases h i b hm with ⟨st₁, hst₁, hb⟩ | hdone | hrest
  · by_cases hi : i = id
    · rw [hi, hst] at hst₁
      cases hst₁
      exact .inr (.inr (by simp [hb]))
    · exact .inl ⟨st₁, (Table.get_del_ne _ hi).trans hst₁, hb⟩
  · exact .inr (.inl hdone)
  · exact .inr (.inr (List.mem_append_left _ hrest))

theorem cancel (h : Tended rest s t) : Tended [] s (t ++ [.cancelled rest]) := by
  intro i b hm
  rw [cancellations_append]
  rcases h i b ((List.mem_append.mp hm).resolve_right (by simp)) with hlive | hdone | hrest
  · exact .inl hlive
  · exact .inr (.inl (List.mem_append_left _ hdone))
  · exact .inr (.inl (List.mem_append_right _ (by simpa [cancellations] using hrest)))

theorem queueResult (h : Tended rest s t) {ty : FrameType} {id : ℕ} {payload : Bytes}
    {es : List Event} {ok : Bool} (hq : QueueResult s ty id payload es s' ok) :
    Tended rest s' (t ++ es) := by
  refine h.grow hq.closedStreams.1 ?_
  cases hq <;> simp

end Tended

/-- As long as no stream ends, every backend is tended. -/
theorem Change.tended {scope : Scope} {σ σ' : Traced} (h : Change scope σ σ')
    (hends : scope.ends = false) (hopen : σ'.session.closed = false)
    (hI : Tended rest σ.session σ.trace) : Tended rest σ'.session σ'.trace := by
  cases h with
  | @silent s t e he =>
      refine hI.grow rfl fun id b hm => ?_
      rw [List.mem_singleton] at hm
      subst hm
      cases he
  | openStream _ _ hlive => exact hI.start hlive rfl
  | @stream s t es id st st' _ hst hstep _ =>
      have hbackend : st'.backend = st.backend := by cases hstep <;> rfl
      exact (hI.put st' hst hbackend).grow rfl (by cases hstep <;> simp)
  | @drained s s' t es id amount st _ _ hst _ _ _ _ hq _ =>
      exact (hI.put (st.drain amount) hst rfl).queueResult hq
  | @read s s' t es id st data _ _ hst _ _ hq _ =>
      exact (hI.put { st with sendCredit := st.sendCredit - data.length } hst rfl).queueResult hq
  | queueClose _ _ _ hq _ _ _ => exact hI.queueResult hq
  | endStream _ _ hscope =>
      rw [hends] at hscope
      cases hscope
  | rememberRoom => exact hI.grow rfl (by simp)
  | rememberFull =>
      rw [List.append_assoc]
      exact hI.grow rfl (by simp)
  | @attend s t q =>
      obtain ⟨_, _, _, he⟩ := s.setQueue_eq q _
      exact hI.same (by rw [he])
  | @acknowledge s t q =>
      obtain ⟨_, _, _, he⟩ := s.setQueue_eq q _
      exact hI.same (by rw [he])
  | @deliver s t q =>
      obtain ⟨_, _, _, he⟩ := s.setQueue_eq q _
      exact hI.grow (by rw [he]) (by simp)
  | close => cases hopen
  | batch => exact hI.grow rfl (by simp)
  | @laneUplink s t _ id object f =>
      obtain ⟨_, _, he⟩ := s.modifyLane_eq id object f
      exact hI.same (by rw [he])
  | _ => exact hI.same rfl

theorem Changes.tended {scope : Scope} {σ σ' : Traced} (h : Changes scope σ σ')
    (hends : scope.ends = false)
    (hI : σ.session.closed = false → Tended rest σ.session σ.trace)
    (hopen : σ'.session.closed = false) : Tended rest σ'.session σ'.trace := by
  induction h with
  | refl => exact hI hopen
  | @tail τ τ' _ hlast ih =>
      refine hlast.tended hends hopen (ih ?_)
      by_contra hc
      rw [Bool.not_eq_false] at hc
      rw [hlast.closed_mono hc] at hopen
      cases hopen

/-! ### A batch -/

theorem rememberClosedLocked_tended (h : Tended rest s t) (id : ℕ) :
    wp observer (rememberClosedLocked s id) (fun t' s' => Tended rest s' t') t := by
  refine wp_mono (rememberClosedLocked_room s id) ?_
  rintro t' s' ⟨es, s₁, rfl, hes, ⟨hstreams, -⟩, hs'⟩
  refine h.grow ?_ hes
  rcases hs' with rfl | rfl
  · exact hstreams
  · unfold Session.signalLane
    split
    · exact hstreams
    · exact hstreams

variable {r : Applying}

theorem refuseOpen_tended (h : Tended r.closed r.session t) (id : ℕ) :
    wp observer (refuseOpen r id) (fun t' r' => Tended r'.closed r'.session t') t := by
  unfold refuseOpen
  refine wp_seq (rememberClosedLocked_tended h id) ?_
  intro t₁ s₁ h₁
  have hrejected : Tended r.closed s₁ (t₁ ++ [.rejected id]) := h₁.grow rfl (by simp)
  simp only [announce_bind, wp_note]
  refine wp_seq (queueFrameLocked_obs s₁ .close id []) ?_
  rintro t₂ ⟨s₂, ok⟩ ⟨es, rfl, hq⟩
  cases ok with
  | true => exact hrejected.queueResult hq
  | false => exact (hrejected.queueResult hq).grow rfl (by simp)

theorem applyOpen_tended (h : Tended r.closed r.session t) {id : ℕ}
    (hnone : r.session.streams.get id = none) :
    wp observer (applyOpen r id) (fun t' r' => Tended r'.closed r'.session t') t := by
  unfold applyOpen
  dsimp only
  split_ifs
  · exact refuseOpen_tended h id
  · refine ⟨trivial, ?_⟩
    rintro b t' rfl
    cases b with
    | false => exact refuseOpen_tended h id
    | true => exact h.start hnone rfl

/-- The backend of a stream that is closed waits to be cancelled with the batch. -/
theorem applyClose_tended (h : Tended r.closed r.session t) (id : ℕ) :
    wp observer (applyClose r id) (fun t' r' => Tended r'.closed r'.session t') t := by
  unfold applyClose
  cases hst : r.session.streams.get id with
  | none => trivial
  | some st =>
      refine wp_seq (releaseStreamWritesLocked_obs r.session st) ?_
      rintro t₁ s₁ ⟨rfl, cost, items, notify, rfl⟩
      have hsame : Tended r.closed (r.session.setPending cost items notify) t₁ := h.same rfl
      exact wp_seq (rememberClosedLocked_tended (hsame.del hst) id) fun _ _ h₂ => h₂

theorem applyFrame_tended (h : Tended r.closed r.session t) {f : Frame}
    (hopen : f.type = .open → f.streamID ≠ 0 → r.session.streams.get f.streamID = none) :
    wp observer (applyFrame r f) (fun t' r' => Tended r'.closed r'.session t') t := by
  unfold applyFrame
  by_cases h0 : f.streamID = 0
  · rw [if_pos h0]
    exact h
  rw [if_neg h0]
  cases hty : f.type with
  | «open» => exact applyOpen_tended h (hopen hty h0)
  | data =>
      dsimp only
      split_ifs
      · exact h
      · unfold applyData
        cases hst : r.session.streams.get f.streamID with
        | none => trivial
        | some st =>
            exact (h.put { (appendBackendWriteLocked st f.payload).1 with
              receiveWindow := subUint32 st.receiveWindow (toUint32 f.payload.length)
              writeNotify := true } hst rfl).grow rfl (by simp)
  | window =>
      dsimp only
      split_ifs
      · exact h
      · unfold applyWindow
        cases hst : r.session.streams.get f.streamID with
        | none => trivial
        | some st =>
            exact (h.put { st with
              sendCredit := addCredit st.sendCredit (windowAmount f.payload).1
              creditNotify := true } hst rfl).grow rfl (by simp)
  | close =>
      dsimp only
      split_ifs
      · exact h
      · exact applyClose_tended h _
  | _ => exact h

/-- An OPEN of a validated batch finds no stream, so that no backend is overwritten. -/
theorem applyLoop_tended {laned : Prop} {σ : Traced} {frozen : Finset ℕ}
    {live : Table ℕ StreamSnapshot} {closed : Finset ℕ} {done : List ℕ} {frames : List Frame}
    {laneID : ℕ} (hsize : ∀ f ∈ frames, f.payload.length ≤ maxPayload)
    (ha : Applies limits laned σ frozen live closed done laneID r.session t)
    (hv : validateLoop frozen live closed frames = true) (hlaned : ¬ laned)
    (h : Tended r.closed r.session t) :
    wp observer (applyLoop r frames) (fun t' r' => Tended r'.closed r'.session t') t := by
  induction frames generalizing r t live closed done laneID with
  | nil => exact h
  | cons f frames ih =>
      obtain ⟨live₁, closed₁, hf, hv₁⟩ := validateLoop_cons_inv hv
      have ha' : Applies limits laned σ frozen live closed done f.streamID r.session t :=
        ⟨ha.changes, fun hl => absurd hl hlaned, ha.carrier, ha.ring, ha.opened, ha.tracks,
          ha.recorded⟩
      refine wp_seq (wp_and (applyFrame_tended h (ha.open_fresh hf))
        (applyFrame_obs ha' hf rfl (fun hl => absurd hl hlaned) (hsize f List.mem_cons_self))) ?_
      rintro t₁ r₁ ⟨h₁, c₁, d₁, ha₁, -⟩
      split_ifs
      · exact ih (fun g hg => hsize g (List.mem_cons_of_mem f hg)) ha₁ hv₁ h₁
      · exact h₁

/-- The batch cancels the backends of the streams it closed. -/
theorem commitBatch_tended {frames : List Frame} (label : Option ℕ) (hs : Ring limits ⟨s, t⟩)
    (hopen : s.closed = false) (hsize : ∀ f ∈ frames, f.payload.length ≤ maxPayload)
    (h : Tended [] s t) (sequence : ℕ) (body : Bytes) :
    wp observer (commitBatch s label sequence body frames) (fun t' r => Tended [] r.1 t') t := by
  refine commitBatch_observed (fun t' r => Tended r.closed r.session t') h h ?_ ?_
  · rintro hv s' ⟨cost, items, notify, rfl⟩
    have happlying : Tended [] (s.setPending cost items notify)
        (t ++ [.applying label sequence body]) := h.grow rfl (by simp)
    have hring : Ring limits ⟨s.setPending cost items notify,
        t ++ [.applying label sequence body]⟩ := hs.keeps (Keeps.setPending s cost items notify) rfl
    have ha : Applies limits False ⟨s.setPending cost items notify,
        t ++ [.applying label sequence body]⟩ s.closedStreams s.snapshot ∅ [] 0
        (s.setPending cost items notify) (t ++ [.applying label sequence body]) :=
      .start hring hopen (by simp)
    exact applyLoop_tended hsize ha hv not_false happlying
  · rintro t₁ r s₂ h₁ ⟨cost, items, notify, rfl⟩
    have hreleased : Tended r.closed (r.session.setPending cost items notify) t₁ := h₁.same rfl
    exact hreleased.cancel

/-! ### The sections that end streams -/

theorem processUpCommit_tended (hs : Ring limits ⟨s, t⟩) (h : s.closed = false → Tended [] s t)
    (sequence : ℕ) (body : Bytes) :
    wp observer (processUpCommit sha256 s sequence body)
      (fun t' r => r.1.closed = false → Tended [] r.1 t') t := by
  have hidle : s.closed = false → Tended [] { s with upActive := false } t :=
    fun hopen => (h hopen).same rfl
  unfold processUpCommit
  dsimp only
  split_ifs with hclosed
  · exact hidle
  · have hopen : s.closed = false := by simpa using hclosed
    cases hf : clientFrames s.limits body with
    | none => exact hidle
    | some frames =>
        have hring : Ring limits ⟨{ s with upActive := false }, t⟩ :=
          ⟨hs.limits_eq, hs.ring, hs.tombstones, hs.distinct, hs.disjoint⟩
        refine wp_seq (commitBatch_tended none hring hopen (clientFrames_size hf) (hidle hopen)
          sequence body) ?_
        rintro t₁ ⟨s₁, outcome⟩ h₁
        cases outcome with
        | applied => exact fun _ => h₁.same rfl
        | _ => exact fun _ => h₁

theorem modifyLane_tended (h : Tended rest s t) (id object : ℕ) (f : CarrierLane → CarrierLane) :
    Tended rest (s.modifyLane id object f) t := by
  obtain ⟨_, _, he⟩ := s.modifyLane_eq id object f
  exact h.same (by rw [he])

theorem processOnLane_tended {lane : CarrierLane} {laneID : ℕ} {frames : List Frame}
    (hs : Ring limits ⟨s, t⟩) (hopen : s.closed = false)
    (hsize : ∀ f ∈ frames, f.payload.length ≤ maxPayload) (h : Tended [] s t) (sequence : ℕ)
    (body : Bytes) :
    wp observer (processOnLane sha256 s lane laneID sequence body frames)
      (fun t' r => Tended [] r.1 t') t := by
  unfold processOnLane
  split_ifs
  · exact h
  · exact h
  · exact h
  · exact h
  · have hopen₁ : (s.modifyLane laneID lane.object fun l =>
        { l with upActive := true }).closed = false := by
      obtain ⟨_, _, he⟩ := s.modifyLane_eq laneID lane.object fun l => { l with upActive := true }
      rw [he]
      exact hopen
    refine wp_seq (commitBatch_tended (some laneID) (hs.quiet (Keeps.modifyLane s _ _ _)) hopen₁
      hsize (modifyLane_tended h _ _ _) sequence body) ?_
    rintro t₁ ⟨s₁, outcome⟩ h₁
    have h₂ := modifyLane_tended h₁ laneID lane.object fun l => { l with upActive := false }
    cases outcome with
    | applied => exact modifyLane_tended h₂ _ _ _
    | _ => exact h₂

theorem processUpLane_tended (hs : Sound limits carrier ⟨s, t⟩)
    (h : s.closed = false → Tended [] s t) (laneID sequence : ℕ) (body : Bytes) :
    wp observer (processUpLane sha256 s laneID sequence body)
      (fun t' r => r.1.closed = false → Tended [] r.1 t') t := by
  unfold processUpLane
  by_cases hbad : s.usesCarrierLanes = false ∨ maxStreamID < laneID
  · rw [if_pos hbad]
    exact h
  rw [if_neg hbad]
  cases hf : laneFrames s.limits laneID body with
  | none => exact h
  | some frames =>
      have hsize := fun f hm => (laneFrames_spec hf f hm).1
      dsimp only
      by_cases hclosed : s.closed = true
      · rw [if_pos hclosed]
        exact h
      rw [if_neg hclosed]
      have hopen : s.closed = false := by simpa using hclosed
      cases hl : s.carrierLanes.get laneID with
      | some lane =>
          exact wp_mono (processOnLane_tended hs.toRing hopen hsize (h hopen) _ _)
            fun _ _ h₁ _ => h₁
      | none =>
          dsimp only
          split_ifs
          · exact h
          · exact h
          · have hcreate : Change .request ⟨s, t⟩ ⟨(s.createLane laneID).1, t⟩ :=
              .createLane hopen hl (not_lt.mp fun hm => hbad (.inr hm)) rfl
            have hcreated : Tended [] (s.createLane laneID).1 t := (h hopen).same rfl
            exact wp_mono (processOnLane_tended (hcreate.sound hs).toRing hopen hsize hcreated _ _)
              fun _ _ h₁ _ => h₁

theorem releaseWebSocketLane_tended (h : Tended [] s t) (laneID : ℕ) :
    wp observer (releaseWebSocketLane s laneID) (fun t' s' => Tended [] s' t') t := by
  have hdrop : ∀ (s₁ : Session) (t₁ : List Event), Tended [] s₁ t₁ →
      wp observer (dropLane s₁ laneID) (fun t' s' => Tended [] s' t') t₁ := by
    intro s₁ t₁ h₁
    unfold dropLane
    cases hl : s₁.carrierLanes.get laneID with
    | none => exact h₁
    | some lane =>
        refine wp_seq (releaseLaneLocked_obs s₁ lane) ?_
        rintro t₂ ⟨s₂, lane₂⟩ ⟨rfl, ⟨cost, items, notify, rfl⟩, rfl⟩
        exact h₁.same rfl
  unfold releaseWebSocketLane
  split_ifs
  · exact h
  cases hl : s.carrierLanes.get laneID with
  | none => exact h
  | some lane =>
      dsimp only
      cases hst : s.streams.get laneID with
      | none =>
          simp only [Session.putLane_streams, hst, pure_bind']
          exact hdrop _ t (h.same rfl)
      | some state =>
          simp only [Session.putLane_streams, hst]
          refine wp_seq (releaseStreamWritesLocked_obs _ state) ?_
          rintro t₁ s₁ ⟨rfl, cost, items, notify, rfl⟩
          have htouched : Tended [] ((s.putLane laneID { lane with
              websocketActive := false }).setPending cost items notify) t₁ := h.same rfl
          refine wp_seq (rememberClosedLocked_tended (htouched.del hst) laneID) ?_
          intro t₂ s₂ h₂
          simp only [announce_bind, wp_note]
          exact hdrop s₂ _ h₂.cancel

theorem backendClosed_tended (h : s.closed = false → Tended [] s t) (id backend : ℕ) :
    wp observer (backendClosed s id backend)
      (fun t' s' => s'.closed = false → Tended [] s' t') t := by
  have hidle : s.closed = false → Tended [] s (t ++ [.cancelled [backend]]) :=
    fun hopen => (h hopen).grow rfl (by simp)
  unfold backendClosed
  cases hst : s.streams.get id with
  | none => exact hidle
  | some st =>
      dsimp only
      split_ifs with hbad
      · exact hidle
      simp only [not_or, not_not] at hbad
      obtain ⟨hclosed, rfl⟩ := hbad
      refine wp_seq (releaseStreamWritesLocked_obs s st) ?_
      rintro t₁ s₁ ⟨rfl, cost, items, notify, rfl⟩
      have hsame : Tended [] (s.setPending cost items notify) t₁ :=
        (h (by simpa using hclosed)).same rfl
      refine wp_seq (rememberClosedLocked_tended (hsame.del hst) id) ?_
      intro t₂ s₂ h₂
      refine wp_seq (queueFrameLocked_obs s₂ .close id []) ?_
      rintro t₃ ⟨s₃, ok⟩ ⟨es, rfl, hq⟩
      cases ok with
      | true => exact fun _ => (h₂.queueResult hq).cancel
      | false =>
          refine wp_seq (closeLocked_closed s₃) ?_
          intro t₄ s₄ hend hopen
          rw [hend] at hopen
          cases hopen

/-! ### Every section -/

theorem acquireWebSocketLane_streams (s : Session) (laneID : ℕ) :
    (acquireWebSocketLane s laneID).1.streams = s.streams ∧
      (acquireWebSocketLane s laneID).1.closed = s.closed := by
  have hacquired := acquireWebSocketLane_acquired s laneID
  generalize acquireWebSocketLane s laneID = r at hacquired ⊢
  cases hacquired with
  | refused => exact ⟨rfl, rfl⟩
  | attached => exact ⟨rfl, rfl⟩
  | created => exact ⟨rfl, rfl⟩

theorem processUpBegin_streams (s : Session) (sequence : ℕ) (body : Bytes) :
    (processUpBegin sha256 s sequence body).1.streams = s.streams ∧
      (processUpBegin sha256 s sequence body).1.closed = s.closed := by
  unfold processUpBegin
  split_ifs <;> exact ⟨rfl, rfl⟩

theorem Section.tended (c : Section) (hs : Sound limits carrier ⟨s, t⟩) (hc : c.Callable s)
    (h : s.closed = false → Tended [] s t) :
    wp observer (c.exec sha256 s) (fun t' r => r.1.closed = false → Tended [] r.1 t') t := by
  have hended : ∀ {s' : Session} {t' : List Event}, s'.closed = true →
      s'.closed = false → Tended [] s' t' := by
    intro s' t' hclosed hopen
    rw [hclosed] at hopen
    cases hopen
  have hsame : ∀ {s' : Session}, s'.streams = s.streams ∧ s'.closed = s.closed →
      s'.closed = false → Tended [] s' t :=
    fun hs' hopen => (h (hs'.2.symm.trans hopen)).same hs'.1
  have hrelease : ∀ laneID, wp observer (TproxyServer.releaseWebSocketLane s laneID)
      (fun t' s' => s'.closed = false → Tended [] s' t') t := by
    intro laneID
    by_cases hclosed : s.closed = true
    · refine wp_mono (releaseWebSocketLane_obs hs laneID) fun t' s' hw => hended ?_
      exact Changes.closed_mono hw hclosed
    · exact wp_mono (releaseWebSocketLane_tended (h (by simpa using hclosed)) laneID)
        fun _ _ h₁ _ => h₁
  cases c with
  | acquireWebSocket =>
      refine hsame ?_
      unfold TproxyServer.acquireWebSocket
      split_ifs <;> exact ⟨rfl, rfl⟩
  | acquireWebSocketLane laneID => exact hsame (acquireWebSocketLane_streams s laneID)
  | releaseWebSocketLane laneID => exact wp_seq (hrelease laneID) fun _ _ h₁ => h₁
  | laneProtocolFailure laneID =>
      refine wp_seq (p := TproxyServer.laneProtocolFailure s laneID) ?_ fun _ _ h₁ => h₁
      unfold TproxyServer.laneProtocolFailure
      split_ifs
      · exact hrelease laneID
      · exact wp_mono (closeLocked_closed s) fun _ _ hclosed => hended hclosed
  | close => exact wp_seq (closeLocked_closed s) fun _ _ hclosed => hended hclosed
  | processUpBegin sequence body => exact hsame (processUpBegin_streams s sequence body)
  | processUpCommit sequence body =>
      exact wp_seq (processUpCommit_tended hs.toRing h sequence body) fun _ _ h₁ => h₁
  | processUpLane laneID sequence body =>
      exact wp_seq (processUpLane_tended hs h laneID sequence body) fun _ _ h₁ => h₁
  | backendClosed id backend => exact wp_seq (backendClosed_tended h id backend) fun _ _ h₁ => h₁
  | _ =>
      exact wp_mono (Section.changes sha256 hs _ hc) fun _ _ hw hopen =>
        Changes.tended hw rfl h hopen

/-- **No backend outlives its stream**: in every open state a session can reach, a backend that
was created serves its stream or was cancelled. -/
theorem Reachable.tended {σ : Traced} (h : Reachable sha256 limits carrier σ)
    (hopen : σ.session.closed = false) : Tended [] σ.session σ.trace := by
  induction h with
  | start => exact fun id b hm => absurd hm List.not_mem_nil
  | step hσ hstep ih =>
      exact hstep.of_wp (fun hc => Section.tended _ hσ.sound hc ih) hopen

end TproxyServer
