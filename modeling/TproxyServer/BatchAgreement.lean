import TproxyServer.SectionChanges

/-! # The three passes over a batch agree up to evicted tombstones

`validateBatchLocked` lets a late frame pass if its id is closed when the batch arrives or
closed by an earlier frame of the batch; `applyBatchLocked` looks at the tombstones that are
left when it comes to the frame.  In between, frames of the same batch may have closed so many
streams that the ring has gone once around: the frame then meets neither a stream nor a
tombstone, and a nil stream is dereferenced.

`batch_agreement` says that this is the only way in which the passes can disagree: windows and
reservation always fit. -/

namespace TproxyServer

open Interaction Prog

variable {limits : Limits} {carrier : CarrierMode} {sha256 : Bytes → Bytes}

def Session.tombstones (s : Session) : List ℕ := s.closedOrder.rotate s.closedStart

/-- A DATA, WINDOW or CLOSE frame of a stream. -/
def Frame.Late (f : Frame) : Prop :=
  f.streamID ≠ 0 ∧ (f.type = .data ∨ f.type = .window ∨ f.type = .close)

/-- After the frames `pre`, whose OPENs got the answers `admits`, the frame `f` comes in time:
if its id was closed before, the ring has not gone around since. -/
def InTime (s : Session) (admits : List Bool) (pre : List Frame) (f : Frame) : Prop :=
  f.Late → f.streamID ∈ s.closedStreams ∨ f.streamID ∈ closes admits s.liveIDs pre →
    f.streamID ∈ (s.tombstones ++ closes admits s.liveIDs pre).rtake s.limits.maxClosedStreamIDs

/-- What the passes promise the loop of `applyBatchLocked` when it comes to `f`. -/
structure Meets (r : Applying) (f : Frame) : Prop where
  target : f.Late →
    r.session.streams.get f.streamID ≠ none ∨ f.streamID ∈ r.session.closedStreams
  touches : applyFrame r f ≠ .panic .missingStream
  window : f.type = .data → ∀ st, r.session.streams.get f.streamID = some st →
    f.payload.length ≤ st.receiveWindow
  reserved : f.type = .data → f.streamID ≠ 0 → ∀ st,
    r.session.streams.get f.streamID = some st →
    ((appendBackendWriteLocked st f.payload).2.1 : ℤ) ≤ r.cost ∧
      ((appendBackendWriteLocked st f.payload).2.2 : ℤ) ≤ r.items

/-- The recent end of the history is what the ring lists. -/
theorem Ring.recent {s : Session} {t : List Event} (h : Ring limits ⟨s, t⟩) (more : List ℕ) :
    (s.tombstones ++ more).rtake limits.maxClosedStreamIDs =
      (closings t ++ more).rtake limits.maxClosedStreamIDs := by
  have := h.ring.recent
  dsimp only at this
  rw [Session.tombstones, this, RecentRing.rtake_append]

theorem Ring.mem_closedStreams {s : Session} {t : List Event} (h : Ring limits ⟨s, t⟩) (id : ℕ) :
    id ∈ s.closedStreams ↔ id ∈ (closings t).rtake limits.maxClosedStreamIDs := by
  have ht := h.tombstones
  dsimp only at ht
  rw [ht, List.mem_toFinset]
  exact h.ring.mem_iff id

/-- Remembering an id dereferences no stream, if what follows does not. -/
theorem rememberClosedLocked_ne_panic {α : Type} (s : Session) (id : ℕ) {k : Session → Act α}
    (h : ∀ s', k s' ≠ .panic .missingStream) :
    (rememberClosedLocked s id >>= k) ≠ .panic .missingStream := by
  unfold rememberClosedLocked
  split_ifs
  · exact h s
  · rintro ⟨⟩

theorem applyOpen_ne_panic (r : Applying) (id : ℕ) : applyOpen r id ≠ .panic .missingStream := by
  unfold applyOpen refuseOpen
  dsimp only
  split_ifs
  · exact rememberClosedLocked_ne_panic _ _ fun s' => by rintro ⟨⟩
  · rintro ⟨⟩

theorem applyClose_ne_panic {r : Applying} {id : ℕ} {st : StreamState}
    (hst : r.session.streams.get id = some st) : applyClose r id ≠ .panic .missingStream := by
  have htail : ∀ s' : Session, (rememberClosedLocked (s'.delStream id) id >>= fun s =>
      (pure { r with session := s, closed := r.closed ++ [st.backend] } : Act Applying)) ≠
        .panic .missingStream :=
    fun s' => rememberClosedLocked_ne_panic _ _ fun s'' => by rintro ⟨⟩
  unfold applyClose
  rw [hst]
  unfold releaseStreamWritesLocked releasePendingLocked
  dsimp only
  split_ifs
  · exact htail r.session
  · rintro ⟨⟩
  · rintro ⟨⟩
  · exact htail r.session

theorem applyFrame_ne_panic {r : Applying} {f : Frame}
    (h : f.Late → r.session.streams.get f.streamID ≠ none ∨
      f.streamID ∈ r.session.closedStreams) : applyFrame r f ≠ .panic .missingStream := by
  have hlive : f.Late → f.streamID ∉ r.session.closedStreams →
      ∃ st, r.session.streams.get f.streamID = some st :=
    fun hl hwas => Option.ne_none_iff_exists'.mp ((h hl).resolve_right hwas)
  unfold applyFrame
  by_cases h0 : f.streamID = 0
  · rw [if_pos h0]; rintro ⟨⟩
  rw [if_neg h0]
  cases hty : f.type with
  | «open» => exact applyOpen_ne_panic r f.streamID
  | data =>
      dsimp only
      split_ifs with hwas
      · rintro ⟨⟩
      · obtain ⟨st, hst⟩ := hlive ⟨h0, .inl hty⟩ hwas
        unfold applyData
        rw [hst]
        rintro ⟨⟩
  | window =>
      dsimp only
      split_ifs with hwas
      · rintro ⟨⟩
      · obtain ⟨st, hst⟩ := hlive ⟨h0, .inr (.inl hty)⟩ hwas
        unfold applyWindow
        rw [hst]
        rintro ⟨⟩
  | close =>
      dsimp only
      split_ifs with hwas
      · rintro ⟨⟩
      · obtain ⟨st, hst⟩ := hlive ⟨h0, .inr (.inr hty)⟩ hwas
        exact applyClose_ne_panic hst
  | _ => rintro ⟨⟩

/-- A frame that the validation let pass is a PONG, an OPEN or late. -/
theorem validateFrame_live {frozen closed closed' : Finset ℕ}
    {live live' : Table ℕ StreamSnapshot} {f : Frame}
    (h : validateFrame frozen live closed f = some (live', closed')) (hl : f.Late)
    (hwas : ¬ (f.streamID ∈ frozen ∨ f.streamID ∈ closed)) : live.get f.streamID ≠ none := by
  obtain ⟨h0, hty⟩ := hl
  unfold validateFrame at h
  rcases hty with hty | hty | hty
  · simp only [h0, hwas, hty, if_false] at h
    split at h
    · cases h
    · next hg => simp [hg]
  · simp only [h0, hwas, hty, if_false] at h
    split at h
    · cases h
    · next hg => simp [hg]
  · simp only [h0, hwas, hty, if_false] at h
    split at h
    · cases h
    · next hg => simp [hg]

theorem validateFrame_window {frozen closed closed' : Finset ℕ}
    {live live' : Table ℕ StreamSnapshot} {f : Frame} {v : StreamSnapshot}
    (h : validateFrame frozen live closed f = some (live', closed')) (h0 : f.streamID ≠ 0)
    (hty : f.type = .data) (hwas : ¬ (f.streamID ∈ frozen ∨ f.streamID ∈ closed))
    (hv : live.get f.streamID = some v) : toUint32 f.payload.length ≤ v.receiveWindow := by
  unfold validateFrame at h
  simp only [h0, hwas, hty, hv, if_false] at h
  split_ifs at h with hbad
  omega

/-- A live stream gets what the reservation counted for the frame. -/
theorem Covered.charge {counted : Finset ℕ} {r : Applying} {f : Frame} {rest : List Frame}
    (hc : Covered counted (f :: rest) r) (h0 : f.streamID ≠ 0) (hty : f.type = .data)
    {st : StreamState} (hst : r.session.streams.get f.streamID = some st) :
    ((appendBackendWriteLocked st f.payload).2.1 : ℤ) ≤ r.cost ∧
      ((appendBackendWriteLocked st f.payload).2.2 : ℤ) ≤ r.items := by
  have hlive : f.streamID ∈ counted := hc.1 (Session.mem_liveIDs.mpr (by simp [hst]))
  obtain ⟨hcost, hitems⟩ := appendBackendWriteLocked_charge st f.payload
  obtain ⟨-, hc₁, hc₂⟩ := hc
  simp only [reservationLoop, h0, if_false, hty, hlive, if_true] at hc₁ hc₂
  push_cast at hc₁ hc₂
  constructor <;> omega

/-- **The passes agree exactly as long as late frames come in time.**  In the middle of any
application of a batch that was accepted, the next frame meets what it needs if and only if no
tombstone that it relies on was evicted by the frames before it. -/
theorem batch_agreement {σ : Traced} (h : Reachable sha256 limits carrier σ)
    (hopen : σ.session.closed = false) {frames pre post : List Frame} {f : Frame}
    (hsize : ∀ g ∈ frames, g.payload.length ≤ maxPayload)
    (hvalid : validateBatchLocked σ.session frames = true) (hsplit : frames = pre ++ f :: post)
    {es : List Event} {r : Applying}
    (hrun : Runs (applyLoop (startBatch σ.session frames) pre) es (.ok r))
    (hgo : r.applied = true) :
    Meets r f ↔ InTime σ.session (decisions es) pre f := by
  obtain ⟨s, t⟩ := σ
  dsimp only at hopen hvalid hrun ⊢
  subst hsplit
  have hring := h.sound.toRing
  have hstart : Applies limits False ⟨s, t⟩ s.closedStreams s.snapshot ∅ [] 0 s t :=
    .start hring hopen fun hl => hl.elim
  have hloop := wp_sound observer_open (applyLoop_obs (r := startBatch s (pre ++ f :: post))
    (fun hl => hl.elim) (fun hl => hl.elim) (fun g hg => hsize g (List.mem_append_left _ hg)) hstart hvalid .start)
    hrun
  rw [observer_notes] at hloop
  obtain ⟨live, closed, c, d, counted, ha, hv, hcov, hd, hcl⟩ := hloop.passed hgo
  rw [List.nil_append] at ha
  have hd' : d = decisions es := by
    rw [decisions_append] at hd
    exact (List.append_cancel_left hd).symm
  have hc' : closes (decisions es) s.liveIDs pre = c := by
    have := hcl [] []
    rw [List.append_nil, List.append_nil, hd'] at this
    simpa [closes, startBatch] using this
  obtain ⟨live', closed', hf, -⟩ := validateLoop_cons_inv hv
  have hlimits : s.limits = limits := hring.limits_eq
  have hmem : f.streamID ∈ r.session.closedStreams ↔
      f.streamID ∈ (s.tombstones ++ c).rtake s.limits.maxClosedStreamIDs := by
    rw [ha.ring.mem_closedStreams, ha.recorded, hlimits, hring.recent]
  unfold InTime
  rw [hc']
  constructor
  · intro hm hl hpast
    rcases hm.target hl with hlive | htomb
    · obtain ⟨st, hst⟩ := Option.ne_none_iff_exists'.mp hlive
      obtain ⟨hfrozen, -, hdone, -⟩ := ha.tracks.alive hst
      exact absurd hpast (not_or.mpr ⟨hfrozen, hdone⟩)
    · exact hmem.mp htomb
  · intro hin
    have htarget : f.Late → r.session.streams.get f.streamID ≠ none ∨
        f.streamID ∈ r.session.closedStreams := by
      intro hl
      by_cases hpast : f.streamID ∈ s.closedStreams ∨ f.streamID ∈ c
      · exact .inr (hmem.mpr (hin hl hpast))
      · rw [not_or] at hpast
        have hclosed : f.streamID ∉ closed := fun hm => hpast.2 (ha.tracks.ended _ hm)
        have hlive := validateFrame_live hf hl (not_or.mpr ⟨hpast.1, hclosed⟩)
        exact .inl ((ha.tracks.full _ hlive).resolve_right hpast.2)
    refine ⟨htarget, applyFrame_ne_panic htarget, fun hty st hst => ?_,
      fun hty h0 st hst => hcov.charge h0 hty hst⟩
    obtain ⟨hfrozen, hclosed, -, hagree⟩ := ha.tracks.alive hst
    have h0 : f.streamID ≠ 0 := by
      intro h0
      simp [validateFrame, h0, hty] at hf
    have hfits := validateFrame_window hf h0 hty (not_or.mpr ⟨hfrozen, hclosed⟩) hagree
    have hlen : f.payload.length ≤ maxPayload := hsize f (by simp)
    rwa [toUint32, Nat.mod_eq_of_lt (by unfold maxPayload at hlen; omega)] at hfits

/-- The state and the run of the theorem exist: a session just opened, an OPEN and its DATA. -/
theorem batch_agreement_first_data :
    let frames : List Frame := [⟨.open, 1, []⟩, ⟨.data, 1, [7]⟩]
    let s := newSession defaultLimits .https
    ∃ es r, Runs (applyLoop (startBatch s frames) [⟨.open, 1, []⟩]) es (.ok r) ∧
      (Meets r ⟨.data, 1, [7]⟩ ↔ InTime s (decisions es) [⟨.open, 1, []⟩] ⟨.data, 1, [7]⟩) := by
  intro frames s
  have hrun : Runs (applyLoop (startBatch s frames) [⟨.open, 1, []⟩]) [.opened 1 0] (.ok _) :=
    runs_of_run [] rfl
  have hstart : Reachable id defaultLimits .https ⟨s, []⟩ := .start
  exact ⟨_, _, hrun, batch_agreement hstart rfl (by decide) (by decide) rfl hrun rfl⟩

/-- A configuration in which a session remembers one closed id. -/
def oneTombstone : Limits :=
  { defaultLimits with maxClosedStreamIDs := 1, maxClosedStreamIDs_pos := by decide }

/-- With room for one tombstone and stream 1 closed, a batch that closes stream 2 and then
carries late DATA of stream 1 is accepted, and dereferences a stream that is not there. -/
theorem batch_agreement_fails : ∃ (σ : Traced) (es : List Event),
    Reachable id oneTombstone .https σ ∧ σ.session.closed = false ∧
    validateBatchLocked σ.session [⟨.close, 2, []⟩, ⟨.data, 1, [7]⟩] = true ∧
    Runs (applyLoop (startBatch σ.session [⟨.close, 2, []⟩, ⟨.data, 1, [7]⟩])
      [⟨.close, 2, []⟩, ⟨.data, 1, [7]⟩]) es (.error .missingStream) := by
  let body := encode .open 1 [] ++ encode .close 1 [] ++ encode .open 2 []
  let frames : List Frame := [⟨.close, 2, []⟩, ⟨.data, 1, [7]⟩]
  have hplay : (play id ⟨newSession oneTombstone .https, []⟩
      [(.processUpBegin 1 body, []), (.processUpCommit 1 body, [])]).any (fun σ =>
        !σ.session.closed && validateBatchLocked σ.session frames &&
        decide (Prog.faultOf ((applyLoop (startBatch σ.session frames) frames).run []) =
          some .missingStream)) = true := by
    decide +kernel
  obtain ⟨σ, hσ, hchecks⟩ := (Option.any_eq_true _ _).mp hplay
  simp only [Bool.and_eq_true, Bool.not_eq_true', decide_eq_true_eq] at hchecks
  obtain ⟨⟨hopen, hvalid⟩, hfault⟩ := hchecks
  exact ⟨σ, _, Reachable.start.play hσ, hopen, hvalid, runs_of_fault [] hfault⟩

end TproxyServer
