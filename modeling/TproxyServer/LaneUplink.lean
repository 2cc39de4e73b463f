import TproxyServer.KeptLanes
import TproxyServer.LaneBound
import TproxyServer.UplinkCalls

/-! # A lane applies every body once

A lane keeps the sequence of the last body it took up, and takes up none but the next.  The
eviction of its tombstone takes the record along: a body with the OPEN of its lane is taken up
again when it is retried after that (`lane_applied_twice`).  As long as no lane is created after
a body of it was applied, none is applied twice, however often it is retried. -/

namespace TproxyServer

open Interaction Prog

variable {limits : Limits} {carrier : CarrierMode} {s s' s'' : Session} {t : List Event}
  {sha256 : Bytes → Bytes}

/-! ### Bodies of lanes -/

/-- A body under its lane and sequence. -/
structure LaneBody where
  laneID : ℕ
  sequence : ℕ
  body : Bytes
deriving DecidableEq

/-- The bodies that lanes took up, oldest first. -/
def laneBodies (t : List Event) : List LaneBody :=
  t.filterMap fun e => match e with
    | .applying (some laneID) sequence body => some ⟨laneID, sequence, body⟩
    | _ => none

@[simp] theorem laneBodies_append (t es : List Event) :
    laneBodies (t ++ es) = laneBodies t ++ laneBodies es :=
  List.filterMap_append ..

theorem laneBodies_uplinkEvents (t : List Event) : laneBodies (uplinkEvents t) = laneBodies t := by
  unfold laneBodies uplinkEvents
  rw [List.filterMap_filter]
  refine List.filterMap_congr fun e _ => ?_
  cases e <;> rfl

theorem BatchEffect.laneBodies {frames : List Frame} {g : List Event}
    (h : BatchEffect frames g) : laneBodies g = [] := by
  induction h with
  | nil => rfl
  | cons hf _ ih =>
      rw [laneBodies_append, ih, List.append_nil]
      cases hf <;> rfl

theorem Quiet.laneBodies {t' : List Event} (h : Quiet t t') : laneBodies t' = laneBodies t := by
  rw [← laneBodies_uplinkEvents, h.1, laneBodies_uplinkEvents]

/-- `es` is all that the uplink did: the frames of each of the bodies one after the other, or
those before a refused OPEN at which the application was cut short. -/
inductive LaneSerial (limits : Limits) : List LaneBody → List Event → Prop
  | nil : LaneSerial limits [] []
  | snoc {bodies : List LaneBody} {es g : List Event} {p : LaneBody} {done rest : List Frame}
      (h : LaneSerial limits bodies es)
      (hframes : laneFrames limits p.laneID p.body = some (done ++ rest))
      (hg : BatchEffect done g) :
      LaneSerial limits (bodies ++ [p])
        (es ++ .applying (some p.laneID) p.sequence p.body :: g)

/-- What the uplink did is the application of bodies of which no two are copies. -/
structure AppliedOnce (limits : Limits) (t : List Event) : Prop where
  serial : LaneSerial limits (laneBodies t) (uplinkEvents t)
  once : (laneBodies t).Nodup

/-! ### The books of the lanes -/

/-- What a lane knows about its uplink. -/
def CarrierLane.books (l : CarrierLane) : ℕ × ℕ := (l.object, l.lastUpSequence)

/-- The lanes of `s'` are lanes of `s` with their books; some may have gone. -/
abbrev KeepsBooks (s s' : Session) : Prop := KeepsLanes CarrierLane.books s s'

/-- What creates no lane and takes up no body leaves the books. -/
theorem Changes.keepsBooks {scope : Scope} {σ σ' : Traced} (h : Changes scope σ σ')
    (huplink : scope.uplink = false) (hlanes : scope.lanes = false) :
    KeepsBooks σ.session σ'.session := by
  refine h.keepsLanes (fun _ _ => rfl) hlanes (fun _ l l' hobject hsequence => ?_) fun hup => ?_
  · exact Prod.ext hobject hsequence
  · rw [huplink] at hup
    cases hup

/-! ### A second OPEN -/

/-- An OPEN is accepted only for an id that is neither live nor closed, and a frame that is
accepted leaves its id the one or the other. -/
theorem validateFrame_past {frozen closed closed' : Finset ℕ} {live live' : Table ℕ StreamSnapshot}
    {f : Frame} (h : validateFrame frozen live closed f = some (live', closed'))
    (h0 : f.streamID ≠ 0)
    (hpast : live.get f.streamID ≠ none ∨ f.streamID ∈ frozen ∨ f.streamID ∈ closed) :
    f.type ≠ .open ∧
      (live'.get f.streamID ≠ none ∨ f.streamID ∈ frozen ∨ f.streamID ∈ closed') := by
  unfold validateFrame at h
  rw [if_neg h0] at h
  cases hty : f.type with
  | «open» =>
      simp only [hty] at h
      rw [if_pos hpast] at h
      cases h
  | data =>
      simp only [hty] at h
      refine ⟨by simp, ?_⟩
      split_ifs at h with hwas
      · cases h
        exact hpast
      · cases hl : live.get f.streamID with
        | none =>
            rw [hl] at h
            cases h
        | some st =>
            simp only [hl] at h
            split_ifs at h
            cases h
            exact .inl (by simp)
  | window =>
      simp only [hty] at h
      refine ⟨by simp, ?_⟩
      split_ifs at h with hwas
      · cases h
        exact hpast
      · cases hl : live.get f.streamID with
        | none =>
            rw [hl] at h
            cases h
        | some st =>
            simp only [hl] at h
            cases h
            exact .inl (by simp)
  | close =>
      simp only [hty] at h
      refine ⟨by simp, ?_⟩
      split_ifs at h with hwas
      · cases h
        exact hpast
      · cases hl : live.get f.streamID with
        | none =>
            rw [hl] at h
            cases h
        | some st =>
            simp only [hl] at h
            cases h
            exact .inr (.inr (Finset.mem_insert_self _ _))
  | _ =>
      simp only [hty] at h
      cases h

/-- A batch for an id that was opened before has no OPEN. -/
theorem validateLoop_past {frozen closed : Finset ℕ} {live : Table ℕ StreamSnapshot} {id : ℕ}
    {frames : List Frame} (h : validateLoop frozen live closed frames = true) (h0 : id ≠ 0)
    (hids : ∀ f ∈ frames, f.streamID = id)
    (hpast : live.get id ≠ none ∨ id ∈ frozen ∨ id ∈ closed) :
    ∀ f ∈ frames, f.type ≠ .open := by
  induction frames generalizing live closed with
  | nil => exact fun f hf => absurd hf List.not_mem_nil
  | cons f rest ih =>
      obtain ⟨live', closed', hf, hrest⟩ := validateLoop_cons_inv h
      have hid : f.streamID = id := hids f List.mem_cons_self
      subst hid
      obtain ⟨hty, hpast'⟩ := validateFrame_past hf h0 hpast
      intro g hg
      rcases List.mem_cons.mp hg with rfl | hg
      · exact hty
      · exact ih hrest (fun g hg => hids g (List.mem_cons_of_mem f hg)) hpast' g hg

/-- The batch of an accepted body with an OPEN finds its id new. -/
theorem validateBatchLocked_open {id : ℕ} {frames : List Frame}
    (h : validateBatchLocked s frames = true) (h0 : id ≠ 0)
    (hids : ∀ f ∈ frames, f.streamID = id) (hopen : ∃ f ∈ frames, f.type = .open) :
    s.streams.get id = none ∧ id ∉ s.closedStreams := by
  obtain ⟨f, hf, hty⟩ := hopen
  have hnot : ¬ (s.snapshot.get id ≠ none ∨ id ∈ s.closedStreams ∨ id ∈ (∅ : Finset ℕ)) :=
    fun hpast => validateLoop_past h h0 hids hpast f hf hty
  simp only [not_or, not_not] at hnot
  obtain ⟨hlive, hclosed, -⟩ := hnot
  rw [Session.snapshot, Table.get_mapValues, Option.map_eq_none_iff] at hlive
  exact ⟨hlive, hclosed⟩

/-! ### An application that is cut short -/

variable {r : Applying}

theorem applyFrame_refused (hgo : r.applied = true) (f : Frame) :
    wp observer (applyFrame r f) (fun _ r' => r'.applied = false →
      f.type = .open ∧ f.streamID ≠ 0 ∧
        (r'.session.closed = false → ¬ r'.session.Orphan f.streamID)) t := by
  have hskip : ∀ {p : Prop}, r.applied = false → p := by
    intro p h
    rw [hgo] at h
    cases h
  unfold applyFrame
  by_cases h0 : f.streamID = 0
  · rw [if_pos h0]
    exact hskip
  rw [if_neg h0]
  cases hty : f.type with
  | «open» => exact wp_mono (applyOpen_fosters r f.streamID) fun _ _ h _ => ⟨rfl, h0, h.2⟩
  | data =>
      dsimp only
      split_ifs
      · exact hskip
      · unfold applyData
        cases hst : r.session.streams.get f.streamID with
        | none => trivial
        | some st => exact hskip
  | window =>
      dsimp only
      split_ifs
      · exact hskip
      · unfold applyWindow
        cases hst : r.session.streams.get f.streamID with
        | none => trivial
        | some st => exact hskip
  | close =>
      dsimp only
      split_ifs
      · exact hskip
      · unfold applyClose
        cases hst : r.session.streams.get f.streamID with
        | none => trivial
        | some st =>
            refine wp_seq (wp_true (fun _ _ => trivial) fun _ => trivial) ?_
            intro t₁ s₁ _
            refine wp_seq (wp_true (fun _ _ => trivial) fun _ => trivial) ?_
            intro t₂ s₂ _
            exact hskip
  | _ => exact hskip

/-- The OPEN at which an application is cut short leaves its lane to a tombstone. -/
theorem applyLoop_refused {frames : List Frame} (hgo : r.applied = true) :
    wp observer (applyLoop r frames) (fun _ r' => r'.applied = false →
      ∃ f ∈ frames, f.type = .open ∧ f.streamID ≠ 0 ∧
        (r'.session.closed = false → ¬ r'.session.Orphan f.streamID)) t := by
  induction frames generalizing r t with
  | nil =>
      intro h
      rw [hgo] at h
      cases h
  | cons f frames ih =>
      refine wp_seq (applyFrame_refused hgo f) ?_
      intro t₁ r₁ h₁
      by_cases hgo₁ : r₁.applied = true
      · rw [if_pos hgo₁]
        refine wp_mono (ih hgo₁) ?_
        intro t₂ r₂ h₂ hcut
        obtain ⟨g, hg, hopen⟩ := h₂ hcut
        exact ⟨g, List.mem_cons_of_mem f hg, hopen⟩
      · rw [if_neg hgo₁]
        exact fun hcut => ⟨f, List.mem_cons_self, h₁ hcut⟩

/-- A commit takes up valid batches only. -/
theorem commitBatch_valid (s : Session) (label : Option ℕ) (sequence : ℕ) (body : Bytes)
    (frames : List Frame) :
    wp observer (commitBatch s label sequence body frames) (fun _ r =>
      (r.2 = .applied ∨ r.2 = .aborted → validateBatchLocked s frames = true) ∧
      (r.2 = .aborted → ∃ f ∈ frames, f.type = .open ∧ f.streamID ≠ 0 ∧
        (r.1.closed = false → ¬ r.1.Orphan f.streamID))) t := by
  refine commitBatch_observed (fun _ r => validateBatchLocked s frames = true ∧
    (r.applied = false → ∃ f ∈ frames, f.type = .open ∧ f.streamID ≠ 0 ∧
      (r.session.closed = false → ¬ r.session.Orphan f.streamID))) ?_ ?_ ?_ ?_
  · exact ⟨fun h => by simp at h, fun h => by cases h⟩
  · exact ⟨fun h => by simp at h, fun h => by cases h⟩
  · intro hv s' _
    exact wp_mono (applyLoop_refused rfl) fun _ _ h => ⟨hv, h⟩
  · rintro t₁ r s₂ ⟨hv, hcut⟩ ⟨cost, items, notify, rfl⟩
    refine ⟨fun _ => hv, fun h => hcut ?_⟩
    cases happlied : r.applied with
    | true => simp [happlied] at h
    | false => rfl

/-! ### The invariant -/

/-- Where lane `l` stands to a body of it that was taken up: the lane is past its sequence, or it
was cut short at an OPEN that is not forgotten. -/
def Session.Took (s : Session) (limits : Limits) (p : LaneBody) (l : CarrierLane) : Prop :=
  p.sequence ≤ l.lastUpSequence ∨
    p.laneID ≠ 0 ∧ ¬ s.Orphan p.laneID ∧
      ∃ frames, laneFrames limits p.laneID p.body = some frames ∧ ∃ f ∈ frames, f.type = .open

theorem Session.Took.keep {p : LaneBody} {l l' : CarrierLane} (h : s.Took limits p l)
    (hf : Fosters ∅ s s') (hopen : s'.closed = false)
    (hle : l.lastUpSequence ≤ l'.lastUpSequence) : s'.Took limits p l' := by
  rcases h with h | ⟨h0, hno, hframes⟩
  · exact .inl (h.trans hle)
  · exact .inr ⟨h0, fun ho => hno (hf.orphans hopen _ (Finset.notMem_empty _) ho), hframes⟩

/-- The invariant: what was applied is recorded in the lanes that are there. -/
structure Recorded (limits : Limits) (σ : Traced) : Prop extends AppliedOnce limits σ.trace where
  taken : σ.session.closed = false → ∀ p ∈ laneBodies σ.trace, ∀ l,
    σ.session.carrierLanes.get p.laneID = some l → σ.session.Took limits p l

theorem Fosters.still_open {but : Finset ℕ} (h : Fosters but s s') (hopen : s'.closed = false) :
    s.closed = false := by
  by_contra hc
  rw [Bool.not_eq_false] at hc
  rw [h.closed hc] at hopen
  cases hopen

/-- What takes up no body keeps the invariant if it keeps the books. -/
theorem Recorded.quiet {t' : List Event} (h : Recorded limits ⟨s, t⟩) (hq : Quiet t t')
    (hkeep : s'.closed = false → KeepsBooks s s' ∧ Fosters ∅ s s') : Recorded limits ⟨s', t'⟩ where
  serial := by
    have hserial : LaneSerial limits (laneBodies t) (uplinkEvents t) := h.serial
    rwa [hq.laneBodies, hq.1]
  once := by
    rw [hq.laneBodies]
    exact h.once
  taken hopen p hp l' hl' := by
    obtain ⟨hbooks, hf⟩ := hkeep hopen
    rw [hq.laneBodies] at hp
    obtain ⟨l, hl, hkey⟩ := hbooks _ _ hl'
    exact (h.taken (hf.still_open hopen) p hp l hl).keep hf hopen (Prod.mk.inj hkey).2.ge

/-- One more body is taken up. -/
theorem Recorded.grow {t' g : List Event} {p : LaneBody} {done rest : List Frame}
    (h : Recorded limits ⟨s, t⟩) (hnew : p ∉ laneBodies t)
    (hframes : laneFrames limits p.laneID p.body = some (done ++ rest)) (hg : BatchEffect done g)
    (hup : uplinkEvents t' = uplinkEvents t ++ .applying (some p.laneID) p.sequence p.body :: g)
    (htaken : s'.closed = false → ∀ q, q ∈ laneBodies t ∨ q = p → ∀ l,
      s'.carrierLanes.get q.laneID = some l → s'.Took limits q l) :
    Recorded limits ⟨s', t'⟩ := by
  have hbodies : laneBodies t' = laneBodies t ++ [p] := by
    rw [← laneBodies_uplinkEvents, hup, laneBodies_append, laneBodies_uplinkEvents]
    exact congrArg (fun l => _ ++ p :: l) hg.laneBodies
  refine { serial := ?_, once := ?_, taken := fun hopen q hq l hl => ?_ }
  · rw [hbodies, hup]
    exact .snoc h.serial hframes hg
  · rw [hbodies]
    exact List.nodup_append.mpr ⟨h.once, List.nodup_singleton p, fun a ha b hb hab => by
      rw [List.mem_singleton] at hb
      exact hnew (hb ▸ hab ▸ ha)⟩
  · rw [hbodies, List.mem_append, List.mem_singleton] at hq
    exact htaken hopen q hq l hl

/-! ### A body on its lane -/

theorem processOnLane_recorded {lane : CarrierLane} {laneID sequence : ℕ} {body : Bytes}
    {frames : List Frame} (hs : Sound limits .httpsLanes ⟨s, t⟩) (hopen : s.closed = false)
    (hl : s.carrierLanes.get laneID = some lane) (hmax : laneID ≤ maxStreamID)
    (hframes : laneFrames limits laneID body = some frames) (hI : Recorded limits ⟨s, t⟩) :
    wp observer (processOnLane sha256 s lane laneID sequence body frames)
      (fun t' r => Recorded limits ⟨r.1, t'⟩) t := by
  unfold processOnLane
  split_ifs with hsame hdigest hnext hactive
  · exact hI
  · exact hI
  · exact hI
  · exact hI
  have hsequence : sequence = lane.lastUpSequence + 1 := (not_not.mp (not_or.mp hnext).1)
  have hids := laneFrames_spec hframes
  obtain ⟨lanes, released, he⟩ :=
    s.modifyLane_eq laneID lane.object fun l => { l with upActive := true }
  have hstart : Change .request ⟨s, t⟩ ⟨s.modifyLane laneID lane.object fun l =>
      { l with upActive := true }, t⟩ :=
    .laneUplink rfl laneID lane.object _ (fun _ => rfl) (fun _ => rfl) fun _ => rfl
  have hlane : (s.modifyLane laneID lane.object fun l => { l with upActive := true }).HasLane
      laneID := by
    intro _
    rw [Session.modifyLane_lanes, hl]
    simp
  refine wp_seq (wp_and (commitBatch_obs laneID (some laneID) (hstart.sound hs)
    (by rw [he]; exact hopen) hlane (fun _ f hf => (hids f hf).2.2)
    (fun f hf => (hids f hf).2.2 ▸ hmax) (fun f hf => (hids f hf).1) sequence body)
    (wp_and (commitBatch_effects _ (some laneID) sequence body frames)
      (wp_and (commitBatch_fosters _ (some laneID) sequence body frames)
        (commitBatch_valid _ (some laneID) sequence body frames)))) ?_
  rintro t₁ ⟨s₁, outcome⟩ ⟨hc, heffect, ⟨hf₁, -⟩, hvalid, hcut⟩
  have hbooks : KeepsBooks s (s₁.modifyLane laneID lane.object fun l =>
      { l with upActive := false }) := by
    have hcommit : KeepsBooks (s.modifyLane laneID lane.object fun l =>
        { l with upActive := true }) s₁ := by
      cases hc with
      | unchanged => exact .refl _
      | changed _ hc => exact hc.keepsBooks rfl rfl
    have hbegin : KeepsBooks s (s.modifyLane laneID lane.object fun l =>
        { l with upActive := true }) := .modifyLane s laneID lane.object fun _ => rfl
    exact (hbegin.trans hcommit).trans (.modifyLane s₁ laneID lane.object fun _ => rfl)
  have hend : Fosters ∅ s₁ (s₁.modifyLane laneID lane.object fun l =>
      { l with upActive := false }) := .modifyLane ..
  have hf : Fosters ∅ s _ := ((Fosters.modifyLane ..).trans hf₁).trans hend
  -- a valid body was not taken up before
  have hnew : outcome = .applied ∨ outcome = .aborted →
      ⟨laneID, sequence, body⟩ ∉ laneBodies t := by
    intro hout hm
    have hv := hvalid hout
    rcases hI.taken hopen _ hm lane hl with hle | ⟨h0, hno, frames', hframes', hopens⟩
    · dsimp only at hle
      omega
    · rw [hframes] at hframes'
      cases hframes'
      rw [he] at hv
      obtain ⟨hlive, hclosed⟩ := validateBatchLocked_open hv h0
        (fun f hf => (hids f hf).2.2) hopens
      exact hno ⟨h0, by rw [hl]; simp, hlive, hclosed⟩
  cases outcome with
  | invalid =>
      cases heffect
      exact hI.quiet ⟨rfl, rfl⟩ fun _ => ⟨hbooks, hf⟩
  | backpressure =>
      cases heffect
      exact hI.quiet ⟨rfl, rfl⟩ fun _ => ⟨hbooks, hf⟩
  | aborted =>
      obtain ⟨⟨done, rest, g, rfl, hg, hup⟩, -⟩ := heffect
      refine hI.grow (p := ⟨laneID, sequence, body⟩) (hnew (.inr rfl)) hframes hg hup ?_
      rintro hopen' q hq l' hl'
      obtain ⟨l, hl₀, hkey⟩ := hbooks _ _ hl'
      rcases hq with hq | rfl
      · exact (hI.taken hopen q hq l hl₀).keep hf hopen' (Prod.mk.inj hkey).2.ge
      · obtain ⟨f, hfm, hty, h0, hno⟩ := hcut rfl
        rw [(hids f hfm).2.2] at h0 hno
        exact .inr ⟨h0, fun ho => hno (hend.still_open hopen')
          (hend.orphans hopen' _ (Finset.notMem_empty _) ho), _, hframes, f, hfm, hty⟩
  | applied =>
      obtain ⟨⟨g, hg, hup⟩, -⟩ := heffect
      have hf' := hf.trans (Fosters.modifyLane _ laneID lane.object fun l =>
        { l with lastUpSequence := sequence, lastUpDigest := sha256 body })
      have hall : laneFrames limits laneID body = some (frames ++ []) := by
        rw [List.append_nil]
        exact hframes
      refine hI.grow (p := ⟨laneID, sequence, body⟩) (hnew (.inl rfl)) hall hg hup ?_
      rintro hopen' q hq l' hl'
      rw [Session.modifyLane_lanes] at hl'
      obtain ⟨l₂, hl₂, rfl⟩ := Option.map_eq_some_iff.mp hl'
      obtain ⟨l, hl₀, hkey⟩ := hbooks _ _ hl₂
      obtain ⟨hobject, hseq⟩ := Prod.mk.inj hkey
      rcases hq with hq | rfl
      · refine (hI.taken hopen q hq l hl₀).keep hf' hopen' ?_
        split_ifs with hmine
        · rw [hmine.1, hl] at hl₀
          cases hl₀
          show lane.lastUpSequence ≤ sequence
          omega
        · exact hseq.ge
      · rw [hl] at hl₀
        cases hl₀
        rw [if_pos ⟨rfl, hobject⟩]
        exact .inl (Nat.le_refl sequence)

/-! ### Sections -/

/-- A body that creates its lane is the first of that lane. -/
def Section.FirstOfLane (σ : Traced) : Section → Prop
  | .processUpLane laneID _ body => ∀ frames, σ.session.Creates laneID body frames →
      ∀ p ∈ laneBodies σ.trace, p.laneID ≠ laneID
  | _ => True

theorem Recorded.createLane {laneID : ℕ} (h : Recorded limits ⟨s, t⟩)
    (hfirst : ∀ p ∈ laneBodies t, p.laneID ≠ laneID) :
    Recorded limits ⟨(s.createLane laneID).1, t⟩ where
  serial := h.serial
  once := h.once
  taken hopen p hp l hl := by
    have hne := hfirst p hp
    have hl₀ : s.carrierLanes.get p.laneID = some l := by
      rwa [← Table.get_put_ne s.carrierLanes { object := s.nextObject } hne]
    rcases h.taken hopen p hp l hl₀ with hle | ⟨h0, hno, hframes⟩
    · exact .inl hle
    · exact .inr ⟨h0, fun ho => hno ⟨h0, by simp [hl₀], ho.2.2⟩, hframes⟩

theorem processUpLane_recorded {laneID sequence : ℕ} {body : Bytes}
    (hs : Sound limits .httpsLanes ⟨s, t⟩) (hI : Recorded limits ⟨s, t⟩)
    (hfirst : (Section.processUpLane laneID sequence body).FirstOfLane ⟨s, t⟩) :
    wp observer (processUpLane sha256 s laneID sequence body)
      (fun t' r => Recorded limits ⟨r.1, t'⟩) t := by
  unfold processUpLane
  by_cases hcall : s.usesCarrierLanes = false ∨ maxStreamID < laneID
  · rw [if_pos hcall]
    exact hI
  rw [if_neg hcall]
  have hmax : laneID ≤ maxStreamID := not_lt.mp fun h => hcall (.inr h)
  have hlimits : s.limits = limits := hs.limits_eq
  cases hframes : laneFrames s.limits laneID body with
  | none => exact hI
  | some frames =>
      dsimp only
      by_cases hclosed : s.closed = true
      · rw [if_pos hclosed]
        exact hI
      rw [if_neg hclosed]
      have hopen : s.closed = false := by simpa using hclosed
      cases hl : s.carrierLanes.get laneID with
      | some lane =>
          exact processOnLane_recorded hs hopen hl hmax (hlimits ▸ hframes) hI
      | none =>
          dsimp only
          split_ifs with hlate hbad
          · exact hI
          · exact hI
          simp only [not_or, not_not] at hbad
          have hcreate : Change .request ⟨s, t⟩ ⟨(s.createLane laneID).1, t⟩ :=
            .createLane hopen hl hmax rfl
          have hput : (s.createLane laneID).1.carrierLanes.get laneID =
              some (s.createLane laneID).2 := Table.get_put_self s.carrierLanes laneID _
          refine processOnLane_recorded (hcreate.sound hs) hopen hput hmax (hlimits ▸ hframes)
            (hI.createLane (hfirst frames ⟨?_, hbad.1, hmax, hframes, hopen, hl, hbad.2.2⟩))
          simpa using (not_or.mp hcall).1

/-- A section other than `ProcessUpLane` leaves the books of the lanes. -/
theorem Section.keepsBooks (c : Section) (hs : Sound limits .httpsLanes ⟨s, t⟩)
    (hc : c.Callable s) (hother : ∀ id n body, c ≠ .processUpLane id n body) :
    wp observer (c.exec sha256 s) (fun t' r =>
      Quiet t t' ∧ (r.1.closed = false → KeepsBooks s r.1)) t := by
  have hcarrier : s.carrier = .httpsLanes := hs.carrier_eq
  have hlanes : s.usesCarrierLanes = true := by
    rw [hs.usesCarrierLanes]
    rfl
  have hchanges := Section.changes sha256 hs c hc
  have hquiet : ∀ {σ' : Traced}, c.scope.frames = false → c.scope.uplink = false →
      Changes c.scope ⟨s, t⟩ σ' → Quiet t σ'.trace := by
    intro σ' hframes huplink h
    refine h.invariant (I := fun τ => Quiet t τ.trace) (fun hchange hq => ?_) ⟨rfl, rfl⟩
    have hq' := hchange.quiet hframes huplink
    exact ⟨hq'.1.trans hq.1, hq'.2.trans hq.2⟩
  have hsame : (∀ {t₁ : List Event}, wp observer (c.exec sha256 s)
        (fun _ r => r.1.closed = false → KeepsBooks s r.1) t₁) → c.scope.frames = false →
      c.scope.uplink = false → wp observer (c.exec sha256 s) (fun t' r =>
        Quiet t t' ∧ (r.1.closed = false → KeepsBooks s r.1)) t := fun h hframes huplink =>
    wp_mono (wp_and hchanges h) fun _ _ h => ⟨hquiet hframes huplink h.1, h.2⟩
  cases c with
  | acquireWebSocketLane laneID =>
      show _ ∧ (_ → KeepsBooks s (TproxyServer.acquireWebSocketLane s laneID).1)
      unfold TproxyServer.acquireWebSocketLane
      rw [if_pos (by simp [hcarrier])]
      exact ⟨⟨rfl, rfl⟩, fun _ => .refl s⟩
  | releaseWebSocketLane laneID =>
      refine hsame (fun {t₁} => ?_) rfl rfl
      have hkeep : wp observer (TproxyServer.releaseWebSocketLane s laneID)
          (fun _ s' => KeepsBooks s s') t₁ := by
        unfold TproxyServer.releaseWebSocketLane
        rw [if_pos (by simp [hcarrier])]
        exact .refl s
      exact wp_seq hkeep fun _ _ h _ => h
  | laneProtocolFailure laneID =>
      refine hsame (fun {t₁} => ?_) rfl rfl
      have hclosed : wp observer (TproxyServer.laneProtocolFailure s laneID)
          (fun _ s' => s'.closed = true) t₁ := by
        unfold TproxyServer.laneProtocolFailure
        rw [if_neg (by simp [hcarrier])]
        exact closeLocked_closed s
      refine wp_seq hclosed fun _ s' h hopen => ?_
      dsimp only at hopen
      rw [h] at hopen
      cases hopen
  | acquireWebSocket =>
      show _ ∧ (_ → KeepsBooks s (TproxyServer.acquireWebSocket s).1)
      unfold TproxyServer.acquireWebSocket
      rw [if_pos (by simp [hcarrier])]
      exact ⟨⟨rfl, rfl⟩, fun _ => .refl s⟩
  | processUpBegin sequence body =>
      show _ ∧ (_ → KeepsBooks s (TproxyServer.processUpBegin sha256 s sequence body).1)
      unfold TproxyServer.processUpBegin
      rw [if_pos hlanes]
      exact ⟨⟨rfl, rfl⟩, fun _ => .refl s⟩
  | processUpCommit sequence body =>
      have hno : s.usesCarrierLanes = false := hc
      rw [hlanes] at hno
      cases hno
  | processUpLane laneID sequence body => exact absurd rfl (hother laneID sequence body)
  | _ =>
      exact wp_mono hchanges fun _ _ h =>
        ⟨hquiet rfl rfl h, fun _ => Changes.keepsBooks h rfl rfl⟩

theorem Recorded.step {σ σ' : Traced} {c : Section} {r : Reply}
    (hs : Sound limits .httpsLanes σ) (hI : Recorded limits σ) (h : Step sha256 σ c r σ')
    (hfirst : c.FirstOfLane σ) : Recorded limits σ' := by
  by_cases hc : ∃ id n body, c = .processUpLane id n body
  · obtain ⟨id, n, body, rfl⟩ := hc
    have hw : wp observer ((Section.processUpLane id n body).exec sha256 σ.session)
        (fun t' r => Recorded limits ⟨r.1, t'⟩) σ.trace :=
      wp_seq (processUpLane_recorded hs hI hfirst) fun _ _ h => h
    exact h.of_wp fun _ => hw
  · have hother : ∀ id n body, c ≠ .processUpLane id n body :=
      fun id n body he => hc ⟨id, n, body, he⟩
    obtain ⟨hq, hbooks⟩ := h.of_wp fun hcall => Section.keepsBooks c hs hcall hother
    refine hI.quiet hq fun hopen => ⟨hbooks hopen, ?_⟩
    refine h.of_wp (fun hcall => Section.fosters c hs.carrier_eq hcall) ?_
    exact fun id n body he => absurd he (hother id n body)

/-- Runs of an `https-lanes` session in which no lane is created after a body of it was
applied. -/
inductive RetryRun (sha256 : Bytes → Bytes) (limits : Limits) : Traced → Prop
  | start : RetryRun sha256 limits ⟨newSession limits .httpsLanes, []⟩
  | step {σ σ' : Traced} {c : Section} {r : Reply} :
      RetryRun sha256 limits σ → Step sha256 σ c r σ' → c.FirstOfLane σ →
      RetryRun sha256 limits σ'

theorem RetryRun.reachable {σ : Traced} (h : RetryRun sha256 limits σ) :
    Reachable sha256 limits .httpsLanes σ := by
  induction h with
  | start => exact .start
  | step _ hstep _ ih => exact ih.step hstep

theorem RetryRun.recorded {σ : Traced} (h : RetryRun sha256 limits σ) : Recorded limits σ := by
  induction h with
  | start =>
      exact { serial := .nil, once := List.nodup_nil, taken := fun _ p hp => by cases hp }
  | step hrun hstep hfirst ih => exact ih.step hrun.reachable.sound hstep hfirst

/-- **No body of a lane is applied twice**, however often it is retried, in every state of every
run in which no lane is created after a body of it was applied. -/
theorem lane_applied_once {σ : Traced} (h : RetryRun sha256 limits σ) :
    AppliedOnce limits σ.trace :=
  h.recorded.toAppliedOnce

/-- The first body of a lane is retried after its backend has ended: it is acknowledged by the
lane that its tombstone keeps. -/
theorem lane_applied_once_retried :
    let body := encode .open 1 [] ++ encode .data 1 [7]
    ∃ σ σ', RetryRun id defaultLimits σ' ∧
      Step id σ (.processUpLane 1 1 body) (.up (.acked 1)) σ' ∧
      laneBodies σ'.trace = [⟨1, 1, body⟩] ∧ AppliedOnce defaultLimits σ'.trace := by
  intro body
  have hplay : ((attempt id ⟨newSession defaultLimits .httpsLanes, []⟩
        (.processUpLane 1 1 body) []).bind fun p₁ =>
      (attempt id p₁.2 (.backendClosed 1 2) []).bind fun p₂ =>
      (attempt id p₂.2 (.processUpLane 1 1 body) []).map fun p₃ =>
        ((p₂.2.session.carrierLanes.get 1).isSome, p₃.1, laneBodies p₃.2.trace)) =
      some (true, .up (.acked 1), [⟨1, 1, body⟩]) := by
    decide +kernel
  obtain ⟨⟨r₁, σ₁⟩, h₁, hplay⟩ := Option.bind_eq_some_iff.mp hplay
  obtain ⟨⟨r₂, σ₂⟩, h₂, hplay⟩ := Option.bind_eq_some_iff.mp hplay
  obtain ⟨⟨r₃, σ₃⟩, h₃, he⟩ := Option.map_eq_some_iff.mp hplay
  simp only [Prod.mk.injEq] at he
  obtain ⟨hlane, rfl, hbodies⟩ := he
  have hrun₁ : RetryRun id defaultLimits σ₁ :=
    RetryRun.start.step (.attempt h₁) fun _ _ p hp => by cases hp
  have hrun₂ : RetryRun id defaultLimits σ₂ := hrun₁.step (.attempt h₂) trivial
  have hrun₃ : RetryRun id defaultLimits σ₃ := by
    refine hrun₂.step (.attempt h₃) fun frames hcreates => ?_
    rw [hcreates.missing] at hlane
    cases hlane
  exact ⟨σ₂, σ₃, hrun₃, .attempt h₃, hbodies, lane_applied_once hrun₃⟩

/-- With one tombstone, the end of stream 2 evicts lane 1.  The retry of its only body then opens
stream 1 a second time. -/
theorem lane_applied_twice : ∃ σ, Reachable id oneTombstone .httpsLanes σ ∧
    σ.session.closed = false ∧ ¬ AppliedOnce oneTombstone σ.trace := by
  let body := fun i => encode .open i []
  have hplay : (play id ⟨newSession oneTombstone .httpsLanes, []⟩
      [(.processUpLane 1 1 (body 1), []), (.backendClosed 1 2, []),
        (.processUpLane 2 1 (body 2), []), (.backendClosed 2 4, []),
        (.processUpLane 1 1 (body 1), [])]).map (fun σ =>
          (σ.session.closed, laneBodies σ.trace)) =
      some (false, [⟨1, 1, body 1⟩, ⟨2, 1, body 2⟩, ⟨1, 1, body 1⟩]) := by
    decide +kernel
  obtain ⟨σ, hσ, he⟩ := Option.map_eq_some_iff.mp hplay
  obtain ⟨hopen, hbodies⟩ := Prod.mk.inj he
  refine ⟨σ, Reachable.start.play hσ, hopen, fun honce => ?_⟩
  have hnodup := honce.once
  rw [hbodies] at hnodup
  simp at hnodup

end TproxyServer
