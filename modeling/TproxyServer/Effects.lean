import TproxyServer.SectionChanges

/-! # What the application of a body announces

One frame is opened, refused, written, granted or ignored; a whole body is the effects of its
frames one after the other.  Nothing else under the mutex announces such an event. -/

namespace TproxyServer

open Interaction Prog

variable {limits : Limits} {carrier : CarrierMode} {s s' : Session} {t : List Event}

/-- The effect of one frame.  Frames of stream zero, CLOSE frames and frames of a tombstone
have none. -/
inductive FrameEffect (f : Frame) : List Event → Prop
  | opened (backend : ℕ) (h : f.type = .open) : FrameEffect f [.opened f.streamID backend]
  | rejected (h : f.type = .open) : FrameEffect f [.rejected f.streamID]
  | data (h : f.type = .data) : FrameEffect f [.dataApplied f.streamID f.payload]
  | window (h : f.type = .window) :
      FrameEffect f [.windowApplied f.streamID (windowAmount f.payload).1]
  | ignored (h : f.streamID = 0 ∨ f.type ≠ .open) : FrameEffect f []

/-- The effects of a list of frames. -/
inductive BatchEffect : List Frame → List Event → Prop
  | nil : BatchEffect [] []
  | cons {f : Frame} {rest : List Frame} {es es' : List Event} :
      FrameEffect f es → BatchEffect rest es' → BatchEffect (f :: rest) (es ++ es')

/-- The trace has grown by events that are not of the uplink. -/
def Quiet (t t' : List Event) : Prop :=
  uplinkEvents t' = uplinkEvents t ∧ abandonments t' = abandonments t

theorem Quiet.append {t t' es : List Event} (h : Quiet t t') (hes : Mute es) :
    Quiet t (t' ++ es) := by
  refine ⟨?_, ?_⟩
  · rw [uplinkEvents_append, hes.1, List.append_nil, h.1]
  · rw [abandonments_append, hes.2, List.append_nil, h.2]

theorem Quiet.mute {es : List Event} (hes : Mute es) : Quiet t (t ++ es) :=
  Quiet.append ⟨rfl, rfl⟩ hes

theorem QueueResult.mute {ty : FrameType} {id : ℕ} {payload : Bytes} {es : List Event}
    {ok : Bool} (h : QueueResult s ty id payload es s' ok) : Mute es := by
  cases h <;> exact ⟨rfl, rfl⟩

theorem evictOldest_quiet (s : Session) (id : ℕ) :
    wp observer (evictOldest s id) (fun t' _ => Quiet t t') t := by
  unfold evictOldest
  simp only [announce_bind, wp_note]
  cases hl : s.carrierLanes.get (s.closedOrder.getD s.closedStart 0) with
  | none => exact Quiet.mute ⟨rfl, rfl⟩
  | some lane =>
      refine wp_seq (releaseLaneLocked_obs _ lane) ?_
      rintro t' r ⟨rfl, -, -⟩
      exact Quiet.mute ⟨rfl, rfl⟩

theorem rememberClosedLocked_quiet (s : Session) (id : ℕ) :
    wp observer (rememberClosedLocked s id) (fun t' _ => Quiet t t') t := by
  unfold rememberClosedLocked
  split_ifs
  · exact ⟨rfl, rfl⟩
  · dsimp only
    simp only [announce_bind, wp_note]
    split_ifs
    · exact Quiet.mute ⟨rfl, rfl⟩
    · refine wp_seq (evictOldest_quiet _ id) ?_
      intro t' s' h
      exact ⟨h.1.trans (Quiet.mute ⟨rfl, rfl⟩).1, h.2.trans (Quiet.mute ⟨rfl, rfl⟩).2⟩

/-! ### One frame -/

variable {r : Applying}

/-- What the application of `f` announces, and that it was cut short if the CLOSE for a
refused OPEN did not fit. -/
structure Effect (f : Frame) (t t' : List Event) (applied : Bool) : Prop where
  effect : ∃ g, uplinkEvents t' = uplinkEvents t ++ g ∧ FrameEffect f g
  abandoned : abandonments t' = abandonments t ++ if applied then [] else [f.streamID]

theorem Effect.ignored {f : Frame} {t' : List Event} (ht : Quiet t t')
    (h : f.streamID = 0 ∨ f.type ≠ .open) : Effect f t t' true :=
  ⟨⟨[], by rw [ht.1, List.append_nil], .ignored h⟩, by rw [ht.2]; simp⟩

theorem refuseOpen_effect {f : Frame} (hgo : r.applied = true) (hty : f.type = .open) :
    wp observer (refuseOpen r f.streamID) (fun t' r' => Effect f t t' r'.applied) t := by
  unfold refuseOpen
  refine wp_seq (rememberClosedLocked_quiet r.session f.streamID) ?_
  intro t₁ s₁ h₁
  simp only [announce_bind, wp_note]
  refine wp_seq (queueFrameLocked_obs s₁ .close f.streamID []) ?_
  rintro t₂ ⟨s₂, ok⟩ ⟨es, rfl, hq⟩
  have hup : uplinkEvents (t₁ ++ [.rejected f.streamID] ++ es) =
      uplinkEvents t ++ [.rejected f.streamID] := by
    rw [uplinkEvents_append, uplinkEvents_append, hq.mute.1, List.append_nil, h₁.1]
    rfl
  have hab : abandonments (t₁ ++ [.rejected f.streamID] ++ es) = abandonments t := by
    rw [abandonments_append, abandonments_append, hq.mute.2, List.append_nil, h₁.2]
    exact List.append_nil _
  cases ok with
  | true => exact ⟨⟨_, hup, .rejected hty⟩, by rw [hgo]; exact hab.trans (List.append_nil _).symm⟩
  | false =>
      refine ⟨⟨_, ?_, .rejected hty⟩, ?_⟩
      · exact (uplinkEvents_append _ _).trans ((List.append_nil _).trans hup)
      · exact (abandonments_append _ _).trans (congrArg (· ++ [f.streamID]) hab)

theorem applyOpen_effect {f : Frame} (hgo : r.applied = true) (hty : f.type = .open) :
    wp observer (applyOpen r f.streamID) (fun t' r' => Effect f t t' r'.applied) t := by
  unfold applyOpen
  dsimp only
  split_ifs
  · exact refuseOpen_effect hgo hty
  · refine ⟨trivial, ?_⟩
    rintro b t' rfl
    cases b with
    | false => exact refuseOpen_effect hgo hty
    | true =>
        refine ⟨⟨_, uplinkEvents_append _ _, .opened _ hty⟩, ?_⟩
        rw [hgo]
        exact abandonments_append _ _

theorem applyFrame_effect {f : Frame} (hgo : r.applied = true) :
    wp observer (applyFrame r f) (fun t' r' => Effect f t t' r'.applied) t := by
  have hskip : (f.streamID = 0 ∨ f.type ≠ .open) → Effect f t t r.applied := by
    rw [hgo]
    exact .ignored ⟨rfl, rfl⟩
  unfold applyFrame
  by_cases h0 : f.streamID = 0
  · rw [if_pos h0]
    exact hskip (.inl h0)
  rw [if_neg h0]
  cases hty : f.type with
  | «open» => exact applyOpen_effect hgo hty
  | data =>
      dsimp only
      split_ifs
      · exact hskip (.inr (by simp [hty]))
      · unfold applyData
        cases hst : r.session.streams.get f.streamID with
        | none => trivial
        | some st =>
            refine ⟨⟨_, uplinkEvents_append _ _, .data hty⟩, ?_⟩
            rw [hgo]
            exact abandonments_append _ _
  | window =>
      dsimp only
      split_ifs
      · exact hskip (.inr (by simp [hty]))
      · unfold applyWindow
        cases hst : r.session.streams.get f.streamID with
        | none => trivial
        | some st =>
            refine ⟨⟨_, uplinkEvents_append _ _, .window hty⟩, ?_⟩
            rw [hgo]
            exact abandonments_append _ _
  | close =>
      dsimp only
      split_ifs
      · exact hskip (.inr (by simp [hty]))
      · unfold applyClose
        cases hst : r.session.streams.get f.streamID with
        | none => trivial
        | some st =>
            refine wp_seq (releaseStreamWritesLocked_obs r.session st) ?_
            rintro t₁ s₁ ⟨rfl, -⟩
            refine wp_seq (rememberClosedLocked_quiet _ f.streamID) ?_
            intro t₂ s₂ h₂
            show Effect f t₁ t₂ r.applied
            rw [hgo]
            exact .ignored h₂ (.inr (by simp [hty]))
  | _ => exact hskip (.inr (by simp [hty]))

/-! ### A whole body -/

/-- What the application of `frames` announces: the effects of all of them, or of those before
the one at which it was cut short. -/
structure Effects (frames : List Frame) (t t' : List Event) (applied : Bool) : Prop where
  effects : ∃ done rest g, frames = done ++ rest ∧ uplinkEvents t' = uplinkEvents t ++ g ∧
    BatchEffect done g ∧ (applied = true → rest = [])
  abandoned : (abandonments t').length = (abandonments t).length + if applied then 0 else 1

theorem applyLoop_effects {frames : List Frame} (hgo : r.applied = true) :
    wp observer (applyLoop r frames) (fun t' r' => Effects frames t t' r'.applied) t := by
  induction frames generalizing r t with
  | nil =>
      refine ⟨⟨[], [], [], rfl, (List.append_nil _).symm, .nil, fun _ => rfl⟩, ?_⟩
      rw [hgo]
      rfl
  | cons f frames ih =>
      refine wp_seq (applyFrame_effect hgo) ?_
      rintro t₁ r₁ ⟨⟨g₁, hg₁, hf₁⟩, hab₁⟩
      by_cases hgo₁ : r₁.applied = true
      · rw [if_pos hgo₁]
        rw [hgo₁] at hab₁
        refine wp_mono (ih hgo₁) ?_
        rintro t₂ r₂ ⟨⟨done, rest, g₂, rfl, hg₂, hb₂, hrest⟩, hab₂⟩
        refine ⟨⟨f :: done, rest, g₁ ++ g₂, rfl, ?_, .cons hf₁ hb₂, hrest⟩, ?_⟩
        · rw [hg₂, hg₁, List.append_assoc]
        · rw [hab₂, hab₁]
          simp
      · rw [if_neg hgo₁]
        rw [Bool.not_eq_true] at hgo₁
        have hone : BatchEffect [f] (g₁ ++ []) := .cons hf₁ .nil
        rw [List.append_nil] at hone
        refine ⟨⟨[f], frames, g₁, rfl, hg₁, hone, fun h => ?_⟩, ?_⟩
        · rw [hgo₁] at h
          cases h
        · rw [hgo₁] at hab₁ ⊢
          rw [hab₁]
          simp

/-! ### The effects of a commit -/

/-- What a commit announces. -/
def BatchOutcome.Announces (label : Option ℕ) (sequence : ℕ) (body : Bytes)
    (frames : List Frame) (t t' : List Event) : BatchOutcome → Prop
  | .invalid | .backpressure => t' = t
  | .applied => (∃ g, BatchEffect frames g ∧
      uplinkEvents t' = uplinkEvents t ++ .applying label sequence body :: g) ∧
      (abandonments t').length = (abandonments t).length
  | .aborted => (∃ done rest g, frames = done ++ rest ∧ BatchEffect done g ∧
      uplinkEvents t' = uplinkEvents t ++ .applying label sequence body :: g) ∧
      (abandonments t').length = (abandonments t).length + 1

theorem commitBatch_effects (s : Session) (label : Option ℕ) (sequence : ℕ) (body : Bytes)
    (frames : List Frame) :
    wp observer (commitBatch s label sequence body frames)
      (fun t' r => r.2.Announces label sequence body frames t t') t := by
  refine commitBatch_observed (fun t₁ r =>
    Effects frames (t ++ [.applying label sequence body]) t₁ r.applied) rfl rfl ?_ ?_
  · intro _ s' _
    exact applyLoop_effects rfl
  · rintro t₁ r s₂ ⟨⟨done, rest, g, hframes, hg, hb, hall⟩, hab⟩ -
    have hup : uplinkEvents (t₁ ++ [.cancelled r.closed]) =
        uplinkEvents t ++ .applying label sequence body :: g := by
      rw [uplinkEvents_append, hg, uplinkEvents_append]
      show uplinkEvents t ++ [.applying label sequence body] ++ g ++ [] = _
      rw [List.append_nil, List.append_assoc]
      rfl
    have hab' : (abandonments (t₁ ++ [.cancelled r.closed])).length =
        (abandonments t).length + if r.applied then 0 else 1 := by
      rw [abandonments_append, List.length_append, hab, abandonments_append, List.length_append]
      rfl
    cases hgo : r.applied with
    | true =>
        rw [hgo] at hab' hall
        cases hall rfl
        rw [List.append_nil] at hframes
        exact ⟨⟨g, hframes ▸ hb, hup⟩, hab'⟩
    | false =>
        rw [hgo] at hab'
        exact ⟨⟨done, rest, g, hframes, hb, hup⟩, hab'⟩

/-! ### What lasts through a body -/

/-- Events that come with the refusal of an OPEN. -/
def Event.refusing : Event → Bool
  | .rejected _ | .queued _ _ _ _ | .refused _ _ _ | .abandoned _ => true
  | _ => false

/-- What follows the refusal of an OPEN: its CLOSE, or the end of the application. -/
inductive Refusal (id : ℕ) : List Event → Prop
  | queued (q : QueueRef) : Refusal id [.queued q .close id []]
  | abandoned : Refusal id [.refused .close id [], .abandoned id]

/-- A property of the history that every frame of a body keeps. -/
structure Lasting (P : List Event → Prop) : Prop where
  other : ∀ t e, e.refusing = false → P t → P (t ++ [e])
  refusal : ∀ t id es, Refusal id es → P t → P (t ++ [.rejected id] ++ es)

section

variable {P : List Event → Prop} {sha256 : Bytes → Bytes}

theorem evictOldest_lasting (hP : ∀ t e, e.refusing = false → P t → P (t ++ [e])) (ht : P t)
    (s : Session) (id : ℕ) : wp observer (evictOldest s id) (fun t' _ => P t') t := by
  unfold evictOldest
  simp only [announce_bind, wp_note]
  cases s.carrierLanes.get (s.closedOrder.getD s.closedStart 0) with
  | none => exact hP t _ rfl ht
  | some lane =>
      refine wp_seq (releaseLaneLocked_obs _ lane) ?_
      rintro t' r ⟨rfl, -, -⟩
      exact hP t _ rfl ht

theorem rememberClosedLocked_lasting (hP : ∀ t e, e.refusing = false → P t → P (t ++ [e]))
    (ht : P t) (s : Session) (id : ℕ) :
    wp observer (rememberClosedLocked s id) (fun t' _ => P t') t := by
  unfold rememberClosedLocked
  split_ifs
  · exact ht
  · have hremembered := hP t (.remembered id) rfl ht
    dsimp only
    simp only [announce_bind, wp_note]
    split_ifs
    · exact hremembered
    · exact wp_seq (evictOldest_lasting hP hremembered _ id) fun _ _ h => h

theorem closeLocked_lasting (hP : ∀ t e, e.refusing = false → P t → P (t ++ [e])) (ht : P t)
    (s : Session) : wp observer (closeLocked s) (fun t' _ => P t') t := by
  unfold closeLocked
  split_ifs
  · exact ht
  · have hcancelled := hP t (.cancelled s.backends) rfl ht
    have hfinished := hP _ .finished rfl hcancelled
    simp only [announce_bind, wp_note]
    split_ifs
    · refine ⟨trivial, ?_⟩
      rintro a t' rfl
      exact hfinished
    · exact hfinished

theorem refuseOpen_lasting (hP : Lasting P) (ht : P t) (id : ℕ) :
    wp observer (refuseOpen r id) (fun t' _ => P t') t := by
  unfold refuseOpen
  refine wp_seq (rememberClosedLocked_lasting hP.other ht r.session id) ?_
  intro t₁ s₁ h₁
  simp only [announce_bind, wp_note]
  refine wp_seq (queueFrameLocked_obs s₁ .close id []) ?_
  rintro t₂ ⟨s₂, ok⟩ ⟨es, rfl, hq⟩
  cases hq with
  | refused =>
      have h := hP.refusal t₁ id _ .abandoned h₁
      rw [List.append_cons (t₁ ++ [Event.rejected id])] at h
      exact h
  | accepted => exact hP.refusal t₁ id _ (.queued _) h₁

theorem applyFrame_lasting (hP : Lasting P) (ht : P t) (f : Frame) :
    wp observer (applyFrame r f) (fun t' _ => P t') t := by
  unfold applyFrame
  by_cases h0 : f.streamID = 0
  · rw [if_pos h0]
    exact ht
  rw [if_neg h0]
  cases f.type with
  | «open» =>
      show wp observer (applyOpen r f.streamID) _ t
      unfold applyOpen
      dsimp only
      split_ifs
      · exact refuseOpen_lasting hP ht f.streamID
      · refine ⟨trivial, ?_⟩
        rintro b t' rfl
        cases b with
        | false => exact refuseOpen_lasting hP ht f.streamID
        | true => exact hP.other _ _ rfl ht
  | data =>
      dsimp only
      split_ifs
      · exact ht
      · unfold applyData
        cases r.session.streams.get f.streamID with
        | none => trivial
        | some st => exact hP.other t _ rfl ht
  | window =>
      dsimp only
      split_ifs
      · exact ht
      · unfold applyWindow
        cases r.session.streams.get f.streamID with
        | none => trivial
        | some st => exact hP.other t _ rfl ht
  | close =>
      dsimp only
      split_ifs
      · exact ht
      · unfold applyClose
        cases r.session.streams.get f.streamID with
        | none => trivial
        | some st =>
            refine wp_seq (releaseStreamWritesLocked_obs r.session st) ?_
            rintro t₁ s₁ ⟨rfl, -⟩
            exact wp_seq (rememberClosedLocked_lasting hP.other ht _ f.streamID) fun _ _ h => h
  | _ => exact ht

theorem applyLoop_lasting (hP : Lasting P) (ht : P t) (frames : List Frame) :
    wp observer (applyLoop r frames) (fun t' _ => P t') t := by
  induction frames generalizing r t with
  | nil => exact ht
  | cons f frames ih =>
      refine wp_seq (applyFrame_lasting hP ht f) ?_
      intro t₁ r₁ h₁
      split_ifs
      · exact ih h₁
      · exact h₁

theorem commitBatch_lasting (hP : Lasting P) (ht : P t) (s : Session) (label : Option ℕ)
    (sequence : ℕ) (body : Bytes) (frames : List Frame) :
    wp observer (commitBatch s label sequence body frames) (fun t' _ => P t') t := by
  refine commitBatch_observed (fun t' _ => P t') ht ht ?_ ?_
  · intro _ s' _
    exact applyLoop_lasting hP (hP.other t _ rfl ht) frames
  · intro t₁ r s₂ h₁ _
    exact hP.other t₁ _ rfl h₁

theorem processUpCommit_lasting (hP : Lasting P) (ht : P t) (s : Session) (sequence : ℕ)
    (body : Bytes) :
    wp observer (processUpCommit sha256 s sequence body) (fun t' _ => P t') t := by
  unfold processUpCommit
  dsimp only
  split_ifs
  · exact ht
  · cases clientFrames s.limits body with
    | none => exact ht
    | some frames =>
        refine wp_seq (commitBatch_lasting hP ht _ none sequence body frames) ?_
        rintro t₁ ⟨s₁, outcome⟩ h₁
        cases outcome <;> exact h₁

theorem processOnLane_lasting (hP : Lasting P) (ht : P t) (s : Session) (lane : CarrierLane)
    (laneID sequence : ℕ) (body : Bytes) (frames : List Frame) :
    wp observer (processOnLane sha256 s lane laneID sequence body frames) (fun t' _ => P t') t := by
  unfold processOnLane
  split_ifs
  · exact ht
  · exact ht
  · exact ht
  · exact ht
  · refine wp_seq (commitBatch_lasting hP ht _ (some laneID) sequence body frames) ?_
    rintro t₁ ⟨s₁, outcome⟩ h₁
    cases outcome <;> exact h₁

theorem processUpLane_lasting (hP : Lasting P) (ht : P t) (s : Session) (laneID sequence : ℕ)
    (body : Bytes) :
    wp observer (processUpLane sha256 s laneID sequence body) (fun t' _ => P t') t := by
  unfold processUpLane
  by_cases hcall : s.usesCarrierLanes = false ∨ maxStreamID < laneID
  · rw [if_pos hcall]
    exact ht
  rw [if_neg hcall]
  cases laneFrames s.limits laneID body with
  | none => exact ht
  | some frames =>
      dsimp only
      by_cases hclosed : s.closed = true
      · rw [if_pos hclosed]
        exact ht
      rw [if_neg hclosed]
      cases s.carrierLanes.get laneID with
      | some lane => exact processOnLane_lasting hP ht _ lane laneID sequence body frames
      | none =>
          dsimp only
          split_ifs
          · exact ht
          · exact ht
          · exact processOnLane_lasting hP ht _ _ laneID _ body frames

/-- **What every frame keeps lasts through the sections of an uplink request.** -/
theorem Lasting.step {σ σ' : Traced} {c : Section} {reply : Reply} (hP : Lasting P)
    (hstep : Step sha256 σ c reply σ') (hframes : c.scope.frames = true) (ht : P σ.trace) :
    P σ'.trace := by
  refine @Step.of_wp _ _ _ _ _ hstep (fun t' _ => P t') fun _ => ?_
  cases c with
  | processUpBegin sequence body => exact ht
  | processUpCommit sequence body =>
      exact wp_seq (processUpCommit_lasting hP ht σ.session sequence body) fun _ _ h => h
  | processUpLane laneID sequence body =>
      exact wp_seq (processUpLane_lasting hP ht σ.session laneID sequence body) fun _ _ h => h
  | _ => cases hframes

end

end TproxyServer
