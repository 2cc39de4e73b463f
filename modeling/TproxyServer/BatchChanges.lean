import TproxyServer.Decompose

/-! # Applying a batch that was validated

`validateBatchLocked` runs over a snapshot, `applyBatchLocked` over the session itself.
`Tracks` is the relation between the two that every frame preserves: a stream that is live in
the session is live in the snapshot, with the same windows, and a tombstone of the session is
known to the snapshot.  It is not symmetric: an OPEN that the limits refuse stays live in the
snapshot, and a tombstone evicted within the batch stays closed there. -/

namespace TproxyServer

open Interaction Prog

variable {limits : Limits} {carrier : CarrierMode} {s : Session} {t : List Event}

/-! ### One frame of the validation -/

/-- The live streams and the closed ids after one frame, unless it is refused. -/
def validateFrame (frozen : Finset ℕ) (live : Table ℕ StreamSnapshot) (closed : Finset ℕ)
    (f : Frame) : Option (Table ℕ StreamSnapshot × Finset ℕ) :=
  if f.streamID = 0 then if f.type = .pong then some (live, closed) else none
  else
    let wasClosed := f.streamID ∈ frozen ∨ f.streamID ∈ closed
    match f.type with
    | .open =>
        if live.get f.streamID ≠ none ∨ wasClosed then none
        else some (live.put f.streamID ⟨initialStreamWindow, initialStreamWindow⟩, closed)
    | .data =>
        if wasClosed then some (live, closed)
        else
          match live.get f.streamID with
          | none => none
          | some state =>
              let length := toUint32 f.payload.length
              if state.receiveWindow < length then none
              else some (live.put f.streamID
                { state with receiveWindow := subUint32 state.receiveWindow length }, closed)
    | .window =>
        if wasClosed then some (live, closed)
        else
          match live.get f.streamID with
          | none => none
          | some state => some (live.put f.streamID { state with
              sendCredit := addCredit state.sendCredit (windowAmount f.payload).1 }, closed)
    | .close =>
        if wasClosed then some (live, closed)
        else
          match live.get f.streamID with
          | none => none
          | some _ => some (live.del f.streamID, insert f.streamID closed)
    | _ => none

theorem validateLoop_cons (frozen : Finset ℕ) (live : Table ℕ StreamSnapshot)
    (closed : Finset ℕ) (f : Frame) (rest : List Frame) :
    validateLoop frozen live closed (f :: rest) =
      match validateFrame frozen live closed f with
      | none => false
      | some (live', closed') => validateLoop frozen live' closed' rest := by
  rw [validateLoop, validateFrame]
  by_cases h0 : f.streamID = 0
  · simp only [h0, if_true]
    split_ifs <;> rfl
  · simp only [if_neg h0]
    cases f.type with
    | «open» => dsimp only; split_ifs <;> rfl
    | data =>
        dsimp only
        split_ifs
        · rfl
        · cases live.get f.streamID with
          | none => rfl
          | some state => dsimp only; split_ifs <;> rfl
    | window =>
        dsimp only
        split_ifs
        · rfl
        · cases live.get f.streamID <;> rfl
    | close =>
        dsimp only
        split_ifs
        · rfl
        · cases live.get f.streamID <;> rfl
    | _ => rfl

/-- The first frame of an accepted batch is accepted, and the rest after it. -/
theorem validateLoop_cons_inv {frozen : Finset ℕ} {live : Table ℕ StreamSnapshot}
    {closed : Finset ℕ} {f : Frame} {rest : List Frame}
    (h : validateLoop frozen live closed (f :: rest) = true) :
    ∃ live' closed', validateFrame frozen live closed f = some (live', closed') ∧
      validateLoop frozen live' closed' rest = true := by
  rw [validateLoop_cons] at h
  split at h
  · cases h
  · exact ⟨_, _, by assumption, h⟩

/-! ### The simulation -/

/-- How a session in the middle of a batch stands to the snapshot; `done` are the ids that were
closed so far. -/
structure Tracks (frozen : Finset ℕ) (live : Table ℕ StreamSnapshot) (closed : Finset ℕ)
    (done : List ℕ) (s : Session) : Prop where
  agree : ∀ id st, s.streams.get id = some st →
    live.get id = some ⟨st.receiveWindow, st.sendCredit⟩
  apart : ∀ id, s.streams.get id ≠ none → id ∉ frozen ∧ id ∉ closed
  tombs : ∀ id ∈ s.closedStreams, id ∈ frozen ∨ id ∈ closed ∨ live.get id ≠ none
  full : ∀ id, live.get id ≠ none → s.streams.get id ≠ none ∨ id ∈ done
  past : ∀ id ∈ done, s.streams.get id = none ∧ (id ∈ closed ∨ live.get id ≠ none)
  ended : ∀ id ∈ closed, id ∈ done

/-- The snapshot that `validateBatchLocked` starts from. -/
theorem Tracks.start (hs : Ring limits ⟨s, t⟩) :
    Tracks s.closedStreams s.snapshot ∅ [] s where
  agree id st h := by rw [Session.snapshot, Table.get_mapValues, h]; rfl
  apart id h := ⟨hs.disjoint id h, Finset.notMem_empty id⟩
  tombs id h := .inl h
  full id h := by
    rw [Session.snapshot, Table.get_mapValues] at h
    exact .inl fun hn => h (by rw [hn]; rfl)
  past id h := absurd h List.not_mem_nil
  ended id h := absurd h (Finset.notMem_empty id)

variable {frozen closed closed' : Finset ℕ} {live live' : Table ℕ StreamSnapshot}
  {done : List ℕ}

/-- The relation only looks at the streams and the tombstones. -/
theorem Tracks.congr {s' : Session} (h : Tracks frozen live closed done s)
    (hst : s'.streams = s.streams) (hcl : s'.closedStreams = s.closedStreams) :
    Tracks frozen live closed done s' :=
  ⟨by rw [hst]; exact h.agree, by rw [hst]; exact h.apart, by rw [hcl]; exact h.tombs,
    by rw [hst]; exact h.full, by rw [hst]; exact h.past, h.ended⟩

theorem get_put_ne_none (live : Table ℕ StreamSnapshot) {i : ℕ} (id : ℕ) (v : StreamSnapshot)
    (h : live.get i ≠ none) : (live.put id v).get i ≠ none := by
  rw [Table.get_put]
  split_ifs
  · simp
  · exact h

theorem Tracks.tombs_put (h : Tracks frozen live closed done s) (id : ℕ) (v : StreamSnapshot) :
    ∀ i ∈ s.closedStreams, i ∈ frozen ∨ i ∈ closed ∨ (live.put id v).get i ≠ none :=
  fun i hi => (h.tombs i hi).imp_right (Or.imp_right (get_put_ne_none live id v))

theorem Tracks.past_put (h : Tracks frozen live closed done s) (id : ℕ) (v : StreamSnapshot) :
    ∀ i ∈ done, i ∈ closed ∨ (live.put id v).get i ≠ none :=
  fun i hi => (h.past i hi).2.imp_right (get_put_ne_none live id v)

/-- A stream that is written on both sides: opened, or given new windows. -/
theorem Tracks.put {id : ℕ} {st : StreamState} {v : StreamSnapshot}
    (h : Tracks frozen live closed done s) (hfrozen : id ∉ frozen) (hclosed : id ∉ closed)
    (hdone : id ∉ done) (hv : v = ⟨st.receiveWindow, st.sendCredit⟩) :
    Tracks frozen (live.put id v) closed done (s.putStream id st) where
  agree i st hi := by
    rw [Session.putStream_streams, Table.get_put] at hi
    rw [Table.get_put]
    split_ifs at hi ⊢ with he
    · cases hi; rw [hv]
    · exact h.agree i st hi
  apart i hi := by
    rw [Session.putStream_streams, Table.get_put] at hi
    split_ifs at hi with he
    · subst he; exact ⟨hfrozen, hclosed⟩
    · exact h.apart i hi
  tombs := h.tombs_put id v
  full i hi := by
    rw [Table.get_put] at hi
    rw [Session.putStream_streams, Table.get_put]
    split_ifs at hi ⊢ with he
    · exact .inl (by simp)
    · exact h.full i hi
  past i hi := by
    refine ⟨?_, h.past_put id v i hi⟩
    rw [Session.putStream_streams, Table.get_put_ne _ _ (by rintro rfl; exact hdone hi)]
    exact (h.past i hi).1
  ended := h.ended

/-- An OPEN that is refused stays live in the snapshot alone. -/
theorem Tracks.refused {s' : Session} {id : ℕ} {v : StreamSnapshot}
    (h : Tracks frozen live closed done s) (hlive : live.get id = none)
    (hnone : s.streams.get id = none) (hst : s'.streams = s.streams)
    (hsub : s'.closedStreams ⊆ insert id s.closedStreams) :
    Tracks frozen (live.put id v) closed (done ++ [id]) s' where
  agree i st hi := by
    rw [hst] at hi
    have := h.agree i st hi
    rw [Table.get_put_ne _ _ (by rintro rfl; simp [hlive] at this)]
    exact this
  apart i hi := h.apart i (by rwa [hst] at hi)
  tombs i hi := by
    rcases Finset.mem_insert.mp (hsub hi) with rfl | hi
    · exact .inr (.inr (by simp))
    · exact h.tombs_put _ _ i hi
  full i hi := by
    rw [Table.get_put] at hi
    split_ifs at hi with he
    · exact .inr (by simp [he])
    · rw [hst]
      exact (h.full i hi).imp_right fun hm => List.mem_append_left _ hm
  past i hi := by
    rw [hst]
    rcases List.mem_append.mp hi with hi | hi
    · exact ⟨(h.past i hi).1, h.past_put _ _ i hi⟩
    · rw [List.mem_singleton.mp hi]
      exact ⟨hnone, .inr (by simp)⟩
  ended i hi := List.mem_append_left _ (h.ended i hi)

/-- The snapshot may change a stream that the session has refused. -/
theorem Tracks.absent {id : ℕ} (h : Tracks frozen live closed done s) (v : StreamSnapshot)
    (hst : s.streams.get id = none) (hlive : live.get id ≠ none) :
    Tracks frozen (live.put id v) closed done s where
  agree i st hi := by
    rw [Table.get_put_ne _ _ (by rintro rfl; simp [hst] at hi)]
    exact h.agree i st hi
  apart := h.apart
  tombs := h.tombs_put id v
  full i hi := by
    rw [Table.get_put] at hi
    split_ifs at hi with he
    · exact h.full i (he ▸ hlive)
    · exact h.full i hi
  past i hi := ⟨(h.past i hi).1, h.past_put id v i hi⟩
  ended := h.ended

/-- A stream that is closed, in the snapshot and as far as the session still has it. -/
theorem Tracks.close {s' : Session} {id : ℕ} {more : List ℕ}
    (h : Tracks frozen live closed done s) (hst : s'.streams = s.streams.del id)
    (hsub : s'.closedStreams ⊆ insert id s.closedStreams) (hmore : id ∈ done ++ more)
    (hid : ∀ i ∈ more, i = id) :
    Tracks frozen (live.del id) (insert id closed) (done ++ more) s' where
  agree i st hi := by
    rw [hst, Table.get_del] at hi
    split_ifs at hi with he
    rw [Table.get_del_ne _ he]
    exact h.agree i st hi
  apart i hi := by
    rw [hst, Table.get_del] at hi
    split_ifs at hi with he
    · exact absurd rfl hi
    · obtain ⟨hf, hc⟩ := h.apart i hi
      exact ⟨hf, fun hm => (Finset.mem_insert.mp hm).elim he hc⟩
  tombs i hi := by
    by_cases he : i = id
    · exact .inr (.inl (he ▸ Finset.mem_insert_self _ _))
    · rcases Finset.mem_insert.mp (hsub hi) with hi | hi
      · exact absurd hi he
      · rcases h.tombs i hi with hi | hi | hi
        · exact .inl hi
        · exact .inr (.inl (Finset.mem_insert_of_mem hi))
        · exact .inr (.inr (by rwa [Table.get_del_ne _ he]))
  full i hi := by
    rw [Table.get_del] at hi
    split_ifs at hi with he
    · exact absurd rfl hi
    · rw [hst, Table.get_del_ne _ he]
      exact (h.full i hi).imp_right fun hm => List.mem_append_left _ hm
  past i hi := by
    rw [hst, Table.get_del, Table.get_del]
    by_cases he : i = id
    · exact ⟨by simp [he], .inl (by simp [he])⟩
    · simp only [if_neg he]
      rcases List.mem_append.mp hi with hi | hi
      · exact ⟨(h.past i hi).1, (h.past i hi).2.imp_left Finset.mem_insert_of_mem⟩
      · exact absurd (hid i hi) he
  ended i hi := by
    rcases Finset.mem_insert.mp hi with rfl | hi
    · exact hmore
    · exact List.mem_append_left _ (h.ended i hi)

/-! ### What a batch closes -/

def Session.liveIDs (s : Session) : Finset ℕ := s.streams.keys.toFinset

theorem Session.mem_liveIDs {id : ℕ} : id ∈ s.liveIDs ↔ s.streams.get id ≠ none := by
  rw [Session.liveIDs, List.mem_toFinset, Table.mem_keys_iff]

theorem Session.liveIDs_putStream (s : Session) (id : ℕ) (st : StreamState) :
    (s.putStream id st).liveIDs = insert id s.liveIDs := by
  ext i
  rw [Finset.mem_insert, Session.mem_liveIDs, Session.mem_liveIDs, Session.putStream_streams,
    Table.get_put]
  split_ifs with hi <;> simp [hi]

theorem Session.liveIDs_of_streams {s' : Session} (h : s'.streams = s.streams) :
    s'.liveIDs = s.liveIDs := by
  rw [Session.liveIDs, h, Session.liveIDs]

theorem Session.liveIDs_of_del {s' : Session} {id : ℕ} (h : s'.streams = s.streams.del id) :
    s'.liveIDs = s.liveIDs.erase id := by
  ext i
  rw [Finset.mem_erase, Session.mem_liveIDs, Session.mem_liveIDs, h, Table.get_del]
  split_ifs with hi <;> simp [hi]

/-- The ids that the frames of a batch close, in order: those of live streams with a CLOSE and
those of OPENs that are not admitted. -/
def closes : List Bool → Finset ℕ → List Frame → List ℕ
  | _, _, [] => []
  | admits, live, f :: rest =>
      if f.streamID = 0 then closes admits live rest
      else
        match f.type with
        | .open =>
            if admits.headD false then closes admits.tail (insert f.streamID live) rest
            else f.streamID :: closes admits.tail live rest
        | .close =>
            if f.streamID ∈ live then
              f.streamID :: closes admits (live.erase f.streamID) rest
            else closes admits live rest
        | _ => closes admits live rest

theorem QueueResult.decisions {s' : Session} {ty : FrameType} {id : ℕ} {payload : Bytes}
    {es : List Event} {ok : Bool} (h : QueueResult s ty id payload es s' ok) :
    decisions es = [] := by
  cases h <;> rfl

/-- The reservation covers what the rest of the batch can charge. -/
def Covered (counted : Finset ℕ) (rest : List Frame) (r : Applying) : Prop :=
  r.session.liveIDs ⊆ counted ∧ ((reservationLoop counted rest).1 : ℤ) ≤ r.cost ∧
    ((reservationLoop counted rest).2 : ℤ) ≤ r.items

/-- An append charges at most a whole new item. -/
theorem appendBackendWriteLocked_charge (st : StreamState) (payload : Bytes) :
    (appendBackendWriteLocked st payload).2.1 ≤ payload.length + queueItemCost ∧
      (appendBackendWriteLocked st payload).2.2 ≤ 1 := by
  unfold appendBackendWriteLocked
  dsimp only
  constructor
  · split_ifs
    · exact Nat.le_add_right _ _
    · exact le_rfl
  · split_ifs
    · exact Nat.zero_le 1
    · exact le_rfl

/-! ### One frame of the application -/

theorem Remembered.hasLane {s' : Session} {t' : List Event} {id : ℕ}
    (h : Remembered limits s t id s' t')
    (hl : s.HasLane id) : s'.HasLane id := by
  intro hu
  refine h.lane (hl ?_)
  rw [← hu]
  simp [Session.usesCarrierLanes, h.carrier]

theorem QueueResult.hasLane {s' : Session} {ty : FrameType} {id i : ℕ} {payload : Bytes}
    {es : List Event} {ok : Bool} (h : QueueResult s ty id payload es s' ok)
    (hl : s.HasLane i) : s'.HasLane i := by
  cases h with
  | refused => exact hl
  | @accepted q d cost items notify hq h =>
      have hlanes := (s.setPending cost items notify).setQueue_lanes (q := q) (d := d)
      obtain ⟨down, lanes, released, he⟩ := (s.setPending cost items notify).setQueue_eq q d
      rw [he] at hlanes ⊢
      intro hu
      rw [hlanes]
      have := hl hu
      simpa [Session.setPending] using this

/-- How a session in the middle of a batch stands to the state `σ` it started from and to the
snapshot; `done` are the ids closed so far.  That this far it is a chain of changes is only
claimed where `laned` holds: the ids of the batch have their lane. -/
structure Applies (limits : Limits) (laned : Prop) (σ : Traced) (frozen : Finset ℕ)
    (live : Table ℕ StreamSnapshot) (closed : Finset ℕ) (done : List ℕ) (id : ℕ) (s : Session)
    (t : List Event) : Prop where
  changes : laned → Changes .batch σ ⟨s, t⟩
  lane : laned → s.HasLane id
  carrier : s.carrier = σ.session.carrier
  ring : Ring limits ⟨s, t⟩
  opened : s.closed = false
  tracks : Tracks frozen live closed done s
  recorded : closings t = closings σ.trace ++ done

theorem Applies.start {laned : Prop} {id : ℕ} (hs : Ring limits ⟨s, t⟩) (hopen : s.closed = false)
    (hlane : laned → s.HasLane id) :
    Applies limits laned ⟨s, t⟩ s.closedStreams s.snapshot ∅ [] id s t :=
  ⟨fun _ => .refl, hlane, rfl, hs, hopen, .start hs, (List.append_nil _).symm⟩

/-- What one frame does: the ids `c` it closes and the answers `d` it gets are those that
`closes` reckons with, and what it charges was reserved for it. -/
structure Applied (f : Frame) (r : Applying) (t : List Event) (r' : Applying)
    (t' : List Event) (c : List ℕ) (d : List Bool) : Prop where
  decided : decisions t' = decisions t ++ d
  reckoned : ∀ admits rest, closes (d ++ admits) r.session.liveIDs (f :: rest) =
    c ++ closes admits r'.session.liveIDs rest
  covered : ∀ counted rest, Covered counted (f :: rest) r → ∃ counted', Covered counted' rest r'

variable {laned : Prop} {σ : Traced} {r : Applying} {f : Frame} {id : ℕ}

/-- The postcondition of a frame. -/
abbrev FrameDone (limits : Limits) (laned : Prop) (σ : Traced) (frozen : Finset ℕ)
    (live : Table ℕ StreamSnapshot) (closed : Finset ℕ) (done : List ℕ) (id : ℕ) (f : Frame)
    (r : Applying) (t t' : List Event) (r' : Applying) : Prop :=
  ∃ c d, Applies limits laned σ frozen live closed (done ++ c) id r'.session t' ∧
    Applied f r t r' t' c d

theorem applyOpen_obs
    (ha : Applies limits laned σ frozen live closed done id r.session t)
    (hf : validateFrame frozen live closed f = some (live', closed')) (hid : f.streamID = id)
    (h0 : id ≠ 0) (hmax : laned → id ≤ maxStreamID) (hty : f.type = .open) :
    wp observer (applyOpen r id)
      (FrameDone limits laned σ frozen live' closed' done id f r t) t := by
  subst hid
  simp only [validateFrame, h0, hty, if_false] at hf
  split_ifs at hf with hbad
  cases hf
  simp only [not_or, not_not] at hbad
  obtain ⟨hnew, hfrozen, hin⟩ := hbad
  have hlive : r.session.streams.get f.streamID = none := by
    by_contra hn
    obtain ⟨st, hst⟩ := Option.ne_none_iff_exists'.mp hn
    rw [ha.tracks.agree _ st hst] at hnew
    cases hnew
  have hclosed : f.streamID ∉ r.session.closedStreams := by
    intro hm
    rcases ha.tracks.tombs _ hm with h | h | h
    · exact hfrozen h
    · exact hin h
    · exact h hnew
  have hdone : f.streamID ∉ done := by
    intro hm
    rcases (ha.tracks.past _ hm).2 with h | h
    · exact hin h
    · exact h hnew
  have hrefuse : wp observer (refuseOpen r f.streamID)
      (FrameDone limits laned σ frozen
        (live.put f.streamID ⟨initialStreamWindow, initialStreamWindow⟩) closed done f.streamID
        f r t) t := by
    unfold refuseOpen
    refine wp_seq (rememberClosedLocked_obs ha.ring ha.opened hlive ha.lane) ?_
    rintro t₁ s₁ ⟨hc₁, hr⟩
    replace hc₁ := fun h => Changes.mono (hc₁ h) Scope.batch.covers_quiet
    simp only [announce_bind, wp_note]
    refine wp_seq (queueFrameLocked_obs s₁ .close f.streamID []) ?_
    rintro t₂ ⟨s₂, ok⟩ ⟨es, rfl, hq⟩
    obtain ⟨hst₂, hcl₂, ho₂⟩ := hq.closedStreams
    have hchanges : laned → Changes .batch σ ⟨s₂, t₁ ++ [.rejected f.streamID] ++ es⟩ :=
      fun h => (((ha.changes h).trans (hc₁ h)).tail (.silent rfl fun _ => rfl)).tail (.queueClose
        (hr.closed.trans ha.opened) (by rw [hr.streams]; exact hlive) hr.mem hq ⟨h0, hmax h⟩
        (hr.just hclosed).rejected (.inl ⟨⟨t₁, rfl⟩, rfl⟩))
    have hring : Ring limits ⟨s₂, t₁ ++ [.rejected f.streamID] ++ es⟩ :=
      (hr.ring.keeps (Keeps.refl _) rfl).keeps (Keeps.queueResult hq).1 (Keeps.queueResult hq).2
    have hclosings : closings (t₁ ++ [.rejected f.streamID] ++ es) =
        closings σ.trace ++ (done ++ [f.streamID]) := by
      rw [closings_append, closings_append, (Keeps.queueResult hq).2, hr.closings, ha.recorded,
        if_neg hclosed]
      simp [closings]
    have hdecisions : decisions (t₁ ++ [.rejected f.streamID] ++ es) = decisions t ++ [false] := by
      rw [decisions_append, decisions_append, hq.decisions, hr.decisions]
      simp [decisions]
    have hstreams : s₂.streams = r.session.streams := hst₂.trans hr.streams
    have htracks : Tracks frozen (live.put f.streamID ⟨initialStreamWindow,
        initialStreamWindow⟩) closed (done ++ [f.streamID]) s₂ :=
      (ha.tracks.refused hnew hlive hr.streams hr.sub).congr hst₂ hcl₂
    have happlies : ∀ t₃, t₃ = t₁ ++ [.rejected f.streamID] ++ es ∨
        t₃ = t₁ ++ [.rejected f.streamID] ++ es ++ [.abandoned f.streamID] →
        ∀ applied, FrameDone limits laned σ frozen
          (live.put f.streamID ⟨initialStreamWindow, initialStreamWindow⟩) closed done
          f.streamID f r t t₃ { r with session := s₂, applied := applied } := by
      rintro t₃ ht₃ applied
      refine ⟨[f.streamID], [false], ⟨?_, fun h => hq.hasLane (hr.hasLane (ha.lane h)),
        (Keeps.queueResult hq).1.carrier.trans (hr.carrier.trans ha.carrier), ?_,
        ho₂.trans (hr.closed.trans ha.opened), htracks, ?_⟩, ?_, fun admits rest => ?_,
        fun counted rest hc => ?_⟩
      · rcases ht₃ with rfl | rfl
        · exact hchanges
        · exact fun h => (hchanges h).tail (.silent rfl fun _ => rfl)
      · rcases ht₃ with rfl | rfl
        · exact hring
        · exact hring.keeps (Keeps.refl _) rfl
      · rcases ht₃ with rfl | rfl
        · exact hclosings
        · rw [closings_append, hclosings]
          exact List.append_nil _
      · rcases ht₃ with rfl | rfl
        · exact hdecisions
        · rw [decisions_append, hdecisions]
          exact List.append_nil _
      · rw [Session.liveIDs_of_streams hstreams, closes]
        simp [h0, hty]
      · refine ⟨insert f.streamID counted, ?_⟩
        simp only [Covered, reservationLoop, h0, if_false, hty] at hc ⊢
        exact ⟨(Session.liveIDs_of_streams hstreams).subset.trans
          (hc.1.trans (Finset.subset_insert _ _)), hc.2⟩
    cases ok with
    | true => exact happlies _ (.inl rfl) r.applied
    | false => exact happlies _ (.inr rfl) false
  unfold applyOpen
  dsimp only
  split_ifs with hfull
  · exact hrefuse
  · refine ⟨trivial, ?_⟩
    rintro b t' rfl
    cases b with
    | false => exact hrefuse
    | true =>
        refine ⟨[], [true], ⟨fun h => (ha.changes h).tail (.openStream ha.opened (ha.lane h)
          hlive hclosed (not_le.mp hfull) ⟨h0, hmax h⟩ rfl), ha.lane, ha.carrier,
          ha.ring.openStream hclosed _ _, ha.opened, ?_, ?_⟩, ?_, fun admits rest => ?_,
          fun counted rest hc => ?_⟩
        · rw [List.append_nil]
          have hput : Tracks frozen _ closed done
              (r.session.putStream f.streamID (newStream r.session.nextObject)) :=
            ha.tracks.put hfrozen hin hdone rfl
          exact hput.congr rfl rfl
        · rw [List.append_nil, ← ha.recorded]
          exact (closings_append _ _).trans (List.append_nil _)
        · exact decisions_append _ _
        · rw [closes]
          simp only [h0, if_false, hty, List.cons_append, List.nil_append, List.headD_cons,
            List.tail_cons, if_true]
          exact congrArg (fun l => closes admits l rest)
            (Session.liveIDs_putStream _ _ _).symm
        · refine ⟨insert f.streamID counted, ?_⟩
          simp only [Covered, reservationLoop, h0, if_false, hty] at hc ⊢
          refine ⟨?_, hc.2⟩
          exact (Session.liveIDs_putStream _ _ _).subset.trans
            (Finset.insert_subset_insert _ hc.1)

/-- A frame that closes nothing, whatever else it does. -/
theorem Applied.plain {r' : Applying} {es : List Event} (hopen : f.type ≠ .open)
    (hclose : f.type = .close → f.streamID ∉ r.session.liveIDs)
    (hes : decisions es = []) (hlive : r'.session.liveIDs = r.session.liveIDs)
    (hcovered : ∀ counted rest, Covered counted (f :: rest) r →
      ∃ counted', Covered counted' rest r') :
    Applied f r t r' (t ++ es) [] [] where
  decided := by rw [decisions_append, hes]
  reckoned admits rest := by
    rw [closes, hlive]
    simp only [List.nil_append]
    by_cases h0 : f.streamID = 0
    · rw [if_pos h0]
    · rw [if_neg h0]
      cases hty : f.type with
      | «open» => exact absurd hty hopen
      | close => simp only [hclose hty, if_false]
      | _ => rfl
  covered := hcovered

/-- What was reserved for a frame and the rest covers the rest. -/
theorem Covered.skip {counted : Finset ℕ} {rest : List Frame}
    (hc : Covered counted (f :: rest) r) (hopen : f.type ≠ .open)
    (hclose : f.type = .close → f.streamID ∉ r.session.liveIDs) :
    ∃ counted', Covered counted' rest r := by
  by_cases h0 : f.streamID = 0
  · exact ⟨counted, by simpa only [Covered, reservationLoop, h0, if_true] using hc⟩
  · cases hty : f.type with
    | «open» => exact absurd hty hopen
    | data =>
        refine ⟨counted, ?_⟩
        simp only [Covered, reservationLoop, h0, if_false, hty] at hc ⊢
        split_ifs at hc
        · push_cast at hc
          exact ⟨hc.1, by omega, by omega⟩
        · exact hc
    | close =>
        refine ⟨counted.erase f.streamID, ?_⟩
        simp only [Covered, reservationLoop, h0, if_false, hty] at hc ⊢
        exact ⟨fun i hi => Finset.mem_erase.mpr ⟨fun he => hclose hty (he ▸ hi), hc.1 hi⟩, hc.2⟩
    | _ => exact ⟨counted, by simpa only [Covered, reservationLoop, h0, if_false, hty] using hc⟩

/-- A live stream was neither closed in the batch nor a tombstone before it. -/
theorem Tracks.alive {st : StreamState} (h : Tracks frozen live closed done s)
    (hst : s.streams.get id = some st) : id ∉ frozen ∧ id ∉ closed ∧ id ∉ done ∧
      live.get id = some ⟨st.receiveWindow, st.sendCredit⟩ := by
  obtain ⟨hf, hc⟩ := h.apart id (by simp [hst])
  exact ⟨hf, hc, fun hd => by simp [(h.past id hd).1] at hst, h.agree id st hst⟩

/-- One of the two frames that only change a live stream. -/
theorem Applies.put {st st' : StreamState} {es : List Event} {v : StreamSnapshot}
    (ha : Applies limits laned σ frozen live closed done id s t)
    (hst : s.streams.get id = some st) (hes : closings es = []) (hne : es ≠ [])
    (hstep : StreamStep id st es st') (hv : v = ⟨st'.receiveWindow, st'.sendCredit⟩) :
    Applies limits laned σ frozen (live.put id v) closed (done ++ []) id (s.putStream id st')
      (t ++ es) := by
  obtain ⟨hf, hc, hd, -⟩ := ha.tracks.alive hst
  have hscope : (es ≠ [] → Scope.batch.frames = true) ∧
      (es = [] → Scope.batch.backends = true) := ⟨fun _ => rfl, fun he => absurd he hne⟩
  refine ⟨fun h => (ha.changes h).tail (.stream ha.opened hst hstep hscope), ha.lane, ha.carrier,
    ha.ring.keeps (Keeps.putStream _ hst) hes, ha.opened, ?_, ?_⟩
  · rw [List.append_nil]
    exact ha.tracks.put hf hc hd hv
  · rw [List.append_nil, closings_append, hes, List.append_nil, ha.recorded]

theorem applyData_obs
    (ha : Applies limits laned σ frozen live closed done id r.session t)
    (hf : validateFrame frozen live closed f = some (live', closed')) (hid : f.streamID = id)
    (h0 : id ≠ 0) (hty : f.type = .data) (hsize : f.payload.length ≤ maxPayload) :
    wp observer (applyData r id f.payload)
      (FrameDone limits laned σ frozen live' closed' done id f r t) t := by
  subst hid
  unfold applyData
  cases hst : r.session.streams.get f.streamID with
  | none => trivial
  | some st =>
      obtain ⟨hfrozen, hin, hdone, hagree⟩ := ha.tracks.alive hst
      simp only [validateFrame, h0, hty, if_false, hfrozen, hin, or_self, hagree] at hf
      split_ifs at hf with hbad
      cases hf
      have hlen : toUint32 f.payload.length = f.payload.length :=
        Nat.mod_eq_of_lt (by unfold maxPayload at hsize; omega)
      have hstep : StreamStep f.streamID st [.dataApplied f.streamID f.payload] _ :=
        .data (by rw [hlen] at hbad; omega)
      have hlive : f.streamID ∈ r.session.liveIDs := Session.mem_liveIDs.mpr (by simp [hst])
      simp only [announce_bind, wp_note]
      refine ⟨[], [], ha.put hst rfl (by simp) hstep rfl,
        .plain (by simp [hty]) (by simp [hty]) rfl ?_ ?_⟩
      · exact (Session.liveIDs_putStream _ _ _).trans (Finset.insert_eq_of_mem hlive)
      · intro counted rest hc
        refine ⟨counted, ?_⟩
        obtain ⟨hcost, hitems⟩ := appendBackendWriteLocked_charge st f.payload
        simp only [Covered, reservationLoop, h0, if_false, hty, hc.1 hlive, if_true] at hc ⊢
        push_cast at hc
        refine ⟨?_, ?_, ?_⟩
        · exact ((Session.liveIDs_putStream _ _ _).trans
            (Finset.insert_eq_of_mem hlive)).subset.trans hc.1
        · show _ ≤ r.cost - ((appendBackendWriteLocked st f.payload).2.1 : ℕ)
          omega
        · show _ ≤ r.items - ((appendBackendWriteLocked st f.payload).2.2 : ℕ)
          omega

theorem applyWindow_obs
    (ha : Applies limits laned σ frozen live closed done id r.session t)
    (hf : validateFrame frozen live closed f = some (live', closed')) (hid : f.streamID = id)
    (h0 : id ≠ 0) (hty : f.type = .window) :
    wp observer (applyWindow r id f.payload)
      (FrameDone limits laned σ frozen live' closed' done id f r t) t := by
  subst hid
  unfold applyWindow
  cases hst : r.session.streams.get f.streamID with
  | none => trivial
  | some st =>
      obtain ⟨hfrozen, hin, hdone, hagree⟩ := ha.tracks.alive hst
      simp only [validateFrame, h0, hty, if_false, hfrozen, hin, or_self, hagree] at hf
      cases hf
      have hstep : StreamStep f.streamID st
          [.windowApplied f.streamID (windowAmount f.payload).1] _ :=
        .window (windowAmount_le f.payload)
      have hlive : f.streamID ∈ r.session.liveIDs := Session.mem_liveIDs.mpr (by simp [hst])
      have hsame := (Session.liveIDs_putStream r.session f.streamID { st with
        sendCredit := addCredit st.sendCredit (windowAmount f.payload).1
        creditNotify := true }).trans (Finset.insert_eq_of_mem hlive)
      simp only [announce_bind, wp_note]
      refine ⟨[], [], ha.put hst rfl (by simp) hstep rfl,
        .plain (by simp [hty]) (by simp [hty]) rfl hsame fun counted rest hc => ?_⟩
      obtain ⟨counted', hc'⟩ := hc.skip (by simp [hty]) (by simp [hty])
      exact ⟨counted', hsame.subset.trans hc'.1, hc'.2⟩

theorem applyClose_obs
    (ha : Applies limits laned σ frozen live closed done id r.session t)
    (hf : validateFrame frozen live closed f = some (live', closed')) (hid : f.streamID = id)
    (h0 : id ≠ 0) (hty : f.type = .close) :
    wp observer (applyClose r id)
      (FrameDone limits laned σ frozen live' closed' done id f r t) t := by
  subst hid
  unfold applyClose
  cases hst : r.session.streams.get f.streamID with
  | none => trivial
  | some st =>
      obtain ⟨hfrozen, hin, hdone, hagree⟩ := ha.tracks.alive hst
      simp only [validateFrame, h0, hty, if_false, hfrozen, hin, or_self, hagree] at hf
      cases hf
      have hclosed : f.streamID ∉ r.session.closedStreams := ha.ring.disjoint _ (by simp [hst])
      have hlive : f.streamID ∈ r.session.liveIDs := Session.mem_liveIDs.mpr (by simp [hst])
      refine wp_seq (releaseStreamWritesLocked_obs r.session st) ?_
      rintro t₁ s₁ ⟨rfl, cost, items, notify, rfl⟩
      have hc₁ : Changes .batch ⟨r.session, t₁⟩
          ⟨(r.session.setPending cost items notify).delStream f.streamID, t₁⟩ :=
        .head (.pending cost items notify) (.single (.endStream hst hclosed rfl))
      have hring := ha.ring.quiet ((Keeps.setPending r.session cost items notify).trans
        (Keeps.delStream _ f.streamID))
      refine wp_seq (rememberClosedLocked_obs hring ha.opened (by simp) ha.lane) ?_
      rintro t₂ s₂ ⟨hc₂, hr⟩
      replace hc₂ := fun h => Changes.mono (hc₂ h) Scope.batch.covers_quiet
      have hclosings := hr.closings
      rw [if_neg (show f.streamID ∉ ((r.session.setPending cost items notify).delStream
        f.streamID).closedStreams from hclosed)] at hclosings
      have hids : s₂.liveIDs = r.session.liveIDs.erase f.streamID :=
        Session.liveIDs_of_del hr.streams
      refine ⟨[f.streamID], [], ⟨fun h => ((ha.changes h).trans hc₁).trans (hc₂ h),
        fun h => hr.hasLane (ha.lane h), hr.carrier.trans ha.carrier, hr.ring,
        hr.closed.trans ha.opened, ?_, ?_⟩, ?_, fun admits rest => ?_,
        fun counted rest hc => ?_⟩
      · exact ha.tracks.close hr.streams hr.sub (by simp) (by simp)
      · rw [hclosings, ha.recorded, List.append_assoc]
      · rw [hr.decisions, List.append_nil]
      · rw [closes]
        simp only [h0, if_false, hty, hlive, if_true, List.nil_append, hids]
        rfl
      · refine ⟨counted.erase f.streamID, ?_⟩
        simp only [Covered, reservationLoop, h0, if_false, hty] at hc ⊢
        exact ⟨hids.subset.trans (Finset.erase_subset_erase _ hc.1), hc.2⟩

/-- A frame whose id is a tombstone changes nothing in the session. -/
theorem Applies.skipped (ha : Applies limits laned σ frozen live closed done id r.session t)
    (hf : validateFrame frozen live closed f = some (live', closed'))
    (hopen : f.type ≠ .open) (hid : f.streamID ≠ 0 → f.streamID ∈ r.session.closedStreams) :
    FrameDone limits laned σ frozen live' closed' done id f r t t r := by
  have hclose : f.streamID ≠ 0 → r.session.streams.get f.streamID = none := by
    intro h0
    by_contra hn
    exact ha.ring.disjoint _ hn (hid h0)
  have htracks : Tracks frozen live' closed' (done ++ []) r.session := by
    rw [List.append_nil]
    by_cases h0 : f.streamID = 0
    · simp only [validateFrame, h0, if_true] at hf
      split_ifs at hf
      cases hf
      exact ha.tracks
    · have hnone := hclose h0
      simp only [validateFrame, h0, if_false] at hf
      cases hty : f.type with
      | «open» => exact absurd hty hopen
      | data =>
          simp only [hty] at hf
          split_ifs at hf with hwas
          · cases hf; exact ha.tracks
          · split at hf
            · cases hf
            · next hl =>
                split_ifs at hf
                cases hf
                exact ha.tracks.absent _ hnone (by simp [hl])
      | window =>
          simp only [hty] at hf
          split_ifs at hf with hwas
          · cases hf; exact ha.tracks
          · split at hf
            · cases hf
            · next hl =>
                cases hf
                exact ha.tracks.absent _ hnone (by simp [hl])
      | close =>
          simp only [hty] at hf
          split_ifs at hf with hwas
          · cases hf; exact ha.tracks
          · split at hf
            · cases hf
            · next hl =>
                cases hf
                have hdone := (ha.tracks.full f.streamID (by simp [hl])).resolve_left
                  (not_not.mpr hnone)
                have htracks : Tracks frozen (live.del f.streamID) (insert f.streamID closed)
                    (done ++ []) r.session :=
                  ha.tracks.close (Table.del_eq_self _ hnone).symm
                    (Finset.subset_insert f.streamID _) (by simpa using hdone) (by simp)
                rwa [List.append_nil] at htracks
      | _ => simp [hty] at hf
  have hlive : f.type = .close → f.streamID ∉ r.session.liveIDs := by
    intro hty hm
    refine Session.mem_liveIDs.mp hm (hclose ?_)
    intro h0
    simp [validateFrame, h0, hty] at hf
  refine ⟨[], [], ⟨ha.changes, ha.lane, ha.carrier, ha.ring, ha.opened, htracks, ?_⟩, ?_⟩
  · rw [List.append_nil]; exact ha.recorded
  · have happ : Applied f r t r (t ++ []) [] [] := .plain hopen hlive rfl rfl
      fun counted rest hc => Covered.skip hc hopen hlive
    rwa [List.append_nil] at happ

theorem applyFrame_obs (ha : Applies limits laned σ frozen live closed done id r.session t)
    (hf : validateFrame frozen live closed f = some (live', closed')) (hid : f.streamID = id)
    (hmax : laned → f.streamID ≤ maxStreamID) (hsize : f.payload.length ≤ maxPayload) :
    wp observer (applyFrame r f)
      (FrameDone limits laned σ frozen live' closed' done id f r t) t := by
  unfold applyFrame
  by_cases h0 : f.streamID = 0
  · rw [if_pos h0]
    refine ha.skipped hf ?_ fun h => absurd h0 h
    intro hty
    simp [validateFrame, h0, hty] at hf
  rw [if_neg h0]
  have h0' : id ≠ 0 := hid ▸ h0
  cases hty : f.type with
  | «open» =>
      dsimp only
      rw [hid]
      exact applyOpen_obs ha hf hid h0' (hid ▸ hmax) hty
  | data =>
      dsimp only
      split_ifs with hwas
      · exact ha.skipped hf (by simp [hty]) fun _ => hwas
      · rw [hid]
        exact applyData_obs ha hf hid h0' hty hsize
  | window =>
      dsimp only
      split_ifs with hwas
      · exact ha.skipped hf (by simp [hty]) fun _ => hwas
      · rw [hid]
        exact applyWindow_obs ha hf hid h0' hty
  | close =>
      dsimp only
      split_ifs with hwas
      · exact ha.skipped hf (by simp [hty]) fun _ => hwas
      · rw [hid]
        exact applyClose_obs ha hf hid h0' hty
  | _ => simp [validateFrame, h0, hty] at hf

/-! ### A whole batch -/

/-- The postcondition of the loop: where it stopped early the session is still a chain of
changes away and nothing was overcharged; where it came to its end, the batch that is left
stands to the session as the whole batch did. -/
structure LoopDone (limits : Limits) (laned : Prop) (σ : Traced) (frozen : Finset ℕ)
    (done : List ℕ) (id : ℕ) (frames rest : List Frame) (r : Applying) (t t' : List Event)
    (r' : Applying) : Prop where
  changes : laned → Changes .batch σ ⟨r'.session, t'⟩
  opened : r'.session.closed = false
  unspent : 0 ≤ r'.cost ∧ 0 ≤ r'.items
  passed : r'.applied = true → ∃ live closed c d counted,
    Applies limits laned σ frozen live closed (done ++ c) id r'.session t' ∧
    validateLoop frozen live closed rest = true ∧ Covered counted rest r' ∧
    decisions t' = decisions t ++ d ∧ ∀ admits tail,
      closes (d ++ admits) r.session.liveIDs (frames ++ tail) =
        c ++ closes admits r'.session.liveIDs tail

theorem Covered.unspent {counted : Finset ℕ} {rest : List Frame}
    (h : Covered counted rest r) : 0 ≤ r.cost ∧ 0 ≤ r.items := by
  obtain ⟨-, hc, hi⟩ := h
  omega

/-- **Applying a validated batch**, or as much of it as is applied. -/
theorem applyLoop_obs {frames rest : List Frame} {laneID : ℕ}
    (hids : laned → σ.session.usesCarrierLanes = true → ∀ f ∈ frames, f.streamID = laneID)
    (hmax : laned → ∀ f ∈ frames, f.streamID ≤ maxStreamID)
    (hsize : ∀ f ∈ frames, f.payload.length ≤ maxPayload) {counted : Finset ℕ}
    (ha : Applies limits laned σ frozen live closed done laneID r.session t)
    (hv : validateLoop frozen live closed (frames ++ rest) = true)
    (hc : Covered counted (frames ++ rest) r) :
    wp observer (applyLoop r frames)
      (LoopDone limits laned σ frozen done laneID frames rest r t) t := by
  induction frames generalizing r t live closed done counted with
  | nil =>
      refine ⟨ha.changes, ha.opened, hc.unspent, fun _ => ⟨live, closed, [], [], counted, ?_, hv,
        hc, (List.append_nil _).symm, fun admits tail => rfl⟩⟩
      rw [List.append_nil]
      exact ha
  | cons f frames ih =>
      obtain ⟨live₁, closed₁, hf, hv₁⟩ := validateLoop_cons_inv hv
      have hids' : laned → r.session.usesCarrierLanes = true → f.streamID = laneID :=
        fun hl hu => hids hl (by rw [← hu, Session.usesCarrierLanes, Session.usesCarrierLanes,
          ha.carrier]) f List.mem_cons_self
      have ha' : Applies limits laned σ frozen live closed done f.streamID r.session t :=
        ⟨ha.changes, fun hl hu => hids' hl hu ▸ ha.lane hl hu, ha.carrier, ha.ring, ha.opened,
          ha.tracks, ha.recorded⟩
      refine wp_seq (applyFrame_obs ha' hf rfl (fun hl => hmax hl f List.mem_cons_self)
        (hsize f List.mem_cons_self)) ?_
      rintro t₁ r₁ ⟨c₁, d₁, ha₁, happ⟩
      obtain ⟨counted₁, hc₁⟩ := happ.covered counted (frames ++ rest) hc
      by_cases hgo : r₁.applied = true
      · rw [if_pos hgo]
        have hlane₁ : laned → r₁.session.HasLane laneID := by
          intro hl hu
          have hu' : r.session.usesCarrierLanes = true := by
            rw [← hu, Session.usesCarrierLanes, Session.usesCarrierLanes, ha.carrier,
              ha₁.carrier]
          exact hids' hl hu' ▸ ha₁.lane hl hu
        refine wp_mono (ih (fun hl hu g hg => hids hl hu g (List.mem_cons_of_mem f hg))
          (fun hl g hg => hmax hl g (List.mem_cons_of_mem f hg))
          (fun g hg => hsize g (List.mem_cons_of_mem f hg))
          ⟨ha₁.changes, hlane₁, ha₁.carrier, ha₁.ring, ha₁.opened, ha₁.tracks, ha₁.recorded⟩
          hv₁ hc₁) ?_
        intro t₂ r₂ h₂
        refine ⟨h₂.changes, h₂.opened, h₂.unspent, fun hgo₂ => ?_⟩
        obtain ⟨live₂, closed₂, c₂, d₂, counted₂, ha₂, hv₂, hc₂, hd₂, hcl₂⟩ := h₂.passed hgo₂
        refine ⟨live₂, closed₂, c₁ ++ c₂, d₁ ++ d₂, counted₂, ?_, hv₂, hc₂, ?_,
          fun admits tail => ?_⟩
        · rw [← List.append_assoc]; exact ha₂
        · rw [hd₂, happ.decided, List.append_assoc]
        · rw [List.append_assoc, List.cons_append, happ.reckoned, hcl₂, List.append_assoc]
      · rw [if_neg hgo]
        exact ⟨ha₁.changes, ha₁.opened, hc₁.unspent, fun h => absurd h hgo⟩

end TproxyServer
