import TproxyServer.DownlinkBodies
import TproxyServer.DownlinkGrammar

/-! # What a backend is sent

DATA is appended to the last queued chunk of its stream as long as that stays within
`dataChunk`, while the writer takes chunks from the front and reports what it has written of
them.  `StreamState.Charged` relates the counters of a stream to its queue and to the chunk that
its writer has in its hands: a byte is charged until it is reported, an item until its chunk is.

The writer calls back by the numeric id of its stream, so all of this is about runs in which no
id is opened twice. -/

namespace TproxyServer

open Interaction Prog

variable {limits : Limits} {carrier : CarrierMode} {scope : Scope} {s s' : Session}
  {σ : Traced} {t es : List Event} {sha256 : Bytes → Bytes}

/-! ### The chunk in the writer's hands -/

/-- What a writer has taken and not finished; `lost` where it ended within a chunk. -/
inductive Hand where
  | empty
  | chunk (left : ℕ)
  | lost
deriving DecidableEq

def Hand.items : Hand → ℕ
  | .empty => 0
  | .chunk _ | .lost => 1

def Hand.left : Hand → ℕ
  | .chunk left => left
  | .empty | .lost => 0

def Hand.lose : Hand → Hand
  | .empty => .empty
  | .chunk _ | .lost => .lost

/-- What the writer has in its hands, `before` being what it had. -/
def Goroutines.hand (before : Hand) : Goroutines → Hand
  | .running (.writing left) _ => .chunk left.length
  | .running .ended _ | .finished => before.lose
  | .running .asking _ | .dialling => .empty

/-- The same for backend `b` at the end of a run, the last state first. -/
def hand : List BackendTraffic → ℕ → Hand
  | [], _ => .empty
  | W :: run, b => (W.goroutine b).hand (hand run b)

theorem Goroutines.hand_hand (g : Goroutines) (before : Hand) :
    g.hand (g.hand before) = g.hand before := by
  cases g with
  | dialling => rfl
  | finished => cases before <;> rfl
  | running w r =>
      cases w with
      | ended => cases before <;> rfl
      | _ => rfl

/-- The goroutines of the other backends have gone on by no step. -/
theorem hand_put {W W' : BackendTraffic} {run : List BackendTraffic} {b : ℕ} {g : Goroutines}
    (h : ∀ i, W'.goroutine i = if i = b then g else W.goroutine i) :
    hand (W' :: W :: run) =
      Function.update (hand (W :: run)) b (g.hand (hand (W :: run) b)) := by
  funext i
  show (W'.goroutine i).hand (hand (W :: run) i) = _
  rw [h]
  by_cases hi : i = b
  · subst hi
    rw [if_pos rfl, Function.update_self]
  · rw [if_neg hi, Function.update_of_ne hi]
    exact Goroutines.hand_hand _ _

theorem hand_same {W W' : BackendTraffic} {run : List BackendTraffic}
    (h : W'.goroutines = W.goroutines) : hand (W' :: W :: run) = hand (W :: run) := by
  funext i
  show (W'.goroutine i).hand (hand (W :: run) i) = _
  unfold BackendTraffic.goroutine
  rw [h]
  exact Goroutines.hand_hand _ _

/-! ### The counters of a stream -/

/-- The counters of a stream against its queue and what its writer has in its hands. -/
structure StreamState.Charged (st : StreamState) (h : Hand) : Prop where
  items : st.pendingWriteItems = st.writes.length + h.items
  cost : st.pendingWriteCost = st.pendingWriteBytes + queueItemCost * st.pendingWriteItems
  window : st.receiveWindow + st.pendingWriteBytes = initialStreamWindow
  bytes : st.writes.flatten.length + h.left ≤ st.pendingWriteBytes
  exact : h ≠ .lost → st.pendingWriteBytes = st.writes.flatten.length + h.left

/-- Streams that agree in what a writer is concerned with. -/
structure SameWrites (st st' : StreamState) : Prop where
  backend : st'.backend = st.backend
  writes : st'.writes = st.writes
  bytes : st'.pendingWriteBytes = st.pendingWriteBytes
  cost : st'.pendingWriteCost = st.pendingWriteCost
  items : st'.pendingWriteItems = st.pendingWriteItems
  window : st'.receiveWindow = st.receiveWindow

theorem SameWrites.refl (st : StreamState) : SameWrites st st := ⟨rfl, rfl, rfl, rfl, rfl, rfl⟩

theorem SameWrites.charged {st st' : StreamState} {h : Hand} (hsame : SameWrites st st')
    (hst : st.Charged h) : st'.Charged h := by
  obtain ⟨-, hwrites, hbytes, hcost, hitems, hwindow⟩ := hsame
  refine ⟨?_, ?_, ?_, ?_, ?_⟩
  · rw [hitems, hwrites]
    exact hst.items
  · rw [hcost, hbytes, hitems]
    exact hst.cost
  · rw [hwindow, hbytes]
    exact hst.window
  · rw [hwrites, hbytes]
    exact hst.bytes
  · rw [hwrites, hbytes]
    exact hst.exact

theorem newStream_charged (backend : ℕ) : (newStream backend).Charged .empty :=
  ⟨rfl, rfl, rfl, Nat.le_refl _, fun _ => rfl⟩

/-- What an append does to the queue and the counters. -/
theorem appendBackendWriteLocked_counts (st : StreamState) (payload : Bytes) :
    ∃ items, (appendBackendWriteLocked st payload).1.writes.length = st.writes.length + items ∧
      (appendBackendWriteLocked st payload).1.pendingWriteItems = st.pendingWriteItems + items ∧
      (appendBackendWriteLocked st payload).1.pendingWriteCost =
        st.pendingWriteCost + payload.length + queueItemCost * items := by
  unfold appendBackendWriteLocked
  cases hlast : st.writes.getLast? with
  | none => exact ⟨1, by simp, by simp, by simp [Nat.add_assoc]⟩
  | some last =>
      have hne : st.writes ≠ [] := by
        rintro he
        rw [he] at hlast
        cases hlast
      have hpos := List.length_pos_of_ne_nil hne
      by_cases hroom : last.length + payload.length ≤ dataChunk
      · refine ⟨0, ?_, ?_, ?_⟩
        · simp only [hroom, decide_true, if_true, List.length_append, List.length_dropLast,
            List.length_singleton]
          omega
        · simp [hroom]
        · simp [hroom]
      · refine ⟨1, ?_, ?_, ?_⟩
        · simp [hroom]
        · simp [hroom]
        · simp [hroom, Nat.add_assoc]

/-- A queued chunk is within `dataChunk`, or a payload of its own. -/
theorem appendBackendWriteLocked_chunks {st : StreamState} {payload chunk : Bytes}
    (h : chunk ∈ (appendBackendWriteLocked st payload).1.writes) :
    chunk ∈ st.writes ∨ chunk.length ≤ dataChunk ∨ chunk = payload := by
  unfold appendBackendWriteLocked at h
  cases hlast : st.writes.getLast? with
  | none =>
      rw [List.getLast?_eq_none_iff.mp hlast] at h ⊢
      exact .inr (.inr (by simpa using h))
  | some last =>
      by_cases hroom : last.length + payload.length ≤ dataChunk
      · have hdefault : st.writes.getLastD [] = last := by
          rw [List.getLastD_eq_getLast?, hlast]
          rfl
        simp only [hlast, hroom, decide_true, if_true, hdefault] at h
        rcases List.mem_append.mp h with h | h
        · exact .inl (List.mem_of_mem_dropLast h)
        · rw [List.mem_singleton.mp h, List.length_append]
          exact .inr (.inl hroom)
      · simp only [hlast, hroom, decide_false, Bool.false_eq_true, if_false] at h
        rcases List.mem_append.mp h with h | h
        · exact .inl h
        · exact .inr (.inr (List.mem_singleton.mp h))

/-- DATA is appended, and its bytes leave the receive window. -/
theorem StreamState.Charged.data {st : StreamState} {h : Hand} (hst : st.Charged h)
    {payload : Bytes} (hroom : payload.length ≤ st.receiveWindow) :
    StreamState.Charged { (appendBackendWriteLocked st payload).1 with
      receiveWindow := subUint32 st.receiveWindow (toUint32 payload.length)
      writeNotify := true } h := by
  obtain ⟨items, hlength, hitems, hcost⟩ := appendBackendWriteLocked_counts st payload
  have hflatten : ((appendBackendWriteLocked st payload).1.writes.flatten).length =
      st.writes.flatten.length + payload.length := by
    rw [appendBackendWriteLocked_flatten, List.length_append]
  have hbytes : (appendBackendWriteLocked st payload).1.pendingWriteBytes =
      st.pendingWriteBytes + payload.length := rfl
  have hwindow := hst.window
  have hsub : subUint32 st.receiveWindow (toUint32 payload.length) =
      st.receiveWindow - payload.length := by
    unfold initialStreamWindow at hwindow
    unfold subUint32 toUint32
    omega
  refine ⟨?_, ?_, ?_, ?_, fun hlost => ?_⟩
  · dsimp only
    rw [hitems, hlength, hst.items]
    omega
  · dsimp only
    rw [hitems, hcost, hbytes, hst.cost, Nat.mul_add]
    omega
  · dsimp only
    rw [hsub, hbytes]
    omega
  · dsimp only
    rw [hflatten, hbytes]
    have := hst.bytes
    omega
  · dsimp only
    rw [hflatten, hbytes, hst.exact hlost]
    omega

/-! ### All streams of a session -/

/-- The streams of a session against what their writers have in their hands. -/
structure Held (h : ℕ → Hand) (σ : Traced) : Prop where
  streams : ∀ id st, σ.session.streams.get id = some st → st.Charged (h st.backend)
  fresh : ∀ b, σ.session.nextObject ≤ b → h b = .empty
  chunks : ∀ id st, σ.session.streams.get id = some st → ∀ chunk ∈ st.writes,
    chunk.length ≤ dataChunk ∨ .dataApplied id chunk ∈ σ.trace

namespace Held

variable {h : ℕ → Hand}

/-- Streams may go, and change but for what concerns their writers. -/
theorem keep (hH : Held h ⟨s, t⟩) (es : List Event) (hnext : s.nextObject ≤ s'.nextObject)
    (hstreams : ∀ id st', s'.streams.get id = some st' →
      ∃ st, s.streams.get id = some st ∧ SameWrites st st') : Held h ⟨s', t ++ es⟩ := by
  refine ⟨fun id st' hst' => ?_, fun b hb => hH.fresh b (hnext.trans hb),
    fun id st' hst' chunk hchunk => ?_⟩
  · obtain ⟨st, hst, hsame⟩ := hstreams id st' hst'
    rw [hsame.backend]
    exact hsame.charged (hH.streams id st hst)
  · obtain ⟨st, hst, hsame⟩ := hstreams id st' hst'
    rw [hsame.writes] at hchunk
    exact (hH.chunks id st hst chunk hchunk).imp_right fun hm => List.mem_append_left _ hm

theorem same (hH : Held h ⟨s, t⟩) (es : List Event) (hnext : s.nextObject ≤ s'.nextObject)
    (hstreams : s'.streams = s.streams) : Held h ⟨s', t ++ es⟩ :=
  hH.keep es hnext fun _ st hst => ⟨st, hstreams ▸ hst, .refl st⟩

theorem put (hH : Held h ⟨s, t⟩) (es : List Event) (hnext : s.nextObject ≤ s'.nextObject)
    {id : ℕ} {st' : StreamState} (hstreams : s'.streams = s.streams.put id st')
    (hst : st'.Charged (h st'.backend)) (hchunks : ∀ chunk ∈ st'.writes,
      chunk.length ≤ dataChunk ∨ .dataApplied id chunk ∈ t ++ es) : Held h ⟨s', t ++ es⟩ := by
  refine ⟨fun i st₁ hst₁ => ?_, fun b hb => hH.fresh b (hnext.trans hb),
    fun i st₁ hst₁ chunk hchunk => ?_⟩
  · rw [hstreams, Table.get_put] at hst₁
    split_ifs at hst₁ with hi
    · cases hst₁
      exact hst
    · exact hH.streams i st₁ hst₁
  · rw [hstreams, Table.get_put] at hst₁
    split_ifs at hst₁ with hi
    · cases hst₁
      exact hi ▸ hchunks chunk hchunk
    · exact (hH.chunks i st₁ hst₁ chunk hchunk).imp_right fun hm => List.mem_append_left _ hm

/-- One stream is written, and the hand of its backend, which is no other stream's. -/
theorem hold (hH : Held h ⟨s, t⟩) (es : List Event) {id b : ℕ} {st' : StreamState}
    {hand : Hand} (hstreams : s'.streams = s.streams.put id st')
    (hnext : s.nextObject = s'.nextObject) (hb : b < s.nextObject) (hbackend : st'.backend = b)
    (hother : ∀ i st, i ≠ id → s.streams.get i = some st → st.backend ≠ b)
    (hst : st'.Charged hand) (hchunks : ∀ chunk ∈ st'.writes,
      chunk.length ≤ dataChunk ∨ .dataApplied id chunk ∈ t) :
    Held (Function.update h b hand) ⟨s', t ++ es⟩ := by
  refine ⟨fun i st₁ hst₁ => ?_, fun b' hb' => ?_, fun i st₁ hst₁ chunk hchunk => ?_⟩
  · rw [hstreams, Table.get_put] at hst₁
    split_ifs at hst₁ with hi
    · cases hst₁
      rw [hbackend, Function.update_self]
      exact hst
    · rw [Function.update_of_ne (hother i st₁ hi hst₁)]
      exact hH.streams i st₁ hst₁
  · have hb'' : s.nextObject ≤ b' := hnext ▸ hb'
    rw [Function.update_of_ne (by omega)]
    exact hH.fresh b' hb''
  · rw [hstreams, Table.get_put] at hst₁
    split_ifs at hst₁ with hi
    · cases hst₁
      exact hi ▸ (hchunks chunk hchunk).imp_right fun hm => List.mem_append_left _ hm
    · exact (hH.chunks i st₁ hst₁ chunk hchunk).imp_right fun hm => List.mem_append_left _ hm

/-- The hand of a backend without a stream does not matter. -/
theorem drop (hH : Held h σ) {b : ℕ} (hand : Hand) (hb : b < σ.session.nextObject)
    (hnone : ∀ i st, σ.session.streams.get i = some st → st.backend ≠ b) :
    Held (Function.update h b hand) σ := by
  refine ⟨fun i st hst => ?_, fun b' hb' => ?_, hH.chunks⟩
  · rw [Function.update_of_ne (hnone i st hst)]
    exact hH.streams i st hst
  · rw [Function.update_of_ne (by omega)]
    exact hH.fresh b' hb'

end Held

theorem QueueResult.same {ty : FrameType} {id : ℕ} {payload : Bytes} {ok : Bool}
    (h : QueueResult s ty id payload es s' ok) :
    s'.streams = s.streams ∧ s.nextObject ≤ s'.nextObject :=
  ⟨h.idle.2.1, h.idle.2.2.ge⟩

/-- What is no exchange with a backend keeps the counters of the streams. -/
theorem Change.held {h : ℕ → Hand} {σ σ' : Traced} (hchange : Change scope σ σ')
    (hscope : scope.backends = false) (hH : Held h σ) : Held h σ' := by
  have hpure : ∀ {s s' : Session} {t : List Event}, Held h ⟨s, t⟩ →
      s.nextObject ≤ s'.nextObject → s'.streams = s.streams → Held h ⟨s', t⟩ := by
    intro s s' t hH hnext hstreams
    have hkept := hH.same [] hnext hstreams
    rwa [List.append_nil] at hkept
  have hset : ∀ (s : Session) (q : QueueRef) (d : Downlink),
      (s.setQueue q d).streams = s.streams ∧ s.nextObject ≤ (s.setQueue q d).nextObject := by
    intro s q d
    obtain ⟨down, lanes, released, he⟩ := s.setQueue_eq q d
    rw [he]
    exact ⟨rfl, Nat.le_refl _⟩
  cases hchange with
  | silent => exact hH.same _ (Nat.le_refl _) rfl
  | @openStream s t id =>
      refine hH.put _ (Nat.le_succ _) rfl ?_ (by simp [newStream])
      have hfresh : h s.nextObject = .empty := hH.fresh _ (Nat.le_refl _)
      show (newStream s.nextObject).Charged (h s.nextObject)
      rw [hfresh]
      exact newStream_charged _
  | @stream s t es id st st' _ hst hstep hscope' =>
      cases hstep with
      | @data payload hroom =>
          refine hH.put _ (Nat.le_refl _) rfl ((hH.streams id st hst).data hroom) ?_
          intro chunk hchunk
          rcases appendBackendWriteLocked_chunks hchunk with hold | hsize | rfl
          · exact (hH.chunks id st hst chunk hold).imp_right fun hm => List.mem_append_left _ hm
          · exact .inl hsize
          · exact .inr (by simp)
      | @window amount _ =>
          refine hH.put _ (Nat.le_refl _) rfl ?_ fun chunk hchunk =>
            (hH.chunks id st hst chunk hchunk).imp_right fun hm => List.mem_append_left _ hm
          have hsame : SameWrites st { st with
              sendCredit := addCredit st.sendCredit amount, creditNotify := true } :=
            ⟨rfl, rfl, rfl, rfl, rfl, rfl⟩
          exact hsame.charged (hH.streams id st hst)
      | finished => exact absurd (hscope'.2 rfl) (by simp [hscope])
      | popped => exact absurd (hscope'.2 rfl) (by simp [hscope])
  | drained _ _ _ _ _ _ _ hscope' => exact absurd hscope' (by simp [hscope])
  | read _ _ _ _ _ hscope' => exact absurd hscope'.1 (by simp [hscope])
  | queueClose _ _ _ hq _ _ _ => exact hH.same _ hq.same.2 hq.same.1
  | @endStream s t id st =>
      have hkept : Held h ⟨s.delStream id, t ++ []⟩ := by
        refine hH.keep [] (Nat.le_refl _) fun i st₁ hst₁ => ?_
        rw [Session.delStream_streams, Table.get_del] at hst₁
        split_ifs at hst₁
        exact ⟨st₁, hst₁, .refl st₁⟩
      rwa [List.append_nil] at hkept
  | rememberRoom => exact hH.same _ (Nat.le_refl _) rfl
  | rememberFull =>
      rw [List.append_assoc]
      exact hH.same _ (Nat.le_refl _) rfl
  | attend => exact hpure hH (hset _ _ _).2 (hset _ _ _).1
  | acknowledge => exact hpure hH (hset _ _ _).2 (hset _ _ _).1
  | deliver => exact hH.same _ (hset _ _ _).2 (hset _ _ _).1
  | @close s t =>
      refine ⟨fun id st hst => ?_, hH.fresh, fun id st hst => ?_⟩
      · rw [Table.get_nil] at hst
        cases hst
      · rw [Table.get_nil] at hst
        cases hst
  | batch => exact hH.same _ (Nat.le_refl _) rfl
  | @laneUplink s t _ id object f _ _ _ =>
      obtain ⟨lanes, released, he⟩ := s.modifyLane_eq id object f
      rw [he]
      exact hpure hH (Nat.le_refl _) rfl
  | createLane => exact hpure hH (Nat.le_succ _) rfl
  | newObject => exact hpure hH (Nat.le_succ _) rfl
  | _ => exact hpure hH (Nat.le_refl _) rfl

/-! ### The callbacks of a writer -/

/-- Backend `b` of stream `id` in a session: it owns that stream as long as it is live, and no
other. -/
structure Session.OwnedBy (s : Session) (id b : ℕ) : Prop where
  created : b < s.nextObject
  own : ∀ st, s.streams.get id = some st → st.backend = b
  other : ∀ i st, i ≠ id → s.streams.get i = some st → st.backend ≠ b
  ended : s.closed = true → ∀ i, s.streams.get i = none

/-- A writer whose stream has gone. -/
theorem Held.gone {h : ℕ → Hand} {id b : ℕ} (hH : Held h ⟨s, t⟩) (ho : s.OwnedBy id b)
    (hst : s.streams.get id = none) (hand : Hand) : Held (Function.update h b hand) ⟨s, t⟩ := by
  refine hH.drop hand ho.created fun i st hi => ?_
  by_cases he : i = id
  · subst he
    have hi' : s.streams.get i = some st := hi
    rw [hst] at hi'
    cases hi'
  · exact ho.other i st he hi

theorem StreamState.Charged.drain {st : StreamState} {left amount : ℕ}
    (hst : st.Charged (.chunk left)) (hle : amount ≤ left) :
    (st.drain amount).Charged (.chunk (left - amount)) ∧ (st.drain amount).Charged .lost := by
  have hitems := hst.items
  have hcost := hst.cost
  have hwindow := hst.window
  have hexact := hst.exact (by simp)
  simp only [Hand.left] at hexact
  have hdrained : st.pendingWriteCost - amount =
      st.pendingWriteBytes - amount + queueItemCost * st.pendingWriteItems := by
    rw [hcost]
    omega
  constructor
  · refine ⟨hitems, ?_, ?_, ?_, fun _ => ?_⟩
    · exact hdrained
    · show st.receiveWindow + amount + (st.pendingWriteBytes - amount) = initialStreamWindow
      omega
    · show st.writes.flatten.length + (left - amount) ≤ st.pendingWriteBytes - amount
      omega
    · show st.pendingWriteBytes - amount = st.writes.flatten.length + (left - amount)
      omega
  · refine ⟨hitems, ?_, ?_, ?_, fun hlost => absurd rfl hlost⟩
    · exact hdrained
    · show st.receiveWindow + amount + (st.pendingWriteBytes - amount) = initialStreamWindow
      omega
    · show st.writes.flatten.length + 0 ≤ st.pendingWriteBytes - amount
      omega

/-- The stream after its writer has finished a chunk. -/
def StreamState.finish (st : StreamState) : StreamState :=
  { st with
    pendingWriteItems := st.pendingWriteItems - 1
    pendingWriteCost := st.pendingWriteCost - queueItemCost }

theorem StreamState.finish_same (st : StreamState) :
    st.finish.backend = st.backend ∧ st.finish.writes = st.writes := by
  unfold StreamState.finish
  exact ⟨rfl, rfl⟩

theorem StreamState.Charged.finish {st : StreamState} (hst : st.Charged (.chunk 0)) :
    st.finish.Charged .empty := by
  have hitems := hst.items
  have hcost := hst.cost
  have hexact := hst.exact (by simp)
  simp only [Hand.items, Hand.left] at hitems hexact
  unfold StreamState.finish
  refine ⟨?_, ?_, ?_, ?_, fun _ => ?_⟩
  · dsimp only [Hand.items]
    omega
  · dsimp only
    rw [hcost, hitems, Nat.add_sub_cancel, Nat.mul_add]
    omega
  · exact hst.window
  · dsimp only [Hand.left]
    omega
  · dsimp only [Hand.left]
    omega

/-- **A report of written bytes is refused only where the stream has gone or its WINDOW cannot
be queued.** -/
theorem backendDrained_held {h : ℕ → Hand} {id b amount left : ℕ} (hH : Held h ⟨s, t⟩)
    (ho : s.OwnedBy id b) (hhand : h b = .chunk left) (hpos : 0 < amount) (hle : amount ≤ left) :
    wp observer (backendDrained s id amount) (fun t' r =>
      Held (Function.update h b (if r.2 then .chunk (left - amount) else .lost)) ⟨r.1, t'⟩ ∧
        (r.2 = false → s.streams.get id = none ∨
          t' = t ++ [.refused .window id (windowPayload amount)])) t := by
  unfold backendDrained
  cases hst : s.streams.get id with
  | none => exact ⟨hH.gone ho hst _, fun _ => .inl rfl⟩
  | some st =>
      have hbackend := ho.own st hst
      have hcharged : st.Charged (.chunk left) := by
        have := hH.streams id st hst
        rwa [hbackend, hhand] at this
      have hbytes := hcharged.exact (by simp)
      simp only [Hand.left] at hbytes
      dsimp only
      split_ifs with hbad
      · exfalso
        have hcost := hcharged.cost
        have hwindow := hcharged.window
        rcases hbad with hclosed | hbad
        · have hnone := ho.ended hclosed id
          rw [hst] at hnone
          cases hnone
        · omega
      · refine wp_seq (releasePendingLocked_obs _ _ _) ?_
        rintro t₁ s₁ ⟨rfl, cost, items, notify, rfl⟩
        refine wp_mono (queueFrameLocked_obs _ _ _ _) ?_
        rintro t₂ ⟨s₂, ok⟩ ⟨es, rfl, hq⟩
        obtain ⟨-, hstreams, hnext⟩ := hq.idle
        have hput : s₂.streams = s.streams.put id (st.drain amount) := by
          rw [hstreams]
          exact Table.put_put_self _ _ _ _
        obtain ⟨hchunk, hlost⟩ := hcharged.drain hle
        have hheld : ∀ hand : Hand, (st.drain amount).Charged hand →
            Held (Function.update h b hand) ⟨s₂, t₁ ++ es⟩ := by
          intro hand hcharge
          exact hH.hold es hput hnext.symm ho.created hbackend ho.other hcharge
            (hH.chunks id st hst)
        cases hq with
        | refused => exact ⟨hheld _ hlost, fun _ => .inr rfl⟩
        | accepted => exact ⟨hheld _ hchunk, fun hno => by cases hno⟩

/-- **The report of a whole chunk is refused only where the stream has gone.** -/
theorem backendWriteFinished_held {h : ℕ → Hand} {id b : ℕ} (hH : Held h ⟨s, t⟩)
    (ho : s.OwnedBy id b) (hhand : h b = .chunk 0) :
    wp observer (backendWriteFinished s id) (fun t' r =>
      Held (Function.update h b (if r.2 then .empty else .lost)) ⟨r.1, t'⟩ ∧
        (r.2 = false → s.streams.get id = none)) t := by
  unfold backendWriteFinished
  cases hst : s.streams.get id with
  | none => exact ⟨hH.gone ho hst _, fun _ => rfl⟩
  | some st =>
      have hbackend := ho.own st hst
      have hcharged : st.Charged (.chunk 0) := by
        have := hH.streams id st hst
        rwa [hbackend, hhand] at this
      have hitems := hcharged.items
      have hcost := hcharged.cost
      simp only [Hand.items] at hitems
      dsimp only
      split_ifs with hbad
      · exfalso
        rcases hbad with hclosed | hbad | hbad
        · have hnone := ho.ended hclosed id
          rw [hst] at hnone
          cases hnone
        · omega
        · rw [hcost, hitems, Nat.mul_add] at hbad
          omega
      · generalize (queueItemCost : ℤ) = cost
        refine wp_seq (releasePendingLocked_obs _ cost 1) ?_
        rintro t₁ s₁ ⟨rfl, cost', items', notify, rfl⟩
        refine ⟨?_, fun hno => by cases hno⟩
        have hput : ((s.putStream id st.finish).setPending cost' items' notify).streams =
            s.streams.put id st.finish := rfl
        rw [← List.append_nil t₁]
        obtain ⟨hsame, hwrites⟩ := st.finish_same
        refine hH.hold [] hput rfl ho.created (hsame.trans hbackend) ho.other hcharged.finish ?_
        rw [hwrites]
        exact hH.chunks id st hst

/-- A chunk goes from the queue into the hands of the writer. -/
theorem Held.chunk {h : ℕ → Hand} {id b : ℕ} {st : StreamState} {chunk : Bytes}
    {writes : List Bytes} (hH : Held h ⟨s, t⟩) (ho : s.OwnedBy id b) (hhand : h b = .empty)
    (hst : s.streams.get id = some st) (hwrites : st.writes = chunk :: writes) :
    Held (Function.update h b (.chunk chunk.length)) ⟨s.putStream id { st with writes }, t⟩ := by
  have hbackend := ho.own st hst
  have hcharged : st.Charged .empty := by
    have := hH.streams id st hst
    rwa [hbackend, hhand] at this
  have hitems := hcharged.items
  have hexact := hcharged.exact (by simp)
  rw [hwrites] at hitems hexact
  simp only [Hand.items, Hand.left, List.length_cons, List.flatten_cons, List.length_append]
    at hitems hexact
  have htaken : StreamState.Charged { st with writes } (.chunk chunk.length) := by
    refine ⟨?_, hcharged.cost, hcharged.window, ?_, fun _ => ?_⟩
    · show st.pendingWriteItems = writes.length + 1
      omega
    · show writes.flatten.length + chunk.length ≤ st.pendingWriteBytes
      omega
    · show st.pendingWriteBytes = writes.flatten.length + chunk.length
      omega
  rw [← List.append_nil t]
  have hsame : StreamState.backend { st with writes } = b := hbackend
  have hput : (s.putStream id { st with writes }).streams =
      s.streams.put id { st with writes } := rfl
  refine hH.hold [] hput rfl ho.created hsame ho.other htaken fun c hc => ?_
  refine hH.chunks id st hst c ?_
  rw [hwrites]
  exact List.mem_cons_of_mem _ hc

/-- DATA for the client does not concern the writer. -/
theorem backendData_held {h : ℕ → Hand} (hH : Held h ⟨s, t⟩) (id : ℕ) (data : Bytes) :
    wp observer (backendData s id data) (fun t' r => Held h ⟨r.1, t'⟩) t := by
  unfold backendData
  cases hst : s.streams.get id with
  | none => exact hH
  | some st =>
      dsimp only
      split_ifs
      · exact hH
      · refine wp_mono (queueFrameLocked_obs _ _ _ _) ?_
        rintro t₁ ⟨s₁, ok⟩ ⟨es, rfl, hq⟩
        refine hH.keep es hq.same.2 fun i st₁ hst₁ => ?_
        rw [hq.same.1, Session.putStream_streams, Table.get_put] at hst₁
        split_ifs at hst₁ with hi
        · cases hst₁
          subst hi
          exact ⟨st, hst, rfl, rfl, rfl, rfl, rfl, rfl⟩
        · exact ⟨st₁, hst₁, .refl st₁⟩

/-! ### A session with its writers -/

/-- Two backends of one id are the same where no id is opened twice. -/
theorem opened_unique (h : (opens t).Nodup) {id b b' : ℕ} (hb : .opened id b ∈ t)
    (hb' : .opened id b' ∈ t) : b = b' := by
  by_contra hne
  obtain ⟨t₀, t₁, rfl⟩ := List.append_of_mem hb
  have hsplit : opens (t₀ ++ .opened id b :: t₁) = opens t₀ ++ id :: opens t₁ :=
    opens_append t₀ _
  rw [hsplit, List.nodup_middle, List.nodup_cons] at h
  refine h.1 (List.mem_append.mpr ?_)
  rcases List.mem_append.mp hb' with hm | hm
  · exact .inl (mem_opens.mpr (.inl ⟨b', hm⟩))
  · rcases List.mem_cons.mp hm with hm | hm
    · cases hm
      exact absurd rfl hne
    · exact .inr (mem_opens.mpr (.inl ⟨b', hm⟩))

namespace BackendTraffic

variable {W W' : BackendTraffic} {run : List BackendTraffic} {id b : ℕ}

theorem Step.opens_nodup (h : Step sha256 W W') (honce : (opens W'.state.trace).Nodup) :
    (opens W.state.trace).Nodup := by
  obtain ⟨es, he⟩ := h.trace_prefix
  rw [he, opens_append] at honce
  exact List.Nodup.of_append_left honce

/-- Where no id is opened twice, no loop meets the stream of another backend. -/
theorem Reachable.orderly (h : Reachable sha256 limits carrier W)
    (honce : (opens W.state.trace).Nodup) : Orderly sha256 limits carrier W := by
  induction h with
  | start => exact .start
  | step _ hstep ih =>
      exact (ih (hstep.opens_nodup honce)).step_once hstep fun _ _ _ => opened_unique honce

theorem Invariant.ownedBy (h : W.Invariant) (hs : Sound limits carrier W.state)
    (honce : (opens W.state.trace).Nodup) (hb : .opened id b ∈ W.state.trace) :
    W.state.session.OwnedBy id b where
  created := h.owned.fresh id b hb
  own st hst :=
    opened_unique honce (h.owned.created id _ (h.owned.live id st hst).1) hb
  other i st hi hst he := by
    have howner := h.owned.created i _ (h.owned.live i st hst).1
    rw [he] at howner
    exact hi (h.owned.distinct i id b howner hb)
  ended := hs.ended

/-- The chunks that writers were given are within `dataChunk`, or payloads of their own. -/
def Sized (W : BackendTraffic) : Prop :=
  ∀ p ∈ W.taken, ∃ id, .opened id p.1 ∈ W.state.trace ∧
    (p.2.length ≤ dataChunk ∨ .dataApplied id p.2 ∈ W.state.trace)

theorem Sized.step (h : W.Sized) (hstep : Step sha256 W W') (htaken : W'.taken = W.taken) :
    W'.Sized := by
  obtain ⟨es, he⟩ := hstep.trace_prefix
  intro p hp
  rw [htaken] at hp
  obtain ⟨id, hopened, hsize⟩ := h p hp
  rw [he]
  exact ⟨id, List.mem_append_left _ hopened, hsize.imp_right fun hm => List.mem_append_left _ hm⟩

/-- The goroutine of a backend goes on as `g`. -/
theorem hand_call {g : Goroutines} {σ : Traced} {c : Section} {r : Reply} :
    hand (W.after b c r g σ :: W :: run) =
      Function.update (hand (W :: run)) b (g.hand (hand (W :: run) b)) := by
  refine hand_put fun i => ?_
  unfold goroutine after
  dsimp only
  rw [Table.get_put]
  split_ifs <;> rfl

/-- A call that leaves the writer of its backend as it was. -/
theorem hand_reader {g : Goroutines} {σ : Traced} {c : Section} {r : Reply}
    (h : ∀ before, g.hand before = (W.goroutine b).hand before) :
    hand (W.after b c r g σ :: W :: run) = hand (W :: run) := by
  rw [hand_call, h]
  have hsame : (W.goroutine b).hand (hand (W :: run) b) = hand (W :: run) b :=
    Goroutines.hand_hand _ _
  rw [hsame]
  exact Function.update_eq_self _ _

/-- **A callback keeps the counters of the streams**, and a report is refused only where the
stream has gone or its WINDOW cannot be queued. -/
theorem Invariant.held_call {c : Section} {r : Reply} {g : Goroutines} {σ : Traced}
    (h : W.Invariant) (hs : Sound limits carrier W.state)
    (honce : (opens W.state.trace).Nodup) (hH : Held (hand (W :: run)) W.state)
    (hb : .opened id b ∈ W.state.trace) (hcall : (W.goroutine b).Calls id b c r g)
    (hstep : TproxyServer.Step sha256 W.state c r σ) :
    Held (hand (W.after b c r g σ :: W :: run)) σ ∧
      (r = .flag false → (∃ amount, c = .backendDrained id amount) ∨
          c = .backendWriteFinished id →
        W.state.session.streams.get id = none ∨
          ∃ amount, σ.trace = W.state.trace ++ [.refused .window id (windowPayload amount)]) := by
  have ho := h.ownedBy hs honce hb
  have hidle : ∀ r', TproxyServer.Step sha256 W.state (.nextWrite id) (.write r') σ →
      (∀ data, r' ≠ .chunk data) → σ = W.state := by
    intro r' hstep hr
    obtain ⟨hses, htrace⟩ := hstep.of_nextWrite
    obtain ⟨s', t'⟩ := σ
    rw [show s' = W.state.session from nextWrite_idle hses hr, show t' = W.state.trace from htrace]
  have hhand : hand (W :: run) b = (W.goroutine b).hand (hand run b) := rfl
  have hreader := @hand_reader W run b g σ c r
  have hput := @hand_call W run b g σ c r
  generalize W.goroutine b = g₀ at hcall hhand hreader
  cases hcall with
  | @chunk reader data =>
      obtain ⟨hses, htrace⟩ := hstep.of_nextWrite
      obtain ⟨st, writes, hst, hwrites, hses'⟩ := nextWrite_chunk hses
      obtain ⟨s', t'⟩ := σ
      have ht' : t' = W.state.trace := htrace
      have hs' : s' = _ := hses'
      subst ht' hs'
      refine ⟨?_, by simp⟩
      rw [hput]
      exact hH.chunk ho hhand hst hwrites
  | parked =>
      refine ⟨?_, by simp⟩
      rw [hreader fun _ => rfl, hidle _ hstep (by simp)]
      exact hH
  | unwritten =>
      refine ⟨?_, by simp⟩
      rw [hput, hidle _ hstep (by simp)]
      have hempty : hand (W :: run) b = .empty := hhand
      have hsame : Function.update (hand (W :: run)) b .empty = hand (W :: run) := by
        conv_lhs => rw [← hempty]
        exact Function.update_eq_self _ _
      rw [hempty]
      show Held (Function.update (hand (W :: run)) b .empty) W.state
      rw [hsame]
      exact hH
  | @drained reader left amount hpos hle ok =>
      obtain ⟨hheld, hrefused⟩ :=
        hstep.of_flag rfl (backendDrained_held hH ho hhand hpos hle)
      have hheld' : Held (Function.update (hand (W :: run)) b
          (if ok then .chunk (left.length - amount) else .lost)) σ := hheld
      refine ⟨?_, fun hr _ => ?_⟩
      · rw [hput, hhand]
        cases ok with
        | true =>
            have hleft : (left.drop amount).length = left.length - amount := List.length_drop
            show Held (Function.update (hand (W :: run)) b (.chunk (left.drop amount).length)) σ
            rw [hleft]
            exact hheld'
        | false => exact hheld'
      · rcases hrefused (by simpa using hr) with hnone | htrace
        · exact .inl hnone
        · exact .inr ⟨amount, htrace⟩
  | @written reader ok =>
      obtain ⟨hheld, hrefused⟩ := hstep.of_flag rfl (backendWriteFinished_held hH ho hhand)
      have hheld' : Held (Function.update (hand (W :: run)) b
          (if ok then .empty else .lost)) σ := hheld
      refine ⟨?_, fun hr _ => .inl (hrefused (by simpa using hr))⟩
      rw [hput, hhand]
      cases ok with
      | true => exact hheld'
      | false => exact hheld'
  | @granted writer allowance =>
      refine ⟨?_, by simp⟩
      rw [hreader fun before => by cases writer <;> rfl, hstep.of_nextReadAllowance]
      exact hH
  | waiting =>
      refine ⟨?_, by simp⟩
      rw [hreader fun _ => rfl, hstep.of_nextReadAllowance]
      exact hH
  | @unread writer =>
      refine ⟨?_, by simp⟩
      rw [hreader fun before => by cases writer <;> rfl, hstep.of_nextReadAllowance]
      exact hH
  | @read writer allowance data _ _ ok =>
      refine ⟨?_, by simp⟩
      rw [hreader fun before => by cases writer <;> rfl]
      exact hstep.of_flag rfl (backendData_held hH id data)
  | undialled =>
      refine ⟨?_, by simp⟩
      have hsame := (hstep.changes hs).invariant (I := Held (hand (W :: run)))
        (fun hc hI => hc.held rfl hI) hH
      rw [hput, hhand]
      show Held (Function.update (hand (W :: run)) b .empty) σ
      rw [show Hand.empty = hand (W :: run) b from hhand.symm, Function.update_eq_self]
      exact hsame
  | closed =>
      refine ⟨?_, by simp⟩
      have hsame := (hstep.changes hs).invariant (I := Held (hand (W :: run)))
        (fun hc hI => hc.held rfl hI) hH
      rw [hreader fun _ => rfl]
      exact hsame

/-- A writer may end at any time. -/
theorem held_lose {h : ℕ → Hand} {σ : Traced} (hH : Held h σ) (b : ℕ) :
    Held (Function.update h b (h b).lose) σ := by
  have hlose : ∀ {st : StreamState} {before : Hand}, st.Charged before →
      st.Charged before.lose := by
    intro st before hst
    have hbytes := hst.bytes
    cases before with
    | empty => exact hst
    | lost => exact hst
    | chunk left =>
        refine ⟨hst.items, hst.cost, hst.window, ?_, fun hno => absurd rfl hno⟩
        show st.writes.flatten.length + 0 ≤ st.pendingWriteBytes
        omega
  refine ⟨fun id st hst => ?_, fun b' hb' => ?_, hH.chunks⟩
  · by_cases hb : st.backend = b
    · rw [hb, Function.update_self, ← hb]
      exact hlose (hH.streams id st hst)
    · rw [Function.update_of_ne hb]
      exact hH.streams id st hst
  · by_cases hb : b' = b
    · subst hb
      rw [Function.update_self, hH.fresh b' hb']
      rfl
    · rw [Function.update_of_ne hb]
      exact hH.fresh b' hb'

theorem held_turn {g : Goroutines} (hH : Held (hand (W :: run)) W.state)
    (h : (W.goroutine b).Turns g) :
    Held (hand ({ W with goroutines := W.goroutines.put b g } :: W :: run)) W.state := by
  rw [hand_put fun i => goroutine_put i]
  have hhand : hand (W :: run) b = (W.goroutine b).hand (hand run b) := rfl
  have hself : ∀ before : Hand, hand (W :: run) b = before →
      Held (Function.update (hand (W :: run)) b before) W.state := by
    rintro before rfl
    rw [Function.update_eq_self]
    exact hH
  generalize W.goroutine b = g₀ at h hhand
  cases h with
  | dialled => exact hself .empty hhand
  | writerEnds => exact held_lose hH b
  | @readerEnds writer reader =>
      refine hself _ ?_
      cases writer with
      | asking => exact hhand
      | writing => exact hhand
      | ended =>
          rw [hhand]
          exact (Goroutines.hand_hand (.running .ended reader) _).symm

structure Supplied (run : List BackendTraffic) (W : BackendTraffic) : Prop where
  held : Held (hand (W :: run)) W.state
  sized : W.Sized

theorem Supplied.step (hW : Reachable sha256 limits carrier W)
    (honce : (opens W'.state.trace).Nodup) (hI : Supplied run W) (hstep : Step sha256 W W') :
    Supplied (W :: run) W' := by
  have hs := hW.state.sound
  replace honce := hstep.opens_nodup honce
  have h := (hW.orderly honce).invariant
  cases hstep with
  | @client c r σ hc hcall =>
      have hscope : c.scope.backends = false := by
        cases c <;> first | rfl | cases hc
      have hsame : hand ({ W with state := σ } :: W :: run) = hand (W :: run) := hand_same rfl
      refine ⟨?_, hI.sized.step (.client hc hcall) rfl⟩
      rw [hsame]
      exact (hcall.changes hs).invariant (fun hchange hH => hchange.held hscope hH) hI.held
  | @call id b c r g σ hb hcall hrun =>
      refine ⟨(h.held_call hs honce hI.held hb hcall hrun).1, ?_⟩
      have hstep : Step sha256 W (W.after b c r g σ) := .call hb hcall hrun
      by_cases hchunk : ∃ data, r = .write (.chunk data)
      · obtain ⟨data, rfl⟩ := hchunk
        have hc : c = .nextWrite id := by
          generalize W.goroutine b = g₀ at hcall
          cases hcall
          rfl
        subst hc
        obtain ⟨hses, -⟩ := hrun.of_nextWrite
        obtain ⟨st, writes, hst, hwrites, -⟩ := nextWrite_chunk hses
        obtain ⟨es, he⟩ := hstep.trace_prefix
        have he' : σ.trace = W.state.trace ++ es := he
        intro p hp
        have hp' : p ∈ W.taken ++ [(b, data)] := hp
        show ∃ id, .opened id p.1 ∈ σ.trace ∧ (_ ∨ _ ∈ σ.trace)
        rw [he']
        rcases List.mem_append.mp hp' with hp' | hp'
        · obtain ⟨i, hopened, hsize⟩ := hI.sized p hp'
          exact ⟨i, List.mem_append_left _ hopened,
            hsize.imp_right fun hm => List.mem_append_left _ hm⟩
        · obtain rfl := List.mem_singleton.mp hp'
          refine ⟨id, List.mem_append_left _ hb, ?_⟩
          exact (hI.held.chunks id st hst data (by rw [hwrites]; simp)).imp_right
            fun hm => List.mem_append_left _ hm
      · refine hI.sized.step hstep ?_
        unfold after
        dsimp only
        split
        · next data => exact absurd ⟨data, rfl⟩ hchunk
        · rfl
  | @turn id b g hb hturn =>
      exact ⟨held_turn hI.held hturn, hI.sized⟩

theorem Run.supplied (h : Run sha256 limits carrier (W :: run))
    (honce : (opens W.state.trace).Nodup) : Supplied run W := by
  generalize hrun : W :: run = Ws at h
  induction h generalizing W run with
  | start =>
      cases hrun
      have hsession : ∀ id st, (newSession limits carrier).streams.get id ≠ some st := by
        intro id st
        unfold newSession
        split_ifs <;> simp
      exact ⟨⟨fun id st hst => absurd hst (hsession id st), fun _ _ => rfl,
        fun id st hst => absurd hst (hsession id st)⟩, by simp [Sized]⟩
  | @step W₁ W₂ rest hrest hstep ih =>
      cases hrun
      exact (ih (hstep.opens_nodup honce) rfl).step hrest.reachable honce hstep

/-- The bytes of each stream go to its writer in chunks, in order and none twice, as far as a
run has come. -/
structure UplinkIntegrity (sha256 : Bytes → Bytes) (run : List BackendTraffic)
    (W : BackendTraffic) : Prop where
  /-- What the writer was given and what is queued is what was applied. -/
  bytes : ∀ id st, W.state.session.streams.get id = some st →
    bytesOf W.taken st.backend ++ st.writes.flatten = appliedTo W.state.trace st.backend
  /-- After the end of its stream a writer has been given no more. -/
  past : ∀ b, bytesOf W.taken b <+: appliedTo W.state.trace b
  /-- Chunks in the queue and in the hands of writers. -/
  queued : ∀ id st, W.state.session.streams.get id = some st → ∀ chunk ∈ st.writes,
    chunk.length ≤ dataChunk ∨ .dataApplied id chunk ∈ W.state.trace
  sized : W.Sized
  items : ∀ id st, W.state.session.streams.get id = some st →
    st.pendingWriteItems = st.writes.length + (hand (W :: run) st.backend).items
  /-- A report of a writer is refused only where its stream has gone or its WINDOW cannot be
  queued. -/
  served : ∀ id b c g σ, .opened id b ∈ W.state.trace →
    (W.goroutine b).Calls id b c (.flag false) g →
    (∃ amount, c = .backendDrained id amount) ∨ c = .backendWriteFinished id →
    TproxyServer.Step sha256 W.state c (.flag false) σ →
      W.state.session.streams.get id = none ∨
        ∃ amount, σ.trace = W.state.trace ++ [.refused .window id (windowPayload amount)]

end BackendTraffic

/-- **Uplink byte-stream integrity**: in every run of a session with its backends in which no id
is opened twice. -/
theorem uplink_integrity {W : BackendTraffic} {run : List BackendTraffic}
    (h : BackendTraffic.Run sha256 limits carrier (W :: run))
    (honce : (opens W.state.trace).Nodup) : W.UplinkIntegrity sha256 run := by
  have hI := (h.reachable.orderly honce).invariant
  have hs := h.reachable.state.sound
  have hsupplied := h.supplied honce
  refine ⟨fun id st hst => (hI.owned.live id st hst).2, hI.owned.taken, hsupplied.held.chunks,
    hsupplied.sized, fun id st hst => (hsupplied.held.streams id st hst).items, ?_⟩
  intro id b c g σ hb hcall hreport hstep
  exact (hI.held_call hs honce hsupplied.held hb hcall hstep).2 rfl hreport

/-- A stream is opened and gets two payloads, which its writer takes as one chunk. -/
theorem uplink_integrity_joined : ∃ W run, BackendTraffic.Run id defaultLimits .https (W :: run) ∧
    bytesOf W.taken 0 = [7, 8] ∧ hand (W :: run) 0 = .chunk 2 ∧ W.UplinkIntegrity id run := by
  let body := encode .open 1 [] ++ encode .data 1 [7] ++ encode .data 1 [8]
  have hplay : ((attempt id ⟨newSession defaultLimits .https, []⟩
        (.processUpCommit 1 body) [true, true, true]).bind fun p =>
      (attempt id p.2 (.nextWrite 1) []).map fun q =>
        (decide (.opened 1 0 ∈ p.2.trace), opens q.2.trace, q.1)) =
      some (true, [1], .write (.chunk [7, 8])) := by
    decide +kernel
  obtain ⟨⟨r, σ₁⟩, h₁, hplay⟩ := Option.bind_eq_some_iff.mp hplay
  obtain ⟨⟨r', σ₂⟩, h₂, he⟩ := Option.map_eq_some_iff.mp hplay
  simp only [Prod.mk.injEq, decide_eq_true_eq] at he
  obtain ⟨hopened, hopens, rfl⟩ := he
  have hrun₁ := BackendTraffic.Run.start.step (.client (by rfl) (.attempt h₁))
  have hrun₂ := hrun₁.step (.turn (b := 0) hopened .dialled)
  have hrun₃ := hrun₂.step (.call (b := 0) hopened .chunk (.attempt h₂))
  refine ⟨_, _, hrun₃, rfl, rfl, uplink_integrity hrun₃ ?_⟩
  show (opens σ₂.trace).Nodup
  have hopens₂ : opens σ₂.trace = [1] := hopens
  rw [hopens₂]
  decide

end TproxyServer
