import TproxyServer.Ownership
import TproxyServer.BatchAgreement
import TproxyServer.Places

/-! # The goroutines of the backends

`backendStream.run` with its `writeLoop` and `readLoop`: a session together with the goroutines
of every backend it has created, which call back by the numeric id of their stream.

As long as no loop runs beside the stream of a later backend of its id, the streams do not mix
(`streams_never_mix`).  After an eviction an id can be opened while an old writer is still on its
way to `nextWrite`, and that writer gets the new stream's bytes. -/

namespace TproxyServer

open Interaction Prog

variable {limits : Limits} {carrier : CarrierMode} {sha256 : Bytes → Bytes}

/-- `writeLoop`; `left` is what is left to write of a chunk. -/
inductive Writer where
  | asking
  | writing (left : Bytes)
  | ended
deriving DecidableEq

/-- `readLoop`. -/
inductive Reader where
  | asking
  | reading (allowance : ℕ)
  | ended
deriving DecidableEq

/-- The goroutines of a `backendStream`. -/
inductive Goroutines where
  | dialling
  | running (writer : Writer) (reader : Reader)
  | finished
deriving DecidableEq

/-- The goroutines of backend `b` of stream `id` call a section, and go on with its reply. -/
inductive Goroutines.Calls (id b : ℕ) : Goroutines → Section → Reply → Goroutines → Prop
  | chunk {r : Reader} {data : Bytes} :
      Calls id b (.running .asking r) (.nextWrite id) (.write (.chunk data))
        (.running (.writing data) r)
  | parked {r : Reader} :
      Calls id b (.running .asking r) (.nextWrite id) (.write .parked) (.running .asking r)
  | unwritten {r : Reader} :
      Calls id b (.running .asking r) (.nextWrite id) (.write .ended) (.running .ended r)
  /-- `connection.Write` has written some bytes. -/
  | drained {r : Reader} {left : Bytes} {written : ℕ} (hpos : 0 < written)
      (hleft : written ≤ left.length) (ok : Bool) :
      Calls id b (.running (.writing left) r) (.backendDrained id written) (.flag ok)
        (.running (if ok then .writing (left.drop written) else .ended) r)
  | written {r : Reader} (ok : Bool) :
      Calls id b (.running (.writing []) r) (.backendWriteFinished id) (.flag ok)
        (.running (if ok then .asking else .ended) r)
  | granted {w : Writer} {allowance : ℕ} :
      Calls id b (.running w .asking) (.nextReadAllowance id) (.read (.granted allowance))
        (.running w (.reading allowance))
  | waiting {w : Writer} :
      Calls id b (.running w .asking) (.nextReadAllowance id) (.read .parked)
        (.running w .asking)
  | unread {w : Writer} :
      Calls id b (.running w .asking) (.nextReadAllowance id) (.read .ended)
        (.running w .ended)
  /-- `connection.Read` has read some bytes. -/
  | read {w : Writer} {allowance : ℕ} {data : Bytes} (hpos : data ≠ [])
      (hdata : data.length ≤ allowance) (ok : Bool) :
      Calls id b (.running w (.reading allowance)) (.backendData id data) (.flag ok)
        (.running w (if ok then .asking else .ended))
  /-- The dial has failed. -/
  | undialled : Calls id b .dialling (.backendClosed id b) .none .finished
  | closed : Calls id b (.running .ended .ended) (.backendClosed id b) .none .finished

/-- `writeLoop` or `readLoop` has not ended. -/
def Goroutines.Looping : Goroutines → Prop
  | .running writer reader => writer ≠ .ended ∨ reader ≠ .ended
  | _ => False

/-- What the goroutines of a backend do among themselves: the dial succeeds, and a loop ends
when its connection fails or its context is cancelled. -/
inductive Goroutines.Turns : Goroutines → Goroutines → Prop
  | dialled : Turns .dialling (.running .asking .asking)
  | writerEnds {w : Writer} {r : Reader} : Turns (.running w r) (.running .ended r)
  | readerEnds {w : Writer} {r : Reader} : Turns (.running w r) (.running w .ended)

/-- Sections that backends call. -/
def Section.ofBackend : Section → Bool
  | .nextWrite _ | .backendDrained _ _ | .backendWriteFinished _ | .nextReadAllowance _
  | .backendData _ _ | .backendClosed _ _ => true
  | _ => false

/-- A session with the goroutines of its backends. -/
structure BackendTraffic where
  state : Traced
  goroutines : Table ℕ Goroutines := .nil
  /-- What `nextWrite` returned, and to which backend. -/
  taken : List (ℕ × Bytes) := []
  /-- What `backendData` accepted, and from which backend. -/
  handed : List (ℕ × Bytes) := []

/-- The bytes of one backend in such a list. -/
def bytesOf (log : List (ℕ × Bytes)) (b : ℕ) : Bytes :=
  log.flatMap fun p => if p.1 = b then p.2 else []

namespace BackendTraffic

/-- The goroutines of a backend, which starts with its dial. -/
def goroutine (W : BackendTraffic) (b : ℕ) : Goroutines := (W.goroutines.get b).getD .dialling

/-- Backend `b` goes on as `g` after its call. -/
def after (W : BackendTraffic) (b : ℕ) (c : Section) (r : Reply) (g : Goroutines) (σ : Traced) :
    BackendTraffic where
  state := σ
  goroutines := W.goroutines.put b g
  taken := match r with
    | .write (.chunk data) => W.taken ++ [(b, data)]
    | _ => W.taken
  handed := match c, r with
    | .backendData _ data, .flag true => W.handed ++ [(b, data)]
    | _, _ => W.handed

/-- One thing happens. -/
inductive Step (sha256 : Bytes → Bytes) : BackendTraffic → BackendTraffic → Prop
  /-- A section that no backend calls. -/
  | client {W : BackendTraffic} {c : Section} {r : Reply} {σ : Traced}
      (hc : c.ofBackend = false) (h : TproxyServer.Step sha256 W.state c r σ) :
      Step sha256 W { W with state := σ }
  /-- A goroutine of backend `b` calls back. -/
  | call {W : BackendTraffic} {id b : ℕ} {c : Section} {r : Reply} {g : Goroutines} {σ : Traced}
      (hb : .opened id b ∈ W.state.trace) (hcall : (W.goroutine b).Calls id b c r g)
      (h : TproxyServer.Step sha256 W.state c r σ) : Step sha256 W (W.after b c r g σ)
  | turn {W : BackendTraffic} {id b : ℕ} {g : Goroutines}
      (hb : .opened id b ∈ W.state.trace) (h : (W.goroutine b).Turns g) :
      Step sha256 W { W with goroutines := W.goroutines.put b g }

/-- The states that a session with its backends can reach. -/
inductive Reachable (sha256 : Bytes → Bytes) (limits : Limits) (carrier : CarrierMode) :
    BackendTraffic → Prop
  | start : Reachable sha256 limits carrier { state := ⟨newSession limits carrier, []⟩ }
  | step {W W' : BackendTraffic} :
      Reachable sha256 limits carrier W → Step sha256 W W' →
      Reachable sha256 limits carrier W'

/-- The step from `W` to `W'` brings no loop together with the stream of another backend. -/
structure KeepsApart (W W' : BackendTraffic) : Prop where
  /-- An OPEN that is admitted finds no loop of an earlier backend of its id at work. -/
  opens : ∀ id b b', .opened id b ∈ W.state.trace → (W.goroutine b).Looping →
    .opened id b' ∈ W'.state.trace → .opened id b' ∈ W.state.trace
  /-- A dial that succeeds finds no stream of another backend under its id. -/
  dials : ∀ id b st, .opened id b ∈ W.state.trace → W.goroutine b = .dialling →
    (W'.goroutine b).Looping → W.state.session.streams.get id = some st → st.backend = b

/-- The runs in which no OPEN is admitted for an id while a loop of an earlier backend of that id
is at work, and in which the dial of a backend whose id has been opened again does not succeed. -/
inductive Orderly (sha256 : Bytes → Bytes) (limits : Limits) (carrier : CarrierMode) :
    BackendTraffic → Prop
  | start : Orderly sha256 limits carrier { state := ⟨newSession limits carrier, []⟩ }
  | step {W W' : BackendTraffic} :
      Orderly sha256 limits carrier W → Step sha256 W W' → KeepsApart W W' →
      Orderly sha256 limits carrier W'

/-- Bytes go from a stream to its own backend and back, and a callback touches no stream but
that of its backend. -/
structure NeverMixed (sha256 : Bytes → Bytes) (W : BackendTraffic) : Prop where
  taken : ∀ b, bytesOf W.taken b <+: appliedTo W.state.trace b
  handed : ∀ b, sentFor W.state.trace b = bytesOf W.handed b
  callbacks : ∀ id b c r g σ, .opened id b ∈ W.state.trace →
    (W.goroutine b).Calls id b c r g → c ≠ .backendClosed id b →
    TproxyServer.Step sha256 W.state c r σ →
    ∀ i st, W.state.session.streams.get i = some st → st.backend ≠ b →
      σ.session.streams.get i = some st

/-! ### The invariant -/

structure Invariant (W : BackendTraffic) : Prop where
  owned : Owned (bytesOf W.taken) W.state
  handed : ∀ b, sentFor W.state.trace b = bytesOf W.handed b
  /-- A backend that is past its dial has been created. -/
  created : ∀ b, W.goroutine b ≠ .dialling → ∃ id, .opened id b ∈ W.state.trace
  /-- The stream that a loop finds under the id of its backend is its own. -/
  own : ∀ id b st, .opened id b ∈ W.state.trace → (W.goroutine b).Looping →
    W.state.session.streams.get id = some st → st.backend = b

variable {W W' : BackendTraffic} {id b : ℕ} {c : Section} {r : Reply} {g : Goroutines}
  {σ : Traced}

theorem bytesOf_append (log : List (ℕ × Bytes)) (b' : ℕ) (data : Bytes) :
    bytesOf (log ++ [(b', data)]) b = bytesOf log b ++ if b' = b then data else [] := by
  simp [bytesOf]

theorem bytesOf_update (log : List (ℕ × Bytes)) (b' : ℕ) (data : Bytes) :
    bytesOf (log ++ [(b', data)]) = Function.update (bytesOf log) b' (bytesOf log b' ++ data) := by
  funext b
  rw [bytesOf_append]
  by_cases hb : b' = b
  · subst hb
    rw [if_pos rfl, Function.update_self]
  · rw [if_neg hb, Function.update_of_ne (Ne.symm hb), List.append_nil]

end BackendTraffic

/-- Loops make every call but the last. -/
theorem Goroutines.Calls.looping {id b : ℕ} {c : Section} {r : Reply} {g g' : Goroutines}
    (h : g.Calls id b c r g') (hc : c ≠ .backendClosed id b) : g.Looping := by
  cases h with
  | undialled => exact absurd rfl hc
  | closed => exact absurd rfl hc
  | _ => simp [Goroutines.Looping]

theorem Goroutines.Calls.looped {id b : ℕ} {c : Section} {r : Reply} {g g' : Goroutines}
    (h : g.Calls id b c r g') (hg : g'.Looping) : g.Looping := by
  by_cases hc : c = .backendClosed id b
  · subst hc
    cases h <;> exact hg.elim
  · exact h.looping hc

/-- Only a dial starts loops. -/
theorem Goroutines.Turns.looped {g g' : Goroutines} (h : g.Turns g') (hg : g'.Looping) :
    g = .dialling ∨ g.Looping := by
  cases h with
  | dialled => exact .inl rfl
  | writerEnds => exact .inr (.inr (hg.resolve_left (absurd rfl)))
  | readerEnds => exact .inr (.inl (hg.resolve_right (absurd rfl)))

/-- What a change makes of a stream that stays live. -/
inductive StreamState.Next (scope : Scope) (st : StreamState) : StreamState → Prop
  | same : Next scope st st
  | step {id : ℕ} {es : List Event} {st' : StreamState} (h : StreamStep id st es st') :
      Next scope st st'
  | drained (amount : ℕ) : Next scope st (st.drain amount)
  | read {data : Bytes} (h : scope.reads = some data) :
      Next scope st { st with sendCredit := st.sendCredit - data.length }

theorem StreamState.Next.backend {scope : Scope} {st st' : StreamState} (h : st.Next scope st') :
    st.backend = st'.backend := by
  cases h with
  | step h => cases h <;> rfl
  | _ => rfl

/-- A stream that is live after a change was live before, or it is new. -/
theorem Change.next_of_live {scope : Scope} {σ σ' : Traced} (h : Change scope σ σ') {id : ℕ}
    {st' : StreamState} (hst' : σ'.session.streams.get id = some st') :
    (∃ st, σ.session.streams.get id = some st ∧ st.Next scope st') ∨
      st' = newStream σ.session.nextObject := by
  have hput : ∀ {s s' : Session} {i : ℕ} {st st₁ : StreamState}, s.streams.get i = some st →
      s'.streams = s.streams.put i st₁ → st.Next scope st₁ → s'.streams.get id = some st' →
      ∃ st, s.streams.get id = some st ∧ st.Next scope st' := by
    intro s s' i st st₁ hst hstreams hnext hst'
    rw [hstreams, Table.get_put] at hst'
    split_ifs at hst' with hi
    · cases hst'
      exact ⟨st, hi ▸ hst, hnext⟩
    · exact ⟨st', hst', .same⟩
  have hset : ∀ (s : Session) (q : QueueRef) (d : Downlink),
      (s.setQueue q d).streams.get id = some st' →
      ∃ st, s.streams.get id = some st ∧ st.Next scope st' := by
    intro s q d hst'
    obtain ⟨down, lanes, released, he⟩ := s.setQueue_eq q d
    rw [he] at hst'
    exact ⟨st', hst', .same⟩
  cases h with
  | @openStream s t i =>
      have hst₁ : (s.streams.put i (newStream s.nextObject)).get id = some st' := hst'
      rw [Table.get_put] at hst₁
      split_ifs at hst₁
      · cases hst₁
        exact .inr rfl
      · exact .inl ⟨st', hst₁, .same⟩
  | stream _ hst h _ => exact .inl (hput hst rfl (.step h) hst')
  | drained _ hst _ _ _ _ h _ => exact .inl (hput hst h.idle.2.1 (.drained _) hst')
  | read _ hst _ _ h hscope => exact .inl (hput hst h.idle.2.1 (.read hscope.2) hst')
  | queueClose _ _ _ h _ _ _ =>
      rw [h.idle.2.1] at hst'
      exact .inl ⟨st', hst', .same⟩
  | endStream =>
      rw [Session.delStream_streams, Table.get_del] at hst'
      split_ifs at hst'
      exact .inl ⟨st', hst', .same⟩
  | attend => exact .inl (hset _ _ _ hst')
  | acknowledge => exact .inl (hset _ _ _ hst')
  | deliver => exact .inl (hset _ _ _ hst')
  | close => cases (Table.get_nil id).symm.trans hst'
  | @laneUplink s t _ i object f =>
      obtain ⟨lanes, released, he⟩ := s.modifyLane_eq i object f
      rw [he] at hst'
      exact .inl ⟨st', hst', .same⟩
  | _ => exact .inl ⟨st', hst', .same⟩

/-- A stream has its backend from the beginning: one that is live after changes was live with the
same backend, or its backend is new. -/
theorem Changes.backend_of_live {scope : Scope} {σ σ' : Traced} (h : Changes scope σ σ') {id : ℕ}
    {st' : StreamState} (hst' : σ'.session.streams.get id = some st') :
    (∃ st, σ.session.streams.get id = some st ∧ st.backend = st'.backend) ∨
      σ.session.nextObject ≤ st'.backend := by
  induction h generalizing st' with
  | refl => exact .inl ⟨st', hst', rfl⟩
  | tail hs hchange ih =>
      rcases hchange.next_of_live hst' with ⟨st, hst, hnext⟩ | rfl
      · rw [← hnext.backend]
        exact ih hst
      · exact .inr (Changes.nextObject_mono hs)

/-! ### Steps of callbacks -/

section
variable {σ σ' : Traced} {id : ℕ}

theorem Step.of_nextWrite {r : WriteReply} (h : Step sha256 σ (.nextWrite id) (.write r) σ') :
    (σ'.session, r) = nextWrite σ.session id ∧ σ'.trace = σ.trace := by
  refine @Step.of_wp _ _ _ _ _ h (fun t p => ∀ r', p.2 = .write r' →
    (p.1, r') = nextWrite σ.session id ∧ t = σ.trace) (fun _ => ?_) r rfl
  intro r' he
  cases he
  exact ⟨rfl, rfl⟩

theorem Step.of_nextReadAllowance {r : ReadReply}
    (h : Step sha256 σ (.nextReadAllowance id) (.read r) σ') : σ' = σ := by
  cases h with
  | run _ hr =>
      cases hr
      rw [List.append_nil]

/-- What is proved of a callback that returns whether it succeeded. -/
theorem Step.of_flag {ok : Bool} {c : Section} {act : Act (Session × Bool)}
    (h : Step sha256 σ c (.flag ok) σ')
    (hexec : c.exec sha256 σ.session = act >>= fun r => pure (r.1, .flag r.2))
    {post : List Event → Session × Bool → Prop} (hw : wp observer act post σ.trace) :
    post σ'.trace (σ'.session, ok) := by
  refine @Step.of_wp _ _ _ _ _ h (fun t p => ∀ r', p.2 = .flag r' → post t (p.1, r'))
    (fun _ => ?_) ok rfl
  rw [hexec]
  refine wp_seq hw ?_
  intro t' a ha r' he
  cases he
  exact ha

theorem nextWrite_chunk {s s' : Session} {data : Bytes}
    (h : (s', .chunk data) = nextWrite s id) : ∃ st writes, s.streams.get id = some st ∧
      st.writes = data :: writes ∧ s' = s.putStream id { st with writes } := by
  unfold nextWrite at h
  split_ifs at h
  · cases h
  cases hst : s.streams.get id with
  | none =>
      rw [hst] at h
      cases h
  | some st =>
      rw [hst] at h
      cases hw : st.writes with
      | nil =>
          simp only [hw] at h
          cases h
      | cons chunk writes =>
          simp only [hw] at h
          cases h
          exact ⟨st, writes, rfl, hw, rfl⟩

theorem nextWrite_idle {s s' : Session} {r : WriteReply} (h : (s', r) = nextWrite s id)
    (hr : ∀ data, r ≠ .chunk data) : s' = s := by
  unfold nextWrite at h
  split_ifs at h
  · cases h
    rfl
  cases hst : s.streams.get id with
  | none =>
      rw [hst] at h
      cases h
      rfl
  | some st =>
      rw [hst] at h
      cases hw : st.writes with
      | nil =>
          simp only [hw] at h
          cases h
          rfl
      | cons chunk writes =>
          simp only [hw] at h
          cases h
          exact absurd rfl (hr chunk)

end

namespace BackendTraffic

variable {W W' : BackendTraffic} {id b : ℕ} {c : Section} {r : Reply} {g : Goroutines}
  {σ : Traced}

theorem goroutine_put (i : ℕ) : ({ W with goroutines := W.goroutines.put b g } :
    BackendTraffic).goroutine i = if i = b then g else W.goroutine i := by
  unfold goroutine
  dsimp only
  rw [Table.get_put]
  split_ifs <;> rfl

/-- What a callback other than `backendClosed` does. -/
structure Served (W W' : BackendTraffic) (id : ℕ) : Prop where
  owned : Owned (bytesOf W'.taken) W'.state
  handed : ∀ b, sentFor W'.state.trace b = bytesOf W'.handed b
  touches : Touches id W.state.session W'.state.session

/-- A callback leaves every byte with its owner. -/
theorem Invariant.served (h : W.Invariant) (hb : .opened id b ∈ W.state.trace)
    (hcall : (W.goroutine b).Calls id b c r g) (hc : c ≠ .backendClosed id b)
    (hstep : TproxyServer.Step sha256 W.state c r σ) : W.Served (W.after b c r g σ) id := by
  have hown : ∀ st, W.state.session.streams.get id = some st → st.backend = b :=
    fun st hst => h.own id b st hb (hcall.looping hc) hst
  have hsame : ∀ W' : BackendTraffic, W'.state = W.state → W'.taken = W.taken →
      W'.handed = W.handed → W.Served W' id := by
    intro W' hstate htaken hhanded
    refine ⟨?_, ?_, ?_⟩
    · rw [hstate, htaken]
      exact h.owned
    · rw [hstate, hhanded]
      exact h.handed
    · rw [hstate]
      exact .refl id _
  have hidle : ∀ r', TproxyServer.Step sha256 W.state (.nextWrite id) (.write r') σ →
      (∀ data, r' ≠ .chunk data) → σ = W.state := by
    intro r' hstep hr
    obtain ⟨hs, ht⟩ := hstep.of_nextWrite
    obtain ⟨s', t'⟩ := σ
    rw [show s' = W.state.session from nextWrite_idle hs hr, show t' = W.state.trace from ht]
  generalize W.goroutine b = g₀ at hcall
  cases hcall with
  | @chunk reader data =>
      obtain ⟨hs, ht⟩ := hstep.of_nextWrite
      obtain ⟨st, writes, hst, hwrites, hput⟩ := nextWrite_chunk hs
      obtain rfl := hown st hst
      obtain ⟨s', t'⟩ := σ
      have ht' : t' = W.state.trace := ht
      have hput' : s' = _ := hput
      subst ht' hput'
      refine ⟨?_, h.handed, .put rfl⟩
      show Owned (bytesOf (W.taken ++ [(st.backend, data)])) _
      rw [bytesOf_update]
      exact h.owned.chunk hst hwrites
  | parked => exact hsame _ (hidle _ hstep (by simp)) rfl rfl
  | unwritten => exact hsame _ (hidle _ hstep (by simp)) rfl rfl
  | @drained reader left amount _ _ ok =>
      obtain ⟨howned, hsent, htouches⟩ :=
        hstep.of_flag rfl (backendDrained_owned h.owned id amount)
      exact ⟨howned, fun b' => (hsent b').trans (h.handed b'), htouches⟩
  | written =>
      obtain ⟨howned, hsent, htouches⟩ :=
        hstep.of_flag rfl (backendWriteFinished_owned h.owned id)
      exact ⟨howned, fun b' => (hsent b').trans (h.handed b'), htouches⟩
  | granted => exact hsame _ hstep.of_nextReadAllowance rfl rfl
  | waiting => exact hsame _ hstep.of_nextReadAllowance rfl rfl
  | unread => exact hsame _ hstep.of_nextReadAllowance rfl rfl
  | @read writer allowance data _ _ ok =>
      obtain ⟨howned, htouches, hsent⟩ := hstep.of_flag rfl (backendData_owned h.owned id data)
      rcases hsent with ⟨rfl, hsent⟩ | ⟨rfl, st, hst, hsent⟩
      · exact ⟨howned, fun b' => (hsent b').trans (h.handed b'), htouches⟩
      · obtain rfl := hown st hst
        refine ⟨howned, fun b' => ?_, htouches⟩
        show sentFor σ.trace b' = bytesOf (W.handed ++ [(st.backend, data)]) b'
        rw [bytesOf_append, ← h.handed]
        exact hsent b'
  | undialled => exact absurd rfl hc
  | closed => exact absurd rfl hc

/-- Sections that no backend calls, and the end of a backend, leave every byte with its owner. -/
theorem Invariant.apart_bytes (h : W.Invariant) (hs : Sound limits carrier W.state)
    (hc : c.scope.backends = false) (hstep : TproxyServer.Step sha256 W.state c r σ) :
    Owned (bytesOf W.taken) σ ∧ ∀ b, sentFor σ.trace b = bytesOf W.handed b := by
  have hchanges := hstep.changes hs
  refine hchanges.invariant (I := fun τ => Owned (bytesOf W.taken) τ ∧
    ∀ b, sentFor τ.trace b = bytesOf W.handed b) ?_ ⟨h.owned, h.handed⟩
  intro σ₁ σ₂ hchange hI
  obtain ⟨howned, hsent⟩ := hchange.owned hc hI.1
  exact ⟨howned, fun b => (hsent b).trans (hI.2 b)⟩

theorem Reachable.state (h : Reachable sha256 limits carrier W) :
    TproxyServer.Reachable sha256 limits carrier W.state := by
  induction h with
  | start => exact .start
  | step _ hs ih =>
      cases hs with
      | client _ h => exact ih.step h
      | call _ _ h => exact ih.step h
      | turn => exact ih

theorem Orderly.reachable (h : Orderly sha256 limits carrier W) :
    Reachable sha256 limits carrier W := by
  induction h with
  | start => exact .start
  | step _ hs _ ih => exact ih.step hs

/-- Backends that have been created stay so, and only such a backend moves on. -/
theorem Invariant.still_created (h : W.Invariant) (hb : .opened id b ∈ W.state.trace)
    (hgrow : ∀ e ∈ W.state.trace, e ∈ W'.state.trace)
    (hput : W'.goroutines = W.goroutines.put b g) (i : ℕ) (hi : W'.goroutine i ≠ .dialling) :
    ∃ id, .opened id i ∈ W'.state.trace := by
  by_cases he : i = b
  · subst he
    exact ⟨id, hgrow _ hb⟩
  · unfold goroutine at hi
    rw [hput, Table.get_put_ne _ _ he] at hi
    obtain ⟨i', hm⟩ := h.created i hi
    exact ⟨i', hgrow _ hm⟩

/-- **Every loop keeps its own stream** where a section runs: a stream that is live afterwards was
live before, or it has been opened since, and then no loop of its id was at work. -/
theorem Invariant.still_own {scope : Scope} (h : W.Invariant) (horder : W.KeepsApart W')
    (hchanges : Changes scope W.state W'.state) (howned : Owned (bytesOf W'.taken) W'.state)
    (hlooped : ∀ b, (W'.goroutine b).Looping → (W.goroutine b).Looping) (id b : ℕ)
    (st' : StreamState) (hb : .opened id b ∈ W'.state.trace) (hloop : (W'.goroutine b).Looping)
    (hst' : W'.state.session.streams.get id = some st') : st'.backend = b := by
  have hbefore := hlooped b hloop
  have hold : .opened id b ∈ W.state.trace := by
    obtain ⟨i, hi⟩ := h.created b fun he => by simp [he, Goroutines.Looping] at hbefore
    rwa [howned.distinct id i b hb (hchanges.trace_mono hi)]
  rcases hchanges.backend_of_live hst' with ⟨st, hst, hbackend⟩ | hnew
  · rw [← hbackend]
    exact h.own id b st hold hbefore hst
  · have hlive := howned.created id _ (howned.live id st' hst').1
    exact absurd (h.owned.fresh id _ (horder.opens id b _ hold hbefore hlive)) hnew.not_gt

theorem after_looped (hcall : (W.goroutine b).Calls id b c r g) (i : ℕ)
    (hi : ((W.after b c r g σ).goroutine i).Looping) : (W.goroutine i).Looping := by
  have hput : (W.after b c r g σ).goroutine i = if i = b then g else W.goroutine i :=
    goroutine_put i
  rw [hput] at hi
  split_ifs at hi with he
  · exact he ▸ hcall.looped hi
  · exact hi

/-- Loops start where a dial succeeds, and that finds no stream of another backend. -/
theorem Invariant.turn (h : W.Invariant) (hb : .opened id b ∈ W.state.trace)
    (hturn : (W.goroutine b).Turns g)
    (horder : W.KeepsApart { W with goroutines := W.goroutines.put b g }) :
    Invariant { W with goroutines := W.goroutines.put b g } := by
  refine ⟨h.owned, h.handed, h.still_created hb (fun _ he => he) rfl, ?_⟩
  intro i b' st hb' hloop hst
  have hput : ({ W with goroutines := W.goroutines.put b g } :
    BackendTraffic).goroutine b' = if b' = b then g else W.goroutine b' := goroutine_put b'
  by_cases he : b' = b
  · rw [hput, if_pos he] at hloop
    subst he
    rcases hturn.looped hloop with hdial | hbefore
    · exact horder.dials i b' st hb' hdial (by rwa [hput, if_pos rfl]) hst
    · exact h.own i b' st hb' hbefore hst
  · rw [hput, if_neg he] at hloop
    exact h.own i b' st hb' hloop hst

theorem Orderly.invariant (h : Orderly sha256 limits carrier W) : W.Invariant := by
  induction h with
  | start =>
      have hsession : ∀ id st, (newSession limits carrier).streams.get id ≠ some st := by
        intro id st
        unfold newSession
        split_ifs <;> simp
      refine ⟨⟨by simp, by simp, by simp [owner, ownersFrom], by simp, fun id st hst =>
        absurd hst (hsession id st), fun b => ?_⟩, fun b => rfl, ?_, by simp⟩
      · exact List.prefix_refl _
      · exact fun b hb => absurd rfl hb
  | @step W W' hW hstep horder ih =>
      have hs := hW.reachable.state.sound
      cases hstep with
      | @client c r σ hc hstep =>
          have hscope : c.scope.backends = false := by
            cases c <;> first | rfl | cases hc
          have hchanges := hstep.changes hs
          obtain ⟨howned, hsent⟩ := ih.apart_bytes hs hscope hstep
          refine ⟨howned, hsent, fun b hb => ?_, ?_⟩
          · obtain ⟨id, hm⟩ := ih.created b hb
            exact ⟨id, hchanges.trace_mono hm⟩
          · exact ih.still_own horder hchanges howned fun _ hloop => hloop
      | @call id b c r g σ hb hcall hstep =>
          have hchanges := hstep.changes hs
          have hcreated : ∀ i, (W.after b c r g σ).goroutine i ≠ .dialling →
              ∃ id, .opened id i ∈ (W.after b c r g σ).state.trace :=
            ih.still_created hb (fun _ => hchanges.trace_mono) rfl
          by_cases hc : c = .backendClosed id b
          · subst hc
            obtain ⟨howned, hsent⟩ := ih.apart_bytes hs rfl hstep
            have hr : r = .none := by
              generalize W.goroutine b = g₀ at hcall
              cases hcall <;> rfl
            subst hr
            exact ⟨howned, hsent, hcreated,
              ih.still_own horder hchanges howned (after_looped hcall)⟩
          · have hserved := ih.served hb hcall hc hstep
            exact ⟨hserved.owned, hserved.handed, hcreated,
              ih.still_own horder hchanges hserved.owned (after_looped hcall)⟩
      | turn hb hturn => exact ih.turn hb hturn horder

theorem Step.trace_prefix (h : Step sha256 W W') : ∃ es, W'.state.trace = W.state.trace ++ es := by
  have hstep : ∀ {σ σ' : Traced} {c : Section} {r : Reply}, TproxyServer.Step sha256 σ c r σ' →
      ∃ es, σ'.trace = σ.trace ++ es := by
    intro σ σ' c r hs
    cases hs with
    | run => exact ⟨_, rfl⟩
  cases h with
  | client _ h => exact hstep h
  | call _ _ h => exact hstep h
  | turn => exact ⟨[], (List.append_nil _).symm⟩

/-- Where no id has a second backend, every step keeps them apart. -/
theorem Orderly.step_once (h : Orderly sha256 limits carrier W) (hstep : Step sha256 W W')
    (honce : ∀ id b b', .opened id b ∈ W'.state.trace → .opened id b' ∈ W'.state.trace →
      b = b') : Orderly sha256 limits carrier W' := by
  obtain ⟨es, hes⟩ := hstep.trace_prefix
  have hgrow : ∀ e ∈ W.state.trace, e ∈ W'.state.trace :=
    fun e he => hes ▸ List.mem_append_left es he
  refine h.step hstep ⟨fun id b b' hb _ hb' => ?_, fun id b st hb _ _ hst => ?_⟩
  · rwa [← honce id b b' (hgrow _ hb) hb']
  · have howned := h.invariant.owned
    have hlive := howned.created id _ (howned.live id st hst).1
    exact honce id _ _ (hgrow _ hlive) (hgrow _ hb)

end BackendTraffic

variable {W : BackendTraffic}

/-- **Streams never mix**, in every state of every run whose steps bring no loop together with the
stream of another backend. -/
theorem streams_never_mix (h : BackendTraffic.Orderly sha256 limits carrier W) :
    W.NeverMixed sha256 := by
  have hI := h.invariant
  refine ⟨hI.owned.taken, hI.handed, fun id b c r g σ hb hcall hc hstep i st hst hne => ?_⟩
  have htouches := (hI.served hb hcall hc hstep).touches
  have hi : i ≠ id := by
    rintro rfl
    exact hne (hI.own i b st hb (hcall.looping hc) hst)
  exact (htouches i hi).trans hst

/-- Sections that no backend calls, played one after the other. -/
theorem BackendTraffic.Reachable.play {σ : Traced} {script : List (Section × List Bool)}
    (h : BackendTraffic.Reachable sha256 limits carrier W)
    (hs : ∀ x ∈ script, x.1.ofBackend = false) (hp : play sha256 W.state script = some σ) :
    BackendTraffic.Reachable sha256 limits carrier { W with state := σ } := by
  induction script generalizing W with
  | nil =>
      cases hp
      exact h
  | cons entry rest ih =>
      obtain ⟨p, hattempt, hrest⟩ := Option.bind_eq_some_iff.mp hp
      have hstep := h.step (.client (hs entry (by simp)) (.attempt hattempt))
      have hreached := ih hstep (fun x hx => hs x (by simp [hx])) hrest
      exact hreached

def upCalls (sequence : ℕ) (body : Bytes) (answers : List Bool) : List (Section × List Bool) :=
  [(.processUpBegin sequence body, []), (.processUpCommit sequence body, answers)]

theorem upCalls_ofBackend (sequence : ℕ) (body : Bytes) (answers : List Bool) :
    ∀ x ∈ upCalls sequence body answers, x.1.ofBackend = false := by
  simp [upCalls, Section.ofBackend]

/-- A stream is opened and gets a byte, which its writer takes. -/
theorem streams_never_mix_chunk : ∃ W, BackendTraffic.Orderly id defaultLimits .https W ∧
    bytesOf W.taken 0 = [7] ∧ W.NeverMixed id := by
  let body := encode .open 1 [] ++ encode .data 1 [7]
  have hplay : ((attempt id ⟨newSession defaultLimits .https, []⟩
        (.processUpCommit 1 body) [true, true]).bind fun p =>
      (attempt id p.2 (.nextWrite 1) []).map fun q => (p.2.trace, q.2.trace, q.1)) =
      some ([.applying none 1 body, .opened 1 0, .dataApplied 1 [7], .cancelled []],
        [.applying none 1 body, .opened 1 0, .dataApplied 1 [7], .cancelled []],
        .write (.chunk [7])) := by
    decide +kernel
  obtain ⟨⟨r, σ₁⟩, h₁, hplay⟩ := Option.bind_eq_some_iff.mp hplay
  obtain ⟨⟨r', σ₂⟩, h₂, he⟩ := Option.map_eq_some_iff.mp hplay
  simp only [Prod.mk.injEq] at he
  obtain ⟨ht₁, ht₂, rfl⟩ := he
  have honce : ∀ i b b', .opened i b ∈ σ₁.trace → .opened i b' ∈ σ₁.trace → b = b' := by
    simp +contextual [ht₁]
  have hopened : .opened 1 0 ∈ σ₁.trace := by simp [ht₁]
  have hW₁ := BackendTraffic.Orderly.start.step_once (.client (by rfl) (.attempt h₁)) honce
  have hW₂ := hW₁.step_once (.turn hopened .dialled) honce
  have hW₃ := hW₂.step_once (.call (b := 0) hopened .chunk (.attempt h₂))
    (by simp +contextual [BackendTraffic.after, ht₂])
  exact ⟨_, hW₃, rfl, streams_never_mix hW₃⟩

/-- With one tombstone to a session, id 1 is opened again while the writer of its first backend
is about to ask for a chunk.  It gets the byte that was sent to the second. -/
theorem streams_mix : ∃ W, BackendTraffic.Reachable id oneTombstone .https W ∧
    ¬ W.NeverMixed id := by
  have hplay : ((play id ⟨newSession oneTombstone .https, []⟩
        (upCalls 1 (encode .open 1 []) [true])).bind fun σ₁ =>
      (play id σ₁ (upCalls 2 (encode .close 1 [] ++ encode .open 2 [] ++ encode .close 2 [])
          [true, true, true] ++
        upCalls 3 (encode .open 1 [] ++ encode .data 1 [7]) [true, true])).bind fun σ₂ =>
      (attempt id σ₂ (.nextWrite 1) []).map fun q =>
        (decide (.opened 1 0 ∈ σ₁.trace), decide (.opened 1 0 ∈ σ₂.trace),
          appliedTo q.2.trace 0, q.1)) =
      some (true, true, [], .write (.chunk [7])) := by
    decide +kernel
  obtain ⟨σ₁, h₁, hplay⟩ := Option.bind_eq_some_iff.mp hplay
  obtain ⟨σ₂, h₂, hplay⟩ := Option.bind_eq_some_iff.mp hplay
  obtain ⟨⟨r, σ₃⟩, h₃, he⟩ := Option.map_eq_some_iff.mp hplay
  simp only [Prod.mk.injEq, decide_eq_true_eq] at he
  obtain ⟨hopened₁, hopened₂, happlied, rfl⟩ := he
  have hW₁ := BackendTraffic.Reachable.start.play (σ := σ₁) (upCalls_ofBackend _ _ _) h₁
  have hW₂ := hW₁.step (.turn hopened₁ .dialled)
  have hW₃ := hW₂.play (σ := σ₂) (by simp [upCalls, Section.ofBackend]) h₂
  have hW₄ := hW₃.step (.call (b := 0) hopened₂ .chunk (.attempt h₃))
  refine ⟨_, hW₄, fun hmixed => ?_⟩
  have hprefix : [7] <+: appliedTo σ₃.trace 0 := hmixed.taken 0
  have hnone : appliedTo σ₃.trace 0 = [] := happlied
  rw [hnone] at hprefix
  exact absurd hprefix (by decide)

end TproxyServer
