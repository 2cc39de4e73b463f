import TproxyServer.SectionChanges

/-! # Whose bytes they are

The events of a session name streams by their ids, and an id may be opened more than once.  A
byte belongs to the backend that the last OPEN of its id created.  `appliedTo` and `sentFor` read
off a history what was applied to the stream of a backend, and what was queued for its client.

`Owned` relates the history to the session: a live stream is the one of the last OPEN, and what
was taken out of its queue and what is still there make up what was applied to it. -/

namespace TproxyServer

open Interaction Prog

variable {limits : Limits} {carrier : CarrierMode} {scope : Scope} {s s' : Session}
  {t es : List Event} {b : ℕ}

/-! ### Reading a history -/

/-- The backend of the last OPEN of each id, after the event. -/
def Event.own (o : ℕ → Option ℕ) : Event → ℕ → Option ℕ
  | .opened id backend => Function.update o id (some backend)
  | _ => o

/-- DATA from the client: the id and the bytes. -/
def Event.applied : Event → Option (ℕ × Bytes)
  | .dataApplied id payload => some (id, payload)
  | _ => none

/-- DATA for the client: the id and the bytes. -/
def Event.sent : Event → Option (ℕ × Bytes)
  | .queued _ .data id payload => some (id, payload)
  | _ => none

def ownersFrom (o : ℕ → Option ℕ) (es : List Event) : ℕ → Option ℕ := es.foldl Event.own o

/-- The bytes that `pick` finds in a history as far as they belong to the backend `b`. -/
def bytesFrom (pick : Event → Option (ℕ × Bytes)) (b : ℕ) : (ℕ → Option ℕ) → List Event → Bytes
  | _, [] => []
  | o, e :: es =>
      (match pick e with
        | some (id, payload) => if o id = some b then payload else []
        | none => []) ++ bytesFrom pick b (e.own o) es

/-- The backend of the last OPEN of `id`. -/
def owner (t : List Event) (id : ℕ) : Option ℕ := ownersFrom (fun _ => none) t id

/-- The bytes applied as DATA to the stream of the backend `b`. -/
def appliedTo (t : List Event) (b : ℕ) : Bytes := bytesFrom Event.applied b (fun _ => none) t

/-- The bytes queued as DATA of the stream of the backend `b`. -/
def sentFor (t : List Event) (b : ℕ) : Bytes := bytesFrom Event.sent b (fun _ => none) t

theorem bytesFrom_append (pick : Event → Option (ℕ × Bytes)) (o : ℕ → Option ℕ)
    (t es : List Event) :
    bytesFrom pick b o (t ++ es) = bytesFrom pick b o t ++ bytesFrom pick b (ownersFrom o t) es := by
  induction t generalizing o with
  | nil => rfl
  | cons e t ih =>
      rw [List.cons_append, bytesFrom, bytesFrom, ih, List.append_assoc]
      rfl

theorem appliedTo_append (t es : List Event) :
    appliedTo (t ++ es) b = appliedTo t b ++ bytesFrom Event.applied b (owner t) es :=
  bytesFrom_append ..

theorem sentFor_append (t es : List Event) :
    sentFor (t ++ es) b = sentFor t b ++ bytesFrom Event.sent b (owner t) es :=
  bytesFrom_append ..

theorem owner_append (t es : List Event) : owner (t ++ es) = ownersFrom (owner t) es :=
  List.foldl_append ..

/-- Events that neither open a stream nor apply DATA. -/
def Idle (es : List Event) : Prop := ∀ e ∈ es, (∀ o, e.own o = o) ∧ e.applied = none

/-- Events that queue no DATA. -/
def Unsent (es : List Event) : Prop := ∀ e ∈ es, e.sent = none

theorem bytesFrom_none {pick : Event → Option (ℕ × Bytes)} (h : ∀ e ∈ es, pick e = none)
    (o : ℕ → Option ℕ) : bytesFrom pick b o es = [] := by
  induction es generalizing o with
  | nil => rfl
  | cons e es ih =>
      rw [bytesFrom, h e (by simp), ih (fun e he => h e (by simp [he]))]
      rfl

theorem Unsent.sentFor (h : Unsent es) (t : List Event) : sentFor (t ++ es) b = sentFor t b := by
  rw [sentFor_append, bytesFrom_none h, List.append_nil]

theorem Idle.nil : Idle [] := by simp [Idle]

theorem Idle.owner (h : Idle es) (t : List Event) : owner (t ++ es) = owner t := by
  rw [owner_append]
  generalize TproxyServer.owner t = o
  induction es with
  | nil => rfl
  | cons e es ih =>
      rw [ownersFrom, List.foldl_cons, (h e (by simp)).1]
      exact ih fun e he => h e (by simp [he])

theorem Idle.appliedTo (h : Idle es) (t : List Event) :
    appliedTo (t ++ es) b = appliedTo t b := by
  rw [appliedTo_append, bytesFrom_none fun e he => (h e he).2, List.append_nil]

theorem Idle.opened (h : Idle es) {id : ℕ} (hm : .opened id b ∈ t ++ es) : .opened id b ∈ t := by
  rcases List.mem_append.mp hm with hm | hm
  · exact hm
  · have := congrFun ((h _ hm).1 fun _ => none) id
    simp [Event.own] at this

/-- The bytes of a backend that was never created. -/
theorem bytesFrom_unowned (pick : Event → Option (ℕ × Bytes)) {o : ℕ → Option ℕ}
    (ho : ∀ id, o id ≠ some b) (h : ∀ id, .opened id b ∉ t) : bytesFrom pick b o t = [] := by
  induction t generalizing o with
  | nil => rfl
  | cons e t ih =>
      have hown : ∀ id, e.own o id ≠ some b := by
        intro id
        cases e with
        | opened i b' =>
            have hb : b' ≠ b := by
              rintro rfl
              exact h i (by simp)
            show Function.update o i (some b') id ≠ some b
            by_cases hi : id = i
            · subst hi
              simp [hb]
            · rw [Function.update_of_ne hi]
              exact ho id
        | _ => exact ho id
      rw [bytesFrom, ih hown fun id hm => h id (by simp [hm])]
      cases pick e with
      | none => rfl
      | some p => simp [ho p.1]

/-! ### The invariant -/

/-- The streams of a session against its history; `taken b` are the bytes that left the queue
of the stream of `b`. -/
structure Owned (taken : ℕ → Bytes) (σ : Traced) : Prop where
  fresh : ∀ id b, .opened id b ∈ σ.trace → b < σ.session.nextObject
  distinct : ∀ id id' b, .opened id b ∈ σ.trace → .opened id' b ∈ σ.trace → id = id'
  created : ∀ id b, owner σ.trace id = some b → .opened id b ∈ σ.trace
  latest : ∀ id b b', owner σ.trace id = some b' → .opened id b ∈ σ.trace → b ≤ b'
  live : ∀ id st, σ.session.streams.get id = some st → owner σ.trace id = some st.backend ∧
    taken st.backend ++ st.writes.flatten = appliedTo σ.trace st.backend
  taken : ∀ b, taken b <+: appliedTo σ.trace b

namespace Owned

variable {taken : ℕ → Bytes}

/-- Streams may go, and change but for their backend and their queue. -/
theorem keep (h : Owned taken ⟨s, t⟩) (hes : Idle es) (hnext : s.nextObject ≤ s'.nextObject)
    (hstreams : ∀ id st', s'.streams.get id = some st' →
      ∃ st, s.streams.get id = some st ∧ st'.backend = st.backend ∧ st'.writes = st.writes) :
    Owned taken ⟨s', t ++ es⟩ where
  fresh _ b hm := (h.fresh _ b (hes.opened hm)).trans_le hnext
  distinct _ _ b hm hm' := h.distinct _ _ b (hes.opened hm) (hes.opened hm')
  created id b ho := by
    rw [hes.owner] at ho
    exact List.mem_append_left _ (h.created id b ho)
  latest id b b' ho hm := by
    rw [hes.owner] at ho
    exact h.latest id b b' ho (hes.opened hm)
  live id st' hst' := by
    obtain ⟨st, hst, hbackend, hwrites⟩ := hstreams id st' hst'
    rw [hes.owner, hes.appliedTo, hbackend, hwrites]
    exact h.live id st hst
  taken b := by
    rw [hes.appliedTo]
    exact h.taken b

/-- The streams stay as they are. -/
theorem same (h : Owned taken ⟨s, t⟩) (hes : Idle es) (hnext : s.nextObject ≤ s'.nextObject)
    (hstreams : s'.streams = s.streams) : Owned taken ⟨s', t ++ es⟩ :=
  h.keep hes hnext fun _ st hst => ⟨st, hstreams ▸ hst, rfl, rfl⟩

/-- One stream changes but for its backend and its queue. -/
theorem put (h : Owned taken ⟨s, t⟩) (hes : Idle es) (hnext : s.nextObject ≤ s'.nextObject)
    {id : ℕ} {st st' : StreamState} (hst : s.streams.get id = some st)
    (hstreams : s'.streams = s.streams.put id st') (hbackend : st'.backend = st.backend)
    (hwrites : st'.writes = st.writes) : Owned taken ⟨s', t ++ es⟩ := by
  refine h.keep hes hnext fun i st₁ hst₁ => ?_
  rw [hstreams, Table.get_put] at hst₁
  split_ifs at hst₁ with hi
  · cases hst₁
    exact ⟨st, hi ▸ hst, hbackend, hwrites⟩
  · exact ⟨st₁, hst₁, rfl, rfl⟩

/-- A stream is opened. -/
theorem openStream (h : Owned taken ⟨s, t⟩) (id : ℕ) :
    Owned taken ⟨{ s.putStream id (newStream s.nextObject) with nextObject := s.nextObject + 1 },
      t ++ [.opened id s.nextObject]⟩ := by
  have hunopened : ∀ i, .opened i s.nextObject ∉ t := fun i hm => (h.fresh i _ hm).false
  have hnone : appliedTo t s.nextObject = [] :=
    bytesFrom_unowned _ (by simp) hunopened
  have hmem : ∀ {i b}, Event.opened i b ∈ t ++ [.opened id s.nextObject] →
      .opened i b ∈ t ∨ i = id ∧ b = s.nextObject := by
    intro i b hm
    simpa using hm
  have howner : ∀ i, owner (t ++ [.opened id s.nextObject]) i =
      if i = id then some s.nextObject else owner t i := by
    intro i
    rw [owner_append]
    show Function.update (owner t) id (some s.nextObject) i = _
    rw [Function.update_apply]
  have happlied : ∀ b, appliedTo (t ++ [.opened id s.nextObject]) b = appliedTo t b := by
    intro b
    rw [appliedTo_append, bytesFrom_none (by simp [Event.applied]), List.append_nil]
  refine ⟨fun i b hm => ?_, fun i i' b hm hm' => ?_, fun i b ho => ?_, fun i b b' ho hm => ?_,
    fun i st hst => ?_, fun b => happlied b ▸ h.taken b⟩
  · show b < s.nextObject + 1
    rcases hmem hm with hm | ⟨-, rfl⟩
    · exact (h.fresh i b hm).trans (Nat.lt_succ_self _)
    · exact Nat.lt_succ_self _
  · rcases hmem hm with hold | ⟨hi, hb⟩
    · rcases hmem hm' with hold' | ⟨-, hb'⟩
      · exact h.distinct i i' b hold hold'
      · exact absurd (hb' ▸ hold) (hunopened i)
    · rcases hmem hm' with hold' | ⟨hi', -⟩
      · exact absurd (hb ▸ hold') (hunopened i')
      · rw [hi, hi']
  · rw [howner] at ho
    split_ifs at ho with hi
    · cases ho
      simp [hi]
    · exact List.mem_append_left _ (h.created i b ho)
  · rw [howner] at ho
    split_ifs at ho with hi
    · cases ho
      rcases hmem hm with hm | ⟨-, rfl⟩
      · exact (h.fresh i b hm).le
      · exact Nat.le_refl _
    · rcases hmem hm with hm | ⟨rfl, -⟩
      · exact h.latest i b b' ho hm
      · exact absurd rfl hi
  · rw [happlied, howner]
    have hst' : (s.streams.put id (newStream s.nextObject)).get i = some st := hst
    rw [Table.get_put] at hst'
    split_ifs at hst' with hi
    · cases hst'
      have hprefix := h.taken s.nextObject
      have htaken : taken s.nextObject = [] := by
        rw [hnone] at hprefix
        exact List.prefix_nil.mp hprefix
      rw [if_pos hi]
      show some s.nextObject = some s.nextObject ∧
        taken s.nextObject ++ [] = appliedTo t s.nextObject
      rw [htaken, hnone]
      exact ⟨rfl, rfl⟩
    · rw [if_neg hi]
      exact h.live i st hst'

end Owned

theorem appendBackendWriteLocked_flatten (st : StreamState) (payload : Bytes) :
    (appendBackendWriteLocked st payload).1.writes.flatten = st.writes.flatten ++ payload := by
  unfold appendBackendWriteLocked
  cases hlast : st.writes.getLast? with
  | none =>
      rw [List.getLast?_eq_none_iff.mp hlast]
      simp
  | some last =>
      have hsplit : st.writes = st.writes.dropLast ++ [last] :=
        (List.dropLast_append_getLast? last (Option.mem_def.mpr hlast)).symm
      by_cases hroom : last.length + payload.length ≤ dataChunk
      · have hdefault : st.writes.getLastD [] = last := by
          rw [List.getLastD_eq_getLast?, hlast]
          rfl
        simp only [hroom, decide_true, if_true, hdefault]
        conv_rhs => rw [hsplit]
        simp
      · simp [hroom]

/-- DATA is applied to a stream. -/
theorem Owned.data {taken : ℕ → Bytes} (h : Owned taken ⟨s, t⟩) {id : ℕ} {st st' : StreamState}
    {payload : Bytes} (hst : s.streams.get id = some st) (hbackend : st'.backend = st.backend)
    (hwrites : st'.writes.flatten = st.writes.flatten ++ payload) :
    Owned taken ⟨s.putStream id st', t ++ [.dataApplied id payload]⟩ := by
  obtain ⟨howner, hqueue⟩ := h.live id st hst
  have hsame : owner (t ++ [.dataApplied id payload]) = owner t := owner_append ..
  have happlied : ∀ b, appliedTo (t ++ [.dataApplied id payload]) b =
      appliedTo t b ++ if b = st.backend then payload else [] := by
    intro b
    have howner' : owner t id = some st.backend := howner
    rw [appliedTo_append]
    simp only [bytesFrom, Event.applied, howner', List.append_nil, Option.some.injEq, eq_comm]
  have hmem : ∀ {i b}, Event.opened i b ∈ t ++ [.dataApplied id payload] → .opened i b ∈ t := by
    intro i b hm
    simpa using hm
  refine ⟨fun i b hm => h.fresh i b (hmem hm), fun i i' b hm hm' =>
    h.distinct i i' b (hmem hm) (hmem hm'), fun i b ho => ?_, fun i b b' ho hm => ?_,
    fun i st₁ hst₁ => ?_, fun b => ?_⟩
  · rw [hsame] at ho
    exact List.mem_append_left _ (h.created i b ho)
  · rw [hsame] at ho
    exact h.latest i b b' ho (hmem hm)
  · have hst₁' : (s.streams.put id st').get i = some st₁ := hst₁
    rw [hsame, happlied]
    rw [Table.get_put] at hst₁'
    split_ifs at hst₁' with hi
    · cases hst₁'
      rw [hi, hbackend, if_pos rfl, hwrites, ← List.append_assoc]
      exact ⟨howner, by rw [hqueue]⟩
    · obtain ⟨howner₁, hqueue₁⟩ := h.live i st₁ hst₁'
      have hne : st₁.backend ≠ st.backend := by
        intro he
        refine hi (h.distinct i id st.backend ?_ (h.created id _ howner))
        exact he ▸ h.created i _ howner₁
      rw [if_neg hne, List.append_nil]
      exact ⟨howner₁, hqueue₁⟩
  · rw [happlied]
    exact (h.taken b).trans (List.prefix_append _ _)

/-! ### The changes keep it -/

theorem QueueResult.idle {ty : FrameType} {id : ℕ} {payload : Bytes} {ok : Bool}
    (h : QueueResult s ty id payload es s' ok) :
    Idle es ∧ s'.streams = s.streams ∧ s'.nextObject = s.nextObject := by
  cases h with
  | refused => exact ⟨by simp [Idle, Event.own, Event.applied], rfl, rfl⟩
  | @accepted q d cost items notify _ _ =>
      obtain ⟨down, lanes, released, he⟩ := (s.setPending cost items notify).setQueue_eq q d
      refine ⟨by simp [Idle, Event.own, Event.applied], ?_, ?_⟩
      · rw [he]
        rfl
      · rw [he]
        rfl

theorem QueueResult.unsent {ty : FrameType} {id : ℕ} {payload : Bytes} {ok : Bool}
    (h : QueueResult s ty id payload es s' ok) (hty : ty ≠ .data) : Unsent es := by
  cases h with
  | refused => simp [Unsent, Event.sent]
  | accepted => cases ty <;> simp_all [Unsent, Event.sent]

theorem Event.silent_idle {e : Event} (h : e.silent = true) : Idle [e] ∧ Unsent [e] := by
  cases e with
  | rejected | abandoned | cancelled | finished =>
      exact ⟨by simp [Idle, Event.own, Event.applied], by simp [Unsent, Event.sent]⟩
  | _ => cases h

/-- What is no exchange with a backend leaves every byte with its owner, and queues no DATA. -/
theorem Change.owned {taken : ℕ → Bytes} {σ σ' : Traced} (h : Change scope σ σ')
    (hscope : scope.backends = false) (hs : Owned taken σ) :
    Owned taken σ' ∧ ∀ b, sentFor σ'.trace b = sentFor σ.trace b := by
  have hkeep : ∀ {s s' : Session} {t : List Event}, Owned taken ⟨s, t⟩ →
      s.nextObject ≤ s'.nextObject → (∀ id st', s'.streams.get id = some st' →
        s.streams.get id = some st') →
      Owned taken ⟨s', t⟩ ∧ ∀ b, sentFor t b = sentFor t b := by
    intro s s' t hs hnext hstreams
    have hkept := hs.keep .nil hnext fun id st hst => ⟨st, hstreams id st hst, rfl, rfl⟩
    rw [List.append_nil] at hkept
    exact ⟨hkept, fun _ => rfl⟩
  have hpure : ∀ {s s' : Session} {t : List Event}, Owned taken ⟨s, t⟩ →
      s.nextObject ≤ s'.nextObject → s'.streams = s.streams →
      Owned taken ⟨s', t⟩ ∧ ∀ b, sentFor t b = sentFor t b :=
    fun hs hnext hstreams => hkeep hs hnext fun _ _ hst => hstreams ▸ hst
  have hidle : ∀ {s s' : Session} {t es : List Event}, Owned taken ⟨s, t⟩ → Idle es →
      Unsent es → s'.nextObject = s.nextObject → s'.streams = s.streams →
      Owned taken ⟨s', t ++ es⟩ ∧ ∀ b, sentFor (t ++ es) b = sentFor t b :=
    fun hs hi hu hnext hstreams => ⟨hs.same hi hnext.ge hstreams, fun _ => hu.sentFor _⟩
  have hset : ∀ (s : Session) (q : QueueRef) (d : Downlink),
      (s.setQueue q d).streams = s.streams ∧ (s.setQueue q d).nextObject = s.nextObject := by
    intro s q d
    obtain ⟨down, lanes, released, he⟩ := s.setQueue_eq q d
    rw [he]
    exact ⟨rfl, rfl⟩
  cases h with
  | silent he => exact hidle hs (Event.silent_idle he).1 (Event.silent_idle he).2 rfl rfl
  | @openStream s t id =>
      exact ⟨hs.openStream id, fun b => Unsent.sentFor (by simp [Unsent, Event.sent]) t⟩
  | @stream s t es id st st' _ hst h hscope' =>
      cases h with
      | data =>
          exact ⟨hs.data hst rfl (appendBackendWriteLocked_flatten _ _),
            fun b => Unsent.sentFor (by simp [Unsent, Event.sent]) t⟩
      | window =>
          exact ⟨hs.put (by simp [Idle, Event.own, Event.applied]) (Nat.le_refl _) hst rfl rfl rfl,
            fun b => Unsent.sentFor (by simp [Unsent, Event.sent]) t⟩
      | finished => exact absurd (hscope'.2 rfl) (by simp [hscope])
      | popped => exact absurd (hscope'.2 rfl) (by simp [hscope])
  | drained _ _ _ _ _ _ _ hscope' => exact absurd hscope' (by simp [hscope])
  | read _ _ _ _ _ hscope' => exact absurd hscope'.1 (by simp [hscope])
  | queueClose _ _ _ h _ _ _ =>
      obtain ⟨hi, hstreams, hnext⟩ := h.idle
      exact hidle hs hi (h.unsent (by simp)) hnext hstreams
  | endStream =>
      refine hkeep hs (Nat.le_refl _) fun i st hst => ?_
      rw [Session.delStream_streams, Table.get_del] at hst
      split_ifs at hst
      exact hst
  | rememberRoom =>
      exact hidle hs (by simp [Idle, Event.own, Event.applied])
        (by simp [Unsent, Event.sent]) rfl rfl
  | rememberFull =>
      rw [List.append_assoc]
      exact hidle hs (by simp [Idle, Event.own, Event.applied]) (by simp [Unsent, Event.sent])
        rfl rfl
  | attend => exact hpure hs (hset _ _ _).2.ge (hset _ _ _).1
  | acknowledge => exact hpure hs (hset _ _ _).2.ge (hset _ _ _).1
  | deliver =>
      exact hidle hs (by simp [Idle, Event.own, Event.applied])
        (by simp [Unsent, Event.sent]) (hset _ _ _).2 (hset _ _ _).1
  | close =>
      refine hkeep hs (Nat.le_refl _) fun i st hst => ?_
      rw [Table.get_nil] at hst
      cases hst
  | batch =>
      exact hidle hs (by simp [Idle, Event.own, Event.applied])
        (by simp [Unsent, Event.sent]) rfl rfl
  | @laneUplink s t _ id object f _ _ _ =>
      obtain ⟨lanes, released, he⟩ := s.modifyLane_eq id object f
      rw [he]
      exact hpure hs (Nat.le_refl _) rfl
  | createLane => exact hpure hs (Nat.le_succ _) rfl
  | newObject => exact hpure hs (Nat.le_succ _) rfl
  | _ => exact hpure hs (Nat.le_refl _) rfl

/-! ### The callbacks -/

/-- No stream but `id` has changed. -/
def Touches (id : ℕ) (s s' : Session) : Prop :=
  ∀ i, i ≠ id → s'.streams.get i = s.streams.get i

theorem Touches.refl (id : ℕ) (s : Session) : Touches id s s := fun _ _ => rfl

theorem Touches.put {id : ℕ} {st : StreamState} (h : s'.streams = s.streams.put id st) :
    Touches id s s' := by
  intro i hi
  rw [h, Table.get_put_ne _ _ hi]

/-- The writer of the backend of stream `id` takes a chunk. -/
theorem Owned.chunk {taken : ℕ → Bytes} (h : Owned taken ⟨s, t⟩) {id : ℕ} {st : StreamState}
    {chunk : Bytes} {writes : List Bytes} (hst : s.streams.get id = some st)
    (hwrites : st.writes = chunk :: writes) :
    Owned (Function.update taken st.backend (taken st.backend ++ chunk))
      ⟨s.putStream id { st with writes }, t⟩ := by
  obtain ⟨howner, hqueue⟩ := h.live id st hst
  have hwhole : taken st.backend ++ chunk ++ writes.flatten = appliedTo t st.backend := by
    rw [List.append_assoc, ← hqueue, hwrites, List.flatten_cons]
  refine ⟨h.fresh, h.distinct, h.created, h.latest, fun i st₁ hst₁ => ?_, fun b => ?_⟩
  · have hst₁' : (s.streams.put id { st with writes }).get i = some st₁ := hst₁
    rw [Table.get_put] at hst₁'
    split_ifs at hst₁' with hi
    · cases hst₁'
      rw [hi, Function.update_self]
      exact ⟨howner, hwhole⟩
    · obtain ⟨howner₁, hqueue₁⟩ := h.live i st₁ hst₁'
      have hne : st₁.backend ≠ st.backend := by
        intro he
        refine hi (h.distinct i id st.backend ?_ (h.created id _ howner))
        exact he ▸ h.created i _ howner₁
      rw [Function.update_of_ne hne]
      exact ⟨howner₁, hqueue₁⟩
  · by_cases hb : b = st.backend
    · subst hb
      rw [Function.update_self]
      exact ⟨_, hwhole⟩
    · rw [Function.update_of_ne hb]
      exact h.taken b

theorem backendDrained_owned {taken : ℕ → Bytes} (h : Owned taken ⟨s, t⟩) (id amount : ℕ) :
    wp observer (backendDrained s id amount) (fun t' r => Owned taken ⟨r.1, t'⟩ ∧
      (∀ b, sentFor t' b = sentFor t b) ∧ Touches id s r.1) t := by
  unfold backendDrained
  cases hst : s.streams.get id with
  | none => exact ⟨h, fun _ => rfl, .refl id s⟩
  | some st =>
      dsimp only
      split_ifs
      · exact ⟨h, fun _ => rfl, .refl id s⟩
      · refine wp_seq (releasePendingLocked_obs _ _ _) ?_
        rintro t₁ s₁ ⟨rfl, cost, items, notify, rfl⟩
        refine wp_mono (queueFrameLocked_obs _ _ _ _) ?_
        rintro t₂ ⟨s₂, ok⟩ ⟨es, rfl, hq⟩
        obtain ⟨hidle, hstreams, hnext⟩ := hq.idle
        have hput : s₂.streams = s.streams.put id (st.drain amount) := by
          rw [hstreams]
          exact Table.put_put_self _ _ _ _
        exact ⟨h.put hidle hnext.ge hst hput rfl rfl,
          fun b => (hq.unsent (by simp)).sentFor _, .put hput⟩

theorem backendWriteFinished_owned {taken : ℕ → Bytes} (h : Owned taken ⟨s, t⟩) (id : ℕ) :
    wp observer (backendWriteFinished s id) (fun t' r => Owned taken ⟨r.1, t'⟩ ∧
      (∀ b, sentFor t' b = sentFor t b) ∧ Touches id s r.1) t := by
  unfold backendWriteFinished
  cases hst : s.streams.get id with
  | none => exact ⟨h, fun _ => rfl, .refl id s⟩
  | some st =>
      dsimp only
      split_ifs
      · exact ⟨h, fun _ => rfl, .refl id s⟩
      · generalize (queueItemCost : ℤ) = cost
        refine wp_seq (releasePendingLocked_obs _ cost 1) ?_
        rintro t₁ s₁ ⟨rfl, cost, items, notify, rfl⟩
        refine ⟨?_, fun _ => rfl, .put rfl⟩
        rw [← List.append_nil t₁]
        exact h.put .nil (Nat.le_refl _) hst rfl rfl rfl

theorem backendData_owned {taken : ℕ → Bytes} (h : Owned taken ⟨s, t⟩) (id : ℕ)
    (data : Bytes) :
    wp observer (backendData s id data) (fun t' r => Owned taken ⟨r.1, t'⟩ ∧
      Touches id s r.1 ∧ ((r.2 = false ∧ ∀ b, sentFor t' b = sentFor t b) ∨
        r.2 = true ∧ ∃ st, s.streams.get id = some st ∧
          ∀ b, sentFor t' b = sentFor t b ++ if st.backend = b then data else [])) t := by
  unfold backendData
  cases hst : s.streams.get id with
  | none => exact ⟨h, .refl id s, .inl ⟨rfl, fun _ => rfl⟩⟩
  | some st =>
      dsimp only
      split_ifs
      · exact ⟨h, .refl id s, .inl ⟨rfl, fun _ => rfl⟩⟩
      · refine wp_mono (queueFrameLocked_obs _ _ _ _) ?_
        rintro t₁ ⟨s₁, ok⟩ ⟨es, rfl, hq⟩
        obtain ⟨hidle, hstreams, hnext⟩ := hq.idle
        refine ⟨h.put hidle hnext.ge hst hstreams rfl rfl, .put hstreams, ?_⟩
        have howner : owner t id = some st.backend := (h.live id st hst).1
        cases hq with
        | refused => exact .inl ⟨rfl, fun b => Unsent.sentFor (by simp [Unsent, Event.sent]) t⟩
        | accepted =>
            refine .inr ⟨rfl, st, rfl, fun b => ?_⟩
            rw [sentFor_append]
            simp [bytesFrom, Event.sent, howner]

end TproxyServer
