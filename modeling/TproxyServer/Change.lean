import TproxyServer.Sections

/-! # What a critical section can do to a session

Every section is a chain of the elementary changes below (`Section.changes`, in
`Decompose.lean`).  An invariant is proved once for each change, and thereby holds in every
reachable state; no proof unfolds a section twice.

`pendingCost`, `pendingItems` and `budgetNotify` may change freely here: what they mean is
the business of `Accounting.lean`, which reads the sections against the budget itself. -/

namespace TproxyServer

open Interaction Prog

namespace Session

/-- Overwrite the fields that only the budget is about. -/
def setPending (s : Session) (cost items notify : ℕ) : Session :=
  { s with pendingCost := cost, pendingItems := items, budgetNotify := notify }

/-- The reference of the queue that frames of stream `id` go to. -/
def queueRef (s : Session) (id : ℕ) : Option QueueRef :=
  if s.usesCarrierLanes then (s.carrierLanes.get id).map fun l => .lane id l.object
  else some .session

/-- Where the carrier has lanes, the lane of `id` is there. -/
def HasLane (s : Session) (id : ℕ) : Prop :=
  s.usesCarrierLanes = true → s.carrierLanes.get id ≠ none

/-- The reference still leads to a downlink. -/
def HasQueue (s : Session) : QueueRef → Prop
  | .session => True
  | .lane id object => s.attached id object ≠ none ∨ s.releasedLanes.get object ≠ none

end Session

/-- Events that say nothing about streams, tombstones or queues. -/
def Event.silent : Event → Bool
  | .rejected _ | .abandoned _ | .cancelled _ | .finished => true
  | _ => false

/-- Events of the uplink: a body is taken up, a frame of it is applied. -/
def Event.ofUplink : Event → Bool
  | .applying _ _ _ | .opened _ _ | .rejected _ | .dataApplied _ _ | .windowApplied _ _ => true
  | _ => false

/-- What the uplink did, in order. -/
def uplinkEvents (t : List Event) : List Event := t.filter Event.ofUplink

@[simp] theorem uplinkEvents_append (t es : List Event) :
    uplinkEvents (t ++ es) = uplinkEvents t ++ uplinkEvents es :=
  List.filter_append ..

/-- The OPENs at which the application of a body was cut short. -/
def abandonments (t : List Event) : List ℕ :=
  t.filterMap fun e => match e with
    | .abandoned id => some id
    | _ => none

@[simp] theorem abandonments_append (t es : List Event) :
    abandonments (t ++ es) = abandonments t ++ abandonments es :=
  List.filterMap_append ..

/-- Neither the one nor the other. -/
def Mute (es : List Event) : Prop := uplinkEvents es = [] ∧ abandonments es = []

/-- What a section may do beyond what all may. -/
structure Scope where
  /-- Apply the frames of a client. -/
  frames : Bool := false
  /-- Keep the books of the uplink. -/
  uplink : Bool := false
  /-- Create a lane. -/
  lanes : Bool := false
  /-- Attach and detach sockets. -/
  sockets : Bool := false
  /-- Take part in a poll. -/
  polls : Bool := false
  /-- Exchange data with a backend. -/
  backends : Bool := false
  /-- End a stream whose backend has ended. -/
  endings : Bool := false
  /-- End a stream. -/
  ends : Bool := false
  /-- Take the token of a `notify` channel. -/
  tokens : Bool := false
  /-- Hand these bytes of a backend to the client. -/
  reads : Option Bytes := none
deriving DecidableEq

def Scope.quiet : Scope := {}
def Scope.batch : Scope := { frames := true, ends := true }
def Scope.commit : Scope := { frames := true, uplink := true, ends := true }
def Scope.request : Scope := { frames := true, uplink := true, lanes := true, ends := true }
def Scope.socket : Scope := { lanes := true, sockets := true, ends := true }
def Scope.poll : Scope := { polls := true }
def Scope.backend : Scope := { backends := true }
def Scope.ending : Scope := { endings := true, ends := true }
def Scope.token : Scope := { tokens := true }
def Scope.reading (data : Bytes) : Scope := { backends := true, reads := some data }

/-- One scope allows what another does. -/
def Scope.Covers (a b : Scope) : Prop :=
  (b.frames = true → a.frames = true) ∧ (b.uplink = true → a.uplink = true) ∧
    (b.lanes = true → a.lanes = true) ∧ (b.sockets = true → a.sockets = true) ∧
    (b.polls = true → a.polls = true) ∧ (b.backends = true → a.backends = true) ∧
    (b.endings = true → a.endings = true) ∧ (b.ends = true → a.ends = true) ∧
    (b.tokens = true → a.tokens = true) ∧ (b.reads ≠ none → a.reads = b.reads)

instance (a b : Scope) : Decidable (a.Covers b) := by
  unfold Scope.Covers
  exact inferInstance

theorem Scope.covers_quiet (a : Scope) : a.Covers .quiet := by
  simp [Scope.Covers, Scope.quiet]

/-- How a queue takes in a frame. -/
inductive Enqueue (limits : Limits) (d : Downlink) :
    FrameType → ℕ → Bytes → Downlink → Prop
  /-- A WINDOW is added to the one that is queued for its stream. -/
  | merge {id index : ℕ} {payload : Bytes} {f : QueuedFrame}
      (hindex : d.windowIndex .window id = some index) (hf : d.pendingFrames[index]? = some f)
      (htotal : (windowAmount (f.encoded.drop headerSize)).1 + (windowAmount payload).1 ≤
        maxUint32) :
      Enqueue limits d .window id payload { d with
        pendingFrames := d.pendingFrames.set index (f.setAmount
          ((windowAmount (f.encoded.drop headerSize)).1 + (windowAmount payload).1)) }.signal
  /-- DATA is appended to the last frame. -/
  | extend {id : ℕ} {payload : Bytes} {last : QueuedFrame}
      (hlast : d.extendable limits .data id payload = some last) :
      Enqueue limits d .data id payload { d with
        pendingFrames := d.pendingFrames.dropLast ++ [last.extend payload] }.signal
  /-- A new frame at the end; a WINDOW is also indexed. -/
  | append {t : FrameType} {id : ℕ} {payload : Bytes} {windows : Option (Table ℕ ℕ)}
      (hmerge : ∀ index f, d.windowIndex t id = some index → d.pendingFrames[index]? = some f →
        maxUint32 < (windowAmount (f.encoded.drop headerSize)).1 + (windowAmount payload).1)
      (hextend : d.extendable limits t id payload = none)
      (hwindows : if t = .window then
          ∃ w, d.pendingWindows = some w ∧ windows = some (w.put id d.pendingFrames.length)
        else windows = d.pendingWindows) :
      Enqueue limits d t id payload { d with
        pendingFrames := d.pendingFrames ++ [(⟨encode t id payload, t, id,
          (encode t id payload).length + queueItemCost⟩ : QueuedFrame)]
        pendingWindows := windows }.signal

/-- What `queueFrameLocked` may do: accept into the queue of the stream, or refuse and change
nothing. -/
inductive QueueResult (s : Session) (t : FrameType) (id : ℕ) (payload : Bytes) :
    List Event → Session → Bool → Prop
  | refused : QueueResult s t id payload [.refused t id payload] s false
  | accepted {q : QueueRef} {d : Downlink} {cost items notify : ℕ}
      (hq : s.queueRef id = some q) (h : Enqueue s.limits (s.queue q) t id payload d) :
      QueueResult s t id payload [.queued q t id payload]
        ((s.setPending cost items notify).setQueue q d) true

/-- Changes of a stream that concern nothing else. -/
inductive StreamStep (id : ℕ) (st : StreamState) : List Event → StreamState → Prop
  | data {payload : Bytes} (h : payload.length ≤ st.receiveWindow) :
      StreamStep id st [.dataApplied id payload]
        { (appendBackendWriteLocked st payload).1 with
          receiveWindow := subUint32 st.receiveWindow (toUint32 payload.length)
          writeNotify := true }
  | window {amount : ℕ} (h : amount ≤ maxUint32) :
      StreamStep id st [.windowApplied id amount]
        { st with sendCredit := addCredit st.sendCredit amount, creditNotify := true }
  | finished (hi : st.pendingWriteItems ≠ 0) (hc : queueItemCost ≤ st.pendingWriteCost) :
      StreamStep id st [] { st with
        pendingWriteItems := st.pendingWriteItems - 1
        pendingWriteCost := st.pendingWriteCost - queueItemCost }
  | popped {chunk : Bytes} {writes : List Bytes} (h : st.writes = chunk :: writes) :
      StreamStep id st [] { st with writes }

/-- The stream after `amount` bytes reached its backend. -/
def StreamState.drain (st : StreamState) (amount : ℕ) : StreamState :=
  { st with
    pendingWriteBytes := st.pendingWriteBytes - amount
    pendingWriteCost := st.pendingWriteCost - amount
    receiveWindow := st.receiveWindow + amount }

/-- The last thing that happened is that the tombstone of `id` was recorded, and perhaps that
its OPEN was refused. -/
def JustEnded (t : List Event) (id : ℕ) : Prop :=
  ∃ t₀ t₁, t = t₀ ++ .remembered id :: t₁ ∧ ∀ e ∈ t₁, e = .rejected id ∨ ∃ old, e = .evicted old

theorem JustEnded.rejected {t : List Event} {id : ℕ} (h : JustEnded t id) :
    JustEnded (t ++ [.rejected id]) id := by
  obtain ⟨t₀, t₁, rfl, hall⟩ := h
  refine ⟨t₀, t₁ ++ [.rejected id], by simp, fun e he => ?_⟩
  rcases List.mem_append.mp he with he | he
  · exact hall e he
  · exact .inl (List.mem_singleton.mp he)

/-- Elementary changes of a session, as far as the scope allows them. -/
inductive Change (scope : Scope) : Traced → Traced → Prop
  | pending {s : Session} {t : List Event} (cost items notify : ℕ) :
      Change scope ⟨s, t⟩ ⟨s.setPending cost items notify, t⟩
  | silent {s : Session} {t : List Event} {e : Event} (h : e.silent = true)
      (hscope : ¬ Mute [e] → scope.frames = true) :
      Change scope ⟨s, t⟩ ⟨s, t ++ [e]⟩
  | attachSocket {s : Session} {t : List Event} (hscope : scope.sockets = true) :
      Change scope ⟨s, t⟩ ⟨{ s with websocketActive := true }, t⟩
  | openStream {s : Session} {t : List Event} {id : ℕ} (hopen : s.closed = false)
      (hlane : s.usesCarrierLanes = true → s.carrierLanes.get id ≠ none)
      (hlive : s.streams.get id = none) (hclosed : id ∉ s.closedStreams)
      (hsize : s.streams.size < s.limits.maxStreamsPerSession)
      (hrange : id ≠ 0 ∧ id ≤ maxStreamID) (hscope : scope.frames = true) :
      Change scope ⟨s, t⟩
        ⟨{ s.putStream id (newStream s.nextObject) with nextObject := s.nextObject + 1 },
          t ++ [.opened id s.nextObject]⟩
  | stream {s : Session} {t es : List Event} {id : ℕ} {st st' : StreamState}
      (hopen : s.closed = false) (hst : s.streams.get id = some st)
      (h : StreamStep id st es st')
      (hscope : (es ≠ [] → scope.frames = true) ∧ (es = [] → scope.backends = true)) :
      Change scope ⟨s, t⟩ ⟨s.putStream id st', t ++ es⟩
  | drained {s s' : Session} {t es : List Event} {id amount : ℕ} {st : StreamState} {ok : Bool}
      (hopen : s.closed = false) (hst : s.streams.get id = some st) (hpos : amount ≠ 0)
      (hbytes : amount ≤ st.pendingWriteBytes) (hcost : amount ≤ st.pendingWriteCost)
      (hwindow : st.receiveWindow + amount ≤ initialStreamWindow)
      (h : QueueResult (s.putStream id (st.drain amount)) .window id (windowPayload amount)
        es s' ok) (hscope : scope.backends = true) :
      Change scope ⟨s, t⟩ ⟨s', t ++ es⟩
  | read {s s' : Session} {t es : List Event} {id : ℕ} {st : StreamState} {data : Bytes}
      {ok : Bool} (hopen : s.closed = false) (hst : s.streams.get id = some st)
      (hpos : data.length ≠ 0) (hcredit : data.length ≤ st.sendCredit)
      (h : QueueResult (s.putStream id { st with sendCredit := st.sendCredit - data.length })
        .data id data es s' ok)
      (hscope : scope.backends = true ∧ scope.reads = some data) :
      Change scope ⟨s, t⟩ ⟨s', t ++ es⟩
  | queueClose {s s' : Session} {t es : List Event} {id : ℕ} {ok : Bool}
      (hopen : s.closed = false) (hlive : s.streams.get id = none)
      (hclosed : id ∈ s.closedStreams) (h : QueueResult s .close id [] es s' ok)
      (hrange : id ≠ 0 ∧ id ≤ maxStreamID) (hjust : JustEnded t id)
      (hscope : (∃ t₀, t = t₀ ++ [.rejected id]) ∧ scope.frames = true ∨
        (∃ b, .opened id b ∈ t) ∧ scope.endings = true) :
      Change scope ⟨s, t⟩ ⟨s', t ++ es⟩
  | endStream {s : Session} {t : List Event} {id : ℕ} {st : StreamState}
      (hst : s.streams.get id = some st) (hclosed : id ∉ s.closedStreams)
      (hscope : scope.ends = true) :
      Change scope ⟨s, t⟩ ⟨s.delStream id, t⟩
  | rememberRoom {s : Session} {t : List Event} {id : ℕ} (hopen : s.closed = false)
      (hlane : s.HasLane id) (hlive : s.streams.get id = none) (hclosed : id ∉ s.closedStreams)
      (hroom : s.closedOrder.length < s.limits.maxClosedStreamIDs) :
      Change scope ⟨s, t⟩
        ⟨{ s with closedStreams := insert id s.closedStreams
                  closedOrder := s.closedOrder ++ [id] }, t ++ [.remembered id]⟩
  | rememberFull {s : Session} {t : List Event} {id old : ℕ} (hopen : s.closed = false)
      (hlane : s.HasLane id) (hlive : s.streams.get id = none) (hclosed : id ∉ s.closedStreams)
      (hfull : ¬ s.closedOrder.length < s.limits.maxClosedStreamIDs)
      (hold : old = s.closedOrder.getD s.closedStart 0) :
      Change scope ⟨s, t⟩
        ⟨{ s with
            closedStreams := (insert id s.closedStreams).erase old
            closedOrder := s.closedOrder.set s.closedStart id
            closedStart :=
              (s.closedStart + 1) % (s.closedOrder.set s.closedStart id).length
            carrierLanes := s.carrierLanes.del old
            releasedLanes := match s.carrierLanes.get old with
              | none => s.releasedLanes
              | some l => s.releasedLanes.put l.object l.drop },
          t ++ [.remembered id] ++ [.evicted old]⟩
  | createLane {s : Session} {t : List Event} {id : ℕ} (hopen : s.closed = false)
      (hnone : s.carrierLanes.get id = none) (hrange : id ≤ maxStreamID)
      (hscope : scope.lanes = true) :
      Change scope ⟨s, t⟩ ⟨(s.createLane id).1, t⟩
  | touchLane {s : Session} {t : List Event} {id : ℕ} {l l' : CarrierLane}
      (hl : s.carrierLanes.get id = some l) (hobject : l'.object = l.object)
      (hdown : l'.down = l.down) (hsequence : l'.lastUpSequence = l.lastUpSequence)
      (hdigest : l'.lastUpDigest = l.lastUpDigest) (hscope : scope.sockets = true) :
      Change scope ⟨s, t⟩ ⟨s.putLane id l', t⟩
  | dropLane {s : Session} {t : List Event} {id : ℕ} {l : CarrierLane}
      (hl : s.carrierLanes.get id = some l) (hlive : s.streams.get id = none)
      (hcarrier : s.carrier = .webSocketLanes) (hscope : scope.sockets = true) :
      Change scope ⟨s, t⟩ ⟨s.delLane id l.drop, t⟩
  | closeChannel {s : Session} {t : List Event} {channel : ℕ} (h : channel ∉ s.closedChannels)
      (hscope : scope.polls = true) :
      Change scope ⟨s, t⟩ ⟨{ s with closedChannels := insert channel s.closedChannels }, t⟩
  | newObject {s : Session} {t : List Event} :
      Change scope ⟨s, t⟩ ⟨{ s with nextObject := s.nextObject + 1 }, t⟩
  /-- A poll arrives, leaves or signals; it arrives with everything acknowledged. -/
  | attend {s : Session} {t : List Event} {q : QueueRef} (hq : s.HasQueue q) (active : Bool)
      (superseded : Option ℕ) (notify : Bool)
      (hsuperseded : superseded ≠ none →
        superseded = (s.queue q).superseded ∨ (s.queue q).unacked = [])
      (hscope : scope.polls = true ∨ active = (s.queue q).downActive ∧
        superseded = (s.queue q).superseded ∧ (scope.tokens = true ∨ notify = true)) :
      Change scope ⟨s, t⟩
        ⟨s.setQueue q { s.queue q with downActive := active, superseded, notify }, t⟩
  | acknowledge {s : Session} {t : List Event} {q : QueueRef} (hq : s.HasQueue q)
      (hunacked : (s.queue q).unacked ≠ []) (hscope : scope.polls = true) :
      Change scope ⟨s, t⟩ ⟨s.setQueue q (s.queue q).acknowledge, t⟩
  | deliver {s : Session} {t : List Event} {q : QueueRef} {cursor mine : ℕ}
      (hq : s.HasQueue q) (hmine : (s.queue q).superseded = some mine)
      (hframes : (s.queue q).pendingFrames ≠ []) (hscope : scope.polls = true) :
      Change scope ⟨s, t⟩
        ⟨s.setQueue q (((s.queue q).takeBatch s.limits).2.deliver
            ((s.queue q).takeBatch s.limits).1 cursor),
          t ++ [.delivered q cursor ((s.queue q).takeBatch s.limits).1.body]⟩
  | close {s : Session} {t : List Event} :
      Change scope ⟨s, t⟩
        ⟨{ s with
            closed := true
            carrierLanes := s.carrierLanes.mapValues CarrierLane.drop
            streams := .nil
            down := s.down.drop }, t⟩
  /-- A batch is taken up. -/
  | batch {s : Session} {t : List Event} (hscope : scope.uplink = true) (laneID : Option ℕ)
      (sequence : ℕ) (body : Bytes) :
      Change scope ⟨s, t⟩ ⟨s, t ++ [.applying laneID sequence body]⟩
  /-- The session's uplink bookkeeping. -/
  | uplink {s : Session} {t : List Event} (hscope : scope.uplink = true) (sequence : ℕ)
      (digest : Bytes) (active : Bool) :
      Change scope ⟨s, t⟩
        ⟨{ s with lastUpSequence := sequence, lastUpDigest := digest, upActive := active }, t⟩
  /-- A lane's uplink bookkeeping. -/
  | laneUplink {s : Session} {t : List Event} (hscope : scope.uplink = true) (id object : ℕ)
      (f : CarrierLane → CarrierLane) (hobject : ∀ l, (f l).object = l.object)
      (hdown : ∀ l, (f l).down = l.down)
      (hsocket : ∀ l, (f l).websocketActive = l.websocketActive) :
      Change scope ⟨s, t⟩ ⟨s.modifyLane id object f, t⟩

variable {scope scope' : Scope}

theorem Change.mono {σ σ' : Traced} (h : Change scope σ σ') (hc : scope'.Covers scope) :
    Change scope' σ σ' := by
  obtain ⟨hframes, huplink, hlanes, hsockets, hpolls, hbackends, hendings, hends, htokens, hreads⟩
    := hc
  cases h with
  | pending cost items notify => exact .pending cost items notify
  | silent h hscope => exact .silent h fun he => hframes (hscope he)
  | attachSocket hscope => exact .attachSocket (hsockets hscope)
  | openStream h₁ h₂ h₃ h₄ h₅ h₆ hscope => exact .openStream h₁ h₂ h₃ h₄ h₅ h₆ (hframes hscope)
  | stream h₁ h₂ h₃ hscope =>
      exact .stream h₁ h₂ h₃ ⟨fun he => hframes (hscope.1 he), fun he => hbackends (hscope.2 he)⟩
  | drained h₁ h₂ h₃ h₄ h₅ h₆ h₇ hscope =>
      exact .drained h₁ h₂ h₃ h₄ h₅ h₆ h₇ (hbackends hscope)
  | read h₁ h₂ h₃ h₄ h₅ hscope =>
      exact .read h₁ h₂ h₃ h₄ h₅
        ⟨hbackends hscope.1, (hreads (by simp [hscope.2])).trans hscope.2⟩
  | queueClose h₁ h₂ h₃ h₄ h₅ h₆ hscope =>
      exact .queueClose h₁ h₂ h₃ h₄ h₅ h₆
        (hscope.imp (fun h => ⟨h.1, hframes h.2⟩) fun h => ⟨h.1, hendings h.2⟩)
  | endStream h₁ h₂ hscope => exact .endStream h₁ h₂ (hends hscope)
  | rememberRoom h₁ h₂ h₃ h₄ h₅ => exact .rememberRoom h₁ h₂ h₃ h₄ h₅
  | rememberFull h₁ h₂ h₃ h₄ h₅ h₆ => exact .rememberFull h₁ h₂ h₃ h₄ h₅ h₆
  | createLane h₁ h₂ h₃ hscope => exact .createLane h₁ h₂ h₃ (hlanes hscope)
  | touchLane h₁ h₂ h₃ h₄ h₅ hscope => exact .touchLane h₁ h₂ h₃ h₄ h₅ (hsockets hscope)
  | dropLane h₁ h₂ h₃ hscope => exact .dropLane h₁ h₂ h₃ (hsockets hscope)
  | closeChannel h hscope => exact .closeChannel h (hpolls hscope)
  | newObject => exact .newObject
  | attend hq a x n h hscope =>
      refine .attend hq a x n h ?_
      rcases hscope with h | h
      · exact .inl (hpolls h)
      · exact .inr ⟨h.1, h.2.1, h.2.2.imp_left htokens⟩
  | acknowledge hq h hscope => exact .acknowledge hq h (hpolls hscope)
  | deliver hq h₁ h₂ hscope => exact .deliver hq h₁ h₂ (hpolls hscope)
  | close => exact .close
  | batch hscope laneID sequence body => exact .batch (huplink hscope) laneID sequence body
  | uplink hscope sequence digest active =>
      exact .uplink (huplink hscope) sequence digest active
  | laneUplink hscope id object f h₁ h₂ h₃ =>
      exact .laneUplink (huplink hscope) id object f h₁ h₂ h₃

/-- Chains of changes. -/
abbrev Changes (scope : Scope) : Traced → Traced → Prop := Relation.ReflTransGen (Change scope)

theorem Changes.mono {σ σ' : Traced} (h : Changes scope σ σ') (hc : scope'.Covers scope) :
    Changes scope' σ σ' := by
  induction h with
  | refl => exact .refl
  | tail _ hstep ih => exact ih.tail (hstep.mono hc)

/-! ### The history only grows -/

theorem Change.trace_append {σ σ' : Traced} (h : Change scope σ σ') :
    ∃ es, σ'.trace = σ.trace ++ es := by
  cases h with
  | silent => exact ⟨_, rfl⟩
  | openStream => exact ⟨_, rfl⟩
  | stream => exact ⟨_, rfl⟩
  | drained => exact ⟨_, rfl⟩
  | read => exact ⟨_, rfl⟩
  | queueClose => exact ⟨_, rfl⟩
  | rememberRoom => exact ⟨_, rfl⟩
  | rememberFull => exact ⟨_, List.append_assoc _ _ _⟩
  | deliver => exact ⟨_, rfl⟩
  | batch => exact ⟨_, rfl⟩
  | _ => exact ⟨[], (List.append_nil _).symm⟩

theorem Change.trace_mono {σ σ' : Traced} (h : Change scope σ σ') {e : Event}
    (he : e ∈ σ.trace) : e ∈ σ'.trace := by
  obtain ⟨es, hes⟩ := h.trace_append
  rw [hes]
  exact List.mem_append_left _ he

theorem Changes.trace_mono {σ σ' : Traced} (h : Changes scope σ σ') {e : Event}
    (he : e ∈ σ.trace) : e ∈ σ'.trace := by
  induction h with
  | refl => exact he
  | tail _ hlast ih => exact hlast.trace_mono ih

/-- What every change preserves, a chain preserves. -/
theorem Changes.invariant {I : Traced → Prop}
    (hstep : ∀ {σ σ'}, Change scope σ σ' → I σ → I σ') {σ σ' : Traced} (h : Changes scope σ σ')
    (hI : I σ) : I σ' := by
  induction h with
  | refl => exact hI
  | tail _ hc ih => exact hstep hc ih

end TproxyServer
