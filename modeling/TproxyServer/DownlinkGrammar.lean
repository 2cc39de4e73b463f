import TproxyServer.Downlinks
import TproxyServer.Effects
import TproxyServer.Orphans
import TproxyServer.Places
import TproxyServer.UplinkCalls

/-! # What a client hears of a stream

DATA and WINDOW frames, and then at most one CLOSE.  A frame is queued for a live stream, whose
OPEN was admitted, or it is the CLOSE that ends it: `backendClosed` queues one for the stream it
takes away, and `applyBatchLocked` one for an OPEN that it refuses.  No other end is announced.

That the OPENs of a run are of different streams is what keeps the frames of one stream from
being those of another with its id. -/

namespace TproxyServer

open Interaction Prog

variable {limits : Limits} {carrier : CarrierMode} {scope : Scope} {s s' : Session}
  {t t' es : List Event} {sha256 : Bytes → Bytes}

section

variable {id : ℕ}

/-! ### Reading a history -/

/-- The types of the frames queued for the client of stream `id`, in order. -/
def queuedFor (t : List Event) (id : ℕ) : List FrameType :=
  t.filterMap fun e => match e with
    | .queued _ ty i _ => if i = id then some ty else none
    | _ => none

/-- The ids of the OPENs that were applied, admitted or refused, in order. -/
def opens (t : List Event) : List ℕ :=
  t.filterMap fun e => match e with
    | .opened id _ | .rejected id => some id
    | _ => none

/-- The types of the frames of stream `id` that wait in a queue. -/
def Downlink.waitingFor (d : Downlink) (id : ℕ) : List FrameType :=
  d.pendingFrames.filterMap fun f => if f.streamID = id then some f.typeCode else none

/-- DATA and WINDOW frames, and then at most one CLOSE. -/
def Talk (types : List FrameType) : Prop :=
  ∃ body : List FrameType, (∀ ty ∈ body, ty = .data ∨ ty = .window) ∧
    (types = body ∨ types = body ++ [.close])

/-- The session has not been closed, and is not about to be because the CLOSE for a refused OPEN
could not be queued. -/
structure StaysOpen (σ : Traced) : Prop where
  opened : σ.session.closed = false
  answered : abandonments σ.trace = []

/-- A stream was opened and is no longer live. -/
def Ended (σ : Traced) (id : ℕ) : Prop :=
  (∃ b, .opened id b ∈ σ.trace) ∧ σ.session.streams.get id = none

/-- The section with which `backendStream.run` ends its stream: after a failed dial, and once
both its loops have ended. -/
def Section.fromRelay (id : ℕ) : Section → Bool
  | .backendClosed i _ => i = id
  | _ => false

/-- The session goes on. -/
abbrev Steps (sha256 : Bytes → Bytes) : Traced → Traced → Prop :=
  Relation.ReflTransGen fun σ σ' => ∃ c r, Step sha256 σ c r σ'

@[simp] theorem queuedFor_append (t es : List Event) (id : ℕ) :
    queuedFor (t ++ es) id = queuedFor t id ++ queuedFor es id :=
  List.filterMap_append ..

@[simp] theorem opens_append (t es : List Event) : opens (t ++ es) = opens t ++ opens es :=
  List.filterMap_append ..

theorem mem_opens : id ∈ opens t ↔ (∃ b, .opened id b ∈ t) ∨ .rejected id ∈ t := by
  unfold opens
  rw [List.mem_filterMap]
  constructor
  · rintro ⟨e, he, hid⟩
    cases e with
    | opened i b =>
        cases hid
        exact .inl ⟨b, he⟩
    | rejected i =>
        cases hid
        exact .inr he
    | _ => cases hid
  · rintro (⟨b, hb⟩ | hr)
    · exact ⟨_, hb, rfl⟩
    · exact ⟨_, hr, rfl⟩

/-- A stream that was opened was not refused as well. -/
theorem opened_not_rejected (h : (opens t).Nodup) {b : ℕ} (hb : .opened id b ∈ t) :
    .rejected id ∉ t := by
  intro hr
  obtain ⟨t₀, t₁, rfl⟩ := List.append_of_mem hb
  have hsplit : opens (t₀ ++ .opened id b :: t₁) = opens t₀ ++ id :: opens t₁ :=
    opens_append t₀ _
  rw [hsplit, List.nodup_middle, List.nodup_cons] at h
  refine h.1 (List.mem_append.mpr ?_)
  rcases List.mem_append.mp hr with hr | hr
  · exact .inl (mem_opens.mpr (.inr hr))
  · rcases List.mem_cons.mp hr with hr | hr
    · cases hr
    · exact .inr (mem_opens.mpr (.inr hr))

/-- Events that open no stream and queue nothing. -/
def Event.unspoken : Event → Bool
  | .queued _ _ _ _ | .opened _ _ | .rejected _ => false
  | _ => true

theorem queuedFor_unspoken (h : ∀ e ∈ es, e.unspoken = true) (id : ℕ) :
    queuedFor es id = [] ∧ opens es = [] := by
  constructor
  · refine List.filterMap_eq_nil_iff.mpr fun e he => ?_
    have := h e he
    cases e <;> simp_all [Event.unspoken]
  · refine List.filterMap_eq_nil_iff.mpr fun e he => ?_
    have := h e he
    cases e <;> simp_all [Event.unspoken]

/-- What a queue says of an attempt. -/
theorem QueueResult.heard {ty : FrameType} {payload : Bytes} {ok : Bool}
    (h : QueueResult s ty id payload es s' ok) :
    (∀ i, queuedFor es i = if ok = true ∧ i = id then [ty] else []) ∧ opens es = [] ∧
      (∀ i, .rejected i ∉ es) ∧ es ≠ [] := by
  cases h with
  | refused => exact ⟨fun i => by simp [queuedFor], rfl, by simp, by simp⟩
  | accepted =>
      refine ⟨fun i => ?_, rfl, by simp, by simp⟩
      by_cases hi : id = i
      · simp [queuedFor, hi]
      · simp [queuedFor, hi, Ne.symm hi]

theorem Changes.opens_nodup {σ σ' : Traced} (h : Changes scope σ σ')
    (honce : (opens σ'.trace).Nodup) : (opens σ.trace).Nodup := by
  induction h with
  | refl => exact honce
  | tail _ hlast ih =>
      obtain ⟨es, he⟩ := hlast.trace_append
      rw [he, opens_append] at honce
      exact ih (List.Nodup.of_append_left honce)

/-! ### The invariant -/

/-- What was queued for the client of each stream, as long as every OPEN is for another. -/
structure Heard (σ : Traced) : Prop where
  talk : ∀ id, Talk (queuedFor σ.trace id)
  live : ∀ id, σ.session.streams.get id ≠ none → .close ∉ queuedFor σ.trace id
  unopened : ∀ id, id ∉ opens σ.trace → queuedFor σ.trace id = []
  rejected : ∀ id, .rejected id ∈ σ.trace →
    queuedFor σ.trace id = [] ∨ queuedFor σ.trace id = [.close]
  fresh : ∀ t₀ id, σ.trace = t₀ ++ [.rejected id] → queuedFor σ.trace id = []

theorem Talk.nil : Talk [] := ⟨[], by simp, .inl rfl⟩

/-- A frame follows where no CLOSE was queued. -/
theorem Talk.push {types : List FrameType} {ty : FrameType} (h : Talk types)
    (hopen : .close ∉ types) (hty : ty = .data ∨ ty = .window ∨ ty = .close) :
    Talk (types ++ [ty]) := by
  obtain ⟨body, hbody, he | he⟩ := h
  · subst he
    by_cases hclose : ty = .close
    · subst hclose
      exact ⟨types, hbody, .inr rfl⟩
    · refine ⟨types ++ [ty], fun u hu => ?_, .inl rfl⟩
      rcases List.mem_append.mp hu with hu | hu
      · exact hbody u hu
      · rw [List.mem_singleton.mp hu]
        exact hty.imp_right fun h => h.resolve_right hclose
  · subst he
    exact absurd (List.mem_append_right body (List.mem_singleton_self _)) hopen

namespace Heard

/-- Nothing is queued and no stream opened. -/
theorem quiet (h : Heard ⟨s, t⟩) (hes : ∀ e ∈ es, e.unspoken = true)
    (hstreams : ∀ id, s'.streams.get id ≠ none → s.streams.get id ≠ none) :
    Heard ⟨s', t ++ es⟩ := by
  have hqueued : ∀ id, queuedFor (t ++ es) id = queuedFor t id := by
    intro id
    rw [queuedFor_append, (queuedFor_unspoken hes id).1, List.append_nil]
  have hopens : opens (t ++ es) = opens t := by
    rw [opens_append, (queuedFor_unspoken hes 0).2, List.append_nil]
  have hrejected : ∀ i, .rejected i ∈ t ++ es → .rejected i ∈ t := by
    intro i hm
    refine (List.mem_append.mp hm).resolve_right fun hm => ?_
    exact absurd (hes _ hm) (by simp [Event.unspoken])
  refine ⟨fun i => ?_, fun i hn => ?_, fun i hn => ?_, fun i hm => ?_, fun t₀ i he => ?_⟩
  · rw [hqueued]
    exact h.talk i
  · rw [hqueued]
    exact h.live i (hstreams i hn)
  · rw [hqueued]
    rw [hopens] at hn
    exact h.unopened i hn
  · rw [hqueued]
    exact h.rejected i (hrejected i hm)
  · rw [hqueued]
    have he' : t ++ es = t₀ ++ [.rejected i] := he
    cases hlast : es.getLast? with
    | none =>
        rw [List.getLast?_eq_none_iff.mp hlast, List.append_nil] at he'
        exact h.fresh t₀ i he'
    | some e =>
        have hend := congrArg List.getLast? he'
        rw [List.getLast?_append, hlast, List.getLast?_concat] at hend
        cases hend
        exact absurd (hes _ (List.mem_of_getLast? hlast)) (by simp [Event.unspoken])

/-- A frame is queued, or refused. -/
theorem queue {s₀ : Session} {ty : FrameType} {payload : Bytes} {ok : Bool} (h : Heard ⟨s, t⟩)
    (hq : QueueResult s₀ ty id payload es s' ok)
    (hstreams : ∀ i, s'.streams.get i ≠ none → s.streams.get i ≠ none)
    (hid : id ∈ opens t) (hopen : .close ∉ queuedFor t id)
    (hty : ty = .data ∨ ty = .window ∨ ty = .close ∧ s'.streams.get id = none)
    (hrejected : .rejected id ∈ t → queuedFor t id ++ [ty] = [.close]) :
    Heard ⟨s', t ++ es⟩ := by
  obtain ⟨hqueued, hopens, hnone, hne⟩ := hq.heard
  have hmem : ∀ i, .rejected i ∈ t ++ es → .rejected i ∈ t :=
    fun i hm => (List.mem_append.mp hm).resolve_right (hnone i)
  have hlast : ∀ t₀ i, t ++ es ≠ t₀ ++ [.rejected i] := by
    intro t₀ i he
    obtain ⟨e, hl⟩ : ∃ e, es.getLast? = some e := by
      rw [← Option.isSome_iff_exists, List.getLast?_isSome]
      exact hne
    have hend := congrArg List.getLast? he
    rw [List.getLast?_append, hl, List.getLast?_concat] at hend
    cases hend
    exact hnone i (List.mem_of_getLast? hl)
  refine ⟨fun i => ?_, fun i hn => ?_, fun i hn => ?_, fun i hm => ?_,
    fun t₀ i he => absurd he (hlast t₀ i)⟩
  · rw [queuedFor_append, hqueued]
    split_ifs with hi
    · obtain ⟨-, rfl⟩ := hi
      exact (h.talk i).push hopen (hty.imp_right (Or.imp_right And.left))
    · rw [List.append_nil]
      exact h.talk i
  · rw [queuedFor_append, hqueued]
    split_ifs with hi
    · obtain ⟨-, rfl⟩ := hi
      intro hm
      rcases List.mem_append.mp hm with hm | hm
      · exact hopen hm
      · rcases hty with hty | hty | ⟨-, hend⟩
        · simp [hty] at hm
        · simp [hty] at hm
        · exact hn hend
    · rw [List.append_nil]
      exact h.live i (hstreams i hn)
  · rw [opens_append, hopens, List.append_nil] at hn
    rw [queuedFor_append, hqueued, if_neg, List.append_nil]
    · exact h.unopened i hn
    · rintro ⟨-, rfl⟩
      exact hn hid
  · rw [queuedFor_append, hqueued]
    split_ifs with hi
    · obtain ⟨-, rfl⟩ := hi
      exact .inr (hrejected (hmem i hm))
    · rw [List.append_nil]
      exact h.rejected i (hmem i hm)

end Heard

/-! ### The changes keep it -/

theorem Event.silent_unspoken {e : Event} (h : e.silent = true) :
    e.unspoken = true ∨ ∃ id, e = .rejected id := by
  cases e with
  | rejected id => exact .inr ⟨id, rfl⟩
  | abandoned | cancelled | finished => exact .inl rfl
  | _ => cases h

theorem Event.silent_queuedFor {e : Event} (h : e.silent = true) (id : ℕ) :
    queuedFor [e] id = [] := by
  cases e <;> simp_all [Event.silent, queuedFor]

theorem StreamStep.unspoken {st st' : StreamState} (h : StreamStep id st es st') :
    ∀ e ∈ es, e.unspoken = true := by
  cases h <;> simp [Event.unspoken]

/-- What a change queues and opens, but for the frames of a stream, the CLOSE frames and the
OPENs: nothing. -/
theorem Change.unspoken {σ σ' : Traced} (h : Change scope σ σ') (hframes : scope.frames = false)
    (hbackends : scope.backends = false) (hendings : scope.endings = false) :
    ∃ es, σ'.trace = σ.trace ++ es ∧ ∀ e ∈ es, e.unspoken = true := by
  cases h with
  | @silent s t e he hscope =>
      refine ⟨[e], rfl, fun e' hm => ?_⟩
      rw [List.mem_singleton.mp hm]
      rcases Event.silent_unspoken he with hu | ⟨i, rfl⟩
      · exact hu
      · refine absurd (hscope fun hmute => ?_) (by simp [hframes])
        exact absurd hmute.1 (by simp [uplinkEvents, Event.ofUplink])
  | openStream _ _ _ _ _ _ hscope => exact absurd hscope (by simp [hframes])
  | @stream s t es id st st' _ _ h _ => exact ⟨es, rfl, h.unspoken⟩
  | drained _ _ _ _ _ _ _ hscope => exact absurd hscope (by simp [hbackends])
  | read _ _ _ _ _ hscope => exact absurd hscope.1 (by simp [hbackends])
  | queueClose _ _ _ _ _ _ hscope => simp [hframes, hendings] at hscope
  | rememberRoom => exact ⟨_, rfl, by simp [Event.unspoken]⟩
  | rememberFull => exact ⟨_, List.append_assoc _ _ _, by simp [Event.unspoken]⟩
  | deliver => exact ⟨_, rfl, by simp [Event.unspoken]⟩
  | batch => exact ⟨_, rfl, by simp [Event.unspoken]⟩
  | _ => exact ⟨[], (List.append_nil _).symm, by simp⟩

/-- A change that opens no stream makes none live. -/
theorem Change.streams_of_open {σ σ' : Traced} (h : Change scope σ σ')
    (hid : σ'.session.streams.get id ≠ none) :
    σ.session.streams.get id ≠ none ∨ ∃ b, σ'.trace = σ.trace ++ [.opened id b] := by
  have hqueue : ∀ {s s' : Session} {ty : FrameType} {i : ℕ} {payload : Bytes} {es : List Event}
      {ok : Bool}, QueueResult s ty i payload es s' ok → s'.streams.get id ≠ none →
      s.streams.get id ≠ none :=
    fun h hn => (Keeps.queueResult h).1.streams id hn
  have hput : ∀ {s : Session} {i : ℕ} {st st' : StreamState}, s.streams.get i = some st →
      (s.putStream i st').streams.get id ≠ none → s.streams.get id ≠ none :=
    fun hst hn => (Keeps.putStream _ hst).streams id hn
  cases h with
  | @openStream s t i _ _ _ _ _ _ _ =>
      have hn : (s.streams.put i (newStream s.nextObject)).get id ≠ none := hid
      rw [Table.get_put] at hn
      split_ifs at hn with hi
      · subst hi
        exact .inr ⟨s.nextObject, rfl⟩
      · exact .inl hn
  | stream _ hst _ _ => exact .inl (hput hst hid)
  | drained _ hst _ _ _ _ h _ => exact .inl (hput hst (hqueue h hid))
  | read _ hst _ _ h _ => exact .inl (hput hst (hqueue h hid))
  | queueClose _ _ _ h _ _ _ => exact .inl (hqueue h hid)
  | endStream => exact .inl ((Keeps.delStream _ _).streams id hid)
  | attend => exact .inl ((Keeps.setQueue _ _ _).streams id hid)
  | acknowledge => exact .inl ((Keeps.setQueue _ _ _).streams id hid)
  | deliver => exact .inl ((Keeps.setQueue _ _ _).streams id hid)
  | close => exact absurd (Table.get_nil id) hid
  | laneUplink => exact .inl ((Keeps.modifyLane _ _ _ _).streams id hid)
  | _ => exact .inl hid

/-- **Every change but the end of a backend keeps the grammar.** -/
theorem Change.heard {σ σ' : Traced} (h : Change scope σ σ') (hscope : scope.endings = false)
    (hs : Sound limits carrier σ) (honce : (opens σ'.trace).Nodup) (hI : Heard σ) : Heard σ' := by
  have hstreams := fun i => @Change.streams_of_open scope i σ σ' h
  have hlive : ∀ i, σ.session.streams.get i ≠ none → (opens σ.trace).Nodup →
      i ∈ opens σ.trace ∧ .close ∉ queuedFor σ.trace i ∧ .rejected i ∉ σ.trace := by
    intro i hn hd
    obtain ⟨-, -, b, hb⟩ := hs.known i hn
    exact ⟨mem_opens.mpr (.inl ⟨b, hb⟩), hI.live i hn, opened_not_rejected hd hb⟩
  have hdup : (opens σ.trace).Nodup := Changes.opens_nodup (.single h) honce
  -- a change that opens nothing and queues nothing
  have hquiet : ∀ {es : List Event}, σ'.trace = σ.trace ++ es →
      (∀ e ∈ es, e.unspoken = true) → Heard σ' := by
    intro es he hes
    obtain ⟨s, t⟩ := σ
    obtain ⟨s', t'⟩ := σ'
    cases he
    refine hI.quiet hes fun i hn => (hstreams i hn).resolve_right ?_
    rintro ⟨b, hb⟩
    rw [List.append_cancel_left hb] at hes
    exact absurd (hes (.opened i b) (by simp)) (by simp [Event.unspoken])
  cases h with
  | @silent s t e he _ =>
      rcases Event.silent_unspoken he with hu | ⟨i, rfl⟩
      · exact hquiet rfl (by simpa using hu)
      · have hnew : i ∉ opens t := by
          have happ : opens (t ++ [.rejected i]) = opens t ++ [i] := opens_append t _
          rw [happ, List.nodup_append] at honce
          intro hm
          exact honce.2.2 i hm i (by simp) rfl
        have hsame : ∀ k, queuedFor (t ++ [.rejected i]) k = queuedFor t k := by
          intro k
          rw [queuedFor_append]
          exact List.append_nil _
        have hnone := hI.unopened i hnew
        refine ⟨fun k => ?_, fun k hn => ?_, fun k hn => ?_, fun k hm => ?_, fun t₀ k he => ?_⟩
        · rw [hsame]
          exact hI.talk k
        · rw [hsame]
          exact hI.live k hn
        · rw [hsame]
          rw [opens_append] at hn
          exact hI.unopened k fun hm => hn (List.mem_append_left _ hm)
        · rw [hsame]
          rcases List.mem_append.mp hm with hm | hm
          · exact hI.rejected k hm
          · cases List.mem_singleton.mp hm
            exact .inl hnone
        · rw [hsame]
          have hk := congrArg List.getLast? he
          rw [List.getLast?_concat, List.getLast?_concat] at hk
          cases hk
          exact hnone
  | @openStream s t i _ _ _ _ _ _ _ =>
      have hnew : i ∉ opens t := by
        have happ : opens (t ++ [.opened i s.nextObject]) = opens t ++ [i] := opens_append t _
        rw [happ, List.nodup_append] at honce
        intro hm
        exact honce.2.2 i hm i (by simp) rfl
      have hsame : ∀ k, queuedFor (t ++ [.opened i s.nextObject]) k = queuedFor t k := by
        intro k
        rw [queuedFor_append]
        exact List.append_nil _
      refine ⟨fun k => ?_, fun k hn => ?_, fun k hn => ?_, fun k hm => ?_, fun t₀ k he => ?_⟩
      · rw [hsame]
        exact hI.talk k
      · rw [hsame]
        rcases hstreams k hn with hn | ⟨b, hb⟩
        · exact hI.live k hn
        · have hk := List.append_cancel_left hb
          cases hk
          rw [hI.unopened i hnew]
          simp
      · rw [hsame]
        rw [opens_append] at hn
        exact hI.unopened k fun hm => hn (List.mem_append_left _ hm)
      · rw [hsame]
        exact hI.rejected k (by simpa using hm)
      · have hk := congrArg List.getLast? he
        rw [List.getLast?_concat, List.getLast?_concat] at hk
        cases hk
  | @stream s t es i st st' _ _ h _ => exact hquiet rfl h.unspoken
  | @drained s s' t es i amount st ok _ hst _ _ _ _ h _ =>
      obtain ⟨hid, hopen, hrej⟩ := hlive i (by simp [hst]) hdup
      refine hI.queue h (fun k hn => ?_) hid hopen (.inr (.inl rfl)) fun hm => absurd hm hrej
      exact (Keeps.putStream _ hst).streams k ((Keeps.queueResult h).1.streams k hn)
  | @read s s' t es i st data ok _ hst _ _ h _ =>
      obtain ⟨hid, hopen, hrej⟩ := hlive i (by simp [hst]) hdup
      refine hI.queue h (fun k hn => ?_) hid hopen (.inl rfl) fun hm => absurd hm hrej
      exact (Keeps.putStream _ hst).streams k ((Keeps.queueResult h).1.streams k hn)
  | @queueClose s s' t es i ok _ hnone _ h _ _ hend =>
      simp only [hscope, Bool.false_eq_true, and_false, or_false] at hend
      obtain ⟨⟨t₀, rfl⟩, -⟩ := hend
      have hempty := hI.fresh t₀ i rfl
      have hempty' : queuedFor (t₀ ++ [.rejected i]) i = [] := hempty
      refine hI.queue h (Keeps.queueResult h).1.streams (mem_opens.mpr (.inr (by simp)))
        (by rw [hempty']; simp) (.inr (.inr ⟨rfl, ?_⟩)) fun _ => by rw [hempty']; rfl
      by_contra hn
      exact (Keeps.queueResult h).1.streams i hn hnone
  | rememberRoom => exact hquiet rfl (by simp [Event.unspoken])
  | rememberFull => exact hquiet (List.append_assoc _ _ _) (by simp [Event.unspoken])
  | deliver => exact hquiet rfl (by simp [Event.unspoken])
  | batch => exact hquiet rfl (by simp [Event.unspoken])
  | _ => exact hquiet (List.append_nil _).symm (by simp)

theorem Changes.heard {σ σ' : Traced} (h : Changes scope σ σ') (hscope : scope.endings = false)
    (hs : Sound limits carrier σ) (honce : (opens σ'.trace).Nodup) (hI : Heard σ) : Heard σ' := by
  induction h with
  | refl => exact hI
  | tail hfirst hlast ih =>
      exact hlast.heard hscope (Changes.sound hfirst hs) honce
        (ih (Changes.opens_nodup (.single hlast) honce))

/-- Only a CLOSE that answers a refused OPEN is queued. -/
theorem Changes.close_queued {σ σ' : Traced} (h : Changes scope σ σ')
    (hscope : scope.endings = false) (hid : .close ∈ queuedFor σ'.trace id) :
    .close ∈ queuedFor σ.trace id ∨ .rejected id ∈ σ'.trace := by
  induction h with
  | refl => exact .inl hid
  | @tail σ₁ σ₂ hfirst hlast ih =>
      have hone : .close ∈ queuedFor σ₁.trace id ∨ .rejected id ∈ σ₂.trace := by
        have hquiet : ∀ {es : List Event}, σ₂.trace = σ₁.trace ++ es →
            .close ∉ queuedFor es id → .close ∈ queuedFor σ₁.trace id := by
          intro es he hes
          rw [he, queuedFor_append] at hid
          exact (List.mem_append.mp hid).resolve_right hes
        have hunspoken : ∀ {es : List Event}, σ₂.trace = σ₁.trace ++ es →
            (∀ e ∈ es, e.unspoken = true) → .close ∈ queuedFor σ₁.trace id :=
          fun he hes => hquiet he (by rw [(queuedFor_unspoken hes id).1]; simp)
        have hother : ∀ {s s' : Session} {ty : FrameType} {i : ℕ} {payload : Bytes}
            {es : List Event} {ok : Bool}, QueueResult s ty i payload es s' ok → ty ≠ .close →
            .close ∉ queuedFor es id := by
          intro s s' ty i payload es ok h hne
          rw [h.heard.1]
          split_ifs
          · simp [hne.symm]
          · simp
        clear ih
        cases hlast with
        | @silent s t e he _ =>
            refine .inl (hquiet rfl ?_)
            rw [Event.silent_queuedFor he]
            simp
        | openStream => exact .inl (hquiet rfl (by simp [queuedFor]))
        | @stream s t es i st st' _ _ h _ => exact .inl (hunspoken rfl h.unspoken)
        | drained _ _ _ _ _ _ h _ => exact .inl (hquiet rfl (hother h (by simp)))
        | read _ _ _ _ h _ => exact .inl (hquiet rfl (hother h (by simp)))
        | @queueClose s s' t es i ok _ _ _ h _ _ hend =>
            simp only [hscope, Bool.false_eq_true, and_false, or_false] at hend
            obtain ⟨⟨t₀, rfl⟩, -⟩ := hend
            by_cases hi : id = i
            · subst hi
              exact .inr (by simp)
            · refine .inl (hquiet rfl ?_)
              rw [h.heard.1, if_neg fun h => hi h.2]
              simp
        | rememberRoom => exact .inl (hunspoken rfl (by simp [Event.unspoken]))
        | rememberFull =>
            exact .inl (hunspoken (List.append_assoc _ _ _) (by simp [Event.unspoken]))
        | deliver => exact .inl (hunspoken rfl (by simp [Event.unspoken]))
        | batch => exact .inl (hunspoken rfl (by simp [Event.unspoken]))
        | _ => exact .inl (hunspoken (List.append_nil _).symm (by simp))
      rcases hone with hone | hone
      · rcases ih hone with hold | hrej
        · exact .inl hold
        · exact .inr (hlast.trace_mono hrej)
      · exact .inr hone

/-- **A stream that has ended is not heard of again**, but for the end of a backend, which
`backendClosed_heard` is about. -/
theorem Change.stays_ended {σ σ' : Traced} (h : Change scope σ σ')
    (hscope : scope.endings = false) (honce : (opens σ'.trace).Nodup) (hid : Ended σ id) :
    Ended σ' id ∧ queuedFor σ'.trace id = queuedFor σ.trace id := by
  obtain ⟨⟨b, hb⟩, hnone⟩ := hid
  have hb' := h.trace_mono hb
  have hrej := opened_not_rejected honce hb'
  refine ⟨⟨⟨b, hb'⟩, ?_⟩, ?_⟩
  · by_contra hn
    rcases h.streams_of_open hn with hn | ⟨b', he⟩
    · exact hn hnone
    · rw [he, opens_append, List.nodup_append] at honce
      exact honce.2.2 id (mem_opens.mpr (.inl ⟨b, hb⟩)) id (by simp [opens]) rfl
  · have hquiet : ∀ {es : List Event}, σ'.trace = σ.trace ++ es →
        queuedFor es id = [] → queuedFor σ'.trace id = queuedFor σ.trace id := by
      intro es he hes
      rw [he, queuedFor_append, hes, List.append_nil]
    have hother : ∀ {s s' : Session} {ty : FrameType} {i : ℕ} {payload : Bytes}
        {es : List Event} {ok : Bool}, QueueResult s ty i payload es s' ok → id ≠ i →
        queuedFor es id = [] := by
      intro s s' ty i payload es ok h hne
      rw [h.heard.1, if_neg fun h => hne h.2]
    have hunspoken : ∀ {es : List Event}, σ'.trace = σ.trace ++ es →
        (∀ e ∈ es, e.unspoken = true) → queuedFor σ'.trace id = queuedFor σ.trace id :=
      fun he hes => hquiet he (queuedFor_unspoken hes id).1
    cases h with
    | @silent s t e he _ =>
        exact hquiet rfl (Event.silent_queuedFor he id)
    | openStream => exact hquiet rfl rfl
    | stream _ _ h _ => exact hunspoken rfl h.unspoken
    | drained _ hst _ _ _ _ h _ =>
        refine hquiet rfl (hother h ?_)
        rintro rfl
        rw [show _ = none from hnone] at hst
        cases hst
    | read _ hst _ _ h _ =>
        refine hquiet rfl (hother h ?_)
        rintro rfl
        rw [show _ = none from hnone] at hst
        cases hst
    | @queueClose s s' t es i ok _ _ _ h _ _ hend =>
        simp only [hscope, Bool.false_eq_true, and_false, or_false] at hend
        obtain ⟨⟨t₀, rfl⟩, -⟩ := hend
        refine hquiet rfl (hother h ?_)
        rintro rfl
        exact hrej (by simp)
    | rememberRoom => exact hunspoken rfl (by simp [Event.unspoken])
    | rememberFull => exact hunspoken (List.append_assoc _ _ _) (by simp [Event.unspoken])
    | deliver => exact hunspoken rfl (by simp [Event.unspoken])
    | batch => exact hunspoken rfl (by simp [Event.unspoken])
    | _ => exact hunspoken (List.append_nil _).symm (by simp)

theorem Changes.stays_ended {σ σ' : Traced} (h : Changes scope σ σ')
    (hscope : scope.endings = false) (honce : (opens σ'.trace).Nodup) (hid : Ended σ id) :
    Ended σ' id ∧ queuedFor σ'.trace id = queuedFor σ.trace id := by
  induction h with
  | refl => exact ⟨hid, rfl⟩
  | tail _ hlast ih =>
      obtain ⟨hended, hqueued⟩ := ih (Changes.opens_nodup (.single hlast) honce)
      obtain ⟨hended', hqueued'⟩ := hlast.stays_ended hscope honce hended
      exact ⟨hended', hqueued'.trans hqueued⟩

/-! ### The end of a backend -/

theorem Changes.unspoken {σ σ' : Traced} (h : Changes scope σ σ') (hframes : scope.frames = false)
    (hbackends : scope.backends = false) (hendings : scope.endings = false) :
    (∀ id, queuedFor σ'.trace id = queuedFor σ.trace id) ∧
      opens σ'.trace = opens σ.trace := by
  induction h with
  | refl => exact ⟨fun _ => rfl, rfl⟩
  | tail _ hlast ih =>
      obtain ⟨es, he, hes⟩ := hlast.unspoken hframes hbackends hendings
      constructor
      · intro id
        rw [he, queuedFor_append, (queuedFor_unspoken hes id).1, List.append_nil]
        exact ih.1 id
      · rw [he, opens_append, (queuedFor_unspoken hes 0).2, List.append_nil]
        exact ih.2

/-- What `backendClosed` does to its stream: nothing, or it ends it with a CLOSE, unless the
session is closed after it. -/
structure BackendEnds (id : ℕ) (s : Session) (t : List Event) (s' : Session) (t' : List Event) :
    Prop where
  heard : Heard ⟨s', t'⟩
  opens : opens t' = opens t
  others : ∀ i, i ≠ id → queuedFor t' i = queuedFor t i
  outcome : s'.closed = true ∨
    (s'.streams = s.streams ∧ queuedFor t' id = queuedFor t id) ∨
    (s.streams.get id ≠ none ∧ s'.streams = s.streams.del id ∧
      queuedFor t' id = queuedFor t id ++ [.close])

theorem BackendEnds.cancelled {backends : List ℕ} (h : BackendEnds id s t s' t') :
    BackendEnds id s t s' (t' ++ [.cancelled backends]) := by
  have hqueued : ∀ i, queuedFor (t' ++ [.cancelled backends]) i = queuedFor t' i := by
    intro i
    rw [queuedFor_append]
    exact List.append_nil _
  refine ⟨h.heard.quiet (by simp [Event.unspoken]) fun _ hn => hn, ?_, fun i hi => ?_, ?_⟩
  · rw [opens_append]
    exact (List.append_nil _).trans h.opens
  · rw [hqueued]
    exact h.others i hi
  · rw [hqueued]
    exact h.outcome

theorem backendClosed_heard (hs : Sound limits carrier ⟨s, t⟩) (honce : (opens t).Nodup)
    (hI : Heard ⟨s, t⟩) (id backend : ℕ) :
    wp observer (backendClosed s id backend) (fun t' s' => BackendEnds id s t s' t') t := by
  have hidle : BackendEnds id s t s t :=
    ⟨hI, rfl, fun _ _ => rfl, .inr (.inl ⟨rfl, rfl⟩)⟩
  unfold backendClosed
  cases hst : s.streams.get id with
  | none => exact hidle.cancelled
  | some state =>
      dsimp only
      split_ifs with hbad
      · exact hidle.cancelled
      · simp only [not_or, not_not] at hbad
        have hopen : s.closed = false := by simpa using hbad.1
        have hclosed := hs.disjoint id (by simp [hst])
        refine wp_seq (releaseStreamWritesLocked_obs _ state) ?_
        rintro t₁ s₁ ⟨rfl, cost, items, notify, rfl⟩
        have hend : Change { ends := true } ⟨s.setPending cost items notify, t₁⟩ _ :=
          .endStream hst hclosed rfl
        have hc₁ : Changes { ends := true } ⟨s, t₁⟩ _ :=
          .head (.pending cost items notify) (.single hend)
        have hhas : True → ((s.setPending cost items notify).delStream id).HasLane id :=
          fun _ hu => hs.lanes hu id (by simp [hst])
        refine wp_seq (rememberClosedLocked_obs (Changes.sound hc₁ hs).toRing hopen (by simp)
          hhas) ?_
        rintro t₂ s₂ ⟨hc₂, hr⟩
        replace hc₂ := hc₁.trans (Changes.mono (hc₂ trivial) (Scope.covers_quiet _))
        obtain ⟨hqueued, hopens⟩ := Changes.unspoken hc₂ rfl rfl rfl
        have hopens₂ : opens t₂ = opens t₁ := hopens
        have hqueued₂ : ∀ i, queuedFor t₂ i = queuedFor t₁ i := hqueued
        have honce₂ : (opens t₂).Nodup := hopens₂ ▸ honce
        have hI₂ : Heard ⟨s₂, t₂⟩ := Changes.heard hc₂ rfl hs honce₂ hI
        refine wp_seq (queueFrameLocked_obs s₂ .close id []) ?_
        rintro t₃ ⟨s₃, ok⟩ ⟨es, rfl, hq⟩
        obtain ⟨hheard, hnoopen, -, -⟩ := hq.heard
        obtain ⟨hstreams₃, -, -⟩ := hq.closedStreams
        have hdel : s₃.streams = s.streams.del id := hstreams₃.trans hr.streams
        obtain ⟨-, -, b, hb⟩ := hs.known id (by simp [hst])
        have hlive : .close ∉ queuedFor t₂ id := by
          rw [hqueued₂]
          exact hI.live id (by simp [hst])
        have hI₃ : Heard ⟨s₃, t₂ ++ es⟩ := by
          refine hI₂.queue hq (Keeps.queueResult hq).1.streams ?_ hlive
            (.inr (.inr ⟨rfl, by rw [hdel]; simp⟩)) fun hm => ?_
          · rw [hopens₂]
            exact mem_opens.mpr (.inl ⟨b, hb⟩)
          · exact absurd hm (opened_not_rejected honce₂ (hr.past.subset hb))
        have hopens₃ : opens (t₂ ++ es) = opens t₁ := by
          rw [opens_append, hnoopen, List.append_nil, hopens₂]
        have hothers : ∀ i, i ≠ id → queuedFor (t₂ ++ es) i = queuedFor t₁ i := by
          intro i hi
          rw [queuedFor_append, hheard, if_neg fun h => hi h.2, List.append_nil, hqueued₂]
        cases ok with
        | true =>
            refine BackendEnds.cancelled ⟨hI₃, hopens₃, hothers, .inr (.inr ⟨by simp [hst], hdel, ?_⟩)⟩
            rw [queuedFor_append, hheard, if_pos ⟨rfl, rfl⟩, hqueued₂]
        | false =>
            refine wp_seq (wp_and (closeLocked_obs s₃ _) (closeLocked_closed s₃)) ?_
            rintro t₄ s₄ ⟨hc₄, hclosed₄⟩
            obtain ⟨hqueued₄, hopens₄⟩ := Changes.unspoken hc₄ rfl rfl rfl
            refine BackendEnds.cancelled ⟨?_, hopens₄.trans hopens₃, fun i hi => ?_,
              .inl hclosed₄⟩
            · have hs₃ : Sound limits carrier ⟨s₃, t₂ ++ es⟩ :=
                (Changes.sound hc₂ hs).keeps (Keeps.queueResult hq).1 (Keeps.queueResult hq).2
              refine Changes.heard hc₄ rfl hs₃ ?_ hI₃
              exact (hopens₄.trans hopens₃) ▸ honce
            · exact (hqueued₄ i).trans (hothers i hi)

/-! ### Refused OPENs are answered -/

/-- Every OPEN that was refused got its CLOSE, or was the last of its batch to be applied. -/
def Answered (t : List Event) : Prop :=
  ∀ id, .rejected id ∈ t → .close ∈ queuedFor t id ∨ id ∈ abandonments t

theorem Answered.append (h : Answered t) (hes : ∀ id, .rejected id ∉ es) :
    Answered (t ++ es) := by
  intro id hm
  rw [queuedFor_append, abandonments_append]
  rcases h id ((List.mem_append.mp hm).resolve_right (hes id)) with hc | ha
  · exact .inl (List.mem_append_left _ hc)
  · exact .inr (List.mem_append_left _ ha)

/-- Nothing of the uplink happened. -/
theorem Answered.quiet (h : Answered t) (hpast : t <+: t') (hquiet : Quiet t t') :
    Answered t' := by
  obtain ⟨es, rfl⟩ := hpast
  refine h.append fun id hm => ?_
  have hnone := hquiet.1
  rw [uplinkEvents_append, List.append_right_eq_self] at hnone
  have hmem : Event.rejected id ∈ uplinkEvents es := List.mem_filter.mpr ⟨hm, rfl⟩
  rw [hnone] at hmem
  cases hmem

/-- An OPEN is refused, and what follows answers it. -/
theorem Answered.refused (h : Answered t) (hes : ∀ i, .rejected i ∉ es)
    (hid : .close ∈ queuedFor es id ∨ id ∈ abandonments es) :
    Answered (t ++ [.rejected id] ++ es) := by
  intro i hm
  have hm' : .rejected i ∈ t ∨ i = id := by
    simpa using (List.mem_append.mp hm).resolve_right (hes i)
  simp only [queuedFor_append, abandonments_append, List.mem_append]
  rcases hm' with hm' | rfl
  · rcases h i hm' with hc | ha
    · exact .inl (.inl (.inl hc))
    · exact .inr (.inl (.inl ha))
  · rcases hid with hc | ha
    · exact .inl (.inr hc)
    · exact .inr (.inr ha)

/-- Every frame keeps the answers, a refused OPEN with what follows it. -/
theorem answered_lasting : Lasting Answered where
  other t e he h := h.append fun id hm => by
    rw [← List.mem_singleton.mp hm] at he
    cases he
  refusal t id es hes h := by
    cases hes with
    | queued q => exact h.refused (by simp) (.inl (by simp [queuedFor]))
    | abandoned => exact h.refused (by simp) (.inr (by simp [abandonments]))

/-- The sections of an uplink request answer the OPENs they refuse. -/
theorem Step.answered {σ σ' : Traced} {c : Section} {reply : Reply}
    (hstep : Step sha256 σ c reply σ') (hs : Sound limits carrier σ) (h : Answered σ.trace) :
    Answered σ'.trace := by
  by_cases hframes : c.scope.frames = false
  · have huplink : c.scope.uplink = false := by
      cases c <;> first | rfl | cases hframes
    refine (hstep.changes hs).invariant (I := fun τ => Answered τ.trace) ?_ h
    intro σ₁ σ₂ hc h₁
    have hquiet := hc.quiet hframes huplink
    obtain ⟨es, he⟩ := hc.trace_append
    exact h₁.quiet ⟨es, he.symm⟩ hquiet
  · exact answered_lasting.step hstep (by simpa using hframes) h

/-! ### What waits in the queues -/

theorem filterMap_set_of_eq {α β : Type} {g : α → Option β} {l : List α} {i : ℕ} {a b : α}
    (ha : l[i]? = some a) (hg : g b = g a) : (l.set i b).filterMap g = l.filterMap g := by
  induction l generalizing i with
  | nil => rfl
  | cons c l ih =>
      cases i with
      | zero =>
          cases ha
          rw [List.set_cons_zero, List.filterMap_cons, List.filterMap_cons, hg]
      | succ i =>
          rw [List.set_cons_succ, List.filterMap_cons, List.filterMap_cons, ih ha]

/-- Taking in a frame adds it to those that wait for its stream, unless it is joined to one. -/
theorem Enqueue.waitingFor {d d' : Downlink} {ty : FrameType} {payload : Bytes}
    (h : Enqueue limits d ty id payload d') (i : ℕ) :
    (d'.waitingFor i).Sublist (d.waitingFor i ++ if i = id then [ty] else []) := by
  cases h with
  | @merge id index payload f hindex hf htotal =>
      have hsame : Downlink.waitingFor { d with
          pendingFrames := d.pendingFrames.set index (f.setAmount
            ((windowAmount (f.encoded.drop headerSize)).1 + (windowAmount payload).1)) }.signal i =
          d.waitingFor i := filterMap_set_of_eq hf rfl
      rw [hsame]
      exact List.sublist_append_left _ _
  | @extend id payload last hlast =>
      obtain ⟨hsplit, -, -, -⟩ := Downlink.extendable_eq hlast
      have hsame : Downlink.waitingFor { d with
          pendingFrames := d.pendingFrames.dropLast ++ [last.extend payload] }.signal i =
          d.waitingFor i := by
        unfold Downlink.waitingFor
        conv_rhs => rw [hsplit]
        rw [List.filterMap_append]
        show List.filterMap _ (d.pendingFrames.dropLast ++ [last.extend payload]) = _
        rw [List.filterMap_append]
        rfl
      rw [hsame]
      exact List.sublist_append_left _ _
  | append =>
      unfold Downlink.waitingFor
      show (List.filterMap _ (d.pendingFrames ++ [_])).Sublist _
      rw [List.filterMap_append]
      by_cases hi : i = id
      · subst hi
        simp
      · simp [hi, Ne.symm hi]

/-- What waits in a queue was queued in this order. -/
def Told (t : List Event) (d : Downlink) : Prop :=
  ∀ id, (d.waitingFor id).Sublist (queuedFor t id)

theorem Told.nil {d : Downlink} (h : d.pendingFrames = []) : Told t d := by
  intro id
  unfold Downlink.waitingFor
  rw [h]
  exact List.nil_sublist _

theorem Told.append {d : Downlink} (h : Told t d) (es : List Event) : Told (t ++ es) d := by
  intro id
  rw [queuedFor_append]
  exact (h id).trans (List.sublist_append_left _ _)

/-- The queues under a longer history. -/
theorem Session.Downlinks.told (h : s.Downlinks (Told t)) (es : List Event) :
    s.Downlinks (Told (t ++ es)) :=
  ⟨h.own.append es, fun id l hl => (h.lanes id l hl).append es,
    fun object l hl => (h.released object l hl).append es⟩

theorem QueueResult.told {ty : FrameType} {payload : Bytes} {ok : Bool}
    (h : QueueResult s ty id payload es s' ok) (hs : s.Downlinks (Told t)) :
    s'.Downlinks (Told (t ++ es)) := by
  have hqueued := h.heard.1
  cases h with
  | refused => exact hs.told _
  | @accepted q d cost items notify hq h =>
      have hs' : (s.setPending cost items notify).Downlinks (Told t) := hs.congr rfl rfl rfl
      refine (hs'.told _).setQueue (fun i => ?_) q
      rw [queuedFor_append, hqueued]
      refine (h.waitingFor i).trans ?_
      have hold := hs.queue (.nil rfl) q i
      by_cases hi : i = id
      · rw [if_pos hi, if_pos ⟨rfl, hi⟩]
        exact hold.append_right _
      · rw [if_neg hi, if_neg fun h => hi h.2]
        exact hold.append_right _

theorem Change.told {σ σ' : Traced} (h : Change scope σ σ')
    (hs : σ.session.Downlinks (Told σ.trace)) : σ'.session.Downlinks (Told σ'.trace) := by
  have hq := fun q => hs.queue (Told.nil rfl) q
  cases h with
  | silent => exact hs.told _
  | openStream => exact (hs.told _).congr rfl rfl rfl
  | stream => exact (hs.told _).congr rfl rfl rfl
  | drained _ _ _ _ _ _ h _ => exact h.told (hs.congr rfl rfl rfl)
  | read _ _ _ _ h _ => exact h.told (hs.congr rfl rfl rfl)
  | queueClose _ _ _ h _ _ _ => exact h.told hs
  | rememberRoom => exact (hs.told _).congr rfl rfl rfl
  | @rememberFull s t id old _ _ _ _ _ _ =>
      rw [List.append_assoc]
      have hold : s.Downlinks (Told (t ++ ([.remembered id] ++ [.evicted old]))) := hs.told _
      cases hl : s.carrierLanes.get old with
      | none => exact hold.congr rfl (Table.del_eq_self _ hl) rfl
      | some l =>
          have hdel : (s.delLane old l.drop).Downlinks _ := hold.delLane (.nil rfl)
          exact ⟨hdel.own, hdel.lanes, hdel.released⟩
  | createLane => exact (hs.putLane (.nil rfl)).congr rfl rfl rfl
  | touchLane hl _ hdown => exact hs.putLane (by rw [hdown]; exact hs.lanes _ _ hl)
  | dropLane => exact hs.delLane (.nil rfl)
  | @attend s t q _ active superseded notify _ _ =>
      have hsame : Told t { s.queue q with downActive := active, superseded, notify } :=
        fun i => hq q i
      exact hs.setQueue hsame q
  | @acknowledge s t q _ _ _ =>
      have hsame : Told t (s.queue q).acknowledge := fun i => hq q i
      exact hs.setQueue hsame q
  | @deliver s t q cursor mine _ _ _ _ =>
      refine (hs.told _).setQueue (fun i => ?_) q
      rw [queuedFor_append]
      refine List.Sublist.trans ?_ (((hq q) i).trans (List.sublist_append_left _ _))
      exact (List.drop_sublist _ _).filterMap _
  | @close s t =>
      refine ⟨.nil rfl, fun id l hl => ?_, hs.released⟩
      have hl' : (s.carrierLanes.mapValues CarrierLane.drop).get id = some l := hl
      rw [Table.get_mapValues] at hl'
      obtain ⟨l₀, -, rfl⟩ := Option.map_eq_some_iff.mp hl'
      exact .nil rfl
  | batch => exact hs.told _
  | laneUplink _ id object f _ hdown _ =>
      exact hs.modifyLane fun l h => by rw [hdown]; exact h
  | _ => exact hs.congr rfl rfl rfl

/-! ### Whole runs -/

/-- One section, as far as it ends streams. -/
structure Hears (c : Section) (σ σ' : Traced) : Prop where
  heard : Heard σ'
  /-- Who ended a stream decides whether the client is told. -/
  ends : σ'.session.closed = false → ∀ id, ¬ Ended σ id → Ended σ' id →
    (queuedFor σ'.trace id).count .close = if c.fromRelay id then 1 else 0
  /-- After its end a stream is not heard of again. -/
  stays : ∀ id, Ended σ id → σ'.session.closed = false →
    Ended σ' id ∧ queuedFor σ'.trace id = queuedFor σ.trace id

theorem Step.hears {σ σ' : Traced} {c : Section} {reply : Reply}
    (h : Step sha256 σ c reply σ') (hs : Sound limits carrier σ)
    (honce : (opens σ'.trace).Nodup) (hI : Heard σ) : Hears c σ σ' := by
  have hchanges := h.changes hs
  have hdup : (opens σ.trace).Nodup := hchanges.opens_nodup honce
  -- before a stream has ended no CLOSE was queued for it
  have hbefore : ∀ id, ¬ Ended σ id → .rejected id ∉ σ.trace → .close ∉ queuedFor σ.trace id := by
    intro id hend hrej
    by_cases hlive : σ.session.streams.get id = none
    · rw [hI.unopened id]
      · simp
      · intro hm
        rcases mem_opens.mp hm with hb | hr
        · exact hend ⟨hb, hlive⟩
        · exact hrej hr
    · exact hI.live id hlive
  by_cases hc : ∃ i backend, c = .backendClosed i backend
  · obtain ⟨i, backend, rfl⟩ := hc
    have hends : BackendEnds i σ.session σ.trace σ'.session σ'.trace := by
      refine @Step.of_wp _ _ _ _ _ h
        (fun t' p => BackendEnds i σ.session σ.trace p.1 t') fun _ => ?_
      exact wp_seq (backendClosed_heard hs hdup hI i backend) fun _ _ h => h
    have hopened : ∀ id, Ended σ' id → ∃ b, .opened id b ∈ σ.trace := by
      rintro id ⟨⟨b, hb⟩, -⟩
      have hmem : id ∈ opens σ.trace := hends.opens ▸ mem_opens.mpr (.inl ⟨b, hb⟩)
      rcases mem_opens.mp hmem with hb' | hr
      · exact hb'
      · exact absurd (hchanges.trace_mono hr) (opened_not_rejected honce hb)
    refine ⟨hends.heard, fun hopen id hbef haft => ?_, fun id hend hopen => ?_⟩
    · obtain ⟨b, hb⟩ := hopened id haft
      have hlive : σ.session.streams.get id ≠ none := fun hn => hbef ⟨⟨b, hb⟩, hn⟩
      rcases hends.outcome with hclosed | ⟨hsame, -⟩ | ⟨-, hdel, hclose⟩
      · rw [hopen] at hclosed
        cases hclosed
      · have hnone := haft.2
        rw [hsame] at hnone
        exact absurd hnone hlive
      · have hi : id = i := by
          by_contra hne
          have hnone := haft.2
          rw [hdel, Table.get_del_ne _ hne] at hnone
          exact hlive hnone
        subst hi
        rw [hclose, List.count_append, List.count_eq_zero.mpr (hI.live id hlive)]
        simp [Section.fromRelay]
    · obtain ⟨⟨b, hb⟩, hnone⟩ := hend
      have hb' := hchanges.trace_mono hb
      rcases hends.outcome with hclosed | ⟨hsame, hqueued⟩ | ⟨hlive, hdel, -⟩
      · rw [hopen] at hclosed
        cases hclosed
      · refine ⟨⟨⟨b, hb'⟩, by rw [hsame]; exact hnone⟩, ?_⟩
        by_cases hi : id = i
        · rw [hi]
          exact hqueued
        · exact hends.others id hi
      · have hi : id ≠ i := by
          rintro rfl
          exact hlive hnone
        exact ⟨⟨⟨b, hb'⟩, by rw [hdel, Table.get_del_ne _ hi]; exact hnone⟩, hends.others id hi⟩
  · have hscope : c.scope.endings = false := by
      cases c with
      | backendClosed i backend => exact absurd ⟨i, backend, rfl⟩ hc
      | _ => rfl
    have hrelay : ∀ id, c.fromRelay id = false := by
      intro id
      cases c with
      | backendClosed i backend => exact absurd ⟨i, backend, rfl⟩ hc
      | _ => rfl
    refine ⟨hchanges.heard hscope hs honce hI, fun _ id hbef haft => ?_,
      fun id hend _ => hchanges.stays_ended hscope honce hend⟩
    obtain ⟨⟨b, hb⟩, -⟩ := haft
    have hrej := opened_not_rejected honce hb
    rw [hrelay, if_neg (by simp), List.count_eq_zero]
    intro hm
    rcases hchanges.close_queued hscope hm with hold | hr
    · exact hbefore id hbef (fun hr => hrej (hchanges.trace_mono hr)) hold
    · exact hrej hr

theorem newSession_heard (limits : Limits) (carrier : CarrierMode) :
    Heard ⟨newSession limits carrier, []⟩ where
  talk _ := .nil
  live _ _ := by simp [queuedFor]
  unopened _ _ := rfl
  rejected _ h := by cases h
  fresh _ _ h := by simp at h

theorem Reachable.heard {σ : Traced} (h : Reachable sha256 limits carrier σ)
    (honce : (opens σ.trace).Nodup) : Heard σ := by
  induction h with
  | start => exact newSession_heard limits carrier
  | step hσ hstep ih =>
      have hdup := (hstep.changes hσ.sound).opens_nodup honce
      exact (hstep.hears hσ.sound honce (ih hdup)).heard

theorem Reachable.answered {σ : Traced} (h : Reachable sha256 limits carrier σ) :
    Answered σ.trace := by
  induction h with
  | start => exact fun id hm => by cases hm
  | step hσ hstep ih => exact hstep.answered hσ.sound ih

theorem newSession_told (limits : Limits) (carrier : CarrierMode) :
    (newSession limits carrier).Downlinks (Told []) := by
  unfold newSession
  split_ifs
  · refine ⟨.nil rfl, fun id l hl => ?_, (by simp)⟩
    have hput : (Table.nil.put 0 ({ object := 0 } : CarrierLane)).get id = some l := hl
    rw [Table.get_put] at hput
    split_ifs at hput
    · cases hput
      exact .nil rfl
    · cases hput
  · exact ⟨.nil rfl, (by simp), (by simp)⟩

/-- What is queued for the client of each stream in a run that has come to `σ`. -/
structure Grammar (sha256 : Bytes → Bytes) (limits : Limits) (carrier : CarrierMode)
    (σ : Traced) : Prop where
  talk : ∀ id ∈ opens σ.trace, Talk (queuedFor σ.trace id)
  /-- The stream of `id` ended at some step of the run. -/
  ended : ∀ σ₀ σ₁ c r id, Reachable sha256 limits carrier σ₀ → Step sha256 σ₀ c r σ₁ →
    Steps sha256 σ₁ σ → ¬ Ended σ₀ id → Ended σ₁ id →
    (queuedFor σ.trace id).count .close = if c.fromRelay id then 1 else 0
  rejected : ∀ id, .rejected id ∈ σ.trace → queuedFor σ.trace id = [.close]
  unopened : ∀ id, id ∉ opens σ.trace → queuedFor σ.trace id = []
  /-- The queues hold these frames in their order. -/
  waiting : ∀ q id, ((σ.session.queue q).waitingFor id).Sublist (queuedFor σ.trace id)

theorem Steps.reachable {σ σ' : Traced} (h : Steps sha256 σ σ')
    (hσ : Reachable sha256 limits carrier σ) : Reachable sha256 limits carrier σ' := by
  induction h with
  | refl => exact hσ
  | tail _ hlast ih =>
      obtain ⟨c, r, hstep⟩ := hlast
      exact ih.step hstep

/-- What was queued for a stream that has ended is all that is queued for it. -/
theorem Steps.stays_ended {σ σ' : Traced} (h : Steps sha256 σ σ')
    (hσ : Reachable sha256 limits carrier σ) (honce : (opens σ'.trace).Nodup)
    (hopen : σ'.session.closed = false) (hid : Ended σ id) :
    Ended σ' id ∧ queuedFor σ'.trace id = queuedFor σ.trace id := by
  induction h with
  | refl => exact ⟨hid, rfl⟩
  | @tail σ₁ σ₂ hfirst hlast ih =>
      obtain ⟨c, r, hstep⟩ := hlast
      have hσ₁ := Steps.reachable hfirst hσ
      have hchanges := hstep.changes hσ₁.sound
      have honce₁ := hchanges.opens_nodup honce
      have hopen₁ : σ₁.session.closed = false := by
        by_contra hc
        rw [Bool.not_eq_false] at hc
        rw [hchanges.closed_mono hc] at hopen
        cases hopen
      obtain ⟨hend₁, hsame₁⟩ := ih honce₁ hopen₁
      obtain ⟨hend₂, hsame₂⟩ :=
        (hstep.hears hσ₁.sound honce (hσ₁.heard honce₁)).stays id hend₁ hopen
      exact ⟨hend₂, hsame₂.trans hsame₁⟩

theorem Steps.opens_nodup {σ σ' : Traced} (h : Steps sha256 σ σ')
    (hσ : Reachable sha256 limits carrier σ) (honce : (opens σ'.trace).Nodup) :
    (opens σ.trace).Nodup := by
  induction h with
  | refl => exact honce
  | tail hfirst hlast ih =>
      obtain ⟨c, r, hstep⟩ := hlast
      exact ih ((hstep.changes (Steps.reachable hfirst hσ).sound).opens_nodup honce)

theorem Steps.closed_mono {σ σ' : Traced} (h : Steps sha256 σ σ')
    (hσ : Reachable sha256 limits carrier σ) (hopen : σ'.session.closed = false) :
    σ.session.closed = false := by
  by_contra hc
  rw [Bool.not_eq_false] at hc
  have hend : σ'.session.closed = true := by
    clear hopen
    induction h with
    | refl => exact hc
    | tail hfirst hlast ih =>
        obtain ⟨c, r, hstep⟩ := hlast
        exact (hstep.changes (Steps.reachable hfirst hσ).sound).closed_mono ih
  rw [hopen] at hend
  cases hend

/-- **The downlink grammar of a stream**: in every run of a session in which no id is opened
twice and the session stays open, whoever calls its sections and in whatever order. -/
theorem downlink_grammar {σ : Traced} (h : Reachable sha256 limits carrier σ)
    (honce : (opens σ.trace).Nodup) (hopen : StaysOpen σ) :
    Grammar sha256 limits carrier σ := by
  have hI := h.heard honce
  refine ⟨fun id _ => hI.talk id, fun σ₀ σ₁ c r id h₀ hstep hrest hbef haft => ?_,
    fun id hr => ?_, hI.unopened, fun q id => ?_⟩
  · have h₁ := h₀.step hstep
    have honce₁ := Steps.opens_nodup hrest h₁ honce
    have honce₀ := (hstep.changes h₀.sound).opens_nodup honce₁
    have hopen₁ := Steps.closed_mono hrest h₁ hopen.opened
    rw [(Steps.stays_ended hrest h₁ honce hopen.opened haft).2]
    exact (hstep.hears h₀.sound honce₁ (h₀.heard honce₀)).ends hopen₁ id hbef haft
  · rcases h.answered id hr with hc | ha
    · rcases hI.rejected id hr with he | he
      · rw [he] at hc
        cases hc
      · exact he
    · rw [hopen.answered] at ha
      cases ha
  · have htold : σ.session.Downlinks (Told σ.trace) :=
      h.invariant (I := fun τ => τ.session.Downlinks (Told τ.trace))
        (newSession_told limits carrier) fun hc _ ht => hc.told ht
    exact htold.queue (.nil rfl) q id

end

/-- Of two OPENs the second is refused; the stream of the first gets a byte for its client, and
its backend ends it. -/
theorem downlink_grammar_ended : ∃ σ, queuedFor σ.trace 1 = [.data, .close] ∧
    queuedFor σ.trace 2 = [.close] ∧ Grammar id defaultLimits .https σ := by
  let body := encode .open 1 [] ++ encode .open 2 []
  have hplay : (play id ⟨newSession defaultLimits .https, []⟩
      [(.processUpBegin 1 body, []), (.processUpCommit 1 body, [true, false, true]),
        (.backendData 1 [7], [true]), (.backendClosed 1 0, [true])]).map (fun σ =>
      (opens σ.trace, queuedFor σ.trace 1, queuedFor σ.trace 2, σ.session.closed,
        abandonments σ.trace)) =
      some ([1, 2], [.data, .close], [.close], false, []) := by
    decide +kernel
  obtain ⟨σ, hσ, he⟩ := Option.map_eq_some_iff.mp hplay
  simp only [Prod.mk.injEq] at he
  obtain ⟨hopens, hfirst, hsecond, hclosed, habandoned⟩ := he
  refine ⟨σ, hfirst, hsecond, downlink_grammar (Reachable.start.play hσ) ?_ ⟨hclosed, habandoned⟩⟩
  rw [hopens]
  decide

end TproxyServer
