import TproxyServer.UplinkCalls

/-! # A serialized uplink applies every body once

The invariant over all interleavings of calls: at most one call parses, its sequence is the
next one, and the bodies taken up are one for every accepted sequence and one for every
application that was cut short. -/

namespace TproxyServer

open Interaction Prog

variable {limits : Limits} {carrier : CarrierMode} {s : Session} {t : List Event}
  {sha256 : Bytes → Bytes}

/-! ### Bodies of a trace -/

/-- The bodies that were taken up, oldest first. -/
def appliedBodies (t : List Event) : List Bytes :=
  t.filterMap fun e => match e with
    | .applying _ _ body => some body
    | _ => none

@[simp] theorem appliedBodies_append (t es : List Event) :
    appliedBodies (t ++ es) = appliedBodies t ++ appliedBodies es :=
  List.filterMap_append ..

theorem appliedBodies_uplinkEvents (t : List Event) :
    appliedBodies (uplinkEvents t) = appliedBodies t := by
  unfold appliedBodies uplinkEvents
  rw [List.filterMap_filter]
  refine List.filterMap_congr fun e _ => ?_
  cases e <;> rfl

theorem BatchEffect.appliedBodies {frames : List Frame} {g : List Event}
    (h : BatchEffect frames g) : appliedBodies g = [] := by
  induction h with
  | nil => rfl
  | cons hf _ ih =>
      rw [appliedBodies_append, ih, List.append_nil]
      cases hf <;> rfl

/-- `bodies` are applied, under the sequences 1, 2, ..., each frame by frame, and `es` is all
that the uplink did. -/
inductive Serial (limits : Limits) : List Bytes → List Event → Prop
  | nil : Serial limits [] []
  | snoc {bodies : List Bytes} {es g : List Event} {body : Bytes} {frames : List Frame}
      (h : Serial limits bodies es) (hframes : clientFrames limits body = some frames)
      (hg : BatchEffect frames g) :
      Serial limits (bodies ++ [body]) (es ++ .applying none (bodies.length + 1) body :: g)

/-- What the law says of a session: the bodies of sequences 1 to `lastUpSequence` are applied
once each and in order; a retry of the last one is acknowledged and changes nothing; so does a
call that is answered with backpressure or concurrency, up to the mark that it parses. -/
structure ExactlyOnce (sha256 : Bytes → Bytes) (limits : Limits) (σ : Traced) : Prop where
  serial : Serial limits (appliedBodies σ.trace) (uplinkEvents σ.trace)
  upTo : (appliedBodies σ.trace).length = σ.session.lastUpSequence
  retry : ∀ body r σ', (appliedBodies σ.trace).getLast? = some body →
    σ.session.closed = false →
    Step sha256 σ (.processUpBegin σ.session.lastUpSequence body) r σ' →
      r = .up (.acked σ.session.lastUpSequence) ∧ σ' = σ
  concurrent : ∀ sequence body σ',
    Step sha256 σ (.processUpBegin sequence body) (.up .concurrent) σ' → σ' = σ
  parsing : ∀ sequence body σ',
    Step sha256 σ (.processUpBegin sequence body) (.up .parsing) σ' →
      σ' = ⟨{ σ.session with upActive := true }, σ.trace⟩
  backpressure : ∀ sequence body σ',
    Step sha256 σ (.processUpCommit sequence body) (.up .backpressure) σ' →
      σ' = ⟨{ σ.session with upActive := false }, σ.trace⟩

/-! ### The invariant -/

/-- The invariant over the calls. -/
structure Calls.Ordered (sha256 : Bytes → Bytes) (limits : Limits) (W : Calls) : Prop where
  parsing : ∀ k sequence body, W.calls.get k = some (.parsing sequence body) →
    sequence = W.state.session.lastUpSequence + 1 ∧ W.state.session.upActive = true
  alone : ∀ k k' sequence sequence' body body',
    W.calls.get k = some (.parsing sequence body) →
    W.calls.get k' = some (.parsing sequence' body') → k = k'
  count : (appliedBodies W.state.trace).length =
    W.state.session.lastUpSequence + (abandonments W.state.trace).length
  serial : abandonments W.state.trace = [] →
    Serial limits (appliedBodies W.state.trace) (uplinkEvents W.state.trace)
  digest : abandonments W.state.trace = [] →
    ∀ body, (appliedBodies W.state.trace).getLast? = some body →
      W.state.session.lastUpDigest = sha256 body

/-- What leaves the books and the uplink's events alone keeps the invariant. -/
theorem Calls.Ordered.congr {W W' : Calls} (h : W.Ordered sha256 limits)
    (hbooks : W'.state.session.books = W.state.session.books)
    (hq : Quiet W.state.trace W'.state.trace)
    (hcalls : ∀ k sequence body, W'.calls.get k = some (.parsing sequence body) →
      W.calls.get k = some (.parsing sequence body)) :
    W'.Ordered sha256 limits := by
  simp only [Session.books, Prod.mk.injEq] at hbooks
  have hbodies : appliedBodies W'.state.trace = appliedBodies W.state.trace := by
    rw [← appliedBodies_uplinkEvents, hq.1, appliedBodies_uplinkEvents]
  refine ⟨fun k sequence body hk => ?_, fun k k' n n' b b' hk hk' => ?_, ?_, ?_, ?_⟩
  · rw [hbooks.1, hbooks.2.2]
    exact h.parsing k sequence body (hcalls k sequence body hk)
  · exact h.alone k k' n n' b b' (hcalls k n b hk) (hcalls k' n' b' hk')
  · rw [hbodies, hbooks.1, hq.2]
    exact h.count
  · rw [hbodies, hq.1, hq.2]
    exact h.serial
  · rw [hbodies, hq.2, hbooks.2.1]
    exact h.digest

theorem Calls.leave_parsing {W : Calls} {k i sequence : ℕ} {σ : Traced} {left : Option Call}
    {body : Bytes} (hleft : ∀ n b, left ≠ some (.parsing n b))
    (h : (W.leave k σ left).calls.get i = some (.parsing sequence body)) :
    i ≠ k ∧ W.calls.get i = some (.parsing sequence body) := by
  rw [Calls.leave_get] at h
  split_ifs at h with hi
  · exact absurd h (hleft sequence body)
  · exact ⟨hi, h⟩

/-- What the second section leaves the uplink's events and books in. -/
theorem Calls.Ordered.grow {W : Calls} (h : W.Ordered sha256 limits) {k sequence : ℕ}
    {body : Bytes} (hk : W.calls.get k = some (.parsing sequence body)) {σ : Traced}
    {left : Option Call} (hleft : ∀ n b, left ≠ some (.parsing n b)) {g : List Event}
    {frames : List Frame} (hg : BatchEffect frames g)
    (hup : uplinkEvents σ.trace =
      uplinkEvents W.state.trace ++ .applying none sequence body :: g)
    (hcount : σ.session.lastUpSequence + (abandonments σ.trace).length =
      W.state.session.lastUpSequence + (abandonments W.state.trace).length + 1)
    (haccepted : abandonments σ.trace = [] → abandonments W.state.trace = [] ∧
      clientFrames limits body = some frames ∧ σ.session.lastUpDigest = sha256 body) :
    (W.leave k σ left).Ordered sha256 limits := by
  obtain ⟨hseq, hactive⟩ := h.parsing k sequence body hk
  have hbodies : appliedBodies σ.trace = appliedBodies W.state.trace ++ [body] := by
    rw [← appliedBodies_uplinkEvents, hup, appliedBodies_append, appliedBodies_uplinkEvents]
    exact congrArg (fun l => _ ++ body :: l) hg.appliedBodies
  have hnone : ∀ i n b, (W.leave k σ left).calls.get i ≠ some (.parsing n b) := by
    intro i n b hi
    obtain ⟨hne, hi⟩ := Calls.leave_parsing hleft hi
    exact hne (h.alone i k n sequence b body hi hk)
  refine ⟨fun i n b hi => absurd hi (hnone i n b), fun i _ n _ b _ hi => absurd hi (hnone i n b),
    ?_, fun hab => ?_, fun hab b hb => ?_⟩
  · rw [Calls.leave_state, hbodies, List.length_append, h.count, hcount]
    rfl
  · rw [Calls.leave_state] at hab ⊢
    obtain ⟨hold, hframes, -⟩ := haccepted hab
    have hlength : sequence = (appliedBodies W.state.trace).length + 1 := by
      rw [h.count, hold, hseq]
      rfl
    rw [hbodies, hup, hlength]
    exact .snoc (h.serial hold) hframes hg
  · rw [Calls.leave_state] at hab hb ⊢
    rw [hbodies, List.getLast?_append_of_ne_nil _ (List.cons_ne_nil _ _)] at hb
    cases hb
    exact (haccepted hab).2.2

theorem Calls.Ordered.step {W W' : Calls} (hs : Sound limits carrier W.state)
    (hlanes : W.state.session.usesCarrierLanes = false) (h : W.Ordered sha256 limits)
    (hstep : Calls.Step sha256 W W') : W'.Ordered sha256 limits := by
  cases hstep with
  | @begin σ k sequence body r hk hrun =>
      obtain ⟨hres, htrace⟩ := hrun.processUpBegin
      have hq : Quiet W.state.trace σ.trace := by
        rw [htrace]
        exact ⟨rfl, rfl⟩
      rcases @processUpBegin_cases W.state.session sha256 sequence body with
        ⟨hsame, hne⟩ | ⟨heq, hseq, hactive⟩
      · rw [hres] at hsame hne
        dsimp only at hsame hne
        refine h.congr (by rw [Calls.leave_state, hsame]) (by rw [Calls.leave_state]; exact hq) ?_
        intro i n b hi
        refine (Calls.leave_parsing ?_ hi).2
        intro n b hleft
        cases r with
        | parsing => exact hne rfl
        | _ => cases hleft
      · -- a new call parses, and nobody else did
        rw [hres] at heq
        obtain ⟨hsession, rfl⟩ := Prod.mk.inj heq
        have hnone : ∀ i n b, W.calls.get i ≠ some (.parsing n b) := by
          intro i n b hi
          have := (h.parsing i n b hi).2
          rw [hactive] at this
          cases this
        have hself : ∀ i n b, (W.leave k σ (some (.parsing sequence body))).calls.get i =
            some (.parsing n b) → i = k ∧ n = sequence := by
          intro i n b hi
          rw [Calls.leave_get] at hi
          split_ifs at hi with hik
          · cases hi
            exact ⟨hik, rfl⟩
          · exact absurd hi (hnone i n b)
        have hother : Calls.Ordered sha256 limits ⟨⟨W.state.session, σ.trace⟩, W.calls⟩ :=
          h.congr rfl hq fun _ _ _ hi => hi
        refine ⟨fun i n b hi => ?_, fun i i' n n' b b' hi hi' => ?_, ?_, ?_, ?_⟩
        · rw [Calls.leave_state, hsession]
          obtain ⟨-, rfl⟩ := hself i n b hi
          exact ⟨hseq, rfl⟩
        · exact (hself i n b hi).1.trans (hself i' n' b' hi').1.symm
        · rw [Calls.leave_state, hsession]
          exact hother.count
        · rw [Calls.leave_state]
          exact hother.serial
        · rw [Calls.leave_state, hsession]
          exact hother.digest
  | @commit σ k sequence body r hk hrun =>
      -- the call that parses is the only one, and it is done
      have hresult := hrun.processUpCommit hs
      obtain ⟨hseq, hactive⟩ := h.parsing k sequence body hk
      generalize hsession : σ.session = s' at hresult
      generalize htrace : σ.trace = t' at hresult
      cases hresult with
      | idle hr =>
          have hnone : ∀ i n b, (W.leave k σ (r.left sequence body)).calls.get i ≠
              some (.parsing n b) := by
            intro i n b hi
            have hleft : ∀ n b, r.left sequence body ≠ some (.parsing n b) := by
              rcases hr with rfl | rfl | rfl <;> simp [UpReply.left]
            obtain ⟨hne, hi⟩ := Calls.leave_parsing hleft hi
            exact hne (h.alone i k n sequence b body hi hk)
          refine ⟨fun i n b hi => absurd hi (hnone i n b),
            fun i _ n _ b _ hi => absurd hi (hnone i n b), ?_, ?_, ?_⟩
          · rw [Calls.leave_state, hsession, htrace]
            exact h.count
          · rw [Calls.leave_state, htrace]
            exact h.serial
          · rw [Calls.leave_state, hsession, htrace]
            exact h.digest
      | acked hframes hg hbooks hup hab =>
          simp only [Session.books, Prod.mk.injEq] at hbooks
          refine h.grow hk (by simp [UpReply.left]) hg (htrace ▸ hup) ?_ fun hnil => ⟨?_, ?_, ?_⟩
          · rw [hsession, htrace, hbooks.1, hab, hseq]
            omega
          · rw [htrace] at hnil
            rw [hnil] at hab
            exact List.eq_nil_of_length_eq_zero hab.symm
          · rw [← hs.limits_eq]
            exact hframes
          · rw [hsession]
            exact hbooks.2.1
      | aborting hg hbooks hup hab =>
          simp only [Session.books, Prod.mk.injEq] at hbooks
          refine h.grow hk (by simp [UpReply.left]) hg (htrace ▸ hup) ?_ fun hnil => ?_
          · rw [hsession, htrace, hbooks.1, hab]
            omega
          · rw [htrace] at hnil
            rw [hnil] at hab
            cases hab
  | @close σ k r hk hrun =>
      obtain ⟨hbooks, hq⟩ := hrun.other hs hlanes rfl
      have hleft : ∀ n b, (none : Option Call) ≠ some (.parsing n b) := fun _ _ => by simp
      exact h.congr (by rw [Calls.leave_state, hbooks]) (by rw [Calls.leave_state]; exact hq)
        fun i n b hi => (Calls.leave_parsing hleft hi).2
  | @other σ c r hc hrun =>
      obtain ⟨hbooks, hq⟩ := hrun.other hs hlanes hc
      exact h.congr hbooks hq fun _ _ _ hi => hi

theorem Calls.Reachable.ordered {W : Calls} (hcarrier : carrier = .https ∨ carrier = .webSocket)
    (h : Calls.Reachable sha256 limits carrier W) :
    W.state.session.usesCarrierLanes = false ∧ W.Ordered sha256 limits := by
  have hlanes : ∀ W : Calls, Calls.Reachable sha256 limits carrier W →
      W.state.session.usesCarrierLanes = false := by
    intro W hW
    rw [hW.reachable.sound.usesCarrierLanes]
    rcases hcarrier with rfl | rfl <;> rfl
  refine ⟨hlanes W h, ?_⟩
  induction h with
  | start =>
      have hzero : (newSession limits carrier).lastUpSequence = 0 := by
        unfold newSession
        split_ifs <;> rfl
      refine ⟨by rintro k n b ⟨⟩, by rintro k k' n n' b b' ⟨⟩, ?_,
        fun _ => .nil, by rintro _ _ ⟨⟩⟩
      show 0 = (newSession limits carrier).lastUpSequence + 0
      rw [hzero]
  | step hW hs ih => exact ih.step hW.reachable.sound (hlanes _ hW) hs

/-! ### The law -/

/-- **A serialized uplink applies every body exactly once**, in every state of every
interleaving, as long as no application has been cut short, and never once one has. -/
theorem uplink_exactly_once {W : Calls} (hcarrier : carrier = .https ∨ carrier = .webSocket)
    (h : Calls.Reachable sha256 limits carrier W) :
    ExactlyOnce sha256 limits W.state ↔ ∀ id, Event.abandoned id ∉ W.state.trace := by
  obtain ⟨hlanes, ho⟩ := h.ordered hcarrier
  have hnil : abandonments W.state.trace = [] ↔ ∀ id, Event.abandoned id ∉ W.state.trace := by
    unfold abandonments
    rw [List.filterMap_eq_nil_iff]
    refine ⟨fun hall id hm => by simpa using hall _ hm, fun hall e he => ?_⟩
    cases e with
    | abandoned id => exact absurd he (hall id)
    | _ => rfl
  rw [← hnil]
  constructor
  · intro honce
    have hcount := ho.count
    rw [honce.upTo] at hcount
    exact List.eq_nil_of_length_eq_zero (by omega)
  · intro hab
    have hcount := ho.count
    rw [hab] at hcount
    refine ⟨ho.serial hab, hcount, ?_, ?_, ?_, ?_⟩
    · intro body r σ' hlast hopen hstep
      have hpos : W.state.session.lastUpSequence ≠ 0 := by
        intro h0
        rw [h0] at hcount
        rw [List.eq_nil_of_length_eq_zero hcount] at hlast
        cases hlast
      have hbegin : processUpBegin sha256 W.state.session W.state.session.lastUpSequence body =
          (W.state.session, .acked W.state.session.lastUpSequence) := by
        unfold processUpBegin
        rw [hlanes, hopen, if_neg (by simp), if_neg (by simp), if_pos ⟨rfl, hpos⟩,
          if_pos (ho.digest hab body hlast).symm]
      obtain ⟨r', rfl⟩ := hstep.processUpBegin_reply
      rcases hstep.processUpBegin_cases with ⟨rfl, -⟩ | ⟨-, rfl⟩
      · have hres := hstep.processUpBegin.1
        rw [hbegin] at hres
        exact ⟨congrArg Reply.up (Prod.mk.inj hres).2.symm, rfl⟩
      · have hres := hstep.processUpBegin.1
        rw [hbegin] at hres
        cases (Prod.mk.inj hres).2
    · intro sequence body σ' hstep
      rcases hstep.processUpBegin_cases with ⟨rfl, -⟩ | ⟨-, hr⟩
      · rfl
      · cases hr
    · intro sequence body σ' hstep
      rcases hstep.processUpBegin_cases with ⟨-, hne⟩ | ⟨rfl, -⟩
      · exact absurd rfl hne
      · rfl
    · intro sequence body σ' hstep
      have hresult := hstep.processUpCommit h.reachable.sound
      obtain ⟨s', t'⟩ := σ'
      dsimp only at hresult
      cases hresult with
      | idle hr => rfl

/-- A first call on a session with default limits: its body is applied once. -/
theorem uplink_exactly_once_first : ∃ W : Calls, W.state.session.lastUpSequence = 1 ∧
    ExactlyOnce id defaultLimits W.state := by
  let body := encode .open 1 [] ++ encode .data 1 [7]
  have hplay : (Calls.play id ⟨⟨newSession defaultLimits .https, []⟩, .nil⟩
      [(.begin 0 1 body, []), (.commit 0, [])]).map (fun W : Calls =>
        (W.state.session.lastUpSequence, abandonments W.state.trace)) = some (1, []) := by
    decide +kernel
  obtain ⟨W, hW, he⟩ := Option.map_eq_some_iff.mp hplay
  obtain ⟨hlast, hnil⟩ := Prod.mk.inj he
  refine ⟨W, hlast, (uplink_exactly_once (.inl rfl) (Calls.Reachable.start.play hW)).mpr ?_⟩
  intro id hm
  have hab : id ∈ abandonments W.state.trace := List.mem_filterMap.mpr ⟨_, hm, rfl⟩
  rw [hnil] at hab
  cases hab

/-- One stream, and no room for a frame that closes another. -/
def noRoomForClose : Limits :=
  { defaultLimits with maxStreamsPerSession := 1, maxPendingPerSession := 100 }

/-- The second call's WINDOW is applied, its OPEN is refused and the CLOSE for it does not fit;
before the call gets to close the session, a third call brings sequence 2 again. -/
theorem uplink_applied_twice : ∃ W : Calls,
    Calls.Reachable id noRoomForClose .https W ∧ W.state.session.closed = false ∧
      ¬ ExactlyOnce id noRoomForClose W.state := by
  let window := encode .window 1 (windowPayload 7)
  have hplay : (Calls.play id ⟨⟨newSession noRoomForClose .https, []⟩, .nil⟩
      [(.begin 0 1 (encode .open 1 []), []), (.commit 0, []),
        (.begin 1 2 (window ++ encode .open 2 []), []), (.commit 1, []),
        (.begin 2 2 window, []), (.commit 2, [])]).map (fun W : Calls => (W.state.session.closed,
          W.state.session.lastUpSequence, (appliedBodies W.state.trace).length)) =
      some (false, 2, 3) := by decide +kernel
  obtain ⟨W, hW, he⟩ := Option.map_eq_some_iff.mp hplay
  simp only [Prod.mk.injEq] at he
  obtain ⟨hopen, hlast, hlength⟩ := he
  refine ⟨W, Calls.Reachable.start.play hW, hopen, fun honce => ?_⟩
  have := honce.upTo
  omega

end TproxyServer
