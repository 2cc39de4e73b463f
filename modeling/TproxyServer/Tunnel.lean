import TproxyServer.StopAndWait
import TproxyServer.BridgeSerial
import TproxyServer.Credentials
import TproxyServer.PollAnswers
import TproxyServer.UplinkOnce

/-! # A tunnel over HTTPS, from end to end

The page, the session that the relay made for it, and between them a network that loses, repeats,
delays and reorders requests and responses: a copy of any uplink request that the page has made
and of any of its polls can arrive at any time, in any number and alongside others, and the page
can be told of any answer that was given to the request that it waits for.

Each direction is a stop-and-wait link.  For the uplink the page sends bodies, and the relay takes
a body when it applies its frames; for the downlink the relay sends a body when a poll takes it
from the queue, and the page takes it when it is posted to the app.  The cursor of a poll is the
acknowledgement of the downlink. -/

namespace TproxyServer

open Interaction Prog StopAndWait

variable {limits : Limits} {sha256 : Bytes → Bytes} {p : Page.Params}

/-! ### Both parties and the network -/

/-- The state of both parties, and what has passed between them. -/
structure Tunnel where
  page : Page.Script := {}
  relay : Traced
  calls : Table ℕ Call := .nil
  waiting : List Waiter := []
  /-- Uplink requests that the relay acknowledged: sequence, body and `X-Up-Ack`. -/
  acked : List (ℕ × Bytes × ℕ) := []
  /-- The `X-Down-Cursor` of every poll of the page. -/
  asked : List String := []
  /-- Polls that the relay answered with frames: cursor, body and `X-Down-Cursor`. -/
  answered : List (ℕ × Bytes × ℕ) := []
  /-- The bodies that the page took from such answers; nothing reads it. -/
  taken : List Bytes := []
  /-- The bodies that the page was handed for its request for a session; nothing reads it. -/
  welcomes : List Bytes := []

/-- An acknowledgement on its way to the page. -/
def UpReply.acks (sequence : ℕ) (body : Bytes) : UpReply → List (ℕ × Bytes × ℕ)
  | .acked n => [(sequence, body, n)]
  | _ => []

/-- Frames on their way to the page. -/
def PollReply.answers (cursor : ℕ) : PollReply → List (ℕ × Bytes × ℕ)
  | .batch body next => [(cursor, body, next)]
  | _ => []

/-- The body of the answer to the request for a session. -/
def Page.Input.welcome : Page.Input → Option Bytes
  | .welcomed r => r
  | _ => none

namespace Tunnel

def up (W : Tunnel) : Calls := ⟨W.relay, W.calls⟩

def polls (W : Tunnel) : Polls := ⟨W.relay, W.waiting⟩

/-- What the network can let happen to the page.  An answer of the relay is one that it gave to
the request that the page waits for; any other response is not for the session. -/
def Offers (W : Tunnel) : Page.Input → Prop
  | .sessionAnswered (some r) => r.status = 200 → r.cursor = "0"
  | .upAnswered (some r) => r.status = 204 → ∃ b n, W.page.upBatch = some b ∧
      (W.page.upSequence, b.body, n) ∈ W.acked ∧ r.ack = toString n
  | .polled (some r) => r.status = 200 → ∀ data, r.data = some data →
      ∃ cursor next, (cursor, data, next) ∈ W.answered ∧ W.page.downCursor = toString cursor ∧
        r.next = toString next
  | _ => True

/-- The page has come to `s` through input `i`; where it polls, it asks with its cursor. -/
def turn (W : Tunnel) (i : Page.Input) (s : Page.Script) : Tunnel :=
  { W with
    page := s
    asked := if s.polling then W.asked ++ [s.downCursor] else W.asked
    taken := W.taken ++ (W.page.takes i).toList
    welcomes := W.welcomes ++ i.welcome.toList }

/-- One thing happens at one of the parties. -/
inductive Step (p : Page.Params) (sha256 : Bytes → Bytes) : Tunnel → Tunnel → Prop
  | page {W : Tunnel} {i : Page.Input} {s : Page.Script} (hi : W.Offers i)
      (h : W.page.next p i = some s) : Step p sha256 W (W.turn i s)
  /-- A copy of an uplink request arrives. -/
  | request {W : Tunnel} {k n sequence : ℕ} {body : Bytes} {r : UpReply} {σ : Traced}
      (hk : W.calls.get k = none) (hsent : W.page.sent[n]? = some (none, body))
      (hsequence : canonicalUint (toString (n + 1)) = some sequence)
      (h : TproxyServer.Step sha256 W.relay (.processUpBegin sequence body) (.up r) σ) :
      Step p sha256 W { W with
        relay := σ
        calls := (W.up.leave k σ (r.left sequence body)).calls
        acked := W.acked ++ r.acks sequence body }
  | commit {W : Tunnel} {k sequence : ℕ} {body : Bytes} {r : UpReply} {σ : Traced}
      (hk : W.calls.get k = some (.parsing sequence body))
      (h : TproxyServer.Step sha256 W.relay (.processUpCommit sequence body) (.up r) σ) :
      Step p sha256 W { W with
        relay := σ
        calls := (W.up.leave k σ (r.left sequence body)).calls
        acked := W.acked ++ r.acks sequence body }
  | close {W : Tunnel} {k : ℕ} {r : Reply} {σ : Traced} (hk : W.calls.get k = some .closing)
      (h : TproxyServer.Step sha256 W.relay .close r σ) :
      Step p sha256 W { W with relay := σ, calls := (W.up.leave k σ none).calls }
  /-- A copy of a poll arrives. -/
  | poll {W : Tunnel} {text : String} {cursor : ℕ} {r : PollReply} {σ : Traced}
      (htext : text ∈ W.asked) (hcursor : canonicalUint text = some cursor)
      (h : TproxyServer.Step sha256 W.relay (.poll cursor) (.poll r) σ) :
      Step p sha256 W { W with
        relay := σ
        waiting := W.waiting ++ r.waiter .session cursor
        answered := W.answered ++ r.answers cursor }
  | wake {W : Tunnel} {l₁ l₂ : List Waiter} {w : Waiter} {wake : Wake}
      (hw : W.waiting = l₁ ++ w :: l₂) (hblocked : w.wake = none)
      (hready : w.Ready W.relay.session wake) (hother : wake ≠ .notified) :
      Step p sha256 W { W with waiting := l₁ ++ { w with wake := some wake } :: l₂ }
  | token {W : Tunnel} {l₁ l₂ : List Waiter} {w : Waiter} {r : Reply} {σ : Traced}
      (hw : W.waiting = l₁ ++ w :: l₂) (hblocked : w.wake = none)
      (hready : w.Ready W.relay.session .notified)
      (h : TproxyServer.Step sha256 W.relay (.takeToken w.q) r σ) :
      Step p sha256 W { W with
        relay := σ, waiting := l₁ ++ { w with wake := some .notified } :: l₂ }
  | resume {W : Tunnel} {l₁ l₂ : List Waiter} {w : Waiter} {wake : Wake} {r : PollReply}
      {σ : Traced} (hw : W.waiting = l₁ ++ w :: l₂) (hwake : w.wake = some wake)
      (h : TproxyServer.Step sha256 W.relay (.pollResume w.q w.cursor w.mine wake) (.poll r) σ) :
      Step p sha256 W { W with
        relay := σ
        waiting := l₁ ++ r.waiter w.q w.cursor ++ l₂
        answered := W.answered ++ r.answers w.cursor }
  /-- Anything else at the relay: backends, their ends, the end of the session. -/
  | other {W : Tunnel} {c : Section} {r : Reply} {σ : Traced} (hup : c.ofProcessUp = false)
      (hpolling : c.polling = false) (h : TproxyServer.Step sha256 W.relay c r σ) :
      Step p sha256 W { W with relay := σ }

def start (limits : Limits) : Tunnel := { relay := ⟨newSession limits .https, []⟩ }

/-- The runs of a tunnel whose relay has these limits. -/
inductive Reachable (p : Page.Params) (sha256 : Bytes → Bytes) (limits : Limits) : Tunnel → Prop
  | start : Reachable p sha256 limits (.start limits)
  | step {W W' : Tunnel} :
      Reachable p sha256 limits W → Step p sha256 W W' → Reachable p sha256 limits W'

/-! ### What each party knows -/

variable {W W' : Tunnel}

theorem leave_calls (C : Calls) (k : ℕ) (σ : Traced) (left : Option Call) :
    (⟨σ, (C.leave k σ left).calls⟩ : Calls) = C.leave k σ left := by
  cases left <;> rfl

theorem Reachable.up (h : Reachable p sha256 limits W) :
    Calls.Reachable sha256 limits .https W.up := by
  induction h with
  | start => exact .start
  | @step W W' _ hs ih =>
      cases hs with
      | page => exact ih
      | request hk _ _ hstep =>
          have hnext := ih.step (.begin hk hstep)
          rwa [← leave_calls] at hnext
      | commit hk hstep =>
          have hnext := ih.step (.commit hk hstep)
          rwa [← leave_calls] at hnext
      | close hk hstep =>
          have hnext := ih.step (.close hk hstep)
          rwa [← leave_calls] at hnext
      | poll _ _ hstep => exact ih.step (.other rfl hstep)
      | wake => exact ih
      | token _ _ _ hstep => exact ih.step (.other rfl hstep)
      | resume _ _ hstep => exact ih.step (.other rfl hstep)
      | other hup _ hstep => exact ih.step (.other hup hstep)

theorem Reachable.polls (h : Reachable p sha256 limits W) :
    Polls.Reachable sha256 limits .https W.polls := by
  induction h with
  | start => exact .start
  | step _ hs ih =>
      cases hs with
      | page => exact ih
      | request _ _ _ hstep => exact ih.step (.other rfl hstep)
      | commit _ hstep => exact ih.step (.other rfl hstep)
      | close _ hstep => exact ih.step (.other rfl hstep)
      | poll _ _ hstep => exact ih.step (.arrive (c := .poll _) rfl hstep)
      | wake hw hblocked hready hother => exact ih.step (.wake hw hblocked hready hother)
      | token hw hblocked hready hstep => exact ih.step (.token hw hblocked hready hstep)
      | resume hw hwake hstep => exact ih.step (.resume hw hwake hstep)
      | other _ hpolling hstep => exact ih.step (.other hpolling hstep)

theorem Reachable.serial (hmode : p.carrierMode = .https) (h : Reachable p sha256 limits W) :
    W.page.Serial := by
  induction h with
  | start => exact .start
  | step _ hs ih =>
      cases hs with
      | page _ hnext => exact (Page.Script.next_turn hmode ih hnext).1
      | _ => exact ih

/-- A number has one spelling, and only one number has it. -/
theorem toString_inj {m n : ℕ} (h : toString m = toString n) : m = n := by
  rw [Nat.toString_eq_repr, Nat.toString_eq_repr] at h
  have hdigits := congrArg String.toList h
  rw [Nat.toList_repr, Nat.toList_repr] at hdigits
  have hvalue := congrArg (fun l => Nat.ofDigitChars 10 l 0) hdigits
  simpa only [Nat.ofDigitChars_ten_toDigits] using hvalue

/-! ### The uplink is a link -/

structure Sender (s : Page.Script) (L : Link Bytes) : Prop where
  sent : L.sent = s.sent.map Prod.snd
  heard : L.heard + 1 = s.upSequence
  waiting : ∀ b, s.upBatch = some b → L.sent.length = L.heard + 1
  idle : s.upBatch = none → s.closed = false → L.heard = L.sent.length

theorem Sender.moves {s s' : Page.Script} {L : Link Bytes} {extra : Bytes} (h : Sender s L)
    (hm : Page.Moves s s' extra) :
    ∃ more, Link.Steps L { L with sent := L.sent ++ more } ∧
      Sender s' { L with sent := L.sent ++ more } := by
  have hopen : s'.closed = false → s.closed = false := by
    intro hc
    by_contra hn
    rw [Bool.not_eq_false] at hn
    rw [hm.closed hn] at hc
    cases hc
  rcases hm.bodies with ⟨hsent, hbatch⟩ | ⟨hidle, hopen, b, hsent, hbatch⟩
  · refine ⟨[], ?_, ?_, ?_, fun b hb => ?_, fun hn hc => ?_⟩
    · rw [List.append_nil]
      exact .refl L
    · rw [List.append_nil, hsent]
      exact h.sent
    · rw [hm.sequence]
      exact h.heard
    · rw [List.append_nil]
      exact h.waiting b (hbatch ▸ hb)
    · rw [List.append_nil]
      exact h.idle (hbatch ▸ hn) (hopen hc)
  · have hheard := h.idle hidle hopen
    refine ⟨[b.body], (Link.Step.send b.body hheard).steps, ?_, ?_, fun _ _ => ?_, fun hn => ?_⟩
    · rw [hsent, List.map_append, ← h.sent]
      rfl
    · rw [hm.sequence]
      exact h.heard
    · rw [List.length_append, ← hheard]
      rfl
    · rw [hbatch] at hn
      cases hn

/-- The uplink of a tunnel as a link. -/
structure UpRel (W : Tunnel) (L : Link Bytes) : Prop where
  sender : Sender W.page L
  taken : L.taken = appliedBodies W.relay.trace
  given : ∀ n b a, (n, b, a) ∈ W.acked → a ∈ L.given
  calls : ∀ k n b, W.calls.get k = some (.parsing n b) → L.sent[n - 1]? = some b

theorem getElem?_sent {L : Link Bytes} {more : List Bytes} {n : ℕ} {b : Bytes}
    (h : L.sent[n]? = some b) : (L.sent ++ more)[n]? = some b := by
  rw [List.getElem?_append_left (List.getElem?_eq_some_iff.mp h).1]
  exact h

/-- A turn of the page. -/
theorem UpRel.page {L : Link Bytes} (h : UpRel W L) {i : Page.Input} {s : Page.Script}
    (hi : W.Offers i) (ht : Page.UpTurn W.page i s) :
    ∃ L', Link.Steps L L' ∧ UpRel (W.turn i s) L' := by
  cases ht with
  | moves hm =>
      obtain ⟨more, hsteps, hsender⟩ := h.sender.moves hm
      exact ⟨_, hsteps, hsender, h.taken, h.given, fun k n b hk => getElem?_sent (h.calls k n b hk)⟩
  | lost hsent hbatch hsequence hclosed =>
      refine ⟨L, .refl L, ⟨?_, ?_, fun b hb => ?_, fun _ hc => ?_⟩, h.taken, h.given, h.calls⟩
      · exact h.sender.sent.trans (congrArg _ hsent.symm)
      · exact h.sender.heard.trans hsequence.symm
      · cases hbatch.symm.trans hb
      · cases hclosed.symm.trans hc
  | @heard r b mid _ hb hstatus hack hsent hbatch hsequence hclosed hm =>
      obtain ⟨b', n, hb', hacked, hn⟩ := hi hstatus
      have hn' : n = L.heard + 1 := by
        rw [h.sender.heard]
        exact toString_inj (hn.symm.trans hack)
      have hgiven := h.given _ _ _ hacked
      rw [hn'] at hgiven
      have hmid : Sender mid { L with heard := L.heard + 1 } := by
        refine ⟨h.sender.sent.trans (congrArg _ hsent.symm), ?_, fun b hb => ?_, fun _ _ => ?_⟩
        · rw [hsequence, ← h.sender.heard]
        · rw [hbatch] at hb
          cases hb
        · exact (h.sender.waiting b hb).symm
      obtain ⟨more, hsteps, hsender⟩ := hmid.moves hm
      exact ⟨_, (Link.Step.hear hgiven).steps.trans hsteps, hsender, h.taken, h.given,
        fun k n b hk => getElem?_sent (h.calls k n b hk)⟩

/-- What happens at the relay is a section of the session. -/
theorem Step.relay (h : Step p sha256 W W') :
    W'.relay = W.relay ∨ ∃ c r, TproxyServer.Step sha256 W.relay c r W'.relay := by
  cases h with
  | page => exact .inl rfl
  | request _ _ _ h => exact .inr ⟨_, _, h⟩
  | commit _ h => exact .inr ⟨_, _, h⟩
  | close _ h => exact .inr ⟨_, _, h⟩
  | poll _ _ h => exact .inr ⟨_, _, h⟩
  | wake => exact .inl rfl
  | token _ _ _ h => exact .inr ⟨_, _, h⟩
  | resume _ _ h => exact .inr ⟨_, _, h⟩
  | other _ _ h => exact .inr ⟨_, _, h⟩

/-- No application was cut short at the relay. -/
def Whole (W : Tunnel) : Prop := ∀ id, Event.abandoned id ∉ W.relay.trace

theorem Whole.before (hr : Reachable p sha256 limits W) (h : Step p sha256 W W')
    (hw : W'.Whole) : W.Whole := by
  intro id hm
  rcases h.relay with he | ⟨c, r, hstep⟩
  · exact hw id (he ▸ hm)
  · exact hw id ((hstep.changes hr.up.reachable.sound).trace_mono hm)

theorem Whole.abandonments (h : W.Whole) : abandonments W.relay.trace = [] := by
  unfold TproxyServer.abandonments
  rw [List.filterMap_eq_nil_iff]
  intro e he
  cases e with
  | abandoned id => exact absurd he (h id)
  | _ => rfl

/-- As many bodies were applied as the relay counts. -/
theorem Whole.count (h : W.Whole) (hr : Reachable p sha256 limits W) :
    (appliedBodies W.relay.trace).length = W.relay.session.lastUpSequence := by
  have hcount : (appliedBodies W.relay.trace).length = W.relay.session.lastUpSequence +
      (TproxyServer.abandonments W.relay.trace).length := (hr.up.ordered (.inl rfl)).2.count
  rw [h.abandonments] at hcount
  exact hcount

theorem processUpBegin_acked {s s' : Session} {sequence a : ℕ} {body : Bytes}
    (h : processUpBegin sha256 s sequence body = (s', .acked a)) : a = s.lastUpSequence := by
  unfold processUpBegin at h
  split_ifs at h with _ _ hlast
  all_goals
    simp only [Prod.mk.injEq, UpReply.acked.injEq, reduceCtorEq, and_false] at h
  rw [← h.2]
  exact hlast.1

/-- Where nothing is applied the link does nothing. -/
theorem UpRel.still {L : Link Bytes} (h : UpRel W L) (hpage : W'.page = W.page)
    (hbodies : appliedBodies W'.relay.trace = appliedBodies W.relay.trace)
    (hacked : W'.acked = W.acked)
    (hcalls : ∀ k n b, W'.calls.get k = some (.parsing n b) →
      W.calls.get k = some (.parsing n b)) : UpRel W' L where
  sender := hpage ▸ h.sender
  taken := h.taken.trans hbodies.symm
  given n b a hm := h.given n b a (hacked ▸ hm)
  calls k n b hk := h.calls k n b (hcalls k n b hk)

/-- A call acknowledges what has been applied. -/
theorem UpRel.acks {L : Link Bytes} (h : UpRel W L) (sequence : ℕ) (body : Bytes) (r : UpReply)
    (hpage : W'.page = W.page)
    (hbodies : appliedBodies W'.relay.trace = appliedBodies W.relay.trace)
    (hacked : W'.acked = W.acked ++ r.acks sequence body)
    (hr : ∀ a, r = .acked a → a = L.taken.length)
    (hcalls : ∀ k n b, W'.calls.get k = some (.parsing n b) → L.sent[n - 1]? = some b) :
    ∃ L', Link.Steps L L' ∧ UpRel W' L' := by
  have hgive := (Link.Step.give (L := L) le_rfl).steps
  refine ⟨_, hgive, ⟨(hpage ▸ h.sender).sent, (hpage ▸ h.sender).heard,
    (hpage ▸ h.sender).waiting, (hpage ▸ h.sender).idle⟩, h.taken.trans hbodies.symm, ?_, hcalls⟩
  intro n b a hm
  rw [hacked] at hm
  rcases List.mem_append.mp hm with hm | hm
  · exact .inr (h.given n b a hm)
  · left
    cases r with
    | acked m =>
        cases List.mem_singleton.mp hm
        exact hr _ rfl
    | _ => cases hm

theorem appliedBodies_of_quiet {t t' : List Event} (h : Quiet t t') :
    appliedBodies t' = appliedBodies t := by
  rw [← appliedBodies_uplinkEvents, h.1, appliedBodies_uplinkEvents]

/-- A copy of a request meets the first section. -/
theorem UpRel.request {L : Link Bytes} (h : UpRel W L) (hr : Reachable p sha256 limits W)
    (hwhole : W.Whole) {k n sequence : ℕ} {body : Bytes} {r : UpReply} {σ : Traced}
    (hsent : W.page.sent[n]? = some (none, body))
    (hsequence : canonicalUint (toString (n + 1)) = some sequence)
    (hstep : TproxyServer.Step sha256 W.relay (.processUpBegin sequence body) (.up r) σ) :
    ∃ L', Link.Steps L L' ∧ UpRel { W with
      relay := σ
      calls := (W.up.leave k σ (r.left sequence body)).calls
      acked := W.acked ++ r.acks sequence body } L' := by
  have hn : n + 1 = sequence := toString_inj (canonicalUint_eq_some.mp hsequence).2
  have hresult := hstep.processUpBegin.1
  have hbodies : appliedBodies σ.trace = appliedBodies W.relay.trace := by
    rw [hstep.processUpBegin.2]
  have hbody : L.sent[sequence - 1]? = some body := by
    rw [h.sender.sent, List.getElem?_map, ← hn, Nat.add_sub_cancel, hsent]
    rfl
  refine h.acks sequence body r rfl hbodies rfl ?_ ?_
  · rintro a rfl
    rw [h.taken, hwhole.count hr]
    exact processUpBegin_acked hresult
  · intro i m b hi
    dsimp only at hi
    rw [Calls.leave_get] at hi
    split_ifs at hi with hk
    · cases r with
      | parsing =>
          cases hi
          exact hbody
      | _ => cases hi
    · exact h.calls i m b hi

/-- A call meets its second section. -/
theorem UpRel.commit {L : Link Bytes} (h : UpRel W L) (hr : Reachable p sha256 limits W)
    (hwhole : W.Whole) {k sequence : ℕ} {body : Bytes} {r : UpReply} {σ : Traced}
    (hk : W.calls.get k = some (.parsing sequence body))
    (hstep : TproxyServer.Step sha256 W.relay (.processUpCommit sequence body) (.up r) σ)
    (hafter : TproxyServer.abandonments σ.trace = []) :
    ∃ L', Link.Steps L L' ∧ UpRel { W with
      relay := σ
      calls := (W.up.leave k σ (r.left sequence body)).calls
      acked := W.acked ++ r.acks sequence body } L' := by
  have hsequence : sequence = W.relay.session.lastUpSequence + 1 :=
    ((hr.up.ordered (.inl rfl)).2.parsing k sequence body hk).1
  have hcalls : (∀ n b, r.left sequence body ≠ some (.parsing n b)) → ∀ i m b,
      (W.up.leave k σ (r.left sequence body)).calls.get i = some (.parsing m b) →
      L.sent[m - 1]? = some b := by
    intro hleft i m b hi
    rw [Calls.leave_get] at hi
    split_ifs at hi with hik
    · exact absurd hi (hleft m b)
    · exact h.calls i m b hi
  have hresult := hstep.processUpCommit hr.up.reachable.sound
  obtain ⟨s', t'⟩ := σ
  dsimp only at hresult hafter
  cases hresult with
  | idle hidle =>
      refine h.acks sequence body r rfl rfl rfl ?_ ?_
      · rintro a rfl
        simp at hidle
      · apply hcalls
        rcases hidle with rfl | rfl | rfl <;> simp [UpReply.left]
  | acked hframes hg hbooks hup hab =>
      have hbodies : appliedBodies t' = appliedBodies W.relay.trace ++ [body] := by
        rw [← appliedBodies_uplinkEvents, hup, appliedBodies_append, appliedBodies_uplinkEvents]
        exact congrArg (fun l => _ ++ body :: l) hg.appliedBodies
      have hlength : L.taken.length = sequence - 1 := by
        rw [h.taken, hwhole.count hr, hsequence, Nat.add_sub_cancel]
      have hnext : L.sent[L.taken.length]? = some body := by
        rw [hlength]
        exact h.calls k sequence body hk
      have htaken : UpRel { W with relay := ⟨s', t'⟩ } { L with taken := L.taken ++ [body] } :=
        ⟨⟨h.sender.sent, h.sender.heard, h.sender.waiting, h.sender.idle⟩,
          (congrArg (· ++ [body]) h.taken).trans hbodies.symm, h.given, h.calls⟩
      have hacks : ∃ L', Link.Steps { L with taken := L.taken ++ [body] } L' ∧ UpRel { W with
          relay := ⟨s', t'⟩
          calls := (W.up.leave k ⟨s', t'⟩ (UpReply.left sequence body (.acked sequence))).calls
          acked := W.acked ++ UpReply.acks sequence body (.acked sequence) } L' := by
        refine htaken.acks sequence body (.acked sequence) rfl rfl rfl (fun a ha => ?_)
          (hcalls (by simp [UpReply.left]))
        cases ha
        rw [List.length_append, hlength, hsequence]
        rfl
      obtain ⟨L', hsteps, hrel⟩ := hacks
      exact ⟨L', (Link.Step.take hnext).steps.trans hsteps, hrel⟩
  | aborting hg hbooks hup hab =>
      rw [hafter] at hab
      cases hab

/-- **The uplink of a tunnel is a stop-and-wait link**, as long as no application is cut short. -/
theorem up_simulates (hmode : p.carrierMode = .https) :
    Simulates (Step p sha256) fun W L =>
      Reachable p sha256 limits W ∧ (W.Whole → UpRel W L) := by
  rintro W W' L ⟨hr, h⟩ hs
  by_cases hwhole' : W'.Whole
  · have hwhole := hwhole'.before hr hs
    have hrel := h hwhole
    suffices hgoal : ∃ L', Link.Steps L L' ∧ UpRel W' L' by
      obtain ⟨L', hsteps, hL'⟩ := hgoal
      exact ⟨L', hsteps, hr.step hs, fun _ => hL'⟩
    have hsound := hr.up.reachable.sound
    have hlanes : W.relay.session.usesCarrierLanes = false := hsound.usesCarrierLanes
    have hquiet : ∀ {c : Section} {r : Reply} {σ : Traced}, c.ofProcessUp = false →
        TproxyServer.Step sha256 W.relay c r σ →
        appliedBodies σ.trace = appliedBodies W.relay.trace := fun hc hstep =>
      appliedBodies_of_quiet (hstep.other hsound hlanes hc).2
    cases hs with
    | page hi hnext =>
        exact hrel.page hi (Page.Script.next_turn hmode (hr.serial hmode) hnext).2.up
    | request _ hsent hsequence hstep => exact hrel.request hr hwhole hsent hsequence hstep
    | commit hk hstep => exact hrel.commit hr hwhole hk hstep hwhole'.abandonments
    | close hk hstep =>
        refine ⟨L, .refl L, hrel.still rfl (hquiet rfl hstep) rfl fun i m b hi => ?_⟩
        exact (Calls.leave_parsing (by simp) hi).2
    | poll _ _ hstep =>
        exact ⟨L, .refl L, hrel.still rfl (hquiet rfl hstep) rfl fun _ _ _ hi => hi⟩
    | wake => exact ⟨L, .refl L, hrel.still rfl rfl rfl fun _ _ _ hi => hi⟩
    | token _ _ _ hstep =>
        exact ⟨L, .refl L, hrel.still rfl (hquiet rfl hstep) rfl fun _ _ _ hi => hi⟩
    | resume _ _ hstep =>
        exact ⟨L, .refl L, hrel.still rfl (hquiet rfl hstep) rfl fun _ _ _ hi => hi⟩
    | other hup _ hstep =>
        exact ⟨L, .refl L, hrel.still rfl (hquiet hup hstep) rfl fun _ _ _ hi => hi⟩
  · exact ⟨L, .refl L, hr.step hs, fun hwhole => absurd hwhole hwhole'⟩

/-! ### The downlink is a link -/

structure Source (σ : Traced) (L : Link Bytes) : Prop where
  sent : L.sent = (deliveries σ.trace .session).map Prod.snd
  idle : σ.session.closed = false → σ.session.down.unacked = [] → L.heard = L.sent.length
  waiting : σ.session.closed = false → σ.session.down.unacked ≠ [] →
    L.heard + 1 = L.sent.length

/-- What the app is posted first: the welcome, before which nothing is taken. -/
def First (welcomes taken first : List Bytes) : Prop :=
  first = [] ∧ taken = [] ∨ ∃ welcome ∈ welcomes, first = [welcome]

theorem First.append {welcomes taken first : List Bytes} (h : First welcomes taken first)
    (more : List Bytes) : First (welcomes ++ more) taken first := by
  rcases h with h | ⟨welcome, hm, he⟩
  · exact .inl h
  · exact .inr ⟨welcome, List.mem_append_left _ hm, he⟩

/-- The page as the receiver of a link.  The app has been posted the welcome, then what the page
took. -/
structure Sink (p : Page.Params) (s : Page.Script) (welcomes taken : List Bytes) : Prop where
  cursor : s.downCursor = toString taken.length
  early : s.creating ≠ .ended → taken = [] ∧ s.polling = false ∧ s.posted = []
  posted : ∃ first, First welcomes taken first ∧ (s.polling = true → first ≠ []) ∧
    s.posted = (first ++ taken).flatMap p.chunks

/-- The downlink of a tunnel as a link. -/
structure DownRel (p : Page.Params) (W : Tunnel) (L : Link Bytes) : Prop where
  source : Source W.relay L
  sink : Sink p W.page W.welcomes W.taken
  taken : L.taken = W.taken
  given : ∀ text ∈ W.asked, ∃ c ∈ L.given, text = toString c
  waiters : ∀ w ∈ W.waiting, w.q = .session ∧ w.cursor ∈ L.given
  answers : ∀ c b n, (c, b, n) ∈ W.answered → n = c + 1 ∧ L.sent[c]? = some b

/-- A section that is none of a poll's leaves the link as it is. -/
theorem Source.still {σ σ' : Traced} {L : Link Bytes} {c : Section} {r : Reply} (h : Source σ L)
    (hs : Sound limits .https σ) (hpolls : c.scope.polls = false)
    (hstep : TproxyServer.Step sha256 σ c r σ') : Source σ' L := by
  have hdeliveries : deliveries σ'.trace .session = deliveries σ.trace .session :=
    hstep.delivers_nothing hs hpolls .session
  have hkept : σ'.session.closed = false →
      σ.session.closed = false ∧ σ'.session.down.unacked = σ.session.down.unacked := by
    refine (hstep.changes hs).invariant (I := fun τ => τ.session.closed = false →
      σ.session.closed = false ∧ τ.session.down.unacked = σ.session.down.unacked)
      (fun hchange hI hopen => ?_) fun hopen => ⟨hopen, rfl⟩
    obtain ⟨hbefore, hsame⟩ := hI (by
      by_contra hn
      rw [Bool.not_eq_false] at hn
      rw [hchange.closed_mono hn] at hopen
      cases hopen)
    exact ⟨hbefore, (hchange.keeps_unacked hpolls hopen).trans hsame⟩
  refine ⟨h.sent.trans (by rw [hdeliveries]), fun hopen hnil => ?_, fun hopen hne => ?_⟩
  · obtain ⟨hbefore, hsame⟩ := hkept hopen
    exact h.idle hbefore (hsame ▸ hnil)
  · obtain ⟨hbefore, hsame⟩ := hkept hopen
    exact h.waiting hbefore (hsame ▸ hne)

/-- The poll with the cursor of the queue acknowledges what is unacknowledged. -/
theorem Source.hears {σ : Traced} {L : Link Bytes} {cursor : ℕ} (h : Source σ L)
    (hcarried : Carried σ .session) (hopen : σ.session.closed = false)
    (hgiven : cursor ∈ L.given) (hcursor : cursor = σ.session.down.downCursor) :
    ∃ L', Link.Steps L L' ∧ L'.heard = L.sent.length ∧ L'.sent = L.sent ∧ L'.taken = L.taken ∧
      L'.given = L.given := by
  by_cases hunacked : σ.session.down.unacked = []
  · exact ⟨L, .refl L, h.idle hopen hunacked, rfl, rfl, rfl⟩
  · have hlength : L.sent.length = cursor := by
      rw [h.sent, List.length_map, hcursor]
      exact hcarried.count ⟨hopen, trivial⟩
    have hheard := h.waiting hopen hunacked
    have hin : L.heard + 1 ∈ L.given := by
      rw [hheard, hlength]
      exact hgiven
    exact ⟨_, (Link.Step.hear hin).steps, hheard, rfl, rfl, rfl⟩

/-- What a section of a poll does to the link. -/
theorem Source.answered {σ σ' : Traced} {L : Link Bytes} {cursor : ℕ} {r : PollReply}
    (h : Source σ L) (hcarried : Carried σ .session) (hcarried' : Carried σ' .session)
    (hreplied : Replied σ.session σ.trace .session cursor σ'.trace σ'.session r)
    (hlive : ∀ body next, r = .batch body next → σ.session.Live .session)
    (hclosed : σ'.session.closed = false → σ.session.closed = false)
    (hgiven : cursor ∈ L.given) :
    ∃ L', Link.Steps L L' ∧ Source σ' L' ∧ L'.taken = L.taken ∧ L'.given = L.given ∧
      L.sent <+: L'.sent := by
  by_cases hbatch : ∃ body next, r = .batch body next
  · obtain ⟨body, next, rfl⟩ := hbatch
    rcases hreplied.batch body next rfl with ⟨htrace, hsame, -⟩ | ⟨htrace, hcursor, -, -, hunacked⟩
    · refine ⟨L, .refl L, ?_, rfl, rfl, List.prefix_refl _⟩
      obtain ⟨s', t'⟩ := σ'
      dsimp only at htrace hsame
      rw [htrace, hsame]
      exact h
    · obtain ⟨L₁, hsteps, hheard, hsent, htaken, hgiven₁⟩ :=
        h.hears hcarried (hlive body next rfl).1 hgiven hcursor
      have hdeliveries : deliveries σ'.trace .session =
          deliveries σ.trace .session ++ [(cursor, body)] := by
        rw [htrace, deliveries_append]
        rfl
      have hne : body ≠ [] := hcarried'.nonempty (cursor, body) (by rw [hdeliveries]; simp)
      refine ⟨{ L₁ with sent := L₁.sent ++ [body] },
        hsteps.trans (Link.Step.send body (hheard.trans (by rw [hsent]))).steps,
        ⟨?_, fun _ hnil => ?_, fun _ _ => ?_⟩, htaken, hgiven₁, ?_⟩
      · rw [hdeliveries, List.map_append, ← h.sent, hsent]
        rfl
      · exact absurd (hunacked.symm.trans hnil) hne
      · rw [hheard, List.length_append, hsent]
        rfl
      · rw [hsent]
        exact List.prefix_append _ _
  · have hno : ∀ body next, r ≠ .batch body next := fun body next he => hbatch ⟨body, next, he⟩
    have htrace := hreplied.rest hno
    have hsent : L.sent = (deliveries σ'.trace .session).map Prod.snd := by
      rw [htrace]
      exact h.sent
    rcases hreplied.acked hno with hsame | ⟨hcursor, hnil⟩
    · refine ⟨L, .refl L, ⟨hsent, fun hopen hnil => ?_, fun hopen hne => ?_⟩, rfl, rfl,
        List.prefix_refl _⟩
      · exact h.idle (hclosed hopen) (hsame.symm.trans hnil)
      · exact h.waiting (hclosed hopen) fun he => hne (hsame.trans he)
    · by_cases hopen : σ'.session.closed = false
      · obtain ⟨L₁, hsteps, hheard, hsent₁, htaken, hgiven₁⟩ :=
          h.hears hcarried (hclosed hopen) hgiven hcursor
        refine ⟨L₁, hsteps, ⟨hsent₁.trans hsent, fun _ _ => ?_, fun _ hne => absurd hnil hne⟩,
          htaken, hgiven₁, by rw [hsent₁]⟩
        rw [hheard, hsent₁]
      · exact ⟨L, .refl L, ⟨hsent, fun hc => absurd hc hopen, fun hc => absurd hc hopen⟩, rfl, rfl,
          List.prefix_refl _⟩

/-- What the page takes is the message that is next. -/
theorem DownRel.sink_turn {L : Link Bytes} (h : DownRel p W L) {i : Page.Input} {s : Page.Script}
    (hi : W.Offers i) (ht : Page.DownTurn p W.page i s) :
    Sink p s (W.welcomes ++ i.welcome.toList) (W.taken ++ (W.page.takes i).toList) ∧
      ∀ data, W.page.takes i = some data → L.sent[L.taken.length]? = some data := by
  obtain ⟨hcursor, hearly, first, hfirst, hpolls, hposted⟩ := h.sink
  have hnone : ∀ {i : Page.Input}, W.page.takes i = none →
      W.taken ++ (W.page.takes i).toList = W.taken := by
    intro i hn
    rw [hn]
    exact List.append_nil _
  cases ht with
  | still htakes hcursor' hposted' hpolling hcreating =>
      rw [hnone htakes]
      refine ⟨⟨hcursor'.trans hcursor, fun hne => ?_, first, hfirst.append _,
        fun hp => hpolls (hpolling hp), hposted'.trans hposted⟩,
        fun data hd => by rw [htakes] at hd; cases hd⟩
      obtain ⟨htaken, hidle, hempty⟩ := hearly fun he => hne (hcreating he)
      refine ⟨htaken, ?_, hposted'.trans hempty⟩
      by_contra hn
      rw [Bool.not_eq_false] at hn
      rw [hpolling hn] at hidle
      cases hidle
  | @answered r _ hstatus hcreating hcursor' hposted' hpolling =>
      obtain ⟨htaken, hidle, hempty⟩ := hearly hcreating
      rw [hnone rfl]
      refine ⟨⟨?_, fun _ => ⟨htaken, hpolling.trans hidle, hposted'.trans hempty⟩, first,
        hfirst.append _, fun hp => hpolls (hpolling ▸ hp), hposted'.trans hposted⟩,
        fun data hd => by cases hd⟩
      rw [hcursor', hi hstatus, htaken]
      rfl
  | @connected welcome _ hcreating hcursor' hposted' hended =>
      obtain ⟨htaken, -, hempty⟩ := hearly hcreating
      rw [hnone rfl]
      have hwelcome : First (W.welcomes ++ [welcome]) W.taken [welcome] :=
        .inr ⟨welcome, List.mem_append_right _ (List.mem_singleton.mpr rfl), rfl⟩
      refine ⟨⟨hcursor'.trans hcursor, fun hne => absurd hended hne, [welcome], hwelcome,
        fun _ => List.cons_ne_nil _ _, ?_⟩, fun data hd => by cases hd⟩
      rw [hposted', hempty, htaken]
      simp
  | @took r data _ hpolling hstatus hdata htakes hcursor' hposted' hcreating =>
      obtain ⟨cursor, next, hanswer, htext, hnext⟩ := hi hstatus data hdata
      obtain ⟨rfl, hget⟩ := h.answers cursor data next hanswer
      have hlength : cursor = W.taken.length := toString_inj (htext.symm.trans hcursor)
      rw [htakes]
      -- the page polls, so the welcome has been posted
      have hwelcome : First W.welcomes (W.taken ++ [data]) first := by
        rcases hfirst with ⟨hnil, -⟩ | hfirst
        · exact absurd hnil (hpolls hpolling)
        · exact .inr hfirst
      refine ⟨⟨?_, fun hne => ?_, first, hwelcome.append _, fun _ => hpolls hpolling, ?_⟩,
        fun data' hd => ?_⟩
      · rw [hcursor', hnext, hlength, Option.toList_some, List.length_append]
        rfl
      · have hidle := (hearly (hcreating ▸ hne)).2.1
        rw [hpolling] at hidle
        cases hidle
      · rw [hposted', hposted, ← List.append_assoc, List.flatMap_append]
        simp
      · cases hd
        rw [h.taken, ← hlength]
        exact hget

/-- A turn of the page. -/
theorem DownRel.page {L : Link Bytes} (h : DownRel p W L) {i : Page.Input} {s : Page.Script}
    (hi : W.Offers i) (ht : Page.DownTurn p W.page i s) :
    ∃ L', Link.Steps L L' ∧ DownRel p (W.turn i s) L' := by
  obtain ⟨hsink, hnext⟩ := h.sink_turn hi ht
  have htake : ∃ L₁, Link.Steps L L₁ ∧ L₁.sent = L.sent ∧ L₁.heard = L.heard ∧
      L₁.given = L.given ∧ L₁.taken = W.taken ++ (W.page.takes i).toList := by
    cases htakes : W.page.takes i with
    | none => exact ⟨L, .refl L, rfl, rfl, rfl, by rw [h.taken]; exact (List.append_nil _).symm⟩
    | some data =>
        exact ⟨_, (Link.Step.take (hnext data htakes)).steps, rfl, rfl, rfl, by rw [h.taken]; rfl⟩
  obtain ⟨L₁, hsteps, hsent, hheard, hgiven, htaken⟩ := htake
  refine ⟨{ L₁ with given := insert L₁.taken.length L₁.given },
    hsteps.trans (Link.Step.give le_rfl).steps, ⟨?_, ?_, ?_⟩, hsink, htaken, ?_, ?_, ?_⟩
  · exact hsent.trans h.source.sent
  · intro hopen hnil
    have hidle := h.source.idle hopen hnil
    exact (hheard.trans hidle).trans (by rw [hsent])
  · intro hopen hne
    have hwaiting := h.source.waiting hopen hne
    dsimp only
    rw [hheard, hsent]
    exact hwaiting
  · intro text htext
    have hold : text ∈ W.asked → ∃ c ∈ insert L₁.taken.length L₁.given, text = toString c := by
      intro hm
      obtain ⟨c, hc, he⟩ := h.given text hm
      exact ⟨c, .inr (hgiven ▸ hc), he⟩
    unfold turn at htext
    dsimp only at htext
    split_ifs at htext with hpolling
    · rcases List.mem_append.mp htext with hm | hm
      · exact hold hm
      · refine ⟨L₁.taken.length, .inl rfl, ?_⟩
        rw [List.mem_singleton.mp hm, htaken]
        exact hsink.cursor
    · exact hold htext
  · intro w hw
    obtain ⟨hq, hc⟩ := h.waiters w hw
    exact ⟨hq, .inr (hgiven ▸ hc)⟩
  · intro c b n hm
    obtain ⟨hn, hget⟩ := h.answers c b n hm
    exact ⟨hn, hsent ▸ hget⟩

/-- What happens to neither poll nor page. -/
theorem DownRel.still {L : Link Bytes} (h : DownRel p W L) (hsource : Source W'.relay L)
    (hpage : W'.page = W.page) (hasked : W'.asked = W.asked) (hanswered : W'.answered = W.answered)
    (htaken : W'.taken = W.taken) (hwelcomes : W'.welcomes = W.welcomes)
    (hwaiters : ∀ w ∈ W'.waiting, w.q = .session ∧ w.cursor ∈ L.given) : DownRel p W' L where
  source := hsource
  sink := by
    rw [hpage, htaken, hwelcomes]
    exact h.sink
  taken := h.taken.trans htaken.symm
  given := hasked ▸ h.given
  waiters := hwaiters
  answers := hanswered ▸ h.answers

theorem DownRel.poll {L : Link Bytes} (h : DownRel p W L) (hr : Reachable p sha256 limits W)
    {cursor : ℕ} {r : PollReply} {σ : Traced} {l₁ l₂ : List Waiter}
    (hans : Polls.Answers sha256 W.polls .session cursor r σ) (hgiven : cursor ∈ L.given)
    (hwaiters : ∀ w ∈ l₁ ++ l₂, w ∈ W.waiting) :
    ∃ L', Link.Steps L L' ∧ DownRel p { W with
      relay := σ
      waiting := l₁ ++ r.waiter .session cursor ++ l₂
      answered := W.answered ++ r.answers cursor } L' := by
  have hpolls := hr.polls
  obtain ⟨W₁, hstep, hσ⟩ := hans.step
  have hreach : TproxyServer.Reachable sha256 limits .https σ := hσ ▸ (hpolls.step hstep).state
  obtain ⟨hreplied, hlive⟩ := hans.answered hpolls.state hpolls.invariant hpolls.cursors
  have hback : ∀ {c : Section} {r : Reply}, TproxyServer.Step sha256 W.relay c r σ →
      σ.session.closed = false → W.relay.session.closed = false := by
    intro c r hstep hopen
    by_contra hn
    rw [Bool.not_eq_false] at hn
    rw [(hstep.changes hpolls.state.sound).closed_mono hn] at hopen
    cases hopen
  have hclosed : σ.session.closed = false → W.relay.session.closed = false := by
    cases hans with
    | arrive _ hstep => exact hback hstep
    | resume _ _ _ _ hstep => exact hback hstep
  obtain ⟨L', hsteps, hsource, htaken, hgiven', hinit⟩ := h.source.answered
    (hpolls.state.carried .session) (hreach.carried .session) hreplied hlive hclosed hgiven
  refine ⟨L', hsteps, hsource, h.sink, htaken.trans h.taken, ?_, ?_, ?_⟩
  · rw [hgiven']
    exact h.given
  · rw [hgiven']
    intro w hw
    have hcases : w ∈ l₁ ++ l₂ ∨ w ∈ r.waiter .session cursor := by
      simp only [List.mem_append] at hw ⊢
      tauto
    rcases hcases with hw | hw
    · exact h.waiters w (hwaiters w hw)
    · cases r with
      | parked m =>
          rw [List.mem_singleton.mp hw]
          exact ⟨rfl, hgiven⟩
      | _ => cases hw
  · intro c b n hm
    rcases List.mem_append.mp hm with hm | hm
    · obtain ⟨hn, hget⟩ := h.answers c b n hm
      obtain ⟨rest, hrest⟩ := hinit
      exact ⟨hn, hrest ▸ getElem?_sent hget⟩
    · cases r with
      | batch body next =>
          cases List.mem_singleton.mp hm
          obtain ⟨hn, hget⟩ := hpolls.batch hans
          refine ⟨hn, ?_⟩
          rw [hsource.sent, List.getElem?_map, hget]
          rfl
      | _ => cases hm

/-- **The downlink of a tunnel is a stop-and-wait link.** -/
theorem down_simulates (hmode : p.carrierMode = .https) :
    Simulates (Step p sha256) fun W L => Reachable p sha256 limits W ∧ DownRel p W L := by
  rintro W W' L ⟨hr, h⟩ hs
  suffices hgoal : ∃ L', Link.Steps L L' ∧ DownRel p W' L' by
    obtain ⟨L', hsteps, hL'⟩ := hgoal
    exact ⟨L', hsteps, hr.step hs, hL'⟩
  have hsound : Sound limits .https W.relay := hr.up.reachable.sound
  cases hs with
  | page hi hnext =>
      exact h.page hi (Page.Script.next_turn hmode (hr.serial hmode) hnext).2.down
  | request _ _ _ hstep =>
      exact ⟨L, .refl L, h.still (h.source.still hsound rfl hstep) rfl rfl rfl rfl rfl h.waiters⟩
  | commit _ hstep =>
      exact ⟨L, .refl L, h.still (h.source.still hsound rfl hstep) rfl rfl rfl rfl rfl h.waiters⟩
  | close _ hstep =>
      exact ⟨L, .refl L, h.still (h.source.still hsound rfl hstep) rfl rfl rfl rfl rfl h.waiters⟩
  | @poll text cursor r σ htext hcursor hstep =>
      obtain ⟨c, hc, he⟩ := h.given text htext
      have hcc : cursor = c := toString_inj ((canonicalUint_eq_some.mp hcursor).2.symm.trans he)
      have hans : Polls.Answers sha256 W.polls .session cursor r σ :=
        .arrive (c := .poll cursor) rfl hstep
      obtain ⟨L', hsteps, hL'⟩ :=
        @DownRel.poll _ _ _ _ L h hr _ _ _ _ [] hans (hcc ▸ hc) fun w hw => by
          rwa [List.append_nil] at hw
      rw [List.append_nil] at hL'
      exact ⟨L', hsteps, hL'⟩
  | @wake l₁ l₂ w wake hw hblocked hready hother =>
      refine ⟨L, .refl L, h.still h.source rfl rfl rfl rfl rfl fun u hu => ?_⟩
      rcases Polls.mem_split.mp hu with rfl | hu
      · exact h.waiters w (by rw [hw]; simp)
      · exact h.waiters u (by rw [hw]; exact Polls.mem_split.mpr (.inr hu))
  | @token l₁ l₂ w r σ hw hblocked hready hstep =>
      refine ⟨L, .refl L,
        h.still (h.source.still hsound rfl hstep) rfl rfl rfl rfl rfl fun u hu => ?_⟩
      rcases Polls.mem_split.mp hu with rfl | hu
      · exact h.waiters w (by rw [hw]; simp)
      · exact h.waiters u (by rw [hw]; exact Polls.mem_split.mpr (.inr hu))
  | @resume l₁ l₂ w wake r σ hw hwake hstep =>
      obtain ⟨hq, hgiven⟩ := h.waiters w (by rw [hw]; simp)
      have hans : Polls.Answers sha256 W.polls .session w.cursor r σ :=
        .resume hw hq rfl hwake hstep
      rw [hq]
      refine h.poll hr hans hgiven fun u hu => ?_
      rw [hw]
      exact Polls.mem_split.mpr (.inr hu)
  | @other c r σ _ hpolling hstep =>
      refine ⟨L, .refl L, h.still (h.source.still hsound ?_ hstep) rfl rfl rfl rfl rfl h.waiters⟩
      cases c <;> first | rfl | cases hpolling

/-! ### From end to end -/

theorem Reachable.run (h : Reachable p sha256 limits W) :
    Relation.ReflTransGen (Step p sha256) (.start limits) W := by
  induction h with
  | start => exact .refl
  | step _ hs ih => exact ih.tail hs

theorem UpRel.start : UpRel (.start limits) {} where
  sender := ⟨rfl, rfl, fun b hb => (by cases hb), fun _ _ => rfl⟩
  taken := rfl
  given n b a hm := by cases hm
  calls k n b hk := by cases hk

theorem DownRel.start : DownRel p (.start limits) {} where
  source := ⟨rfl, fun _ _ => rfl, fun _ hne => absurd rfl hne⟩
  sink := ⟨show "0" = toString 0 by decide, fun _ => ⟨rfl, rfl, rfl⟩, [], .inl ⟨rfl, rfl⟩,
    fun hp => absurd hp Bool.false_ne_true, rfl⟩
  taken := rfl
  given text hm := by cases hm
  waiters w hw := by cases hw
  answers c b n hm := by cases hm

/-- What has come through a tunnel. -/
structure EndToEnd (p : Page.Params) (limits : Limits) (W : Tunnel) : Prop where
  /-- The bodies that the page sent are applied once each, in order and frame by frame, but for
  the newest, which may be under way; unless an application was cut short. -/
  up : W.Whole → appliedBodies W.relay.trace <+: W.page.sent.map Prod.snd ∧
    Serial limits (appliedBodies W.relay.trace) (uplinkEvents W.relay.trace)
  /-- What the page knows to be acknowledged is applied, and it sends one body at a time. -/
  window : W.Whole → W.page.upSequence ≤ (appliedBodies W.relay.trace).length + 1 ∧
    W.page.sent.length ≤ W.page.upSequence
  settled : W.Whole → W.page.upBatch = none → W.page.closed = false →
    appliedBodies W.relay.trace = W.page.sent.map Prod.snd
  /-- The app is posted the answer to the request for a session and then the bodies that were
  delivered, once each and in order, but for the newest, which may be under way; each body is some
  of the frames that were queued. -/
  down : ∃ first taken : List Bytes, First W.welcomes taken first ∧
    W.page.posted = (first ++ taken).flatMap p.chunks ∧
    taken <+: (deliveries W.relay.trace .session).map Prod.snd ∧
    (deliveries W.relay.trace .session).length ≤ taken.length + 1 ∧
    ∃ (batches : List (List Frame)) (rest : List Frame), taken = batches.map encodeAll ∧
      Says (batches.flatten ++ rest) (queuedOn W.relay.trace .session)

/-- Each body of a prefix of what was delivered is some of the frames that were queued. -/
theorem batches_of_prefix {t : List Event} {q : QueueRef} {rest : List Frame} {taken : List Bytes}
    (h : Ledger t q rest) (hinit : taken <+: (deliveries t q).map Prod.snd) :
    ∃ (batches : List (List Frame)) (rest' : List Frame), taken = batches.map encodeAll ∧
      Says (batches.flatten ++ rest') (queuedOn t q) := by
  obtain ⟨batches, hbatches, htells⟩ := h
  refine ⟨batches.take taken.length, (batches.drop taken.length).flatten ++ rest, ?_, ?_⟩
  · rw [List.map_take, ← hbatches]
    exact List.prefix_iff_eq_take.mp hinit
  · rw [← List.append_assoc, ← List.flatten_append, List.take_append_drop]
    exact htells

/-- **A tunnel carries everything once and in order**, in both directions, whatever the network
loses, repeats, delays or reorders. -/
theorem end_to_end (hmode : p.carrierMode = .https) (h : Reachable p sha256 limits W) :
    W.EndToEnd p limits := by
  obtain ⟨U, ⟨-, hup⟩, hU⟩ := (@up_simulates limits sha256 p hmode).inStep
    ⟨.start, fun _ => .start⟩ Link.InStep.start h.run
  obtain ⟨D, ⟨-, hdown⟩, hD⟩ := (@down_simulates limits sha256 p hmode).inStep
    ⟨.start, .start⟩ Link.InStep.start h.run
  refine ⟨fun hwhole => ⟨?_, ?_⟩, fun hwhole => ⟨?_, ?_⟩, fun hwhole hbatch hopen => ?_, ?_⟩
  · rw [← (hup hwhole).taken, ← (hup hwhole).sender.sent]
    exact hU.taken_prefix
  · exact (h.up.ordered (.inl rfl)).2.serial hwhole.abandonments
  · rw [← (hup hwhole).taken, ← (hup hwhole).sender.heard]
    have hle := hU.heard_le
    omega
  · have hle := hU.sent_le
    rw [(hup hwhole).sender.sent, List.length_map, (hup hwhole).sender.heard] at hle
    exact hle
  · rw [← (hup hwhole).taken, ← (hup hwhole).sender.sent]
    exact hU.whole ((hup hwhole).sender.idle hbatch hopen)
  · obtain ⟨first, hfirst, -, hposted⟩ := hdown.sink.posted
    have hinit : W.taken <+: (deliveries W.relay.trace .session).map Prod.snd := by
      rw [← hdown.taken, ← hdown.source.sent]
      exact hD.taken_prefix
    obtain ⟨rest, hledger, -⟩ := (h.polls.state.carried .session).ledger
    refine ⟨first, W.taken, hfirst, hposted, hinit, ?_, batches_of_prefix hledger hinit⟩
    have hsent := hD.sent_le
    have hheard := hD.heard_le
    rw [hdown.source.sent, List.length_map] at hsent
    rw [hdown.taken] at hheard
    omega

/-! ### A run -/

/-- A page that polls has asked with its cursor. -/
theorem Reachable.asks (h : Reachable p sha256 limits W) (hpolling : W.page.polling = true) :
    W.page.downCursor ∈ W.asked := by
  induction h with
  | start => cases hpolling
  | step _ hs ih =>
      cases hs with
      | page =>
          unfold turn at hpolling ⊢
          dsimp only at hpolling ⊢
          rw [if_pos hpolling]
          simp
      | _ => exact ih hpolling

/-- Inputs of the page that need no answer of the relay. -/
theorem Reachable.inputs {inputs : List Page.Input} {s : Page.Script}
    (h : Reachable p sha256 limits W) (hoffers : ∀ i ∈ inputs, ∀ W : Tunnel, W.Offers i)
    (hrun : W.page.run p inputs = some s) :
    ∃ W', Reachable p sha256 limits W' ∧ W'.page = s ∧ W'.relay = W.relay ∧
      W'.calls = W.calls ∧ W'.waiting = W.waiting := by
  induction inputs generalizing W with
  | nil =>
      cases hrun
      exact ⟨W, h, rfl, rfl, rfl, rfl⟩
  | cons i rest ih =>
      obtain ⟨s₁, hnext, hrest⟩ := Option.bind_eq_some_iff.mp hrun
      exact ih (W := W.turn i s₁) (h.step (.page (hoffers i (by simp) W) hnext))
        (fun j hj => hoffers j (by simp [hj])) hrest

/-- A stream is opened, its backend sends a byte, and the app is posted it. -/
theorem end_to_end_byte : ∃ W, Reachable { carrierMode := .https, batchLimit := 16 } id
    defaultLimits W ∧ appliedBodies W.relay.trace = [encode .open 1 []] ∧
      W.page.posted = [encode .welcome 0 [], encode .data 1 [7]] ∧
      W.EndToEnd { carrierMode := .https, batchLimit := 16 } defaultLimits := by
  have hpage : ((Page.Script.run { carrierMode := .https, batchLimit := 16 } {} [.message [0],
      .sessionAnswered (some ⟨200, "https", "t", "0"⟩), .welcomed (some (encode .welcome 0 [])),
      .message (encode .open 1 [])]).bind fun s =>
      (s.next { carrierMode := .https, batchLimit := 16 }
        (.polled (some ⟨200, false, "1", some (encode .data 1 [7])⟩))).map fun s' =>
        (s.sent, s.polling, s.downCursor, s'.posted)) =
      some ([(none, encode .open 1 [])], true, "0",
        [encode .welcome 0 [], encode .data 1 [7]]) := by
    decide +kernel
  have hplay : ((attempt id ⟨newSession defaultLimits .https, []⟩
        (.processUpBegin 1 (encode .open 1 [])) []).bind fun p₁ =>
      (attempt id p₁.2 (.processUpCommit 1 (encode .open 1 [])) [true]).bind fun p₂ =>
      (attempt id p₂.2 (.backendData 1 [7]) [true]).bind fun p₃ =>
      (attempt id p₃.2 (.poll 0) []).map fun p₄ =>
        (p₁.1, p₂.1, p₄.1, appliedBodies p₄.2.trace)) =
      some (.up .parsing, .up (.acked 1), .poll (.batch (encode .data 1 [7]) 1),
        [encode .open 1 []]) := by
    decide +kernel
  obtain ⟨s, hs, hpage⟩ := Option.bind_eq_some_iff.mp hpage
  obtain ⟨s', hs', he⟩ := Option.map_eq_some_iff.mp hpage
  simp only [Prod.mk.injEq] at he
  obtain ⟨hsent, hpolling, hcursor, hposted⟩ := he
  obtain ⟨⟨r₁, σ₁⟩, h₁, hplay⟩ := Option.bind_eq_some_iff.mp hplay
  obtain ⟨⟨r₂, σ₂⟩, h₂, hplay⟩ := Option.bind_eq_some_iff.mp hplay
  obtain ⟨⟨r₃, σ₃⟩, h₃, hplay⟩ := Option.bind_eq_some_iff.mp hplay
  obtain ⟨⟨r₄, σ₄⟩, h₄, he⟩ := Option.map_eq_some_iff.mp hplay
  simp only [Prod.mk.injEq] at he
  obtain ⟨rfl, rfl, rfl, hbodies⟩ := he
  obtain ⟨W, hW, rfl, hrelay, hcalls, -⟩ :=
    (Reachable.start (p := { carrierMode := .https, batchLimit := 16 })).inputs (fun i hi W => by
      simp only [List.mem_cons, List.not_mem_nil, or_false] at hi
      rcases hi with rfl | rfl | rfl | rfl
      · trivial
      · exact fun _ => rfl
      · trivial
      · trivial) hs
  have hasked := hW.asks hpolling
  rw [hcursor] at hasked
  have hfirst : canonicalUint (toString (0 + 1)) = some 1 := by decide +kernel
  have hW₁ := hW.step (.request (k := 0) (n := 0) (by rw [hcalls]; rfl) (by rw [hsent]; rfl)
    hfirst (.attempt (by rw [hrelay]; exact h₁)))
  have hW₂ := hW₁.step (.commit (k := 0) rfl (.attempt h₂))
  have hW₃ := hW₂.step (.other rfl rfl (.attempt h₃))
  have hzero : canonicalUint "0" = some 0 := by decide +kernel
  have hW₄ := hW₃.step (.poll hasked hzero (.attempt h₄))
  have hW₅ := hW₄.step (.page (i := .polled (some ⟨200, false, "1", some (encode .data 1 [7])⟩))
    (by
      rintro - data ⟨⟩
      exact ⟨0, 1, List.mem_append_right _ (List.mem_singleton.mpr rfl), by rw [hcursor]; decide,
        by decide⟩) hs')
  exact ⟨_, hW₅, hbodies, hposted, end_to_end rfl hW₅⟩

end Tunnel

end TproxyServer
