import TproxyServer.Tunnel
import TproxyServer.UplinkOrder

/-! # The messages of the app, from end to end

The two halves of the uplink of a tunnel over HTTPS put together: the page sends bodies in the order
of the messages of the app, and the relay applies the bodies in the order in which they are sent.
What the relay has applied is then the beginning of what the app has sent, each byte once. -/

namespace TproxyServer

open Interaction Prog StopAndWait

variable {limits : Limits} {sha256 : Bytes → Bytes} {p : Page.Params}

namespace Tunnel

variable {W W' : Tunnel}

/-- The runs of a tunnel in which no message of the app overtakes others on the page. -/
inductive InTurn (p : Page.Params) (sha256 : Bytes → Bytes) (limits : Limits) : Tunnel → Prop
  | start : InTurn p sha256 limits (.start limits)
  | page {W : Tunnel} {i : Page.Input} {s : Page.Script} :
      InTurn p sha256 limits W → W.Offers i → Page.InTurn W.page i → W.page.next p i = some s →
      InTurn p sha256 limits (W.turn i s)
  | relay {W W' : Tunnel} :
      InTurn p sha256 limits W → Step p sha256 W W' → W'.page = W.page →
      InTurn p sha256 limits W'

theorem InTurn.reachable (h : InTurn p sha256 limits W) : Reachable p sha256 limits W := by
  induction h with
  | start => exact .start
  | page _ hoffers _ hnext ih => exact ih.step (.page hoffers hnext)
  | relay _ hstep _ ih => exact ih.step hstep

theorem InTurn.line (h : InTurn p sha256 limits W) : ∃ since, Page.Line p since W.page := by
  induction h with
  | start => exact ⟨_, .start⟩
  | page _ _ hturn hnext ih =>
      obtain ⟨since, hline⟩ := ih
      obtain ⟨since₁, hline₁, -⟩ := hline.step hturn hnext
      exact ⟨since₁, hline₁⟩
  | relay _ _ hpage ih =>
      rw [hpage]
      exact ih

/-- What the relay has applied, against what the app has sent. -/
structure AppCarried (W : Tunnel) : Prop where
  /-- Nothing is repeated, moved or left out. -/
  once : (appliedBodies W.relay.trace).flatten <+: W.page.arrived.flatten
  /-- As long as the page is open, the rest is in the body under way, queued or waiting. -/
  whole : W.page.closed = false → ∃ flying : List Bytes, flying.length ≤ 1 ∧
    (W.page.upBatch = none → flying = []) ∧
    (appliedBodies W.relay.trace ++ flying).flatten ++ W.page.upPending.flatten ++
      W.page.pending.flatten = W.page.arrived.flatten

/-- **The relay applies what the app sends once and in order**, whatever the network does. -/
theorem app_order (hmode : p.carrierMode = .https) (h : InTurn p sha256 limits W)
    (hwhole : W.Whole) : W.AppCarried := by
  obtain ⟨L, ⟨-, hup⟩, hL⟩ := (@up_simulates limits sha256 p hmode).inStep
    ⟨.start, fun _ => .start⟩ Link.InStep.start h.reachable.run
  have htaken := (hup hwhole).taken
  have hsent := (hup hwhole).sender.sent
  obtain ⟨since, hline⟩ := h.line
  have hshared : p.Shared := .inl hmode
  rcases hline with ⟨hclosed, hpast⟩ | ⟨hopen, given, harrived, -, hkeeping⟩
  · refine ⟨?_, fun hopen => absurd hclosed (by simp [hopen])⟩
    rw [← htaken]
    apply (Page.flatten_init hL.taken_prefix).trans
    rw [hsent]
    exact (hpast.queue hshared).1
  obtain ⟨⟨rest, hrest, hwait⟩, -, hnone⟩ := hkeeping.queue hshared
  -- What has been handed to the queue has gone up or is queued.
  have hall : L.sent.flatten ++ W.page.upPending.flatten ++ W.page.pending.flatten =
      W.page.arrived.flatten := by
    rw [harrived, List.flatten_append, ← hrest, hwait hopen, Page.sentBy_none hnone, hsent]
    rfl
  refine ⟨?_, fun _ => ?_⟩
  · rw [← htaken, ← hall, List.append_assoc]
    exact (Page.flatten_init hL.taken_prefix).trans (List.prefix_append _ _)
  · rw [← htaken]
    rcases hL.taken_or_newest with hsame | ⟨b, hnewest⟩
    · refine ⟨[], by simp, fun _ => rfl, ?_⟩
      rw [List.append_nil, ← hsame]
      exact hall
    · refine ⟨[b], by simp, fun hidle => ?_, ?_⟩
      · have hsame := hL.whole ((hup hwhole).sender.idle hidle hopen)
        rw [hsame] at hnewest
        simp at hnewest
      · rw [← hnewest]
        exact hall

theorem InTurn.inputs {inputs : List Page.Input} {t t' : Page.Trail}
    (h : InTurn p sha256 limits W) (hpage : t.script = W.page)
    (hoffers : ∀ i ∈ inputs, ∀ W : Tunnel, W.Offers i)
    (hrun : t.run p Page.InTurn inputs = some t') :
    ∃ W', InTurn p sha256 limits W' ∧ W'.page = t'.script ∧ W'.relay = W.relay ∧
      W'.calls = W.calls := by
  induction inputs generalizing W t with
  | nil =>
      cases hrun
      exact ⟨W, h, hpage.symm, rfl, rfl⟩
  | cons i rest ih =>
      unfold Page.Trail.run at hrun
      split_ifs at hrun with hturn
      obtain ⟨s, hnext, hrest⟩ := Option.bind_eq_some_iff.mp hrun
      rw [hpage] at hturn hnext
      exact ih (W := W.turn i s) (t := t.next s) (h.page (hoffers i (by simp) W) hturn hnext) rfl
        (fun j hj => hoffers j (by simp [hj])) hrest

/-- The app opens a stream before the page has a session, and the relay applies it. -/
theorem app_order_open : ∃ W, InTurn { carrierMode := .https, batchLimit := 16 } id
    defaultLimits W ∧ appliedBodies W.relay.trace = [encode .open 1 []] ∧
      W.page.arrived = [encode .open 1 []] ∧ W.AppCarried := by
  have hpage : (Page.Trail.run { carrierMode := .https, batchLimit := 16 } Page.InTurn {}
      [.message [0], .message (encode .open 1 []),
        .sessionAnswered (some ⟨200, "https", "t", "0"⟩), .welcomed (some [9])]).map
      (fun t => (t.script.sent, t.script.arrived)) =
      some ([(none, encode .open 1 [])], [encode .open 1 []]) := by
    decide +kernel
  have hplay : ((attempt id ⟨newSession defaultLimits .https, []⟩
        (.processUpBegin 1 (encode .open 1 [])) []).bind fun p₁ =>
      (attempt id p₁.2 (.processUpCommit 1 (encode .open 1 [])) [true]).map fun p₂ =>
        (p₁.1, p₂.1, p₂.2.trace)) =
      some (.up .parsing, .up (.acked 1),
        [.applying none 1 (encode .open 1 []), .opened 1 0, .cancelled []]) := by
    decide +kernel
  obtain ⟨t, ht, he⟩ := Option.map_eq_some_iff.mp hpage
  obtain ⟨hsent, harrived⟩ := by simpa only [Prod.mk.injEq] using he
  obtain ⟨⟨r₁, σ₁⟩, h₁, hplay⟩ := Option.bind_eq_some_iff.mp hplay
  obtain ⟨⟨r₂, σ₂⟩, h₂, he⟩ := Option.map_eq_some_iff.mp hplay
  simp only [Prod.mk.injEq] at he
  obtain ⟨rfl, rfl, htrace⟩ := he
  obtain ⟨W, hW, hscript, hrelay, hcalls⟩ :=
    (InTurn.start (p := { carrierMode := .https, batchLimit := 16 })).inputs rfl
      (fun i hi W => by
        simp only [List.mem_cons, List.not_mem_nil, or_false] at hi
        rcases hi with rfl | rfl | rfl | rfl
        · trivial
        · trivial
        · exact fun _ => rfl
        · trivial) ht
  have hfirst : canonicalUint (toString (0 + 1)) = some 1 := by decide +kernel
  have hW₁ := hW.relay (.request (k := 0) (n := 0) (by rw [hcalls]; rfl)
    (by rw [hscript, hsent]; rfl) hfirst (.attempt (by rw [hrelay]; exact h₁))) rfl
  have hW₂ := hW₁.relay (.commit (k := 0) rfl (.attempt h₂)) rfl
  refine ⟨_, hW₂, ?_, hscript ▸ harrived, app_order rfl hW₂ fun id hid => ?_⟩
  · dsimp only
    rw [htrace]
    rfl
  · dsimp only at hid
    rw [htrace] at hid
    simp at hid

end Tunnel

end TproxyServer
