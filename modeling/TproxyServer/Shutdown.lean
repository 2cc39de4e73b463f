import TproxyServer.TokenLife

/-! # What `Shutdown` leaves behind

A process with its pending budget, and calls of `Shutdown`: the first closes the sessions it
finds in the manager and waits for their backends, a further one waits for `cleanupLoop` only.
A session that has left the manager is not among them, though its backends may still run. -/

namespace TproxyServer

open Interaction Prog

variable {F : Type} {sha256 : Bytes → Bytes} {config : Config}

/-! ### The runs -/

def Slot.tenancy : Slot → Tenancy
  | .idle σ => .idle σ
  | .running t rest _ => .running t rest

/-- The two views of the process show the same sessions. -/
def SameSessions (W : Fleet F) (Q : Process) : Prop :=
  ∀ k, (W.sessions.get k).map Tenant.state = (Q.sessions.get k).map Slot.tenancy

/-- The backends of the sessions whose mutex nobody holds. -/
def Fleet.settled (W : Fleet F) : Finset ℕ :=
  W.backends.keys.toFinset.filter fun n =>
    ((W.backends.get n).bind fun b => W.sessions.get b.session).any fun x =>
      x.state.traced.isSome

/-- A process, and where the calls of `Shutdown` are. -/
structure Plant (F : Type) where
  life : Lifecycle F
  process : Process
  /-- The backends that `backendWG` was told of, at the end of the section that created them. -/
  added : Finset ℕ := ∅
  /-- The sessions that `Shutdown` has yet to close. -/
  todo : List ℕ := []
  /-- The sessions that `Shutdown` has yet to wait for. -/
  waiting : List ℕ := []
  /-- A call of `Shutdown` has returned. -/
  returned : Bool := false

/-- What happens in a step. -/
inductive Deed where
  | work
  /-- `Shutdown` locks the manager for the first time. -/
  | shutdown
  | closed
  | waited
  | returns
  /-- `Shutdown` finds the manager closed, and returns once `cleanupLoop` has ended. -/
  | again
deriving DecidableEq

namespace Plant

def fleet (P : Plant F) : Fleet F := P.life.fleet

def registry (P : Plant F) : Registry F := P.life.registry

/-- Lock the manager and close it. -/
def lock [Float64 F] (sha256 : Bytes → Bytes) (P : Plant F) : Plant F :=
  { P with
    life := { P.life with
      fleet := { P.life.fleet with run := P.life.fleet.run.after sha256 .shutdown } }
    todo := P.registry.sessions.entries.map (·.2.session)
    waiting := P.registry.sessions.entries.map (·.2.session) }

/-- `NewManager`. -/
def start [Float64 F] (config : Config) : Plant F where
  life := { fleet := newFleet config }
  process := { manager := {
    limits := config.limits.global config.valid
    sessions_pos := Config.toNatClampNeg_pos (Config.Limits.validate_positive config.valid _
      (by simp [Config.Limits.positive])) } }

section
variable [Float64 F] (sha256 : Bytes → Bytes)

inductive Step : Deed → Plant F → Plant F → Prop
  | work {P : Plant F} {L : Lifecycle F} {Q : Process} (h : Lifecycle.Step sha256 P.life L)
      (hq : Relation.ReflTransGen (Process.Step sha256) P.process Q)
      (hagree : SameSessions L.fleet Q)
      (hopen : L.registry.closed = P.registry.closed) :
      Step .work P { P with life := L, process := Q, added := P.added ∪ L.fleet.settled }
  | shutdown {P : Plant F} (hopen : P.registry.closed = false) :
      Step .shutdown P (P.lock sha256)
  /-- `Close` has left the session closed. -/
  | closed {P : Plant F} {k : ℕ} {p : Profile} {σ : Traced} (hk : k ∈ P.todo)
      (hidle : P.fleet.sessions.get k = some ⟨p, .idle σ⟩) (hclosed : σ.session.closed = true) :
      Step .closed P { P with todo := P.todo.erase k }
  /-- `wait` returns: no backend that the session has added is still running. -/
  | waited {P : Plant F} {k : ℕ} (htodo : P.todo = []) (hk : k ∈ P.waiting)
      (hdone : ∀ n ∈ P.added, ∀ b, P.fleet.backends.get n = some b → b.session ≠ k) :
      Step .waited P { P with waiting := P.waiting.erase k }
  | returns {P : Plant F} (hclosed : P.registry.closed = true) (htodo : P.todo = [])
      (hwaiting : P.waiting = []) : Step .returns P { P with returned := true }
  | again {P : Plant F} (hclosed : P.registry.closed = true) :
      Step .again P { P with returned := true }

/-- Any number of steps. -/
inductive Reachable (config : Config) : Plant F → Prop
  | start : Reachable config (start config)
  | step {P P' : Plant F} {d : Deed} :
      Reachable config P → Step sha256 d P P' → Reachable config P'

end

/-- What is asked of a step: where `Shutdown` locks the manager, every backend that runs belongs
to a session that is still there; and a further call of it finds no session left to close or to
wait for. -/
def Meets (P : Plant F) : Deed → Prop
  | .shutdown => ∀ n b, P.fleet.backends.get n = some b →
      ∃ hash l, P.registry.sessions.get hash = some l ∧ l.session = b.session
  | .again => P.todo = [] ∧ P.waiting = []
  | _ => True

variable [Float64 F] {P P' : Plant F}

/-- A step that meets it. -/
def OrderlyStep (sha256 : Bytes → Bytes) (P P' : Plant F) : Prop :=
  ∃ d, Step sha256 d P P' ∧ P.Meets d

/-- Any number of steps that meet it. -/
abbrev Orderly (sha256 : Bytes → Bytes) : Plant F → Plant F → Prop :=
  Relation.ReflTransGen (OrderlyStep sha256)

/-- Nothing is stranded. -/
structure Stopped (sha256 : Bytes → Bytes) (P : Plant F) : Prop where
  /-- No backend is executing. -/
  backends : ∀ n, P.fleet.backends.get n = none
  streams : P.fleet.counters.streamsLive = 0
  dials : P.fleet.counters.backendDialsInFlight = 0
  cost : P.process.manager.pendingGlobalCost = 0
  items : P.process.manager.pendingGlobalItems = 0
  /-- `Create` creates no session. -/
  create : ∀ token clientIP body now random,
    Registry.Op.creation sha256 P.registry (.create token clientIP body now random) = none
  /-- `acquireStream` admits no stream. -/
  acquireStream : ∀ p now,
    P.fleet.counters.acquireStream P.fleet.config P.registry.closed p now = none
  /-- No call on a session, and no call under way, applies any of a body. -/
  processUp : ∀ k p σ, P.fleet.sessions.get k = some ⟨p, .idle σ⟩ → ∀ (c : Section) es r,
    Runs (c.exec sha256 σ.session) es r → uplinkEvents es = []
  underWay : ∀ k p t rest, P.fleet.sessions.get k = some ⟨p, .running t rest⟩ → ∀ es r,
    Runs rest es r → uplinkEvents es = []

/-! ### A closed registry -/

end Plant

namespace Registry

variable [Float64 F] {r : Registry F}

theorem create_closed (hclosed : r.closed = true) (token clientIP : String) (body : Bytes)
    (now : ℤ) (random : Option Bytes) :
    (r.create sha256 token clientIP body now random).1.sessions = r.sessions ∧
      Op.creation sha256 r (.create token clientIP body now random) = none := by
  unfold Op.creation
  dsimp only
  rcases @create_cases F sha256 _ r token clientIP body now random with
    ⟨e, -, hits, heq⟩ | ⟨rate, rates, heq⟩ | ⟨result, heq⟩ |
    ⟨hash, entry, rate, rates, input, -, -, -, -, hlimit, -, -⟩
  · rw [heq]
    cases tokenHash sha256 token <;> exact ⟨rfl, rfl⟩
  · rw [heq]
    cases tokenHash sha256 token <;> exact ⟨rfl, rfl⟩
  · rw [heq]
    cases tokenHash sha256 token with
    | none => exact ⟨rfl, rfl⟩
    | some hash =>
        dsimp only
        rw [if_pos rfl]
        exact ⟨rfl, rfl⟩
  · exact absurd (.inl hclosed) hlimit

/-- A closed registry takes in no session. -/
theorem exec_closed (hclosed : r.closed = true) (op : Op) {hash : Bytes} {l : LiveSession}
    (hget : (op.exec sha256 r).sessions.get hash = some l) : r.sessions.get hash = some l := by
  cases op with
  | issueBootstrap profile clientIP now random order =>
      change (r.issueBootstrap sha256 profile clientIP now random order).1.sessions.get hash =
        some l at hget
      unfold Registry.issueBootstrap at hget
      cases hmatch : profile.bind fun p => r.matchCapability p.capability with
      | none =>
          rw [hmatch] at hget
          exact hget
      | some profile =>
          rw [hmatch] at hget
          cases random with
          | none => exact hget
          | some input =>
              dsimp only at hget
              rwa [(addBootstrap_tokens r profile clientIP now input order).1] at hget
  | create token clientIP body now random =>
      change (r.create sha256 token clientIP body now random).1.sessions.get hash = some l at hget
      rwa [(create_closed hclosed token clientIP body now random).1] at hget
  | hasBootstrap token now => exact hget
  | expire now =>
      change (r.removeExpiredBootstrapsLocked now).sessions.get hash = some l at hget
      rwa [(expire_forgets r now).sessions] at hget
  | sessionFinished value now order =>
      change (r.sessionFinished value now order).sessions.get hash = some l at hget
      unfold Registry.sessionFinished at hget
      cases hfind : r.sessions.entries.find? fun e => e.2.session = value with
      | none =>
          rw [hfind] at hget
          change (r.removeBootstraps _).sessions.get hash = some l at hget
          rwa [(removeBootstraps_forgets r _).sessions] at hget
      | some e =>
          rw [hfind] at hget
          change ((r.dropSession e.1 e.2 now order).removeBootstraps _).sessions.get hash =
            some l at hget
          rw [(removeBootstraps_forgets (r.dropSession e.1 e.2 now order) _).sessions] at hget
          change (r.sessions.del e.1).get hash = some l at hget
          rw [Table.get_del] at hget
          split_ifs at hget
          exact hget
  | shutdown => exact hget

end Registry

/-! ### A session that is shut -/

/-- The session is closed, and its section under way, if any, came too late. -/
def Tenancy.Shut : Tenancy → Prop
  | .idle σ => σ.session.closed = true
  | .running _ rest => Rests rest ∧ ∀ es s r, Runs rest es (.ok (s, r)) → s.closed = true

section
variable {limits : Limits} {carrier : CarrierMode} {σ : Traced} {t : List Event} {e : Event}
  {rest : Act (Session × Reply)}

theorem Tenancy.Shut.begin (h : (Tenancy.idle σ).Shut)
    (hr : Reachable sha256 limits carrier σ) {c : Section} (hc : c.Callable σ.session) :
    (Tenancy.running σ.trace (c.exec sha256 σ.session)).Shut := by
  refine ⟨Section.rests sha256 h (hr.sound.ended h) (hr.emptied h) c, ?_⟩
  intro es s r hrun
  have hs : TproxyServer.Step sha256 σ c r ⟨s, σ.trace ++ es⟩ := .run hc hrun
  exact Changes.closed_mono (hs.changes hr.sound) h

theorem Tenancy.Shut.note (h : (Tenancy.running t (.note e rest)).Shut) :
    (Tenancy.running (t ++ [e]) rest).Shut :=
  ⟨h.1.2, fun es s r hr => h.2 (e :: es) s r (.note hr)⟩

theorem Tenancy.Shut.not_asking {q : Query} {next : Bool → Act (Session × Reply)} :
    ¬ (Tenancy.running t (.ask q next)).Shut := fun h => h.1.1

theorem Tenancy.Shut.finish {s : Session} {r : Reply}
    (h : (Tenancy.running t (.done (s, r))).Shut) : (Tenancy.idle ⟨s, t⟩).Shut :=
  h.2 [] s r (.done _)

/-- A session that has finished is shut. -/
theorem Tenancy.Shut.of_finished {state : Tenancy} (hends : state.Ends)
    (hsound : state.Sound sha256 limits carrier) (hpos : 0 < finishings state.trace) :
    state.Shut := by
  cases state with
  | idle σ => exact Finishes.closed hends hpos
  | running t rest =>
      rcases hends with ⟨h0, -⟩ | ⟨-, hrest⟩
      · exact absurd hpos (by
          change ¬ 0 < finishings t
          omega)
      · refine ⟨hrest, fun es s r hr => ?_⟩
        apply (hsound.2 es s r hr).finishes.closed
        rw [finishings_append]
        exact Nat.add_pos_left hpos _

/-- A program that rests comes to an end with what it has been granted. -/
theorem Rests.settles {p : Act (Session × Reply)} (h : Rests p)
    {post : ℤ × ℤ → Session × Reply → Prop} {g : ℤ × ℤ} (hw : wp ledger p post g) :
    ∃ es a, Runs p es (.ok a) ∧ post g a := by
  induction p with
  | done a => exact ⟨[], a, .done a, hw⟩
  | ask q next ih => exact h.1.elim
  | note e p ih =>
      obtain ⟨es, a, hr, hp⟩ := ih h.2 hw
      exact ⟨e :: es, a, .note hr, hp⟩
  | panic w => exact h.elim

/-- A session that is shut is charged nothing. -/
theorem Slot.charge_shut {slot : Slot} (h : slot.Accounted sha256) (hshut : slot.tenancy.Shut) :
    slot.charge = 0 := by
  have hzero : ∀ s : Session, Balanced 0 s → s.held = 0 → s.pending = 0 := by
    rintro s ⟨hc, hi⟩ hheld
    rw [hheld] at hc hi
    have hc' : s.pendingCost = 0 := by simpa using hc
    have hi' : s.pendingItems = 0 := by simpa using hi
    unfold Session.pending
    rw [hc', hi']
    rfl
  cases slot with
  | idle σ =>
      obtain ⟨hb, limits, carrier, hr⟩ := h
      exact hzero _ hb (hr.emptied hshut)
  | running t rest g =>
      obtain ⟨-, hw, limits, carrier, hr⟩ := h
      obtain ⟨es, ⟨s, r⟩, hrun, hg, hb⟩ := Rests.settles hshut.1 hw
      rw [show (Slot.running t rest g).charge = g from rfl, hg]
      exact hzero s hb ((hr es s r hrun).emptied (hshut.2 es s r hrun))

end

/-! ### A step of a closed process -/

namespace Fleet

variable [Float64 F] {W W' : Fleet F}

/-- Once the manager is closed the sessions stay the same, and what is shut stays shut. -/
theorem Step.shut (hb : Books sha256 config W) (hclosed : W.registry.closed = true)
    (hsha : Registry.TellsTokensApart sha256)
    (hnames : (config.profiles.map Profile.name).Nodup) (h : Step sha256 W W') {k : ℕ}
    {x' : Tenant} (hx' : W'.sessions.get k = some x') :
    ∃ x, W.sessions.get k = some x ∧ (x.state.Shut → x'.state.Shut) := by
  have hset : ∀ (V : Fleet F) (i : ℕ) (p : Profile) (state state' : Tenancy),
      V.sessions = W.sessions → W.sessions.get i = some ⟨p, state⟩ →
      (state.Shut → state'.Shut) → (V.set i p state').sessions.get k = some x' →
      ∃ x, W.sessions.get k = some x ∧ (x.state.Shut → x'.state.Shut) := by
    intro V i p state state' hV hget hshut hx'
    change (V.sessions.put i ⟨p, state'⟩).get k = some x' at hx'
    rw [hV, Table.get_put] at hx'
    split_ifs at hx' with hk
    · cases hx'
      rw [hk]
      exact ⟨_, hget, hshut⟩
    · exact ⟨x', hx', id⟩
  cases h with
  | manage => exact ⟨x', hx', id⟩
  | @create op hash live _ hlive hnew =>
      have hold : W.run.registry.sessions.get hash = some live :=
        Registry.exec_closed hclosed op hlive
      have hlt := ((hb.registry.within hsha hnames).held hash live hold).2
      rw [hnew] at hlt
      exact absurd hlt (Nat.lt_irrefl _)
  | begin hget c hc =>
      exact hset W _ _ _ _ rfl hget (fun hs => hs.begin (hb.tenants _ _ hget).2 hc) hx'
  | note hget _ => exact hset W _ _ _ _ rfl hget (fun hs => hs.note) hx'
  | budget hget _ => exact hset W _ _ _ _ rfl hget (fun hs => hs.not_asking.elim) hx'
  | acquire hget _ _ _ =>
      exact hset _ _ _ _ _ rfl hget (fun hs => hs.not_asking.elim) hx'
  | reject hget _ => exact hset W _ _ _ _ rfl hget (fun hs => hs.not_asking.elim) hx'
  | finish hget => exact hset W _ _ _ _ rfl hget (fun hs => hs.finish) hx'
  | start => exact ⟨x', hx', id⟩
  | dialFinished => exact ⟨x', hx', id⟩
  | streamFinished => exact ⟨x', hx', id⟩

/-- Once the manager is closed no backend is added. -/
theorem Step.backends (hclosed : W.registry.closed = true) (h : Step sha256 W W') {n : ℕ}
    {b' : Backend} (hb' : W'.backends.get n = some b') :
    ∃ b, W.backends.get n = some b ∧ b.session = b'.session := by
  have hput : ∀ (i : ℕ) (b c : Backend), W.backends.get i = some b → c.session = b.session →
      (W.backends.put i c).get n = some b' →
      ∃ b, W.backends.get n = some b ∧ b.session = b'.session := by
    intro i b c hget hsame hb'
    rw [Table.get_put] at hb'
    split_ifs at hb' with hk
    · cases hb'
      rw [hk]
      exact ⟨b, hget, hsame.symm⟩
    · exact ⟨b', hb', rfl⟩
  cases h with
  | acquire _ hm _ _ =>
      unfold StreamCounters.acquireStream at hm
      rw [if_pos (.inl hclosed)] at hm
      cases hm
  | start hget _ _ => exact hput _ _ ⟨_, _, .dialling⟩ hget rfl hb'
  | dialFinished hget _ => exact hput _ _ ⟨_, _, .dialled⟩ hget rfl hb'
  | @streamFinished i k p m hget hm =>
      change (W.backends.del i).get n = some b' at hb'
      rw [Table.get_del] at hb'
      split_ifs at hb'
      exact ⟨b', hb', rfl⟩
  | _ => exact ⟨b', hb', rfl⟩

end Fleet

namespace Lifecycle

variable [Float64 F] {L L' : Lifecycle F}

/-- A step of the tokens is one of the process, or none. -/
theorem Step.fleet (h : Step sha256 L L') :
    L'.fleet = L.fleet ∨ Fleet.Step sha256 L.fleet L'.fleet := by
  cases h with
  | work h _ => exact .inr h
  | closeToken => exact .inl rfl
  | closeReturns => exact .inl rfl
  | closeAgain => exact .inl rfl
  | @sessionFinished k x now order hx hstarted _ =>
      refine .inr (Fleet.Step.manage ?_ rfl ?_)
      · intro y hy
        cases hy
      · rintro k' now' order' ⟨⟩
        exact ⟨x, hx, finished_of_count hstarted⟩

/-- The sessions of the process were created. -/
theorem Reachable.created (hsha : Registry.TellsTokensApart sha256)
    (hnames : (config.profiles.map Profile.name).Nodup) (h : Reachable sha256 config L) :
    ∀ k x, L.fleet.sessions.get k = some x →
      ∃ c ∈ L.fleet.run.creations, c.result.session = k := by
  induction h with
  | start =>
      intro k x hx
      cases hx
  | @step L L' hr hs ih =>
      intro k x hx
      have hmore : ∀ c ∈ L.fleet.run.creations, c ∈ L'.fleet.run.creations := by
        intro c hc
        rcases hs.effect with ⟨hrun, -⟩ | ⟨op, -, hrun, -⟩
        · rwa [hrun]
        · rw [hrun]
          exact List.mem_append_left _ hc
      have hinv := (hr.step hs).inv hsha hnames
      have hold : ∀ x', L.fleet.sessions.get k = some x' →
          ∃ c ∈ L'.fleet.run.creations, c.result.session = k := by
        intro x' hx'
        obtain ⟨c, hc, hk⟩ := ih k x' hx'
        exact ⟨c, hmore c hc, hk⟩
      have hset : ∀ (V : Fleet F) (i : ℕ) (p : Profile) (state state' : Tenancy),
          V.sessions = L.fleet.sessions → L.fleet.sessions.get i = some ⟨p, state⟩ →
          (V.set i p state').sessions.get k = some x → ∃ x', L.fleet.sessions.get k = some x' := by
        intro V i p state state' hV hget hx
        change (V.sessions.put i ⟨p, state'⟩).get k = some x at hx
        rw [hV, Table.get_put] at hx
        split_ifs at hx with hk
        · rw [hk]
          exact ⟨_, hget⟩
        · exact ⟨x, hx⟩
      rcases hs.fleet with heq | hstep
      · exact hold x (heq ▸ hx)
      have hgiven : ∀ hash live, L'.fleet.registry.sessions.get hash = some live →
          ∃ c ∈ L'.fleet.run.creations, c.result.session = live.session := by
        intro hash live hget
        obtain ⟨⟨c, hc, -, hk⟩, -⟩ := hinv.given hash live hget
        exact ⟨c, hc, hk⟩
      generalize L'.fleet = W at hstep hx hold hgiven
      have hsame : (∃ x', L.fleet.sessions.get k = some x') →
          ∃ c ∈ W.run.creations, c.result.session = k := fun hx => hx.elim hold
      cases hstep with
      | @create op hash live _ hlive _ =>
          change (L.fleet.sessions.put live.session _).get k = some x at hx
          rw [Table.get_put] at hx
          split_ifs at hx with hk
          · rw [hk]
            exact hgiven hash live hlive
          · exact hold x hx
      | begin hget _ _ => exact hsame (hset L.fleet _ _ _ _ rfl hget hx)
      | note hget _ => exact hsame (hset L.fleet _ _ _ _ rfl hget hx)
      | budget hget _ => exact hsame (hset L.fleet _ _ _ _ rfl hget hx)
      | acquire hget _ _ _ => exact hsame (hset _ _ _ _ _ rfl hget hx)
      | reject hget _ => exact hsame (hset L.fleet _ _ _ _ rfl hget hx)
      | finish hget => exact hsame (hset L.fleet _ _ _ _ rfl hget hx)
      | _ => exact hold x hx

end Lifecycle

namespace Plant

variable [Float64 F] {P P' : Plant F}

/-! ### The invariant -/

/-- What holds in every orderly state. -/
structure Inv (sha256 : Bytes → Bytes) (config : Config) (P : Plant F) : Prop where
  life : Lifecycle.Reachable sha256 config P.life
  process : Process.Reachable sha256 (config.limits.global config.valid) P.process
  same : SameSessions P.fleet P.process
  /-- A section that has ended has added its backends. -/
  added : ∀ n b, P.fleet.backends.get n = some b → ∀ p σ,
    P.fleet.sessions.get b.session = some ⟨p, .idle σ⟩ → n ∈ P.added
  /-- `Shutdown` has closed what is not left to do. -/
  shut : P.registry.closed = true → ∀ k x, P.fleet.sessions.get k = some x →
    k ∈ P.todo ∨ x.state.Shut
  /-- The backends that run are those that it waits for. -/
  waiting : P.registry.closed = true → ∀ n b, P.fleet.backends.get n = some b →
    b.session ∈ P.waiting ∧ (b.session ∉ P.todo → n ∈ P.added)
  returned : P.returned = true → P.registry.closed = true ∧ P.todo = [] ∧ P.waiting = []

omit [Float64 F] in
theorem mem_settled {W : Fleet F} {n : ℕ} {b : Backend} {p : Profile} {σ : Traced}
    (hb : W.backends.get n = some b) (hidle : W.sessions.get b.session = some ⟨p, .idle σ⟩) :
    n ∈ W.settled := by
  unfold Fleet.settled
  rw [Finset.mem_filter, List.mem_toFinset, Table.mem_keys_iff]
  refine ⟨by simp [hb], ?_⟩
  simp [hb, hidle, Tenancy.traced]

theorem Inv.start (config : Config) : Inv sha256 config (start (F := F) config) where
  life := .start
  process := .start _
  same := fun _ => rfl
  added := by
    intro n b hb
    cases hb
  shut := by
    intro _ k x hx
    cases hx
  waiting := by
    intro _ n b hb
    cases hb
  returned := by
    intro h
    cases h

section
variable (hsha : Registry.TellsTokensApart sha256)
  (hnames : (config.profiles.map Profile.name).Nodup)
include hsha hnames

/-- What the sessions and the backends of a closed process do. -/
theorem Inv.work (h : P.Inv sha256 config) {L : Lifecycle F} {Q : Process}
    (hs : Lifecycle.Step sha256 P.life L)
    (hq : Relation.ReflTransGen (Process.Step sha256) P.process Q)
    (hsame : SameSessions L.fleet Q) (hopen : L.registry.closed = P.registry.closed) :
    Inv sha256 config { P with
      life := L, process := Q, added := P.added ∪ L.fleet.settled } := by
  have hb := h.life.fleet.books hsha hnames
  have hshut : P.registry.closed = true → ∀ k x', L.fleet.sessions.get k = some x' →
      ∃ x, P.fleet.sessions.get k = some x ∧ (x.state.Shut → x'.state.Shut) := by
    intro hclosed k x' hx'
    rcases hs.fleet with heq | hstep
    · rw [heq] at hx'
      exact ⟨x', hx', id⟩
    · exact hstep.shut hb hclosed hsha hnames hx'
  have hbackends : P.registry.closed = true → ∀ n b', L.fleet.backends.get n = some b' →
      ∃ b, P.fleet.backends.get n = some b ∧ b.session = b'.session := by
    intro hclosed n b' hb'
    rcases hs.fleet with heq | hstep
    · rw [heq] at hb'
      exact ⟨b', hb', rfl⟩
    · exact hstep.backends hclosed hb'
  refine ⟨h.life.step hs, ?_, hsame, ?_, ?_, ?_, ?_⟩
  · show Process.Reachable sha256 _ Q
    have hp := h.process
    clear hsame
    induction hq with
    | refl => exact hp
    | tail _ hlast ih => exact ih.step hlast
  · intro n b hget p σ hidle
    exact Finset.mem_union_right _ (mem_settled hget hidle)
  · intro hclosed k x' hx'
    obtain ⟨x, hx, hkeep⟩ := hshut (hopen ▸ hclosed) k x' hx'
    exact (h.shut (hopen ▸ hclosed) k x hx).imp_right hkeep
  · intro hclosed n b' hb'
    obtain ⟨b, hget, hsession⟩ := hbackends (hopen ▸ hclosed) n b' hb'
    obtain ⟨hwait, hadded⟩ := h.waiting (hopen ▸ hclosed) n b hget
    rw [hsession] at hwait hadded
    exact ⟨hwait, fun ht => Finset.mem_union_left _ (hadded ht)⟩
  · intro hret
    obtain ⟨hclosed, ht, hw⟩ := h.returned hret
    exact ⟨hopen.trans hclosed, ht, hw⟩

/-- `Shutdown` locks the manager, where no backend has lost its session. -/
theorem Inv.lock (h : P.Inv sha256 config) (hopen : P.registry.closed = false)
    (hmeets : P.Meets .shutdown) : Inv sha256 config (P.lock sha256) := by
  have hb := h.life.fleet.books hsha hnames
  have hinv := h.life.inv hsha hnames
  have hends := h.life.fleet.ends hsha hnames
  have hstep : Lifecycle.Step sha256 P.life (P.lock sha256).life := by
    refine .work (.manage ?_ rfl ?_) rfl
    · intro x hx
      cases hx
    · intro k now order hop
      cases hop
  have hlisted : ∀ hash l, P.registry.sessions.get hash = some l →
      l.session ∈ P.registry.sessions.entries.map (·.2.session) := by
    intro hash l hget
    have hmem : (⟨hash, l⟩ : Sigma fun _ : Bytes => LiveSession) ∈ P.registry.sessions.entries :=
      List.of_mem_dlookup hget
    exact List.mem_map.mpr ⟨_, hmem, rfl⟩
  refine ⟨h.life.step hstep, h.process, h.same, h.added, ?_, ?_, ?_⟩
  · intro _ k x hx
    obtain ⟨c, hc, rfl⟩ := h.life.created hsha hnames k x hx
    by_cases hran : c.result.session ∈ P.life.ran
    · right
      obtain ⟨x', hx', hpos⟩ := hinv.finished _ hran
      have hsame : x' = x := Option.some.inj (hx'.symm.trans hx)
      rw [hsame] at hpos
      exact .of_finished (hends _ x hx) (hb.tenants _ _ hx).2 hpos
    · left
      obtain ⟨hash, l, -, hget, hl⟩ := hinv.live c hc hran
      rw [← hl]
      exact hlisted hash l hget
  · intro _ n b hget
    obtain ⟨hash, l, hget', hl⟩ := hmeets n b hget
    have hmem := hlisted hash l hget'
    rw [hl] at hmem
    exact ⟨hmem, fun ht => absurd hmem ht⟩
  · intro hret
    have hclosed := (h.returned hret).1
    rw [hopen] at hclosed
    cases hclosed

/-- One orderly step keeps the invariant. -/
theorem Inv.step (h : P.Inv sha256 config) (hs : OrderlyStep sha256 P P') :
    P'.Inv sha256 config := by
  obtain ⟨d, hs, hmeets⟩ := hs
  cases hs with
  | work hs hq hsame hopen => exact h.work hsha hnames hs hq hsame hopen
  | shutdown hopen => exact h.lock hsha hnames hopen hmeets
  | @closed _ k p σ hk hidle hclosed =>
      refine ⟨h.life, h.process, h.same, h.added, ?_, ?_, ?_⟩
      · intro hc j x hx
        by_cases hj : j = k
        · subst hj
          have hsame : x = ⟨p, .idle σ⟩ := Option.some.inj (hx.symm.trans hidle)
          rw [hsame]
          exact .inr hclosed
        · exact (h.shut hc j x hx).imp_left (List.mem_erase_of_ne hj).mpr
      · intro hc n b hget
        obtain ⟨hwait, hadded⟩ := h.waiting hc n b hget
        refine ⟨hwait, fun ht => ?_⟩
        by_cases hj : b.session = k
        · exact h.added n b hget p σ (hj ▸ hidle)
        · exact hadded fun hmem => ht ((List.mem_erase_of_ne hj).mpr hmem)
      · intro hret
        obtain ⟨hc, ht, hw⟩ := h.returned hret
        rw [ht] at hk
        cases hk
  | @waited _ k htodo hk hdone =>
      refine ⟨h.life, h.process, h.same, h.added, h.shut, ?_, ?_⟩
      · intro hc n b hget
        obtain ⟨hwait, hadded⟩ := h.waiting hc n b hget
        have hne : b.session ≠ k := hdone n (hadded (by simp [htodo])) b hget
        exact ⟨(List.mem_erase_of_ne hne).mpr hwait, hadded⟩
      · intro hret
        obtain ⟨hc, ht, hw⟩ := h.returned hret
        rw [hw] at hk
        cases hk
  | returns hclosed htodo hwaiting =>
      exact ⟨h.life, h.process, h.same, h.added, h.shut, h.waiting, fun _ =>
        ⟨hclosed, htodo, hwaiting⟩⟩
  | again hclosed =>
      exact ⟨h.life, h.process, h.same, h.added, h.shut, h.waiting, fun _ => ⟨hclosed, hmeets⟩⟩

theorem Inv.run (h : P.Inv sha256 config) (hs : Orderly sha256 P P') : P'.Inv sha256 config := by
  induction hs with
  | refl => exact h
  | tail _ hlast ih => exact ih.step hsha hnames hlast

omit hsha hnames in
theorem OrderlyStep.returned (hs : OrderlyStep sha256 P P') (h : P.returned = true) :
    P'.returned = true := by
  obtain ⟨d, hs, -⟩ := hs
  cases hs with
  | work => exact h
  | shutdown => exact h
  | closed => exact h
  | waited => exact h
  | returns => rfl
  | again => rfl

omit hsha hnames in
theorem Orderly.reachable (h : Orderly sha256 (start (F := F) config) P) :
    Reachable sha256 config P := by
  induction h with
  | refl => exact .start
  | tail _ hlast ih =>
      obtain ⟨d, hs, -⟩ := hlast
      exact ih.step hs

/-! ### The law -/

/-- A process whose `Shutdown` has returned. -/
theorem Inv.stopped (h : P.Inv sha256 config) (hreturned : P.returned = true) :
    P.Stopped sha256 := by
  obtain ⟨hclosed, htodo, hwaiting⟩ := h.returned hreturned
  have hb := h.life.fleet.books hsha hnames
  have hgone : ∀ n, P.fleet.backends.get n = none := by
    intro n
    by_contra hne
    obtain ⟨b, hget⟩ := Option.ne_none_iff_exists'.mp hne
    have hwait := (h.waiting hclosed n b hget).1
    rw [hwaiting] at hwait
    cases hwait
  have hshut : ∀ k x, P.fleet.sessions.get k = some x → x.state.Shut := by
    intro k x hx
    rcases h.shut hclosed k x hx with hmem | hshut
    · rw [htodo] at hmem
      cases hmem
    · exact hshut
  have hempty : ∀ p : Backend → Bool, P.fleet.backends.countP p = 0 := by
    intro p
    apply Table.total_eq_zero
    intro n b hget
    rw [hgone n] at hget
    cases hget
  have hpending : P.process.manager.pending = 0 := by
    rw [h.process.accounted.total]
    apply Table.total_eq_zero
    intro k slot hslot
    apply Slot.charge_shut (h.process.accounted.slots k slot hslot)
    have hsame := h.same k
    rw [hslot] at hsame
    obtain ⟨x, hx, hstate⟩ := Option.map_eq_some_iff.mp hsame
    rw [← hstate]
    exact hshut k x hx
  have haccounted := Fleet.sessions_streams_dials_accounted hsha hnames h.life.fleet
  refine ⟨hgone, ?_, ?_, congrArg Prod.fst hpending, congrArg Prod.snd hpending, ?_, ?_, ?_, ?_⟩
  · have hsize := haccounted.streams
    rw [Table.size_eq_countP] at hsize
    exact hsize.trans (hempty _)
  · exact haccounted.dials.trans (hempty _)
  · exact fun token clientIP body now random =>
      (Registry.create_closed hclosed token clientIP body now random).2
  · intro p now
    unfold StreamCounters.acquireStream
    rw [if_pos (.inl hclosed)]
  · intro k p σ hx c es r hr
    have hidle : σ.session.closed = true := hshut k _ hx
    have hsound := (hb.tenants _ _ hx).2
    have hrests : Rests (c.exec sha256 σ.session) :=
      Section.rests sha256 hidle ((TproxyServer.Reachable.sound hsound).ended hidle)
        (TproxyServer.Reachable.emptied hsound hidle) c
    exact List.filter_eq_nil_iff.mpr fun e he => by simpa using (hrests.events hr e he).2
  · intro k p t rest hx es r hr
    have hrests := (hshut k _ hx).1
    exact List.filter_eq_nil_iff.mpr fun e he => by simpa using (hrests.events hr e he).2

/-- **`Shutdown` strands nothing** in a run in which it finds every backend that runs in a session
that is still there: once a call has returned, no backend is executing, nothing is pending and
nothing is admitted, from then on. -/
theorem shutdown_strands_nothing (h : Orderly sha256 (start config) P)
    (hreturned : P.returned = true) (hs : Orderly sha256 P P') : P'.Stopped sha256 := by
  have hinv := ((Inv.start config).run hsha hnames h).run hsha hnames hs
  apply hinv.stopped hsha hnames
  clear hinv h
  induction hs with
  | refl => exact hreturned
  | tail _ hlast ih => exact hlast.returned ih

end

end Plant

/-! ### Two runs -/

theorem SameSessions.set {W W' : Fleet F} {Q Q' : Process} {k : ℕ} {p : Profile}
    {state : Tenancy} {slot : Slot} (h : SameSessions W Q)
    (hW : W'.sessions = W.sessions.put k ⟨p, state⟩)
    (hQ : Q'.sessions = Q.sessions.put k slot) (hslot : slot.tenancy = state) :
    SameSessions W' Q' := by
  intro j
  rw [hW, hQ, Table.get_put, Table.get_put]
  by_cases hj : j = k
  · simp [hj, hslot]
  · simp [hj, h j]

theorem SameSessions.idle {W : Fleet F} {Q : Process} {k : ℕ} {p : Profile} {σ : Traced}
    (h : SameSessions W Q) (hx : W.sessions.get k = some ⟨p, .idle σ⟩) :
    Q.sessions.get k = some (.idle σ) := by
  have hk := h k
  rw [hx] at hk
  obtain ⟨slot, hslot, htenancy⟩ := Option.map_eq_some_iff.mp hk.symm
  cases slot with
  | idle σ' =>
      cases htenancy
      exact hslot
  | running => cases htenancy

theorem SameSessions.running {W : Fleet F} {Q : Process} {k : ℕ} {p : Profile} {t : List Event}
    {rest : Act (Session × Reply)} (h : SameSessions W Q)
    (hx : W.sessions.get k = some ⟨p, .running t rest⟩) :
    ∃ g, Q.sessions.get k = some (.running t rest g) := by
  have hk := h k
  rw [hx] at hk
  obtain ⟨slot, hslot, htenancy⟩ := Option.map_eq_some_iff.mp hk.symm
  cases slot with
  | idle => cases htenancy
  | running _ _ g =>
      cases htenancy
      exact ⟨g, hslot⟩

/-- The session is about to ask for the pending budget. -/
def Tenancy.charging : Tenancy → Bool
  | .running _ (.ask (.budget _ _ _) _) => true
  | _ => false

section
variable [Float64 F]

/-- What a session that asks for no budget goes on to. -/
def Fleet.proceed (k : ℕ) (now : ℤ) (W : Fleet F) : Option (Fleet F) :=
  if (W.sessions.get k).any (·.state.charging) then none else W.advance k now

def Fleet.proceeds (k : ℕ) (now : ℤ) : ℕ → Fleet F → Option (Fleet F)
  | 0, W => some W
  | n + 1, W => (W.proceed k now).bind (Fleet.proceeds k now n)

/-- Perform a section of session `k`, in `n` things that happen. -/
def Fleet.perform (sha256 : Bytes → Bytes) (k : ℕ) (c : Section) (now : ℤ) (n : ℕ)
    (W : Fleet F) : Option (Fleet F) :=
  match W.sessions.get k with
  | some ⟨p, .idle σ⟩ =>
      if σ.session.usesCarrierLanes then none
      else (W.set k p (.running σ.trace (c.exec sha256 σ.session))).proceeds k now n
  | _ => none

/-- Both views of the process go on. -/
theorem SameSessions.proceed {W W' : Fleet F} {Q : Process} {k : ℕ} {now : ℤ}
    (h : SameSessions W Q) (ha : W.proceed k now = some W') :
    ∃ Q', Relation.ReflTransGen (Process.Step sha256) Q Q' ∧ SameSessions W' Q' := by
  unfold Fleet.proceed at ha
  split_ifs at ha with hcharging
  unfold Fleet.advance at ha
  split at ha
  · cases ha
  · cases ha
  · cases ha
  · next hget =>
      cases ha
      obtain ⟨g, hg⟩ := h.running hget
      exact ⟨_, .single (.finish hg), h.set rfl rfl rfl⟩
  · next hget =>
      split_ifs at ha with he
      cases ha
      obtain ⟨g, hg⟩ := h.running hget
      exact ⟨_, .single (.note hg), h.set rfl rfl rfl⟩
  · next hget =>
      rw [hget] at hcharging
      exact absurd rfl hcharging
  · next t f hget =>
      obtain ⟨g, hg⟩ := h.running hget
      split at ha
      · cases ha
        exact ⟨_, .single (.acquire hg false), h.set rfl rfl rfl⟩
      · next e rest hm hnext =>
          split_ifs at ha with he
          cases ha
          have hasked : (Q.set k (.running t (f true) g)).sessions.get k =
              some (.running t (.note e rest) g) := by
            rw [← hnext]
            exact Table.get_put_self Q.sessions k _
          refine ⟨_, (Relation.ReflTransGen.single (.acquire hg true)).tail (.note hasked),
            h.set rfl (?_ : _ = Q.sessions.put k (.running (t ++ [e]) rest g)) rfl⟩
          rw [Process.set_set]
          rfl
      · cases ha

end

namespace Plant

variable [Float64 F] {P P' : Plant F}

/-- A process that has gone on to `L`, the calls of `Shutdown` being where they were. -/
structure Becomes (sha256 : Bytes → Bytes) (P : Plant F) (L : Lifecycle F) (P' : Plant F) :
    Prop where
  orderly : Orderly sha256 P P'
  life : P'.life = L
  same : SameSessions L.fleet P'.process
  todo : P'.todo = P.todo
  waiting : P'.waiting = P.waiting

theorem Becomes.work {L L' : Lifecycle F} {Q : Process} (h : P.Becomes sha256 L P')
    (hs : Lifecycle.Step sha256 L L')
    (hq : Relation.ReflTransGen (Process.Step sha256) P'.process Q)
    (hsame : SameSessions L'.fleet Q) (hopen : L'.registry.closed = L.registry.closed) :
    ∃ P'', P.Becomes sha256 L' P'' := by
  obtain ⟨horderly, rfl, -, htodo, hwaiting⟩ := h
  exact ⟨_, horderly.tail ⟨.work, .work hs hq hsame hopen, trivial⟩, rfl, hsame, htodo, hwaiting⟩

theorem Becomes.proceed {L : Lifecycle F} {W W' : Fleet F} {k : ℕ} {now : ℤ}
    (h : P.Becomes sha256 { L with fleet := W } P') (ha : W.proceed k now = some W') :
    ∃ P'', P.Becomes sha256 { L with fleet := W' } P'' := by
  obtain ⟨Q, hq, hsame⟩ := SameSessions.proceed h.same ha
  have hadvance : W.advance k now = some W' := by
    unfold Fleet.proceed at ha
    split_ifs at ha
    exact ha
  obtain ⟨hs, hrun⟩ := Fleet.advance_step sha256 hadvance
  have hnext : Lifecycle.Step sha256 { L with fleet := W } { L with fleet := W' } :=
    .work hs (congrArg (·.registry.sessionsClosed) hrun)
  exact h.work hnext hq hsame (congrArg (·.registry.closed) hrun)

theorem Becomes.begin {L : Lifecycle F} {W : Fleet F} {k : ℕ} {p : Profile} {σ : Traced}
    (h : P.Becomes sha256 { L with fleet := W } P')
    (hx : W.sessions.get k = some ⟨p, .idle σ⟩) (c : Section) (hc : c.Callable σ.session) :
    ∃ P'', P.Becomes sha256
      { L with fleet := W.set k p (.running σ.trace (c.exec sha256 σ.session)) } P'' := by
  apply h.work (.work (.begin hx c hc) rfl) (.single (.begin (h.same.idle hx) c hc)) _ rfl
  exact h.same.set rfl rfl rfl

theorem Becomes.proceeds {L : Lifecycle F} {W W' : Fleet F} {k n : ℕ} {now : ℤ}
    (h : P.Becomes sha256 { L with fleet := W } P')
    (ha : W.proceeds k now n = some W') :
    ∃ P'', P.Becomes sha256 { L with fleet := W' } P'' := by
  induction n generalizing W P' with
  | zero =>
      cases ha
      exact ⟨P', h⟩
  | succ n ih =>
      obtain ⟨W₁, h₁, hrest⟩ := Option.bind_eq_some_iff.mp ha
      obtain ⟨P₁, hP₁⟩ := h.proceed h₁
      exact ih hP₁ hrest

theorem Becomes.perform {L : Lifecycle F} {W W' : Fleet F} {k n : ℕ} {c : Section} {now : ℤ}
    (h : P.Becomes sha256 { L with fleet := W } P')
    (ha : W.perform sha256 k c now n = some W') :
    ∃ P'', P.Becomes sha256 { L with fleet := W' } P'' := by
  unfold Fleet.perform at ha
  split at ha
  · next p σ hget =>
      split_ifs at ha with hlanes
      have hc : c.Callable σ.session := by
        cases c <;> simp_all [Section.Callable]
      obtain ⟨P₁, h₁⟩ := h.begin hget c hc
      exact h₁.proceeds ha
  · cases ha

end Plant

/-- A process in which one session has been created. -/
def Fleet.oneSession : Fleet ℚ :=
  let alpha : Profile := { name := "alpha", capability := zeroDigest }
  let issue : Registry.Op := .issueBootstrap (some alpha) "198.51.100.31" 0
    (some (List.replicate 32 1)) []
  let create : Registry.Op := .create (Base64.encode (List.replicate 32 1)) "198.51.100.31"
    (encode .hello 0 [1]) 1 (some (List.replicate 32 2))
  let W : Fleet ℚ := newFleet Registry.oneProfile
  { W with run := (W.run.after id issue).after id create }.set 0 alpha
    (.idle ⟨newSession (Registry.oneProfile.sessionLimits alpha) .https, []⟩)

namespace Plant

theorem becomes_oneSession : ∃ P, Becomes id (start (F := ℚ) Registry.oneProfile)
    { fleet := Fleet.oneSession } P := by
  let alpha : Profile := { name := "alpha", capability := zeroDigest }
  let issue : Registry.Op := .issueBootstrap (some alpha) "198.51.100.31" 0
    (some (List.replicate 32 1)) []
  let create : Registry.Op := .create (Base64.encode (List.replicate 32 1)) "198.51.100.31"
    (encode .hello 0 [1]) 1 (some (List.replicate 32 2))
  let W₀ : Fleet ℚ := newFleet Registry.oneProfile
  let W₁ : Fleet ℚ := { W₀ with run := W₀.run.after id issue }
  have h₀ : Becomes id (start (F := ℚ) Registry.oneProfile) { fleet := W₀ }
      (start Registry.oneProfile) := ⟨.refl, rfl, fun _ => rfl, rfl, rfl⟩
  have hissued : Lifecycle.Step id { fleet := W₀ } { fleet := W₁ } := by
    refine Lifecycle.Step.work (W := W₁) (@Fleet.Step.manage ℚ _ id W₀ issue
      (by decide +kernel) rfl ?_) (by decide +kernel)
    intro k now order hop
    simp [issue] at hop
  obtain ⟨P₁, h₁⟩ := h₀.work hissued .refl h₀.same (by decide +kernel)
  have hlive : (W₁.run.after id create).registry.sessions.get (List.replicate 32 2) =
      some ⟨0, "198.51.100.31", alpha⟩ := by decide +kernel
  have hcreated : Lifecycle.Step id { fleet := W₁ } { fleet := Fleet.oneSession } :=
    Lifecycle.Step.work (W := Fleet.oneSession) (@Fleet.Step.create ℚ _ id W₁ create _ _
      (by decide +kernel) hlive (by decide +kernel)) (by decide +kernel)
  have hnone : P₁.process.sessions.get 0 = none := by
    have hsame := h₁.same 0
    rw [show W₁.sessions.get 0 = none from rfl] at hsame
    exact Option.map_eq_none_iff.mp hsame.symm
  have hsame : SameSessions Fleet.oneSession (P₁.process.set 0
      (.idle ⟨newSession (Registry.oneProfile.sessionLimits alpha) .https, []⟩)) :=
    h₁.same.set rfl rfl rfl
  exact h₁.work hcreated (.single (.create hnone _ _)) hsame (by decide +kernel)

/-- The session is closed while `Shutdown` waits for it. -/
theorem shutdown_strands_nothing_closed : ∃ P : Plant ℚ, P.returned = true ∧
    P.fleet.registry.sessions.size = 1 ∧ P.Stopped id := by
  obtain ⟨P₀, h₀⟩ := becomes_oneSession
  have hopen : Fleet.oneSession.registry.closed = false := by decide +kernel
  have hkeys : Fleet.oneSession.registry.sessions.entries.map (·.2.session) = [0] := by
    decide +kernel
  have hnone : Fleet.oneSession.backends = .nil := rfl
  have hgo : (({ Fleet.oneSession with
      run := Fleet.oneSession.run.after id .shutdown } : Fleet ℚ).perform id 0 .close 2 3).map
        (fun W => (((W.sessions.get 0).bind (·.state.traced)).map (·.session.closed),
          W.registry.closed, W.backends.keys, W.registry.sessions.size)) =
      some (some true, true, [], 1) := by decide +kernel
  generalize Fleet.oneSession = W at h₀ hopen hkeys hnone hgo
  obtain ⟨W', hW', hstate⟩ := Option.map_eq_some_iff.mp hgo
  simp only [Prod.mk.injEq] at hstate
  obtain ⟨hclosed, hlocked, hbackends, hsize⟩ := hstate
  obtain ⟨σ, hσ, hshut⟩ := Option.map_eq_some_iff.mp hclosed
  obtain ⟨⟨p, state⟩, hx, htraced⟩ := Option.bind_eq_some_iff.mp hσ
  obtain rfl := Tenancy.traced_eq_some htraced
  obtain ⟨life, Q, added, todo, waiting, returned⟩ := P₀
  obtain ⟨horderly, hlife, hsame, -, -⟩ := h₀
  dsimp only at hlife
  subst hlife
  have h₁ := horderly.tail ⟨.shutdown, .shutdown hopen, by
    intro n b hget
    change W.backends.get n = some b at hget
    rw [hnone] at hget
    cases hget⟩
  let P₁ := lock id ⟨{ fleet := W }, Q, added, todo, waiting, returned⟩
  have hlock : Becomes id P₁ { fleet := { W with run := W.run.after id .shutdown } } P₁ :=
    ⟨.refl, rfl, hsame, rfl, rfl⟩
  obtain ⟨P₂, hclosing, hlife, -, htodo, hwaiting⟩ := Becomes.perform (L := { fleet := W }) hlock hW'
  have htodo : P₂.todo = [0] := htodo.trans hkeys
  have hwaiting : P₂.waiting = [0] := hwaiting.trans hkeys
  have hfleet : P₂.fleet = W' := congrArg Lifecycle.fleet hlife
  have hgone : ∀ n, W'.backends.get n = none := by
    intro n
    by_contra hne
    have hmem := (Table.mem_keys_iff W'.backends n).mpr hne
    rw [hbackends] at hmem
    cases hmem
  have h₃ := (h₁.trans hclosing).tail ⟨.closed, .closed (k := 0) (p := p) (σ := σ)
    (by simp [htodo]) (by rw [hfleet]; exact hx) hshut, trivial⟩
  have h₄ := h₃.tail ⟨.waited, .waited (k := 0) (by simp [htodo]) (by simp [hwaiting]) (by
    intro n _ b hget
    change P₂.fleet.backends.get n = some b at hget
    rw [hfleet, hgone n] at hget
    cases hget), trivial⟩
  have hmanager : P₂.registry.closed = true := by
    unfold Plant.registry Lifecycle.registry
    rw [hlife]
    exact hlocked
  have h₅ := h₄.tail ⟨.returns, .returns hmanager (by simp [htodo]) (by simp [hwaiting]), trivial⟩
  refine ⟨_, rfl, ?_, shutdown_strands_nothing (fun a b _ _ hab => hab) (by decide) h₅ rfl .refl⟩
  show P₂.fleet.registry.sessions.size = 1
  rw [hfleet]
  exact hsize

/-- A session is closed and leaves the manager while its backend dials; `Shutdown` finds no
session, and returns. -/
theorem shutdown_strands_backend : ∃ P : Plant ℚ, Reachable id Registry.oneProfile P ∧
    P.returned = true ∧ P.fleet.counters.streamsLive = 1 ∧
      P.fleet.counters.backendDialsInFlight = 1 ∧ ¬ P.Stopped id := by
  obtain ⟨P₀, h₀⟩ := becomes_oneSession
  have hopen : Fleet.oneSession.registry.closed = false := by decide +kernel
  have hgo : ((Fleet.oneSession.perform id 0 (.processUpCommit 1 (encode .open 1 [])) 2 4).bind
      fun W => (W.perform id 0 .close 2 3).map fun W' =>
        (((W'.sessions.get 0).bind (·.state.traced)).map (fun σ => finishings σ.trace),
          ((W'.run.after id (.sessionFinished 0 3 [])).registry.sessions.entries.map
            (·.2.session), (W'.run.after id (.sessionFinished 0 3 [])).registry.closed,
            W'.registry.closed, W'.registry.closedTokens.keys.isEmpty),
          W'.counters.streamsLive, W'.counters.backendDialsInFlight)) =
      some (some 1, ([], false, false, true), 1, 1) := by decide +kernel
  generalize Fleet.oneSession = W at h₀ hopen hgo
  obtain ⟨W₁, hW₁, hrest⟩ := Option.bind_eq_some_iff.mp hgo
  obtain ⟨W₂, hW₂, hstate⟩ := Option.map_eq_some_iff.mp hrest
  simp only [Prod.mk.injEq] at hstate
  obtain ⟨hfinished, ⟨hkeys, hopen₃, hopen₂, htokens⟩, hstreams, hdials⟩ := hstate
  obtain ⟨σ, hσ, hcount⟩ := Option.map_eq_some_iff.mp hfinished
  obtain ⟨⟨p, state⟩, hx, htraced⟩ := Option.bind_eq_some_iff.mp hσ
  obtain rfl := Tenancy.traced_eq_some htraced
  obtain ⟨P₁, h₁⟩ := Becomes.perform (L := { fleet := W }) h₀ hW₁
  obtain ⟨P₂, h₂⟩ := h₁.perform hW₂
  have hmeets : W₂.run.registry.Meets [] := by
    intro hash hne
    have hmem := (Table.mem_keys_iff _ _).mpr hne
    rwa [show W₂.run.registry.closedTokens.keys = [] from List.isEmpty_iff.mp htokens] at hmem
  have hleaves := @Lifecycle.Step.sessionFinished _ _ id { fleet := W₂ } 0 _ 3 [] hx
    (Nat.lt_of_lt_of_eq Nat.zero_lt_one hcount.symm) hmeets
  obtain ⟨P₃, h₃⟩ := h₂.work hleaves .refl h₂.same (hopen₃.trans hopen₂.symm)
  obtain ⟨horderly, hlife, -, -, -⟩ := h₃
  obtain ⟨life, Q, added, todo, waiting, returned⟩ := P₃
  dsimp only at hlife
  subst hlife
  have hlocked := (horderly.reachable).step (.shutdown hopen₃)
  have hreturned := hlocked.step (.returns rfl hkeys hkeys)
  refine ⟨_, hreturned, rfl, hstreams, hdials, ?_⟩
  intro hstopped
  have hzero : W₂.counters.streamsLive = 0 := hstopped.streams
  rw [hstreams] at hzero
  cases hzero

end Plant

end TproxyServer
