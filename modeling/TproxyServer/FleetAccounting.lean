import TproxyServer.Fleet
import TproxyServer.LaneBound
import TproxyServer.SessionLimits

/-! # Sessions, streams and dials are accounted

In every run of a process the counters of `acquireStream`, `backendDialFinished` and
`streamFinished` count the backends whose run, or whose dial, has not finished, in total and by
profile; the counters of `Create` and `sessionFinished` count the sessions.  All of them are
within their limits, and the two panics are unreachable. -/

namespace TproxyServer

open Interaction Prog

variable {F : Type} {sha256 : Bytes → Bytes} {config : Config}

/-! ### The sessions of a process -/

/-- A session is in a state it can reach, and what is left of its section leads to one. -/
def Tenancy.Sound (sha256 : Bytes → Bytes) (limits : Limits) (carrier : CarrierMode) :
    Tenancy → Prop
  | .idle σ => Reachable sha256 limits carrier σ
  | .running t rest => Admits rest false ∧
      ∀ es s r, Runs rest es (.ok (s, r)) → Reachable sha256 limits carrier ⟨s, t ++ es⟩

def Tenant.Sound (sha256 : Bytes → Bytes) (config : Config) (x : Tenant) : Prop :=
  x.profile ∈ config.profiles ∧
    x.state.Sound sha256 (config.sessionLimits x.profile) x.profile.carrierMode

section
variable {limits : Limits} {carrier : CarrierMode} {t : List Event} {e : Event}
  {rest : Act (Session × Reply)}

theorem Tenancy.Sound.begin {σ : Traced} (h : (Tenancy.idle σ).Sound sha256 limits carrier)
    {c : Section} (hc : c.Callable σ.session) :
    (Tenancy.running σ.trace (c.exec sha256 σ.session)).Sound sha256 limits carrier :=
  ⟨Section.admits sha256 σ.session c, fun _ _ _ hr => Reachable.step h (.run hc hr)⟩

theorem Tenancy.Sound.note (h : (Tenancy.running t (.note e rest)).Sound sha256 limits carrier) :
    (Tenancy.running (t ++ [e]) rest).Sound sha256 limits carrier := by
  refine ⟨h.1.2, fun es s r hr => ?_⟩
  rw [List.append_assoc]
  exact h.2 (e :: es) s r (.note hr)

theorem Tenancy.Sound.answer {q : Query} {next : Bool → Act (Session × Reply)} (granted : Bool)
    (h : (Tenancy.running t (.ask q next)).Sound sha256 limits carrier)
    (hq : Admits (next granted) false) :
    (Tenancy.running t (next granted)).Sound sha256 limits carrier :=
  ⟨hq, fun es s r hr => h.2 es s r (.ask granted hr)⟩

/-- The section is admitted, and creates its backend. -/
theorem Tenancy.Sound.acquire {next : Bool → Act (Session × Reply)}
    (h : (Tenancy.running t (.ask .acquireStream next)).Sound sha256 limits carrier)
    (hnext : next true = .note e rest) :
    (Tenancy.running (t ++ [e]) rest).Sound sha256 limits carrier := by
  have howed := h.1.2.1
  rw [hnext] at howed
  refine ⟨howed.2, fun es s r hr => ?_⟩
  rw [List.append_assoc]
  exact h.2 (e :: es) s r (.ask true (hnext ▸ .note hr))

theorem Tenancy.Sound.finish {s : Session} {r : Reply}
    (h : (Tenancy.running t (.done (s, r))).Sound sha256 limits carrier) :
    (Tenancy.idle ⟨s, t⟩).Sound sha256 limits carrier := by
  have := h.2 [] s r (.done _)
  rwa [List.append_nil] at this

end

/-! ### The books of a process -/

/-- The dial of the backend has not completed. -/
def Backend.undialled (b : Backend) : Bool := b.phase ≠ .dialled

def Backend.profileName (b : Backend) : String := b.profile.name

namespace Fleet

/-- The counters count the backends, within the limits. -/
structure Counted (config : Config) (m : StreamCounters F) (backends : Table ℕ Backend) :
    Prop where
  streams : Table.Tallied m.streamsLive m.streamsPerProfile (fun _ => true) Backend.profileName
    backends
  dials : Table.Tallied m.backendDialsInFlight m.dialsPerProfile Backend.undialled
    Backend.profileName backends
  maxStreams : m.streamsLive ≤ config.limits.maxStreamsGlobal.toInt
  maxDials : m.backendDialsInFlight ≤ config.limits.maxBackendDialsInFlight.toInt
  profileStreams : ∀ p ∈ config.profiles,
    m.streamsPerProfile.count p.name ≤ (config.profileLimits p).maxStreams.toInt
  profileDials : ∀ p ∈ config.profiles,
    m.dialsPerProfile.count p.name ≤ (config.profileLimits p).maxBackendDialsInFlight.toInt
  offered : ∀ n b, backends.get n = some b → b.profile ∈ config.profiles

section
variable {m m' : StreamCounters F} {backends : Table ℕ Backend} {n k : ℕ} {p : Profile}

theorem Counted.start (config : Config) (rate : RateState F) :
    Counted config { streamRate := rate } .nil := by
  have hpos : ∀ value ∈ config.limits.positive, 0 ≤ value.toInt := by
    intro value hv
    have := Int64.lt_iff_toInt_lt.mp (Config.Limits.validate_positive config.valid value hv)
    rw [Int64.toInt_zero] at this
    exact this.le
  refine ⟨⟨rfl, fun _ => rfl⟩, ⟨rfl, fun _ => rfl⟩, ?_, ?_, ?_, ?_, ?_⟩
  · exact hpos _ (by simp [Config.Limits.positive])
  · exact hpos _ (by simp [Config.Limits.positive])
  · exact fun p hp => (Config.profileLimits_nonneg hp).2.1
  · exact fun p hp => (Config.profileLimits_nonneg hp).2.2
  · intro n b hb
    cases hb

theorem Counted.offered_put (h : Counted config m backends) (hp : p ∈ config.profiles)
    (phase : Phase) :
    ∀ i b, (backends.put n ⟨k, p, phase⟩).get i = some b → b.profile ∈ config.profiles := by
  intro i b hb
  rw [Table.get_put] at hb
  split_ifs at hb
  · cases hb
    exact hp
  · exact h.offered i b hb

/-- An admitted stream had room in every limit. -/
theorem Counted.acquire [Float64 F] (h : Counted config m backends)
    (hnames : (config.profiles.map Profile.name).Nodup) (hp : p ∈ config.profiles)
    {closed : Bool} {now : ℤ} (hm : m.acquireStream config closed p now = some m')
    (hnone : backends.get n = none) :
    Counted config m' (backends.put n ⟨k, p, .created⟩) := by
  unfold StreamCounters.acquireStream at hm
  split_ifs at hm with hlimit
  obtain ⟨rates, -, rfl⟩ := Option.map_eq_some_iff.mp hm
  unfold StreamCounters.limitReached at hlimit
  simp only [not_or, not_le] at hlimit
  obtain ⟨-, hstreams, hdials, hprofile, hprofileDials⟩ := hlimit
  have hroom : ∀ (counts : Table String ℤ) (limit : Profile → ℤ),
      (∀ q ∈ config.profiles, counts.count q.name ≤ limit q) → counts.count p.name < limit p →
      ∀ q ∈ config.profiles, (counts.increment p.name).count q.name ≤ limit q := by
    intro counts limit hle hlt q hq
    rw [Table.count_increment]
    split_ifs with hname
    · have : p = q := List.inj_on_of_nodup_map hnames hp hq hname
      subst this
      omega
    · rw [zero_add]
      exact hle q hq
  have hadded := h.streams.put (v := (⟨k, p, .created⟩ : Backend)) hnone rfl
  have hdialling := h.dials.put (v := (⟨k, p, .created⟩ : Backend)) hnone rfl
  refine ⟨hadded, hdialling, ?_, ?_, ?_, ?_, h.offered_put hp _⟩
  · show m.streamsLive + 1 ≤ _
    omega
  · show m.backendDialsInFlight + 1 ≤ _
    omega
  · exact hroom _ (fun q => (config.profileLimits q).maxStreams.toInt) h.profileStreams hprofile
  · exact hroom _ (fun q => (config.profileLimits q).maxBackendDialsInFlight.toInt)
      h.profileDials hprofileDials

theorem Counted.begin (h : Counted config m backends)
    (hget : backends.get n = some ⟨k, p, .created⟩) :
    Counted config m (backends.put n ⟨k, p, .dialling⟩) :=
  ⟨h.streams.same hget rfl rfl, h.dials.same hget rfl rfl, h.maxStreams, h.maxDials,
    h.profileStreams, h.profileDials, h.offered_put (h.offered _ _ hget) _⟩

theorem eq_zero_gone : ∀ n : ℤ, 0 ≤ n → decide (n = 0) = true → n = 0 := by simp

/-- The dial of a backend that is dialling can be accounted. -/
theorem Counted.dial_ok (h : Counted config m backends)
    (hget : backends.get n = some ⟨k, p, .dialling⟩) : ∃ m', m.backendDialFinished p = .ok m' := by
  obtain ⟨htotal, hpart⟩ := h.dials.positive hget rfl
  have hpart' : 1 ≤ m.dialsPerProfile.count p.name := hpart
  unfold StreamCounters.backendDialFinished
  rw [if_neg (by omega)]
  exact ⟨_, rfl⟩

theorem Counted.dialFinished (h : Counted config m backends)
    (hget : backends.get n = some ⟨k, p, .dialling⟩) (hm : m.backendDialFinished p = .ok m') :
    Counted config m' (backends.put n ⟨k, p, .dialled⟩) := by
  have hpart : 1 ≤ m.dialsPerProfile.count p.name := (h.dials.positive hget rfl).2
  unfold StreamCounters.backendDialFinished at hm
  split_ifs at hm
  cases hm
  refine ⟨h.streams.same hget rfl rfl, h.dials.unselect eq_zero_gone hget rfl rfl, h.maxStreams,
    ?_, h.profileStreams, ?_, h.offered_put (h.offered _ _ hget) _⟩
  · have := h.maxDials
    show m.backendDialsInFlight - 1 ≤ _
    omega
  · exact fun q hq => (Table.count_decrement_le eq_zero_gone _ hpart _).trans (h.profileDials q hq)

/-- The run of a backend that has dialled can be accounted. -/
theorem Counted.stream_ok (h : Counted config m backends) {phase : Phase}
    (hget : backends.get n = some ⟨k, p, phase⟩) : ∃ m', m.streamFinished p = .ok m' := by
  obtain ⟨htotal, hpart⟩ := h.streams.positive hget rfl
  have hpart' : 1 ≤ m.streamsPerProfile.count p.name := hpart
  unfold StreamCounters.streamFinished
  rw [if_neg (by omega)]
  exact ⟨_, rfl⟩

theorem Counted.streamFinished (h : Counted config m backends)
    (hget : backends.get n = some ⟨k, p, .dialled⟩) (hm : m.streamFinished p = .ok m') :
    Counted config m' (backends.del n) := by
  have hpart : 1 ≤ m.streamsPerProfile.count p.name := (h.streams.positive hget rfl).2
  unfold StreamCounters.streamFinished at hm
  split_ifs at hm
  cases hm
  refine ⟨h.streams.del eq_zero_gone hget rfl, h.dials.drop hget rfl, ?_, h.maxDials, ?_,
    h.profileDials, ?_⟩
  · have := h.maxStreams
    show m.streamsLive - 1 ≤ _
    omega
  · exact fun q hq =>
      (Table.count_decrement_le eq_zero_gone _ hpart _).trans (h.profileStreams q hq)
  · intro i b hb
    rw [Table.get_del] at hb
    split_ifs at hb
    exact h.offered i b hb

end

variable [Float64 F] {W W' : Fleet F}

/-- The books of a process. -/
structure Books (sha256 : Bytes → Bytes) (config : Config) (W : Fleet F) : Prop where
  registry : Registry.Reachable sha256 config W.run
  counted : Counted config W.counters W.backends
  numbered : ∀ k x, W.sessions.get k = some x → k < W.registry.nextSession
  tenants : ∀ k x, W.sessions.get k = some x → x.Sound sha256 config
  fresh : ∀ n b, W.backends.get n = some b → n < W.nextBackend

theorem Books.start (sha256 : Bytes → Bytes) (config : Config) :
    Books sha256 config (newFleet (F := F) config) where
  registry := .start
  counted := .start config _
  numbered := by
    intro k x hx
    cases hx
  tenants := by
    intro k x hx
    cases hx
  fresh := by
    intro n b hb
    cases hb

/-- One session moves on. -/
theorem Books.set (h : Books sha256 config W) {k : ℕ} {p : Profile} {state state' : Tenancy}
    (hget : W.sessions.get k = some ⟨p, state⟩)
    (hsound : state.Sound sha256 (config.sessionLimits p) p.carrierMode →
      state'.Sound sha256 (config.sessionLimits p) p.carrierMode) :
    Books sha256 config (W.set k p state') where
  registry := h.registry
  counted := h.counted
  numbered := by
    intro i x hx
    change (W.sessions.put k _).get i = some x at hx
    rw [Table.get_put] at hx
    split_ifs at hx with hik
    · subst hik
      exact h.numbered _ _ hget
    · exact h.numbered i x hx
  tenants := by
    intro i x hx
    change (W.sessions.put k _).get i = some x at hx
    rw [Table.get_put] at hx
    split_ifs at hx
    · cases hx
      obtain ⟨hp, hstate⟩ := h.tenants _ _ hget
      exact ⟨hp, hsound hstate⟩
    · exact h.tenants i x hx
  fresh := h.fresh

/-- A backend moves on, and the counters with it. -/
theorem Books.setBackend (h : Books sha256 config W) {n : ℕ} {b b' : Backend}
    {m : StreamCounters F} (hget : W.backends.get n = some b)
    (hcounted : Counted config m (W.backends.put n b')) :
    Books sha256 config ({ W with counters := m }.setBackend n b') where
  registry := h.registry
  counted := hcounted
  numbered := h.numbered
  tenants := h.tenants
  fresh := by
    intro i b'' hb
    change (W.backends.put n b').get i = some b'' at hb
    rw [Table.get_put] at hb
    split_ifs at hb with hin
    · subst hin
      exact h.fresh _ _ hget
    · exact h.fresh i b'' hb

theorem Books.create (h : Books sha256 config W) {k : ℕ} {p : Profile} {m : StreamCounters F}
    (hcounted : Counted config m (W.backends.put W.nextBackend ⟨k, p, .created⟩)) :
    Books sha256 config ({ W with counters := m }.create k p) where
  registry := h.registry
  counted := hcounted
  numbered := h.numbered
  tenants := h.tenants
  fresh := by
    intro i b hb
    change (W.backends.put W.nextBackend _).get i = some b at hb
    rw [Table.get_put] at hb
    split_ifs at hb with hin
    · exact hin ▸ Nat.lt_succ_self _
    · exact Nat.lt_succ_of_lt (h.fresh i b hb)

section
variable (hsha : Registry.TellsTokensApart sha256)
  (hnames : (config.profiles.map Profile.name).Nodup)
include hsha hnames

/-- The manager works on its tokens. -/
theorem Books.manage (h : Books sha256 config W) {op : Registry.Op}
    (hfresh : ∀ x ∈ op.random, x.length = 32 ∧ x ∉ W.run.drawn) :
    Books sha256 config { W with run := W.run.after sha256 op } where
  registry := h.registry.step op hfresh
  counted := h.counted
  numbered := by
    have hmore := ((h.registry.within hsha hnames).after (h.registry.ledger hsha) hsha hnames op
      hfresh).2
    exact fun k x hx => (h.numbered k x hx).trans_le hmore
  tenants := h.tenants
  fresh := h.fresh

/-- One step of a process keeps the books. -/
theorem Books.step (h : Books sha256 config W) (hs : Step sha256 W W') :
    Books sha256 config W' := by
  have hwithin := h.registry.within hsha hnames
  cases hs with
  | manage hfresh _ _ => exact h.manage hsha hnames hfresh
  | @create op hash live hfresh hlive hnew =>
      have hmanaged := h.manage hsha hnames hfresh
      obtain ⟨hp, hlt⟩ := (hmanaged.registry.within hsha hnames).held hash live hlive
      have hstart : Tenant.Sound sha256 config ⟨live.profile, .idle
          ⟨newSession (config.sessionLimits live.profile) live.profile.carrierMode, []⟩⟩ :=
        ⟨hp, .start⟩
      have hconfig : W.config = config := hwithin.configured
      rw [hconfig]
      refine ⟨hmanaged.registry, h.counted, ?_, ?_, h.fresh⟩
      · intro k x hx
        change (W.sessions.put live.session _).get k = some x at hx
        rw [Table.get_put] at hx
        split_ifs at hx with hk
        · exact hk ▸ hlt
        · exact hmanaged.numbered k x hx
      · intro k x hx
        change (W.sessions.put live.session _).get k = some x at hx
        rw [Table.get_put] at hx
        split_ifs at hx
        · cases hx
          exact hstart
        · exact h.tenants k x hx
  | begin hget c hc => exact h.set hget fun hsound => hsound.begin hc
  | note hget he => exact h.set hget fun hsound => hsound.note
  | budget hget granted => exact h.set hget fun hsound => hsound.answer granted (hsound.1.2 granted)
  | @acquire k p t e next rest now m hget hm hnext he =>
      have hconfig : W.config = config := hwithin.configured
      rw [hconfig] at hm
      have hp : p ∈ config.profiles := (h.tenants _ _ hget).1
      have hnone : W.backends.get W.nextBackend = none := by
        by_contra hne
        obtain ⟨b, hb⟩ := Option.ne_none_iff_exists'.mp hne
        exact Nat.lt_irrefl _ (h.fresh _ _ hb)
      have hcreated := h.create (h.counted.acquire (k := k) hnames hp hm hnone)
      exact hcreated.set hget fun hsound => hsound.acquire hnext
  | reject hget _ => exact h.set hget fun hsound => hsound.answer false hsound.1.2.2
  | finish hget => exact h.set hget fun hsound => hsound.finish
  | start hget _ _ => exact h.setBackend hget (h.counted.begin hget)
  | dialFinished hget hm => exact h.setBackend hget (h.counted.dialFinished hget hm)
  | @streamFinished n k p m hget hm =>
      refine ⟨h.registry, h.counted.streamFinished hget hm, h.numbered, h.tenants, ?_⟩
      intro i b hb
      change (W.backends.del n).get i = some b at hb
      rw [Table.get_del] at hb
      split_ifs at hb
      exact h.fresh i b hb

theorem Reachable.books (h : Reachable sha256 config W) : Books sha256 config W := by
  induction h with
  | start => exact .start sha256 config
  | step _ hs ih => exact ih.step hsha hnames hs

end

/-! ### The law -/

/-- The sessions, streams and dials of a process are accounted, within their limits. -/
structure Accounted (config : Config) (W : Fleet F) : Prop where
  /-- The live streams are the backends whose run has not finished, by profile and in total. -/
  streams : W.counters.streamsLive = W.backends.size
  streamsParts : Table.Partitions W.counters.streamsPerProfile (fun _ => true)
    Backend.profileName W.backends
  streamsTotal : Table.total (fun n => n) W.counters.streamsPerProfile = W.counters.streamsLive
  /-- The dials in flight are the backends whose dial has not completed. -/
  dials : W.counters.backendDialsInFlight = W.backends.countP fun b => b.phase ≠ .dialled
  dialsParts : Table.Partitions W.counters.dialsPerProfile (fun b => b.phase ≠ .dialled)
    Backend.profileName W.backends
  dialsTotal : Table.total (fun n => n) W.counters.dialsPerProfile =
    W.counters.backendDialsInFlight
  /-- The sessions are partitioned by address and by profile. -/
  perIP : Table.Partitions W.registry.sessionsPerIP (fun _ => true) LiveSession.clientIP
    W.registry.sessions
  perIPTotal : Table.total (fun n => n) W.registry.sessionsPerIP = W.registry.sessions.size
  perProfile : Table.Partitions W.registry.sessionsPerProfile (fun _ => true)
    (fun l => l.profile.name) W.registry.sessions
  perProfileTotal : Table.total (fun n => n) W.registry.sessionsPerProfile =
    W.registry.sessions.size
  /-- The limits of the process. -/
  maxSessions : (W.registry.sessions.size : ℤ) ≤ config.limits.maxSessionsGlobal.toInt
  maxStreams : W.counters.streamsLive ≤ config.limits.maxStreamsGlobal.toInt
  maxDials : W.counters.backendDialsInFlight ≤ config.limits.maxBackendDialsInFlight.toInt
  maxSessionsPerIP : config.limits.maxSessionsPerIP ≠ 0 →
    ∀ ip, W.registry.sessionsPerIP.count ip ≤ config.limits.maxSessionsPerIP.toInt
  /-- The limits of the profiles. -/
  profiles : ∀ p ∈ config.profiles,
    W.registry.sessionsPerProfile.count p.name ≤ (config.profileLimits p).maxSessions.toInt ∧
      W.counters.streamsPerProfile.count p.name ≤ (config.profileLimits p).maxStreams.toInt ∧
      W.counters.dialsPerProfile.count p.name ≤
        (config.profileLimits p).maxBackendDialsInFlight.toInt
  /-- Only the profiles of the configuration have sessions and streams. -/
  configured : (∀ hash l, W.registry.sessions.get hash = some l → l.profile ∈ config.profiles) ∧
    ∀ n b, W.backends.get n = some b → b.profile ∈ config.profiles
  /-- The live streams of a session. -/
  perSession : ∀ k p σ, W.sessions.get k = some ⟨p, .idle σ⟩ →
    σ.session.streams.size ≤ (config.sessionLimits p).maxStreamsPerSession
  /-- An admission is followed by the creation of its backend, and nothing else is. -/
  admitted : ∀ k p t next, W.sessions.get k = some ⟨p, .running t (.ask .acquireStream next)⟩ →
    ∃ e rest, next true = .note e rest ∧ e.opens = true
  unasked : ∀ k p t e rest, W.sessions.get k = some ⟨p, .running t (.note e rest)⟩ →
    e.opens = false
  /-- The panics of `backendDialFinished` and `streamFinished` are unreachable. -/
  dialFinishes : ∀ n k p, W.backends.get n = some ⟨k, p, .dialling⟩ →
    ∃ m, W.counters.backendDialFinished p = .ok m
  streamFinishes : ∀ n k p, W.backends.get n = some ⟨k, p, .dialled⟩ →
    ∃ m, W.counters.streamFinished p = .ok m

omit [Float64 F] in
/-- A counter that counts a table by its values' `f`, and its total. -/
theorem partitions_of_counts {K V : Type} [DecidableEq K] {counts : Table String ℤ}
    {f : V → String} {t : Table K V}
    (h : ∀ k, counts.count k = t.countP fun v => f v = k) :
    Table.Partitions counts (fun _ => true) f t ∧ Table.total (fun n => n) counts = t.size := by
  have hparts : Table.Partitions counts (fun _ => true) f t := by
    intro k
    simpa using h k
  exact ⟨hparts, hparts.total_eq.trans (Table.size_eq_countP t).symm⟩

/-- **Sessions, streams and dials are accounted** in every run of a process, whatever the order
in which its sessions, its backends and the manager go on. -/
theorem sessions_streams_dials_accounted (hsha : Registry.TellsTokensApart sha256)
    (hnames : (config.profiles.map Profile.name).Nodup) (h : Reachable sha256 config W) :
    Accounted config W := by
  have hb := h.books hsha hnames
  have hl := hb.registry.ledger hsha
  have hw := hb.registry.within hsha hnames
  have hc := hb.counted
  obtain ⟨hip, hipTotal⟩ := partitions_of_counts hl.perIP
  obtain ⟨hprofile, hprofileTotal⟩ := partitions_of_counts hl.perProfile
  refine ⟨?_, hc.streams.parts, ?_, hc.dials.total, hc.dials.parts, ?_, hip, hipTotal, hprofile,
    hprofileTotal, hw.global, hc.maxStreams, hc.maxDials, hw.perIP, ?_, ?_, ?_, ?_, ?_, ?_, ?_⟩
  · rw [hc.streams.total, Table.size_eq_countP]
  · rw [hc.streams.parts.total_eq, hc.streams.total]
  · rw [hc.dials.parts.total_eq, hc.dials.total]
  · exact fun p hp => ⟨hw.perProfile p hp, hc.profileStreams p hp, hc.profileDials p hp⟩
  · exact ⟨fun hash l hl => (hw.held hash l hl).1, hc.offered⟩
  · intro k p σ hget
    have hr : TproxyServer.Reachable sha256 (config.sessionLimits p) p.carrierMode σ :=
      (hb.tenants _ _ hget).2
    have hfew := hr.fewStreams
    unfold Session.FewStreams at hfew
    rwa [hr.sound.limits_eq] at hfew
  · intro k p t next hget
    have howed := (hb.tenants _ _ hget).2.1.2.1
    cases hnext : next true with
    | done a =>
        rw [hnext] at howed
        cases howed
    | ask q next' =>
        rw [hnext] at howed
        cases q with
        | acquireStream => cases howed.1
        | budget cost items cls => cases howed.1
    | note e rest =>
        rw [hnext] at howed
        exact ⟨e, rest, rfl, howed.1⟩
    | panic w =>
        rw [hnext] at howed
        cases howed
  · exact fun k p t e rest hget => (hb.tenants _ _ hget).2.1.1
  · exact fun n k p hget => hc.dial_ok hget
  · exact fun n k p hget => hc.stream_ok hget

/-- A session is created and opens a stream. -/
theorem sessions_streams_dials_accounted_opened : ∃ W : Fleet ℚ,
    W.counters.streamsLive = 1 ∧ W.counters.backendDialsInFlight = 1 ∧
      W.registry.sessions.size = 1 ∧ Accounted Registry.oneProfile W := by
  let alpha : Profile := { name := "alpha", capability := zeroDigest }
  let issue : Registry.Op := .issueBootstrap (some alpha) "198.51.100.31" 0
    (some (List.replicate 32 1)) []
  let create : Registry.Op := .create (Base64.encode (List.replicate 32 1)) "198.51.100.31"
    (encode .hello 0 [1]) 1 (some (List.replicate 32 2))
  let c : Section := .processUpCommit 1 (encode .open 1 [])
  let W₀ : Fleet ℚ := newFleet Registry.oneProfile
  let W₁ : Fleet ℚ := { W₀ with run := W₀.run.after id issue }
  let limits := Registry.oneProfile.sessionLimits alpha
  let W₂ := { W₁ with run := W₁.run.after id create }.set 0 alpha
    (.idle ⟨newSession limits .https, []⟩)
  let W₃ := W₂.set 0 alpha (.running [] (c.exec id (newSession limits .https)))
  have h₁ : Reachable id Registry.oneProfile W₁ := by
    refine Reachable.start.step (@Step.manage ℚ _ id W₀ issue (by decide +kernel) rfl ?_)
    intro k now order hop
    simp [issue] at hop
  have hlive : (W₁.run.after id create).registry.sessions.get (List.replicate 32 2) =
      some ⟨0, "198.51.100.31", alpha⟩ := by decide +kernel
  have h₂ : Reachable id Registry.oneProfile W₂ :=
    h₁.step (@Step.create ℚ _ id W₁ create _ _ (by decide +kernel) hlive (by decide +kernel))
  have h₃ : Reachable id Registry.oneProfile W₃ :=
    h₂.step (.begin (k := 0) (p := alpha) (σ := ⟨newSession limits .https, []⟩) rfl c rfl)
  have hgo : ((((W₃.advance 0 2).bind (·.advance 0 2)).bind (·.advance 0 2)).map fun W =>
      (W.counters.streamsLive, W.counters.backendDialsInFlight, W.registry.sessions.size)) =
        some (1, 1, 1) := by decide +kernel
  obtain ⟨W, hW, hcounts⟩ := Option.map_eq_some_iff.mp hgo
  obtain ⟨W₅, hW₅, ha₆⟩ := Option.bind_eq_some_iff.mp hW
  obtain ⟨W₄, ha₄, ha₅⟩ := Option.bind_eq_some_iff.mp hW₅
  have hW' := ((h₃.advance id ha₄).advance id ha₅).advance id ha₆
  refine ⟨W, congrArg Prod.fst hcounts, congrArg (fun x => x.2.1) hcounts,
    congrArg (fun x => x.2.2) hcounts, ?_⟩
  exact sessions_streams_dials_accounted (fun a b _ _ hab => hab) (by decide) hW'

end Fleet

end TproxyServer
