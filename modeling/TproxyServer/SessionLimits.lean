import TproxyServer.BootstrapAccounting

/-! # The limits on sessions

What a registry holds comes from the configuration: the profiles of its bootstraps and sessions
are configured ones, and the sessions are within the limits of the process, of their profile
and, where there is one, of their address. -/

namespace TproxyServer

variable {F : Type} {sha256 : Bytes → Bytes} {config : Config}

/-! ### Configured limits -/

namespace Config

theorem orElse_nonneg {value fallback : Int64} (h : ¬ value < 0) (h' : ¬ fallback < 0) :
    0 ≤ (orElse value fallback).toInt := by
  have := Int64.le_iff_toInt_le.mp (Int64.not_lt.mp h)
  have := Int64.le_iff_toInt_le.mp (Int64.not_lt.mp h')
  unfold orElse
  split_ifs <;> simpa using by assumption

/-- Every limit of a profile that start-up accepts is within the limit of the process. -/
theorem profileChecks_pass {config : Config} {p : Profile} (h : p ∈ config.profiles) :
    ∀ check ∈ profileChecks p.limits config.limits, check.fails = false := by
  have hvalid := config.profilesValid p h
  unfold validateProfileLimits at hvalid
  intro check hcheck
  by_contra hfails
  cases hfind : (profileChecks p.limits config.limits).find? LimitCheck.fails with
  | none =>
      have := List.find?_eq_none.mp hfind check hcheck
      exact this (by simpa using hfails)
  | some bad =>
      rw [hfind] at hvalid
      cases hvalid

theorem minInt_nonneg {first second : Int64} (h : ¬ first < 0) (h' : ¬ second < 0) :
    ¬ minInt first second < 0 := by
  unfold minInt
  split_ifs
  · exact h
  · exact h'

/-- No limit on the sessions, streams and dials of a profile is negative. -/
theorem profileLimits_nonneg {config : Config} {p : Profile} (h : p ∈ config.profiles) :
    0 ≤ (config.profileLimits p).maxSessions.toInt ∧
      0 ≤ (config.profileLimits p).maxStreams.toInt ∧
      0 ≤ (config.profileLimits p).maxBackendDialsInFlight.toInt := by
  have hglobal : ∀ value ∈ config.limits.positive, ¬ value < 0 := fun value hv hlt =>
    Int64.lt_irrefl (Int64.lt_trans hlt (Limits.validate_positive config.valid value hv))
  have hgiven : ∀ check ∈ profileChecks p.limits config.limits, ¬ check.value < 0 := by
    intro check hcheck hlt
    have := profileChecks_pass h check hcheck
    simp [LimitCheck.fails, hlt] at this
  have hstreams : ¬ orElse p.limits.maxStreams config.limits.maxStreamsGlobal < 0 := by
    unfold orElse
    split_ifs
    · exact hglobal _ (by simp [Limits.positive])
    · exact hgiven ⟨"max_streams", p.limits.maxStreams, config.limits.maxStreamsGlobal⟩
        (by simp [profileChecks])
  refine ⟨?_, ?_, ?_⟩
  · apply orElse_nonneg
    · exact hgiven ⟨"max_sessions", p.limits.maxSessions, config.limits.maxSessionsGlobal⟩
        (by simp [profileChecks])
    · exact hglobal _ (by simp [Limits.positive])
  · show 0 ≤ (orElse p.limits.maxStreams config.limits.maxStreamsGlobal).toInt
    simpa using Int64.le_iff_toInt_le.mp (Int64.not_lt.mp hstreams)
  · apply orElse_nonneg
    · exact hgiven ⟨"max_backend_dials_in_flight", p.limits.maxBackendDialsInFlight,
        config.limits.maxBackendDialsInFlight⟩ (by simp [profileChecks])
    · exact minInt_nonneg (hglobal _ (by simp [Limits.positive])) hstreams

/-- Nor is the limit on the sessions of an address. -/
theorem maxSessionsPerIP_nonneg (config : Config) : 0 ≤ config.limits.maxSessionsPerIP.toInt := by
  have hvalid := config.valid
  unfold Limits.validate at hvalid
  split_ifs at hvalid with _ _ _ hper _
  have := Int64.le_iff_toInt_le.mp (Int64.not_lt.mp (not_or.mp hper).1)
  rwa [Int64.toInt_zero] at this

end Config

/-! ### What operations do to them -/

namespace Registry

/-- What is entered comes from the configuration and is within its limits. -/
structure Within (config : Config) (r : Registry F) : Prop where
  configured : r.config = config
  offered : ∀ hash e, r.bootstraps.get hash = some e → e.profile ∈ config.profiles
  held : ∀ hash l, r.sessions.get hash = some l →
    l.profile ∈ config.profiles ∧ l.session < r.nextSession
  global : (r.sessions.size : ℤ) ≤ config.limits.maxSessionsGlobal.toInt
  perProfile : ∀ p ∈ config.profiles,
    r.sessionsPerProfile.count p.name ≤ (config.profileLimits p).maxSessions.toInt
  perIP : config.limits.maxSessionsPerIP ≠ 0 →
    ∀ ip, r.sessionsPerIP.count ip ≤ config.limits.maxSessionsPerIP.toInt

variable {drawn : List Bytes} {creations : List Creation} {r r' : Registry F} {hash : Bytes}
  {value : Bootstrap}

/-- Nothing but bootstraps is taken away. -/
structure Forgets (r r' : Registry F) : Prop where
  config : r'.config = r.config
  sessions : r'.sessions = r.sessions
  perIP : r'.sessionsPerIP = r.sessionsPerIP
  perProfile : r'.sessionsPerProfile = r.sessionsPerProfile
  nextSession : r'.nextSession = r.nextSession
  bootstraps : ∀ hash e, r'.bootstraps.get hash = some e → r.bootstraps.get hash = some e

theorem Forgets.refl (r : Registry F) : Forgets r r :=
  ⟨rfl, rfl, rfl, rfl, rfl, fun _ _ h => h⟩

theorem Forgets.trans {r₁ r₂ r₃ : Registry F} (h : Forgets r₁ r₂) (h' : Forgets r₂ r₃) :
    Forgets r₁ r₃ where
  config := h'.config.trans h.config
  sessions := h'.sessions.trans h.sessions
  perIP := h'.perIP.trans h.perIP
  perProfile := h'.perProfile.trans h.perProfile
  nextSession := h'.nextSession.trans h.nextSession
  bootstraps := fun hash e he => h.bootstraps hash e (h'.bootstraps hash e he)

theorem removeBootstrapLocked_forgets (r : Registry F) (hash : Bytes) (value : Bootstrap) :
    Forgets r (r.removeBootstrapLocked hash value) := by
  have hfewer : ∀ hash' e, (r.removeBootstrapLocked hash value).bootstraps.get hash' = some e →
      r.bootstraps.get hash' = some e := by
    intro hash' e he
    rw [(removeBootstrapLocked_bootstraps r hash value).1, Table.get_del] at he
    split_ifs at he
    exact he
  refine ⟨(removeBootstrapLocked_bootstraps r hash value).2, ?_, ?_, ?_, ?_, hfewer⟩ <;>
    · unfold removeBootstrapLocked releaseUnusedBootstrapLocked
      split_ifs <;> rfl

theorem removeBootstraps_forgets (r : Registry F) (gone : Bootstrap → Bool) :
    Forgets r (r.removeBootstraps gone) := by
  apply removeBootstraps_induct (I := fun r' => Forgets r r')
  · exact fun r' hash value _ _ h => h.trans (removeBootstrapLocked_forgets r' hash value)
  · exact .refl r

theorem expire_forgets (r : Registry F) (now : ℤ) :
    Forgets r (r.removeExpiredBootstrapsLocked now) := by
  obtain ⟨hc, hs, hi, hp, hn, hb⟩ := removeBootstraps_forgets r fun value => value.expires < now
  exact ⟨hc, hs, hi, hp, hn, hb⟩

theorem Within.forgets (h : Within config r) (hf : Forgets r r') : Within config r' where
  configured := hf.config.trans h.configured
  offered := fun hash e he => h.offered hash e (hf.bootstraps hash e he)
  held := by rw [hf.sessions, hf.nextSession]; exact h.held
  global := by rw [hf.sessions]; exact h.global
  perProfile := by rw [hf.perProfile]; exact h.perProfile
  perIP := by rw [hf.perIP]; exact h.perIP

/-- A bootstrap is put under a hash, and nothing else changes. -/
theorem Within.put (h : Within config r) (hvalue : value.profile ∈ config.profiles)
    (hconfig : r'.config = r.config) (hboot : r'.bootstraps = r.bootstraps.put hash value)
    (hsessions : r'.sessions = r.sessions) (hperIP : r'.sessionsPerIP = r.sessionsPerIP)
    (hperProfile : r'.sessionsPerProfile = r.sessionsPerProfile)
    (hnext : r'.nextSession = r.nextSession) : Within config r' where
  configured := hconfig.trans h.configured
  offered := by
    intro hash' e he
    rw [hboot, Table.get_put] at he
    split_ifs at he
    · cases he
      exact hvalue
    · exact h.offered hash' e he
  held := by rw [hsessions, hnext]; exact h.held
  global := by rw [hsessions]; exact h.global
  perProfile := by rw [hperProfile]; exact h.perProfile
  perIP := by rw [hperIP]; exact h.perIP

theorem matchCapability_mem {value : Bytes} {p : Profile} (h : r.matchCapability value = some p) :
    p ∈ r.config.profiles := by
  unfold matchCapability at h
  split_ifs at h
  exact List.mem_reverse.mp (List.mem_of_find?_eq_some h)

/-- A session that is entered had room in every limit. -/
theorem Within.consume (h : Within config r) (hnames : (config.profiles.map Profile.name).Nodup)
    (hget : r.bootstraps.get hash = some value) {clientIP : String}
    (hlimit : ¬ r.sessionLimitReached value.profile clientIP) {input : Bytes}
    (hnone : r.sessions.get (sha256 input) = none) (digest : Bytes) :
    Within config (r.consume sha256 hash value clientIP digest input).1 := by
  have hoffered := h.offered _ _ hget
  unfold sessionLimitReached at hlimit
  rw [h.configured] at hlimit
  simp only [not_or, not_and, not_le] at hlimit
  obtain ⟨-, hglobal, hprofile, hip⟩ := hlimit
  have hentered : Within config { r with
      sessions := r.sessions.put (sha256 input) ⟨r.nextSession, clientIP, value.profile⟩
      sessionsPerIP := r.sessionsPerIP.increment clientIP
      sessionsPerProfile := r.sessionsPerProfile.increment value.profile.name
      nextSession := r.nextSession + 1 } := by
    refine ⟨h.configured, h.offered, ?_, ?_, ?_, ?_⟩
    · intro hash' l hl
      change (r.sessions.put _ _).get hash' = some l at hl
      rw [Table.get_put] at hl
      split_ifs at hl
      · cases hl
        exact ⟨hoffered, Nat.lt_succ_self _⟩
      · exact ⟨(h.held _ _ hl).1, Nat.lt_succ_of_lt (h.held _ _ hl).2⟩
    · show ((r.sessions.put _ _).size : ℤ) ≤ _
      rw [Table.size_put_of_none _ _ hnone]
      push_cast
      omega
    · intro p hp
      show (r.sessionsPerProfile.increment value.profile.name).count p.name ≤ _
      rw [Table.count_increment]
      split_ifs with hname
      · have : value.profile = p := List.inj_on_of_nodup_map hnames hoffered hp hname
        subst this
        omega
      · rw [zero_add]
        exact h.perProfile p hp
    · intro hper ip
      show (r.sessionsPerIP.increment clientIP).count ip ≤ _
      rw [Table.count_increment]
      split_ifs with heq
      · subst heq
        have := hip hper
        omega
      · rw [zero_add]
        exact h.perIP hper ip
  have hvalue : (value.consumed digest (newToken sha256 input).1 r.nextSession).profile ∈
      config.profiles := hoffered
  unfold Registry.consume releaseUnusedBootstrapLocked
  dsimp only
  split_ifs
  · exact hentered.put hvalue rfl rfl rfl rfl rfl rfl
  · exact hentered.put hvalue rfl rfl rfl rfl rfl rfl

/-- A session that is dropped makes room. -/
theorem Within.dropSession (h : Within config r) (hl : Ledger sha256 drawn creations r)
    {live : LiveSession} (hget : r.sessions.get hash = some live) (now : ℤ) (order : List Bytes) :
    Within config (r.dropSession hash live now order) := by
  have hgone : ∀ n : ℤ, 0 ≤ n → decide (n = 0) = true → n = 0 := by simp
  refine ⟨h.configured, h.offered, ?_, ?_, ?_, ?_⟩
  · intro hash' l hl'
    change (r.sessions.del hash).get hash' = some l at hl'
    rw [Table.get_del] at hl'
    split_ifs at hl'
    exact h.held _ _ hl'
  · have hle : (r.sessions.del hash).size ≤ r.sessions.size := by
      apply Table.size_le_of_keys
      intro k hk
      rw [Table.get_del] at hk
      split_ifs at hk
      · exact absurd rfl hk
      · exact hk
    have := h.global
    show ((r.sessions.del hash).size : ℤ) ≤ _
    omega
  · intro p hp
    have hpos : 1 ≤ r.sessionsPerProfile.count live.profile.name := by
      rw [hl.perProfile]
      exact Table.countP_pos _ _ hget (by simp)
    exact (Table.count_decrement_le hgone _ hpos _).trans (h.perProfile p hp)
  · intro hper ip
    have hpos : 1 ≤ r.sessionsPerIP.count live.clientIP := by
      rw [hl.perIP]
      exact Table.countP_pos _ _ hget (by simp)
    exact (Table.count_decrement_le hgone _ hpos _).trans (h.perIP hper ip)

theorem Within.sessionFinished (h : Within config r) (hl : Ledger sha256 drawn creations r)
    (session : ℕ) (now : ℤ) (order : List Bytes) :
    Within config (r.sessionFinished session now order) ∧
      (r.sessionFinished session now order).nextSession = r.nextSession := by
  have hremove : ∀ r₁ : Registry F, Within config r₁ → r₁.nextSession = r.nextSession →
      Within config { r₁.removeBootstraps (fun current => current.session = some session) with
        sessionsClosed := (r₁.removeBootstraps fun current =>
          current.session = some session).sessionsClosed + 1 } ∧
      (r₁.removeBootstraps fun current => current.session = some session).nextSession =
        r.nextSession := by
    intro r₁ h₁ hnext
    obtain ⟨hc, hs, hi, hp, hn, hb⟩ :=
      removeBootstraps_forgets r₁ fun current => current.session = some session
    exact ⟨h₁.forgets ⟨hc, hs, hi, hp, hn, hb⟩, hn.trans hnext⟩
  unfold Registry.sessionFinished
  cases hfind : r.sessions.entries.find? fun e => e.2.session = session with
  | none => exact hremove r h rfl
  | some e =>
      have hget := Table.get_of_mem _ (List.mem_of_find?_eq_some hfind)
      exact hremove _ (h.dropSession hl hget now order) rfl

section
variable [Float64 F]

theorem Within.addBootstrap (sha256 : Bytes → Bytes) (h : Within config r) {profile : Profile}
    (hprofile : profile ∈ config.profiles) (clientIP : String) (now : ℤ) (input : Bytes)
    (order : List Bytes) :
    Within config (r.addBootstrap sha256 profile clientIP now input order).1 ∧
      (r.addBootstrap sha256 profile clientIP now input order).1.nextSession = r.nextSession := by
  have hexpired := expire_forgets r now
  unfold Registry.addBootstrap
  dsimp only
  generalize r.removeExpiredBootstrapsLocked now = r₁ at hexpired
  have h₁ : ∀ r₂ : Registry F, Forgets r₁ r₂ → Within config r₂ ∧ r₂.nextSession = r.nextSession :=
    fun r₂ hf => ⟨h.forgets (hexpired.trans hf), (hexpired.trans hf).nextSession⟩
  have hsame : ∀ rate hits, Forgets r₁ { r₁ with bootstrapRate := rate, limitHits := hits } :=
    fun _ _ => ⟨rfl, rfl, rfl, rfl, rfl, fun _ _ he => he⟩
  by_cases hclosed : r.closed = true
  · rw [if_pos hclosed]
    exact ⟨h, rfl⟩
  rw [if_neg hclosed]
  by_cases hip : r.config.limits.maxBootstrapsPerIP ≠ 0 ∧
      r.config.limits.maxBootstrapsPerIP.toInt ≤ r₁.bootstrapsPerIP.count clientIP
  · rw [if_pos hip]
    exact h₁ _ (hsame r₁.bootstrapRate _)
  rw [if_neg hip]
  generalize takeRate r₁.bootstrapRate now r.config.limits.newBootstrapsPerMinute
    r.config.limits.newBootstrapsBurst = rate
  by_cases hrate : rate.2 = false
  · rw [if_pos hrate]
    exact h₁ _ (hsame _ _)
  rw [if_neg hrate]
  have hissue : ∀ r₂ : Registry F, Forgets r₁ r₂ → Within config { r₂ with
      bootstraps := r₂.bootstraps.put (sha256 input) {
        expires := now + r₂.config.bootstrapLifetime
        profile
        issuanceIP := clientIP }
      bootstrapsPerIP := r₂.bootstrapsPerIP.increment clientIP } ∧
      r₂.nextSession = r.nextSession := by
    intro r₂ hf
    exact ⟨(h₁ r₂ hf).1.put hprofile rfl rfl rfl rfl rfl rfl, (h₁ r₂ hf).2⟩
  by_cases hfull : r.config.limits.maxBootstrapsGlobal.toInt ≤ r₁.bootstraps.size
  · rw [if_pos hfull]
    unfold evictOldestUnusedBootstrapLocked
    cases ({ r₁ with bootstrapRate := rate.1 } : Registry F).oldestUnused order with
    | none => exact h₁ _ (hsame _ _)
    | some oldest =>
        exact hissue _ ((hsame rate.1 r₁.limitHits).trans (removeBootstrapLocked_forgets _ _ _))
  · rw [if_neg hfull]
    exact hissue _ (hsame rate.1 r₁.limitHits)

/-- One operation keeps what is entered within the limits. -/
theorem Within.after {R : Run F} (h : Within config R.registry)
    (hl : Ledger sha256 R.drawn R.creations R.registry) (hsha : TellsTokensApart sha256)
    (hnames : (config.profiles.map Profile.name).Nodup) (op : Op)
    (hfresh : ∀ x ∈ op.random, x.length = 32 ∧ x ∉ R.drawn) :
    Within config (R.after sha256 op).registry ∧
      R.registry.nextSession ≤ (R.after sha256 op).registry.nextSession := by
  unfold Run.after
  cases op with
  | issueBootstrap profile clientIP now random order =>
      show Within config (R.registry.issueBootstrap sha256 profile clientIP now random order).1 ∧
        R.registry.nextSession ≤ (R.registry.issueBootstrap sha256 profile clientIP now random
          order).1.nextSession
      unfold issueBootstrap
      cases hmatch : profile.bind fun p => R.registry.matchCapability p.capability with
      | none => exact ⟨h, le_rfl⟩
      | some p =>
          cases random with
          | none => exact ⟨h, le_rfl⟩
          | some input =>
              obtain ⟨q, -, hq⟩ := Option.bind_eq_some_iff.mp hmatch
              have hmem := matchCapability_mem hq
              rw [h.configured] at hmem
              have hadd := h.addBootstrap sha256 hmem clientIP now input order
              exact ⟨hadd.1, hadd.2.ge⟩
  | create token clientIP body now random =>
      show Within config (R.registry.create sha256 token clientIP body now random).1 ∧
        R.registry.nextSession ≤
          (R.registry.create sha256 token clientIP body now random).1.nextSession
      have hsame : ∀ rate rates hits, Within config { R.registry with
          sessionRate := rate, profileSessionRates := rates, limitHits := hits } :=
        fun _ _ _ => h.forgets ⟨rfl, rfl, rfl, rfl, rfl, fun _ _ he => he⟩
      rcases @create_cases F sha256 _ R.registry token clientIP body now random with
        ⟨e, -, hits, heq⟩ | ⟨rate, rates, heq⟩ | ⟨result, heq⟩ |
        ⟨hash, entry, rate, rates, input, -, -, hget, -, hlimit, rfl, heq⟩
      · rw [heq]
        exact ⟨hsame R.registry.sessionRate R.registry.profileSessionRates hits, le_rfl⟩
      · rw [heq]
        exact ⟨hsame rate rates R.registry.limitHits, le_rfl⟩
      · rw [heq]
        exact ⟨h, le_rfl⟩
      · obtain ⟨hlength, hnew⟩ := hfresh input rfl
        obtain ⟨-, hnone, -⟩ := hl.fresh hsha hlength hnew
        rw [heq]
        refine ⟨(hsame rate rates R.registry.limitHits).consume hnames hget hlimit hnone _, ?_⟩
        exact Nat.le_succ _
  | hasBootstrap token now => exact ⟨h, le_rfl⟩
  | expire now =>
      have hf := expire_forgets R.registry now
      exact ⟨h.forgets hf, hf.nextSession.ge⟩
  | sessionFinished session now order =>
      have hfinished := h.sessionFinished hl session now order
      exact ⟨hfinished.1, hfinished.2.ge⟩
  | shutdown => exact ⟨h.forgets ⟨rfl, rfl, rfl, rfl, rfl, fun _ _ he => he⟩, le_rfl⟩

theorem Within.start (config : Config) : Within config (newRegistry (F := F) config) := by
  have hglobal := Config.Limits.validate_positive config.valid config.limits.maxSessionsGlobal
    (by simp [Config.Limits.positive])
  refine ⟨rfl, ?_, ?_, ?_, ?_, ?_⟩
  · intro hash e he
    cases he
  · intro hash l hl
    cases hl
  · have := Int64.lt_iff_toInt_lt.mp hglobal
    rw [Int64.toInt_zero] at this
    exact this.le
  · exact fun p hp => (Config.profileLimits_nonneg hp).1
  · intro _ ip
    exact Config.maxSessionsPerIP_nonneg config

/-- What is entered stays within the limits throughout a run. -/
theorem Reachable.within {R : Run F} (hsha : TellsTokensApart sha256)
    (hnames : (config.profiles.map Profile.name).Nodup) (h : Reachable sha256 config R) :
    Within config R.registry := by
  induction h with
  | start => exact .start config
  | step op hfresh hr ih => exact (ih.after (hr.ledger hsha) hsha hnames op hfresh).1

end

end Registry

end TproxyServer
