import TproxyServer.Registry
import TproxyServer.TokenBucket

/-! # The rate of admissions

`allowProfileRateLocked` over any sequence of calls, with exact arithmetic in place of
`float64`.  The manager calls it for sessions (`Create`) and for streams (`acquireStream`),
each with its own buckets; the rates of a profile depend on the profile alone. -/

namespace TproxyServer

open TokenBucket

/-- A reading of the clock in seconds. -/
def inSeconds (now : ℤ) : ℚ := now / 10 ^ 9

/-- The rates `allowProfileRateLocked` is called with; none of them is negative. -/
structure Rates where
  globalPerMinute : Int64
  globalBurst : Int64
  profilePerMinute : String → Int64
  profileBurst : String → Int64
  globalPerMinute_nonneg : 0 ≤ globalPerMinute.toInt
  profilePerMinute_nonneg : ∀ profile, 0 ≤ (profilePerMinute profile).toInt

/-! ### The rates of a configuration -/

namespace Config

theorem limits_nonneg (c : Config) {value : Int64} (h : value ∈ c.limits.positive) :
    0 ≤ value.toInt := by
  have hpos := Int64.lt_iff_toInt_lt.mp (Limits.validate_positive c.valid value h)
  rw [Int64.toInt_zero] at hpos
  exact hpos.le

/-- A limit of a profile is what is given for it, or that of the process. -/
theorem orElse_check_nonneg (c : Config) {p : Profile} (hp : p ∈ c.profiles) {name : String}
    {value limit : Int64} (hcheck : ⟨name, value, limit⟩ ∈ profileChecks p.limits c.limits)
    (hlimit : limit ∈ c.limits.positive) : 0 ≤ (orElse value limit).toInt := by
  have hvalid := c.profilesValid p hp
  unfold validateProfileLimits at hvalid
  unfold orElse
  split_ifs
  · exact c.limits_nonneg hlimit
  · by_contra hneg
    cases hfind : (profileChecks p.limits c.limits).find? LimitCheck.fails with
    | none =>
        apply List.find?_eq_none.mp hfind _ hcheck
        have hlt : value < 0 := by
          rw [Int64.lt_iff_toInt_lt, Int64.toInt_zero]
          omega
        simp [LimitCheck.fails, hlt]
    | some bad =>
        rw [hfind] at hvalid
        cases hvalid

/-- A limit of the profile of this name. -/
def ofProfile (c : Config) (limit : ProfileLimits → Int64) (fallback : Int64) (name : String) :
    Int64 :=
  match c.profiles.find? fun p => p.name = name with
  | some p => limit (c.profileLimits p)
  | none => fallback

theorem ofProfile_nonneg (c : Config) {limit : ProfileLimits → Int64} {fallback : Int64}
    (hfallback : fallback ∈ c.limits.positive)
    (hlimit : ∀ p ∈ c.profiles, 0 ≤ (limit (c.profileLimits p)).toInt) (name : String) :
    0 ≤ (c.ofProfile limit fallback name).toInt := by
  unfold ofProfile
  cases h : c.profiles.find? fun p => p.name = name with
  | none => exact c.limits_nonneg hfallback
  | some p => exact hlimit p (List.mem_of_find?_eq_some h)

theorem newSessionsPerMinute_nonneg (c : Config) {p : Profile} (hp : p ∈ c.profiles) :
    0 ≤ (c.profileLimits p).newSessionsPerMinute.toInt := by
  have hcheck : ⟨"new_sessions_per_minute", p.limits.newSessionsPerMinute,
      c.limits.newSessionsPerMinute⟩ ∈ profileChecks p.limits c.limits := by
    simp [profileChecks]
  exact c.orElse_check_nonneg hp hcheck (by simp [Limits.positive])

theorem newStreamsPerMinute_nonneg (c : Config) {p : Profile} (hp : p ∈ c.profiles) :
    0 ≤ (c.profileLimits p).newStreamsPerMinute.toInt := by
  have hcheck : ⟨"new_streams_per_minute", p.limits.newStreamsPerMinute,
      c.limits.newStreamsPerMinute⟩ ∈ profileChecks p.limits c.limits := by
    simp [profileChecks]
  exact c.orElse_check_nonneg hp hcheck (by simp [Limits.positive])

/-- The rates at which `Create` admits sessions. -/
def sessionRates (c : Config) : Rates where
  globalPerMinute := c.limits.newSessionsPerMinute
  globalBurst := c.limits.newSessionsBurst
  profilePerMinute := c.ofProfile ProfileLimits.newSessionsPerMinute c.limits.newSessionsPerMinute
  profileBurst := c.ofProfile ProfileLimits.newSessionsBurst c.limits.newSessionsBurst
  globalPerMinute_nonneg := c.limits_nonneg (by simp [Limits.positive])
  profilePerMinute_nonneg := c.ofProfile_nonneg (by simp [Limits.positive])
    fun _ hp => c.newSessionsPerMinute_nonneg hp

/-- The rates at which `acquireStream` admits streams. -/
def streamRates (c : Config) : Rates where
  globalPerMinute := c.limits.newStreamsPerMinute
  globalBurst := c.limits.newStreamsBurst
  profilePerMinute := c.ofProfile ProfileLimits.newStreamsPerMinute c.limits.newStreamsPerMinute
  profileBurst := c.ofProfile ProfileLimits.newStreamsBurst c.limits.newStreamsBurst
  globalPerMinute_nonneg := c.limits_nonneg (by simp [Limits.positive])
  profilePerMinute_nonneg := c.ofProfile_nonneg (by simp [Limits.positive])
    fun _ hp => c.newStreamsPerMinute_nonneg hp

end Config

/-! ### A sequence of calls -/

/-- A call of `allowProfileRateLocked`. -/
structure RateCall where
  profile : String
  now : ℤ

/-- The buckets after some calls, with what was decided and who was admitted. -/
structure RateLog where
  global : RateState ℚ := .zero
  profiles : Table String (RateState ℚ) := .nil
  decisions : List Bool := []
  admitted : List RateCall := []

/-- One more call. -/
def RateLog.call (rates : Rates) (l : RateLog) (c : RateCall) : RateLog :=
  match allowProfileRate l.global l.profiles c.profile c.now rates.globalPerMinute
      rates.globalBurst (rates.profilePerMinute c.profile) (rates.profileBurst c.profile) with
  | none => { l with decisions := l.decisions ++ [false] }
  | some (global, profiles) =>
      { global, profiles, decisions := l.decisions ++ [true], admitted := l.admitted ++ [c] }

/-- All the calls, one after the other. -/
def rateLog (rates : Rates) (calls : List RateCall) : RateLog :=
  calls.foldl (RateLog.call rates) {}

/-! ### Reference buckets -/

/-- A bucket that is refilled and stored at every call. -/
structure Bucket where
  tokens : ℚ
  last : ℤ

def Bucket.refill (b : Bucket) (now : ℤ) (perMinute burst : Int64) : Bucket where
  tokens := TokenBucket.refill burst.toInt (perMinute.toInt / 60) b.tokens
    (inSeconds now - inSeconds b.last)
  last := now

def Bucket.debit (b : Bucket) : Bucket := { b with tokens := b.tokens - 1 }

/-- The reference: one bucket for all, and one for each profile. -/
structure Reference where
  global : Bucket
  profiles : String → Bucket
  decisions : List Bool := []

/-- Every bucket is full. -/
def Reference.start (rates : Rates) (now : ℤ) : Reference where
  global := ⟨rates.globalBurst.toInt, now⟩
  profiles profile := ⟨(rates.profileBurst profile).toInt, now⟩

/-- The pair of buckets of the call is refilled and stored; both are debited if both have a
token. -/
def Reference.call (rates : Rates) (r : Reference) (c : RateCall) : Reference :=
  let global := r.global.refill c.now rates.globalPerMinute rates.globalBurst
  let profile := (r.profiles c.profile).refill c.now (rates.profilePerMinute c.profile)
    (rates.profileBurst c.profile)
  if 1 ≤ global.tokens ∧ 1 ≤ profile.tokens then
    { global := global.debit
      profiles := Function.update r.profiles c.profile profile.debit
      decisions := r.decisions ++ [true] }
  else
    { global
      profiles := Function.update r.profiles c.profile profile
      decisions := r.decisions ++ [false] }

/-! ### Exact buckets -/

section
variable {rates : Rates} {state : RateState ℚ} {perMinute burst : Int64} {now last : ℤ}
  {times : List ℤ} {l : RateLog} {c : RateCall}

theorem refilled_first (h : state.last = none) :
    state.refilled now perMinute burst = burst.toInt := by
  unfold RateState.refilled
  rw [h]
  rfl

theorem refilled_again (h : state.last = some last) :
    state.refilled now perMinute burst =
      TokenBucket.refill (burst.toInt : ℚ) (perMinute.toInt / 60) state.tokens
        (inSeconds now - inSeconds last) := by
  have hgain : ((now - last : ℤ) : ℚ) / 10 ^ 9 * ((perMinute.toInt : ℚ) / (60 : ℤ)) =
      (perMinute.toInt : ℚ) / 60 * (inSeconds now - inSeconds last) := by
    unfold inSeconds
    push_cast
    ring
  unfold RateState.refilled TokenBucket.refill
  rw [h]
  show (if decide ((burst.toInt : ℚ) < state.tokens + ((now - last : ℤ) : ℚ) / 10 ^ 9 *
    ((perMinute.toInt : ℚ) / (60 : ℤ))) = true then (burst.toInt : ℚ)
    else state.tokens + ((now - last : ℤ) : ℚ) / 10 ^ 9 * ((perMinute.toInt : ℚ) / (60 : ℤ))) = _
  rw [hgain]
  simp only [decide_eq_true_eq]
  split_ifs with hfull
  · exact (min_eq_left hfull.le).symm
  · exact (min_eq_right (not_lt.mp hfull)).symm

theorem takeRate_eq : takeRate state now perMinute burst =
    if state.refilled now perMinute burst < 1 then
      (⟨state.refilled now perMinute burst, some now⟩, false)
    else (⟨state.refilled now perMinute burst - 1, some now⟩, true) := by
  unfold takeRate
  show (if decide (state.refilled now perMinute burst < ((1 : ℤ) : ℚ)) = true then _ else
    ((⟨state.refilled now perMinute burst - ((1 : ℤ) : ℚ), some now⟩ : RateState ℚ), true)) = _
  simp only [Int.cast_one, decide_eq_true_eq]

/-- Both buckets have a token and are debited, or nothing happens. -/
theorem call_eq (rates : Rates) (l : RateLog) (c : RateCall) :
    l.call rates c =
      if 1 ≤ l.global.refilled c.now rates.globalPerMinute rates.globalBurst ∧
          1 ≤ ((l.profiles.get c.profile).getD .zero).refilled c.now
            (rates.profilePerMinute c.profile) (rates.profileBurst c.profile) then
        { global := ⟨l.global.refilled c.now rates.globalPerMinute rates.globalBurst - 1,
            some c.now⟩
          profiles := l.profiles.put c.profile
            ⟨((l.profiles.get c.profile).getD .zero).refilled c.now
              (rates.profilePerMinute c.profile) (rates.profileBurst c.profile) - 1, some c.now⟩
          decisions := l.decisions ++ [true]
          admitted := l.admitted ++ [c] }
      else { l with decisions := l.decisions ++ [false] } := by
  unfold RateLog.call allowProfileRate
  rw [takeRate_eq, takeRate_eq]
  by_cases hglobal : l.global.refilled c.now rates.globalPerMinute rates.globalBurst < 1
  · simp [hglobal, not_le.mpr hglobal]
  · by_cases hprofile : ((l.profiles.get c.profile).getD .zero).refilled c.now
        (rates.profilePerMinute c.profile) (rates.profileBurst c.profile) < 1
    · simp [hglobal, hprofile, not_le.mpr hprofile]
    · simp [hglobal, hprofile, not_lt.mp hglobal, not_lt.mp hprofile]

/-! ### How many are admitted -/

/-- The bucket paid for what was admitted at these readings. -/
def Account (perMinute burst : Int64) (state : RateState ℚ) (times : List ℤ) : Prop :=
  times = [] ∧ state.last = none ∨
    ∃ last, state.last = some last ∧ Spent (burst.toInt : ℚ) (perMinute.toInt / 60)
      state.tokens (inSeconds last) (times.map inSeconds)

theorem Account.take (h : Account perMinute burst state times)
    (hone : 1 ≤ state.refilled now perMinute burst) :
    Account perMinute burst ⟨state.refilled now perMinute burst - 1, some now⟩
      (times ++ [now]) := by
  refine .inr ⟨now, rfl, ?_⟩
  rw [List.map_append]
  rcases h with ⟨rfl, hlast⟩ | ⟨last, hlast, hspent⟩
  · rw [refilled_first hlast] at hone ⊢
    exact .first hone
  · rw [refilled_again hlast] at hone ⊢
    exact hspent.take hone

/-- What a bucket can pay for between two admissions. -/
theorem Account.bound (h : Account perMinute burst state times) {i j : ℕ} {s t : ℤ} (hij : i ≤ j)
    (hs : times[i]? = some s) (ht : times[j]? = some t) :
    (j : ℚ) - i + 1 ≤ burst.toInt + perMinute.toInt * (inSeconds t - inSeconds s) / 60 := by
  rcases h with ⟨rfl, -⟩ | ⟨last, -, hspent⟩
  · cases hs
  · have hmap : ∀ {k : ℕ} {r : ℤ}, times[k]? = some r →
        (times.map inSeconds)[k]? = some (inSeconds r) := by
      intro k r hr
      rw [List.getElem?_map, hr]
      rfl
    have := hspent.bound i j _ _ hij (hmap hs) (hmap ht)
    linarith

/-- The accounts of all buckets. -/
structure Accounts (rates : Rates) (l : RateLog) : Prop where
  global : Account rates.globalPerMinute rates.globalBurst l.global (l.admitted.map RateCall.now)
  profiles : ∀ profile, Account (rates.profilePerMinute profile) (rates.profileBurst profile)
    ((l.profiles.get profile).getD .zero)
    ((l.admitted.filter fun c => c.profile = profile).map RateCall.now)

theorem Accounts.call (h : Accounts rates l) (c : RateCall) : Accounts rates (l.call rates c) := by
  rw [call_eq]
  split_ifs with hboth
  · refine ⟨?_, fun profile => ?_⟩
    · rw [List.map_append]
      exact h.global.take hboth.1
    · dsimp only
      rw [List.filter_append, Table.get_put]
      by_cases hprofile : profile = c.profile
      · subst hprofile
        rw [if_pos rfl, List.filter_cons_of_pos (by simp), List.filter_nil, List.map_append]
        exact (h.profiles c.profile).take hboth.2
      · rw [if_neg hprofile, List.filter_cons_of_neg (by simpa using Ne.symm hprofile),
          List.filter_nil, List.append_nil]
        exact h.profiles profile
  · exact ⟨h.global, h.profiles⟩

theorem rateLog_accounts (rates : Rates) (calls : List RateCall) :
    Accounts rates (rateLog rates calls) := by
  have hall : ∀ (l : RateLog), Accounts rates l →
      Accounts rates (calls.foldl (RateLog.call rates) l) := by
    induction calls with
    | nil => exact fun l h => h
    | cons c rest ih => exact fun l h => ih _ (h.call c)
  exact hall {} ⟨.inl ⟨rfl, rfl⟩, fun _ => .inl ⟨rfl, rfl⟩⟩

/-! ### What the reference decides -/

/-- From now on the bucket stands for the reference, however late it is asked. -/
def Agree (perMinute burst : Int64) (state : RateState ℚ) (b : Bucket) : Prop :=
  ∀ now, b.last ≤ now → state.refilled now perMinute burst = (b.refill now perMinute burst).tokens

variable {b : Bucket} {r : Reference} {later : ℤ}

theorem gain_nonneg (hrate : 0 ≤ perMinute.toInt) (h : now ≤ later) :
    0 ≤ (perMinute.toInt : ℚ) / 60 * (inSeconds later - inSeconds now) := by
  have hseconds : inSeconds now ≤ inSeconds later := by
    unfold inSeconds
    gcongr
  have hrate' : (0 : ℚ) ≤ perMinute.toInt := by exact_mod_cast hrate
  exact mul_nonneg (by positivity) (by linarith)

theorem Agree.start (hrate : 0 ≤ perMinute.toInt) (now : ℤ) :
    Agree perMinute burst .zero ⟨burst.toInt, now⟩ := by
  intro later hlater
  rw [refilled_first rfl]
  exact (refill_full (gain_nonneg hrate hlater)).symm

/-- A refusal leaves the bucket, and refills the reference. -/
theorem Agree.refill (h : Agree perMinute burst state b) (hrate : 0 ≤ perMinute.toInt)
    (hnow : b.last ≤ now) : Agree perMinute burst state (b.refill now perMinute burst) := by
  intro later hlater
  have hnow' : now ≤ later := hlater
  rw [h later (hnow.trans hnow')]
  unfold Bucket.refill
  dsimp only
  rw [refill_refill (gain_nonneg hrate hnow')]
  congr 1
  ring

theorem Agree.debit (h : Agree perMinute burst state b) (hnow : b.last ≤ now) :
    Agree perMinute burst ⟨state.refilled now perMinute burst - 1, some now⟩
      (b.refill now perMinute burst).debit := by
  intro later _
  rw [refilled_again rfl, h now hnow]
  rfl

/-- The buckets stand for the reference, which was last asked at `now`. -/
structure Follows (rates : Rates) (l : RateLog) (r : Reference) (now : ℤ) : Prop where
  decisions : l.decisions = r.decisions
  global : Agree rates.globalPerMinute rates.globalBurst l.global r.global
  profiles : ∀ profile, Agree (rates.profilePerMinute profile) (rates.profileBurst profile)
    ((l.profiles.get profile).getD .zero) (r.profiles profile)
  globalLast : r.global.last ≤ now
  profilesLast : ∀ profile, (r.profiles profile).last ≤ now

theorem Follows.call (h : Follows rates l r now) (hc : now ≤ c.now) :
    Follows rates (l.call rates c) (r.call rates c) c.now := by
  have hglobal := h.globalLast.trans hc
  have hprofile := (h.profilesLast c.profile).trans hc
  rw [call_eq, h.global c.now hglobal, h.profiles c.profile c.now hprofile]
  unfold Reference.call
  dsimp only
  split_ifs with hboth
  · refine ⟨by rw [h.decisions], ?_, fun profile => ?_, le_rfl, fun profile => ?_⟩
    · have hdebit := h.global.debit hglobal
      rwa [h.global c.now hglobal] at hdebit
    · dsimp only
      rw [Table.get_put, Function.update_apply]
      split_ifs with heq
      · subst heq
        have hdebit := (h.profiles c.profile).debit hprofile
        rwa [h.profiles c.profile c.now hprofile] at hdebit
      · exact h.profiles profile
    · dsimp only
      rw [Function.update_apply]
      split_ifs
      · exact le_rfl
      · exact (h.profilesLast profile).trans hc
  · refine ⟨by rw [h.decisions], h.global.refill rates.globalPerMinute_nonneg hglobal,
      fun profile => ?_, le_rfl, fun profile => ?_⟩
    · dsimp only
      rw [Function.update_apply]
      split_ifs with heq
      · subst heq
        exact (h.profiles c.profile).refill (rates.profilePerMinute_nonneg c.profile) hprofile
      · exact h.profiles profile
    · dsimp only
      rw [Function.update_apply]
      split_ifs
      · exact le_rfl
      · exact (h.profilesLast profile).trans hc

theorem Follows.run {calls : List RateCall} (h : Follows rates l r now)
    (hstart : ∀ c ∈ calls, now ≤ c.now)
    (hsorted : calls.Pairwise fun c e => c.now ≤ e.now) :
    (calls.foldl (RateLog.call rates) l).decisions =
      (calls.foldl (Reference.call rates) r).decisions := by
  induction calls generalizing l r now with
  | nil => exact h.decisions
  | cons c rest ih =>
      obtain ⟨hhead, hrest⟩ := List.pairwise_cons.mp hsorted
      exact ih (h.call (hstart c (by simp))) hhead hrest

end

/-- **The bound of the token buckets.**  Whatever the clock reads, the admissions from one to
another number no more than a burst and what the rate allows in between, in total and for
each profile; and while the clock does not go back, every decision is that of the reference. -/
theorem admissions_bounded (rates : Rates) (calls : List RateCall) :
    (∀ (i j : ℕ) (c e : RateCall), i ≤ j → (rateLog rates calls).admitted[i]? = some c →
      (rateLog rates calls).admitted[j]? = some e →
      (j : ℚ) - i + 1 ≤ rates.globalBurst.toInt +
        rates.globalPerMinute.toInt * (inSeconds e.now - inSeconds c.now) / 60) ∧
    (∀ (profile : String) (i j : ℕ) (c e : RateCall), i ≤ j →
      ((rateLog rates calls).admitted.filter fun c => c.profile = profile)[i]? = some c →
      ((rateLog rates calls).admitted.filter fun c => c.profile = profile)[j]? = some e →
      (j : ℚ) - i + 1 ≤ (rates.profileBurst profile).toInt +
        (rates.profilePerMinute profile).toInt * (inSeconds e.now - inSeconds c.now) / 60) ∧
    ∀ start : ℤ, (∀ c ∈ calls, start ≤ c.now) → (calls.Pairwise fun c e => c.now ≤ e.now) →
      (rateLog rates calls).decisions =
        (calls.foldl (Reference.call rates) (.start rates start)).decisions := by
  have haccounts := rateLog_accounts rates calls
  have hnow : ∀ {l : List RateCall} {k : ℕ} {c : RateCall}, l[k]? = some c →
      (l.map RateCall.now)[k]? = some c.now := by
    intro l k c hc
    rw [List.getElem?_map, hc]
    rfl
  refine ⟨fun i j c e hij hc he => ?_, fun profile i j c e hij hc he => ?_, fun start => ?_⟩
  · exact haccounts.global.bound hij (hnow hc) (hnow he)
  · exact (haccounts.profiles profile).bound hij (hnow hc) (hnow he)
  · apply Follows.run
    exact ⟨rfl, .start rates.globalPerMinute_nonneg start,
      fun profile => .start (rates.profilePerMinute_nonneg profile) start, le_rfl,
      fun _ => le_rfl⟩

/-- Sessions and streams get one token a second, with room for two. -/
def twoAtOnce : Config where
  limits := { Config.defaults with newSessionsPerMinute := 60, newSessionsBurst := 2,
                                   newStreamsPerMinute := 60, newStreamsBurst := 2 }
  bootstrapLifetime := 120 * 10 ^ 9
  profiles := [{ name := "a", capability := zeroDigest }, { name := "b", capability := zeroDigest }]
  valid := by decide +kernel
  profilesValid := by decide +kernel
  budgetValid := by decide +kernel

/-- Three calls at once, of which the third is refused, and one a second later. -/
theorem admissions_bounded_burst :
    let calls : List RateCall := [⟨"a", 0⟩, ⟨"b", 0⟩, ⟨"a", 0⟩, ⟨"a", 1000000000⟩]
    ∀ rates ∈ [twoAtOnce.sessionRates, twoAtOnce.streamRates],
      (rateLog rates calls).decisions = [true, true, false, true] ∧
        ((2 : ℕ) : ℚ) - ((0 : ℕ) : ℚ) + 1 ≤ (rates.globalBurst.toInt : ℚ) +
          rates.globalPerMinute.toInt * (inSeconds 1000000000 - inSeconds 0) / 60 := by
  intro calls rates hrates
  have hlog : (rateLog rates calls).decisions = [true, true, false, true] ∧
      (rateLog rates calls).admitted.map (fun c => (c.profile, c.now)) =
        [("a", 0), ("b", 0), ("a", 1000000000)] := by
    rcases List.mem_pair.mp hrates with rfl | rfl <;> decide +kernel
  have hget : ∀ k : ℕ, (((rateLog rates calls).admitted[k]?).map
      fun c => (c.profile, c.now)) = [("a", 0), ("b", 0), ("a", 1000000000)][k]? := by
    intro k
    rw [← List.getElem?_map, hlog.2]
  obtain ⟨c, hc, hcv⟩ := Option.map_eq_some_iff.mp (hget 0)
  obtain ⟨e, he, hev⟩ := Option.map_eq_some_iff.mp (hget 2)
  have hbound := (admissions_bounded rates calls).1 0 2 c e (by decide) hc he
  rw [(Prod.mk.inj hcv).2, (Prod.mk.inj hev).2] at hbound
  exact ⟨hlog.1, hbound⟩

end TproxyServer
