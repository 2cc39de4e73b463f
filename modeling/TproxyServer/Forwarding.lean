import TproxyServer.Probing

/-! # What reaches the public application

With a `public_upstream` configured, five fallbacks hand the request on.  On the paths of the
transport what is handed on has lost its credentials and its body.  At the root only some of
them take the capability out of the query: the one for `HEAD`, and the one for every other
method but `GET`, do not. -/

namespace TproxyServer

open Dialogue Lifecycle

variable {F : Type} [Float64 F]

/-- The URL of the request has this text in it. -/
def Request.Shows (r : Request) (text : String) : Prop :=
  text.toList <:+: r.path.toList ∨ text.toList <:+: r.rawQuery.toList

/-- The request has neither credentials of the transport nor a body. -/
structure Request.Stripped (r : Request) : Prop where
  authorization : r.header "Authorization" = []
  protocol : r.header "Sec-Websocket-Protocol" = []
  body : r.body = []

theorem sanitizedPublicFallback_stripped (r : Request) : (sanitizedPublicFallback r).Stripped := by
  have hdel : ∀ key : String, key ≠ "Connection" → key ∈ transportHeaders.map canonicalKey →
      (sanitizedPublicFallback r).header key = [] := by
    intro key hne hkey
    have hconnection : canonicalKey "Connection" = "Connection" := by decide +kernel
    show Header.set _ "Connection" "close" key = []
    unfold Header.set
    rw [hconnection, if_neg hne]
    have hfold : ∀ (names : List String) (h : Header), h key = [] ∨ key ∈ names.map canonicalKey →
        names.foldl Header.del h key = [] := by
      intro names
      induction names with
      | nil =>
          intro h hk
          simpa using hk
      | cons name rest ih =>
          intro h hk
          apply ih
          by_cases hname : key = canonicalKey name
          · exact .inl (by simp [Header.del, hname])
          · rcases hk with hk | hk
            · exact .inl (by simp [Header.del, hname, hk])
            · rw [List.map_cons, List.mem_cons] at hk
              exact .inr (hk.resolve_left hname)
    exact hfold _ _ (.inr hkey)
  exact ⟨hdel _ (by decide) (by decide +kernel), hdel _ (by decide) (by decide +kernel), rfl⟩

namespace Server

/-- The credentials of the transport do not reach the public application with this request: not
the capability in the query of the root, nor what the handlers of the transport read. -/
def Withholds (F : Type) [Float64 F] (sha256 : Bytes → Bytes) (sv : Server) (r : Request) :
    Prop :=
  ∀ t f, Served (F := F) sha256 sv (fun L _ => L.registry.config = sv.config) r t (.forwarded f) →
    (∀ p ∈ sv.config.profiles, r.path = "/" →
      r.rawQuery = "bridge=" ++ Base64.encode p.capability →
        ¬ f.Shows (Base64.encode p.capability)) ∧
      (isTransportPath r.path = true → f.Stripped)

section
variable {sv : Server} {r : Request} {token ip : String}

/-- The answer is the one to a request for what is not there, or it is not forwarded. -/
def FallsBack (sv : Server) (r : Request) (a : Outcome) : Prop :=
  a = sv.serveNotFound r ∨ ∀ f, a ≠ .forwarded f

theorem fallsBack_response (response : Response) : FallsBack sv r (.response response) :=
  .inr fun f h => by cases h

theorem upOutcome_fallsBack (result : Except SessionError ℕ) :
    FallsBack sv r (sv.upOutcome r result) := by
  unfold upOutcome
  cases result with
  | ok ack => exact fallsBack_response _
  | error err =>
      cases err with
      | backpressure => exact fallsBack_response _
      | concurrent => exact fallsBack_response _
      | closed => exact .inl rfl
      | protocol => exact .inl rfl
      | context => exact .inl rfl

theorem downOutcome_fallsBack (result : Except SessionError (Bytes × ℕ × Bool)) :
    (sv.downOutcome r result).Ends (FallsBack sv r) := by
  unfold downOutcome
  cases result with
  | ok answer => exact fallsBack_response _
  | error err =>
      intro gone
      cases gone with
      | true => exact .inr fun f h => by cases h
      | false =>
          show FallsBack sv r (if err = .concurrent then _ else _)
          split_ifs
          · exact fallsBack_response _
          · exact .inl rfl

theorem serveSession_fallsBack : (sv.serveSession r token ip).Ends (FallsBack sv r) := by
  unfold serveSession
  refine ends_ite (fun _ answer => ?_) fun _ => ends_ite (fun _ => .inl rfl) fun _ found => ?_
  · cases answer with
    | error err => exact .inl rfl
    | ok _ => exact ends_ite (fun _ => .inl rfl) fun _ => fallsBack_response _
  · cases found with
    | false => exact .inl rfl
    | true =>
        dsimp only [Dialogue.bind]
        cases readBody r maxCreateBodyBytes with
        | none => exact .inl rfl
        | some body =>
            intro created
            cases created with
            | ok result => exact fun mode => fallsBack_response _
            | error err =>
                cases err with
                | limit => exact fallsBack_response _
                | authentication => exact .inl rfl
                | protocol => exact .inl rfl
                | closed => exact .inl rfl
                | random => exact .inl rfl

theorem serveUp_fallsBack : (sv.serveUp r token).Ends (FallsBack sv r) := by
  unfold serveUp
  refine ends_ite (fun _ => .inl rfl) fun _ => ?_
  cases (canonicalUint (r.header.get "X-Up-Seq")).filter (· ≠ 0) with
  | none => exact .inl rfl
  | some sequence =>
      intro found
      cases found with
      | error err => exact .inl rfl
      | ok value =>
          dsimp only
          cases readBody r sv.config.limits.maxBodyBytes.toNatClampNeg with
          | none => exact .inl rfl
          | some body =>
              intro mode
              cases mode with
              | https =>
                  exact ends_ite (fun _ => .inl rfl) fun _ result => upOutcome_fallsBack result
              | httpsLanes =>
                  dsimp only
                  cases laneOf r with
                  | none => exact .inl rfl
                  | some lane => exact fun result => upOutcome_fallsBack result
              | webSocket => exact .inl rfl
              | webSocketLanes => exact .inl rfl

theorem serveDown_fallsBack : (sv.serveDown r token).Ends (FallsBack sv r) := by
  unfold serveDown
  refine ends_ite (fun _ => .inl rfl) fun _ => ?_
  cases canonicalUint (r.header.get "X-Down-Cursor") with
  | none => exact .inl rfl
  | some cursor =>
      intro found
      cases found with
      | error err => exact .inl rfl
      | ok value =>
          refine ends_ite (fun _ => .inl rfl) fun _ mode => ?_
          cases mode with
          | https =>
              exact ends_ite (fun _ => .inl rfl) fun _ result => downOutcome_fallsBack _
          | httpsLanes =>
              dsimp only
              cases laneOf r with
              | none => exact .inl rfl
              | some lane => exact fun result => downOutcome_fallsBack result
          | webSocket => exact .inl rfl
          | webSocketLanes => exact .inl rfl

/-- What is left of `serveWebSocket` once the session was asked for a place. -/
theorem upgrade_fallsBack (value : ℕ) (lane : Option ℕ) (protocol : String) (acquired : Bool) :
    (if acquired = false then pure (sv.serveNotFound r)
      else Handler.upgrade [protocol] >>= fun upgraded =>
        match upgraded with
        | true => pure (.socket true)
        | false => releaseSocket value lane >>= fun _ => pure (.socket false) :
          Handler Outcome).Ends (FallsBack sv r) := by
  refine ends_ite (fun _ => .inl rfl) fun _ upgraded => ?_
  cases upgraded with
  | true => exact .inr fun f h => by cases h
  | false =>
      cases lane with
      | none => exact fun _ => .inr fun f h => by cases h
      | some laneID => exact fun _ => .inr fun f h => by cases h

theorem serveWebSocket_fallsBack : (sv.serveWebSocket r).Ends (FallsBack sv r) := by
  unfold serveWebSocket
  refine ends_ite (fun _ => .inl rfl) fun _ => ?_
  split
  · next protocol _ =>
      cases webSocketCredentials protocol with
      | none => exact .inl rfl
      | some credentials =>
          obtain ⟨token, lane⟩ := credentials
          refine ends_ite (fun _ => .inl rfl) fun _ found => ?_
          cases found with
          | error err => exact .inl rfl
          | ok value =>
              refine fun mode => ends_ite (fun _ => .inl rfl) fun _ =>
                ends_ite (fun _ => .inl rfl) fun _ => ?_
              cases lane with
              | none => exact upgrade_fallsBack value none protocol
              | some laneID => exact upgrade_fallsBack value (some laneID) protocol
  · exact .inl rfl

theorem serveAPI_fallsBack : (sv.serveAPI r).Ends (FallsBack sv r) := by
  unfold serveAPI
  refine ends_ite (fun _ => .inl rfl) fun _ => ?_
  cases clientIP sv.lib r with
  | none => exact .inl rfl
  | some ip =>
      refine ends_ite (fun _ => serveWebSocket_fallsBack) fun _ => ?_
      cases bearerToken (r.header.get "Authorization") with
      | none => exact .inl rfl
      | some token =>
          refine ends_ite (fun _ => serveSession_fallsBack) fun _ => ?_
          refine ends_ite (fun _ => serveUp_fallsBack) fun _ => ?_
          exact ends_ite (fun _ => serveDown_fallsBack) fun _ => .inl rfl

end

/-! ### The root -/

section
variable {sv : Server} {r : Request} {p : Profile} {t : List (Exchange ServerCall.Answer)}

omit [Float64 F] in
/-- A configured capability is that of a profile. -/
theorem matchCapability_configured (registry : Registry F) (hp : p ∈ registry.config.profiles)
    (hlength : p.capability.length = 32) :
    ∃ q, registry.matchCapability p.capability = some q := by
  unfold Registry.matchCapability
  rw [if_neg (by simp [hlength])]
  apply Option.isSome_iff_exists.mp
  rw [List.find?_isSome]
  exact ⟨p, List.mem_reverse.mpr hp, by simp⟩

/-- A `GET` of the bridge is forwarded without its query or not at all. -/
theorem serveRoot_withholds (F : Type) [Float64 F] (sha256 : Bytes → Bytes)
    (hup : sv.content = .upstream) (hp : p ∈ sv.config.profiles)
    (hlength : p.capability.length = 32) (hget : r.method = "GET")
    (hquery : r.rawQuery = "bridge=" ++ Base64.encode p.capability) :
    (sv.serveRoot r).wp
      (answersWhere sha256 fun (L : Lifecycle F) _ => L.registry.config = sv.config)
      (fun _ _ => True) (fun _ a => ∀ f, a = .forwarded f → f = { r with rawQuery := "" }) t := by
  have hfallback : ∀ f, sv.servePublicRootWithoutCapability r = .forwarded f →
      f = { r with rawQuery := "" } := by
    intro f hf
    unfold servePublicRootWithoutCapability at hf
    rw [hup] at hf
    cases hf
    rfl
  refine ⟨trivial, fun x hx => ?_⟩
  obtain ⟨L, now, L', hconfig, rfl, -⟩ := hx
  rw [bridgeCandidate_eq_some.mpr ⟨hlength, hquery⟩]
  obtain ⟨q, hq⟩ := matchCapability_configured L.registry (by rw [hconfig]; exact hp) hlength
  rw [Option.getD_some, hq]
  refine wp_ite.mpr ⟨fun hne => absurd hget hne, fun _ => ?_⟩
  cases clientIP sv.lib r with
  | none => exact hfallback
  | some ip =>
      refine ⟨trivial, fun issued _ => ?_⟩
      cases issued with
      | error err => exact hfallback
      | ok token =>
          dsimp only [Dialogue.bind]
          cases sv.lib.render sv.publicHostname token q.carrierMode.text
              sv.config.limits.carrierBatchBytes with
          | none => exact hfallback
          | some page => exact fun f hf => by cases hf

/-- Whatever profile is found, a method other than `GET` gets the public root. -/
theorem serveRoot_of_not_get (h : r.method ≠ "GET") : sv.serveRoot r =
    Handler.matchCapability ((bridgeCandidate r.rawQuery).getD zeroDigest) >>= fun _ =>
      pure (sv.servePublicRoot r) := by
  refine congrArg (ask _) (funext fun found => ?_)
  dsimp only [Dialogue.bind]
  generalize (if (bridgeCandidate r.rawQuery).isSome = true then found else none) = profile
  cases profile with
  | none => rfl
  | some profile => exact if_pos h

/-- Any other method forwards the request as it is. -/
theorem serveHTTP_leaks (F : Type) [Float64 F] (sha256 : Bytes → Bytes)
    (hup : sv.content = .upstream) (hhost : sv.rightHost r) (hpath : r.path = "/")
    (hmethod : r.method ≠ "GET") :
    ∃ t, Served (F := F) sha256 sv (fun L _ => L.registry.config = sv.config) r t
      (.forwarded r) := by
  have hapi : ¬ isTransportPath r.path = true := by
    rw [hpath]
    decide
  have hroot : sv.servePublicRoot r = .forwarded r := by
    unfold servePublicRoot
    rw [hup]
  by_cases hhead : r.method = "HEAD"
  · let L : Lifecycle F := { fleet := newFleet sv.config }
    let candidate := (bridgeCandidate r.rawQuery).getD zeroDigest
    refine ⟨[⟨.matchCapability candidate, L.registry.matchCapability candidate⟩], ?_, ?_⟩
    · unfold serveHTTP
      rw [if_neg (not_not.mpr hhost), if_neg hapi, if_pos ⟨hpath, .inr hhead⟩]
      rw [serveRoot_of_not_get hmethod, hroot]
      exact .ask _ (.done _)
    · intro e he
      rw [List.mem_singleton.mp he]
      exact ⟨L, 0, L, rfl, rfl, rfl⟩
  · refine ⟨[], ?_, by simp⟩
    unfold serveHTTP
    rw [if_neg (not_not.mpr hhost), if_neg hapi, if_neg (by simp [hmethod, hhead]),
      if_pos ⟨hmethod, hhead⟩]
    have hnotFound : sv.serveNotFound r = .forwarded r := by
      unfold serveNotFound
      rw [hup, if_neg hapi]
    rw [hnotFound]
    exact .done _

end

/-! ### The law -/

section
variable {sha256 : Bytes → Bytes} {sv : Server} {r : Request}

theorem shows_of_query {text : String} (h : r.rawQuery = "bridge=" ++ text) : r.Shows text := by
  refine .inr ?_
  rw [h, String.toList_append]
  exact (List.suffix_append _ _).isInfix

/-- A root without a query shows no capability. -/
theorem not_shows_of_empty {x : Bytes} (hx : x.length = 32) (hpath : r.path = "/") :
    ¬ Request.Shows { r with rawQuery := "" } (Base64.encode x) := by
  have hlength : (Base64.encode x).toList.length = 43 := by
    rw [String.length_toList, Base64.encode_length, hx]
  rintro (h | h)
  · have hle := h.length_le
    dsimp only at hle
    rw [hlength, hpath] at hle
    exact absurd hle (by decide)
  · have hle := h.length_le
    dsimp only at hle
    rw [hlength] at hle
    exact absurd hle (by decide)

/-- **What reaches the public application**: at the configured host no credential of the transport
does, if not a capability in the query of a request to the root that is no `GET`. -/
theorem capability_withheld_iff (hup : sv.content = .upstream)
    (hcapabilities : ∀ p ∈ sv.config.profiles, p.capability.length = 32)
    (hhost : sv.rightHost r) :
    Withholds F sha256 sv r ↔
      ¬ (r.path = "/" ∧ r.method ≠ "GET" ∧
        ∃ p ∈ sv.config.profiles, r.rawQuery = "bridge=" ++ Base64.encode p.capability) := by
  constructor
  · rintro h ⟨hpath, hmethod, p, hp, hquery⟩
    obtain ⟨t, hserved⟩ := serveHTTP_leaks F sha256 hup hhost hpath hmethod
    exact (h t r hserved).1 p hp hpath hquery (shows_of_query hquery)
  · intro hno t f hserved
    have hroute := hserved.runs
    unfold serveHTTP at hroute
    rw [if_neg (not_not.mpr hhost)] at hroute
    by_cases hapi : isTransportPath r.path = true
    · rw [if_pos hapi] at hroute
      refine ⟨fun p _ hpath => ?_, fun _ => ?_⟩
      · rw [hpath] at hapi
        exact absurd hapi (by decide)
      · rcases serveAPI_fallsBack.of_runs hroute with h | h
        · unfold serveNotFound at h
          rw [hup, if_pos hapi] at h
          cases h
          exact sanitizedPublicFallback_stripped r
        · exact absurd rfl (h f)
    · refine ⟨fun p hp hpath hquery => ?_, fun h => absurd h hapi⟩
      have hget : r.method = "GET" := by
        by_contra hmethod
        exact hno ⟨hpath, hmethod, p, hp, hquery⟩
      rw [if_neg hapi, if_pos ⟨hpath, .inl hget⟩] at hroute
      have hwp := serveRoot_withholds F sha256 (t := []) hup hp
        (hcapabilities p hp) hget hquery
      rw [(wp_sound hwp hroute (permitted_of_forall hserved.answered)).1 f rfl]
      exact not_shows_of_empty (hcapabilities p hp) hpath

/-- A `HEAD` of the bridge. -/
def headOfBridge : Request where
  method := "HEAD"
  host := "front.test"
  path := "/"
  rawQuery := "bridge=" ++ Base64.encode zeroDigest
  remoteAddr := "127.0.0.1:40000"

/-- A `GET` of the bridge is kept from the application. -/
theorem capability_withheld_iff_get :
    Withholds ℚ id (oneServer .upstream) { headOfBridge with method := "GET" } := by
  refine (capability_withheld_iff rfl ?_ (.inl rfl)).mpr ?_
  · intro p hp
    decide +revert
  · rintro ⟨-, h, -⟩
    exact h rfl

/-- A `HEAD` of the bridge is not. -/
theorem capability_forwarded : ¬ Withholds ℚ id (oneServer .upstream) headOfBridge := by
  intro h
  have hprofile : ({ name := "alpha", capability := zeroDigest } : Profile) ∈
      (oneServer .upstream).config.profiles := List.mem_singleton.mpr rfl
  obtain ⟨t, hserved⟩ := @serveHTTP_leaks (oneServer .upstream) headOfBridge ℚ _ id rfl (.inl rfl)
    rfl (by decide)
  exact (h t _ hserved).1 _ hprofile rfl rfl (shows_of_query rfl)

end

end Server

end TproxyServer
