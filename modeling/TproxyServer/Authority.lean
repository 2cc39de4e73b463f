import TproxyServer.Probing

/-! # Who may move a session

What a handler calls for it is entitled to by the request and by what it was answered before:
the methods of a session are called for requests that carry a token which `Get` has found that
session under, over the carrier of the session, and with what the request says. -/

namespace TproxyServer

open Dialogue Lifecycle

variable {F : Type} [Float64 F]

/-- The transcript of a request so far. -/
abbrev Transcript := List (Exchange ServerCall.Answer)

namespace Server

/-- The request has passed the tests of `serveAPI` on its way to `path`. -/
structure Admits (sv : Server) (r : Request) (path : String) : Prop where
  host : sv.rightHost r
  path : r.path = path
  query : r.rawQuery = ""
  client : (clientIP sv.lib r).isSome

/-- `Get` has found session `k`, of this carrier, under a token. -/
def Found (t : Transcript) (token : String) (k : ℕ) (mode : CarrierMode) : Prop :=
  ⟨.get token, .ok k⟩ ∈ t ∧ ⟨.carrierMode k, mode⟩ ∈ t

/-- The request carries a bearer token under which session `k`, of this carrier, was found. -/
def Bears (r : Request) (t : Transcript) (k : ℕ) (mode : CarrierMode) : Prop :=
  ∃ token, r.header.get "Authorization" = "Bearer " ++ token ∧ Found t token k mode

/-- The request offers one subprotocol, which names a token under which session `k`, of this
carrier, was found, and this lane. -/
def Offers (sv : Server) (r : Request) (t : Transcript) (k : ℕ) (lane : Option ℕ)
    (mode : CarrierMode) : Prop :=
  ∃ token, sv.lib.subprotocols r.header = [webSocketProtocol token lane] ∧
    Presentable token lane ∧ Found t token k mode

/-- The body of a request to the uplink. -/
structure Uplinks (sv : Server) (r : Request) (sequence : ℕ) (body : Bytes) : Prop where
  admits : sv.Admits r "/api/v1/up"
  method : r.method = "POST"
  numbered : r.header.get "X-Up-Seq" = toString sequence ∧ 0 < sequence
  body : body = r.body ∧ body ≠ [] ∧ body.length ≤ sv.config.limits.maxBodyBytes.toNatClampNeg

/-- A request to the downlink. -/
structure Downlinks (sv : Server) (r : Request) (cursor : ℕ) : Prop where
  admits : sv.Admits r "/api/v1/down"
  method : r.method = "POST"
  numbered : r.header.get "X-Down-Cursor" = toString cursor
  empty : r.body = []

/-- The lane that a request of the HTTPS carriers names. -/
def NamesLane (r : Request) (lane : ℕ) : Prop :=
  r.header.get "X-Lane-ID" = toString lane ∧ lane ≤ maxStreamID

/-- What the request and the answers so far entitle a handler to. -/
def Entitled (sv : Server) (r : Request) (t : Transcript) : ServerCall → Prop
  | .matchCapability _ => sv.rightHost r ∧ r.path = "/"
  | .issueBootstrap profile ip => sv.rightHost r ∧ r.path = "/" ∧ r.method = "GET" ∧
      clientIP sv.lib r = some ip ∧ ∃ capability : Bytes, capability.length = 32 ∧
        r.rawQuery = "bridge=" ++ Base64.encode capability ∧
        ⟨.matchCapability capability, some profile⟩ ∈ t
  | .hasBootstrap token => sv.Admits r "/api/v1/session" ∧ r.method = "POST" ∧
      r.header.get "Authorization" = "Bearer " ++ token
  | .create token ip body => sv.Admits r "/api/v1/session" ∧ r.method = "POST" ∧
      r.header.get "Authorization" = "Bearer " ++ token ∧ clientIP sv.lib r = some ip ∧
      body = r.body ∧ body.length ≤ maxCreateBodyBytes ∧ ⟨.hasBootstrap token, true⟩ ∈ t
  | .closeToken token => sv.Admits r "/api/v1/session" ∧ r.method = "DELETE" ∧
      r.header.get "Authorization" = "Bearer " ++ token
  | .get token => r.Carries sv.lib token
  | .carrierMode k => (∃ token, r.Carries sv.lib token ∧ ⟨.get token, .ok k⟩ ∈ t) ∨
      ∃ token ip body result, ⟨.create token ip body, .ok result⟩ ∈ t ∧ result.session = k
  | .processUp k sequence body => sv.Uplinks r sequence body ∧ Bears r t k .https
  | .processUpLane k lane sequence body => sv.Uplinks r sequence body ∧ NamesLane r lane ∧
      Bears r t k .httpsLanes
  | .poll k cursor => sv.Downlinks r cursor ∧ Bears r t k .https
  | .pollLane k lane cursor => sv.Downlinks r cursor ∧ NamesLane r lane ∧ Bears r t k .httpsLanes
  | .acquireWebSocket k => sv.Admits r "/api/v1/ws" ∧ r.method = "GET" ∧
      sv.Offers r t k none .webSocket
  | .acquireWebSocketLane k lane => sv.Admits r "/api/v1/ws" ∧ r.method = "GET" ∧
      sv.Offers r t k (some lane) .webSocketLanes
  | .upgrade _ => (∃ k, ⟨.acquireWebSocket k, true⟩ ∈ t) ∨
      ∃ k lane, ⟨.acquireWebSocketLane k lane, true⟩ ∈ t
  | .releaseWebSocketLane k lane => ⟨.acquireWebSocketLane k lane, true⟩ ∈ t
  | .close k => ⟨.acquireWebSocket k, true⟩ ∈ t
  | .contextErr => True

/-- A session token leaves the server in the answer to the request that created its session, or
to a retry of it. -/
def TokenKept (t : Transcript) (a : Outcome) : Prop :=
  ∀ response value, a = .response response → ("X-Session-Token", value) ∈ response.header →
    ∃ token ip body result, ⟨.create token ip body, .ok result⟩ ∈ t ∧ value = result.token

/-- A handler keeps to what it is entitled to, whatever it is answered. -/
def Keeps (sv : Server) (r : Request) (d : Handler Outcome) (t : Transcript) : Prop :=
  d.wp (fun _ _ _ => True) (sv.Entitled r) TokenKept t

section
variable {sv : Server} {r : Request} {token ip : String} {t : Transcript}

theorem tokenKept_of_names {response : Response}
    (h : "X-Session-Token" ∉ response.header.map Prod.fst) : TokenKept t (.response response) := by
  rintro response' value he hmem
  cases he
  exact absurd (List.mem_map_of_mem hmem) h

theorem tokenKept_entry {site : StaticSite} {entry : StaticEntry} {status : ℕ} :
    TokenKept t (.response (serveEntry sv.lib site r entry status)) := by
  apply tokenKept_of_names
  unfold serveEntry
  dsimp only
  by_cases hfresh : status = 200 ∧ notModified sv.lib r site.modTime = true
  · rw [if_pos hfresh]
    simp
  · rw [if_neg hfresh]
    simp

theorem tokenKept_notFound : TokenKept t (sv.serveNotFound r) := by
  unfold serveNotFound
  cases sv.content with
  | site site => exact tokenKept_entry
  | upstream => exact fun response value h => by cases h

theorem tokenKept_created (token ip : String) (body : Bytes) {result : Registry.CreateResult}
    {mode : CarrierMode}
    (h : ⟨.create token ip body, .ok result⟩ ∈ t) :
    TokenKept t (.response (createdResponse result mode)) := by
  rintro response value he hmem
  cases he
  refine ⟨token, ip, body, result, h, ?_⟩
  simp only [createdResponse, List.mem_cons, Prod.mk.injEq, List.not_mem_nil, or_false] at hmem
  simpa using hmem

theorem keeps_notFound : sv.Keeps r (pure (sv.serveNotFound r)) t := tokenKept_notFound

theorem keeps_ite {c : Prop} [Decidable c] {d e : Handler Outcome} (h : c → sv.Keeps r d t)
    (h' : ¬ c → sv.Keeps r e t) : sv.Keeps r (if c then d else e) t :=
  wp_ite.mpr ⟨h, h'⟩

theorem keeps_call {c : ServerCall} {next : c.Answer → Handler Outcome}
    (h : sv.Entitled r t c) (hnext : ∀ x, sv.Keeps r (next x) (t ++ [⟨c, x⟩])) :
    sv.Keeps r (ask c next) t :=
  ⟨h, fun x _ => hnext x⟩

theorem readBody_eq_some {limit : ℕ} {body : Bytes} (h : readBody r limit = some body) :
    body = r.body ∧ body ≠ [] ∧ body.length ≤ limit := by
  unfold readBody at h
  split_ifs at h with hno
  cases h
  push Not at hno
  exact ⟨rfl, hno.2.2, hno.2.1⟩

theorem serveSession_keeps (hadmits : sv.Admits r "/api/v1/session")
    (hip : clientIP sv.lib r = some ip)
    (htoken : r.header.get "Authorization" = "Bearer " ++ token) :
    sv.Keeps r (sv.serveSession r token ip) t := by
  unfold serveSession
  refine keeps_ite (fun hdelete => ?_) fun _ => keeps_ite (fun _ => keeps_notFound) fun hpost => ?_
  · refine keeps_call ⟨hadmits, hdelete, htoken⟩ fun answer => ?_
    cases answer with
    | error err => exact keeps_notFound
    | ok _ => exact keeps_ite (fun _ => keeps_notFound) fun _ => tokenKept_of_names (by decide)
  · push Not at hpost
    refine keeps_call ⟨hadmits, hpost.1, htoken⟩ fun found => ?_
    cases found with
    | false => exact keeps_notFound
    | true =>
        dsimp only [Dialogue.bind]
        cases hbody : readBody r maxCreateBodyBytes with
        | none => exact keeps_notFound
        | some body =>
            obtain ⟨hsame, -, hlength⟩ := readBody_eq_some hbody
            refine keeps_call ⟨hadmits, hpost.1, htoken, hip, hsame, hlength, by simp⟩
              fun created => ?_
            cases created with
            | ok result =>
                refine keeps_call (.inr ⟨token, ip, body, result, by simp, rfl⟩) fun mode => ?_
                exact tokenKept_created token ip body (by simp)
            | error err =>
                cases err with
                | limit => exact tokenKept_of_names (by decide)
                | authentication => exact keeps_notFound
                | protocol => exact keeps_notFound
                | closed => exact keeps_notFound
                | random => exact keeps_notFound

theorem upOutcome_kept (result : Except SessionError ℕ) : TokenKept t (sv.upOutcome r result) := by
  unfold upOutcome
  cases result with
  | ok ack => exact tokenKept_of_names (by simp [noStore])
  | error err =>
      cases err with
      | backpressure => exact tokenKept_of_names (by decide)
      | concurrent => exact tokenKept_of_names (by decide)
      | closed => exact tokenKept_notFound
      | protocol => exact tokenKept_notFound
      | context => exact tokenKept_notFound

theorem downOutcome_keeps (result : Except SessionError (Bytes × ℕ × Bool)) :
    sv.Keeps r (sv.downOutcome r result) t := by
  unfold downOutcome
  cases result with
  | ok answer =>
      obtain ⟨body, next, laneClosed⟩ := answer
      apply tokenKept_of_names
      unfold downResponse
      dsimp only
      cases laneClosed <;> split_ifs <;> simp [noStore]
  | error err =>
      refine keeps_call trivial fun gone => ?_
      cases gone with
      | true => exact fun response value h => by cases h
      | false =>
          show TokenKept _ (if err = .concurrent then _ else _)
          split_ifs
          · exact tokenKept_of_names (by decide)
          · exact tokenKept_notFound

/-- The lane that a request names. -/
theorem laneOf_eq_some {lane : ℕ} (h : laneOf r = some lane) : NamesLane r lane := by
  obtain ⟨hlane, hle⟩ := Option.filter_eq_some_iff.mp h
  exact ⟨(canonicalUint_eq_some.mp hlane).2, by simpa using hle⟩

theorem serveUp_keeps (hadmits : sv.Admits r "/api/v1/up")
    (htoken : r.header.get "Authorization" = "Bearer " ++ token) :
    sv.Keeps r (sv.serveUp r token) t := by
  unfold serveUp
  refine keeps_ite (fun _ => keeps_notFound) fun hpost => ?_
  push Not at hpost
  cases hsequence : (canonicalUint (r.header.get "X-Up-Seq")).filter (· ≠ 0) with
  | none => exact keeps_notFound
  | some sequence =>
      obtain ⟨hcanonical, hpos⟩ := Option.filter_eq_some_iff.mp hsequence
      have hnumbered : r.header.get "X-Up-Seq" = toString sequence ∧ 0 < sequence := by
        refine ⟨(canonicalUint_eq_some.mp hcanonical).2, ?_⟩
        simp only [ne_eq, decide_not, Bool.not_eq_true', decide_eq_false_iff_not] at hpos
        omega
      refine keeps_call (.inl htoken) fun found => ?_
      cases found with
      | error err => exact keeps_notFound
      | ok value =>
          dsimp only [Dialogue.bind]
          cases hbody : readBody r sv.config.limits.maxBodyBytes.toNatClampNeg with
          | none => exact keeps_notFound
          | some body =>
              have huplinks : sv.Uplinks r sequence body :=
                ⟨hadmits, hpost.1, hnumbered, readBody_eq_some hbody⟩
              refine keeps_call (.inl ⟨token, .inl htoken, by simp⟩) fun mode => ?_
              cases mode with
              | https =>
                  refine keeps_ite (fun _ => keeps_notFound) fun _ => ?_
                  refine keeps_call ⟨huplinks, token, htoken, by simp, by simp⟩ fun result => ?_
                  exact upOutcome_kept result
              | httpsLanes =>
                  dsimp only [Dialogue.bind]
                  cases hlane : laneOf r with
                  | none => exact keeps_notFound
                  | some lane =>
                      refine keeps_call ⟨huplinks, laneOf_eq_some hlane, token, htoken, by simp,
                        by simp⟩ fun result => ?_
                      exact upOutcome_kept result
              | webSocket => exact keeps_notFound
              | webSocketLanes => exact keeps_notFound

theorem emptyBody_eq_true (h : ¬ emptyBody r = false) : r.body = [] := by
  unfold emptyBody at h
  simp only [Bool.and_eq_false_iff, decide_eq_false_iff_not, not_or, not_not] at h
  exact h.2

theorem serveDown_keeps (hadmits : sv.Admits r "/api/v1/down")
    (htoken : r.header.get "Authorization" = "Bearer " ++ token) :
    sv.Keeps r (sv.serveDown r token) t := by
  unfold serveDown
  refine keeps_ite (fun _ => keeps_notFound) fun hpost => ?_
  push Not at hpost
  cases hcursor : canonicalUint (r.header.get "X-Down-Cursor") with
  | none => exact keeps_notFound
  | some cursor =>
      refine keeps_call (.inl htoken) fun found => ?_
      cases found with
      | error err => exact keeps_notFound
      | ok value =>
          refine keeps_ite (fun _ => keeps_notFound) fun hempty => ?_
          have hdownlinks : sv.Downlinks r cursor :=
            ⟨hadmits, hpost.1, (canonicalUint_eq_some.mp hcursor).2, emptyBody_eq_true hempty⟩
          refine keeps_call (.inl ⟨token, .inl htoken, by simp⟩) fun mode => ?_
          cases mode with
          | https =>
              refine keeps_ite (fun _ => keeps_notFound) fun _ => ?_
              refine keeps_call ⟨hdownlinks, token, htoken, by simp, by simp⟩ fun result => ?_
              exact downOutcome_keeps _
          | httpsLanes =>
              dsimp only [Dialogue.bind]
              cases hlane : laneOf r with
              | none => exact keeps_notFound
              | some lane =>
                  refine keeps_call ⟨hdownlinks, laneOf_eq_some hlane, token, htoken, by simp,
                    by simp⟩ fun result => ?_
                  exact downOutcome_keeps result
          | webSocket => exact keeps_notFound
          | webSocketLanes => exact keeps_notFound

/-- What is left of `serveWebSocket` once the session was asked for a place. -/
theorem upgrade_keeps {value : ℕ} {lane : Option ℕ} {protocol : String} {acquired : Bool}
    (hupgrade : acquired = true → sv.Entitled r t (.upgrade [protocol]))
    (hrelease : acquired = true → ∀ t' : Transcript,
      sv.Keeps r (releaseSocket value lane >>= fun _ => pure (.socket false)) (t ++ t')) :
    sv.Keeps r (if acquired = false then pure (sv.serveNotFound r)
      else Handler.upgrade [protocol] >>= fun upgraded =>
        match upgraded with
        | true => pure (.socket true)
        | false => releaseSocket value lane >>= fun _ => pure (.socket false)) t := by
  refine keeps_ite (fun _ => keeps_notFound) fun hacquired => ?_
  rw [Bool.not_eq_false] at hacquired
  refine keeps_call (hupgrade hacquired) fun upgraded => ?_
  cases upgraded with
  | true => exact fun response value h => by cases h
  | false => exact hrelease hacquired _

theorem serveWebSocket_keeps (hadmits : sv.Admits r "/api/v1/ws") :
    sv.Keeps r (sv.serveWebSocket r) t := by
  have hsocket : ∀ t' : Transcript, TokenKept t' (.socket false) :=
    fun _ response value h => by cases h
  unfold serveWebSocket
  refine keeps_ite (fun _ => keeps_notFound) fun hget => ?_
  push Not at hget
  split
  · next protocol hprotocol =>
      cases hcredentials : webSocketCredentials protocol with
      | none => exact keeps_notFound
      | some credentials =>
          obtain ⟨token, lane⟩ := credentials
          obtain ⟨hpresentable, hspelled⟩ := webSocketCredentials_eq_some.mp hcredentials
          rw [hspelled] at hprotocol
          have hcarries : r.Carries sv.lib token := .inr ⟨lane, by rw [hprotocol]; simp⟩
          refine keeps_ite (fun _ => keeps_notFound) fun _ => keeps_call hcarries fun found => ?_
          cases found with
          | error err => exact keeps_notFound
          | ok value =>
              refine keeps_call (.inl ⟨token, hcarries, by simp⟩) fun mode => ?_
              refine keeps_ite (fun _ => keeps_notFound) fun hmode => ?_
              refine keeps_ite (fun _ => keeps_notFound) fun _ => ?_
              rw [ne_eq, not_not] at hmode
              subst hmode
              cases lane with
              | none =>
                  refine keeps_call ⟨hadmits, hget.1, token, hprotocol, hpresentable, by simp,
                    by simp⟩ fun acquired => ?_
                  apply @upgrade_keeps _ _ _ _ none
                  · rintro rfl
                    exact .inl ⟨value, by simp⟩
                  · rintro rfl t'
                    exact keeps_call (by simp [Entitled]) fun _ => hsocket _
              | some laneID =>
                  refine keeps_call ⟨hadmits, hget.1, token, hprotocol, hpresentable, by simp,
                    by simp⟩ fun acquired => ?_
                  apply @upgrade_keeps _ _ _ _ (some laneID)
                  · rintro rfl
                    exact .inr ⟨value, laneID, by simp⟩
                  · rintro rfl t'
                    exact keeps_call (by simp [Entitled]) fun _ => hsocket _
  · exact keeps_notFound

theorem serveAPI_keeps (hhost : sv.rightHost r) :
    sv.Keeps r (sv.serveAPI r) t := by
  unfold serveAPI
  refine keeps_ite (fun _ => keeps_notFound) fun hquery => ?_
  push Not at hquery
  cases hip : clientIP sv.lib r with
  | none => exact keeps_notFound
  | some ip =>
      have hadmits : ∀ path, r.path = path → sv.Admits r path :=
        fun path hpath => ⟨hhost, hpath, hquery.1, by simp [hip]⟩
      refine keeps_ite (fun hws => serveWebSocket_keeps (hadmits _ hws)) fun _ => ?_
      cases htoken : bearerToken (r.header.get "Authorization") with
      | none => exact keeps_notFound
      | some token =>
          have hbearer := (bearerToken_eq_some.mp htoken).2
          refine keeps_ite (fun h => serveSession_keeps (hadmits _ h) hip hbearer) fun _ => ?_
          refine keeps_ite (fun h => serveUp_keeps (hadmits _ h) hbearer) fun _ => ?_
          exact keeps_ite (fun h => serveDown_keeps (hadmits _ h) hbearer) fun _ => keeps_notFound

theorem tokenKept_root : TokenKept t (sv.servePublicRoot r) := by
  unfold servePublicRoot
  cases sv.content with
  | site site => exact tokenKept_entry
  | upstream => exact fun response value h => by cases h

theorem tokenKept_rootWithoutCapability :
    TokenKept t (sv.servePublicRootWithoutCapability r) := by
  unfold servePublicRootWithoutCapability
  cases sv.content with
  | site site => exact tokenKept_entry
  | upstream => exact fun response value h => by cases h

theorem serveRoot_keeps (hhost : sv.rightHost r) (hpath : r.path = "/") :
    sv.Keeps r (sv.serveRoot r) t := by
  refine keeps_call ⟨hhost, hpath⟩ fun found => ?_
  cases hcandidate : bridgeCandidate r.rawQuery with
  | none => exact tokenKept_root
  | some capability =>
      obtain ⟨hlength, hquery⟩ := bridgeCandidate_eq_some.mp hcandidate
      cases found with
      | none => exact tokenKept_root
      | some profile =>
          refine keeps_ite (fun _ => tokenKept_root) fun hget => ?_
          rw [ne_eq, not_not] at hget
          cases hip : clientIP sv.lib r with
          | none => exact tokenKept_rootWithoutCapability
          | some ip =>
              refine keeps_call ⟨hhost, hpath, hget, hip, capability, hlength, hquery, by simp⟩
                fun issued => ?_
              cases issued with
              | error err => exact tokenKept_rootWithoutCapability
              | ok token =>
                  dsimp only [Dialogue.bind]
                  cases sv.lib.render sv.publicHostname token profile.carrierMode.text
                      sv.config.limits.carrierBatchBytes with
                  | none => exact tokenKept_rootWithoutCapability
                  | some page => exact tokenKept_of_names (by simp [pageResponse])

theorem tokenKept_static : TokenKept t (sv.serveStatic r) := by
  unfold serveStatic
  cases hcontent : sv.content with
  | upstream => exact fun response value h => by cases h
  | site site =>
      dsimp only
      cases site.resolve sv.lib r.path with
      | some entry => exact tokenKept_entry
      | none => exact tokenKept_notFound

theorem serveHTTP_keeps (sv : Server) (r : Request) (t : Transcript) :
    sv.Keeps r (sv.serveHTTP r) t := by
  unfold serveHTTP
  refine keeps_ite (fun _ => ?_) fun hhost => ?_
  · unfold serveWrongHost
    cases sv.content with
    | site site => exact tokenKept_entry
    | upstream => exact tokenKept_of_names (by decide)
  · rw [not_not] at hhost
    refine keeps_ite (fun _ => serveAPI_keeps hhost) fun _ => ?_
    refine keeps_ite (fun hroot => serveRoot_keeps hhost hroot.1) fun _ => ?_
    exact keeps_ite (fun _ => keeps_notFound) fun _ => tokenKept_static

end

end Server

/-! ### Whose token it is -/

/-- The session whose method is called. -/
def ServerCall.moves : ServerCall → Option ℕ
  | .processUp k _ _ | .processUpLane k _ _ _ | .poll k _ | .pollLane k _ _
  | .acquireWebSocket k | .acquireWebSocketLane k _ | .releaseWebSocketLane k _ | .close k => some k
  | _ => none

section
variable {sha256 : Bytes → Bytes} {config : Config} {sv : Server} {r : Request} {t : Transcript}
  {a : Outcome}

/-- Tokens with one hash are the same token. -/
theorem tokenHash_inj (hsha : Registry.TellsTokensApart sha256) {token token' : String}
    {hash : Bytes} (h : tokenHash sha256 token = some hash)
    (h' : tokenHash sha256 token' = some hash) : token = token' := by
  have hspelled : ∀ {token : String}, tokenHash sha256 token = some hash →
      ∃ x : Bytes, x.length = 32 ∧ token = Base64.encode x ∧ sha256 x = hash := by
    intro token h
    unfold tokenHash at h
    split at h
    · cases h
    · next decoded _ =>
        split_ifs at h with hno
        push Not at hno
        cases h
        exact ⟨decoded, hno.1, hno.2.symm, rfl⟩
  obtain ⟨x, hx, rfl, hhash⟩ := hspelled h
  obtain ⟨x', hx', rfl, hhash'⟩ := hspelled h'
  rw [hsha x x' hx hx' (hhash.trans hhash'.symm)]

/-- `Get` finds a session under the token that `Create` returned with it. -/
theorem Lifecycle.Reachable.get_creation {L : Lifecycle F} (hsha : Registry.TellsTokensApart sha256)
    (hnames : (config.profiles.map Profile.name).Nodup) (hr : Lifecycle.Reachable sha256 config L)
    {token : String} {k : ℕ} (h : L.registry.get sha256 token = .ok k) :
    ∃ c ∈ L.fleet.run.creations, c.result.session = k ∧ c.result.token = token := by
  unfold Registry.get at h
  cases hhash : tokenHash sha256 token with
  | none =>
      rw [hhash] at h
      cases h
  | some hash =>
      rw [hhash, Option.bind_some] at h
      cases hlive : L.registry.sessions.get hash with
      | none =>
          rw [hlive] at h
          cases h
      | some live =>
          rw [hlive] at h
          cases h
          obtain ⟨⟨c, hc, htoken, hsession⟩, -⟩ := (hr.inv hsha hnames).given hash live hlive
          exact ⟨c, hc, hsession, tokenHash_inj hsha htoken hhash⟩

namespace Server

/-- A method of a session is called for a token under which `Get` has found it. -/
theorem Served.found {C : Lifecycle F → ℤ → Prop} (h : Served sha256 sv C r t a)
    {l₁ l₂ : Transcript} {e : Exchange ServerCall.Answer} (ht : t = l₁ ++ e :: l₂) {k : ℕ}
    (hk : e.1.moves = some k) :
    ∃ token, r.Carries sv.lib token ∧ ⟨.get token, .ok k⟩ ∈ l₁ := by
  obtain ⟨-, hproper⟩ := wp_sound (serveHTTP_keeps sv r []) h.runs
    (permitted_of_forall (P := fun _ _ => True) fun _ _ => trivial)
  have hacquired : ∀ {l₁ l₂ : Transcript} {e : Exchange ServerCall.Answer}, t = l₁ ++ e :: l₂ →
      (e.1 = .acquireWebSocket k ∨ ∃ lane, e.1 = .acquireWebSocketLane k lane) →
        ∃ token, r.Carries sv.lib token ∧ ⟨.get token, .ok k⟩ ∈ l₁ := by
    intro l₁ l₂ e ht he
    have hdue : sv.Entitled r l₁ e.1 := by
      rw [ht] at hproper
      simpa using hproper.split
    rcases he with he | ⟨lane, he⟩
    · rw [he] at hdue
      obtain ⟨-, -, token, hoffers, -, hfound, -⟩ := hdue
      exact ⟨token, .inr ⟨none, by simp [hoffers]⟩, hfound⟩
    · rw [he] at hdue
      obtain ⟨-, -, token, hoffers, -, hfound, -⟩ := hdue
      exact ⟨token, .inr ⟨some lane, by simp [hoffers]⟩, hfound⟩
  have hreleased : ∀ {e' : Exchange ServerCall.Answer}, e' ∈ l₁ →
      (e'.1 = .acquireWebSocket k ∨ ∃ lane, e'.1 = .acquireWebSocketLane k lane) →
        ∃ token, r.Carries sv.lib token ∧ ⟨.get token, .ok k⟩ ∈ l₁ := by
    intro e' hmem he
    obtain ⟨m₁, m₂, rfl⟩ := List.append_of_mem hmem
    obtain ⟨token, hcarries, hfound⟩ := @hacquired m₁ (m₂ ++ e :: l₂) e' (by rw [ht]; simp) he
    exact ⟨token, hcarries, by simp [hfound]⟩
  have hdue : sv.Entitled r l₁ e.1 := by
    rw [ht] at hproper
    simpa using hproper.split
  obtain ⟨c, x⟩ := e
  cases c with
  | processUp k' sequence body =>
      cases hk
      obtain ⟨-, token, hbearer, hfound, -⟩ := hdue
      exact ⟨token, .inl hbearer, hfound⟩
  | processUpLane k' lane sequence body =>
      cases hk
      obtain ⟨-, -, token, hbearer, hfound, -⟩ := hdue
      exact ⟨token, .inl hbearer, hfound⟩
  | poll k' cursor =>
      cases hk
      obtain ⟨-, token, hbearer, hfound, -⟩ := hdue
      exact ⟨token, .inl hbearer, hfound⟩
  | pollLane k' lane cursor =>
      cases hk
      obtain ⟨-, -, token, hbearer, hfound, -⟩ := hdue
      exact ⟨token, .inl hbearer, hfound⟩
  | acquireWebSocket k' =>
      cases hk
      exact hacquired ht (.inl rfl)
  | acquireWebSocketLane k' lane =>
      cases hk
      exact hacquired ht (.inr ⟨lane, rfl⟩)
  | releaseWebSocketLane k' lane =>
      cases hk
      exact hreleased hdue (.inr ⟨lane, rfl⟩)
  | close k' =>
      cases hk
      exact hreleased hdue (.inl rfl)
  | _ => cases hk

/-- **Who may move a session**: whatever the manager and the sessions answer, a handler calls for
nothing that the request and the answers so far do not entitle it to; the methods of a session are
called only for requests that carry the token which its creation returned; and a session token is
in the answer to a request that created its session, or retried to, and in no other. -/
theorem session_moved_by_its_token (hsha : Registry.TellsTokensApart sha256)
    (hnames : (config.profiles.map Profile.name).Nodup)
    (h : Served (F := F) sha256 sv (fun L _ => Lifecycle.Reachable sha256 config L) r t a) :
    (∀ l₁ e l₂, t = l₁ ++ e :: l₂ → sv.Entitled r l₁ e.1) ∧
      (∀ e ∈ t, ∀ k, e.1.moves = some k → ∃ L : Lifecycle F,
        Lifecycle.Reachable sha256 config L ∧ ∃ c ∈ L.fleet.run.creations,
          c.result.session = k ∧ r.Carries sv.lib c.result.token) ∧
      TokenKept t a := by
  obtain ⟨hkept, hproper⟩ := wp_sound (serveHTTP_keeps sv r []) h.runs
    (permitted_of_forall (P := fun _ _ => True) fun _ _ => trivial)
  refine ⟨?_, ?_, hkept⟩
  · rintro l₁ e l₂ rfl
    simpa using hproper.split
  · intro e he k hk
    obtain ⟨l₁, l₂, ht⟩ := List.append_of_mem he
    obtain ⟨token, hcarries, hfound⟩ := h.found ht hk
    obtain ⟨L, now, L', hr, hget, -⟩ := h.answered ⟨.get token, .ok k⟩ (by rw [ht]; simp [hfound])
    obtain ⟨c, hc, hsession, rfl⟩ := hr.get_creation hsha hnames hget.symm
    exact ⟨L, hr, c, hc, hsession, hcarries⟩

/-- A poll with the token of a session. -/
def firstPoll : Request where
  method := "POST"
  host := "front.test"
  path := "/api/v1/down"
  header := Header.ofList [("Authorization", "Bearer " ++ Base64.encode (List.replicate 32 2)),
    ("X-Down-Cursor", "0")]
  remoteAddr := "127.0.0.1:40000"

/-- What a process with one session answers to it. -/
def oneSessionAnswers : (c : ServerCall) → c.Answer
  | .get _ => .ok 0
  | .poll _ _ => .ok ([], 0)
  | c => startedAnswers c

theorem session_moved_by_its_token_poll : ∃ t a,
    t.map Sigma.fst = [.get (Base64.encode (List.replicate 32 2)), .carrierMode 0, .poll 0 0] ∧
      Served (F := ℚ) id (oneServer (.site onePage))
        (fun L _ => Lifecycle.Reachable id Registry.oneProfile L) firstPoll t a ∧
      ∀ e ∈ t, ∀ k, e.1.moves = some k → ∃ L : Lifecycle ℚ,
        Lifecycle.Reachable id Registry.oneProfile L ∧ ∃ c ∈ L.fleet.run.creations,
          c.result.session = k ∧ firstPoll.Carries plainLibrary c.result.token := by
  have hcalls : (((oneServer (.site onePage)).serveHTTP firstPoll).play oneSessionAnswers).1.map
      Sigma.fst = [.get (Base64.encode (List.replicate 32 2)), .carrierMode 0, .poll 0 0] := by
    decide +kernel
  have hserved : Served (F := ℚ) id (oneServer (.site onePage))
      (fun L _ => Lifecycle.Reachable id Registry.oneProfile L) firstPoll
      (((oneServer (.site onePage)).serveHTTP firstPoll).play oneSessionAnswers).1
      (((oneServer (.site onePage)).serveHTTP firstPoll).play oneSessionAnswers).2 := by
    refine ⟨runs_play _ _, fun e he => ?_⟩
    have hcall := List.mem_map_of_mem (f := Sigma.fst) he
    rw [hcalls] at hcall
    have hanswer := play_answers _ _ e he
    obtain ⟨c, x⟩ := e
    dsimp only at hcall hanswer
    subst hanswer
    simp only [List.mem_cons, List.not_mem_nil, or_false] at hcall
    rcases hcall with rfl | rfl | rfl
    · exact ⟨oneSession, 0, _, oneSession_reachable, by decide +kernel, rfl⟩
    · exact ⟨oneSession, 0, _, oneSession_reachable, ⟨_, rfl, rfl⟩, rfl⟩
    · exact ⟨oneSession, 0, _, oneSession_reachable, Relation.ReflTransGen.refl⟩
  exact ⟨_, _, hcalls, hserved, (session_moved_by_its_token (fun a b _ _ h => h) (by decide)
    hserved).2.1⟩

end Server

end

end TproxyServer
