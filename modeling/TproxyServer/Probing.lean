import TproxyServer.Serving

/-! # What a request without credentials finds out

A request that carries no token that the process knows, and no query that names a capability,
gets the answer that its public side gives, whatever the state of the process, and changes
nothing: its answer is a function of the site and of the request. -/

namespace TproxyServer

open Dialogue Lifecycle

variable {F : Type} [Float64 F]

namespace Server

/-- The answer to a request without credentials. -/
def publicAnswer (sv : Server) (r : Request) : Outcome :=
  if ¬ sv.rightHost r then sv.serveWrongHost r
  else if isTransportPath r.path then sv.serveNotFound r
  else if r.path = "/" ∧ (r.method = "GET" ∨ r.method = "HEAD") then sv.servePublicRoot r
  else if r.method ≠ "GET" ∧ r.method ≠ "HEAD" then sv.serveNotFound r
  else sv.serveStatic r

/-- The process runs this server, knows no token that the request carries, and the query of the
request names no capability. -/
structure Unprivileged (sha256 : Bytes → Bytes) (sv : Server) (r : Request) (L : Lifecycle F)
    (now : ℤ) : Prop where
  config : L.registry.config = sv.config
  token : ∀ token, r.Carries sv.lib token → ¬ L.Knows sha256 now token
  query : ∀ p ∈ sv.config.profiles, r.rawQuery ≠ "bridge=" ++ Base64.encode p.capability

/-- The request is served, each of its calls being answered in a state that `C` holds of. -/
structure Served (sha256 : Bytes → Bytes) (sv : Server) (C : Lifecycle F → ℤ → Prop)
    (r : Request) (t : List (Exchange ServerCall.Answer)) (a : Outcome) : Prop where
  runs : Runs (sv.serveHTTP r) t a
  answered : ∀ e ∈ t, ∃ L now L', C L now ∧ Answers sha256 L now e.1 e.2 L'

end Server

/-! ### Environments and duties -/

section
variable (sha256 : Bytes → Bytes) (C : Lifecycle F → ℤ → Prop)

/-- The environment answers in the states that `C` holds of. -/
def answersWhere : Permission ServerCall.Answer :=
  fun _ c x => ∃ L now L', C L now ∧ Answers sha256 L now c x L'

/-- The call changes nothing in the states that `C` holds of. -/
def Harmless (c : ServerCall) : Prop :=
  ∀ L now x L', C L now → Answers sha256 L now c x L' → L' = L

def harmless : Duty ServerCall.Answer := fun _ c => Harmless sha256 C c

end

namespace Server

section
variable {sha256 : Bytes → Bytes} {sv : Server} {r : Request} {C : Lifecycle F → ℤ → Prop}
  {token ip : String} {t : List (Exchange ServerCall.Answer)}

/-- `Get` fails for a token that is not known, and changes nothing. -/
theorem get_unknown (hC : ∀ L now, C L now → ¬ L.Knows sha256 now token) {α : Type}
    {next : Except ManagerError ℕ → Handler α} {post : List (Exchange ServerCall.Answer) → α → Prop}
    (h : ∀ t err, (next (.error err)).wp (answersWhere sha256 C) (harmless sha256 C) post t) :
    (Handler.get token >>= next).wp (answersWhere sha256 C) (harmless sha256 C) post t := by
  refine ⟨fun L now x L' _ ha => ha.2, fun x hx => ?_⟩
  obtain ⟨L, now, L', hc, rfl, -⟩ := hx
  rw [get_of_not_knows (hC L now hc)]
  exact h _ _

variable (hC : ∀ L now, C L now → ¬ L.Knows sha256 now token)
include hC

theorem serveSession_unknown :
    (sv.serveSession r token ip).wp (answersWhere sha256 C) (harmless sha256 C)
      (fun _ a => a = sv.serveNotFound r) t := by
  unfold serveSession
  refine wp_ite.mpr ⟨fun _ => ?_, fun _ => wp_ite.mpr ⟨fun _ => rfl, fun _ => ?_⟩⟩
  · refine ⟨fun L now x L' hc ha => ?_, fun x hx => ?_⟩
    · simp only [Answers, closeToken_of_not_knows (hC L now hc)] at ha
      exact ha.2
    · obtain ⟨L, now, L', hc, ha⟩ := hx
      simp only [Answers, closeToken_of_not_knows (hC L now hc)] at ha
      rw [ha.1]
      rfl
  · refine ⟨fun L now x L' hc ha => ha.2, fun x hx => ?_⟩
    obtain ⟨L, now, L', hc, rfl, -⟩ := hx
    rw [hasBootstrap_of_not_knows (hC L now hc)]
    rfl

theorem serveUp_unknown :
    (sv.serveUp r token).wp (answersWhere sha256 C) (harmless sha256 C)
      (fun _ a => a = sv.serveNotFound r) t := by
  unfold serveUp
  refine wp_ite.mpr ⟨fun _ => rfl, fun _ => ?_⟩
  cases (canonicalUint (r.header.get "X-Up-Seq")).filter (· ≠ 0) with
  | none => rfl
  | some sequence => exact get_unknown hC fun _ _ => rfl

theorem serveDown_unknown :
    (sv.serveDown r token).wp (answersWhere sha256 C) (harmless sha256 C)
      (fun _ a => a = sv.serveNotFound r) t := by
  unfold serveDown
  refine wp_ite.mpr ⟨fun _ => rfl, fun _ => ?_⟩
  cases canonicalUint (r.header.get "X-Down-Cursor") with
  | none => rfl
  | some cursor => exact get_unknown hC fun _ _ => rfl

end

section
variable {sha256 : Bytes → Bytes} {sv : Server} {r : Request} {C : Lifecycle F → ℤ → Prop}
  {t : List (Exchange ServerCall.Answer)}
  (hC : ∀ L now, C L now → Unprivileged sha256 sv r L now)
include hC

theorem serveWebSocket_unprivileged :
    (sv.serveWebSocket r).wp (answersWhere sha256 C) (harmless sha256 C)
      (fun _ a => a = sv.serveNotFound r) t := by
  unfold serveWebSocket
  refine wp_ite.mpr ⟨fun _ => rfl, fun _ => ?_⟩
  split
  · next protocol hprotocol =>
      cases hcred : webSocketCredentials protocol with
      | none => rfl
      | some credentials =>
          obtain ⟨token, lane⟩ := credentials
          refine wp_ite.mpr ⟨fun _ => rfl, fun _ => ?_⟩
          refine get_unknown (fun L now hc => (hC L now hc).token token ?_) fun _ _ => rfl
          refine .inr ⟨lane, ?_⟩
          rw [hprotocol, (webSocketCredentials_eq_some.mp hcred).2]
          exact List.mem_singleton.mpr rfl
  · rfl

theorem serveAPI_unprivileged :
    (sv.serveAPI r).wp (answersWhere sha256 C) (harmless sha256 C)
      (fun _ a => a = sv.serveNotFound r) t := by
  unfold serveAPI
  refine wp_ite.mpr ⟨fun _ => rfl, fun _ => ?_⟩
  cases clientIP sv.lib r with
  | none => rfl
  | some ip =>
      refine wp_ite.mpr ⟨fun _ => serveWebSocket_unprivileged hC, fun _ => ?_⟩
      cases htoken : bearerToken (r.header.get "Authorization") with
      | none => rfl
      | some token =>
          have hknown : ∀ L now, C L now → ¬ L.Knows sha256 now token := fun L now hc =>
            (hC L now hc).token token (.inl (bearerToken_eq_some.mp htoken).2)
          refine wp_ite.mpr ⟨fun _ => serveSession_unknown hknown, fun _ => ?_⟩
          refine wp_ite.mpr ⟨fun _ => serveUp_unknown hknown, fun _ => ?_⟩
          exact wp_ite.mpr ⟨fun _ => serveDown_unknown hknown, fun _ => rfl⟩

theorem serveRoot_unprivileged :
    (sv.serveRoot r).wp (answersWhere sha256 C) (harmless sha256 C)
      (fun _ a => a = sv.servePublicRoot r) t := by
  refine ⟨fun L now x L' _ ha => ha.2, fun x hx => ?_⟩
  obtain ⟨L, now, L', hc, rfl, -⟩ := hx
  cases hcandidate : bridgeCandidate r.rawQuery with
  | none => rfl
  | some capability =>
      obtain ⟨-, hquery⟩ := bridgeCandidate_eq_some.mp hcandidate
      suffices hnone : L.registry.matchCapability capability = none by
        simp only [Option.getD_some, hnone]
        rfl
      unfold Registry.matchCapability
      split_ifs with hlength
      · rfl
      · rw [List.find?_eq_none]
        intro p hp hmatch
        rw [List.mem_reverse, (hC L now hc).config] at hp
        have hsame : p.capability = capability := by simpa using hmatch
        exact (hC L now hc).query p hp (by rw [hquery, hsame])

theorem serveHTTP_unprivileged :
    (sv.serveHTTP r).wp (answersWhere sha256 C) (harmless sha256 C)
      (fun _ a => a = sv.publicAnswer r) t := by
  unfold serveHTTP publicAnswer
  split_ifs
  · exact serveAPI_unprivileged hC
  · exact serveRoot_unprivileged hC
  · rfl
  · rfl
  · rfl

end

/-! ### The answer of the static site -/

variable {sha256 : Bytes → Bytes} {sv : Server} {r : Request}
  {t : List (Exchange ServerCall.Answer)} {a : Outcome}

/-- What a request without credentials is answered, and that none of its calls changes anything. -/
theorem Served.unprivileged {C : Lifecycle F → ℤ → Prop}
    (hC : ∀ L now, C L now → Unprivileged sha256 sv r L now) (h : Served sha256 sv C r t a) :
    a = sv.publicAnswer r ∧ ∀ e ∈ t, Harmless sha256 C e.1 := by
  obtain ⟨hpost, hproper⟩ := wp_sound (serveHTTP_unprivileged (t := []) hC) h.runs
    (permitted_of_forall h.answered)
  exact ⟨hpost, hproper.calls⟩

/-- The request is served while it is without credentials. -/
abbrev Probed (F : Type) [Float64 F] (sha256 : Bytes → Bytes) (sv : Server) (r : Request)
    (t : List (Exchange ServerCall.Answer)) (a : Outcome) : Prop :=
  Served (F := F) sha256 sv (Unprivileged sha256 sv r) r t a

/-- Two responses that differ in `Cache-Control` alone. -/
def SameButCaching (a b : Outcome) : Prop :=
  ∃ x y : Response, a = .response x ∧ b = .response y ∧ x.status = y.status ∧ x.body = y.body ∧
    x.header.filter (·.1 ≠ "Cache-Control") = y.header.filter (·.1 ≠ "Cache-Control")

theorem serveEntry_sameButCaching (lib : Library) (site : StaticSite) (r : Request)
    (entry : StaticEntry) (status : ℕ) (query : String) :
    SameButCaching (.response (serveEntry lib site r entry status))
      (.response (serveEntry lib site { r with rawQuery := query } entry status)) := by
  refine ⟨_, _, rfl, rfl, ?_⟩
  unfold serveEntry
  dsimp only
  by_cases hfresh : status = 200 ∧ notModified lib r site.modTime = true
  · have hfresh' : status = 200 ∧
        notModified lib { r with rawQuery := query } site.modTime = true := hfresh
    rw [if_pos hfresh, if_pos hfresh']
    simp
  · have hfresh' : ¬ (status = 200 ∧
        notModified lib { r with rawQuery := query } site.modTime = true) := hfresh
    rw [if_neg hfresh, if_neg hfresh']
    simp

/-- The public side of a static site. -/
theorem publicAnswer_site {site : StaticSite} (hsite : sv.content = .site site) :
    ∃ entry status, sv.publicAnswer r = .response (serveEntry sv.lib site r entry status) := by
  unfold publicAnswer serveWrongHost serveNotFound servePublicRoot serveStatic serveNotFound
  rw [hsite]
  dsimp only
  split_ifs
  · exact ⟨_, _, rfl⟩
  · exact ⟨_, _, rfl⟩
  · exact ⟨_, _, rfl⟩
  · cases site.resolve sv.lib r.path with
    | some entry => exact ⟨_, _, rfl⟩
    | none => exact ⟨_, _, rfl⟩
  · exact ⟨_, _, rfl⟩

theorem publicAnswer_missing {site : StaticSite} (hsite : sv.content = .site site)
    (h : isTransportPath r.path = true ∨ r.path ≠ "/" ∧ site.resolve sv.lib r.path = none) :
    sv.publicAnswer r = .response (serveEntry sv.lib site r site.notFound 404) := by
  have hnotFound : sv.serveNotFound r = .response (serveEntry sv.lib site r site.notFound 404) := by
    unfold serveNotFound
    rw [hsite]
  unfold publicAnswer
  split_ifs with hhost hapi hroot hmethod
  · exact hnotFound
  · rcases h with h | ⟨hpath, -⟩
    · exact absurd h hapi
    · exact absurd hroot.1 hpath
  · exact hnotFound
  · rcases h with h | ⟨-, hmiss⟩
    · exact absurd h hapi
    · unfold serveStatic
      rw [hsite]
      dsimp only
      rw [hmiss]
      exact hnotFound
  · unfold serveWrongHost
    rw [hsite]

theorem publicAnswer_root {site : StaticSite} (hsite : sv.content = .site site)
    (hpath : r.path = "/") (hmethod : r.method = "GET" ∨ r.method = "HEAD") (query : String) :
    SameButCaching (sv.publicAnswer r) (sv.publicAnswer { r with rawQuery := query }) := by
  unfold publicAnswer serveWrongHost servePublicRoot
  rw [hsite]
  dsimp only [Server.rightHost]
  by_cases hhost : r.host = sv.publicHostname ∨ r.host = sv.publicHostname ++ ":443"
  · simp only [hhost, hpath, hmethod, not_true_eq_false, and_self, if_true, if_false]
    exact serveEntry_sameButCaching _ _ _ _ _ _
  · simp only [hhost, not_false_eq_true, if_true]
    exact serveEntry_sameButCaching _ _ _ _ _ _

/-- **Probing tells nothing apart**: with a static site, a request that carries no token that the
process knows and no query of a capability is answered as by the site alone, in any states of the
process, and changes nothing.  The paths of the transport look like any that is not there, and a
query at the root changes the `Cache-Control` only. -/
theorem probing_indistinguishable {site : StaticSite} (hsite : sv.content = .site site)
    {t' : List (Exchange ServerCall.Answer)} {a' : Outcome}
    (h : Probed F sha256 sv r t a) (h' : Probed F sha256 sv r t' a') :
    (∃ response, a = .response response) ∧ a' = a ∧
      (∀ e ∈ t, ∀ (L : Lifecycle F) now x L', Unprivileged sha256 sv r L now →
        Answers sha256 L now e.1 x L' → L' = L) ∧
      (isTransportPath r.path = true → ∀ path t₁ a₁, path ≠ "/" →
        site.resolve sv.lib path = none → Probed F sha256 sv { r with path } t₁ a₁ → a₁ = a) ∧
      (r.path = "/" → r.method = "GET" ∨ r.method = "HEAD" → ∀ t₁ a₁,
        Probed F sha256 sv { r with rawQuery := "" } t₁ a₁ → SameButCaching a a₁) := by
  obtain ⟨rfl, hharmless⟩ := h.unprivileged fun _ _ hc => hc
  obtain ⟨rfl, -⟩ := h'.unprivileged fun _ _ hc => hc
  refine ⟨?_, rfl, hharmless, ?_, ?_⟩
  · obtain ⟨entry, status, he⟩ := publicAnswer_site (r := r) hsite
    exact ⟨_, he⟩
  · intro hapi path t₁ a₁ hpath hmiss h₁
    rw [(h₁.unprivileged fun _ _ hc => hc).1]
    rw [publicAnswer_missing hsite (.inl hapi)]
    exact publicAnswer_missing hsite (.inr ⟨hpath, hmiss⟩)
  · intro hpath hmethod t₁ a₁ h₁
    rw [(h₁.unprivileged fun _ _ hc => hc).1]
    exact publicAnswer_root hsite hpath hmethod ""

/-! ### A server -/

/-- A library that knows one address, one media type and no dates. -/
def plainLibrary : Library where
  splitHostPort _ := some "127.0.0.1"
  parseIP address := if address = "127.0.0.1" then some (address, true) else none
  trimSpace text := text
  parseMediaType value := if value = "application/octet-stream" then some (value, []) else none
  parseTime _ := none
  formatTime _ := "Mon, 01 Jan 2024 00:00:00 GMT"
  clean path := path
  ext _ := ""
  subprotocols h := h "Sec-Websocket-Protocol"
  render _ _ _ _ := none

/-- A site of one page. -/
def onePage : StaticSite where
  entries := [("/index.html", ⟨"index".toUTF8.toList, "text/html; charset=utf-8"⟩)]
  modTime := 0
  hasIndex := by decide

def oneServer (content : Content) : Server where
  config := Registry.oneProfile
  publicHostname := "front.test"
  content
  lib := plainLibrary

/-- What a process answers that has just started. -/
def startedAnswers : (c : ServerCall) → c.Answer
  | .matchCapability value =>
      if value.length = 32 then
        Registry.oneProfile.profiles.find? fun p => p.capability = value
      else none
  | .issueBootstrap _ _ | .create _ _ _ | .get _ | .closeToken _ => .error .authentication
  | .hasBootstrap _ => false
  | .carrierMode _ => .https
  | .processUp _ _ _ | .processUpLane _ _ _ _ | .poll _ _ | .pollLane _ _ _ => .error .closed
  | .acquireWebSocket _ | .acquireWebSocketLane _ _ | .upgrade _ | .contextErr => false
  | .releaseWebSocketLane _ _ | .close _ => ()

/-- An uplink request with the token of 32 zero bytes. -/
def strayUplink : Request where
  method := "POST"
  host := "front.test"
  path := "/api/v1/up"
  header := Header.ofList [("Authorization", "Bearer " ++ Base64.encode zeroDigest),
    ("Content-Type", "application/octet-stream"), ("X-Up-Seq", "1")]
  remoteAddr := "127.0.0.1:40000"
  contentLength := 1
  body := [0]

/-- The token is looked up, in vain. -/
theorem probing_indistinguishable_stray : ∃ t a,
    t.map Sigma.fst = [.get (Base64.encode zeroDigest)] ∧
      Probed ℚ id (oneServer (.site onePage)) strayUplink t a ∧
      ∃ response, a = .response response := by
  have hcalls : (((oneServer (.site onePage)).serveHTTP strayUplink).play startedAnswers).1.map
      Sigma.fst = [.get (Base64.encode zeroDigest)] := by
    decide +kernel
  have hserved : Probed ℚ id (oneServer (.site onePage)) strayUplink
      (((oneServer (.site onePage)).serveHTTP strayUplink).play startedAnswers).1
      (((oneServer (.site onePage)).serveHTTP strayUplink).play startedAnswers).2 := by
    refine ⟨runs_play _ _, fun e he => ?_⟩
    have hcall : e.1 = .get (Base64.encode zeroDigest) := by
      have := List.mem_map_of_mem (f := Sigma.fst) he
      rw [hcalls] at this
      simpa using this
    have hanswer := play_answers _ _ e he
    obtain ⟨c, x⟩ := e
    dsimp only at hcall hanswer
    subst hcall hanswer
    refine ⟨{ fleet := newFleet Registry.oneProfile }, 0, _, ⟨rfl, ?_, ?_⟩, ?_, rfl⟩
    · rintro token - ⟨hash, -, h⟩
      rcases h with ⟨entry, h, -⟩ | h | h
      · cases h
      · exact h rfl
      · exact h rfl
    · intro p hp
      decide +revert
    · unfold Registry.get
      cases tokenHash id (Base64.encode zeroDigest) <;> rfl
  exact ⟨_, _, hcalls, hserved, (probing_indistinguishable rfl hserved hserved).1⟩

end Server

end TproxyServer
