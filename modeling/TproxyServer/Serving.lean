import TproxyServer.Server
import TproxyServer.TokenLife

/-! # Requests that are served

What the manager and the sessions answer to the calls of a handler, in a state of the process.
Any number of requests may be served at once: the calls of one of them are answered in different
states, between which anything may happen. -/

namespace TproxyServer

open Dialogue Lifecycle

variable {F : Type} [Float64 F]

/-- An operation on the tokens has been the next thing to happen. -/
def Lifecycle.Operates (sha256 : Bytes → Bytes) (L : Lifecycle F) (op : Registry.Op)
    (L' : Lifecycle F) : Prop :=
  ∃ W, Fleet.Step sha256 L.fleet W ∧ W.run = L.fleet.run.after sha256 op ∧
    L' = { L with fleet := W }

/-- The call is answered with `x` in the state `L` when the clock reads `now`, and leaves `L'`.
What the methods of a session answer is left open here, as is what they do to the process. -/
def Answers (sha256 : Bytes → Bytes) (L : Lifecycle F) (now : ℤ) :
    (c : ServerCall) → c.Answer → Lifecycle F → Prop
  | .matchCapability value, x, L' => x = L.registry.matchCapability value ∧ L' = L
  | .issueBootstrap profile ip, x, L' => ∃ random order,
      x = (L.registry.issueBootstrap sha256 (some profile) ip now random order).2 ∧
        L.Operates sha256 (.issueBootstrap (some profile) ip now random order) L'
  | .hasBootstrap token, x, L' => x = L.registry.hasBootstrap sha256 token now ∧ L' = L
  | .create token ip body, x, L' => ∃ random,
      x = (L.registry.create sha256 token ip body now random).2 ∧
        L.Operates sha256 (.create token ip body now random) L'
  | .get token, x, L' => x = L.registry.get sha256 token ∧ L' = L
  | .closeToken token, x, L' =>
      match L.registry.closeToken sha256 token with
      | .error err => x = .error err ∧ L' = L
      | .ok _ => x = .ok () ∧ L.Steps sha256 L'
  | .carrierMode k, x, L' =>
      (∃ tenant, L.fleet.sessions.get k = some tenant ∧ x = tenant.profile.carrierMode) ∧ L' = L
  | .upgrade _, _, L' | .contextErr, _, L' => L' = L
  | _, _, L' => L.Steps sha256 L'

/-- A token of a bootstrap that has not expired, of a live session, or of a closed session that is
still remembered. -/
def Lifecycle.Knows (sha256 : Bytes → Bytes) (L : Lifecycle F) (now : ℤ) (token : String) : Prop :=
  ∃ hash, tokenHash sha256 token = some hash ∧
    ((∃ entry, L.registry.bootstraps.get hash = some entry ∧ ¬ entry.expires < now) ∨
      L.registry.sessions.get hash ≠ none ∨ L.registry.closedTokens.get hash ≠ none)

/-- The request carries this token. -/
def Request.Carries (lib : Library) (r : Request) (token : String) : Prop :=
  r.header.get "Authorization" = "Bearer " ++ token ∨
    ∃ lane, webSocketProtocol token lane ∈ lib.subprotocols r.header

section
variable {sha256 : Bytes → Bytes} {L : Lifecycle F} {now : ℤ} {token : String}

omit [Float64 F] in
theorem hasBootstrap_of_not_knows (h : ¬ L.Knows sha256 now token) :
    L.registry.hasBootstrap sha256 token now = false := by
  unfold Registry.hasBootstrap
  cases hhash : tokenHash sha256 token with
  | none => rfl
  | some hash =>
      dsimp only [Option.bind_some]
      cases hentry : L.registry.bootstraps.get hash with
      | none => rfl
      | some entry =>
          by_contra hexpires
          apply h
          refine ⟨hash, hhash, .inl ⟨entry, hentry, ?_⟩⟩
          simpa using hexpires

omit [Float64 F] in
theorem get_of_not_knows (h : ¬ L.Knows sha256 now token) :
    L.registry.get sha256 token = .error .authentication := by
  unfold Registry.get
  cases hhash : tokenHash sha256 token with
  | none => rfl
  | some hash =>
      dsimp only [Option.bind_some]
      cases hlive : L.registry.sessions.get hash with
      | none => rfl
      | some live => exact absurd ⟨hash, hhash, .inr (.inl (by simp [hlive]))⟩ h

omit [Float64 F] in
theorem closeToken_of_not_knows (h : ¬ L.Knows sha256 now token) :
    L.registry.closeToken sha256 token = .error .authentication := by
  unfold Registry.closeToken
  cases hhash : tokenHash sha256 token with
  | none => rfl
  | some hash =>
      dsimp only
      cases hlive : L.registry.sessions.get hash with
      | some live => exact absurd ⟨hash, hhash, .inr (.inl (by simp [hlive]))⟩ h
      | none =>
          cases hclosed : L.registry.closedTokens.get hash with
          | none => rfl
          | some expires => exact absurd ⟨hash, hhash, .inr (.inr (by simp [hclosed]))⟩ h

end

/-! ### A process with one session -/

/-- A bootstrap was issued and a session created from it. -/
def oneSession : Lifecycle ℚ :=
  let alpha : Profile := { name := "alpha", capability := zeroDigest }
  let W : Fleet ℚ := newFleet Registry.oneProfile
  let run := (W.run.after id (.issueBootstrap (some alpha) "198.51.100.31" 0
    (some (List.replicate 32 1)) [])).after id (.create (Base64.encode (List.replicate 32 1))
      "198.51.100.31" (encode .hello 0 [1]) 1 (some (List.replicate 32 2)))
  { fleet := { W with run }.set 0 alpha
      (.idle ⟨newSession (Registry.oneProfile.sessionLimits alpha) .https, []⟩) }

theorem oneSession_reachable : Lifecycle.Reachable id Registry.oneProfile oneSession := by
  let alpha : Profile := { name := "alpha", capability := zeroDigest }
  let issue : Registry.Op := .issueBootstrap (some alpha) "198.51.100.31" 0
    (some (List.replicate 32 1)) []
  let create : Registry.Op := .create (Base64.encode (List.replicate 32 1)) "198.51.100.31"
    (encode .hello 0 [1]) 1 (some (List.replicate 32 2))
  let W₀ : Fleet ℚ := newFleet Registry.oneProfile
  let W₁ : Fleet ℚ := { W₀ with run := W₀.run.after id issue }
  let L₁ : Lifecycle ℚ := { fleet := W₁ }
  have h₁ : Lifecycle.Reachable id Registry.oneProfile L₁ := by
    refine Lifecycle.Reachable.start.step (Lifecycle.Step.work (W := W₁)
      (@Fleet.Step.manage ℚ _ id W₀ issue (by decide +kernel) rfl ?_) (by decide +kernel))
    intro k now order hop
    simp [issue] at hop
  have hlive : (W₁.run.after id create).registry.sessions.get (List.replicate 32 2) =
      some ⟨0, "198.51.100.31", alpha⟩ := by decide +kernel
  exact h₁.step (Lifecycle.Step.work (W := oneSession.fleet) (@Fleet.Step.create ℚ _ id W₁ create
    _ _ (by decide +kernel) hlive (by decide +kernel)) (by decide +kernel))

end TproxyServer
