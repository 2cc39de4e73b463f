import TproxyServer.Finish
import TproxyServer.FleetAccounting
import TproxyServer.Rates

/-! # The life of a session token

A session leaves `m.sessions` in a goroutine of its own, some time after it was closed, and its
token is then remembered in `m.closedTokens` until it expires or makes room for another.  The
runs below have any number of sessions, of `CloseToken` calls under way and of such goroutines
that have not come to run. -/

namespace TproxyServer

open Interaction Prog

variable {F : Type} {sha256 : Bytes → Bytes} {config : Config}

namespace Registry

variable {r r' : Registry F}

/-! ### What an operation makes of the tokens -/

theorem size_put_le {K V : Type} [DecidableEq K] (t : Table K V) (k : K) (v : V) :
    (t.put k v).size ≤ t.size + 1 := by
  have hkeys : (t.put k v).size = (t.keys.erase k).length + 1 := by
    unfold Table.size Table.put
    rw [AList.keys_insert, List.length_cons]
  have hle : (t.keys.erase k).length ≤ t.keys.length := List.length_erase_le
  unfold Table.size at hkeys ⊢
  omega

theorem foldl_del_get (gone : ℤ → Prop) [DecidablePred gone]
    (l : List (Sigma fun _ : Bytes => ℤ)) (t : Table Bytes ℤ) (hash : Bytes) :
    (l.foldl (fun t e => if gone e.2 then t.del e.1 else t) t).get hash = t.get hash ∨
      (l.foldl (fun t e => if gone e.2 then t.del e.1 else t) t).get hash = none ∧
        ∃ e ∈ l, e.1 = hash ∧ gone e.2 := by
  induction l generalizing t with
  | nil => exact .inl rfl
  | cons e l ih =>
      rw [List.foldl_cons]
      by_cases hg : gone e.2
      · rw [if_pos hg]
        rcases ih (t.del e.1) with h | ⟨h, e', he', heq, hgone⟩
        · by_cases hk : hash = e.1
          · subst hk
            refine .inr ⟨?_, e, by simp, rfl, hg⟩
            rw [h, Table.get_del, if_pos rfl]
          · exact .inl (h.trans (Table.get_del_ne t hk))
        · exact .inr ⟨h, e', List.mem_cons_of_mem _ he', heq, hgone⟩
      · rw [if_neg hg]
        rcases ih t with h | ⟨h, e', he', heq, hgone⟩
        · exact .inl h
        · exact .inr ⟨h, e', List.mem_cons_of_mem _ he', heq, hgone⟩

/-- The entry of a closed token goes only where it has expired. -/
theorem expire_closedTokens (r : Registry F) (now : ℤ) (hash : Bytes) :
    (r.removeExpiredBootstrapsLocked now).closedTokens.get hash = r.closedTokens.get hash ∨
      (r.removeExpiredBootstrapsLocked now).closedTokens.get hash = none ∧
        ∃ expires, r.closedTokens.get hash = some expires ∧ expires < now := by
  have hsame : (r.removeBootstraps fun value => value.expires < now).closedTokens =
      r.closedTokens := by
    apply removeBootstraps_induct (I := fun r' : Registry F => r'.closedTokens = r.closedTokens)
    · intro r' hash value _ _ h
      rw [← h]
      unfold removeBootstrapLocked releaseUnusedBootstrapLocked
      split_ifs <;> rfl
    · rfl
  unfold removeExpiredBootstrapsLocked
  dsimp only
  rw [hsame]
  rcases foldl_del_get (· < now) r.closedTokens.entries r.closedTokens hash with
    h | ⟨h, e, he, rfl, hgone⟩
  · exact .inl h
  · exact .inr ⟨h, e.2, Table.get_of_mem _ he, hgone⟩

/-- The order in which a loop over `m.closedTokens` meets its keys. -/
def Meets (r : Registry F) (order : List Bytes) : Prop :=
  ∀ hash, r.closedTokens.get hash ≠ none → hash ∈ order

/-- The entry that `sessionFinished` makes room with is the first to expire. -/
structure EarliestClosed (r : Registry F) (met : List Bytes) (best : Bytes × ℤ) : Prop where
  entry : r.closedTokens.get best.1 = some best.2
  least : ∀ hash ∈ met, ∀ expires, r.closedTokens.get hash = some expires → best.2 ≤ expires

/-- What one turn of a loop keeps of the elements met so far, the loop keeps. -/
theorem foldl_met {α β : Type} {f : β → α → β} {I : List α → β → Prop}
    (hstep : ∀ met b a, I met b → I (met ++ [a]) (f b a)) (l met : List α) (b : β)
    (h : I met b) : I (met ++ l) (l.foldl f b) := by
  induction l generalizing met b with
  | nil => rwa [List.append_nil]
  | cons a l ih =>
      rw [List.append_cons]
      exact ih _ _ (hstep met b a h)

theorem oldestClosed_spec (r : Registry F) (order : List Bytes) :
    (∀ best ∈ r.oldestClosed order, r.EarliestClosed order best) ∧
      (r.oldestClosed order = none → ∀ hash ∈ order, r.closedTokens.get hash = none) := by
  unfold oldestClosed
  refine foldl_met (I := fun met oldest => (∀ best ∈ oldest, r.EarliestClosed met best) ∧
    (oldest = none → ∀ hash ∈ met, r.closedTokens.get hash = none)) ?_ order [] none
    ⟨by simp, by simp⟩
  intro met oldest hash h
  have hmore : r.closedTokens.get hash = none →
      (∀ best ∈ oldest, r.EarliestClosed (met ++ [hash]) best) ∧
        (oldest = none → ∀ hash' ∈ met ++ [hash], r.closedTokens.get hash' = none) := by
    intro hnone
    refine ⟨fun best hbest => ⟨(h.1 best hbest).entry, ?_⟩, ?_⟩
    · intro hash' hmem expires he
      rcases List.mem_append.mp hmem with hmem | hmem
      · exact (h.1 best hbest).least hash' hmem expires he
      · rw [List.mem_singleton.mp hmem, hnone] at he
        cases he
    · intro ho hash' hmem
      rcases List.mem_append.mp hmem with hmem | hmem
      · exact h.2 ho hash' hmem
      · rw [List.mem_singleton.mp hmem, hnone]
  have hnew : ∀ expires, r.closedTokens.get hash = some expires →
      (∀ best ∈ oldest, expires ≤ best.2) →
      r.EarliestClosed (met ++ [hash]) (hash, expires) := by
    intro expires hget hle
    refine ⟨hget, ?_⟩
    intro hash' hmem expires' he
    rcases List.mem_append.mp hmem with hmem | hmem
    · cases oldest with
      | none =>
          rw [h.2 rfl hash' hmem] at he
          cases he
      | some best => exact (hle best rfl).trans ((h.1 best rfl).least hash' hmem expires' he)
    · rw [List.mem_singleton.mp hmem, hget] at he
      cases he
      exact le_rfl
  cases hget : r.closedTokens.get hash with
  | none => exact hmore hget
  | some expires =>
      dsimp only
      cases oldest with
      | none =>
          refine ⟨?_, by simp⟩
          intro best hbest
          cases hbest
          exact hnew expires hget (by simp)
      | some best =>
          dsimp only
          by_cases hlt : expires < best.2
          · rw [if_pos hlt]
            refine ⟨?_, by simp⟩
            intro best' hbest
            cases hbest
            exact hnew expires hget (by simpa using hlt.le)
          · rw [if_neg hlt]
            refine ⟨?_, by simp⟩
            intro best' hbest
            cases hbest
            refine ⟨(h.1 best rfl).entry, ?_⟩
            intro hash' hmem expires' he
            rcases List.mem_append.mp hmem with hmem | hmem
            · exact (h.1 best rfl).least hash' hmem expires' he
            · rw [List.mem_singleton.mp hmem, hget] at he
              cases he
              exact not_lt.mp hlt

/-- The operation takes the entry of a closed token away: it has expired, or it is the first to
expire where there is no room for one more. -/
def Op.Drops (r : Registry F) (hash : Bytes) : Op → Prop
  | .expire now | .issueBootstrap _ _ now _ _ =>
      ∃ expires, r.closedTokens.get hash = some expires ∧ expires < now
  | .sessionFinished _ _ _ =>
      r.config.limits.maxSessionsGlobal.toInt * 16 ≤ r.closedTokens.size ∧
        ∃ expires, r.closedTokens.get hash = some expires ∧
          ∀ hash' expires', r.closedTokens.get hash' = some expires' → expires ≤ expires'
  | _ => False

/-- What an operation leaves of the closed tokens that it adds nothing to. -/
def KeepsClosed (op : Op) (r : Registry F) (closedTokens : Table Bytes ℤ) : Prop :=
  ∀ hash, closedTokens.get hash = r.closedTokens.get hash ∨
    closedTokens.get hash = none ∧ op.Drops r hash

/-- What an operation makes of the tokens. -/
inductive TokenEffect (sha256 : Bytes → Bytes) (r r' : Registry F) (op : Op) :
    Option Creation → Prop
  /-- A session is created under a new token. -/
  | created {c : Creation} {input : Bytes} {live : LiveSession} (hinput : op.random = some input)
      (htoken : c.result.token = Base64.encode input) (hsession : c.result.session = r.nextSession)
      (hlive : live.session = r.nextSession)
      (hsessions : r'.sessions = r.sessions.put (sha256 input) live)
      (hclosed : r'.closedTokens = r.closedTokens) : TokenEffect sha256 r r' op (some c)
  /-- A session has finished, and its token is remembered. -/
  | finished {value : ℕ} {now expires : ℤ} {order : List Bytes} {hash : Bytes}
      {live : LiveSession} {closedTokens : Table Bytes ℤ}
      (hop : op = .sessionFinished value now order) (hget : r.sessions.get hash = some live)
      (hlive : live.session = value) (hsessions : r'.sessions = r.sessions.del hash)
      (hkeeps : KeepsClosed op r closedTokens)
      (hroom : 0 < r.config.limits.maxSessionsGlobal.toInt →
        (r.closedTokens.size : ℤ) ≤ r.config.limits.maxSessionsGlobal.toInt * 16 →
        (closedTokens.size : ℤ) < r.config.limits.maxSessionsGlobal.toInt * 16)
      (hclosed : r'.closedTokens = closedTokens.put hash expires) : TokenEffect sha256 r r' op none
  /-- Entries of closed tokens may go. -/
  | other (hmissing : ∀ value now order, op = .sessionFinished value now order →
        ∀ hash live, r.sessions.get hash = some live → live.session ≠ value)
      (hsessions : r'.sessions = r.sessions) (hkeeps : KeepsClosed op r r'.closedTokens)
      (hsize : r'.closedTokens.size ≤ r.closedTokens.size) :
      TokenEffect sha256 r r' op none

theorem KeepsClosed.refl (op : Op) (r : Registry F) : KeepsClosed op r r.closedTokens :=
  fun _ => .inl rfl

/-- Fewer entries are no larger a table. -/
theorem KeepsClosed.size_le {op : Op} {closedTokens : Table Bytes ℤ}
    (h : KeepsClosed op r closedTokens) : closedTokens.size ≤ r.closedTokens.size := by
  apply Table.size_le_of_keys
  intro hash hne
  rcases h hash with heq | ⟨hnone, -⟩
  · rwa [← heq]
  · exact absurd hnone hne

theorem removeBootstraps_tokens (r : Registry F) (gone : Bootstrap → Bool) :
    (r.removeBootstraps gone).closedTokens = r.closedTokens ∧
      (r.removeBootstraps gone).sessionsClosed = r.sessionsClosed := by
  apply removeBootstraps_induct (I := fun r' : Registry F =>
    r'.closedTokens = r.closedTokens ∧ r'.sessionsClosed = r.sessionsClosed)
  · intro r' hash value _ _ h
    rw [← h.1, ← h.2]
    unfold removeBootstrapLocked releaseUnusedBootstrapLocked
    split_ifs <;> exact ⟨rfl, rfl⟩
  · exact ⟨rfl, rfl⟩

/-- The table that `sessionFinished` enters a token into. -/
theorem makeRoom_keeps (r : Registry F) (value : ℕ) (now : ℤ) {order : List Bytes}
    (hmeets : r.Meets order) {closedTokens : Table Bytes ℤ}
    (h : closedTokens = if r.config.limits.maxSessionsGlobal.toInt * 16 ≤ r.closedTokens.size then
      (r.oldestClosed order).elim r.closedTokens fun oldest => r.closedTokens.del oldest.1
      else r.closedTokens) :
    KeepsClosed (.sessionFinished value now order) r closedTokens ∧
      (0 < r.config.limits.maxSessionsGlobal.toInt →
        (r.closedTokens.size : ℤ) ≤ r.config.limits.maxSessionsGlobal.toInt * 16 →
        (closedTokens.size : ℤ) < r.config.limits.maxSessionsGlobal.toInt * 16) := by
  obtain ⟨hbest, hnone⟩ := r.oldestClosed_spec order
  by_cases hfull : r.config.limits.maxSessionsGlobal.toInt * 16 ≤ r.closedTokens.size
  · rw [if_pos hfull] at h
    cases ho : r.oldestClosed order with
    | none =>
        rw [ho] at h
        subst h
        refine ⟨.refl _ r, fun hpos _ => ?_⟩
        have hempty : r.closedTokens.size ≤ (Table.nil : Table Bytes ℤ).size :=
          Table.size_le_of_keys fun hash hne => absurd (hnone ho hash (hmeets hash hne)) hne
        have hzero : (Table.nil : Table Bytes ℤ).size = 0 := rfl
        omega
    | some best =>
        rw [ho] at h
        subst h
        have hearliest := hbest best ho
        refine ⟨fun hash => ?_, fun _ hle => ?_⟩
        · by_cases hk : hash = best.1
          · subst hk
            refine .inr ⟨?_, hfull, best.2, hearliest.entry, ?_⟩
            · show (r.closedTokens.del best.1).get best.1 = none
              rw [Table.get_del, if_pos rfl]
            · intro hash' expires' he
              exact hearliest.least hash' (hmeets hash' (by simp [he])) expires' he
          · exact .inl (Table.get_del_ne _ hk)
        · have hdel := Table.countP_del_of_get (fun _ => true) r.closedTokens hearliest.entry
          rw [if_pos rfl, ← Table.size_eq_countP, ← Table.size_eq_countP] at hdel
          show ((r.closedTokens.del best.1).size : ℤ) < _
          omega
  · rw [if_neg hfull] at h
    subst h
    exact ⟨.refl _ r, fun _ _ => by omega⟩

/-- `sessionFinished`, as far as tokens go. -/
theorem sessionFinished_effect (r : Registry F) (value : ℕ) (now : ℤ) {order : List Bytes}
    (hmeets : r.Meets order) :
    TokenEffect sha256 r (r.sessionFinished value now order) (.sessionFinished value now order)
      none := by
  unfold Registry.sessionFinished
  cases hfind : r.sessions.entries.find? fun e => e.2.session = value with
  | none =>
      obtain ⟨hclosed, -⟩ := removeBootstraps_tokens r fun current => current.session = some value
      have hsessions := (removeBootstraps_forgets r fun current =>
        current.session = some value).sessions
      refine .other ?_ hsessions ?_ ?_
      · rintro value' now' order' ⟨⟩ hash live hget hlive
        have hmem : (⟨hash, live⟩ : Sigma fun _ : Bytes => LiveSession) ∈ r.sessions.entries :=
          List.of_mem_dlookup hget
        have hno := List.find?_eq_none.mp hfind _ hmem
        simp [hlive] at hno
      · show KeepsClosed _ r (r.removeBootstraps _).closedTokens
        rw [hclosed]
        exact .refl _ r
      · show (r.removeBootstraps _).closedTokens.size ≤ _
        rw [hclosed]
  | some e =>
      have hget := Table.get_of_mem _ (List.mem_of_find?_eq_some hfind)
      have hlive : e.2.session = value := by simpa using List.find?_some hfind
      dsimp only
      obtain ⟨hclosed, -⟩ := removeBootstraps_tokens (r.dropSession e.1 e.2 now order) fun current =>
        current.session = some value
      have hsessions := (removeBootstraps_forgets (r.dropSession e.1 e.2 now order) fun current =>
        current.session = some value).sessions
      have hroom := r.makeRoom_keeps value now hmeets rfl
      have hput : (r.dropSession e.1 e.2 now order).closedTokens =
          (if r.config.limits.maxSessionsGlobal.toInt * 16 ≤ r.closedTokens.size then
            (r.oldestClosed order).elim r.closedTokens fun oldest => r.closedTokens.del oldest.1
          else r.closedTokens).put e.1 (now + r.config.bootstrapLifetime) := by
        unfold dropSession
        cases r.oldestClosed order <;> rfl
      exact .finished rfl hget hlive hsessions hroom.1 hroom.2 (hclosed.trans hput)

theorem sessionFinished_counts (r : Registry F) (value : ℕ) (now : ℤ) (order : List Bytes) :
    (r.sessionFinished value now order).sessionsClosed = r.sessionsClosed + 1 := by
  unfold Registry.sessionFinished
  cases r.sessions.entries.find? fun e => e.2.session = value with
  | none => exact congrArg (· + 1) (removeBootstraps_tokens r _).2
  | some e => exact congrArg (· + 1) (removeBootstraps_tokens (r.dropSession e.1 e.2 now order) _).2

section
variable [Float64 F]

/-- `IssueBootstrap` works on the closed tokens that have not expired. -/
theorem addBootstrap_tokens (r : Registry F) (profile : Profile) (clientIP : String) (now : ℤ)
    (input : Bytes) (order : List Bytes) :
    (r.addBootstrap sha256 profile clientIP now input order).1.sessions = r.sessions ∧
      ((r.addBootstrap sha256 profile clientIP now input order).1.closedTokens = r.closedTokens ∨
        (r.addBootstrap sha256 profile clientIP now input order).1.closedTokens =
          (r.removeExpiredBootstrapsLocked now).closedTokens) := by
  have hsessions := (expire_forgets r now).sessions
  unfold Registry.addBootstrap
  dsimp only
  generalize r.removeExpiredBootstrapsLocked now = r₁ at hsessions
  have hremove : ∀ (r₂ : Registry F) hash value,
      (r₂.removeBootstrapLocked hash value).sessions = r₂.sessions ∧
        (r₂.removeBootstrapLocked hash value).closedTokens = r₂.closedTokens := by
    intro r₂ hash value
    unfold removeBootstrapLocked releaseUnusedBootstrapLocked
    split_ifs <;> exact ⟨rfl, rfl⟩
  by_cases hclosed : r.closed = true
  · rw [if_pos hclosed]
    exact ⟨rfl, .inl rfl⟩
  rw [if_neg hclosed]
  split_ifs
  · exact ⟨hsessions, .inr rfl⟩
  · exact ⟨hsessions, .inr rfl⟩
  · unfold evictOldestUnusedBootstrapLocked
    cases Registry.oldestUnused _ order with
    | none => exact ⟨hsessions, .inr rfl⟩
    | some oldest =>
        obtain ⟨hs, hc⟩ := hremove { r₁ with bootstrapRate := (takeRate r₁.bootstrapRate now
          r.config.limits.newBootstrapsPerMinute r.config.limits.newBootstrapsBurst).1 }
          oldest.1 oldest.2
        exact ⟨hs.trans hsessions, .inr hc⟩
  · exact ⟨hsessions, .inr rfl⟩

/-- **What an operation makes of the tokens.** -/
theorem Op.tokens (r : Registry F) (op : Op)
    (hmeets : ∀ value now order, op = .sessionFinished value now order → r.Meets order) :
    TokenEffect sha256 r (op.exec sha256 r) op (op.creation sha256 r) := by
  have hsame : ∀ r' : Registry F, (∀ value now order, op ≠ .sessionFinished value now order) →
      r'.sessions = r.sessions → r'.closedTokens = r.closedTokens →
      TokenEffect sha256 r r' op none := by
    intro r' hop hsessions hclosed
    refine .other (fun value now order h => absurd h (hop value now order)) hsessions ?_ ?_
    · rw [hclosed]
      exact .refl op r
    · rw [hclosed]
  cases op with
  | issueBootstrap profile clientIP now random order =>
      show TokenEffect sha256 r (r.issueBootstrap sha256 profile clientIP now random order).1 _ none
      unfold Registry.issueBootstrap
      cases profile.bind fun p => r.matchCapability p.capability with
      | none => exact hsame _ (by simp) rfl rfl
      | some profile =>
          cases random with
          | none => exact hsame _ (by simp) rfl rfl
          | some input =>
              obtain ⟨hsessions, hclosed⟩ :=
                @addBootstrap_tokens F sha256 _ r profile clientIP now input order
              rcases hclosed with hclosed | hclosed
              · exact hsame _ (by simp) hsessions hclosed
              · have hkeeps : KeepsClosed (.expire now) r
                    (r.addBootstrap sha256 profile clientIP now input order).1.closedTokens := by
                  rw [hclosed]
                  exact r.expire_closedTokens now
                exact .other (by simp) hsessions hkeeps hkeeps.size_le
  | create token clientIP body now random =>
      unfold Op.creation
      show TokenEffect sha256 r (r.create sha256 token clientIP body now random).1 _ _
      dsimp only
      rcases @create_cases F sha256 _ r token clientIP body now random with
        ⟨e, -, hits, heq⟩ | ⟨rate, rates, heq⟩ | ⟨result, heq⟩ |
        ⟨hash, entry, rate, rates, input, -, htoken, -, -, -, rfl, heq⟩
      · rw [heq]
        cases tokenHash sha256 token <;> exact hsame _ (by simp) rfl rfl
      · rw [heq]
        cases tokenHash sha256 token <;> exact hsame _ (by simp) rfl rfl
      · rw [heq]
        cases tokenHash sha256 token with
        | none => exact hsame _ (by simp) rfl rfl
        | some hash =>
            dsimp only
            rw [if_pos rfl]
            exact hsame _ (by simp) rfl rfl
      · rw [heq, htoken]
        dsimp only
        have hnext : ∀ r₁ : Registry F, (r₁.consume sha256 hash entry clientIP (sha256 body)
            input).1.nextSession ≠ r₁.nextSession := fun r₁ => Nat.succ_ne_self _
        rw [if_neg (hnext { r with sessionRate := rate, profileSessionRates := rates })]
        unfold Registry.consume releaseUnusedBootstrapLocked
        refine @TokenEffect.created F sha256 _ _ _ _ _ ⟨r.nextSession, clientIP, entry.profile⟩
          rfl rfl rfl rfl ?_ ?_
        · dsimp only
          split_ifs <;> rfl
        · dsimp only
          split_ifs <;> rfl
  | hasBootstrap token now => exact hsame _ (by simp) rfl rfl
  | expire now =>
      have hkeeps : KeepsClosed (.expire now) r (r.removeExpiredBootstrapsLocked now).closedTokens :=
        r.expire_closedTokens now
      exact .other (by simp) (expire_forgets r now).sessions hkeeps hkeeps.size_le
  | sessionFinished value now order =>
      exact sessionFinished_effect r value now (hmeets value now order rfl)
  | shutdown => exact hsame _ (by simp) rfl rfl

end

end Registry

/-! ### Finishing in a process -/

/-- The session, where nobody holds its mutex. -/
def Tenancy.traced : Tenancy → Option Traced
  | .idle σ => some σ
  | .running _ _ => none

theorem Tenancy.traced_eq_some {state : Tenancy} {σ : Traced} (h : state.traced = some σ) :
    state = .idle σ := by
  cases state with
  | idle σ' => exact congrArg Tenancy.idle (Option.some.inj h)
  | running t rest => cases h

/-- The session has finished at most once, and its section leads to no second time. -/
def Tenancy.Ends : Tenancy → Prop
  | .idle σ => Finishes σ
  | .running t rest => Ending t rest

theorem Tenancy.Ends.once {state : Tenancy} (h : state.Ends) : finishings state.trace ≤ 1 := by
  cases state with
  | idle σ => exact Finishes.once h
  | running t rest =>
      rcases h with ⟨h0, -⟩ | ⟨h1, -⟩
      · exact h0.le.trans (Nat.zero_le 1)
      · exact h1.le

theorem Ending.note {t : List Event} {e : Event} {rest : Act (Session × Reply)}
    (h : Ending t (.note e rest)) : Ending (t ++ [e]) rest := by
  unfold Ending
  rw [finishings_append]
  rcases h with ⟨h0, hlast⟩ | ⟨h1, hrest⟩
  · by_cases he : e = .finished
    · exact .inr ⟨by rw [h0, he]; rfl, hlast.1 he⟩
    · have hnone : finishings [e] = 0 := List.count_eq_zero.mpr (by simpa using Ne.symm he)
      exact .inl ⟨by rw [h0, hnone], hlast.2⟩
  · have hnone : finishings [e] = 0 := List.count_eq_zero.mpr (by simpa using Ne.symm hrest.1.1)
    exact .inr ⟨by rw [h1, hnone], hrest.2⟩

theorem Ending.answer {t : List Event} {q : Query} {next : Bool → Act (Session × Reply)}
    (h : Ending t (.ask q next)) (b : Bool) : Ending t (next b) := by
  rcases h with ⟨h0, hlast⟩ | ⟨h1, hrest⟩
  · exact .inl ⟨h0, hlast b⟩
  · exact .inr ⟨h1, hrest.2 b⟩

namespace Fleet

variable [Float64 F] {W W' : Fleet F}

/-- The registry changes by an operation or not at all. -/
theorem Step.run (h : Step sha256 W W') : W'.run = W.run ∨
    ∃ op : Registry.Op, (∀ x ∈ op.random, x.length = 32 ∧ x ∉ W.run.drawn) ∧
      W'.run = W.run.after sha256 op := by
  cases h with
  | manage hfresh _ _ => exact .inr ⟨_, hfresh, rfl⟩
  | create hfresh _ _ => exact .inr ⟨_, hfresh, rfl⟩
  | _ => exact .inl rfl

/-- What a step makes of the sessions: they stay, and finish at most once more. -/
theorem Step.sessions (hb : Books sha256 config W) (h : Step sha256 W W') {k : ℕ} {x : Tenant}
    (hx : W.sessions.get k = some x) : ∃ x', W'.sessions.get k = some x' ∧
      finishings x.state.trace ≤ finishings x'.state.trace := by
  have hset : ∀ (V : Fleet F) (i : ℕ) (p : Profile) (state state' : Tenancy),
      V.sessions = W.sessions → W.sessions.get i = some ⟨p, state⟩ →
      finishings state.trace ≤ finishings state'.trace →
      ∃ x', (V.set i p state').sessions.get k = some x' ∧
        finishings x.state.trace ≤ finishings x'.state.trace := by
    intro V i p state state' hV hget hle
    show ∃ x', (V.sessions.put i ⟨p, state'⟩).get k = some x' ∧ _
    rw [hV, Table.get_put]
    by_cases hk : k = i
    · rw [if_pos hk]
      rw [hk, hget] at hx
      cases hx
      exact ⟨_, rfl, hle⟩
    · rw [if_neg hk]
      exact ⟨x, hx, le_rfl⟩
  have hmore : ∀ (t : List Event) (e : Event), finishings t ≤ finishings (t ++ [e]) := by
    intro t e
    rw [finishings_append]
    exact Nat.le_add_right _ _
  cases h with
  | manage => exact ⟨x, hx, le_rfl⟩
  | @create op hash live _ _ hnew =>
      have hlt := hb.numbered k x hx
      refine ⟨x, ?_, le_rfl⟩
      show (W.sessions.put live.session _).get k = some x
      rw [Table.get_put_ne _ _ (by omega)]
      exact hx
  | begin hget c hc => exact hset W _ _ _ _ rfl hget le_rfl
  | note hget he => exact hset W _ _ _ _ rfl hget (hmore _ _)
  | budget hget granted => exact hset W _ _ _ _ rfl hget le_rfl
  | acquire hget hm hnext he => exact hset _ _ _ _ _ rfl hget (hmore _ _)
  | reject hget _ => exact hset W _ _ _ _ rfl hget le_rfl
  | finish hget => exact hset W _ _ _ _ rfl hget le_rfl
  | start => exact ⟨x, hx, le_rfl⟩
  | dialFinished => exact ⟨x, hx, le_rfl⟩
  | streamFinished => exact ⟨x, hx, le_rfl⟩

/-- **In every run of a process a session finishes at most once.** -/
theorem Reachable.ends (hsha : Registry.TellsTokensApart sha256)
    (hnames : (config.profiles.map Profile.name).Nodup) (h : Reachable sha256 config W) :
    ∀ k x, W.sessions.get k = some x → x.state.Ends := by
  induction h with
  | start =>
      intro k x hx
      cases hx
  | @step W W' hr hs ih =>
      have hb := hr.books hsha hnames
      have hb' := hb.step hsha hnames hs
      have hset : ∀ (V : Fleet F) (i : ℕ) (p : Profile) (state : Tenancy),
          V.sessions = W.sessions → state.Ends →
          ∀ k x, (V.set i p state).sessions.get k = some x → x.state.Ends := by
        intro V i p state hV hstate k x hx
        change (V.sessions.put i ⟨p, state⟩).get k = some x at hx
        rw [hV, Table.get_put] at hx
        split_ifs at hx
        · cases hx
          exact hstate
        · exact ih k x hx
      cases hs with
      | manage => exact ih
      | create => exact hset _ _ _ _ rfl ⟨Nat.zero_le _, fun h => absurd h (Nat.lt_irrefl _)⟩
      | begin hget c hc =>
          exact hset W _ _ _ rfl (Finishes.ending (ih _ _ hget) (hb.tenants _ _ hget).2 c)
      | note hget he => exact hset W _ _ _ rfl (Ending.note (ih _ _ hget))
      | budget hget granted => exact hset W _ _ _ rfl (Ending.answer (ih _ _ hget) granted)
      | acquire hget hm hnext he =>
          have hadmitted := Ending.answer (ih _ _ hget) true
          rw [hnext] at hadmitted
          exact hset _ _ _ _ rfl hadmitted.note
      | reject hget _ => exact hset W _ _ _ rfl (Ending.answer (ih _ _ hget) false)
      | finish hget =>
          exact hset W _ _ _ rfl (Reachable.finishes ((hb.tenants _ _ hget).2.finish))
      | start => exact ih
      | dialFinished => exact ih
      | streamFinished => exact ih

end Fleet

/-! ### The runs -/

/-- A process with its `CloseToken` calls and the goroutines of `onFinished`. -/
structure Lifecycle (F : Type) where
  fleet : Fleet F
  /-- Calls of `CloseToken` that have read the maps and are about to close a session. -/
  closing : List (String × ℕ) := []
  /-- The tokens that `CloseToken` has returned nil for. -/
  acked : List String := []
  /-- The sessions that `sessionFinished` has run for, in this order. -/
  ran : List ℕ := []

/-- Where a token is in its life. -/
inductive TokenState where
  | unissued
  | live
  | remembered
  | forgotten
deriving DecidableEq, Repr

def TokenState.rank : TokenState → ℕ
  | unissued => 0
  | live => 1
  | remembered => 2
  | forgotten => 3

namespace Lifecycle

def registry (L : Lifecycle F) : Registry F := L.fleet.registry

/-- The token with this hash was given to a session. -/
def issued (sha256 : Bytes → Bytes) (L : Lifecycle F) (hash : Bytes) : Bool :=
  L.fleet.run.creations.any fun c => tokenHash sha256 c.result.token = some hash

/-- The state of the session token with this hash. -/
def tokenState (sha256 : Bytes → Bytes) (L : Lifecycle F) (hash : Bytes) : TokenState :=
  if L.registry.sessions.get hash ≠ none then .live
  else if L.registry.closedTokens.get hash ≠ none then .remembered
  else if L.issued sha256 hash then .forgotten
  else .unissued

section
variable [Float64 F] (sha256 : Bytes → Bytes)

/-- One thing happens. -/
inductive Step : Lifecycle F → Lifecycle F → Prop
  /-- A step of the process other than `sessionFinished`, which counts the closed sessions. -/
  | work {L : Lifecycle F} {W : Fleet F} (h : Fleet.Step sha256 L.fleet W)
      (hclosed : W.registry.sessionsClosed = L.registry.sessionsClosed) :
      Step L { L with fleet := W }
  /-- `CloseToken` finds a session. -/
  | closeToken {L : Lifecycle F} {token : String} {k : ℕ}
      (h : L.registry.closeToken sha256 token = .ok (some k)) :
      Step L { L with closing := (token, k) :: L.closing }
  /-- `Close` has left the session closed, and `CloseToken` returns nil. -/
  | closeReturns {L : Lifecycle F} {token : String} {k : ℕ} {p : Profile} {σ : Traced}
      (hcall : (token, k) ∈ L.closing) (hidle : L.fleet.sessions.get k = some ⟨p, .idle σ⟩)
      (hclosed : σ.session.closed = true) :
      Step L { L with closing := L.closing.erase (token, k), acked := token :: L.acked }
  /-- `CloseToken` finds a closed token and returns nil. -/
  | closeAgain {L : Lifecycle F} {token : String}
      (h : L.registry.closeToken sha256 token = .ok none) :
      Step L { L with acked := token :: L.acked }
  /-- A goroutine that `closeLocked` started runs `sessionFinished`. -/
  | sessionFinished {L : Lifecycle F} {k : ℕ} {x : Tenant} {now : ℤ} {order : List Bytes}
      (hx : L.fleet.sessions.get k = some x)
      (hstarted : L.ran.count k < finishings x.state.trace)
      (hmeets : L.registry.Meets order) :
      Step L { L with
        fleet := { L.fleet with
          run := L.fleet.run.after sha256 (.sessionFinished k now order) }
        ran := L.ran ++ [k] }

inductive Reachable (config : Config) : Lifecycle F → Prop
  | start : Reachable config { fleet := newFleet config }
  | step {L L' : Lifecycle F} : Reachable config L → Step sha256 L L' → Reachable config L'

abbrev Steps : Lifecycle F → Lifecycle F → Prop := Relation.ReflTransGen (Step sha256)

end

variable [Float64 F] {L L' : Lifecycle F}

theorem Reachable.steps (h : Reachable sha256 config L) (hs : Steps sha256 L L') :
    Reachable sha256 config L' := by
  induction hs with
  | refl => exact h
  | tail _ hstep ih => exact ih.step hstep

/-- A session for which `sessionFinished` is about to run has finished. -/
theorem finished_of_count {t : List Event} {n : ℕ} (h : n < finishings t) : .finished ∈ t :=
  List.count_pos_iff.mp (Nat.zero_lt_of_lt h)

/-- What a session of the process goes on to is reached. -/
theorem Reachable.advance {W W' : Fleet F} {k : ℕ} {now : ℤ}
    (h : Reachable sha256 config { L with fleet := W }) (ha : W.advance k now = some W') :
    Reachable sha256 config { L with fleet := W' } := by
  obtain ⟨hs, hrun⟩ := Fleet.advance_step sha256 ha
  exact h.step (Step.work (L := { L with fleet := W }) hs
    (congrArg (·.registry.sessionsClosed) hrun))

theorem Reachable.fleet (h : Reachable sha256 config L) :
    Fleet.Reachable sha256 config L.fleet := by
  induction h with
  | start => exact .start
  | step _ hs ih =>
      cases hs with
      | work h _ => exact ih.step h
      | closeToken => exact ih
      | closeReturns => exact ih
      | closeAgain => exact ih
      | @sessionFinished k x now order hx hstarted _ =>
          refine ih.step (Fleet.Step.manage ?_ rfl ?_)
          · intro y hy
            cases hy
          · rintro k' now' order' ⟨⟩
            exact ⟨x, hx, finished_of_count hstarted⟩

def Given (sha256 : Bytes → Bytes) (L : Lifecycle F) (hash : Bytes) (k : ℕ) : Prop :=
  ∃ c ∈ L.fleet.run.creations, tokenHash sha256 c.result.token = some hash ∧ c.result.session = k

/-- What holds of the tokens in every state of a run. -/
structure Inv (sha256 : Bytes → Bytes) (L : Lifecycle F) : Prop where
  once : L.ran.Nodup
  finished : ∀ k ∈ L.ran, ∃ x, L.fleet.sessions.get k = some x ∧ 0 < finishings x.state.trace
  drawn : ∀ c ∈ L.fleet.run.creations, ∃ input ∈ L.fleet.run.drawn,
    tokenHash sha256 c.result.token = some (sha256 input)
  numbered : ∀ c ∈ L.fleet.run.creations, c.result.session < L.registry.nextSession
  apart : (L.fleet.run.creations.map (·.result.session)).Nodup
  live : ∀ c ∈ L.fleet.run.creations, c.result.session ∉ L.ran →
    ∃ hash l, tokenHash sha256 c.result.token = some hash ∧
      L.registry.sessions.get hash = some l ∧ l.session = c.result.session
  given : ∀ hash l, L.registry.sessions.get hash = some l →
    L.Given sha256 hash l.session ∧ l.session ∉ L.ran
  closed : ∀ hash, L.registry.closedTokens.get hash ≠ none →
    ∃ k ∈ L.ran, L.Given sha256 hash k
  room : (L.registry.closedTokens.size : ℤ) ≤
    L.registry.config.limits.maxSessionsGlobal.toInt * 16

/-- What one step may do to a token. -/
def TokenMoved (sha256 : Bytes → Bytes) (L L' : Lifecycle F) (hash : Bytes) : Prop :=
  L'.tokenState sha256 hash = L.tokenState sha256 hash ∨
    L.tokenState sha256 hash = .unissued ∧ L'.tokenState sha256 hash = .live ∨
    L.tokenState sha256 hash = .live ∧ L'.tokenState sha256 hash = .remembered ∨
    L.tokenState sha256 hash = .remembered ∧ L'.tokenState sha256 hash = .forgotten ∧
      ∃ op : Registry.Op, L'.fleet.run = L.fleet.run.after sha256 op ∧
        op.Drops L.registry hash

/-- What a step does to the registry and the callbacks that ran. -/
theorem Step.effect (h : Step sha256 L L') :
    (L'.fleet.run = L.fleet.run ∧ L'.ran = L.ran) ∨
      ∃ op : Registry.Op, (∀ x ∈ op.random, x.length = 32 ∧ x ∉ L.fleet.run.drawn) ∧
        L'.fleet.run = L.fleet.run.after sha256 op ∧
        ((∀ k now order, op ≠ .sessionFinished k now order) ∧ L'.ran = L.ran ∨
          ∃ k now order x, op = .sessionFinished k now order ∧ L.registry.Meets order ∧
            L.fleet.sessions.get k = some x ∧ L.ran.count k < finishings x.state.trace ∧
            L'.ran = L.ran ++ [k]) := by
  cases h with
  | @work W h hclosed =>
      rcases h.run with hrun | ⟨op, hfresh, hrun⟩
      · exact .inl ⟨hrun, rfl⟩
      · refine .inr ⟨op, hfresh, hrun, .inl ⟨?_, rfl⟩⟩
        rintro k now order rfl
        have hcount : W.registry.sessionsClosed = L.registry.sessionsClosed + 1 := by
          show W.run.registry.sessionsClosed = _
          rw [hrun]
          exact Registry.sessionFinished_counts _ k now order
        omega
  | closeToken => exact .inl ⟨rfl, rfl⟩
  | closeReturns => exact .inl ⟨rfl, rfl⟩
  | closeAgain => exact .inl ⟨rfl, rfl⟩
  | @sessionFinished k x now order hx hstarted hmeets =>
      refine .inr ⟨.sessionFinished k now order, ?_, rfl, .inr ⟨k, now, order, x, rfl, hmeets, hx,
        hstarted, rfl⟩⟩
      intro y hy
      cases hy

/-- The sessions of a process stay, and what has finished has finished. -/
theorem Step.sessions (hb : Fleet.Books sha256 config L.fleet) (h : Step sha256 L L') {k : ℕ}
    {x : Tenant} (hx : L.fleet.sessions.get k = some x) : ∃ x', L'.fleet.sessions.get k = some x' ∧
      finishings x.state.trace ≤ finishings x'.state.trace := by
  cases h with
  | work h _ => exact h.sessions hb hx
  | _ => exact ⟨x, hx, le_rfl⟩

theorem Inv.start (config : Config) :
    Inv sha256 ({ fleet := newFleet config } : Lifecycle F) := by
  have hpos := Config.Limits.validate_positive config.valid config.limits.maxSessionsGlobal
    (by simp [Config.Limits.positive])
  have hpos' := Int64.lt_iff_toInt_lt.mp hpos
  rw [Int64.toInt_zero] at hpos'
  refine ⟨List.nodup_nil, by simp, ?_, ?_, List.nodup_nil, ?_, ?_, ?_, ?_⟩
  · intro c hc
    cases hc
  · intro c hc
    cases hc
  · intro c hc
    cases hc
  · intro hash l hl
    cases hl
  · exact fun hash hne => absurd rfl hne
  · have hzero : ((Table.nil : Table Bytes ℤ).size : ℤ) = 0 := rfl
    show ((Table.nil : Table Bytes ℤ).size : ℤ) ≤ config.limits.maxSessionsGlobal.toInt * 16
    omega

omit [Float64 F] in
theorem Given.mono {hash : Bytes} {k : ℕ} (h : L.Given sha256 hash k)
    (hmore : ∀ c ∈ L.fleet.run.creations, c ∈ L'.fleet.run.creations) :
    L'.Given sha256 hash k := by
  obtain ⟨c, hc, htoken, hsession⟩ := h
  exact ⟨c, hmore c hc, htoken, hsession⟩

section
variable (hsha : Registry.TellsTokensApart sha256)
  (hnames : (config.profiles.map Profile.name).Nodup)
include hsha hnames

theorem Inv.step (hr : Reachable sha256 config L) (h : L.Inv sha256) (hs : Step sha256 L L') :
    L'.Inv sha256 := by
  have hb := hr.fleet.books hsha hnames
  have hb' := (hr.step hs).fleet.books hsha hnames
  have hl := hb.registry.ledger hsha
  have hw := hb.registry.within hsha hnames
  have hw' := hb'.registry.within hsha hnames
  have hends := hr.fleet.ends hsha hnames
  have hfinished : ∀ k ∈ L.ran,
      ∃ x, L'.fleet.sessions.get k = some x ∧ 0 < finishings x.state.trace := by
    intro k hk
    obtain ⟨x, hx, hpos⟩ := h.finished k hk
    obtain ⟨x', hx', hle⟩ := hs.sessions hb hx
    exact ⟨x', hx', hpos.trans_le hle⟩
  have hmax : L'.registry.config.limits.maxSessionsGlobal =
      L.registry.config.limits.maxSessionsGlobal := by
    show L'.fleet.run.registry.config.limits.maxSessionsGlobal =
      L.fleet.run.registry.config.limits.maxSessionsGlobal
    rw [hw'.configured, hw.configured]
  have hpos : 0 < L.registry.config.limits.maxSessionsGlobal.toInt := by
    show 0 < L.fleet.run.registry.config.limits.maxSessionsGlobal.toInt
    rw [hw.configured]
    have := Int64.lt_iff_toInt_lt.mp (Config.Limits.validate_positive config.valid
      config.limits.maxSessionsGlobal (by simp [Config.Limits.positive]))
    rwa [Int64.toInt_zero] at this
  rcases hs.effect with ⟨hrun, hran⟩ | ⟨op, hfresh, hrun, hcall⟩
  · have hreg : L'.registry = L.registry := congrArg Registry.Run.registry hrun
    have hgiven : ∀ {hash k}, L.Given sha256 hash k → L'.Given sha256 hash k := fun hg =>
      hg.mono fun c hc => hrun ▸ hc
    refine ⟨hran ▸ h.once, hran ▸ hfinished, hrun ▸ h.drawn, ?_, hrun ▸ h.apart, ?_, ?_, ?_, ?_⟩
    · rw [hrun, hreg]
      exact h.numbered
    · rw [hrun, hran, hreg]
      exact h.live
    · rw [hreg, hran]
      exact fun hash l hget => ⟨hgiven (h.given hash l hget).1, (h.given hash l hget).2⟩
    · rw [hreg, hran]
      intro hash hne
      obtain ⟨k, hk, hg⟩ := h.closed hash hne
      exact ⟨k, hk, hgiven hg⟩
    · rw [hreg]
      exact h.room
  · have hmeets : ∀ value now order, op = .sessionFinished value now order →
        L.registry.Meets order := by
      intro value now order hop
      rcases hcall with ⟨hnot, -⟩ | ⟨k, now', order', x, rfl, hmeets, -⟩
      · exact absurd hop (hnot value now order)
      · cases hop
        exact hmeets
    have hkept : ∀ k ∈ L.ran, k ∈ L'.ran := by
      intro k hk
      rcases hcall with ⟨-, hran⟩ | ⟨k', now, order, x, -, -, -, -, hran⟩
      · rwa [hran]
      · rw [hran]
        exact List.mem_append_left _ hk
    have hnew : ∀ k ∈ L'.ran, k ∈ L.ran ∨ ∃ now order, op = .sessionFinished k now order := by
      intro k hk
      rcases hcall with ⟨-, hran⟩ | ⟨k', now, order, x, hop, -, -, -, hran⟩
      · exact .inl (hran ▸ hk)
      · rw [hran] at hk
        rcases List.mem_append.mp hk with hk | hk
        · exact .inl hk
        · rw [List.mem_singleton.mp hk]
          exact .inr ⟨now, order, hop⟩
    have hran : L'.ran.Nodup ∧ ∀ k ∈ L'.ran,
        ∃ x, L'.fleet.sessions.get k = some x ∧ 0 < finishings x.state.trace := by
      rcases hcall with ⟨-, hran⟩ | ⟨k, now, order, x, -, -, hx, hcount, hran⟩
      · rw [hran]
        exact ⟨h.once, hfinished⟩
      · have honce := (hends k x hx).once
        have hnot : k ∉ L.ran := List.count_eq_zero.mp (by omega)
        obtain ⟨x', hx', hle⟩ := hs.sessions hb hx
        rw [hran]
        refine ⟨?_, ?_⟩
        · rw [List.nodup_append]
          refine ⟨h.once, List.nodup_singleton k, ?_⟩
          intro a ha b hb' hab
          rw [List.mem_singleton.mp hb'] at hab
          exact hnot (hab ▸ ha)
        · intro k' hk'
          rcases List.mem_append.mp hk' with hk' | hk'
          · exact hfinished k' hk'
          · rw [List.mem_singleton.mp hk']
            exact ⟨x', hx', by omega⟩
    have hreg : L'.registry = op.exec sha256 L.registry := congrArg Registry.Run.registry hrun
    have hcreations : L'.fleet.run.creations =
        L.fleet.run.creations ++ (op.creation sha256 L.registry).toList :=
      congrArg Registry.Run.creations hrun
    have hdrawn : L'.fleet.run.drawn = L.fleet.run.drawn ++ op.random.toList :=
      congrArg Registry.Run.drawn hrun
    have heffect := @Registry.Op.tokens F sha256 _ L.registry op hmeets
    rw [← hreg] at heffect
    have hmonotone : ∀ c ∈ L.fleet.run.creations, c ∈ L'.fleet.run.creations := fun c hc => by
      rw [hcreations]
      exact List.mem_append_left _ hc
    generalize op.creation sha256 L.registry = creation at heffect hcreations
    have hnext : L.registry.nextSession ≤ L'.registry.nextSession := by
      rw [hreg]
      exact (hw.after hl hsha hnames op hfresh).2
    have hinputs : ∀ c ∈ L.fleet.run.creations, ∃ input ∈ L'.fleet.run.drawn,
        tokenHash sha256 c.result.token = some (sha256 input) := by
      intro c hc
      obtain ⟨input, hinput, htoken⟩ := h.drawn c hc
      exact ⟨input, hdrawn ▸ List.mem_append_left _ hinput, htoken⟩
    have hnumbered : ∀ c ∈ L.fleet.run.creations,
        c.result.session < L'.registry.nextSession := fun c hc =>
      (h.numbered c hc).trans_le hnext
    cases heffect with
    | @created c input live hinput htoken hsession hlive hsessions hclosed =>
        obtain ⟨hlength, hunseen⟩ := hfresh input hinput
        obtain ⟨-, hnone, -⟩ := hl.fresh hsha hlength hunseen
        have hhash : tokenHash sha256 c.result.token = some (sha256 input) := by
          rw [htoken]
          exact tokenHash_newToken sha256 hlength
        have hran' : ∀ k ∈ L'.ran, k ∈ L.ran := by
          intro k hk
          rcases hnew k hk with hk | ⟨now, order, rfl⟩
          · exact hk
          · cases hinput
        have hnever : L.registry.nextSession ∉ L.ran := by
          intro hk
          obtain ⟨x, hx, -⟩ := h.finished _ hk
          exact Nat.lt_irrefl _ (hb.numbered _ _ hx)
        have hother : ∀ hash k, L.Given sha256 hash k → hash ≠ sha256 input := by
          rintro hash k ⟨c', hc', htoken', -⟩ rfl
          obtain ⟨y, hy, hsame⟩ := h.drawn c' hc'
          rw [htoken'] at hsame
          have := hsha input y hlength (hl.lengths y hy) (Option.some.inj hsame)
          exact hunseen (this ▸ hy)
        have hlt : L.registry.nextSession < L'.registry.nextSession := by
          have hheld := (hw'.held (sha256 input) live (by
            rw [show L'.fleet.run.registry.sessions = _ from hsessions]
            exact Table.get_put_self _ _ _)).2
          rwa [hlive] at hheld
        have hc : c ∈ L'.fleet.run.creations := by
          rw [hcreations]
          exact List.mem_append_right _ (List.mem_singleton_self c)
        have hcases : ∀ c' ∈ L'.fleet.run.creations, c' ∈ L.fleet.run.creations ∨ c' = c := by
          intro c' hc'
          rw [hcreations] at hc'
          rcases List.mem_append.mp hc' with hc' | hc'
          · exact .inl hc'
          · exact .inr (List.mem_singleton.mp hc')
        refine ⟨hran.1, hran.2, ?_, ?_, ?_, ?_, ?_, ?_, ?_⟩
        · intro c' hc'
          rcases hcases c' hc' with hc' | rfl
          · exact hinputs c' hc'
          · refine ⟨input, ?_, hhash⟩
            rw [hdrawn, hinput]
            exact List.mem_append_right _ (List.mem_singleton_self input)
        · intro c' hc'
          rcases hcases c' hc' with hc' | rfl
          · exact hnumbered c' hc'
          · rwa [hsession]
        · rw [hcreations, List.map_append, List.nodup_append]
          refine ⟨h.apart, List.nodup_singleton _, ?_⟩
          intro k hk k' hk' heq
          obtain ⟨c', hc', rfl⟩ := List.mem_map.mp hk
          have hk₁ : k' = c.result.session := List.mem_singleton.mp hk'
          rw [hk₁, hsession] at heq
          exact absurd heq (h.numbered c' hc').ne
        · intro c' hc' hnot
          rw [hsessions]
          rcases hcases c' hc' with hc' | rfl
          · obtain ⟨hash, l, htoken', hget, hl'⟩ := h.live c' hc' fun hk => hnot (hkept _ hk)
            refine ⟨hash, l, htoken', ?_, hl'⟩
            rw [Table.get_put_ne _ _ (hother hash _ ⟨c', hc', htoken', rfl⟩)]
            exact hget
          · exact ⟨_, live, hhash, Table.get_put_self _ _ _, hlive.trans hsession.symm⟩
        · intro hash l hget
          rw [hsessions, Table.get_put] at hget
          split_ifs at hget with hk
          · cases hget
            subst hk
            rw [hlive]
            exact ⟨⟨c, hc, hhash, hsession⟩, fun hk => hnever (hran' _ hk)⟩
          · obtain ⟨hg, hnot⟩ := h.given hash l hget
            exact ⟨hg.mono hmonotone, fun hk => hnot (hran' _ hk)⟩
        · rw [hclosed]
          intro hash hne
          obtain ⟨k, hk, hg⟩ := h.closed hash hne
          exact ⟨k, hkept k hk, hg.mono hmonotone⟩
        · rw [hclosed, hmax]
          exact h.room
    | @finished value now expires order hash live closedTokens hop hget hlive hsessions hkeeps
        hroom hclosed =>
        rw [Option.toList_none, List.append_nil] at hcreations
        have hvalue : value ∈ L'.ran := by
          rcases hcall with ⟨hnot, -⟩ | ⟨k, now', order', x, rfl, -, -, -, hran'⟩
          · exact absurd hop (hnot _ _ _)
          · cases hop
            rw [hran']
            exact List.mem_append_right _ (List.mem_singleton_self _)
        have hran' : ∀ k ∈ L'.ran, k ∈ L.ran ∨ k = value := by
          intro k hk
          rcases hnew k hk with hk | ⟨now', order', hop'⟩
          · exact .inl hk
          · rw [hop] at hop'
            cases hop'
            exact .inr rfl
        obtain ⟨hgiven, hnot⟩ := h.given hash live hget
        rw [hlive] at hgiven hnot
        refine ⟨hran.1, hran.2, ?_, ?_, hcreations ▸ h.apart, ?_, ?_, ?_, ?_⟩
        · rw [hcreations]
          exact hinputs
        · rw [hcreations]
          exact hnumbered
        · rw [hcreations, hsessions]
          intro c hc hc'
          obtain ⟨hash', l, htoken, hget', hl'⟩ := h.live c hc fun hk => hc' (hkept _ hk)
          refine ⟨hash', l, htoken, ?_, hl'⟩
          rw [Table.get_del_ne _ ?_]
          · exact hget'
          · rintro rfl
            rw [hget] at hget'
            cases hget'
            exact hc' (by rwa [← hl', hlive])
        · intro hash' l hget'
          rw [hsessions, Table.get_del] at hget'
          split_ifs at hget' with hk
          obtain ⟨hg, hl'⟩ := h.given hash' l hget'
          refine ⟨hg.mono hmonotone, fun hmem => ?_⟩
          rcases hran' _ hmem with hmem | heq
          · exact hl' hmem
          · -- two tokens of one session
            obtain ⟨c, hc, htoken, hc₁⟩ := hgiven
            obtain ⟨c', hc', htoken', hc₂⟩ := hg
            have hsame : c' = c := List.inj_on_of_nodup_map h.apart hc' hc
              (hc₂.trans (heq.trans hc₁.symm))
            rw [hsame, htoken] at htoken'
            exact hk (Option.some.inj htoken').symm
        · intro hash' hne
          rw [hclosed, Table.get_put] at hne
          split_ifs at hne with hk
          · subst hk
            exact ⟨value, hvalue, hgiven.mono hmonotone⟩
          · rcases hkeeps hash' with heq | ⟨hnone, -⟩
            · rw [heq] at hne
              obtain ⟨k, hk, hg⟩ := h.closed hash' hne
              exact ⟨k, hkept k hk, hg.mono hmonotone⟩
            · exact absurd hnone hne
        · have hle := hroom hpos h.room
          have hput := Registry.size_put_le closedTokens hash expires
          rw [hclosed, hmax]
          omega
    | other hmissing hsessions hkeeps hsize =>
        rw [Option.toList_none, List.append_nil] at hcreations
        refine ⟨hran.1, hran.2, ?_, ?_, hcreations ▸ h.apart, ?_, ?_, ?_, ?_⟩
        · rw [hcreations]
          exact hinputs
        · rw [hcreations]
          exact hnumbered
        · rw [hcreations, hsessions]
          exact fun c hc hc' => h.live c hc fun hk => hc' (hkept _ hk)
        · rw [hsessions]
          intro hash l hget
          obtain ⟨hg, hnot⟩ := h.given hash l hget
          refine ⟨hg.mono hmonotone, fun hmem => ?_⟩
          rcases hnew _ hmem with hmem | ⟨now, order, hop⟩
          · exact hnot hmem
          · exact hmissing _ _ _ hop hash l hget rfl
        · intro hash hne
          rcases hkeeps hash with heq | ⟨hnone, -⟩
          · rw [heq] at hne
            obtain ⟨k, hk, hg⟩ := h.closed hash hne
            exact ⟨k, hkept k hk, hg.mono hmonotone⟩
          · exact absurd hnone hne
        · have hle := h.room
          rw [hmax]
          omega

theorem Reachable.inv (h : Reachable sha256 config L) : L.Inv sha256 := by
  induction h with
  | start => exact .start config
  | step hr hs ih => exact ih.step hsha hnames hr hs

omit [Float64 F] hsha hnames in
/-- Where a token stays in `m.sessions`, or out of it, it can only be forgotten. -/
theorem Inv.keeps (h : L.Inv sha256) {hash : Bytes} {D : Prop}
    (hsessions : L'.registry.sessions.get hash = L.registry.sessions.get hash)
    (hissued : L'.issued sha256 hash = L.issued sha256 hash)
    (hclosed : L'.registry.closedTokens.get hash = L.registry.closedTokens.get hash ∨
      L'.registry.closedTokens.get hash = none ∧ D) :
    L'.tokenState sha256 hash = L.tokenState sha256 hash ∨
      L.tokenState sha256 hash = .remembered ∧ L'.tokenState sha256 hash = .forgotten ∧ D := by
  unfold tokenState
  rw [hsessions, hissued]
  rcases hclosed with hsame | ⟨hnone, hd⟩
  · rw [hsame]
    exact .inl rfl
  by_cases hlive : L.registry.sessions.get hash ≠ none
  · rw [if_pos hlive, if_pos hlive]
    exact .inl rfl
  rw [if_neg hlive, if_neg hlive, hnone]
  by_cases hwas : L.registry.closedTokens.get hash ≠ none
  · obtain ⟨k, -, c, hc, htoken, -⟩ := h.closed hash hwas
    have hgiven : L.issued sha256 hash = true :=
      List.any_eq_true.mpr ⟨c, hc, by simpa using htoken⟩
    rw [if_pos hwas, if_neg (by simp), hgiven, if_pos rfl]
    exact .inr ⟨rfl, rfl, hd⟩
  · rw [if_neg hwas, if_neg (by simp)]
    exact .inl rfl

theorem Step.token (hr : Reachable sha256 config L) (hs : Step sha256 L L') (hash : Bytes) :
    TokenMoved sha256 L L' hash := by
  have hb := hr.fleet.books hsha hnames
  have hl := hb.registry.ledger hsha
  have hinv := hr.inv hsha hnames
  rcases hs.effect with ⟨hrun, -⟩ | ⟨op, hfresh, hrun, hcall⟩
  · left
    unfold tokenState issued
    rw [show L'.registry = L.registry from congrArg Registry.Run.registry hrun, hrun]
  have hmeets : ∀ value now order, op = .sessionFinished value now order →
      L.registry.Meets order := by
    intro value now order hop
    rcases hcall with ⟨hnot, -⟩ | ⟨k, now', order', x, rfl, hmeets, -⟩
    · exact absurd hop (hnot value now order)
    · cases hop
      exact hmeets
  have hreg : L'.registry = op.exec sha256 L.registry := congrArg Registry.Run.registry hrun
  have hcreations : L'.fleet.run.creations =
      L.fleet.run.creations ++ (op.creation sha256 L.registry).toList :=
    congrArg Registry.Run.creations hrun
  have hissued : L'.issued sha256 hash = (L.issued sha256 hash ||
      (op.creation sha256 L.registry).toList.any fun c =>
        tokenHash sha256 c.result.token = some hash) := by
    unfold issued
    rw [hcreations, List.any_append]
  have heffect := @Registry.Op.tokens F sha256 _ L.registry op hmeets
  rw [← hreg] at heffect
  have hdrops : ∀ D : Prop, (D → op.Drops L.registry hash) →
      (L'.tokenState sha256 hash = L.tokenState sha256 hash ∨
        L.tokenState sha256 hash = .remembered ∧ L'.tokenState sha256 hash = .forgotten ∧ D) →
      TokenMoved sha256 L L' hash := by
    intro D hd h
    rcases h with h | ⟨h, h', hd'⟩
    · exact .inl h
    · exact .inr (.inr (.inr ⟨h, h', op, hrun, hd hd'⟩))
  generalize op.creation sha256 L.registry = creation at heffect hissued
  cases heffect with
  | @created c input live hinput htoken hsession hlive hsessions hclosed =>
      obtain ⟨hlength, hunseen⟩ := hfresh input hinput
      obtain ⟨-, hnone, -⟩ := hl.fresh hsha hlength hunseen
      have hhash : tokenHash sha256 c.result.token = some (sha256 input) := by
        rw [htoken]
        exact tokenHash_newToken sha256 hlength
      by_cases hk : hash = sha256 input
      · subst hk
        have hother : ∀ c' ∈ L.fleet.run.creations,
            tokenHash sha256 c'.result.token ≠ some (sha256 input) := by
          intro c' hc' htoken'
          obtain ⟨y, hy, hsame⟩ := hinv.drawn c' hc'
          rw [htoken'] at hsame
          have := hsha input y hlength (hl.lengths y hy) (Option.some.inj hsame)
          exact hunseen (this ▸ hy)
        refine .inr (.inl ⟨?_, ?_⟩)
        · have hclosed' : L.registry.closedTokens.get (sha256 input) = none := by
            by_contra hne
            obtain ⟨k, -, c', hc', htoken', -⟩ := hinv.closed _ hne
            exact hother c' hc' htoken'
          have hnot : L.issued sha256 (sha256 input) = false := by
            unfold issued
            rw [List.any_eq_false]
            exact fun c' hc' => by simpa using hother c' hc'
          unfold tokenState
          rw [show L.registry.sessions.get (sha256 input) = none from hnone, hclosed', hnot]
          rfl
        · unfold tokenState
          rw [hsessions, Table.get_put_self, if_pos (by simp)]
      · refine hdrops False False.elim (hinv.keeps ?_ ?_ (.inl (by rw [hclosed])))
        · rw [hsessions, Table.get_put_ne _ _ hk]
        · rw [hissued]
          have : ¬ sha256 input = hash := fun heq => hk heq.symm
          simp [hhash, this]
  | @finished value now expires order hash' live closedTokens hop hget hlive hsessions hkeeps
      hroom hclosed =>
      rw [Option.toList_none, List.any_nil, Bool.or_false] at hissued
      by_cases hk : hash = hash'
      · subst hk
        refine .inr (.inr (.inl ⟨?_, ?_⟩))
        · unfold tokenState
          rw [hget, if_pos (by simp)]
        · unfold tokenState
          rw [hsessions, Table.get_del, if_pos rfl, if_neg (by simp), hclosed,
            Table.get_put_self, if_pos (by simp)]
      · refine hdrops _ id (hinv.keeps ?_ hissued ?_)
        · rw [hsessions, Table.get_del_ne _ hk]
        · rw [hclosed, Table.get_put_ne _ _ hk]
          exact hkeeps hash
  | other hmissing hsessions hkeeps hsize =>
      rw [Option.toList_none, List.any_nil, Bool.or_false] at hissued
      refine hdrops _ id (hinv.keeps ?_ hissued (hkeeps hash))
      rw [hsessions]

theorem Steps.token (hr : Reachable sha256 config L) (hs : Steps sha256 L L') (hash : Bytes) :
    (L.tokenState sha256 hash).rank ≤ (L'.tokenState sha256 hash).rank := by
  induction hs with
  | refl => exact le_rfl
  | @tail L₁ L₂ hfirst hlast ih =>
      refine ih.trans ?_
      rcases hlast.token hsha hnames (hr.steps hfirst) hash with heq | ⟨h, h'⟩ | ⟨h, h'⟩ | ⟨h, h', -⟩
      · rw [heq]
      · rw [h, h']
        decide
      · rw [h, h']
        decide
      · rw [h, h']
        decide

end

/-! ### The law -/

omit [Float64 F] in
/-- `CloseToken` answers nil, at once or after closing the session, to the tokens that are live
or remembered. -/
theorem closeToken_ok_iff (L : Lifecycle F) (token : String) :
    (∃ value, L.registry.closeToken sha256 token = .ok value) ↔
      ∃ hash, tokenHash sha256 token = some hash ∧
        (L.tokenState sha256 hash = .live ∨ L.tokenState sha256 hash = .remembered) := by
  unfold Registry.closeToken
  cases tokenHash sha256 token with
  | none => simp
  | some hash =>
      unfold tokenState
      cases hget : L.registry.sessions.get hash with
      | some live => simp [hget]
      | none =>
          cases hclosed : L.registry.closedTokens.get hash with
          | some expires => simp [hget, hclosed]
          | none => cases hissued : L.issued sha256 hash <;> simp [hget, hclosed, hissued]

omit [Float64 F] in
theorem get_ok_iff (L : Lifecycle F) (token : String) :
    (∃ k, L.registry.get sha256 token = .ok k) ↔
      ∃ hash, tokenHash sha256 token = some hash ∧ L.tokenState sha256 hash = .live := by
  unfold Registry.get
  cases tokenHash sha256 token with
  | none => simp
  | some hash =>
      unfold tokenState
      simp only [Option.bind_some, Option.some.injEq, exists_eq_left']
      cases L.registry.sessions.get hash with
      | some live => simp
      | none =>
          cases L.registry.closedTokens.get hash with
          | some expires => simp
          | none => cases L.issued sha256 hash <;> simp

/-- The life of the session tokens, from a state of a run on. -/
structure TokenLife (sha256 : Bytes → Bytes) (L : Lifecycle F) : Prop where
  /-- A token moves only forward through live, remembered and forgotten. -/
  forward : ∀ L', Steps sha256 L L' → ∀ hash,
    (L.tokenState sha256 hash).rank ≤ (L'.tokenState sha256 hash).rank
  /-- It moves one place at a time, and is forgotten where its entry has expired or makes room
  as the first to expire. -/
  moves : ∀ L', Step sha256 L L' → ∀ hash, TokenMoved sha256 L L' hash
  /-- After `Get` has failed for a token that was live it never succeeds again. -/
  get : ∀ token k L' L'', L.registry.get sha256 token = .ok k → Steps sha256 L L' →
    L'.registry.get sha256 token = .error .authentication → Steps sha256 L' L'' →
      L''.registry.get sha256 token = .error .authentication
  /-- Where `CloseToken` has returned nil, it does so again until the token is forgotten. -/
  acked : ∀ token ∈ L.acked, (∃ value, L.registry.closeToken sha256 token = .ok value) ∨
    ∃ hash, tokenHash sha256 token = some hash ∧ L.tokenState sha256 hash = .forgotten
  /-- It ceases to with the step that drops the entry, which is remembered until then. -/
  kept : ∀ token value L', L.registry.closeToken sha256 token = .ok value → Step sha256 L L' →
    L'.registry.closeToken sha256 token = .error .authentication →
      ∃ hash op, tokenHash sha256 token = some hash ∧
        L.tokenState sha256 hash = .remembered ∧
        L'.fleet.run = L.fleet.run.after sha256 op ∧ Registry.Op.Drops L.registry hash op
  /-- Between the closing of a session and its `sessionFinished`, `CloseToken` finds it. -/
  pending : ∀ c ∈ L.fleet.run.creations, c.result.session ∉ L.ran →
    L.registry.closeToken sha256 c.result.token = .ok (some c.result.session)
  /-- `sessionFinished` runs at most once for a session, which is closed by then. -/
  once : L.ran.Nodup
  started : ∀ k x, L.fleet.sessions.get k = some x → finishings x.state.trace ≤ 1
  closed : ∀ k ∈ L.ran, ∀ p σ, L.fleet.sessions.get k = some ⟨p, .idle σ⟩ →
    σ.session.closed = true
  /-- The closed tokens that are remembered. -/
  room : (L.registry.closedTokens.size : ℤ) ≤
    L.registry.config.limits.maxSessionsGlobal.toInt * 16

section
variable (hsha : Registry.TellsTokensApart sha256)
  (hnames : (config.profiles.map Profile.name).Nodup)
include hsha hnames

/-- A token that `CloseToken` works on, or has worked on, was given to a session. -/
theorem Reachable.acked (h : Reachable sha256 config L) :
    (∀ call ∈ L.closing, ∃ hash, tokenHash sha256 call.1 = some hash ∧
      0 < (L.tokenState sha256 hash).rank) ∧
    ∀ token ∈ L.acked, ∃ hash, tokenHash sha256 token = some hash ∧
      0 < (L.tokenState sha256 hash).rank := by
  induction h with
  | start => exact ⟨by simp, by simp⟩
  | @step L L' hr hs ih =>
      have hkeep : ∀ {token : String}, (∃ hash, tokenHash sha256 token = some hash ∧
          0 < (L.tokenState sha256 hash).rank) → ∃ hash, tokenHash sha256 token = some hash ∧
          0 < (L'.tokenState sha256 hash).rank := by
        rintro token ⟨hash, hh, hpos⟩
        exact ⟨hash, hh, hpos.trans_le (Steps.token hsha hnames hr (.single hs) hash)⟩
      have hfound : ∀ {token : String} {value : Option ℕ},
          L.registry.closeToken sha256 token = .ok value →
          ∃ hash, tokenHash sha256 token = some hash ∧ 0 < (L.tokenState sha256 hash).rank := by
        intro token value hok
        obtain ⟨hash, hh, hstate⟩ := (closeToken_ok_iff L token).mp ⟨value, hok⟩
        refine ⟨hash, hh, ?_⟩
        rcases hstate with hstate | hstate <;> rw [hstate] <;> decide
      obtain ⟨hclosing, hacked⟩ := ih
      cases hs with
      | work _ _ =>
          exact ⟨fun call hc => hkeep (hclosing call hc), fun token ht => hkeep (hacked token ht)⟩
      | closeToken hok =>
          refine ⟨fun call hc => ?_, fun token ht => hkeep (hacked token ht)⟩
          rcases List.mem_cons.mp hc with rfl | hc
          · exact hkeep (hfound hok)
          · exact hkeep (hclosing call hc)
      | closeReturns hcall _ _ =>
          refine ⟨fun call hc => hkeep (hclosing call (List.mem_of_mem_erase hc)), ?_⟩
          intro token' ht
          rcases List.mem_cons.mp ht with rfl | ht
          · exact hkeep (hclosing _ hcall)
          · exact hkeep (hacked token' ht)
      | closeAgain hok =>
          refine ⟨fun call hc => hkeep (hclosing call hc), ?_⟩
          intro token' ht
          rcases List.mem_cons.mp ht with rfl | ht
          · exact hkeep (hfound hok)
          · exact hkeep (hacked token' ht)
      | sessionFinished _ _ _ =>
          exact ⟨fun call hc => hkeep (hclosing call hc), fun token ht => hkeep (hacked token ht)⟩

/-- **The life of a session token**, in every run of a process. -/
theorem token_lifecycle (h : Reachable sha256 config L) : L.TokenLife sha256 := by
  have hinv := h.inv hsha hnames
  have hends := h.fleet.ends hsha hnames
  refine ⟨?_, ?_, ?_, ?_, ?_, ?_, hinv.once, ?_, ?_, hinv.room⟩
  · exact fun L' hs hash => Steps.token hsha hnames h hs hash
  · exact fun L' hs hash => hs.token hsha hnames h hash
  · intro token k L' L'' hok hs herror hs'
    obtain ⟨hash, hh, hlive⟩ := (get_ok_iff L token).mp ⟨k, hok⟩
    have hfirst := Steps.token hsha hnames h hs hash
    have hsecond := Steps.token hsha hnames (h.steps hs) hs' hash
    cases hget : L''.registry.get sha256 token with
    | error e =>
        unfold Registry.get at hget
        split at hget <;> cases hget
        rfl
    | ok k' =>
        obtain ⟨hash', hh', hlive'⟩ := (get_ok_iff L'' token).mp ⟨k', hget⟩
        rw [hh] at hh'
        cases hh'
        rw [hlive'] at hsecond
        rw [hlive] at hfirst
        have hstate : L'.tokenState sha256 hash = .live := by
          cases hs' : L'.tokenState sha256 hash <;> rw [hs'] at hfirst hsecond <;>
            simp [TokenState.rank] at hfirst hsecond ⊢
        obtain ⟨k₁, hok₁⟩ := (get_ok_iff L' token).mpr ⟨hash, hh, hstate⟩
        rw [herror] at hok₁
        cases hok₁
  · intro token ht
    obtain ⟨hash, hh, hpos⟩ := (h.acked hsha hnames).2 token ht
    rw [closeToken_ok_iff]
    cases hstate : L.tokenState sha256 hash with
    | unissued =>
        rw [hstate] at hpos
        cases hpos
    | live => exact .inl ⟨hash, hh, .inl hstate⟩
    | remembered => exact .inl ⟨hash, hh, .inr hstate⟩
    | forgotten => exact .inr ⟨hash, hh, hstate⟩
  · intro token value L' hok hs herror
    obtain ⟨hash, hh, hstate⟩ := (closeToken_ok_iff L token).mp ⟨value, hok⟩
    have hgone : ¬ (L'.tokenState sha256 hash = .live ∨ L'.tokenState sha256 hash = .remembered) := by
      intro hkept
      obtain ⟨value', hok'⟩ := (closeToken_ok_iff L' token).mpr ⟨hash, hh, hkept⟩
      rw [herror] at hok'
      cases hok'
    rcases hs.token hsha hnames h hash with heq | ⟨hun, -⟩ | ⟨-, hrem⟩ | ⟨hrem, -, op, hrun, hdrops⟩
    · rw [heq] at hgone
      exact absurd hstate hgone
    · rw [hun] at hstate
      simp at hstate
    · exact absurd (.inr hrem) hgone
    · exact ⟨hash, op, hh, hrem, hrun, hdrops⟩
  · intro c hc hnot
    obtain ⟨hash, l, hh, hget, hl⟩ := hinv.live c hc hnot
    unfold Registry.closeToken
    rw [hh]
    dsimp only
    rw [hget, ← hl]
  · exact fun k x hx => (hends k x hx).once
  · intro k hk p σ hσ
    obtain ⟨x, hx, hpos⟩ := hinv.finished k hk
    rw [hσ] at hx
    cases hx
    exact Finishes.closed (hends k _ hσ) hpos

end

/-- A session is created and closed, `CloseToken` returns nil, and the session leaves the map. -/
theorem token_lifecycle_remembered : ∃ L : Lifecycle ℚ, L.ran = [0] ∧ L.acked.length = 1 ∧
    L.tokenState id (List.replicate 32 2) = .remembered ∧ L.TokenLife id := by
  let alpha : Profile := { name := "alpha", capability := zeroDigest }
  let token := Base64.encode (List.replicate 32 2)
  let issue : Registry.Op := .issueBootstrap (some alpha) "198.51.100.31" 0
    (some (List.replicate 32 1)) []
  let create : Registry.Op := .create (Base64.encode (List.replicate 32 1)) "198.51.100.31"
    (encode .hello 0 [1]) 1 (some (List.replicate 32 2))
  let limits := Registry.oneProfile.sessionLimits alpha
  let W₀ : Fleet ℚ := newFleet Registry.oneProfile
  let W₁ : Fleet ℚ := { W₀ with run := W₀.run.after id issue }
  let W₂ := { W₁ with run := W₁.run.after id create }.set 0 alpha
    (.idle ⟨newSession limits .https, []⟩)
  let W₃ := W₂.set 0 alpha (.running [] (Section.close.exec id (newSession limits .https)))
  let L₀ : Lifecycle ℚ := { fleet := W₀ }
  let L₁ : Lifecycle ℚ := { fleet := W₁ }
  let L₂ : Lifecycle ℚ := { fleet := W₂ }
  let L₃ : Lifecycle ℚ := { fleet := W₂, closing := [(token, 0)] }
  let L₄ : Lifecycle ℚ := { fleet := W₃, closing := [(token, 0)] }
  have h₁ : Reachable id Registry.oneProfile L₁ := by
    refine Reachable.start.step (Step.work (W := W₁) (@Fleet.Step.manage ℚ _ id W₀ issue
      (by decide +kernel) rfl ?_) (by decide +kernel))
    intro k now order hop
    simp [issue] at hop
  have hlive : (W₁.run.after id create).registry.sessions.get (List.replicate 32 2) =
      some ⟨0, "198.51.100.31", alpha⟩ := by decide +kernel
  have h₂ : Reachable id Registry.oneProfile L₂ :=
    h₁.step (Step.work (W := W₂) (@Fleet.Step.create ℚ _ id W₁ create _ _ (by decide +kernel)
      hlive (by decide +kernel)) (by decide +kernel))
  have h₃ : Reachable id Registry.oneProfile L₃ :=
    h₂.step (.closeToken (by decide +kernel))
  have h₄ : Reachable id Registry.oneProfile L₄ :=
    h₃.step (Step.work (W := W₃) (.begin (k := 0) (p := alpha)
      (σ := ⟨newSession limits .https, []⟩) rfl .close trivial) (by decide +kernel))
  have hgo : ((((W₃.advance 0 2).bind (·.advance 0 2)).bind (·.advance 0 2)).map fun W =>
      ((W.sessions.get 0).bind (·.state.traced)).map fun σ =>
        (σ.session.closed, finishings σ.trace)) = some (some (true, 1)) := by decide +kernel
  obtain ⟨W₆, hW₆, hclosed⟩ := Option.map_eq_some_iff.mp hgo
  obtain ⟨W₅, hW₅, ha₆⟩ := Option.bind_eq_some_iff.mp hW₆
  obtain ⟨W₄, ha₄, ha₅⟩ := Option.bind_eq_some_iff.mp hW₅
  obtain ⟨σ, hσ, hstate⟩ := Option.map_eq_some_iff.mp hclosed
  obtain ⟨⟨p, state⟩, hx, htraced⟩ := Option.bind_eq_some_iff.mp hσ
  obtain rfl := Tenancy.traced_eq_some htraced
  obtain ⟨hc, hcount⟩ := Prod.mk.inj hstate
  have h₅ : Reachable id Registry.oneProfile { L₄ with fleet := W₄ } :=
    Reachable.advance (L := L₄) h₄ ha₄
  have h₆ : Reachable id Registry.oneProfile { L₄ with fleet := W₅ } :=
    Reachable.advance (L := L₄) h₅ ha₅
  have h₇ : Reachable id Registry.oneProfile { L₄ with fleet := W₆ } :=
    Reachable.advance (L := L₄) h₆ ha₆
  have hrun : W₆.run = W₂.run := ((Fleet.advance_step id ha₆).2.trans
    (Fleet.advance_step id ha₅).2).trans (Fleet.advance_step id ha₄).2
  have hkeys : W₂.run.registry.closedTokens.keys = [] := by decide +kernel
  have hmeets : W₆.run.registry.Meets [] := by
    intro hash hne
    rw [hrun] at hne
    have hmem := (Table.mem_keys_iff _ _).mpr hne
    rwa [hkeys] at hmem
  have h₈ := h₇.step (.closeReturns (List.mem_singleton_self _) hx hc)
  have h₉ := h₈.step (@Step.sessionFinished _ _ id _ _ _ 3 [] hx
    (Nat.lt_of_lt_of_eq Nat.zero_lt_one hcount.symm) hmeets)
  refine ⟨_, ?_, ?_, ?_, token_lifecycle (fun a b _ _ hab => hab) (by decide) h₉⟩
  · rfl
  · rfl
  show tokenState id { fleet := { W₂ with run := W₆.run.after id (.sessionFinished 0 3 []) } } _ = _
  rw [hrun]
  decide +kernel

end Lifecycle

end TproxyServer
